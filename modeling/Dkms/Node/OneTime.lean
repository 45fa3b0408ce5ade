import Dkms.Node.Custody

namespace Dkms.Node

open List Option Std Dkms.Core Cluster AckPendingStore Nat

/-- Where the id of a transport key can be: still to be drawn, in the hands of a handler, waiting
for its receipt, in a `buffer_enc`, or in a container that was sent. -/
inductive Place where
  | later
  | hand (thread : Nat)
  | acks (node peer : NodeId)
  | enc (node peer : NodeId) (grade : KeyGrade)
  | post (number : Nat)
  deriving DecidableEq

def amount (later : List KeyId) (c : Cluster) : Place → KeyId → Nat
  | .later, id => later.count id
  | .hand i, id => c.threads[i]?.elim 0 fun (t : Task) => (t.hand.map (·.2)).count id
  | .acks n peer, id => (((c.world.nodes n).ackPending.bucket peer)[id]?).elim 0 fun _ => 1
  | .enc n peer grade, id => (((c.world.nodes n).enc peer grade).inner.map (·.id)).count id
  | .post j, id => c.world.posts[j]?.elim 0 fun post => post.body.transportKeyIds.count id

def Op.gains (self : NodeId) (thread posts : Nat) : Op → Option Place
  | .popOldest _ _ | .ackTake _ _ => some (.hand thread)
  | .pushFront peer grade _ | .tryPush peer grade _ => some (.enc self peer grade)
  | .ackInsert peer _ _ _ => some (.acks self peer)
  | .sendExtKeys _ _ => some (.post posts)
  | _ => none

section

variable {c : Cluster} {later : List KeyId} {i : Nat} {hint : Hint} {tag : Tag}
  {log : List ((op : Op) × op.Answer)} {op : Op} {rest : op.Answer → Handler Outcome}
  {answer : op.Answer} {world : World}

theorem hand_step (tag : Tag) (log : List ((op : Op) × op.Answer)) (op : Op) (answer : op.Answer)
    (prog prog' : Handler Outcome) : Task.hand ⟨tag, log ++ [⟨op, answer⟩], prog'⟩ =
      handle (Task.hand ⟨tag, log, prog⟩) op answer := by
  simp only [Task.hand, foldl_append, foldl_cons, foldl_nil]

theorem amount_hand (found : c.threads[i]? = some ⟨tag, log, .call op rest⟩) (id : KeyId) :
    amount later ⟨world, c.threads.set i ⟨tag, log ++ [⟨op, answer⟩], rest answer⟩⟩ (.hand i) id =
      ((handle (Task.hand ⟨tag, log, .call op rest⟩) op answer).map (·.2)).count id := by
  have bound : i < c.threads.length := (List.getElem?_eq_some_iff.mp found).1
  simp only [amount, List.getElem?_set_self bound, elim_some]
  rw [hand_step tag log op answer (.call op rest)]

theorem handle_le (hand : List Held) (quiet : op.gains tag.node i c.world.posts.length ≠
    some (.hand i)) (id : KeyId) :
    ((handle hand op answer).map (·.2)).count id ≤ (hand.map (·.2)).count id := by
  cases op with
  | popOldest peer grade => exact absurd rfl quiet
  | ackTake peer keyId => exact absurd rfl quiet
  | pushFront peer grade key => exact (erase_sublist.map _).count_le id
  | tryPush peer grade key => exact (erase_sublist.map _).count_le id
  | ackInsert peer keyId bytes grade => exact (erase_sublist.map _).count_le id
  | sendExtKeys peer body => exact ((diff_sublist _ _).map _).count_le id
  | _ => exact Nat.le_refl _

variable {posts : Nat}

theorem onEnc_le (self peer : NodeId) (grade : KeyGrade) (keys : List TransportKey)
    (quiet : op.gains self i posts ≠ some (.enc self peer grade)) (id : KeyId) :
    ((op.onEnc peer grade keys).map (·.id)).count id ≤ (keys.map (·.id)).count id := by
  refine ((Op.onEnc_sublist keys fun key => ⟨?_, ?_⟩).map _).count_le id <;>
  · rintro rfl
    exact quiet rfl

theorem elim_le_of_imp {α β : Type} {first : Option α} {second : Option β}
    (imp : first.isSome → second.isSome) :
    (first.elim 0 fun _ => 1) ≤ (second.elim 0 fun _ => 1) := by
  cases first with
  | none => exact Nat.zero_le _
  | some value =>
    obtain ⟨other, rfl⟩ := isSome_iff_exists.mp (imp rfl)
    exact Nat.le_refl _

theorem onAcks_le (self peer : NodeId) (now timeout : Nat) (s : AckPendingStore)
    (quiet : op.gains self i posts ≠ some (.acks self peer)) (id : KeyId) :
    (((op.onAcks now timeout s).bucket peer)[id]?.elim 0 fun _ => 1) ≤
      ((s.bucket peer)[id]?.elim 0 fun _ => 1) := by
  apply elim_le_of_imp
  cases op with
  | ackInsert p keyId bytes grade =>
    have other : p ≠ peer := by
      rintro rfl
      exact quiet rfl
    rw [Op.onAcks, bucket_insert, if_neg other]
    exact fun held => held
  | ackTake p keyId | ackDiscard p keyId =>
    rw [Op.onAcks, (bucket_takeDiagnosed s p peer keyId).1]
    split
    · simp
    · exact fun held => held
  | reapExpired =>
    rw [Op.onAcks, (bucket_reapExpired s now peer).1]
    exact isSome_of_isSome_filter _ _
  | dropPeer p =>
    rw [Op.onAcks, bucket_dropPeer]
    split
    · simp
    · exact fun held => held
  | _ => exact fun held => held

theorem amount_le (later : List KeyId) (found : c.threads[i]? = some ⟨tag, log, .call op rest⟩)
    (ran : exec tag.node op hint c.world = some (answer, world)) (place : Place)
    (quiet : op.gains tag.node i c.world.posts.length ≠ some place) (id : KeyId) :
    amount later ⟨world, c.threads.set i ⟨tag, log ++ [⟨op, answer⟩], rest answer⟩⟩ place id ≤
      amount later c place id := by
  cases place with
  | later => exact Nat.le_refl _
  | hand j =>
    by_cases same : i = j
    · subst same
      rw [amount_hand found]
      simp only [amount, found, elim_some]
      exact handle_le _ quiet id
    · simp only [amount, getElem?_set_ne same, Nat.le_refl]
  | acks n peer =>
    by_cases here : n = tag.node
    · subst here
      simp only [amount, exec_acks ran]
      exact onAcks_le tag.node peer _ _ _ quiet id
    · simp only [amount, exec_elsewhere ran here, Nat.le_refl]
  | enc n peer grade =>
    by_cases here : n = tag.node
    · subst here
      simp only [amount, exec_enc ran]
      exact onEnc_le tag.node peer grade _ quiet id
    · simp only [amount, exec_elsewhere ran here, Nat.le_refl]
  | post j =>
    rcases exec_posts ran with same | ⟨peer, body, rfl, added⟩
    · simp only [amount, same, Nat.le_refl]
    have other : j ≠ c.world.posts.length := by
      rintro rfl
      exact quiet rfl
    simp only [amount, added]
    rcases Nat.lt_or_gt_of_ne other with below | above
    · rw [getElem?_append_left below]
    · rw [getElem?_eq_none (by simp; omega)]
      exact Nat.zero_le _

variable {hand : List Held} {peer : NodeId}

theorem count_erase_held {keyId : KeyId}
    (held : (peer, keyId) ∈ hand) (id : KeyId) :
    ((hand.erase (peer, keyId)).map (·.2)).count id + [keyId].count id =
      (hand.map (·.2)).count id := by
  have perm := (perm_cons_erase held).map (·.2)
  rw [perm.count_eq, map_cons, count_cons, count_cons, count_nil, zero_add]

theorem count_diff_held {body : Etsi020ExtKeyContainer}
    (held : (body.held peer).Subperm hand) (id : KeyId) :
    ((hand.diff (body.held peer)).map (·.2)).count id + body.transportKeyIds.count id =
      (hand.map (·.2)).count id := by
  have perm := subperm_append_diff_self_of_count_le (subperm_ext_iff.mp held)
  have ids : (body.held peer).map (·.2) = body.transportKeyIds := by
    simp [Etsi020ExtKeyContainer.held]
  rw [← (perm.map (·.2)).count_eq, map_append, count_append, ids, add_comm]

theorem exclusive_step (exclusive : Exclusive (amount later c))
    (found : c.threads[i]? = some ⟨tag, log, .call op rest⟩)
    (ran : exec tag.node op hint c.world = some (answer, world))
    (may : custody.may (Task.hand ⟨tag, log, .call op rest⟩) op) : Exclusive (amount later
      ⟨world, c.threads.set i ⟨tag, log ++ [⟨op, answer⟩], rest answer⟩⟩) := by
  have others := amount_le later found ran
  have inHand : ∀ id, amount later c (.hand i) id =
      ((Task.hand ⟨tag, log, .call op rest⟩).map (·.2)).count id := by
    intro id
    simp only [amount, found, elim_some]
  have elsewhere : ∀ {target}, op.gains tag.node i c.world.posts.length = some target →
      ∀ place, place ≠ target → ∀ id, amount later _ place id ≤ amount later c place id :=
    fun gains place other => others place fun same => other (some.inj (same.symm.trans gains))
  -- a key that was not there is not taken
  have unmoved : op.gains tag.node i c.world.posts.length = some (.hand i) →
      handle (Task.hand ⟨tag, log, .call op rest⟩) op answer = Task.hand ⟨tag, log, .call op rest⟩ →
      Exclusive (amount later ⟨world, c.threads.set i ⟨tag, log ++ [⟨op, answer⟩], rest answer⟩⟩) := by
    intro gains still
    apply exclusive.lose
    intro place id
    by_cases here : place = .hand i
    · subst here
      rw [amount_hand found, inHand, still]
    · exact elsewhere gains place here id
  cases op with
  | popOldest peer grade =>
    have buffer := exec_enc ran peer grade
    simp only [Op.onEnc, and_self, if_true] at buffer
    simp only [exec, some.injEq, Prod.mk.injEq] at ran
    have head := (SecureKeyBuffer.popOldest_inner ((c.world.nodes tag.node).enc peer grade)).2
    rw [ran.1] at head
    cases answer with
    | none =>
      exact unmoved rfl rfl
    | some key =>
      obtain ⟨keys, held⟩ := head?_eq_some_iff.mp head.symm
      apply exclusive.move (.enc tag.node peer grade) (.hand i) (by simp)
      · exact fun place _ => elsewhere rfl place
      intro id
      rw [amount_hand found, inHand]
      simp only [amount, buffer, held, tail_cons, handle, map_cons, count_cons]
      omega
  | pushFront peer grade key =>
    have buffer := exec_enc ran peer grade
    simp only [Op.onEnc, and_self, if_true] at buffer
    apply exclusive.move (.hand i) (.enc tag.node peer grade) (by simp)
    · exact fun place _ => elsewhere rfl place
    intro id
    have left := count_erase_held may id
    rw [amount_hand found, inHand]
    simp only [amount, buffer, handle, map_cons, count_cons] at left ⊢
    omega
  | tryPush peer grade key =>
    have buffer := exec_enc ran peer grade
    simp only [Op.onEnc, and_self, if_true] at buffer
    apply exclusive.move (.hand i) (.enc tag.node peer grade) (by simp)
    · exact fun place _ => elsewhere rfl place
    intro id
    have left := count_erase_held may id
    rw [amount_hand found, inHand]
    simp only [amount, buffer, handle, map_append, map_cons, map_nil, count_append] at left ⊢
    omega
  | ackTake peer keyId =>
    have acks := exec_acks ran
    simp only [exec, some.injEq, Prod.mk.injEq] at ran
    cases answer with
    | hit entry =>
      have held := takeDiagnosed_hit ran.1
      apply exclusive.move (.acks tag.node peer) (.hand i) (by simp)
      · exact fun place _ => elsewhere rfl place
      intro id
      rw [amount_hand found, inHand]
      simp only [amount, acks, Op.onAcks, handle,
        (bucket_takeDiagnosed _ peer peer keyId).1]
      by_cases same : keyId = id
      · subst same
        simp [held]
      · simp [same]
    | unknownPeer | unknownKey =>
      exact unmoved rfl rfl
  | ackInsert peer keyId bytes grade =>
    have acks := exec_acks ran
    apply exclusive.move (.hand i) (.acks tag.node peer) (by simp)
    · exact fun place _ => elsewhere rfl place
    intro id
    have left := count_erase_held may id
    rw [amount_hand found, inHand]
    simp only [amount, acks, Op.onAcks, handle, bucket_insert, if_true,
      TreeMap.getElem?_insert] at left ⊢
    by_cases same : keyId = id
    · subst same
      simp at left ⊢
      omega
    · simp [same] at left ⊢
      omega
  | sendExtKeys peer body =>
    obtain ⟨-, rfl⟩ := ran
    apply exclusive.move (.hand i) (.post c.world.posts.length) (by simp)
    · exact fun place _ => elsewhere rfl place
    intro id
    have left := count_diff_held may id
    rw [amount_hand found, inHand]
    simp only [amount, handle, getElem?_concat_length, elim_some] at left ⊢
    omega
  | _ => exact exclusive.lose fun place => others place (by simp [Op.gains])

end

def Act.draws : Act → List KeyId
  | .tick _ work => (drawsOf work.toList).map (·.2)
  | _ => []

namespace Cluster

structure Booted (c : Cluster) : Prop where
  threads : c.threads = []
  posts : c.world.posts = []
  buffers : ∀ n peer grade, ((c.world.nodes n).enc peer grade).inner = []
  acks : ∀ n peer (id : KeyId), ((c.world.nodes n).ackPending.bucket peer)[id]? = none

end Cluster

theorem Launches.draws {c : Cluster} {act : Act} {tag : Tag} (launches : Launches c act tag) :
    tag.draws.map (·.2) = act.draws := by
  cases launches <;> rfl

structure InCustody (later : List KeyId) (c : Cluster) : Prop where
  exclusive : Exclusive (amount later c)
  obeyed : Pool.Obeyed (fun _ => custody) Tag.draws (fun _ _ _ => True) c.threads

namespace InCustody

variable {sha : Bytes → Bytes} {c : Cluster} {later : List KeyId}

theorem start {draws : List KeyId} (inCustody : InCustody (draws ++ later) c) (tag : Tag)
    (drawn : tag.draws.map (·.2) = draws) : InCustody later (c.start sha tag.node tag.call) := by
  refine ⟨?_, inCustody.obeyed.launch (program_custody sha tag _)⟩
  apply inCustody.exclusive.move .later (.hand c.threads.length) (by simp)
  · intro place notLater notNew id
    cases place with
    | later => exact absurd rfl notLater
    | hand j =>
      have other : j ≠ c.threads.length := by
        rintro rfl
        exact notNew rfl
      simp only [amount, Cluster.start, Pool.launch]
      rcases Nat.lt_or_gt_of_ne other with below | above
      · rw [getElem?_append_left below]
      · rw [getElem?_eq_none (by simp; omega)]
        exact Nat.zero_le _
    | acks | enc | post => exact Nat.le_refl _
  · intro id
    have hand : Task.hand (.launch tag (tag.call.program sha tag.node (c.world.nodes tag.node))) =
        tag.draws := rfl
    simp only [amount, Cluster.start, Pool.launch, getElem?_concat_length, elim_some, count_append]
    rw [hand, drawn]
    omega

theorem setPost (inCustody : InCustody later c) {i : Nat} {post : Post} (post' : Post)
    (found : c.world.posts[i]? = some post) (same : post'.body = post.body) :
    InCustody later (c.setPost i post') := by
  have bound := (List.getElem?_eq_some_iff.mp found).1
  refine ⟨inCustody.exclusive.lose fun place id => ?_, inCustody.obeyed⟩
  cases place with
  | later | hand | acks | enc => exact Nat.le_refl _
  | post j =>
    by_cases here : i = j
    · subst here
      simp only [amount, Cluster.setPost, List.getElem?_set_self bound, found, elim_some, same, Nat.le_refl]
    · simp only [amount, Cluster.setPost, List.getElem?_set_ne here, Nat.le_refl]

theorem restart (inCustody : InCustody later c) (node : NodeId) (incarnation : String) :
    InCustody later (c.restart node incarnation) := by
  refine ⟨inCustody.exclusive.lose fun place id => ?_, ?_⟩
  · cases place with
    | later | post => exact Nat.le_refl _
    | hand i =>
      simp only [amount, Cluster.restart, getElem?_map]
      cases c.threads[i]? with
      | none => exact Nat.le_refl _
      | some t =>
        simp only [map_some, elim_some, Task.hand, Task.kill_log, Task.kill_tag, Nat.le_refl]
    | acks n peer =>
      simp only [amount, Cluster.restart, World.nodes_setNode]
      split
      · simp [DkmsService.boot, new, bucket]
      · exact Nat.le_refl _
    | enc n peer grade =>
      simp only [amount, Cluster.restart, World.nodes_setNode]
      split
      · cases grade <;> exact Nat.zero_le _
      · exact Nat.le_refl _
  · exact Task.kill_obeyed inCustody.obeyed (fun _ _ => trivial) node

theorem setPeers (inCustody : InCustody later c) (node : NodeId) (peers : List NodeId) :
    InCustody later (c.setPeers node peers) := by
  refine ⟨inCustody.exclusive.lose fun place id => ?_, inCustody.obeyed⟩
  cases place with
  | later | hand | post => exact Nat.le_refl _
  | _ =>
    simp only [amount, Cluster.setPeers, World.nodes_setNode]
    split
    · rename_i here
      subst here
      exact Nat.le_refl _
    · exact Nat.le_refl _

theorem next {act : Act} (inCustody : InCustody (act.draws ++ later) c) :
    InCustody later (Cluster.next sha c act) := by
  have fewer : InCustody later c := by
    refine ⟨inCustody.exclusive.lose fun place id => ?_, inCustody.obeyed⟩
    cases place with
    | later => simp only [amount, count_append, Nat.le_add_left]
    | hand | acks | enc | post => exact Nat.le_refl _
  have moves := Cluster.next_moves sha c act
  generalize Cluster.next sha c act = c' at moves ⊢
  cases moves with
  | stays => exact fewer
  | advance ms =>
    refine ⟨fewer.exclusive.lose fun place id => ?_, fewer.obeyed⟩
    cases place <;> exact Nat.le_refl _
  | start _ tag launches => exact inCustody.start tag launches.draws
  | step i hint tag log op rest answer world found ran =>
    exact ⟨exclusive_step fewer.exclusive found ran (fewer.obeyed.may found),
      fewer.obeyed.advance found trivial⟩
  | deliver i post found unserved =>
    have sent : InCustody ([] ++ later)
        (c.setPost i { post with handler := some c.threads.length }) := fewer.setPost _ found rfl
    exact sent.start ⟨post.dest, .extKeys post.source post.body⟩ rfl
  | answer i h post outcome answer found => exact fewer.setPost _ found rfl
  | fail i unreachable post error found => exact fewer.setPost _ found rfl
  | setPeers node peers => exact fewer.setPeers node peers
  | restart node incarnation => exact fewer.restart node incarnation

theorem run {acts : List Act} (inCustody : InCustody (acts.flatMap Act.draws) c) :
    InCustody [] (run sha c acts) := by
  induction acts generalizing c with
  | nil => exact inCustody
  | cons act acts ih => exact ih inCustody.next

theorem of_booted (booted : c.Booted) (fresh : later.Nodup) : InCustody later c := by
  have nowhere : ∀ place id, place ≠ .later → amount later c place id = 0 := by
    intro place id other
    cases place with
    | later => exact absurd rfl other
    | hand i => simp [amount, booted.threads]
    | acks n peer => simp [amount, booted.acks]
    | enc n peer grade => simp [amount, booted.buffers]
    | post j => simp [amount, booted.posts]
  refine ⟨?_, ?_⟩
  · intro id place place' here there
    have only : ∀ place, 0 < amount later c place id → place = .later := by
      intro place here
      by_contra other
      rw [nowhere place id other] at here
      exact lt_irrefl 0 here
    obtain rfl := only place here
    obtain rfl := only place' there
    have most := nodup_iff_count_le_one.mp fresh id
    refine ⟨rfl, ?_⟩
    simp only [amount] at here ⊢
    omega
  · intro t member
    rw [booted.threads] at member
    cases member

end InCustody

theorem transport_keys_used_once (sha : Bytes → Bytes) (c : Cluster) (booted : c.Booted)
    (acts : List Act) (fresh : (acts.flatMap Act.draws).Nodup) :
    ((Cluster.run sha c acts).world.posts.flatMap (·.body.transportKeyIds)).Nodup ∧
      ∀ n peer grade, ∀ key ∈ (((Cluster.run sha c acts).world.nodes n).enc peer grade).inner,
        ∀ post ∈ (Cluster.run sha c acts).world.posts, key.id ∉ post.body.transportKeyIds := by
  have reached : InCustody [] (run sha c acts) := (InCustody.of_booted booted fresh).run
  generalize run sha c acts = c' at reached ⊢
  have exclusive := reached.exclusive
  have sent : ∀ (j : Nat) (bound : j < c'.world.posts.length) (id : KeyId),
      amount [] c' (.post j) id = (c'.world.posts[j]).body.transportKeyIds.count id := by
    intro j bound id
    simp only [amount, List.getElem?_eq_getElem bound, elim_some]
  constructor
  · rw [nodup_flatMap]
    constructor
    · intro post member
      obtain ⟨j, bound, rfl⟩ := getElem_of_mem member
      rw [nodup_iff_count_le_one]
      intro id
      rw [← sent j bound id]
      exact exclusive.le_one _ id
    rw [pairwise_iff_getElem]
    intro j j' bound bound' below id first second
    have here : 0 < amount [] c' (.post j) id := by
      rw [sent j bound id]
      exact count_pos_iff.mpr first
    have there : 0 < amount [] c' (.post j') id := by
      rw [sent j' bound' id]
      exact count_pos_iff.mpr second
    have same := (exclusive id _ _ here there).1
    simp only [Place.post.injEq] at same
    omega
  · intro n peer grade key held post member named
    obtain ⟨j, bound, rfl⟩ := getElem_of_mem member
    have here : 0 < amount [] c' (.enc n peer grade) key.id := count_pos_iff.mpr (mem_map_of_mem held)
    have there : 0 < amount [] c' (.post j) key.id := by
      rw [sent j bound key.id]
      exact count_pos_iff.mpr named
    cases (exclusive key.id _ _ here there).1

def oneFor (b : NodeId) (d : Draw) : TreeMap NodeId Quota :=
  (∅ : TreeMap NodeId Quota).insert b ⟨1, fun _ => d⟩

def oneToB (keyId : KeyId) : TreeMap NodeId Quota :=
  (∅ : TreeMap NodeId Quota).insert "B" ⟨1, fun _ => ⟨keyId, replicate 32 7, true⟩⟩

def filledRun : List Act :=
  [.tick "A" (oneToB "t1")] ++ steps 0 8 ++ [.deliverFrame 0] ++ steps 1 5 ++
    [.deliverReceipts "A" "B" [0]] ++ steps 2 2 ++ [requestKey "k1"] ++ steps 3 3

theorem twoNodes_booted : (twoNodes [] []).Booted := by
  refine ⟨rfl, rfl, fun n peer grade => ?_, fun n peer id => ?_⟩
  · unfold twoNodes
    dsimp only
    split
    · rw [DkmsService.enc_setEnc]
      split
      · rfl
      · cases grade <;> rfl
    split
    · rw [DkmsService.enc_setDec]
      cases grade <;> rfl
    · cases grade <;> rfl
  · unfold twoNodes
    dsimp only
    split
    · rfl
    · split <;> rfl

theorem transport_keys_used_once_filled :
    let c := Cluster.run id (twoNodes [] []) filledRun
    c.world.posts.flatMap (·.body.transportKeyIds) = ["t1"] ∧
      (c.world.posts.flatMap (·.body.transportKeyIds)).Nodup ∧
      ∀ n peer grade, ∀ key ∈ ((c.world.nodes n).enc peer grade).inner,
        ∀ post ∈ c.world.posts, key.id ∉ post.body.transportKeyIds :=
  ⟨by decide +kernel, transport_keys_used_once id _ twoNodes_booted filledRun (by decide +kernel)⟩

end Dkms.Node
