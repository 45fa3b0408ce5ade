import Dkms.Node.Cluster

namespace Dkms.Node

open List Option Std Dkms.Core Cluster PendingStore DkmsService SecureKeyBuffer

inductive Launches (c : Cluster) : Act → Tag → Prop
  | encKeys (node : NodeId) (r : KeyRequest) (env : Surroundings) :
    Launches c (.encKeys node r env) ⟨node, .encKeys r env⟩
  | decKeys (node : NodeId) (requester master : SaeId) (keyIds : List KeyId) :
    Launches c (.decKeys node requester master keyIds) ⟨node, .decKeys requester master keyIds⟩
  | tick (node : NodeId) (work : TreeMap NodeId Quota) (free : c.isTicking node = false) :
    Launches c (.tick node work) ⟨node, .tick work⟩
  | reap (node : NodeId) : Launches c (.reap node) ⟨node, .reap⟩
  | sweep (node : NodeId) : Launches c (.sweep node) ⟨node, .sweep⟩
  | drain (node : NodeId) : Launches c (.drain node) ⟨node, .drain⟩
  | receipts (node source : NodeId) (picks : List Nat) :
    Launches c (.deliverReceipts node source picks) ⟨node, .receipts source (c.receiptsFor node source picks)⟩
  | delivery (i : Nat) (frame : BufferFrame) (found : c.world.frames[i]? = some frame)
      (free : c.isReceiving frame.dest = false) :
    Launches c (.deliverFrame i) ⟨frame.dest, .delivery frame⟩

inductive Moves (sha : Bytes → Bytes) (c : Cluster) : Act → Cluster → Prop
  | stays (act : Act) : Moves sha c act c
  | advance (ms : Nat) :
    Moves sha c (.advance ms) { c with world := { c.world with now := c.world.now + ms } }
  | start (act : Act) (tag : Tag) (launches : Launches c act tag) :
    Moves sha c act (c.start sha tag.node tag.call)
  | step (i : Nat) (hint : Hint) (tag : Tag) (log : List ((op : Op) × op.Answer)) (op : Op)
      (rest : op.Answer → Handler Outcome) (answer : op.Answer) (world : World)
      (found : c.threads[i]? = some ⟨tag, log, .call op rest⟩)
      (ran : exec tag.node op hint c.world = some (answer, world)) :
    Moves sha c (.step i hint) ⟨world, c.threads.set i ⟨tag, log ++ [⟨op, answer⟩], rest answer⟩⟩
  | deliver (i : Nat) (post : Post) (found : c.world.posts[i]? = some post)
      (unserved : post.handler = none) :
    Moves sha c (.deliverPost i)
      ((c.setPost i { post with handler := some c.threads.length }).start sha post.dest
        (.extKeys post.source post.body))
  | answer (i h : Nat) (post : Post) (outcome : Outcome) (answer : Except DkmsError Unit)
      (found : c.world.posts[i]? = some post) (waiting : post.answer = none)
      (served : post.handler = some h) (ended : c.outcome h = some outcome)
      (seen : answerOf post.dest outcome = some answer) :
    Moves sha c (.answerPost i) (c.setPost i { post with answer := some answer })
  | fail (i : Nat) (unreachable : Option String) (post : Post) (error : DkmsError)
      (found : c.world.posts[i]? = some post) (waiting : post.answer = none) :
    Moves sha c (.failPost i unreachable) (c.setPost i { post with answer := some (.error error) })
  | setPeers (node : NodeId) (peers : List NodeId) :
    Moves sha c (.setPeers node peers) (c.setPeers node peers)
  | restart (node : NodeId) (incarnation : String) :
    Moves sha c (.restart node incarnation) (c.restart node incarnation)

theorem Cluster.next_moves (sha : Bytes → Bytes) (c : Cluster) (act : Act) :
    Moves sha c act (next sha c act) := by
  cases act with
  | advance ms => exact .advance ms
  | encKeys node r env => exact .start _ _ (.encKeys node r env)
  | decKeys node requester master keyIds =>
    exact .start _ _ (.decKeys node requester master keyIds)
  | tick node work =>
    unfold next
    dsimp only
    split
    · exact .stays _
    · rename_i free
      exact .start _ _ (.tick node work (Bool.eq_false_of_not_eq_true free))
  | reap node => exact .start _ _ (.reap node)
  | sweep node => exact .start _ _ (.sweep node)
  | drain node => exact .start _ _ (.drain node)
  | step i hint =>
    show Moves sha c _ (c.step (fun tag => exec tag.node) i hint)
    rcases Pool.step_cases (fun tag : Tag => exec tag.node) c i hint with
      same | ⟨tag, log, op, rest, answer, world, found, ran, moved⟩
    · rw [same]
      exact .stays _
    · rw [moved]
      exact .step i hint tag log op rest answer world found ran
  | deliverPost i =>
    show Moves sha c _ (deliverPost sha c i)
    unfold deliverPost
    split
    · rename_i post found
      split
      · rename_i unserved
        exact .deliver i post found (isNone_iff_eq_none.mp unserved)
      · exact .stays _
    · exact .stays _
  | answerPost i =>
    show Moves sha c _ (answerPost c i)
    unfold answerPost
    split
    · rename_i post found
      split
      · rename_i answer waiting seen
        obtain ⟨outcome, ended, seen⟩ := bind_eq_some_iff.mp seen
        obtain ⟨h, served, ended⟩ := bind_eq_some_iff.mp ended
        exact .answer i h post outcome answer found waiting served ended seen
      · exact .stays _
    · exact .stays _
  | failPost i unreachable =>
    show Moves sha c _ (failPost c i unreachable)
    unfold failPost
    split
    · rename_i post found
      dsimp only
      split
      · rename_i waiting
        exact .fail i unreachable post _ found (isNone_iff_eq_none.mp waiting)
      · exact .stays _
    · exact .stays _
  | deliverReceipts node source picks => exact .start _ _ (.receipts node source picks)
  | deliverFrame i =>
    show Moves sha c _ (deliverFrame sha c i)
    unfold deliverFrame
    split
    · rename_i frame found
      split
      · exact .stays _
      · rename_i free
        exact .start _ _ (.delivery i frame found (Bool.eq_false_of_not_eq_true free))
    · exact .stays _
  | setPeers node peers => exact .setPeers node peers
  | restart node incarnation => exact .restart node incarnation

namespace Task

@[simp]
theorem kill_tag (node : NodeId) (t : Task) : (t.kill node).tag = t.tag := by
  unfold kill
  split <;> rfl

@[simp]
theorem kill_log (node : NodeId) (t : Task) : (t.kill node).log = t.log := by
  unfold kill
  split <;> rfl

theorem kill_elsewhere {node : NodeId} {t : Task} (away : t.tag.node ≠ node) : t.kill node = t := by
  simp [kill, away]

theorem kill_running {node : NodeId} {t : Task} (running : (t.kill node).isRunning) :
    t.kill node = t ∧ t.tag.node ≠ node := by
  unfold kill at running ⊢
  split
  · rename_i dead
    rw [if_pos dead] at running
    cases running
  · rename_i alive
    rw [if_neg alive] at running
    exact ⟨rfl, fun same => alive (by simp [same, running])⟩

theorem kill_obeyed {Ledger : Type} {d : Tag → Discipline Op.Answer Ledger} {start : Tag → Ledger}
    {post : Tag → Ledger → Outcome → Prop} {threads : List Task}
    (obeyed : Pool.Obeyed d start post threads) (dies : ∀ tag ledger, post tag ledger .killed)
    (node : NodeId) : Pool.Obeyed d start post (threads.map (kill node)) := by
  intro t member
  obtain ⟨old, listed, rfl⟩ := mem_map.mp member
  unfold kill
  split
  · exact dies _ _
  · exact obeyed old listed

end Task

theorem Cluster.next_tags (sha : Bytes → Bytes) (c : Cluster) (act : Act) :
    c.threads.map (·.tag) <+: (next sha c act).threads.map (·.tag) := by
  have moves := next_moves sha c act
  generalize next sha c act = c' at moves ⊢
  cases moves with
  | stays | advance | answer | fail | setPeers => exact prefix_rfl
  | start | deliver =>
    rw [start, Pool.launch, map_append]
    exact prefix_append _ _
  | step i hint tag log op rest answer world found ran =>
    obtain ⟨bound, same⟩ := List.getElem?_eq_some_iff.mp found
    have inside : i < (c.threads.map (·.tag)).length := by simpa using bound
    have sameTag : (c.threads.map (·.tag))[i] = tag := by
      rw [getElem_map, same]
    rw [map_set]
    rw [← sameTag, set_getElem_self]
  | restart node incarnation =>
    simp only [restart, List.map_map, Function.comp_def, Task.kill_tag]
    exact List.prefix_rfl

theorem Cluster.run_tags (sha : Bytes → Bytes) (c : Cluster) (acts : List Act) :
    c.threads.map (·.tag) <+: (run sha c acts).threads.map (·.tag) := by
  induction acts generalizing c with
  | nil => exact prefix_rfl
  | cons act acts ih => exact (next_tags sha c act).trans (ih _)

theorem Cluster.run_started (sha : Bytes → Bytes) (c : Cluster) (node : NodeId) (r : KeyRequest)
    (env : Surroundings) (acts : List Act) :
    ∃ t ∈ (run sha c (.encKeys node r env :: acts)).threads,
      t.tag = ⟨node, .encKeys r env⟩ := by
  have kept := run_tags sha (next sha c (.encKeys node r env)) acts
  apply mem_map.mp (kept.subset _)
  rw [next, start, Pool.launch, map_append]
  exact mem_append_right _ (mem_singleton.mpr rfl)

@[simp]
theorem World.nodes_setNode (w : World) (id n : NodeId) (node : DkmsService) :
    (w.setNode id node).nodes n = if n = id then node else w.nodes n := by
  exact Function.update_apply w.nodes id node n

namespace DkmsService

variable (n : DkmsService) (peer peer' : NodeId) (grade grade' : KeyGrade) (buffer : SecureKeyBuffer)

@[simp]
theorem enc_setEnc : (n.setEnc peer grade buffer).enc peer' grade' =
    if peer' = peer ∧ grade = grade' then buffer else n.enc peer' grade' := by
  unfold enc setEnc
  by_cases same : peer' = peer
  · subst same
    simp
  · simp [same]

@[simp]
theorem enc_setDec : (n.setDec peer buffer).enc peer' grade' = n.enc peer' grade' := by
  unfold enc setDec
  by_cases same : peer' = peer
  · subst same
    simp
  · simp [same]

@[simp]
theorem dec_setDec : (n.setDec peer buffer).dec peer' =
    if peer' = peer then buffer else n.dec peer' := by
  unfold dec setDec
  rw [BufferPool.forPeer_set]
  split <;> rfl

@[simp]
theorem dec_setEnc : (n.setEnc peer grade buffer).dec peer' = n.dec peer' := by
  unfold dec setEnc
  by_cases same : peer' = peer
  · subst same
    simp
  · simp [same]

end DkmsService

variable {self : NodeId} {op : Op} {hint : Hint} {w w' : World} {answer : op.Answer}

theorem exec_elsewhere (ran : exec self op hint w = some (answer, w')) {n : NodeId}
    (other : n ≠ self) : w'.nodes n = w.nodes n := by
  cases op <;> simp only [exec, map_eq_some_iff, ite_none_right_eq_some] at ran
  case extKeysAnswer => obtain ⟨-, -, -, rfl⟩ := ran; rfl
  case sendKeyDone => obtain ⟨-, -, rfl⟩ := ran; rfl
  all_goals
    obtain ⟨-, rfl⟩ := ran
    simp [other]

def Op.onPending (now : Nat) (s : PendingStore) : Op → PendingStore
  | .pendingInsert keyId initiator authorized material =>
    s.insert keyId initiator authorized material none now
  | .insertFromPeer keyId origin initiator authorized material ttl =>
    (s.insertFromPeer keyId origin initiator authorized material ttl now).2
  | .takeForSae keyId sae master => (s.takeForSaeOfMaster keyId sae (some master) now).2
  | .forceRemove keyId => s.forceRemove keyId
  | .sweepExpired => s.sweepExpired now
  | .pendingClear => s.clear
  | _ => s

def Op.onEnc (peer : NodeId) (grade : KeyGrade) (keys : List TransportKey) : Op → List TransportKey
  | .popOldest p g => if peer = p ∧ grade = g then keys.tail else keys
  | .pushFront p g key => if peer = p ∧ grade = g then key :: keys else keys
  | .tryPush p g key => if peer = p ∧ grade = g then keys ++ [key] else keys
  | .encClear p g => if peer = p ∧ grade = g then [] else keys
  | .clearAll => []
  | _ => keys

variable {peer : NodeId} {grade : KeyGrade} {op : Op} in
theorem Op.onEnc_sublist (keys : List TransportKey)
    (quiet : ∀ key, op ≠ .pushFront peer grade key ∧ op ≠ .tryPush peer grade key) :
    (op.onEnc peer grade keys).Sublist keys := by
  cases op with
  | popOldest p g =>
    rw [Op.onEnc]
    split
    · exact tail_sublist _
    · exact .refl _
  | pushFront p g key | tryPush p g key =>
    rw [Op.onEnc, if_neg]
    rintro ⟨rfl, rfl⟩
    simpa using quiet key
  | encClear p g =>
    rw [Op.onEnc]
    split
    · exact nil_sublist _
    · exact .refl _
  | clearAll => exact nil_sublist _
  | _ => exact .refl _

def Op.onAcks (now timeout : Nat) (s : AckPendingStore) : Op → AckPendingStore
  | .ackInsert peer keyId bytes grade => s.insert peer keyId ⟨bytes, now + timeout, grade⟩
  | .ackTake peer keyId | .ackDiscard peer keyId => (s.takeDiagnosed peer keyId).2
  | .reapExpired => s.reapExpired now
  | .dropPeer peer => s.dropPeer peer
  | _ => s

section

variable (ran : exec self op hint w = some (answer, w'))
include ran

theorem exec_pending : (w'.nodes self).pending = op.onPending w.now (w.nodes self).pending := by
  cases op <;> simp only [exec, map_eq_some_iff, ite_none_right_eq_some] at ran
  case extKeysAnswer => obtain ⟨-, -, -, rfl⟩ := ran; rfl
  case sendKeyDone => obtain ⟨-, -, rfl⟩ := ran; rfl
  all_goals
    obtain ⟨-, rfl⟩ := ran
    simp [setEnc, setDec, Op.onPending]

omit ran in
theorem SecureKeyBuffer.popOldest_inner (b : SecureKeyBuffer) :
    b.popOldest.2.inner = b.inner.tail ∧ b.popOldest.1 = b.inner.head? := by
  unfold popOldest
  split
  · rename_i empty
    simp [empty]
  · rename_i held
    simp [held]

theorem exec_enc (peer : NodeId) (grade : KeyGrade) : ((w'.nodes self).enc peer grade).inner =
      op.onEnc peer grade ((w.nodes self).enc peer grade).inner := by
  cases op <;> simp only [exec, map_eq_some_iff, ite_none_right_eq_some] at ran
  case extKeysAnswer => obtain ⟨-, -, -, rfl⟩ := ran; rfl
  case sendKeyDone => obtain ⟨-, -, rfl⟩ := ran; rfl
  case clearAll =>
    obtain ⟨-, rfl⟩ := ran
    simp [enc, Op.onEnc]
  case popOldest p g | pushFront p g key | tryPush p g key | encClear p g =>
    obtain ⟨-, rfl⟩ := ran
    simp only [World.nodes_setNode, if_true, enc_setEnc, Op.onEnc, eq_comm]
    split
    · rename_i same
      obtain ⟨rfl, rfl⟩ := same
      simp [popOldest_inner, pushFront, tryPush, SecureKeyBuffer.clear]
    · rfl
  all_goals
    obtain ⟨-, rfl⟩ := ran
    simp [Op.onEnc]
    try rfl

theorem exec_acks : (w'.nodes self).ackPending =
      op.onAcks w.now (w.nodes self).cfg.ackTimeoutMs (w.nodes self).ackPending := by
  cases op <;> simp only [exec, map_eq_some_iff, ite_none_right_eq_some] at ran
  case extKeysAnswer => obtain ⟨-, -, -, rfl⟩ := ran; rfl
  case sendKeyDone => obtain ⟨-, -, rfl⟩ := ran; rfl
  all_goals
    obtain ⟨-, rfl⟩ := ran
    simp [setEnc, setDec, Op.onAcks]

theorem exec_posts : w'.posts = w.posts ∨ ∃ peer body, op = .sendExtKeys peer body ∧
      w'.posts = w.posts ++ [⟨self, peer, body, none, none⟩] := by
  cases op <;> simp only [exec, map_eq_some_iff, ite_none_right_eq_some] at ran
  case extKeysAnswer => obtain ⟨-, -, -, rfl⟩ := ran; exact .inl rfl
  case sendKeyDone => obtain ⟨-, -, rfl⟩ := ran; exact .inl rfl
  case sendExtKeys peer body => obtain ⟨-, rfl⟩ := ran; exact .inr ⟨peer, body, rfl, rfl⟩
  all_goals
    obtain ⟨-, rfl⟩ := ran
    exact .inl rfl

theorem exec_receipts : w'.receipts = w.receipts ∨ ∃ peer keyId, op = .enqueueAck peer keyId ∧
      w'.receipts = w.receipts ++ [⟨self, peer, keyId, (w.nodes self).incarnation⟩] := by
  cases op <;> simp only [exec, map_eq_some_iff, ite_none_right_eq_some] at ran
  case extKeysAnswer => obtain ⟨-, -, -, rfl⟩ := ran; exact .inl rfl
  case sendKeyDone => obtain ⟨-, -, rfl⟩ := ran; exact .inl rfl
  case enqueueAck peer keyId => obtain ⟨-, rfl⟩ := ran; exact .inr ⟨peer, keyId, rfl, rfl⟩
  all_goals
    obtain ⟨-, rfl⟩ := ran
    exact .inl rfl

theorem exec_heard (other : ∀ peer incarnation, op ≠ .noteIncarnation peer incarnation) :
    (w'.nodes self).peerIncarnations = (w.nodes self).peerIncarnations := by
  cases op <;> simp only [exec, map_eq_some_iff, ite_none_right_eq_some] at ran
  case extKeysAnswer => obtain ⟨-, -, -, rfl⟩ := ran; rfl
  case sendKeyDone => obtain ⟨-, -, rfl⟩ := ran; rfl
  case noteIncarnation peer incarnation => exact absurd rfl (other peer incarnation)
  all_goals
    obtain ⟨-, rfl⟩ := ran
    simp [setEnc, setDec]

theorem exec_config : w'.now = w.now ∧ ∀ n, (w'.nodes n).cfg = (w.nodes n).cfg ∧
      (w'.nodes n).incarnation = (w.nodes n).incarnation := by
  cases op <;> simp only [exec, map_eq_some_iff, ite_none_right_eq_some] at ran
  case extKeysAnswer => obtain ⟨-, -, -, rfl⟩ := ran; exact ⟨rfl, fun n => ⟨rfl, rfl⟩⟩
  case sendKeyDone => obtain ⟨-, -, rfl⟩ := ran; exact ⟨rfl, fun n => ⟨rfl, rfl⟩⟩
  all_goals
    obtain ⟨-, rfl⟩ := ran
    refine ⟨rfl, fun n => ?_⟩
    by_cases here : n = self <;> simp [here, setEnc, setDec]

end

inductive Op.OnEntry (now : Nat) (s : PendingStore) (id : KeyId) : Op → Option PendingEntry → Prop
  | same (op : Op) : OnEntry now s id op (s.get id)
  | inserted (initiator : SaeId) (authorized : List SaeId) (material : Bytes) (expiresAt : Nat) :
    OnEntry now s id (.pendingInsert id initiator authorized material)
      (some ⟨initiator, authorized, [], material, expiresAt, none⟩)
  | received (origin : NodeId) (initiator : SaeId) (authorized : List SaeId) (material : Bytes)
      (ttl : Option Nat) (expiresAt : Nat) :
    OnEntry now s id (.insertFromPeer id origin initiator authorized material ttl)
      (some ⟨initiator, authorized, [], material, expiresAt, some origin⟩)
  | marked (sae master : SaeId) (e : PendingEntry) (held : s.get id = some e)
      (given : (s.takeForSaeOfMaster id sae (some master) now).1 = .ok (e.material, e.initiator)) :
    OnEntry now s id (.takeForSae id sae master) (some { e with retrieved := sae :: e.retrieved })
  | completed (sae master : SaeId) (e : PendingEntry) (held : s.get id = some e)
      (given : (s.takeForSaeOfMaster id sae (some master) now).1 = .ok (e.material, e.initiator))
      (complete : ∀ other ∈ e.authorized, other = sae ∨ other ∈ e.retrieved) :
    OnEntry now s id (.takeForSae id sae master) none
  | late (sae master : SaeId) (e : PendingEntry) (held : s.get id = some e)
      (expired : e.isExpired now) : OnEntry now s id (.takeForSae id sae master) none
  | swept (e : PendingEntry) (held : s.get id = some e) (expired : e.isExpired now) :
    OnEntry now s id .sweepExpired none
  | removed : OnEntry now s id (.forceRemove id) none
  | cleared : OnEntry now s id .pendingClear none

theorem Op.onPending_entry (op : Op) (now : Nat) (s : PendingStore) (id : KeyId) :
    op.OnEntry now s id ((op.onPending now s).get id) := by
  cases op with
  | pendingInsert keyId initiator authorized material =>
    rw [Op.onPending, insert_get]
    split
    · rename_i here
      subst here
      exact .inserted ..
    · exact .same _
  | insertFromPeer keyId origin initiator authorized material ttl =>
    rw [Op.onPending]
    rcases insertFromPeer_cases s keyId origin initiator authorized material ttl now
      with ⟨-, same⟩ | ⟨-, -, written⟩
    · rw [same]
      exact .same _
    rw [written]
    split
    · rename_i here
      subst here
      exact .received ..
    · exact .same _
  | takeForSae keyId sae master =>
    rw [Op.onPending]
    rcases takeForSaeOfMaster_cases s keyId sae (some master) now with
      ⟨-, kept⟩ | ⟨e, found, -, -, -, -, given, after⟩
    · rcases kept id with same | ⟨gone, rfl, e, held, expired⟩
      · rw [same]
        exact .same _
      · rw [gone]
        exact .late sae master e held expired
    rw [after]
    split
    · rename_i here
      subst here
      split
      · rename_i complete
        refine .completed sae master e found given fun other member => ?_
        simpa using all_eq_true.mp complete other member
      · exact .marked sae master e found given
    · exact .same _
  | forceRemove keyId =>
    rw [Op.onPending, PendingStore.forceRemove, PendingStore.removeEntry_get]
    split
    · rename_i here
      subst here
      exact .removed
    · exact .same _
  | sweepExpired =>
    rw [Op.onPending]
    rcases sweepExpired_get s now id with same | ⟨gone, e, held, expired⟩
    · rw [same]
      exact .same _
    · rw [gone]
      exact .swept e held expired
  | pendingClear =>
    exact .cleared
  | _ => exact .same _

theorem Op.onPending_get {s : PendingStore} {now : Nat} {id : KeyId} {e : PendingEntry}
    (held : (op.onPending now s).get id = some e) :
    (∃ old, s.get id = some old ∧ old.material = e.material) ∨
      (∃ initiator authorized, op = .pendingInsert id initiator authorized e.material) ∨
      ∃ origin initiator authorized ttl,
        op = .insertFromPeer id origin initiator authorized e.material ttl := by
  have entry := op.onPending_entry now s id
  generalize (op.onPending now s).get id = result at held entry
  cases entry with
  | same => exact .inl ⟨e, held, rfl⟩
  | inserted initiator authorized material expiresAt =>
    cases held
    exact .inr (.inl ⟨_, _, rfl⟩)
  | received origin initiator authorized material ttl expiresAt =>
    cases held
    exact .inr (.inr ⟨_, _, _, _, rfl⟩)
  | marked sae master old before given =>
    cases held
    exact .inl ⟨old, before, rfl⟩
  | completed | late | swept | removed | cleared => cases held

end Dkms.Node
