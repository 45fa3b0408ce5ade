import Dkms.Node.Informed

namespace Dkms.Node

open List Std Dkms.Core Option PendingStore

def isCollection (keyId : KeyId) (sae : SaeId) (bytes : Bytes) : (op : Op) × op.Answer → Bool
  | ⟨.takeForSae id requester _, .ok (material, _)⟩ =>
    id = keyId && requester = sae && material = bytes
  | _ => false

namespace Cluster

def Collected (c : Cluster) (node : NodeId) (keyId : KeyId) (sae : SaeId) (bytes : Bytes) : Prop :=
  ∃ t ∈ c.threads, t.tag.node = node ∧ ∃ entry ∈ t.log, isCollection keyId sae bytes entry

def Kept (c : Cluster) (node : NodeId) (keyId : KeyId) (bytes : Bytes) (saes : List SaeId) : Prop :=
  (∃ entry, (c.world.nodes node).pending.get keyId = some entry ∧ entry.material = bytes ∧
    ∀ sae ∈ saes, sae ∈ entry.authorized) ∨
  ∀ sae ∈ saes, c.Collected node keyId sae bytes

def Delivered (c : Cluster) : Prop :=
  ∀ t ∈ c.threads, ∀ request env keys, t.tag.call = .encKeys request env →
    t.prog.result = some (.encKeys (.ok keys)) →
    ∀ plan, admitEncKeys (c.world.nodes t.tag.node).cfg t.tag.node request env = .ok plan →
      ∀ group ∈ plan.groups, ∀ k ∈ keys, c.Kept group.peer k.keyId k.key group.saes

def TwinAgrees (c : Cluster) (source dest : NodeId) (key : TransportKey) : Prop :=
  ∀ t ∈ c.threads, t.tag.node = source → ∀ popped ∈ (Task.known t).taken,
    popped.1 = dest → popped.2.id = key.id → popped.2.bytes = key.bytes

end Cluster

/-- The operation meets what a complete distribution rests on: a transport key found in
`buffer_dec` is the one the sender used, the id of a received session key is vacant, and no
entry of the `PendingStore` expires or is wiped. -/
def Op.Undisturbed (c : Cluster) (self : NodeId) : Op → Prop
  | .takeById peer id =>
    ∀ key ∈ (((c.world.nodes self).dec peer).takeById id).1, c.TwinAgrees peer self key
  | .insertFromPeer keyId _ _ _ _ _ => (c.world.nodes self).pending.get keyId = none
  | .takeForSae keyId _ _ =>
    ∀ entry ∈ (c.world.nodes self).pending.get keyId, entry.isExpired c.world.now = false
  | .sweepExpired =>
    ∀ pair ∈ (c.world.nodes self).pending.inner.toList, pair.2.isExpired c.world.now = false
  | .pendingClear => (c.world.nodes self).pending.inner.isEmpty
  | _ => True

def Act.Undisturbed (c : Cluster) : Act → Prop
  | .step i _ => ∀ t ∈ c.threads[i]?, ∀ op ∈ t.prog.nextOp, op.Undisturbed c t.tag.node
  | .restart node _ => (c.world.nodes node).pending.inner.isEmpty
  | _ => True

def Op.Spares (now : Nat) (s : PendingStore) (id : KeyId) : Op → Prop
  | .pendingInsert keyId _ _ _ | .insertFromPeer keyId _ _ _ _ _ | .forceRemove keyId => keyId ≠ id
  | .takeForSae keyId _ _ => ∀ entry ∈ s.get keyId, entry.isExpired now = false
  | .sweepExpired => ∀ entry ∈ s.get id, entry.isExpired now = false
  | .pendingClear => False
  | _ => True

variable {op : Op} {s : PendingStore} {e : PendingEntry}

variable {now : Nat}

theorem Op.onPending_spared {id : KeyId}
    (held : s.get id = some e) (spares : op.Spares now s id) :
    (∃ e', (op.onPending now s).get id = some e' ∧ e'.material = e.material ∧
        e'.authorized = e.authorized) ∨
      ∃ sae master initiator, op = .takeForSae id sae master ∧
        (s.takeForSaeOfMaster id sae (some master) now).1 = .ok (e.material, initiator) ∧
        ∀ other ∈ e.authorized, other = sae ∨ other ∈ e.retrieved := by
  have entry := op.onPending_entry now s id
  generalize (op.onPending now s).get id = result at entry ⊢
  cases entry with
  | same => exact .inl ⟨e, held, rfl, rfl⟩
  | inserted | received | removed => exact absurd rfl spares
  | marked sae master old before given =>
    rw [held] at before
    cases before
    exact .inl ⟨_, rfl, rfl, rfl⟩
  | completed sae master old before given complete =>
    rw [held] at before
    cases before
    exact .inr ⟨sae, master, e.initiator, rfl, given, complete⟩
  | late sae master old before expired =>
    rw [spares old before] at expired
    cases expired
  | swept old before expired =>
    rw [spares old before] at expired
    cases expired
  | cleared => exact spares.elim

theorem Op.onPending_retrieved {id : KeyId}
    (held : (op.onPending now s).get id = some e) {sae : SaeId} (marked : sae ∈ e.retrieved) :
    (∃ old, s.get id = some old ∧ old.material = e.material ∧ sae ∈ old.retrieved) ∨
      ∃ master initiator, op = .takeForSae id sae master ∧
        (s.takeForSaeOfMaster id sae (some master) now).1 = .ok (e.material, initiator) := by
  have entry := op.onPending_entry now s id
  generalize (op.onPending now s).get id = result at held entry
  cases entry with
  | same => exact .inl ⟨e, held, rfl, marked⟩
  | inserted | received =>
    cases held
    cases marked
  | marked requester master old before given =>
    cases held
    rcases mem_cons.mp marked with rfl | earlier
    · exact .inr ⟨master, old.initiator, rfl, given⟩
    · exact .inl ⟨old, before, rfl, earlier⟩
  | completed | late | swept | removed | cleared => cases held

theorem zipWith_xor_cancel (a b : Bytes) (fits : a.length ≤ b.length) :
    zipWith (· ^^^ ·) (zipWith (· ^^^ ·) a b) b = a := by
  induction a generalizing b with
  | nil => rfl
  | cons x a ih =>
    cases b with
    | nil => cases fits
    | cons y b =>
      simp only [zipWith_cons_cons]
      rw [ih b (Nat.le_of_succ_le_succ fits), UInt8.xor_assoc, UInt8.xor_self, UInt8.xor_zero]

theorem wrapKey_opens {sha : Bytes → Bytes} {k : SessionKey} {transport : TransportKey}
    {wrapped : Etsi020Key} (made : wrapKey sha k transport = .ok wrapped) :
    wrapped.extension.bind (·.transportKeyId) = some transport.id ∧
      unwrapSessionKey transport.bytes wrapped.value = .ok k.bytes ∧
      digestMatches sha wrapped k.bytes := by
  unfold wrapKey wrapSessionKey at made
  split at made
  · cases made
  rename_i ciphertext sealed
  cases made
  split at sealed
  · cases sealed
  rename_i long
  cases sealed
  have fits : k.bytes.length ≤ transport.bytes.length := Nat.le_of_not_lt long
  refine ⟨rfl, ?_, ?_⟩
  · unfold unwrapSessionKey
    rw [if_neg, zipWith_xor_cancel _ _ fits]
    rw [length_zipWith]
    omega
  · simp [digestMatches]

def Later (threads threads' : List Task) : Prop :=
  ∀ t ∈ threads, ∃ t' ∈ threads', t'.tag = t.tag ∧ t.log <+: t'.log

theorem Later.refl (threads : List Task) : Later threads threads :=
  fun t member => ⟨t, member, rfl, prefix_rfl⟩

theorem later_append (threads more : List Task) : Later threads (threads ++ more) :=
  fun t member => ⟨t, mem_append_left _ member, rfl, prefix_rfl⟩

theorem later_kill (threads : List Task) (node : NodeId) :
    Later threads (threads.map (Task.kill node)) := by
  intro t member
  refine ⟨t.kill node, mem_map_of_mem member, t.kill_tag node, ?_⟩
  rw [t.kill_log node]

theorem later_step {threads : List Task} {i : Nat} {tag : Tag}
    {log : List ((op : Op) × op.Answer)} {rest : op.Answer → Handler Outcome}
    {answer : op.Answer} (found : threads[i]? = some ⟨tag, log, .call op rest⟩) :
    Later threads (threads.set i ⟨tag, log ++ [⟨op, answer⟩], rest answer⟩) := by
  intro t member
  obtain ⟨j, bound, rfl⟩ := getElem_of_mem member
  by_cases same : i = j
  · subst same
    rw [getElem?_eq_getElem bound] at found
    rw [some.inj found]
    refine ⟨⟨tag, log ++ [⟨op, answer⟩], rest answer⟩, mem_set bound _, rfl, ?_⟩
    exact prefix_append _ _
  · refine ⟨threads[j], ?_, rfl, prefix_rfl⟩
    exact mem_iff_getElem.mpr ⟨j, by simpa using bound, getElem_set_ne same _⟩

theorem known_grows {t t' : Task} (grown : t.log <+: t'.log) : t.known.Extends t'.known := by
  have fold : ∀ (more : List ((op : Op) × op.Answer)) (known : Known),
      known.Extends (more.foldl (fun known entry => known.learn entry.1 entry.2) known) := by
    intro more
    induction more with
    | nil => exact Known.Extends.refl
    | cons entry more ih =>
      exact fun known => (known.extends_learn entry.1 entry.2).trans (ih _)
  obtain ⟨more, same⟩ := grown
  unfold Task.known
  rw [← same, foldl_append]
  exact fold more _

section

variable {sha : Bytes → Bytes} {gen : NodeId → SessionKey → Prop} {cfg : NodeId → DkmsConfig}
  {c c' : Cluster}

def Backed (sha : Bytes → Bytes) (gen : NodeId → SessionKey → Prop) (threads : List Task)
    (source dest : NodeId) (keys : List Etsi020Key) : Prop :=
  source ≠ dest ∧ ∃ t ∈ threads, t.tag.node = source ∧
    ∀ k ∈ keys, Wrapped sha gen source (Task.known t).taken dest k

theorem Backed.later {threads threads' : List Task} {source dest : NodeId} {keys : List Etsi020Key}
    (backed : Backed sha gen threads source dest keys) (later : Later threads threads') :
    Backed sha gen threads' source dest keys := by
  obtain ⟨remote, t, member, here, wrapped⟩ := backed
  obtain ⟨t', member', sameTag, grown⟩ := later t member
  refine ⟨remote, t', member', sameTag ▸ here, ?_⟩
  exact fun k listed => (wrapped k listed).mono (known_grows grown).taken

variable {node : NodeId} {keyId : KeyId} {bytes : Bytes}

theorem Cluster.Collected.later {sae : SaeId}
    (collected : c.Collected node keyId sae bytes) (later : Later c.threads c'.threads) :
    c'.Collected node keyId sae bytes := by
  obtain ⟨t, member, here, entry, logged, taken⟩ := collected
  obtain ⟨t', member', sameTag, grown⟩ := later t member
  exact ⟨t', member', sameTag ▸ here, entry, grown.subset logged, taken⟩

theorem Cluster.Kept.fewer {saes saes' : List SaeId}
    (kept : c.Kept node keyId bytes saes) (fewer : ∀ sae ∈ saes', sae ∈ saes) :
    c.Kept node keyId bytes saes' := by
  rcases kept with ⟨entry, held, same, authorized⟩ | collected
  · exact .inl ⟨entry, held, same, fun sae member => authorized sae (fewer sae member)⟩
  · exact .inr fun sae member => collected sae (fewer sae member)

theorem Cluster.Kept.later {saes : List SaeId}
    (kept : c.Kept node keyId bytes saes) (later : Later c.threads c'.threads)
    (same : (c'.world.nodes node).pending = (c.world.nodes node).pending) :
    c'.Kept node keyId bytes saes := by
  rcases kept with held | collected
  · rw [← same] at held
    exact .inl held
  · exact .inr fun sae member => (collected sae member).later later

/-- What holds in every state of an undisturbed run: envelopes carry session keys of their
sender, posts are known to the handlers that send and serve them, and what a handler has
stored, or a peer has confirmed, is kept. -/
structure Distributed (sha : Bytes → Bytes) (gen : NodeId → SessionKey → Prop)
    (cfg : NodeId → DkmsConfig) (c : Cluster) : Prop where
  config : ∀ n, (c.world.nodes n).cfg = cfg n
  obeyed : Pool.Obeyed (informed sha gen) (fun _ => .none) (Completed gen cfg) c.threads
  sent : ∀ t ∈ c.threads, ∀ pair ∈ (Task.known t).sent, ∃ post,
    c.world.posts[pair.1]? = some post ∧ post.source = t.tag.node ∧ post.dest = pair.2.peer ∧
      post.body = pair.2.body
  confirmed : ∀ t ∈ c.threads, ∀ i ∈ (Task.known t).confirmed, ∃ post,
    c.world.posts[i]? = some post ∧ post.answer = some (.ok ())
  stored : ∀ t ∈ c.threads, ∀ item ∈ (Task.known t).stored,
    (∃ origin, origin ≠ t.tag.node ∧ gen origin ⟨item.1, item.2.1⟩) ∧
      c.Kept t.tag.node item.1 item.2.1 item.2.2
  posted : ∀ post ∈ c.world.posts, Backed sha gen c.threads post.source post.dest post.body.keys
  received : ∀ t ∈ c.threads, ∀ peer body, t.tag.call = .extKeys peer body →
    Backed sha gen c.threads peer t.tag.node body.keys
  served : ∀ post ∈ c.world.posts, ∀ h, post.handler = some h → ∃ t, c.threads[h]? = some t ∧
    t.tag = ⟨post.dest, .extKeys post.source post.body⟩
  answered : ∀ post ∈ c.world.posts, post.answer = some (.ok ()) → ∀ k ∈ post.body.keys,
    ∃ bytes, gen post.source ⟨k.keyId, bytes⟩ ∧ c.Kept post.dest k.keyId bytes post.body.targetSaeIds
  retrieved : ∀ n id entry, (c.world.nodes n).pending.get id = some entry →
    ∀ sae ∈ entry.retrieved, c.Collected n id sae entry.material

def Unique (gen : NodeId → SessionKey → Prop) : Prop :=
  ∀ n n' id bytes bytes', gen n ⟨id, bytes⟩ → gen n' ⟨id, bytes'⟩ → n = n' ∧ bytes = bytes'

def Act.generated : Act → List (NodeId × SessionKey)
  | .encKeys node request env => (request.sessionKeys env).map (node, ·)
  | _ => []

namespace Distributed

theorem delivered (distributed : Distributed sha gen cfg c) (unique : Unique gen) :
    c.Delivered := by
  intro t member request env keys call returned plan admitted group grouped k listed
  have completed := distributed.obeyed t member
  cases prog : t.prog with
  | call op rest =>
    rw [prog] at returned
    cases returned
  | done outcome =>
    rw [prog] at returned completed
    cases returned
    rw [distributed.config] at admitted
    obtain ⟨generated, all⟩ := completed request env call
    obtain ⟨i, body, sent, confirmed, saes, carried⟩ := all plan admitted group grouped
    obtain ⟨post, found, source, dest, sameBody⟩ := distributed.sent t member _ sent
    obtain ⟨post', found', ok⟩ := distributed.confirmed t member i confirmed
    rw [found] at found'
    cases found'
    obtain ⟨k', listed', sameId⟩ := carried k listed
    obtain ⟨bytes, generated', kept⟩ := distributed.answered post (mem_of_getElem? found) ok k'
      (sameBody ▸ listed')
    rw [sameId] at generated' kept
    rw [dest, sameBody, saes, (unique _ _ _ _ _ generated' (generated k listed)).2] at kept
    exact kept

section

variable {i : Nat} {hint : Hint} {tag : Tag} {log : List ((op : Op) × op.Answer)} {op : Op}
  {rest : op.Answer → Handler Outcome} {answer : op.Answer} {world : World}

theorem learns (distributed : Distributed sha gen cfg c)
    (found : c.threads[i]? = some ⟨tag, log, .call op rest⟩)
    (ran : exec tag.node op hint c.world = some (answer, world))
    (undisturbed : op.Undisturbed c tag.node) (known : Known) :
    (informed sha gen tag).learns known op answer := by
  cases op with
  | takeById peer id =>
    simp only [exec, some.injEq, Prod.mk.injEq] at ran
    obtain ⟨taken, -⟩ := ran
    cases answer with
    | none => trivial
    | some transport =>
      intro body call
      obtain ⟨remote, t, member, here, wrapped⟩ :=
        distributed.received _ (mem_of_getElem? found) peer body call
      refine ⟨remote, ?_⟩
      intro k listed named
      obtain ⟨bytes, transport', generated, popped, made⟩ := wrapped k listed
      obtain ⟨sameId, opened, matching⟩ := wrapKey_opens made
      rw [named] at sameId
      have foundId : transport.id = id := by
        simpa using find?_some taken
      have sameBytes := undisturbed transport taken t member here _ popped rfl
        (by rw [foundId]; exact (some.inj sameId).symm)
      exact ⟨bytes, generated, sameBytes ▸ opened, matching⟩
  | insertFromPeer keyId origin initiator authorized material ttl =>
    simp only [exec] at ran
    obtain ⟨rfl, -⟩ := ran
    rcases insertFromPeer_cases (c.world.nodes tag.node).pending keyId origin initiator
      authorized material ttl c.world.now with ⟨⟨error, failed, present⟩, -⟩ | ⟨ok, -⟩
    · intro occupied
      rw [failed] at occupied
      cases occupied
      have held := present rfl
      rw [undisturbed] at held
      cases held
    · intro occupied
      rw [ok] at occupied
      cases occupied
  | _ => trivial

variable {bytes : Bytes}

variable {id : KeyId}

theorem spares (unique : Unique gen) {known : Known}
    (may : (informed sha gen tag).may known op) (undisturbed : op.Undisturbed c tag.node)
    {entry : PendingEntry}
    (held : (c.world.nodes tag.node).pending.get id = some entry) {origin : NodeId}
    (elsewhere : origin ≠ tag.node) (generated : gen origin ⟨id, bytes⟩) :
    op.Spares c.world.now (c.world.nodes tag.node).pending id := by
  cases op with
  | pendingInsert keyId initiator authorized material =>
    rintro rfl
    exact elsewhere (unique _ _ _ _ _ generated may).1
  | forceRemove keyId =>
    rintro rfl
    obtain ⟨bytes', own⟩ := may
    exact elsewhere (unique _ _ _ _ _ generated own).1
  | insertFromPeer keyId origin initiator authorized material ttl =>
    rintro rfl
    rw [undisturbed] at held
    cases held
  | takeForSae keyId sae master => exact undisturbed
  | sweepExpired =>
    intro entry held
    exact undisturbed (id, entry) (TreeMap.mem_toList_iff_getElem?_eq_some.mpr held)
  | pendingClear =>
    rw [PendingStore.get, TreeMap.getElem?_of_isEmpty undisturbed] at held
    cases held
  | _ => trivial

theorem collected_now {keyId : KeyId} {sae master initiator : SaeId}
    {rest : (Op.takeForSae keyId sae master).Answer → Handler Outcome}
    {answer : (Op.takeForSae keyId sae master).Answer}
    (found : c.threads[i]? = some ⟨tag, log, .call (.takeForSae keyId sae master) rest⟩)
    (given : answer = .ok (bytes, initiator)) : Cluster.Collected ⟨world, c.threads.set i
      ⟨tag, log ++ [⟨.takeForSae keyId sae master, answer⟩], rest answer⟩⟩
      tag.node keyId sae bytes := by
  have bound : i < c.threads.length := (List.getElem?_eq_some_iff.mp found).1
  refine ⟨_, mem_set bound _, rfl, _, mem_append_right _ (mem_singleton.mpr rfl), ?_⟩
  subst given
  simp [isCollection]

theorem kept_step (distributed : Distributed sha gen cfg c) (unique : Unique gen)
    (found : c.threads[i]? = some ⟨tag, log, .call op rest⟩)
    (ran : exec tag.node op hint c.world = some (answer, world))
    (undisturbed : op.Undisturbed c tag.node) {n origin : NodeId}
    {saes : List SaeId} (elsewhere : origin ≠ n) (generated : gen origin ⟨id, bytes⟩)
    (kept : c.Kept n id bytes saes) :
    Cluster.Kept ⟨world, c.threads.set i ⟨tag, log ++ [⟨op, answer⟩], rest answer⟩⟩
      n id bytes saes := by
  have later : Later c.threads (c.threads.set i ⟨tag, log ++ [⟨op, answer⟩], rest answer⟩) := later_step found
  by_cases here : n = tag.node
  · subst here
    rcases kept with ⟨entry, held, same, authorized⟩ | collected
    · have spared := spares unique (distributed.obeyed.may found) undisturbed held elsewhere generated
      rcases Op.onPending_spared held spared with
        ⟨entry', held', material, sameSaes⟩ | ⟨sae, master, initiator, rfl, given, complete⟩
      · refine .inl ⟨entry', ?_, material.trans same, fun sae member => ?_⟩
        · rw [exec_pending ran]
          exact held'
        · rw [sameSaes]
          exact authorized sae member
      -- the last collection of this entry
      have answered : answer = .ok (entry.material, initiator) := by
        simp only [exec, some.injEq, Prod.mk.injEq] at ran
        rw [← ran.1]
        exact given
      refine .inr fun other member => ?_
      rcases complete other (authorized other member) with rfl | before
      · exact same ▸ collected_now found answered
      have past := distributed.retrieved _ _ _ held other before
      rw [same] at past
      exact past.later later
    · exact .inr fun sae member => (collected sae member).later later
  · apply kept.later later
    rw [exec_elsewhere ran here]

theorem known_step (tag : Tag) (log : List ((op : Op) × op.Answer)) (op : Op) (answer : op.Answer)
    (prog prog' : Handler Outcome) : Task.known ⟨tag, log ++ [⟨op, answer⟩], prog'⟩ =
      (Task.known ⟨tag, log, prog⟩).learn op answer := by
  simp only [Task.known, foldl_append, foldl_cons, foldl_nil]

section

variable (ran : exec tag.node op hint c.world = some (answer, world))
include ran

variable {known : Known}

theorem sent_step {pair : Nat × Envelope} (listed : pair ∈ (known.learn op answer).sent) :
    pair ∈ known.sent ∨
      world.posts[pair.1]? = some ⟨tag.node, pair.2.peer, pair.2.body, none, none⟩ := by
  cases op with
  | sendExtKeys peer body =>
    obtain ⟨rfl, rfl⟩ := ran
    rcases mem_append.mp listed with old | new
    · exact .inl old
    · rw [mem_singleton.mp new]
      exact .inr getElem?_concat_length
  | popOldest _ _ => cases answer <;> exact .inl listed
  | extKeysAnswer _ => cases answer <;> exact .inl listed
  | insertFromPeer _ _ _ _ _ _ => cases answer <;> exact .inl listed
  | _ => exact .inl listed

theorem confirmed_step {j : Nat} (listed : j ∈ (known.learn op answer).confirmed) :
    j ∈ known.confirmed ∨ ∃ post, world.posts[j]? = some post ∧ post.answer = some (.ok ()) := by
  cases op with
  | extKeysAnswer post =>
    cases answer with
    | error error => exact .inl listed
    | ok _ =>
      simp only [exec, map_eq_some_iff] at ran
      obtain ⟨_, seen, rfl, rfl⟩ := ran
      rcases mem_append.mp listed with old | new
      · exact .inl old
      · rw [mem_singleton.mp new]
        exact .inr (bind_eq_some_iff.mp seen)
  | popOldest _ _ => cases answer <;> exact .inl listed
  | insertFromPeer _ _ _ _ _ _ => cases answer <;> exact .inl listed
  | _ => exact .inl listed

theorem stored_step (may : (informed sha gen tag).may known op)
    {item : KeyId × Bytes × List SaeId} (listed : item ∈ (known.learn op answer).stored) :
    item ∈ known.stored ∨ (∃ origin, origin ≠ tag.node ∧ gen origin ⟨item.1, item.2.1⟩) ∧
      ∃ entry, (world.nodes tag.node).pending.get item.1 = some entry ∧
        entry.material = item.2.1 ∧ entry.authorized = item.2.2 := by
  cases op with
  | insertFromPeer keyId origin initiator authorized material ttl =>
    cases answer with
    | error error => exact .inl listed
    | ok _ =>
      rcases mem_append.mp listed with old | new
      · exact .inl old
      rw [mem_singleton.mp new]
      refine .inr ⟨may, ?_⟩
      rw [exec_pending ran]
      simp only [exec, some.injEq, Prod.mk.injEq] at ran
      rcases insertFromPeer_cases (c.world.nodes tag.node).pending keyId origin
        initiator authorized material ttl c.world.now with ⟨⟨error, failed, -⟩, -⟩ | ⟨-, -, written⟩
      · rw [failed] at ran
        cases ran.1
      · exact ⟨_, (written keyId).trans (if_pos rfl), rfl, rfl⟩
  | popOldest _ _ => cases answer <;> exact .inl listed
  | extKeysAnswer _ => cases answer <;> exact .inl listed
  | _ => exact .inl listed

end

theorem retrieved_step (distributed : Distributed sha gen cfg c)
    (found : c.threads[i]? = some ⟨tag, log, .call op rest⟩)
    (ran : exec tag.node op hint c.world = some (answer, world)) (n : NodeId) (id : KeyId)
    (entry : PendingEntry) (held : (world.nodes n).pending.get id = some entry) (sae : SaeId)
    (marked : sae ∈ entry.retrieved) :
    Cluster.Collected ⟨world, c.threads.set i ⟨tag, log ++ [⟨op, answer⟩], rest answer⟩⟩
      n id sae entry.material := by
  have later : Later c.threads (c.threads.set i ⟨tag, log ++ [⟨op, answer⟩], rest answer⟩) := later_step found
  by_cases here : n = tag.node
  · subst here
    rw [exec_pending ran] at held
    rcases Op.onPending_retrieved held marked with
      ⟨old, before, same, marked⟩ | ⟨master, initiator, rfl, given⟩
    · have past := distributed.retrieved _ _ _ before sae marked
      rw [same] at past
      exact past.later later
    apply collected_now found
    simp only [exec, some.injEq, Prod.mk.injEq] at ran
    rw [← ran.1]
    exact given
  · rw [exec_elsewhere ran here] at held
    exact (distributed.retrieved n id entry held sae marked).later later

variable {post : Post}

theorem posts_step (ran : exec tag.node op hint c.world = some (answer, world)) {j : Nat}
    (found : c.world.posts[j]? = some post) : world.posts[j]? = some post := by
  rcases exec_posts ran with same | ⟨peer, body, -, added⟩
  · rw [same]
    exact found
  · rw [added, List.getElem?_append_left (List.getElem?_eq_some_iff.mp found).1]
    exact found

theorem new_post (ran : exec tag.node op hint c.world = some (answer, world))
    (listed : post ∈ world.posts) : post ∈ c.world.posts ∨
      ∃ peer body, op = .sendExtKeys peer body ∧ post = ⟨tag.node, peer, body, none, none⟩ := by
  rcases exec_posts ran with same | ⟨peer, body, sends, added⟩
  · exact .inl (same ▸ listed)
  rw [added] at listed
  rcases mem_append.mp listed with old | new
  · exact .inl old
  · exact .inr ⟨peer, body, sends, mem_singleton.mp new⟩

theorem step (distributed : Distributed sha gen cfg c) (unique : Unique gen)
    (found : c.threads[i]? = some ⟨tag, log, .call op rest⟩)
    (ran : exec tag.node op hint c.world = some (answer, world))
    (undisturbed : op.Undisturbed c tag.node) : Distributed sha gen cfg
      ⟨world, c.threads.set i ⟨tag, log ++ [⟨op, answer⟩], rest answer⟩⟩ := by
  have later : Later c.threads (c.threads.set i ⟨tag, log ++ [⟨op, answer⟩], rest answer⟩) := later_step found
  have member := mem_of_getElem? found
  have may := distributed.obeyed.may found
  have bound : i < c.threads.length := (List.getElem?_eq_some_iff.mp found).1
  constructor
  case config => exact fun n => ((exec_config ran).2 n).1.trans (distributed.config n)
  case obeyed =>
    exact distributed.obeyed.advance found (distributed.learns found ran undisturbed _)
  case sent =>
    intro t listed pair sent
    rcases mem_or_eq_of_mem_set listed with old | rfl
    · obtain ⟨post, held, facts⟩ := distributed.sent t old pair sent
      exact ⟨post, posts_step ran held, facts⟩
    rw [known_step tag log op answer (.call op rest)] at sent
    rcases sent_step ran sent with before | made
    · obtain ⟨post, held, facts⟩ := distributed.sent _ member pair before
      exact ⟨post, posts_step ran held, facts⟩
    · exact ⟨_, made, rfl, rfl, rfl⟩
  case confirmed =>
    intro t listed j confirmed
    have past : ∀ t ∈ c.threads, j ∈ (Task.known t).confirmed →
        ∃ post, world.posts[j]? = some post ∧ post.answer = some (.ok ()) := by
      intro t old confirmed
      obtain ⟨post, held, ok⟩ := distributed.confirmed t old j confirmed
      exact ⟨post, posts_step ran held, ok⟩
    rcases mem_or_eq_of_mem_set listed with old | rfl
    · exact past t old confirmed
    rw [known_step tag log op answer (.call op rest)] at confirmed
    rcases confirmed_step ran confirmed with before | now
    · exact past _ member before
    · exact now
  case stored =>
    intro t listed item stored
    have past : ∀ t ∈ c.threads, item ∈ (Task.known t).stored →
        (∃ origin, origin ≠ t.tag.node ∧ gen origin ⟨item.1, item.2.1⟩) ∧
          Cluster.Kept ⟨world, c.threads.set i ⟨tag, log ++ [⟨op, answer⟩], rest answer⟩⟩
            t.tag.node item.1 item.2.1 item.2.2 := by
      intro t old stored
      obtain ⟨⟨origin, elsewhere, generated⟩, kept⟩ := distributed.stored t old item stored
      exact ⟨⟨origin, elsewhere, generated⟩,
        distributed.kept_step unique found ran undisturbed elsewhere generated kept⟩
    rcases mem_or_eq_of_mem_set listed with old | rfl
    · exact past t old stored
    rw [known_step tag log op answer (.call op rest)] at stored
    rcases stored_step ran may stored with before | ⟨elsewhere, entry, held, same, authorized⟩
    · exact past ⟨tag, log, .call op rest⟩ member before
    · exact ⟨elsewhere, .inl ⟨entry, held, same, fun sae listed => authorized ▸ listed⟩⟩
  case posted =>
    intro post listed
    rcases new_post ran listed with old | ⟨peer, body, rfl, rfl⟩
    · exact (distributed.posted post old).later later
    refine ⟨may.1.symm, _, mem_set bound _, rfl, ?_⟩
    rw [known_step tag log _ answer (.call (.sendExtKeys peer body) rest)]
    exact may.2
  case received =>
    intro t listed peer body call
    rcases mem_or_eq_of_mem_set listed with old | rfl
    · exact (distributed.received t old peer body call).later later
    · exact (distributed.received _ member peer body call).later later
  case served =>
    intro post listed h handler
    rcases new_post ran listed with old | ⟨peer, body, -, rfl⟩
    · obtain ⟨t, serving, sameTag⟩ := distributed.served post old h handler
      by_cases here : i = h
      · subst here
        rw [found] at serving
        cases serving
        exact ⟨_, List.getElem?_set_self bound, sameTag⟩
      · exact ⟨t, (List.getElem?_set_ne here).trans serving, sameTag⟩
    · cases handler
  case answered =>
    intro post listed ok k keyed
    rcases new_post ran listed with old | ⟨peer, body, -, rfl⟩
    · obtain ⟨bytes, generated, kept⟩ := distributed.answered post old ok k keyed
      exact ⟨bytes, generated, distributed.kept_step unique found ran undisturbed
        (distributed.posted post old).1 generated kept⟩
    · cases ok
  case retrieved => exact distributed.retrieved_step found ran

end

theorem outside (distributed : Distributed sha gen cfg c) (threads : c'.threads = c.threads)
    (posts : c'.world.posts = c.world.posts)
    (stores : ∀ n, (c'.world.nodes n).cfg = (c.world.nodes n).cfg ∧
      (c'.world.nodes n).pending = (c.world.nodes n).pending) : Distributed sha gen cfg c' := by
  have later : Later c.threads c'.threads := threads ▸ Later.refl _
  constructor
  case config => exact fun n => (stores n).1.trans (distributed.config n)
  case obeyed => exact threads ▸ distributed.obeyed
  case sent => exact threads ▸ posts ▸ distributed.sent
  case confirmed => exact threads ▸ posts ▸ distributed.confirmed
  case stored =>
    intro t member item stored
    rw [threads] at member
    obtain ⟨elsewhere, kept⟩ := distributed.stored t member item stored
    exact ⟨elsewhere, kept.later later (stores _).2⟩
  case posted => exact threads ▸ posts ▸ distributed.posted
  case received => exact threads ▸ distributed.received
  case served => exact threads ▸ posts ▸ distributed.served
  case answered =>
    intro post listed ok k keyed
    rw [posts] at listed
    obtain ⟨bytes, generated, kept⟩ := distributed.answered post listed ok k keyed
    exact ⟨bytes, generated, kept.later later (stores _).2⟩
  case retrieved =>
    intro n id entry held sae marked
    rw [(stores n).2] at held
    exact (distributed.retrieved n id entry held sae marked).later later

theorem start (distributed : Distributed sha gen cfg c) (tag : Tag) (generates : tag.Generates gen)
    (backed : ∀ peer body, tag.call = .extKeys peer body → Backed sha gen c.threads peer tag.node body.keys) :
    Distributed sha gen cfg (c.start sha tag.node tag.call) := by
  have later : Later c.threads (c.start sha tag.node tag.call).threads := later_append _ _
  constructor
  case config => exact distributed.config
  case obeyed =>
    exact distributed.obeyed.launch (program_informed tag _ (distributed.config _) generates)
  case sent =>
    intro t member pair sent
    rcases mem_append.mp member with old | new
    · exact distributed.sent t old pair sent
    · rw [mem_singleton.mp new] at sent
      cases sent
  case confirmed =>
    intro t member j confirmed
    rcases mem_append.mp member with old | new
    · exact distributed.confirmed t old j confirmed
    · rw [mem_singleton.mp new] at confirmed
      cases confirmed
  case stored =>
    intro t member item stored
    rcases mem_append.mp member with old | new
    · obtain ⟨elsewhere, kept⟩ := distributed.stored t old item stored
      exact ⟨elsewhere, kept.later later rfl⟩
    · rw [mem_singleton.mp new] at stored
      cases stored
  case posted => exact fun post listed => (distributed.posted post listed).later later
  case received =>
    intro t member peer body call
    rcases mem_append.mp member with old | new
    · exact (distributed.received t old peer body call).later later
    · rw [mem_singleton.mp new] at call ⊢
      exact (backed peer body call).later later
  case served =>
    intro post listed h handler
    obtain ⟨t, serving, sameTag⟩ := distributed.served post listed h handler
    have bound := (List.getElem?_eq_some_iff.mp serving).1
    exact ⟨t, (List.getElem?_append_left bound).trans serving, sameTag⟩
  case answered =>
    intro post listed ok k keyed
    obtain ⟨bytes, generated, kept⟩ := distributed.answered post listed ok k keyed
    exact ⟨bytes, generated, kept.later later rfl⟩
  case retrieved =>
    intro n id entry held sae marked
    exact (distributed.retrieved n id entry held sae marked).later later

variable {post : Post}

theorem setPost (distributed : Distributed sha gen cfg c) {i : Nat} (post' : Post)
    (found : c.world.posts[i]? = some post)
    (same : post'.source = post.source ∧ post'.dest = post.dest ∧ post'.body = post.body)
    (keeps : post.answer = some (.ok ()) → post'.answer = some (.ok ()))
    (served : ∀ h, post'.handler = some h → ∃ t, c.threads[h]? = some t ∧
      t.tag = ⟨post.dest, .extKeys post.source post.body⟩)
    (answered : post'.answer = some (.ok ()) → ∀ k ∈ post.body.keys,
      ∃ bytes, gen post.source ⟨k.keyId, bytes⟩ ∧ c.Kept post.dest k.keyId bytes post.body.targetSaeIds) :
    Distributed sha gen cfg (c.setPost i post') := by
  have bound := (List.getElem?_eq_some_iff.mp found).1
  obtain ⟨source, dest, sameBody⟩ := same
  constructor
  case config => exact distributed.config
  case obeyed => exact distributed.obeyed
  case sent =>
    intro t member pair sent
    obtain ⟨p, held, facts⟩ := distributed.sent t member pair sent
    by_cases here : i = pair.1
    · rw [← here, found] at held
      cases held
      refine ⟨post', here ▸ List.getElem?_set_self bound, ?_⟩
      rw [source, dest, sameBody]
      exact facts
    · exact ⟨p, (List.getElem?_set_ne here).trans held, facts⟩
  case confirmed =>
    intro t member j confirmed
    obtain ⟨p, held, ok⟩ := distributed.confirmed t member j confirmed
    by_cases here : i = j
    · rw [← here, found] at held
      cases held
      exact ⟨post', here ▸ List.getElem?_set_self bound, keeps ok⟩
    · exact ⟨p, (List.getElem?_set_ne here).trans held, ok⟩
  case stored => exact distributed.stored
  case posted =>
    intro p listed
    rcases mem_or_eq_of_mem_set listed with old | rfl
    · exact distributed.posted p old
    · rw [source, dest, sameBody]
      exact distributed.posted post (mem_of_getElem? found)
  case received => exact distributed.received
  case served =>
    intro p listed h handler
    rcases mem_or_eq_of_mem_set listed with old | rfl
    · exact distributed.served p old h handler
    · rw [source, dest, sameBody]
      exact served h handler
  case answered =>
    intro p listed ok
    rcases mem_or_eq_of_mem_set listed with old | rfl
    · exact distributed.answered p old ok
    · rw [source, dest, sameBody]
      exact answered ok
  case retrieved => exact distributed.retrieved

theorem restart (distributed : Distributed sha gen cfg c) (node : NodeId) (incarnation : String)
    (empty : (c.world.nodes node).pending.inner.isEmpty) :
    Distributed sha gen cfg (c.restart node incarnation) := by
  have later : Later c.threads (c.restart node incarnation).threads := later_kill _ _
  have lost : ∀ id, (c.world.nodes node).pending.get id = none := fun id => TreeMap.getElem?_of_isEmpty empty
  have kept : ∀ {n id bytes saes}, c.Kept n id bytes saes →
      (c.restart node incarnation).Kept n id bytes saes := by
    rintro n id bytes saes (⟨entry, held, facts⟩ | collected)
    · have other : n ≠ node := by
        rintro rfl
        rw [lost] at held
        cases held
      refine .inl ⟨entry, ?_, facts⟩
      simpa only [Cluster.restart, World.nodes_setNode, if_neg other] using held
    · exact .inr fun sae member => (collected sae member).later later
  have killed : ∀ t : Task, (t.kill node).tag = t.tag ∧ (t.kill node).known = t.known := by
    intro t
    unfold Task.kill
    split <;> exact ⟨rfl, rfl⟩
  constructor
  case config =>
    intro n
    simp only [Cluster.restart, World.nodes_setNode]
    split
    · rename_i here
      exact here ▸ distributed.config node
    · exact distributed.config n
  case obeyed => exact Task.kill_obeyed distributed.obeyed (fun _ _ => trivial) node
  case sent =>
    intro t member
    obtain ⟨old, listed, rfl⟩ := mem_map.mp member
    rw [(killed old).1, (killed old).2]
    exact distributed.sent old listed
  case confirmed =>
    intro t member
    obtain ⟨old, listed, rfl⟩ := mem_map.mp member
    rw [(killed old).2]
    exact distributed.confirmed old listed
  case stored =>
    intro t member item stored
    obtain ⟨old, listed, rfl⟩ := mem_map.mp member
    rw [(killed old).2] at stored
    rw [(killed old).1]
    obtain ⟨elsewhere, held⟩ := distributed.stored old listed item stored
    exact ⟨elsewhere, kept held⟩
  case posted => exact fun post listed => (distributed.posted post listed).later later
  case received =>
    intro t member peer body call
    obtain ⟨old, listed, rfl⟩ := mem_map.mp member
    rw [(killed old).1] at call ⊢
    exact (distributed.received old listed peer body call).later later
  case served =>
    intro post listed h handler
    obtain ⟨t, serving, sameTag⟩ := distributed.served post listed h handler
    refine ⟨Task.kill node t, ?_, (killed t).1.trans sameTag⟩
    simp only [Cluster.restart, getElem?_map, serving, map_some]
  case answered =>
    intro post listed ok k keyed
    obtain ⟨bytes, generated, held⟩ := distributed.answered post listed ok k keyed
    exact ⟨bytes, generated, kept held⟩
  case retrieved =>
    intro n id entry held sae marked
    simp only [Cluster.restart, World.nodes_setNode] at held
    split at held
    · simp [DkmsService.boot, PendingStore.new, PendingStore.get] at held
    · exact (distributed.retrieved n id entry held sae marked).later later

theorem answer_kept (distributed : Distributed sha gen cfg c)
    (listed : post ∈ c.world.posts) {h : Nat} (served : post.handler = some h)
    {ack : Etsi020ExtKeyAckContainer} (ended : c.outcome h = some (.extKeys (.ok ack))) :
    ∀ k ∈ post.body.keys, ∃ bytes, gen post.source ⟨k.keyId, bytes⟩ ∧
      c.Kept post.dest k.keyId bytes post.body.targetSaeIds := by
  obtain ⟨t, serving, sameTag⟩ := distributed.served post listed h served
  have member := mem_of_getElem? serving
  have completed := distributed.obeyed t member
  unfold Cluster.outcome at ended
  rw [serving, bind_some] at ended
  cases prog : t.prog with
  | call op rest =>
    rw [prog] at ended
    cases ended
  | done outcome =>
    rw [prog] at ended completed
    cases ended
    intro k keyed
    obtain ⟨bytes, authorized, generated, stored, targets⟩ :=
      completed post.source post.body (congrArg Tag.call sameTag) k keyed
    have kept := (distributed.stored t member _ stored).2
    rw [sameTag] at kept
    exact ⟨bytes, generated, kept.fewer targets⟩

theorem next (distributed : Distributed sha gen cfg c) (unique : Unique gen) {act : Act}
    (generated : ∀ pair ∈ act.generated, gen pair.1 pair.2) (undisturbed : act.Undisturbed c) :
    Distributed sha gen cfg (Cluster.next sha c act) := by
  have moves := Cluster.next_moves sha c act
  generalize Cluster.next sha c act = c' at moves ⊢
  cases moves with
  | stays => exact distributed
  | advance ms => exact distributed.outside rfl rfl fun _ => ⟨rfl, rfl⟩
  | start _ tag launches =>
    apply distributed.start tag
    · cases launches with
      | encKeys node r env => exact fun k member => generated (node, k) (mem_map_of_mem member)
      | _ => trivial
    · intro peer body call
      cases launches <;> cases call
  | step i hint tag log op rest answer world found ran =>
    exact distributed.step unique found ran (undisturbed _ found op rfl)
  | deliver i post found unserved =>
    have listed := mem_of_getElem? found
    have started := distributed.start ⟨post.dest, .extKeys post.source post.body⟩ trivial (by
      intro peer body call
      cases call
      exact distributed.posted post listed)
    apply started.setPost { post with handler := some c.threads.length } found ⟨rfl, rfl, rfl⟩ id
    · intro h handler
      cases handler
      exact ⟨_, getElem?_concat_length, rfl⟩
    · exact fun ok => started.answered post listed ok
  | answer i h post outcome answer found waiting served ended seen =>
    have listed := mem_of_getElem? found
    apply distributed.setPost { post with answer := some answer } found ⟨rfl, rfl, rfl⟩
    · intro ok
      rw [waiting] at ok
      cases ok
    · exact distributed.served post listed
    intro ok
    cases ok
    unfold Cluster.answerOf at seen
    split at seen
    · exact distributed.answer_kept listed served ended
    · cases seen
    · cases seen
  | fail i unreachable post error found waiting =>
    have listed := mem_of_getElem? found
    apply distributed.setPost { post with answer := some (.error error) } found ⟨rfl, rfl, rfl⟩
    · intro ok
      rw [waiting] at ok
      cases ok
    · exact distributed.served post listed
    · intro ok
      cases ok
  | setPeers node peers =>
    apply Distributed.outside distributed
    · rfl
    · rfl
    intro n
    simp only [Cluster.setPeers, World.nodes_setNode]
    split
    · rename_i here
      exact here ▸ ⟨rfl, rfl⟩
    · exact ⟨rfl, rfl⟩
  | restart node incarnation => exact distributed.restart node incarnation undisturbed

theorem run (distributed : Distributed sha gen cfg c) (unique : Unique gen) (acts : List Act)
    (generated : ∀ act ∈ acts, ∀ pair ∈ act.generated, gen pair.1 pair.2)
    (undisturbed : Follows (Cluster.next sha) (fun c act => act.Undisturbed c) c acts) :
    Distributed sha gen cfg (Cluster.run sha c acts) := by
  induction acts generalizing c with
  | nil => exact distributed
  | cons act acts ih =>
    apply ih
    · exact distributed.next unique (generated act (mem_cons_self ..)) undisturbed.1
    · exact fun act member => generated act (mem_cons_of_mem _ member)
    · exact undisturbed.2

theorem of_idle (idle : c.Idle) (same : ∀ n, (c.world.nodes n).cfg = cfg n) :
    Distributed sha gen cfg c := by
  have quiet : ∀ t, t ∉ c.threads := by simp [idle.threads]
  have unsent : ∀ post, post ∉ c.world.posts := by simp [idle.posts]
  constructor
  case config => exact same
  case obeyed | sent | confirmed | stored | received => exact fun t member => (quiet t member).elim
  case posted | served | answered => exact fun post listed => (unsent post listed).elim
  case retrieved =>
    intro n id entry held
    rw [idle.pending n id] at held
    cases held

end Distributed

theorem generated_keyIds (acts : List Act) :
    (acts.flatMap Act.generated).map (·.2.keyId) = (acts.flatMap Act.sessionKeys).map (·.keyId) := by
  rw [map_flatMap, map_flatMap]
  congr
  funext act
  cases act <;> simp [Act.generated, Act.sessionKeys]

end

/-- In every run from an idle cluster whose steps are all undisturbed, a request that returns
session keys has them at every remote DKMS. -/
theorem undisturbed_run_delivered (sha : Bytes → Bytes) (c : Cluster) (idle : c.Idle)
    (acts : List Act) (fresh : ((acts.flatMap Act.sessionKeys).map (·.keyId)).Nodup)
    (undisturbed : Follows (Cluster.next sha) (fun c act => act.Undisturbed c) c acts) :
    (Cluster.run sha c acts).Delivered := by
  rw [← generated_keyIds] at fresh
  have unique : Unique fun n k => (n, k) ∈ acts.flatMap Act.generated := by
    intro n n' id bytes bytes' first second
    have same := inj_on_of_nodup_map fresh first second rfl
    simp only [Prod.mk.injEq, SessionKey.mk.injEq, true_and] at same
    exact same
  have started : Distributed sha (fun n k => (n, k) ∈ acts.flatMap Act.generated)
      (fun n => (c.world.nodes n).cfg) c := .of_idle idle fun _ => rfl
  have reached := started.run unique acts
    (fun act member pair listed => mem_flatMap.mpr ⟨act, member, listed⟩) undisturbed
  exact reached.delivered unique

instance (c : Cluster) (self : NodeId) (op : Op) : Decidable (op.Undisturbed c self) := by
  rcases op with _ | _ <;> dsimp only [Op.Undisturbed, Cluster.TwinAgrees] <;> infer_instance

instance (c : Cluster) (act : Act) : Decidable (act.Undisturbed c) := by
  rcases act with _ | _ <;> dsimp only [Act.Undisturbed] <;> infer_instance

def confirmedRun : List Act :=
  requestKey "k1" :: (steps 0 3 ++ [.deliverPost 0] ++ steps 1 3 ++ [.answerPost 0] ++ steps 0 1)

theorem undisturbed_run_delivered_twin :
    let twin := [⟨"t1", List.replicate 32 7⟩]
    (Cluster.run id (twoNodes twin twin) confirmedRun).outcome 0 =
        some (.encKeys (.ok [⟨"k1", [0, 1, 2, 3, 4, 5, 6, 7]⟩])) ∧
      (Cluster.run id (twoNodes twin twin) confirmedRun).Delivered :=
  ⟨by decide +kernel, undisturbed_run_delivered id _ (twoNodes_idle _ _) confirmedRun
    (by decide +kernel) (by decide +kernel)⟩

/-- With another transport key under the same id, the receiver skips the session key and still
answers with success. -/
theorem diverged_twin_not_delivered :
    let c := Cluster.run id
      (twoNodes [⟨"t1", List.replicate 32 1⟩] [⟨"t1", List.replicate 32 2⟩]) confirmedRun
    c.outcome 0 = some (.encKeys (.ok [⟨"k1", [0, 1, 2, 3, 4, 5, 6, 7]⟩])) ∧ ¬ c.Delivered := by
  intro c
  refine ⟨by decide +kernel, ?_⟩
  intro delivered
  obtain ⟨t, member, tag⟩ : ∃ t ∈ c.threads, t.tag = ⟨"A", .encKeys oneKey (atB "k1")⟩ :=
    Cluster.run_started ..
  have returned : ∀ t ∈ c.threads, t.tag.node = "A" → t.prog.result =
      some (.encKeys (.ok [⟨"k1", [0, 1, 2, 3, 4, 5, 6, 7]⟩])) := by decide +kernel
  have grouped : (admitEncKeys (c.world.nodes "A").cfg "A" oneKey (atB "k1")).map (·.groups) =
      .ok [⟨"B", ["s"], [.qkd, .pqc]⟩] := by decide +kernel
  have absent : ((c.world.nodes "B").pending.get "k1").isNone := by decide +kernel
  have uncollected : ¬ ∃ t ∈ c.threads, t.tag.node = "B" ∧ ∃ entry ∈ t.log,
      isCollection "k1" "s" [0, 1, 2, 3, 4, 5, 6, 7] entry := by decide +kernel
  cases admitted : admitEncKeys (c.world.nodes "A").cfg "A" oneKey (atB "k1") with
  | error error =>
    rw [admitted] at grouped
    cases grouped
  | ok plan =>
    rw [admitted] at grouped
    have groups : plan.groups = [⟨"B", ["s"], [.qkd, .pqc]⟩] := Except.ok.inj grouped
    have kept := delivered t member _ _ _ (congrArg Tag.call tag)
      (returned t member (congrArg Tag.node tag)) plan (by rw [tag]; exact admitted)
      ⟨"B", ["s"], [.qkd, .pqc]⟩ (by rw [groups]; exact mem_singleton.mpr rfl)
      _ (mem_singleton.mpr rfl)
    rcases kept with ⟨entry, held, -⟩ | collected
    · rw [held] at absent
      cases absent
    · exact uncollected (collected "s" (mem_singleton.mpr rfl))

end Dkms.Node
