import Dkms.Node.Budget
import Dkms.Node.OneTime

namespace Dkms.Node

open Std Dkms.Core Discipline Op

def Tag.isDelivery (tag : Tag) : Bool :=
  match tag.call with
  | .delivery _ => true
  | _ => false

def forgetOps (peer : NodeId) : List Op :=
  [.encClear peer .qkd, .encClear peer .pqc, .decClear peer, .dropPeer peer]

structure Memory where
  noted : List (NodeId × String)
  todo : List Op

def Memory.blank : Memory := ⟨[], []⟩

def Memory.note (m : Memory) : (op : Op) → op.Answer → Memory
  | .noteIncarnation peer incarnation, previous =>
    ⟨(peer, incarnation) :: m.noted, previous.elim [] fun _ => forgetOps peer⟩
  | _, _ => { m with todo := m.todo.tail }

/-- A handler that has started to forget a peer does nothing else before it is done. Only a
delivery notes incarnations, only a batch of receipts takes keys out of `ack_pending`, and a
tick touches no `buffer_enc`. -/
def mindful (tag : Tag) : Discipline Answer Memory where
  may m op := (∀ first ∈ m.todo.head?, op = first) ∧
    match op with
    | .noteIncarnation _ _ => tag.isDelivery
    | .ackTake peer keyId => ∃ keyIds, tag.call = .receipts peer keyIds ∧ keyId ∈ keyIds
    | .pushFront _ _ _ | .tryPush _ _ _ => tag.isTick = false
    | _ => True
  learns _ _ _ := True
  after := Memory.note

/-- At its end nothing is left to throw away, and a delivery that was opened has noted what its
header says. -/
def Mindful (tag : Tag) (m : Memory) (outcome : Outcome) : Prop :=
  m.todo = [] ∧ ∀ frame, tag.call = .delivery frame → outcome = .delivery (.ok true) →
    ∀ source ∈ frame.saeOrigin, ∀ incarnation ∈ frame.incarnation, (source, incarnation) ∈ m.noted

variable {tag : Tag} {m : Memory}

theorem mindful_of_touches {α : Type} {kinds : List OpKind} {handler : Handler α}
    (touches : Touches kinds handler) (free : m.todo = []) (notes : .note ∉ kinds)
    (takes : .ackTake ∉ kinds) (pushes : .encPush ∈ kinds → tag.isTick = false) :
    (mindful tag).Obeys (fun m' _ => m' = m) m handler := by
  obtain ⟨noted, todo⟩ := m
  obtain rfl : todo = [] := free
  induction handler with
  | done result => rfl
  | call op rest ih =>
    obtain ⟨member, touches⟩ := touches
    have same : ∀ answer, Memory.note ⟨noted, []⟩ op answer = ⟨noted, []⟩ := by
      intro answer
      cases op with
      | noteIncarnation peer incarnation => exact absurd member notes
      | _ => rfl
    refine ⟨⟨by simp, ?_⟩, fun answer _ => ?_⟩
    · cases op with
      | noteIncarnation peer incarnation => exact absurd member notes
      | ackTake peer keyId => exact absurd member takes
      | pushFront peer grade key => exact pushes member
      | tryPush peer grade key => exact pushes member
      | _ => trivial
    · show (mindful tag).Obeys _ (Memory.note _ op answer) (rest answer)
      rw [same]
      exact ih answer (touches answer)

variable {peer : NodeId}

theorem handleIncomingAck_mindful {keyIds : List KeyId} (free : m.todo = [])
    (call : tag.call = .receipts peer keyIds) (left : List KeyId) (within : left ⊆ keyIds)
    (matched : Nat) :
    (mindful tag).Obeys (fun m' _ => m' = m) m (handleIncomingAck peer left matched) := by
  obtain ⟨noted, todo⟩ := m
  obtain rfl : todo = [] := free
  have other : tag.isTick = false := by simp [Tag.isTick, call]
  induction left generalizing matched with
  | nil => rfl
  | cons keyId left ih =>
    obtain ⟨listed, within⟩ := List.cons_subset.mp within
    have acked : (mindful tag).Obeys (fun m' _ => m' = ⟨noted, []⟩) ⟨noted, []⟩ (onAck peer keyId) := by
      apply Obeys.perform
      · exact ⟨by simp, keyIds, call, listed⟩
      intro outcome _
      cases outcome with
      | hit entry => exact ⟨⟨by simp [mindful, Memory.note], other⟩, fun _ _ => rfl⟩
      | unknownPeer => rfl
      | unknownKey => rfl
    apply acked.bind
    rintro _ found rfl
    split <;> exact ih within _

theorem notePeerIncarnation_mindful (free : m.todo = []) (delivers : tag.isDelivery) (peer : NodeId)
    (incarnation : String) :
    (mindful tag).Obeys (fun m' _ => m' = ⟨(peer, incarnation) :: m.noted, []⟩) m
      (notePeerIncarnation peer incarnation) := by
  apply Obeys.perform
  · exact ⟨by simp [free], delivers⟩
  intro previous _
  cases previous with
  | none => rfl
  | some previous =>
    refine ⟨⟨?_, trivial⟩, fun _ _ => ⟨⟨?_, trivial⟩, fun _ _ => ⟨⟨?_, trivial⟩, fun _ _ =>
      ⟨⟨?_, trivial⟩, fun _ _ => rfl⟩⟩⟩⟩
    all_goals simp [mindful, Memory.note, forgetOps]

theorem handleOrrDeliveryBuffer_mindful (free : m.todo = []) (cfg : DkmsConfig) (frame : BufferFrame)
    (call : tag.call = .delivery frame) :
    (mindful tag).Obeys (fun m' result => m'.todo = [] ∧ (result = .ok true →
        ∀ source ∈ frame.saeOrigin, ∀ incarnation ∈ frame.incarnation, (source, incarnation) ∈ m'.noted)) m
      (handleOrrDeliveryBuffer cfg frame) := by
  have delivers : tag.isDelivery := by simp [Tag.isDelivery, call]
  obtain ⟨noted, todo⟩ := m
  obtain rfl : todo = [] := free
  unfold handleOrrDeliveryBuffer
  split
  · exact ⟨rfl, fun same => nomatch same⟩
  · exact ⟨rfl, fun same => nomatch same⟩
  rename_i keyId source _ origin
  refine Obeys.perform ⟨by simp, trivial⟩ fun known _ => ?_
  split
  · exact ⟨rfl, fun same => nomatch same⟩
  split
  · exact ⟨rfl, fun same => nomatch same⟩
  refine Obeys.perform ⟨by simp [mindful, Memory.note], trivial⟩ fun opened _ => ?_
  cases opened with
  | none => exact ⟨rfl, fun same => nomatch same⟩
  | some plaintext =>
    have header : (mindful tag).Obeys (fun m' _ => m'.todo = [] ∧
        ∀ incarnation ∈ frame.incarnation, (source, incarnation) ∈ m'.noted) ⟨noted, []⟩
        (noteHeader source frame.incarnation) := by
      cases frame.incarnation with
      | none => exact ⟨rfl, fun _ absent => nomatch absent⟩
      | some incarnation =>
        apply (notePeerIncarnation_mindful rfl delivers source incarnation).weaken
        rintro _ _ rfl
        exact ⟨rfl, by simp⟩
    apply header.bind
    rintro m' _ ⟨done, heard⟩
    apply (@mindful_of_touches _ _ _ [.dec, .receipt] _ ?_ done (by decide) (by decide) (by simp)).weaken
    · rintro _ _ rfl
      refine ⟨done, fun _ source' same => ?_⟩
      cases origin.symm.trans same
      exact heard
    apply Touches.bind (touches_perform (by simp [kind]))
    intro stored
    split
    · apply Touches.bind
      · unfold acknowledge
        split
        · exact touches_perform (by simp [kind])
        · exact touches_pure _
      · exact fun _ => touches_pure _
    · exact touches_pure _

theorem quiet_mindful {α : Type} {kinds : List OpKind} {handler : Handler α}
    (touches : Touches kinds handler) (notes : .note ∉ kinds) (takes : .ackTake ∉ kinds)
    (pushes : .encPush ∈ kinds → tag.isTick = false) (other : tag.isDelivery = false)
    (outcome : α → Outcome) :
    (mindful tag).Obeys (Mindful tag) .blank (do return outcome (← handler)) := by
  apply (mindful_of_touches touches rfl notes takes pushes).bind
  rintro _ result rfl
  refine ⟨rfl, fun frame call => ?_⟩
  simp [Tag.isDelivery, call] at other

theorem program_mindful (sha : Bytes → Bytes) (tag : Tag) (node : DkmsService) :
    (mindful tag).Obeys (Mindful tag) .blank (tag.call.program sha tag.node node) := by
  obtain ⟨self, call⟩ := tag
  cases call with
  | encKeys r env =>
    exact quiet_mindful (handleEncKeys_touches sha node.cfg self r env) (by decide) (by decide)
      (fun _ => rfl) rfl _
  | decKeys requester master keyIds =>
    exact quiet_mindful (handleDecKeys_touches node.cfg self requester master keyIds) (by decide)
      (by decide) (fun _ => rfl) rfl _
  | extKeys peer body =>
    exact quiet_mindful (handleExtKeys_touches sha node.cfg self peer body) (by decide) (by decide)
      (fun _ => rfl) rfl _
  | receipts peer keyIds =>
    apply (handleIncomingAck_mindful rfl rfl keyIds (List.Subset.refl _) 0).bind
    rintro _ matched rfl
    exact ⟨rfl, fun frame call => nomatch call⟩
  | delivery frame =>
    apply (handleOrrDeliveryBuffer_mindful rfl node.cfg frame rfl).bind
    rintro m' result ⟨done, heard⟩
    refine ⟨done, fun frame' call opened => ?_⟩
    cases call
    cases opened
    exact heard rfl
  | tick work =>
    exact quiet_mindful (tickOnce_touches node.cfg self node.incarnation work) (by decide) (by decide)
      (by simp) rfl fun _ => .finished
  | drain =>
    refine ⟨⟨by simp [Memory.blank], trivial⟩, fun _ _ => ⟨⟨?_, trivial⟩, fun _ _ => ?_⟩⟩
    · simp [mindful, Memory.note, Memory.blank]
    · exact ⟨rfl, fun _ call => nomatch call⟩
  | _ =>
    exact ⟨⟨by simp [Memory.blank], trivial⟩, fun _ _ => ⟨rfl, fun _ call => nomatch call⟩⟩

open List AckPendingStore

theorem PeerIncarnations.noteAt_seen (p : PeerIncarnations) (peer : NodeId) (incarnation : String)
    (now cooldown : Nat) :
    (p.noteAt peer incarnation now cooldown).2.seen = p.seen.insert peer incarnation := by
  unfold noteAt
  split
  · rfl
  split
  · rfl
  · split <;> rfl

theorem PeerIncarnations.noteAt_restart {p : PeerIncarnations}
    {previous incarnation : String} {now cooldown : Nat} (heard : p.seen[peer]? = some previous)
    (changed : previous ≠ incarnation) (calm : p.lastWipe[peer]?.any (now - · < cooldown) = false) :
    (p.noteAt peer incarnation now cooldown).1 = some previous := by
  simp [noteAt, heard, changed, calm]

def Task.memory (t : Task) : Memory := t.ledger (mindful t.tag) .blank

def Memory.forgetting (m : Memory) : Option NodeId :=
  m.todo.findSome? fun
    | .dropPeer peer => some peer
    | _ => none

/-- Where a node can have the id of a transport key for a peer: in a `buffer_enc`, in
`ack_pending`, or taken out by a handler. -/
inductive Spot where
  | enc (grade : KeyGrade)
  | acks
  | hand
  deriving DecidableEq

def Op.sweeps : Op → Option Spot
  | .encClear _ grade => some (.enc grade)
  | .dropPeer _ => some .acks
  | _ => none

namespace Cluster

def Has (a b : NodeId) (c : Cluster) : Spot → KeyId → Prop
  | .enc grade, id => id ∈ ((c.world.nodes a).enc b grade).inner.map (·.id)
  | .acks, id => ((c.world.nodes a).ackPending.bucket b)[id]?.isSome
  | .hand, id => ∃ t ∈ c.threads, t.tag.node = a ∧ t.isRunning ∧ t.tag.isTick = false ∧ (b, id) ∈ Task.hand t

def receiptsOf (a b : NodeId) (c : Cluster) (id : KeyId) : List Receipt :=
  c.world.receipts.filter fun r => r.source = b ∧ r.dest = a ∧ r.keyId = id

def Outdated (a b : NodeId) (c : Cluster) (id : KeyId) : Prop :=
  ∃ r ∈ c.receiptsOf a b id, r.incarnation ≠ (c.world.nodes b).incarnation

def CleanBut (a b : NodeId) (spots : List Spot) (c : Cluster) : Prop :=
  ∀ spot, spot ∉ spots → ∀ id, c.Has a b spot id → ¬ c.Outdated a b id

def heard (a b : NodeId) (c : Cluster) : Option String :=
  (c.world.nodes a).peerIncarnations.seen[b]?

def Noted (a b : NodeId) (c : Cluster) (t : Task) : Prop :=
  t.tag.node = a ∧ (b, (c.world.nodes b).incarnation) ∈ t.memory.noted

def Brings (a b : NodeId) (c : Cluster) (self : NodeId) (op : Op) (id : KeyId) : Spot → Prop
  | .hand => self = a ∧ ((∃ grade, op = .popOldest b grade ∧ c.Has a b (.enc grade) id) ∨
    (op = .ackTake b id ∧ c.Has a b .acks id))
  | .enc _ => self = a ∧ c.Has a b .hand id
  | .acks => self = a ∧ ∃ bytes grade, op = .ackInsert b id bytes grade

section Step

variable {a b : NodeId} {c : Cluster} {i : Nat} {hint : Hint} {tag : Tag}
  {log : List ((op : Op) × op.Answer)} {op : Op} {rest : op.Answer → Handler Outcome}
  {answer : op.Answer} {world : World}

variable {id : KeyId}

theorem mem_onEnc {grade : KeyGrade} {keys : List TransportKey}
    (held : id ∈ (op.onEnc b grade keys).map (·.id)) : id ∈ keys.map (·.id) ∨ ∃ key, key.id = id ∧
      (op = .pushFront b grade key ∨ op = .tryPush b grade key) := by
  cases op with
  | popOldest p g =>
    rw [onEnc] at held
    split at held
    · exact .inl (((tail_sublist _).map _).subset held)
    · exact .inl held
  | pushFront p g key =>
    rw [onEnc] at held
    split at held
    · rename_i here
      obtain ⟨rfl, rfl⟩ := here
      rcases mem_cons.mp held with rfl | old
      · exact .inr ⟨key, rfl, .inl rfl⟩
      · exact .inl old
    · exact .inl held
  | tryPush p g key =>
    rw [onEnc] at held
    split at held
    · rename_i here
      obtain ⟨rfl, rfl⟩ := here
      rw [map_append] at held
      rcases mem_append.mp held with old | new
      · exact .inl old
      · exact .inr ⟨key, (mem_singleton.mp new).symm, .inr rfl⟩
    · exact .inl held
  | encClear p g =>
    rw [onEnc] at held
    split at held
    · cases held
    · exact .inl held
  | clearAll => cases held
  | _ => exact .inl held

theorem isSome_onAcks {now timeout : Nat} {s : AckPendingStore}
    (held : ((op.onAcks now timeout s).bucket b)[id]?.isSome) :
    (s.bucket b)[id]?.isSome ∨ ∃ bytes grade, op = .ackInsert b id bytes grade := by
  cases op with
  | ackInsert p keyId bytes grade =>
    rw [onAcks, bucket_insert] at held
    split at held
    · rename_i same
      subst same
      rw [TreeMap.getElem?_insert] at held
      split at held
      · rename_i here
        rw [Std.compare_eq_iff_eq] at here
        exact .inr ⟨bytes, grade, by rw [here]⟩
      · exact .inl held
    · exact .inl held
  | ackTake p keyId =>
    rw [onAcks, (bucket_takeDiagnosed s p b keyId).1] at held
    split at held
    · cases held
    · exact .inl held
  | ackDiscard p keyId =>
    rw [onAcks, (bucket_takeDiagnosed s p b keyId).1] at held
    split at held
    · cases held
    · exact .inl held
  | reapExpired =>
    rw [onAcks, (bucket_reapExpired s now b).1] at held
    exact .inl (Option.isSome_of_isSome_filter _ _ held)
  | dropPeer p =>
    rw [onAcks, bucket_dropPeer] at held
    split at held
    · simp at held
    · exact .inl held
  | _ => exact .inl held

theorem mem_handle (ran : exec tag.node op hint c.world = some (answer, world)) {hand : List Held}
    (held : (b, id) ∈ handle hand op answer) : (b, id) ∈ hand ∨
      (∃ grade, op = .popOldest b grade ∧ id ∈ ((c.world.nodes tag.node).enc b grade).inner.map (·.id)) ∨
      (op = .ackTake b id ∧ ((c.world.nodes tag.node).ackPending.bucket b)[id]?.isSome) := by
  cases op with
  | popOldest p g =>
    simp only [exec, Option.some.injEq, Prod.mk.injEq] at ran
    have head := (SecureKeyBuffer.popOldest_inner ((c.world.nodes tag.node).enc p g)).2
    rw [ran.1] at head
    cases answer with
    | none => exact .inl held
    | some key =>
      rcases mem_cons.mp held with same | old
      · cases same
        exact .inr (.inl ⟨g, rfl, mem_map_of_mem (mem_of_mem_head? head.symm)⟩)
      · exact .inl old
  | ackTake p keyId =>
    simp only [exec, Option.some.injEq, Prod.mk.injEq] at ran
    cases answer with
    | hit entry =>
      rcases mem_cons.mp held with same | old
      · cases same
        exact .inr (.inr ⟨rfl, Option.isSome_of_eq_some (takeDiagnosed_hit ran.1)⟩)
      · exact .inl old
    | unknownPeer | unknownKey => exact .inl held
  | pushFront | tryPush | ackInsert => exact .inl (mem_of_mem_erase held)
  | sendExtKeys => exact .inl ((diff_subset _ _) held)
  | _ => exact .inl held

variable {spot : Spot}

theorem has_step (found : c.threads[i]? = some ⟨tag, log, .call op rest⟩)
    (ran : exec tag.node op hint c.world = some (answer, world))
    (custody : custody.may (Task.hand ⟨tag, log, .call op rest⟩) op)
    (mindful : (mindful tag).may (Task.memory ⟨tag, log, .call op rest⟩) op) (held : Has a b
      ⟨world, c.threads.set i ⟨tag, log ++ [⟨op, answer⟩], rest answer⟩⟩ spot id) :
    c.Has a b spot id ∨ c.Brings a b tag.node op id spot := by
  have listed : ⟨tag, log, .call op rest⟩ ∈ c.threads := mem_of_getElem? found
  cases spot with
  | enc grade =>
    by_cases here : a = tag.node
    · subst here
      simp only [Has, exec_enc ran] at held
      rcases mem_onEnc held with old | ⟨key, rfl, rfl | rfl⟩
      · exact .inl old
      · exact .inr ⟨rfl, _, listed, rfl, rfl, mindful.2, custody⟩
      · exact .inr ⟨rfl, _, listed, rfl, rfl, mindful.2, custody⟩
    · simp only [Has, exec_elsewhere ran here] at held
      exact .inl held
  | acks =>
    by_cases here : a = tag.node
    · subst here
      simp only [Has, exec_acks ran] at held
      rcases isSome_onAcks held with old | ⟨bytes, grade, rfl⟩
      · exact .inl old
      · exact .inr ⟨rfl, bytes, grade, rfl⟩
    · simp only [Has, exec_elsewhere ran here] at held
      exact .inl held
  | hand =>
    obtain ⟨t, member, node, running, other, inHand⟩ := held
    rcases mem_or_eq_of_mem_set member with old | rfl
    · exact .inl ⟨t, old, node, running, other, inHand⟩
    rw [hand_step tag log op answer (.call op rest)] at inHand
    obtain rfl : tag.node = a := node
    rcases mem_handle ran inHand with before | popped | taken
    · exact .inl ⟨_, listed, rfl, rfl, other, before⟩
    · exact .inr ⟨rfl, .inl popped⟩
    · exact .inr ⟨rfl, .inr taken⟩

variable {threads : List Task}

theorem outdated_step (ran : exec tag.node op hint c.world = some (answer, world))
    (outdated : Outdated a b ⟨world, threads⟩ id) : c.Outdated a b id := by
  obtain ⟨r, listed, earlier⟩ := outdated
  rw [((exec_config ran).2 b).2] at earlier
  simp only [receiptsOf, mem_filter, decide_eq_true_eq] at listed
  obtain ⟨member, source, dest, key⟩ := listed
  rcases exec_receipts ran with same | ⟨peer, keyId, -, added⟩
  · rw [same] at member
    exact ⟨r, by simp [receiptsOf, member, source, dest, key], earlier⟩
  rw [added] at member
  rcases mem_append.mp member with old | new
  · exact ⟨r, by simp [receiptsOf, old, source, dest, key], earlier⟩
  · rw [mem_singleton.mp new] at earlier source
    exact absurd (by rw [← source]) earlier

theorem receiptsOf_step (ran : exec tag.node op hint c.world = some (answer, world))
    (threads : List Task) (id : KeyId) :
    c.receiptsOf a b id ⊆ receiptsOf a b ⟨world, threads⟩ id := by
  unfold receiptsOf
  rcases exec_receipts ran with same | ⟨peer, keyId, -, added⟩
  · rw [same]
    exact Subset.refl _
  · rw [added, filter_append]
    exact subset_append_left _ _

variable {spots : List Spot}

theorem CleanBut.step (clean : c.CleanBut a b spots)
    (found : c.threads[i]? = some ⟨tag, log, .call op rest⟩)
    (ran : exec tag.node op hint c.world = some (answer, world))
    (custody : custody.may (Task.hand ⟨tag, log, .call op rest⟩) op)
    (mindful : (mindful tag).may (Task.memory ⟨tag, log, .call op rest⟩) op) (hand : .hand ∉ spots)
    (pops : ∀ grade, tag.node = a → op = .popOldest b grade → .enc grade ∉ spots)
    (takes : ∀ id, tag.node = a → op = .ackTake b id → .acks ∉ spots)
    (fresh : ∀ id bytes grade, tag.node = a → op = .ackInsert b id bytes grade → c.receiptsOf a b id = []) :
    CleanBut a b spots ⟨world, c.threads.set i ⟨tag, log ++ [⟨op, answer⟩], rest answer⟩⟩ := by
  intro spot outside id held outdated
  have outdated := outdated_step ran outdated
  rcases has_step found ran custody mindful held with before | brought
  · exact clean spot outside id before outdated
  cases spot with
  | enc grade => exact clean .hand hand id brought.2 outdated
  | acks =>
    obtain ⟨here, bytes, grade, inserts⟩ := brought
    obtain ⟨r, listed, -⟩ := outdated
    rw [fresh id bytes grade here inserts] at listed
    cases listed
  | hand =>
    obtain ⟨here, ⟨grade, pop, before⟩ | ⟨take, before⟩⟩ := brought
    · exact clean _ (pops grade here pop) id before outdated
    · exact clean _ (takes id here take) id before outdated

theorem CleanBut.swept (clean : c.CleanBut a b (spot :: spots))
    (empty : ∀ id, ¬ c.Has a b spot id) : c.CleanBut a b spots := by
  intro other outside id held
  by_cases same : other = spot
  · subst same
    exact absurd held (empty id)
  · exact clean other (by simp [same, outside]) id held

theorem memory_step (tag : Tag) (log : List ((op : Op) × op.Answer)) (op : Op) (answer : op.Answer)
    (prog prog' : Handler Outcome) : Task.memory ⟨tag, log ++ [⟨op, answer⟩], prog'⟩ =
      (Task.memory ⟨tag, log, prog⟩).note op answer := by
  simp only [Task.memory, Thread.ledger, foldl_append]
  rfl

theorem noted_note {m : Memory} {peer : NodeId} {incarnation : String}
    (noted : (peer, incarnation) ∈ (m.note op answer).noted) :
    (peer, incarnation) ∈ m.noted ∨ op = .noteIncarnation peer incarnation := by
  cases op with
  | noteIncarnation p run =>
    rcases mem_cons.mp noted with same | old
    · cases same
      exact .inr rfl
    · exact .inl old
  | _ => exact .inl noted

theorem todo_note (m : Memory)
    (other : ∀ peer incarnation, op ≠ .noteIncarnation peer incarnation) :
    (m.note op answer).todo = m.todo.tail := by
  cases op with
  | noteIncarnation peer incarnation => exact absurd rfl (other peer incarnation)
  | _ => rfl

theorem noted_step (found : c.threads[i]? = some ⟨tag, log, .call op rest⟩)
    (ran : exec tag.node op hint c.world = some (answer, world)) {j : Nat} {t : Task}
    (held : (c.threads.set i ⟨tag, log ++ [⟨op, answer⟩], rest answer⟩)[j]? = some t)
    (noted : Noted a b ⟨world, c.threads.set i ⟨tag, log ++ [⟨op, answer⟩], rest answer⟩⟩ t) :
    (∃ old, c.threads[j]? = some old ∧ c.Noted a b old) ∨
      (j = i ∧ tag.node = a ∧ op = .noteIncarnation b (c.world.nodes b).incarnation) := by
  obtain ⟨here, noted⟩ := noted
  rw [((exec_config ran).2 b).2] at noted
  by_cases same : i = j
  · subst same
    rw [List.getElem?_set_self (List.getElem?_eq_some_iff.mp found).1] at held
    cases held
    rw [memory_step tag log op answer (.call op rest)] at noted
    rcases noted_note noted with old | now
    · exact .inl ⟨_, found, here, old⟩
    · exact .inr ⟨rfl, here, now⟩
  · rw [List.getElem?_set_ne same] at held
    exact .inl ⟨t, held, here, noted⟩

theorem heard_step (ran : exec tag.node op hint c.world = some (answer, world))
    (threads : List Task) : heard a b ⟨world, threads⟩ = c.heard a b ∨
      ∃ incarnation, tag.node = a ∧ op = .noteIncarnation b incarnation ∧
        heard a b ⟨world, threads⟩ = some incarnation := by
  by_cases here : a = tag.node
  · subst here
    by_cases notes : ∃ peer incarnation, op = .noteIncarnation peer incarnation
    · obtain ⟨peer, incarnation, rfl⟩ := notes
      have seen : (world.nodes tag.node).peerIncarnations.seen =
          (c.world.nodes tag.node).peerIncarnations.seen.insert peer incarnation := by
        simp only [exec, Option.some.injEq, Prod.mk.injEq] at ran
        rw [← ran.2]
        simp [PeerIncarnations.noteAt_seen]
      unfold heard
      rw [seen, TreeMap.getElem?_insert]
      split
      · rename_i same
        rw [Std.compare_eq_iff_eq] at same
        exact .inr ⟨incarnation, rfl, by rw [same], rfl⟩
      · exact .inl rfl
    · left
      unfold heard
      rw [exec_heard ran fun peer incarnation same => notes ⟨peer, incarnation, same⟩]
  · left
    unfold heard
    rw [exec_elsewhere ran here]

theorem not_has_sweep (ran : exec tag.node op hint c.world = some (answer, world))
    (here : tag.node = a) (listed : op ∈ forgetOps b) (sweeps : op.sweeps = some spot)
    : ¬ Has a b ⟨world, threads⟩ spot id := by
  subst here
  simp only [forgetOps, mem_cons, not_mem_nil, or_false] at listed
  rcases listed with rfl | rfl | rfl | rfl <;> cases sweeps
  · simp [Has, exec_enc ran, onEnc]
  · simp [Has, exec_enc ran, onEnc]
  · simp [Has, exec_acks ran, onAcks, bucket_dropPeer]

end Step

end Cluster

end Dkms.Node
