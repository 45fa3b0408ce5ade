import Dkms.Node.Custody

namespace Dkms.Node

open List Function Std Dkms.Core Discipline

structure Reading where
  peer : NodeId
  qkd : Nat
  pqc : Option Nat
  deriving DecidableEq

structure Budget where
  reading : Option Reading
  allowed : NodeId → Nat

/-- The three reads end with the headroom as the peer's new allowance; an announced key uses
up one of it. -/
def Budget.note (capacity : Nat) (b : Budget) : (op : Op) → op.Answer → Budget
  | .encLen peer .qkd, qkd => { b with reading := some ⟨peer, qkd, none⟩ }
  | .encLen _ .pqc, pqc => { b with reading := b.reading.map fun r => { r with pqc := some pqc } }
  | .pendingCount peer, waiting =>
    let used := b.reading.elim 0 fun r => r.qkd + r.pqc.getD 0 + waiting
    ⟨none, update b.allowed peer (capacity - used)⟩
  | .ackInsert peer _ _ _, _ =>
    { b with allowed := update b.allowed peer (b.allowed peer - 1) }
  | _, _ => b

def Budget.none : Budget := ⟨.none, fun _ => 0⟩

def Tag.isTick (tag : Tag) : Bool :=
  match tag.call with
  | .tick _ => true
  | _ => false

theorem Tag.draws_of_not_tick {tag : Tag} (other : tag.isTick = false) : tag.draws = [] := by
  obtain ⟨node, call⟩ := tag
  cases call with
  | tick work => cases other
  | _ => rfl

/-- A tick reads the lengths of a peer in order, announces keys within its budget and touches no
buffer; the other calls announce nothing and count nothing. -/
def budgeted (capacity : Nat) (tag : Tag) : Discipline Op.Answer Budget where
  may b
    | .encLen _ .qkd => tag.isTick
    | .encLen peer .pqc => tag.isTick ∧ ∃ qkd, b.reading = some ⟨peer, qkd, Option.none⟩
    | .pendingCount peer => tag.isTick ∧ ∃ qkd pqc, b.reading = some ⟨peer, qkd, some pqc⟩
    | .ackInsert peer _ _ _ => tag.isTick ∧ 0 < b.allowed peer
    | .popOldest _ _ | .pushFront _ _ _ | .tryPush _ _ _ | .ackTake _ _ | .sendExtKeys _ _ =>
      tag.isTick = false
    | _ => True
  learns _ _ _ := True
  after := Budget.note capacity

variable {capacity : Nat} {tag : Tag} {b : Budget}

theorem budgeted_of_touches {α : Type} {kinds : List OpKind} {handler : Handler α}
    (touches : Touches kinds handler) (other : tag.isTick = false) (lengths : .encLen ∉ kinds)
    (counts : .ackCount ∉ kinds) (puts : .ackPut ∉ kinds) :
    (budgeted capacity tag).Obeys (fun _ _ => True) b handler := by
  apply Obeys.of_uses touches
  intro _ op member
  cases op <;> trivial

def planned (plan : List Emission) (peer : NodeId) : Nat := plan.countP (·.peer = peer)

theorem planned_append (plan more : List Emission) (peer : NodeId) :
    planned (plan ++ more) peer = planned plan peer + planned more peer := countP_append

theorem planTick_budgeted (cfg : DkmsConfig) (isTick : tag.isTick)
    (work : List (NodeId × Quota)) (plan : List Emission) (distinct : (work.map (·.1)).Nodup)
    (unplanned : ∀ peer ∈ work.map (·.1), planned plan peer = 0)
    (within : ∀ peer, planned plan peer ≤ b.allowed peer) : (budgeted cfg.capacityPerPeer tag).Obeys
      (fun b' result => ∀ peer, planned result peer ≤ b'.allowed peer) b
      (planTick cfg work plan) := by
  induction work generalizing b plan with
  | nil => exact within
  | cons item work ih =>
    obtain ⟨peer, quota⟩ := item
    obtain ⟨first, distinct⟩ := nodup_cons.mp distinct
    apply Obeys.perform isTick
    intro qkd _
    apply Obeys.perform
    · exact ⟨isTick, qkd, rfl⟩
    intro pqc _
    apply Obeys.perform
    · exact ⟨isTick, qkd, pqc, rfl⟩
    intro waiting _
    -- the reads leave the headroom as the allowance of this peer
    have none := unplanned peer (mem_cons_self ..)
    have later : ∀ other ∈ work.map (·.1), peer ≠ other := by
      rintro other member rfl
      exact first member
    dsimp only
    split
    · apply ih _ distinct
      · exact fun other member => unplanned other (mem_cons_of_mem _ member)
      intro other
      change planned plan other ≤ update b.allowed peer (cfg.capacityPerPeer - (qkd + pqc + waiting)) other
      by_cases same : other = peer
      · subst same
        omega
      · rw [update_of_ne same]
        exact within other
    have emitted : ∀ other, planned ((List.range (min quota.tokens
        (min cfg.maxTokensPerPeerPerTick (cfg.capacityPerPeer - (qkd + pqc + waiting))))).map
          fun i => ⟨peer, quota.draw i⟩) other ≤
        if other = peer then cfg.capacityPerPeer - (qkd + pqc + waiting) else 0 := by
      intro other
      unfold planned
      rw [countP_map]
      split
      · refine countP_le_length.trans ?_
        rw [length_range]
        omega
      rename_i differs
      rw [countP_eq_zero.mpr]
      intro i _
      simpa using Ne.symm differs
    apply ih _ distinct
    · intro other member
      have bound := emitted other
      rw [if_neg (later other member).symm] at bound
      rw [planned_append, unplanned other (mem_cons_of_mem _ member)]
      omega
    intro other
    have bound := emitted other
    change _ ≤ update b.allowed peer (cfg.capacityPerPeer - (qkd + pqc + waiting)) other
    rw [planned_append]
    by_cases same : other = peer
    · subst same
      rw [if_pos rfl] at bound
      rw [none, Nat.zero_add, update_self]
      exact bound
    rw [if_neg same] at bound
    rw [update_of_ne same]
    have before := within other
    omega

theorem startEmission_budgeted (cfg : DkmsConfig) (self : NodeId) (incarnation : String)
    (isTick : tag.isTick) (e : Emission) (plan : List Emission)
    (within : ∀ peer, planned (e :: plan) peer ≤ b.allowed peer) :
    (budgeted capacity tag).Obeys (fun b' _ => ∀ peer, planned plan peer ≤ b'.allowed peer) b
      (startEmission cfg self incarnation e) := by
  have left : ∀ peer, planned plan peer ≤ update b.allowed e.peer
      (b.allowed e.peer - 1) peer := by
    intro peer
    have bound := within peer
    unfold planned at bound ⊢
    rw [countP_cons] at bound
    by_cases same : peer = e.peer
    · subst same
      rw [update_self]
      simp only [decide_true, if_true] at bound
      omega
    · rw [update_of_ne same]
      omega
  apply Obeys.perform trivial
  intro known _
  split
  · apply Obeys.perform
    · refine ⟨isTick, ?_⟩
      change 0 < b.allowed e.peer
      have bound := within e.peer
      unfold planned at bound
      rw [countP_cons] at bound
      simp only [decide_true, if_true] at bound
      omega
    intro _ _
    apply Obeys.perform trivial
    intro sealed _
    cases sealed with
    | _ => exact ⟨trivial, fun _ _ => left⟩
  · intro peer
    change planned plan peer ≤ b.allowed peer
    have bound := within peer
    unfold planned at bound ⊢
    rw [countP_cons] at bound
    omega

theorem emitAll_budgeted (cfg : DkmsConfig) (self : NodeId) (incarnation : String)
    (isTick : tag.isTick) (fuel : Nat) (plan inFlight : List Emission)
    (within : ∀ peer, planned plan peer ≤ b.allowed peer) :
    (budgeted capacity tag).Obeys (fun _ _ => True) b
      (emitAll cfg self incarnation fuel plan inFlight) := by
  have finishes : ∀ b inFlight, (budgeted capacity tag).Obeys (fun b' _ => b' = b) b
      (finishEmission inFlight) := by
    intro b inFlight
    apply Obeys.of_uses_same (finishEmission_touches inFlight)
    · intro _ op member
      cases op <;> trivial
    · intro _ op answer member
      cases op <;> first | rfl | simp [Op.kind] at member
  induction fuel generalizing b plan inFlight with
  | zero => trivial
  | succ fuel ih =>
    cases plan with
    | nil =>
      unfold emitAll
      split
      · trivial
      apply Obeys.bind (finishes b inFlight)
      rintro _ inFlight' rfl
      exact ih _ _ within
    | cons e plan =>
      unfold emitAll
      split
      · apply Obeys.bind (startEmission_budgeted cfg self incarnation isTick e plan within)
        intro b' started left
        split <;> exact ih _ _ left
      · apply Obeys.bind (finishes b inFlight)
        rintro _ inFlight' rfl
        exact ih _ _ within

theorem program_budgeted (sha : Bytes → Bytes) (tag : Tag) (node : DkmsService) :
    (budgeted node.cfg.capacityPerPeer tag).Obeys (fun _ _ => True) .none
      (tag.call.program sha tag.node node) := by
  obtain ⟨self, call⟩ := tag
  cases call with
  | tick work =>
    apply Obeys.bind
    · apply Obeys.bind
      · apply planTick_budgeted node.cfg rfl work.toList []
        · rw [TreeMap.map_fst_toList_eq_keys]
          exact TreeMap.nodup_keys
        · exact fun _ _ => rfl
        · exact fun _ => Nat.le_refl _
      · intro b' plan within
        exact emitAll_budgeted node.cfg self node.incarnation rfl _ plan [] within
    · exact fun _ _ _ => trivial
  | encKeys r env =>
    exact (budgeted_of_touches (handleEncKeys_touches sha node.cfg self r env) rfl
      (by decide) (by decide) (by decide)).bind fun _ _ _ => trivial
  | decKeys requester master keyIds =>
    exact (budgeted_of_touches (handleDecKeys_touches node.cfg self requester master keyIds) rfl
      (by decide) (by decide) (by decide)).bind fun _ _ _ => trivial
  | extKeys peer body =>
    exact (budgeted_of_touches (handleExtKeys_touches sha node.cfg self peer body) rfl
      (by decide) (by decide) (by decide)).bind fun _ _ _ => trivial
  | receipts peer keyIds =>
    exact (budgeted_of_touches (handleIncomingAck_touches peer keyIds 0) rfl
      (by decide) (by decide) (by decide)).bind fun _ _ _ => trivial
  | delivery frame =>
    exact (budgeted_of_touches (handleOrrDeliveryBuffer_touches node.cfg frame) rfl
      (by decide) (by decide) (by decide)).bind fun _ _ _ => trivial
  | drain => exact ⟨trivial, fun _ _ => ⟨trivial, fun _ _ => trivial⟩⟩
  | _ => exact ⟨trivial, fun _ _ => trivial⟩

end Dkms.Node
