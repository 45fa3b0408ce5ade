import Dkms.Node.Budget
import Dkms.Node.OneTime

namespace Dkms.Node

open List Function Std Dkms.Core TreeMap Cluster AckPendingStore DkmsService SecureKeyBuffer Nat

def DkmsService.stock (n : DkmsService) (peer : NodeId) : Nat :=
  (n.enc peer .qkd).len + (n.enc peer .pqc).len + n.ackPending.pendingCount peer

def Cluster.WithinCapacity (c : Cluster) : Prop :=
  ∀ n peer, (c.world.nodes n).stock peer ≤ (c.world.nodes n).cfg.capacityPerPeer

def counts (counting : Option NodeId) : (op : Op) × op.Answer → Option NodeId
  | ⟨.encLen peer .qkd, _⟩ => some peer
  | ⟨.pendingCount _, _⟩ => none
  | _ => counting

def Task.counting (t : Task) : Option NodeId := t.log.foldl counts none

/-- A tick starts to count a peer only while no other handler has a key of that peer in hand, and
no key of that peer is taken out while a tick counts it. -/
def Op.Settled (c : Cluster) (self : NodeId) : Op → Prop
  | .encLen peer .qkd => ∀ t ∈ c.threads, t.tag.node = self → t.isRunning → t.tag.isTick = false →
    ∀ held ∈ Task.hand t, held.1 ≠ peer
  | .popOldest peer _ | .ackTake peer _ => ∀ t ∈ c.threads, t.tag.node = self → t.isRunning →
    Task.counting t ≠ some peer
  | _ => True

def Act.Settled (c : Cluster) : Act → Prop
  | .step i _ => ∀ t ∈ c.threads[i]?, ∀ op ∈ t.prog.nextOp, op.Settled c t.tag.node
  | _ => True

instance (c : Cluster) (self : NodeId) (op : Op) : Decidable (op.Settled c self) := by
  rcases op with _ | _ <;> dsimp only [Op.Settled]
  case encLen peer grade => rcases grade with _ | _ <;> infer_instance
  all_goals infer_instance

instance (c : Cluster) (act : Act) : Decidable (act.Settled c) := by
  rcases act with _ | _ <;> dsimp only [Act.Settled] <;> infer_instance

def Op.announces (peer : NodeId) : Op → Nat
  | .ackInsert p _ _ _ => if p = peer then 1 else 0
  | _ => 0

section

variable {op : Op}

theorem onAcks_count (peer : NodeId) (now timeout : Nat) (s : AckPendingStore) :
    (op.onAcks now timeout s).pendingCount peer ≤ s.pendingCount peer + op.announces peer := by
  cases op with
  | ackInsert p keyId bytes grade =>
    simp only [Op.announces, Op.onAcks, pendingCount, bucket_insert]
    by_cases same : p = peer
    · rw [if_pos same, size_insert]
      split <;> omega
    · rw [if_neg same]
      omega
  | ackTake p keyId =>
    simp only [Op.onAcks, (bucket_takeDiagnosed s p peer keyId).2]
    split
    · exact size_erase_le
    · exact Nat.le_refl _
  | ackDiscard p keyId =>
    simp only [Op.onAcks, (bucket_takeDiagnosed s p peer keyId).2]
    split
    · exact size_erase_le
    · exact Nat.le_refl _
  | reapExpired => exact (bucket_reapExpired s now peer).2
  | dropPeer p =>
    simp only [Op.onAcks, pendingCount, bucket_dropPeer]
    split
    · exact Nat.zero_le _
    · exact Nat.le_refl _
  | _ => exact Nat.le_refl _

theorem counting_reading (capacity : Nat) (t : Task) :
    t.counting = (t.ledger (budgeted capacity t.tag) .none).reading.map (·.peer) := by
  have fold : ∀ (log : List ((op : Op) × op.Answer)) (counting : Option NodeId) (b : Budget),
      counting = b.reading.map (·.peer) → log.foldl counts counting =
        (log.foldl (fun b entry => b.note capacity entry.1 entry.2) b).reading.map (·.peer) := by
    intro log
    induction log with
    | nil => exact fun _ _ same => same
    | cons entry log ih =>
      intro counting b same
      apply ih
      obtain ⟨op, answer⟩ := entry
      cases op with
      | encLen peer grade =>
        cases grade with
        | qkd => rfl
        | pqc =>
          simp only [Budget.note, same, Option.map_map]
          rfl
      | pendingCount peer => rfl
      | _ => exact same
  exact fold t.log none .none rfl

end

def claim (capacity : Nat) (peer : NodeId) (t : Task) : Nat :=
  if t.tag.isTick then (t.ledger (budgeted capacity t.tag) .none).allowed peer
  else t.hand.countP (·.1 = peer)

def claimAt (capacity : Nat) (n peer : NodeId) (t : Task) : Nat :=
  if t.tag.node = n ∧ t.isRunning then claim capacity peer t else 0

def load (capacity : Nat) (n peer : NodeId) (threads : List Task) : Nat :=
  (threads.map (claimAt capacity n peer)).sum

variable {threads : List Task}

theorem load_set (capacity : Nat) (n peer : NodeId) {i : Nat} {t : Task}
    (found : threads[i]? = some t) (t' : Task) :
    load capacity n peer (threads.set i t') + claimAt capacity n peer t =
      load capacity n peer threads + claimAt capacity n peer t' := by
  unfold load
  induction threads generalizing i with
  | nil => cases found
  | cons head threads ih =>
    cases i with
    | zero =>
      cases found
      simp only [set_cons_zero, map_cons, sum_cons]
      omega
    | succ i =>
      have rest := ih found
      simp only [set_cons_succ, map_cons, sum_cons]
      omega

section

variable {c : Cluster} {i : Nat} {hint : Hint} {tag : Tag} {log : List ((op : Op) × op.Answer)}
  {op : Op} {rest : op.Answer → Handler Outcome} {answer : op.Answer} {world : World}
  {capacity : Nat}

theorem claim_hand (other : tag.isTick = false) (peer : NodeId) (prog : Handler Outcome) :
    claim capacity peer ⟨tag, log, prog⟩ = (Task.hand ⟨tag, log, prog⟩).countP (·.1 = peer) := by
  simp only [claim, other, Bool.false_eq_true, if_false]

theorem claim_budget (isTick : tag.isTick) (peer : NodeId) (prog : Handler Outcome) :
    claim capacity peer ⟨tag, log, prog⟩ =
      (Thread.ledger ⟨tag, log, prog⟩ (budgeted capacity tag) .none).allowed peer := by
  simp only [claim, isTick, if_true]

theorem budget_step (tag : Tag) (log : List ((op : Op) × op.Answer)) (op : Op) (answer : op.Answer)
    (prog prog' : Handler Outcome) :
    Thread.ledger ⟨tag, log ++ [⟨op, answer⟩], prog'⟩ (budgeted capacity tag) .none =
      Budget.note capacity (Thread.ledger ⟨tag, log, prog⟩ (budgeted capacity tag) .none) op
        answer := by
  simp only [Thread.ledger, foldl_append]
  rfl

theorem countP_erase_held {hand : List Held} {held : Held} (member : held ∈ hand) (peer : NodeId) :
    (hand.erase held).countP (·.1 = peer) + (if held.1 = peer then 1 else 0) =
      hand.countP (·.1 = peer) := by
  rw [(perm_cons_erase member).countP_eq, countP_cons]
  simp

section

variable (ran : exec tag.node op hint c.world = some (answer, world))
include ran

theorem stock_le (peer : NodeId)
    (quiet : ∀ grade key, op ≠ .pushFront peer grade key ∧ op ≠ .tryPush peer grade key) :
    (world.nodes tag.node).stock peer ≤
      (c.world.nodes tag.node).stock peer + op.announces peer := by
  have acks : (world.nodes tag.node).ackPending.pendingCount peer ≤
      (c.world.nodes tag.node).ackPending.pendingCount peer + op.announces peer := by
    rw [exec_acks ran]
    exact onAcks_count peer _ _ _
  have qkd := (Op.onEnc_sublist ((c.world.nodes tag.node).enc peer .qkd).inner (quiet .qkd)).length_le
  have pqc := (Op.onEnc_sublist ((c.world.nodes tag.node).enc peer .pqc).inner (quiet .pqc)).length_le
  rw [← exec_enc ran] at qkd pqc
  unfold stock len
  omega

theorem stock_step_tick (isTick : tag.isTick) {b : Budget}
    (within : (budgeted capacity tag).may b op) (notCount : ∀ p, op ≠ .pendingCount p)
    (peer : NodeId) : (world.nodes tag.node).stock peer + (b.note capacity op answer).allowed peer ≤
      (c.world.nodes tag.node).stock peer + b.allowed peer := by
  have other : ¬ tag.isTick = false := by simp [isTick]
  cases op with
  | pushFront p g key => exact absurd within other
  | tryPush p g key => exact absurd within other
  | pendingCount p => exact absurd rfl (notCount p)
  | ackInsert p keyId bytes grade =>
    have stock := stock_le ran peer (by simp)
    have positive := within.2
    dsimp only [Budget.note, Op.announces] at stock ⊢
    by_cases same : p = peer
    · subst same
      rw [if_pos rfl] at stock
      rw [update_self]
      omega
    · rw [if_neg same] at stock
      rw [update_of_ne (Ne.symm same)]
      omega
  | encLen p g =>
    have stock := stock_le ran peer (by simp)
    cases g <;> exact Nat.add_le_add_right stock _
  | _ =>
    have stock := stock_le ran peer (by simp)
    exact Nat.add_le_add_right stock _

theorem stock_step_hand {hand : List Held} (kept : custody.may hand op)
    (announces : ∀ p k x g, op ≠ .ackInsert p k x g) (peer : NodeId) :
    (world.nodes tag.node).stock peer + (handle hand op answer).countP (·.1 = peer) ≤
      (c.world.nodes tag.node).stock peer + hand.countP (·.1 = peer) := by
  have acks := exec_acks ran
  have qkd := exec_enc ran peer .qkd
  have pqc := exec_enc ran peer .pqc
  cases op with
  | ackInsert p k x g => exact absurd rfl (announces p k x g)
  | pushFront p g key | tryPush p g key =>
    have left := countP_erase_held kept peer
    simp only [Op.onEnc, Op.onAcks, handle] at qkd pqc acks left ⊢
    unfold stock len
    rw [qkd, pqc, acks]
    by_cases same : peer = p
    · subst same
      cases g <;> simp at left ⊢ <;> omega
    rw [if_neg (fun both => same both.1), if_neg (fun both => same both.1)]
    rw [if_neg (Ne.symm same)] at left
    omega
  | popOldest p g =>
    simp only [exec, Option.some.injEq, Prod.mk.injEq] at ran
    have head := (popOldest_inner ((c.world.nodes tag.node).enc p g)).2
    rw [ran.1] at head
    simp only [Op.onEnc, Op.onAcks] at qkd pqc acks
    unfold stock len
    rw [qkd, pqc, acks]
    cases answer with
    | none =>
      have empty := head?_eq_none_iff.mp head.symm
      by_cases same : peer = p
      · subst same
        cases g <;> simp [handle]
      · rw [if_neg (fun both => same both.1), if_neg (fun both => same both.1)]
        exact Nat.le_refl _
    | some key =>
      obtain ⟨keys, held⟩ := head?_eq_some_iff.mp head.symm
      by_cases same : peer = p
      · subst same
        cases g <;> simp [handle, held] <;> omega
      · rw [if_neg (fun both => same both.1), if_neg (fun both => same both.1)]
        simp [handle, Ne.symm same]
  | ackTake p keyId =>
    simp only [exec, Option.some.injEq, Prod.mk.injEq] at ran
    have size := (bucket_takeDiagnosed (c.world.nodes tag.node).ackPending p peer keyId).2
    simp only [Op.onEnc, Op.onAcks] at qkd pqc acks
    rw [← acks] at size
    unfold stock len
    rw [qkd, pqc, size]
    cases answer with
    | hit entry =>
      have held := takeDiagnosed_hit ran.1
      by_cases same : p = peer
      · subst same
        have there : keyId ∈ (c.world.nodes tag.node).ackPending.bucket p := by
          rw [mem_iff_isSome_getElem?, held]
          rfl
        have positive : 0 < ((c.world.nodes tag.node).ackPending.bucket p).size := by
          apply Nat.pos_of_ne_zero
          intro none
          have empty : ((c.world.nodes tag.node).ackPending.bucket p).isEmpty := by
            rw [isEmpty_eq_size_eq_zero, none]
            rfl
          rw [getElem?_of_isEmpty empty] at held
          cases held
        simp only [handle, pendingCount, if_true, size_erase,
          contains_iff_mem.mpr there, countP_cons, decide_true]
        omega
      · simp [handle, same]
    | unknownPeer | unknownKey =>
      split
      · have smaller : (((c.world.nodes tag.node).ackPending.bucket peer).erase keyId).size ≤
            ((c.world.nodes tag.node).ackPending.bucket peer).size := size_erase_le
        simp only [handle, pendingCount]
        omega
      · exact Nat.le_refl _
  | sendExtKeys p body =>
    have stock := stock_le ran peer (by simp)
    have fewer : (hand.diff (body.held p)).countP (·.1 = peer) ≤ hand.countP (·.1 = peer) :=
      (diff_sublist _ _).countP_le
    dsimp only [handle, Op.announces] at stock ⊢
    omega
  | _ =>
    have stock := stock_le ran peer (by simp)
    exact Nat.add_le_add_right stock _

end

end

theorem load_single (capacity : Nat) (n peer : NodeId) {i : Nat} {t : Task}
    (found : threads[i]? = some t)
    (others : ∀ j t', j ≠ i → threads[j]? = some t' → claimAt capacity n peer t' = 0) :
    load capacity n peer threads = claimAt capacity n peer t := by
  unfold load
  induction threads generalizing i with
  | nil => cases found
  | cons head threads ih =>
    rw [map_cons, sum_cons]
    cases i with
    | zero =>
      cases found
      have rest : (threads.map (claimAt capacity n peer)).sum = 0 := by
        rw [sum_eq_zero]
        intro x member
        obtain ⟨t', listed, rfl⟩ := mem_map.mp member
        obtain ⟨j, bound, rfl⟩ := getElem_of_mem listed
        exact others (j + 1) _ (by omega) (getElem?_eq_getElem bound)
      omega
    | succ i =>
      have first := others 0 head (by omega) rfl
      have rest := ih found fun j t' other held => others (j + 1) t' (by omega) held
      omega

theorem mem_handle {op : Op} {answer : op.Answer} {hand : List Held} {held : Held}
    (member : held ∈ handle hand op answer) :
    held ∈ hand ∨ (∃ grade, op = .popOldest held.1 grade) ∨ ∃ keyId, op = .ackTake held.1 keyId := by
  cases op with
  | popOldest peer grade =>
    cases answer with
    | none => exact .inl member
    | some key =>
      rcases mem_cons.mp member with rfl | before
      · exact .inr (.inl ⟨grade, rfl⟩)
      · exact .inl before
  | ackTake peer keyId =>
    cases answer with
    | hit entry =>
      rcases mem_cons.mp member with rfl | before
      · exact .inr (.inr ⟨keyId, rfl⟩)
      · exact .inl before
    | unknownPeer | unknownKey => exact .inl member
  | pushFront peer grade key | tryPush peer grade key | ackInsert peer keyId bytes grade =>
    exact .inl (mem_of_mem_erase member)
  | sendExtKeys peer body => exact .inl ((diff_sublist _ _).subset member)
  | _ => exact .inl member

/-- While a tick counts a peer no other handler of its node has a key of that peer, so the
buffers do not grow under it. -/
structure Steady (c : Cluster) (n : NodeId) (r : Reading) : Prop where
  qkd : ((c.world.nodes n).enc r.peer .qkd).len ≤ r.qkd
  pqc : ∀ pqc, r.pqc = some pqc → ((c.world.nodes n).enc r.peer .pqc).len ≤ pqc
  hands : ∀ t ∈ c.threads, t.tag.node = n → t.isRunning → t.tag.isTick = false →
    ∀ held ∈ Task.hand t, held.1 ≠ r.peer

structure Capped (cfg : NodeId → DkmsConfig) (c : Cluster) : Prop where
  config : ∀ n, (c.world.nodes n).cfg = cfg n
  kept : Pool.Obeyed (fun _ => custody) Tag.draws (fun _ _ _ => True) c.threads
  within : Pool.Obeyed (fun tag => budgeted (cfg tag.node).capacityPerPeer tag) (fun _ => .none)
    (fun _ _ _ => True) c.threads
  oneTick : ∀ (i j : Nat) (t t' : Task), c.threads[i]? = some t → c.threads[j]? = some t' → t.isRunning →
    t'.isRunning → t.tag.isTick → t'.tag.isTick → t.tag.node = t'.tag.node → i = j
  steady : ∀ t ∈ c.threads, t.isRunning → ∀ r : Reading,
    (t.ledger (budgeted (cfg t.tag.node).capacityPerPeer t.tag) .none).reading = some r →
      Steady c t.tag.node r
  room : ∀ n peer, (c.world.nodes n).stock peer +
    load (cfg n).capacityPerPeer n peer c.threads ≤ (cfg n).capacityPerPeer

namespace Capped

variable {cfg : NodeId → DkmsConfig} {c c' : Cluster}

theorem withinCapacity (capped : Capped cfg c) : c.WithinCapacity := by
  intro n peer
  have room := capped.room n peer
  rw [capped.config]
  omega

section

variable {i : Nat} {hint : Hint} {tag : Tag} {log : List ((op : Op) × op.Answer)} {op : Op}
  {rest : op.Answer → Handler Outcome} {answer : op.Answer} {world : World}

variable {r : Reading}

theorem steady_step (capped : Capped cfg c) (found : c.threads[i]? = some ⟨tag, log, .call op rest⟩)
    (ran : exec tag.node op hint c.world = some (answer, world)) (settled : op.Settled c tag.node)
    {t : Task} (member : t ∈ c.threads) (running : t.isRunning)
    (reads : (t.ledger (budgeted (cfg t.tag.node).capacityPerPeer t.tag) .none).reading = some r) :
    Steady ⟨world, c.threads.set i ⟨tag, log ++ [⟨op, answer⟩], rest answer⟩⟩ t.tag.node r := by
  obtain ⟨qkd, pqc, hands⟩ := capped.steady t member running r reads
  have mine := mem_of_getElem? found
  by_cases here : t.tag.node = tag.node
  · have kept := capped.kept.may found
    have within := capped.within.may found
    have counting : t.counting = some r.peer := by
      rw [counting_reading (cfg t.tag.node).capacityPerPeer, reads]
      rfl
    -- a push would need a key in hand
    have quiet : ∀ grade key, op ≠ .pushFront r.peer grade key ∧ op ≠ .tryPush r.peer grade key := by
      intro grade key
      constructor
      · rintro rfl
        exact hands _ mine here.symm rfl within _ kept rfl
      · rintro rfl
        exact hands _ mine here.symm rfl within _ kept rfl
    have lengths : ∀ grade, ((world.nodes t.tag.node).enc r.peer grade).len ≤
        ((c.world.nodes t.tag.node).enc r.peer grade).len := by
      intro grade
      rw [here]
      unfold len
      rw [exec_enc ran]
      exact (Op.onEnc_sublist _ (quiet grade)).length_le
    refine ⟨(lengths .qkd).trans qkd, fun x read => (lengths .pqc).trans (pqc x read), ?_⟩
    intro t' listed node running' other held inHand
    rcases mem_or_eq_of_mem_set listed with old | rfl
    · exact hands t' old node running' other held inHand
    rw [hand_step tag log op answer (.call op rest)] at inHand
    rcases mem_handle inHand with before | ⟨grade, rfl⟩ | ⟨keyId, rfl⟩
    · exact hands _ mine node rfl other held before
    · rintro same
      exact settled t member here running (by rw [counting, same])
    · rintro same
      exact settled t member here running (by rw [counting, same])
  · have same := exec_elsewhere ran here
    refine ⟨by rw [same]; exact qkd, by rw [same]; exact pqc, ?_⟩
    intro t' listed node running' other held inHand
    rcases mem_or_eq_of_mem_set listed with old | rfl
    · exact hands t' old node running' other held inHand
    · exact absurd node.symm here

theorem reading_step (capped : Capped cfg c)
    (found : c.threads[i]? = some ⟨tag, log, .call op rest⟩)
    (ran : exec tag.node op hint c.world = some (answer, world)) (settled : op.Settled c tag.node)
    (reads : (Budget.note (cfg tag.node).capacityPerPeer
      (Thread.ledger ⟨tag, log, .call op rest⟩ (budgeted (cfg tag.node).capacityPerPeer tag) .none)
        op answer).reading = some r) :
    Steady ⟨world, c.threads.set i ⟨tag, log ++ [⟨op, answer⟩], rest answer⟩⟩ tag.node r := by
  have mine := mem_of_getElem? found
  have within := capped.within.may found
  have untaken : (op.kind = .encLen) → tag.isTick → ∀ peer,
      (∀ t ∈ c.threads, t.tag.node = tag.node → t.isRunning → t.tag.isTick = false →
        ∀ held ∈ Task.hand t, held.1 ≠ peer) →
      ∀ t ∈ c.threads.set i ⟨tag, log ++ [⟨op, answer⟩], rest answer⟩, t.tag.node = tag.node →
        t.isRunning → t.tag.isTick = false → ∀ held ∈ Task.hand t, held.1 ≠ peer := by
    intro _ isTick peer before t listed node running other
    rcases mem_or_eq_of_mem_set listed with old | rfl
    · exact before t old node running other
    · rw [isTick] at other
      cases other
  cases op with
  | encLen peer grade =>
    obtain ⟨rfl, rfl⟩ := ran
    cases grade with
    | qkd =>
      cases reads
      refine ⟨Nat.le_refl _, fun pqc read => ?_, untaken rfl within peer settled⟩
      cases read
    | pqc =>
      obtain ⟨isTick, qkd, reading⟩ := within
      have before := capped.steady _ mine rfl _ reading
      simp only [Budget.note, reading, Option.map_some, Option.some.injEq] at reads
      subst reads
      refine ⟨before.qkd, fun pqc read => ?_, untaken rfl isTick peer before.hands⟩
      cases read
      exact Nat.le_refl _
  | pendingCount peer => cases reads
  | _ => exact capped.steady_step found ran settled mine rfl reads

theorem load_counted (capped : Capped cfg c) {prog : Handler Outcome}
    (found : c.threads[i]? = some ⟨tag, log, prog⟩) (running : prog.result = none)
    (isTick : tag.isTick) (reads : (Thread.ledger ⟨tag, log, prog⟩
      (budgeted (cfg tag.node).capacityPerPeer tag) .none).reading = some r) (t' : Task) :
    load (cfg tag.node).capacityPerPeer tag.node r.peer (c.threads.set i t') =
      claimAt (cfg tag.node).capacityPerPeer tag.node r.peer t' := by
  have bound : i < c.threads.length := (List.getElem?_eq_some_iff.mp found).1
  have isRunning : Thread.isRunning (⟨tag, log, prog⟩ : Task) := by
    unfold Thread.isRunning
    rw [running]
    rfl
  have steady := capped.steady _ (mem_of_getElem? found) isRunning r reads
  apply load_single _ _ _ (List.getElem?_set_self bound)
  intro j t other held
  rw [List.getElem?_set_ne (Ne.symm other)] at held
  unfold claimAt
  split
  · rename_i both
    unfold claim
    split
    · rename_i ticking
      exact absurd (capped.oneTick i j _ t found held isRunning both.2 isTick ticking both.1.symm)
        (Ne.symm other)
    rename_i notTick
    rw [countP_eq_zero]
    intro pair inHand
    simpa using steady.hands t (mem_of_getElem? held) both.1 both.2
      (Bool.eq_false_of_not_eq_true notTick) pair inHand
  · rfl

theorem room_step (capped : Capped cfg c) (found : c.threads[i]? = some ⟨tag, log, .call op rest⟩)
    (ran : exec tag.node op hint c.world = some (answer, world)) (n peer : NodeId) :
    (world.nodes n).stock peer + load (cfg n).capacityPerPeer n peer
      (c.threads.set i ⟨tag, log ++ [⟨op, answer⟩], rest answer⟩) ≤ (cfg n).capacityPerPeer := by
  have room := capped.room n peer
  have within := capped.within.may found
  have moved := load_set (cfg n).capacityPerPeer n peer found ⟨tag, log ++ [⟨op, answer⟩], rest answer⟩
  by_cases here : n = tag.node
  · subst here
    have before : claimAt (cfg tag.node).capacityPerPeer tag.node peer ⟨tag, log, .call op rest⟩ =
        claim (cfg tag.node).capacityPerPeer peer ⟨tag, log, .call op rest⟩ :=
      if_pos ⟨rfl, rfl⟩
    have after : claimAt (cfg tag.node).capacityPerPeer tag.node peer
        ⟨tag, log ++ [⟨op, answer⟩], rest answer⟩ ≤
        claim (cfg tag.node).capacityPerPeer peer ⟨tag, log ++ [⟨op, answer⟩], rest answer⟩ := by
      unfold claimAt
      split
      · exact Nat.le_refl _
      · exact Nat.zero_le _
    by_cases isTick : tag.isTick
    · rw [claim_budget isTick, budget_step tag log op answer (.call op rest)] at after
      rw [claim_budget isTick] at before
      by_cases count : ∃ p, op = .pendingCount p
      · obtain ⟨p, rfl⟩ := count
        obtain ⟨-, qkd, pqc, reading⟩ := within
        obtain ⟨rfl, rfl⟩ := ran
        by_cases same : peer = p
        · subst same
          have counted := capped.load_counted found rfl isTick reading
          dsimp only at counted
          rw [counted]
          simp only [Budget.note, reading, Option.elim_some, Option.getD_some, update_self] at after
          have steady := capped.steady _ (mem_of_getElem? found) rfl _ reading
          have read := steady.qkd
          have read' := steady.pqc pqc rfl
          unfold stock at room ⊢
          dsimp only at read read'
          omega
        · simp only [Budget.note, update_of_ne same] at after
          omega
      · have stock := stock_step_tick ran isTick within (fun p same => count ⟨p, same⟩) peer
        omega
    · have other : tag.isTick = false := Bool.eq_false_of_not_eq_true isTick
      rw [claim_hand other, hand_step tag log op answer (.call op rest)] at after
      rw [claim_hand other] at before
      have kept : custody.may (Task.hand ⟨tag, log, .call op rest⟩) op := capped.kept.may found
      have stock := stock_step_hand ran kept (by
        rintro p k x g rfl
        exact isTick within.1) peer
      omega
  · have before : claimAt (cfg n).capacityPerPeer n peer ⟨tag, log, .call op rest⟩ = 0 :=
      if_neg fun both => here both.1.symm
    have after : claimAt (cfg n).capacityPerPeer n peer
        ⟨tag, log ++ [⟨op, answer⟩], rest answer⟩ = 0 := if_neg fun both => here both.1.symm
    rw [exec_elsewhere ran here]
    omega

theorem step (capped : Capped cfg c) (found : c.threads[i]? = some ⟨tag, log, .call op rest⟩)
    (ran : exec tag.node op hint c.world = some (answer, world)) (settled : op.Settled c tag.node) :
    Capped cfg ⟨world, c.threads.set i ⟨tag, log ++ [⟨op, answer⟩], rest answer⟩⟩ := by
  have bound : i < c.threads.length := (List.getElem?_eq_some_iff.mp found).1
  constructor
  case config => exact fun n => ((exec_config ran).2 n).1.trans (capped.config n)
  case kept => exact capped.kept.advance found trivial
  case within => exact capped.within.advance found trivial
  case oneTick =>
    -- a thread that runs now ran before, with the same tag
    have past : ∀ (j : Nat) (t : Task),
        (c.threads.set i ⟨tag, log ++ [⟨op, answer⟩], rest answer⟩)[j]? = some t → t.isRunning →
          ∃ old : Task, c.threads[j]? = some old ∧ old.isRunning ∧ old.tag = t.tag := by
      intro j t held running
      by_cases same : i = j
      · subst same
        rw [List.getElem?_set_self bound] at held
        cases held
        exact ⟨_, found, rfl, rfl⟩
      · rw [List.getElem?_set_ne same] at held
        exact ⟨t, held, running, rfl⟩
    intro j j' t t' held held' running running' isTick isTick' node
    obtain ⟨old, before, ran, sameTag⟩ := past j t held running
    obtain ⟨old', before', ran', sameTag'⟩ := past j' t' held' running'
    exact capped.oneTick j j' old old' before before' ran ran' (sameTag ▸ isTick)
      (sameTag' ▸ isTick') (by rw [sameTag, sameTag', node])
  case steady =>
    intro t listed running r reads
    rcases mem_or_eq_of_mem_set listed with old | rfl
    · exact capped.steady_step found ran settled old running reads
    · rw [budget_step tag log op answer (.call op rest)] at reads
      exact capped.reading_step found ran settled reads
  case room => exact capped.room_step found ran

end

theorem outside (capped : Capped cfg c) (threads : c'.threads = c.threads)
    (same : ∀ n, (c'.world.nodes n).cfg = (c.world.nodes n).cfg ∧
      (c'.world.nodes n).pool = (c.world.nodes n).pool ∧
      (c'.world.nodes n).ackPending = (c.world.nodes n).ackPending) : Capped cfg c' := by
  have enc : ∀ n peer grade, (c'.world.nodes n).enc peer grade = (c.world.nodes n).enc peer grade := by
    intro n peer grade
    unfold enc
    rw [(same n).2.1]
  constructor
  case config => exact fun n => (same n).1.trans (capped.config n)
  case kept => exact threads ▸ capped.kept
  case within => exact threads ▸ capped.within
  case oneTick => exact threads ▸ capped.oneTick
  case steady =>
    intro t member running r reads
    rw [threads] at member
    obtain ⟨qkd, pqc, hands⟩ := capped.steady t member running r reads
    exact ⟨by rw [enc]; exact qkd, by rw [enc]; exact pqc, threads ▸ hands⟩
  case room =>
    intro n peer
    have room := capped.room n peer
    unfold stock at room ⊢
    rw [enc, enc, (same n).2.2, threads]
    exact room

theorem start (capped : Capped cfg c) (sha : Bytes → Bytes) (tag : Tag)
    (free : tag.isTick → c.isTicking tag.node = false) :
    Capped cfg (c.start sha tag.node tag.call) := by
  have alone : ∀ t ∈ c.threads, tag.isTick → t.isRunning → t.tag.isTick → t.tag.node ≠ tag.node := by
    intro t member isTick running ticking node
    have none := free isTick
    unfold Cluster.isTicking at none
    rw [any_eq_false] at none
    apply none t member
    have isTick' : Task.isTick t := ticking
    simp [node, running, isTick']
  constructor
  case config => exact capped.config
  case kept => exact capped.kept.launch (program_custody sha tag _)
  case within =>
    apply capped.within.launch
    rw [← capped.config]
    exact program_budgeted sha tag _
  case oneTick =>
    intro j j' t t' held held' running running' isTick isTick' node
    rcases Pool.getElem?_launch held, Pool.getElem?_launch held' with
      ⟨old | ⟨here, rfl⟩, old' | ⟨here', rfl⟩⟩
    · exact capped.oneTick j j' t t' old old' running running' isTick isTick' node
    · exact absurd node (alone t (mem_of_getElem? old) isTick' running isTick)
    · exact absurd node.symm (alone t' (mem_of_getElem? old') isTick running' isTick')
    · rw [here, here']
  case steady =>
    intro t member running r reads
    rcases mem_append.mp member with old | new
    · obtain ⟨qkd, pqc, hands⟩ := capped.steady t old running r reads
      refine ⟨qkd, pqc, ?_⟩
      intro t' listed node running' other held inHand
      rcases mem_append.mp listed with old' | new'
      · exact hands t' old' node running' other held inHand
      rw [mem_singleton.mp new'] at other inHand
      have none : Task.hand (.launch tag (tag.call.program sha tag.node (c.world.nodes tag.node))) =
          [] := Tag.draws_of_not_tick other
      rw [none] at inHand
      cases inHand
    · rw [mem_singleton.mp new] at reads
      cases reads
  case room =>
    intro n peer
    have room := capped.room n peer
    have nothing : claimAt (cfg n).capacityPerPeer n peer
        (.launch tag (tag.call.program sha tag.node (c.world.nodes tag.node))) = 0 := by
      unfold claimAt
      split
      · unfold claim
        split
        · rfl
        rename_i other
        have none : Task.hand (.launch tag
            (tag.call.program sha tag.node (c.world.nodes tag.node))) = [] :=
          Tag.draws_of_not_tick (Bool.eq_false_of_not_eq_true other)
        rw [none]
        rfl
      · rfl
    have loads : load (cfg n).capacityPerPeer n peer (c.start sha tag.node tag.call).threads =
        load (cfg n).capacityPerPeer n peer c.threads := by
      unfold load Cluster.start Pool.launch
      rw [map_append, sum_append_nat, map_singleton, sum_singleton, nothing, add_zero]
    rw [loads]
    exact room

theorem restart (capped : Capped cfg c) (node : NodeId) (incarnation : String) :
    Capped cfg (c.restart node incarnation) := by
  have past : ∀ (i : Nat) (t : Task), (c.restart node incarnation).threads[i]? = some t →
      t.isRunning → c.threads[i]? = some t ∧ t.tag.node ≠ node := by
    intro i t held running
    obtain ⟨old, before, rfl⟩ := Option.map_eq_some_iff.mp ((getElem?_map ..).symm.trans held)
    obtain ⟨same, away⟩ := Task.kill_running running
    rw [same]
    exact ⟨before, away⟩
  have listed : ∀ t ∈ (c.restart node incarnation).threads, t.isRunning →
      t ∈ c.threads ∧ t.tag.node ≠ node := by
    intro t member running
    obtain ⟨i, held⟩ := getElem?_of_mem member
    obtain ⟨before, away⟩ := past i t held running
    exact ⟨mem_of_getElem? before, away⟩
  have alive : ∀ n, n ≠ node → (c.restart node incarnation).world.nodes n = c.world.nodes n := by
    intro n other
    simp only [Cluster.restart, World.nodes_setNode, if_neg other]
  constructor
  case config =>
    intro n
    rw [← capped.config]
    simp only [Cluster.restart, World.nodes_setNode]
    split
    · rename_i here
      rw [here]
      rfl
    · rfl
  case kept => exact Task.kill_obeyed capped.kept (fun _ _ => trivial) node
  case within => exact Task.kill_obeyed capped.within (fun _ _ => trivial) node
  case oneTick =>
    intro i j t t' held held' running running'
    exact capped.oneTick i j t t' (past i t held running).1 (past j t' held' running').1 running running'
  case steady =>
    intro t member running r reads
    obtain ⟨before, away⟩ := listed t member running
    obtain ⟨qkd, pqc, hands⟩ := capped.steady t before running r reads
    rw [← alive _ away] at qkd pqc
    exact ⟨qkd, pqc, fun t' member' node' running' =>
      hands t' (listed t' member' running').1 node' running'⟩
  case room =>
    intro n peer
    have room := capped.room n peer
    have fewer : load (cfg n).capacityPerPeer n peer (c.restart node incarnation).threads ≤
        load (cfg n).capacityPerPeer n peer c.threads := by
      unfold load Cluster.restart
      rw [map_map]
      apply sum_le_sum
      intro t _
      by_cases running : (Task.kill node t).isRunning
      · rw [comp_apply, (Task.kill_running running).1]
      · rw [comp_apply, claimAt, if_neg (fun both => running both.2)]
        exact zero_le _
    by_cases here : n = node
    · subst here
      have empty : ((c.restart n incarnation).world.nodes n).stock peer = 0 := by
        simp only [Cluster.restart, World.nodes_setNode]
        rfl
      omega
    · rw [alive n here]
      omega

theorem next {sha : Bytes → Bytes} {act : Act} (capped : Capped cfg c) (settled : act.Settled c) :
    Capped cfg (Cluster.next sha c act) := by
  have moves := Cluster.next_moves sha c act
  generalize Cluster.next sha c act = c' at moves ⊢
  cases moves with
  | stays => exact capped
  | start _ tag launches =>
    apply capped.start sha tag
    cases launches with
    | tick node work free => exact fun _ => free
    | _ => exact fun isTick => nomatch isTick
  | step i hint tag log op rest answer world found ran =>
    exact capped.step found ran (settled _ found op rfl)
  | deliver i post found unserved =>
    have sent : Capped cfg (c.setPost i { post with handler := some c.threads.length }) :=
      capped.outside rfl fun n => ⟨rfl, rfl, rfl⟩
    exact sent.start sha ⟨post.dest, .extKeys post.source post.body⟩ fun isTick => nomatch isTick
  | setPeers node peers =>
    apply capped.outside (show (c.setPeers node peers).threads = c.threads from rfl)
    intro n
    simp only [Cluster.setPeers, World.nodes_setNode]
    split
    · rename_i here
      rw [here]
      exact ⟨rfl, rfl, rfl⟩
    · exact ⟨rfl, rfl, rfl⟩
  | restart node incarnation => exact capped.restart node incarnation
  | _ => exact capped.outside rfl fun n => ⟨rfl, rfl, rfl⟩

theorem of_booted (booted : c.Booted) : Capped (fun n => (c.world.nodes n).cfg) c := by
  have nobody : ∀ t : Task, t ∉ c.threads := by
    rw [booted.threads]
    exact fun _ => not_mem_nil
  constructor
  case config => exact fun _ => rfl
  case kept | within | steady => exact fun t member => absurd member (nobody t)
  case oneTick => exact fun i _ t _ held => absurd (mem_of_getElem? held) (nobody t)
  case room =>
    intro n peer
    have acks : ((c.world.nodes n).ackPending.bucket peer).size = 0 := by
      rw [← TreeMap.length_keys, length_eq_zero_iff, eq_nil_iff_forall_not_mem]
      intro id listed
      rw [TreeMap.mem_keys, TreeMap.mem_iff_isSome_getElem?, booted.acks] at listed
      cases listed
    unfold DkmsService.stock SecureKeyBuffer.len pendingCount load
    rw [booted.buffers, booted.buffers, booted.threads, acks]
    exact zero_le _

end Capped

/-- From empty buffers, and with settled counts, the keys of a peer never exceed the capacity. -/
theorem settled_run_within_capacity (sha : Bytes → Bytes) (c : Cluster) (booted : c.Booted)
    (acts : List Act) (settled : Follows (Cluster.next sha) (fun c act => act.Settled c) c acts) :
    (Cluster.run sha c acts).WithinCapacity :=
  (settled.invariant (fun _ _ capped ok => capped.next ok) (Capped.of_booted booted)).withinCapacity

theorem settled_run_within_capacity_filled :
    Follows (Cluster.next id) (fun c act => act.Settled c) (twoNodes [] []) filledRun ∧
      (Cluster.run id (twoNodes [] []) filledRun).WithinCapacity :=
  have settled : Follows (Cluster.next id) (fun c act => act.Settled c) (twoNodes [] [])
    filledRun := by decide +kernel
  ⟨settled, settled_run_within_capacity id _ twoNodes_booted filledRun settled⟩

/-- Between `take` and `push` of the receipt for `t1` the next tick finds no key at all. -/
def countedInBetween : List Act :=
  [.tick "A" (oneToB "t1")] ++ steps 0 8 ++ [.deliverFrame 0] ++ steps 1 5 ++
    [.deliverReceipts "A" "B" [0]] ++ steps 2 1 ++ [.tick "A" (oneToB "t2")] ++ steps 3 5 ++
    steps 2 1

theorem countedInBetween_exceeds :
    ¬ (Cluster.run id (twoNodes [] []) countedInBetween).WithinCapacity := by
  intro within
  exact absurd (within "A" "B") (by decide +kernel)

end Dkms.Node
