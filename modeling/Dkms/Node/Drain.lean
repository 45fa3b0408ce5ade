import Dkms.Core.Count
import Dkms.Core.Runs

namespace Dkms.Node

open List Dkms.Core

/-- Where a request stands in `AdmissionLayer::call`: between `is_accepting` and `acquire` it is
`checked`, and its guard is dropped when it is `done`. -/
inductive RequestPhase where
  | arrived
  | refused
  | checked
  | running
  | done
  deriving DecidableEq

/-- Where `drain` stands, when the grace time does not pass. In `wait_drained` it reads the counter
before and after it subscribes, and again whenever it is woken. -/
inductive DrainPhase where
  | idle
  | waiting
  | drained
  | pendingCleared
  | wiped
  deriving DecidableEq

structure Admission where
  accepting : Bool
  inflight : Nat
  requests : List RequestPhase
  drain : DrainPhase

inductive AdmissionAct where
  | arrive
  | request (i : Nat)
  | drain

namespace Admission

def new : Admission := ⟨true, 0, [], .idle⟩

def next (s : Admission) : AdmissionAct → Admission
  | .arrive => { s with requests := s.requests ++ [.arrived] }
  | .request i =>
    match s.requests[i]? with
    | some .arrived =>
      { s with requests := s.requests.set i (if s.accepting then .checked else .refused) }
    | some .checked => { s with inflight := s.inflight + 1, requests := s.requests.set i .running }
    | some .running => { s with inflight := s.inflight - 1, requests := s.requests.set i .done }
    | _ => s
  | .drain =>
    match s.drain with
    | .idle => { s with accepting := false, drain := .waiting }
    | .waiting => { s with drain := if s.inflight = 0 then .drained else .waiting }
    | .drained => { s with drain := .pendingCleared }
    | .pendingCleared | .wiped => { s with drain := .wiped }

def run (acts : List AdmissionAct) : Admission := acts.foldl next new

structure Counted (s : Admission) : Prop where
  inflight : s.requests.countP (· = .running) = s.inflight
  closed : s.drain ≠ .idle → s.accepting = false

variable {s : Admission}

theorem Counted.next (counted : s.Counted) (act : AdmissionAct) : (s.next act).Counted := by
  obtain ⟨same, closed⟩ := counted
  have count : ∀ {i a} b, s.requests[i]? = some a → (s.requests.set i b).countP (· = .running) +
      (decide (a = .running)).toNat = s.inflight + (decide (b = .running)).toNat := by
    intro i a b held
    rw [← same]
    exact countP_set held b
  cases act with
  | arrive => exact ⟨by simpa [Admission.next] using same, closed⟩
  | request i =>
    unfold Admission.next
    dsimp only
    split
    · rename_i held
      refine ⟨(count _ held).trans ?_, closed⟩
      split <;> rfl
    · rename_i held
      exact ⟨count _ held, closed⟩
    · rename_i held
      exact ⟨Nat.eq_sub_of_add_eq (count _ held), closed⟩
    · exact ⟨same, closed⟩
  | drain =>
    unfold Admission.next
    dsimp only
    split
    · exact ⟨same, fun _ => rfl⟩
    all_goals exact ⟨same, fun _ => closed (by simp [*])⟩

theorem counted_run (acts : List AdmissionAct) : (run acts).Counted :=
  (Follows.all _ acts).invariant (fun _ act counted _ => counted.next act)
    ⟨rfl, fun busy => absurd rfl busy⟩

/-- Nothing runs and nothing will. -/
structure Quiet (s : Admission) : Prop where
  closed : s.accepting = false
  still : ∀ phase ∈ s.requests, phase ≠ .running ∧ phase ≠ .checked

theorem Quiet.next (quiet : s.Quiet) (act : AdmissionAct) : (s.next act).Quiet := by
  obtain ⟨closed, still⟩ := quiet
  cases act with
  | arrive =>
    refine ⟨closed, fun x member => ?_⟩
    rcases mem_append.mp member with old | new
    · exact still x old
    · rw [mem_singleton.mp new]
      decide
  | request i =>
    unfold Admission.next
    dsimp only
    split
    · rename_i held
      rw [closed]
      exact ⟨rfl, (forall_mem_set held (by decide)).mpr ⟨still, by decide⟩⟩
    · rename_i held
      exact absurd rfl (still _ (mem_of_getElem? held)).2
    · rename_i held
      exact absurd rfl (still _ (mem_of_getElem? held)).1
    · exact ⟨closed, still⟩
  | drain =>
    unfold Admission.next
    dsimp only
    split
    · exact ⟨rfl, still⟩
    all_goals exact ⟨closed, still⟩

/-- When `wait_drained` finds the counter at zero, no request runs during the wipe or after it, in
whatever way the run goes on, exactly when none is between its check and its increment. -/
theorem drain_barrier_iff (before : List AdmissionAct) (reads : (run before).drain = .waiting)
    (zero : (run before).inflight = 0) :
    (∀ after, let s := run (before ++ .drain :: after)
      s.drain = .pendingCleared ∨ s.drain = .wiped → .running ∉ s.requests) ↔
    .checked ∉ (run before).requests := by
  have returned : (run before).next .drain = { run before with drain := .drained } := by
    simp [next, reads, zero]
  constructor
  · intro barrier waiting
    obtain ⟨i, held⟩ := mem_iff_getElem?.mp waiting
    have starts : run (before ++ .drain :: [.drain, .drain, .request i]) = { run before with
        inflight := (run before).inflight + 1
        requests := (run before).requests.set i .running
        drain := .wiped } := by
      rw [run, foldl_append, foldl_cons, ← run, returned]
      simp [next, held]
    have still := barrier [.drain, .drain, .request i]
    rw [starts] at still
    exact still (.inr rfl) (mem_set_self held _)
  · intro none after _ _
    have counted := counted_run before
    have quiet : (run (before ++ .drain :: after)).Quiet := by
      rw [run, foldl_append, foldl_cons, ← run, returned]
      refine (Follows.all _ after).invariant (fun _ act quiet _ => quiet.next act) ⟨?_, ?_⟩
      · exact counted.closed (by simp [reads])
      · intro phase member
        have idle := countP_eq_zero.mp (counted.inflight.trans zero) phase member
        exact ⟨by simpa using idle, fun same => none (same ▸ member)⟩
    exact fun member => (quiet.still _ member).1 rfl

/-- A request that had begun ends before the counter is read. -/
theorem drain_barrier_iff_ended :
    let before := [.arrive, .request 0, .request 0, .drain, .request 0]
    (run before).requests = [.done] ∧ ∀ after, let s := run (before ++ .drain :: after)
      s.drain = .pendingCleared ∨ s.drain = .wiped → .running ∉ s.requests :=
  ⟨by decide, (drain_barrier_iff _ (by decide) (by decide)).mpr (by decide)⟩

/-- The request has passed the check when the drain closes, and counts itself after the wipe. -/
theorem late_increment_runs_after_wipe :
    let s := run [.arrive, .request 0, .drain, .drain, .drain, .drain, .request 0]
    s.drain = .wiped ∧ .running ∈ s.requests := by
  decide

end Admission

end Dkms.Node
