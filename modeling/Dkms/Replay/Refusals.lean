import Dkms.Replay.AcceptedOnce

namespace Dkms.Replay

variable {width : Nat}

namespace ReplayWindow

variable (w : ReplayWindow width) (call : Call)

def results (w : ReplayWindow width) : List Call → List (Except ReplayError Unit)
  | [] => []
  | call :: calls => (w.checkAndSet call).1 :: results (w.next call) calls

def Reaches : Prop :=
  call.counter ≠ 0 ∧ call.session ∉ w.retired ∧
    w.prev.any (fun p => p.1 == call.session) = false ∧ w.session = some call.session

def Restamps : Prop :=
  w.Reaches call ∧ w.adopt = .afterQuiet ∧ 0 < w.quiet ∧ w.lastAccept ≠ some call.acceptAt

instance : Decidable (w.Reaches call) := inferInstanceAs (Decidable (_ ∧ _))

instance : Decidable (w.Restamps call) := inferInstanceAs (Decidable (_ ∧ _))

variable {w call}

theorem next_of_refused (refused : ¬ w.accepts call) :
    w.next call = if w.Reaches call then { w with lastAccept := some call.acceptAt } else w := by
  unfold next Reaches
  unfold accepts at refused
  unfold checkAndSet at refused ⊢
  by_cases zero : call.counter = 0
  · simp [zero]
  simp only [zero, ne_eq] at refused ⊢
  by_cases retired : call.session ∈ w.retired
  · simp [retired]
  simp only [List.contains_eq_mem, retired, decide_false, not_false_eq_true] at refused ⊢
  cases routed : w.prev.any (fun p => p.1 == call.session) with
  | true =>
    simp only [routed] at refused ⊢
    unfold checkAndSetPrev at refused ⊢
    cases old : w.prev with
    | none => rfl
    | some p =>
      rw [old] at refused
      dsimp only at refused ⊢
      cases checked : p.2.check call.session call.counter with
      | ok after => simp [checked] at refused
      | error e => rfl
  | false =>
    simp only [routed, Bool.false_eq_true, true_and] at refused ⊢
    obtain ⟨fresh, -, adopted⟩ := checkCurrent_adopted w call zero
    cases current : w.session with
    | none =>
      rw [current] at refused
      rw [adopted] at refused
      exact absurd rfl refused
    | some cur =>
      rw [current] at refused
      by_cases same : cur = call.session
      · have here : w.session = some call.session := by rw [current, same]
        simp only [same, not_true_eq_false, ↓reduceIte] at refused ⊢
        unfold checkCurrent at refused ⊢
        cases checked : w.current.check call.session call.counter with
        | ok after => simp [checked] at refused
        | error e =>
          rw [here]
      have other : some cur ≠ some call.session := fun equal => same (Option.some.inj equal)
      simp only [same, not_false_eq_true, ↓reduceIte] at refused ⊢
      split
      · rename_i adopts
        rw [if_pos adopts, adopted] at refused
        exact absurd rfl refused
      · rfl

theorem next_policy (w : ReplayWindow width) (call : Call) :
    (w.next call).adopt = w.adopt ∧ (w.next call).quiet = w.quiet := by
  obtain ⟨result, after, moved, -, effect⟩ := next_effect w call
  rw [moved]
  cases effect with
  | adopted after changed unseen notPrevious ordered checked =>
    unfold resetTo
    split
    · split <;> exact ⟨rfl, rfl⟩
    · exact ⟨rfl, rfl⟩
  | _ => exact ⟨rfl, rfl⟩

theorem adopts_stamp (stamp : Option Nat) (ignored : w.adopt = .afterQuiet → w.quiet = 0)
    (cur : Nat) : { w with lastAccept := stamp }.adopts cur call = w.adopts cur call := by
  unfold adopts
  cases policy : w.adopt with
  | any => rfl
  | monotonic => rfl
  | afterQuiet => simp [ignored policy]

theorem checkAndSet_stamp (w : ReplayWindow width) (call : Call) (stamp : Option Nat)
    (ignored : w.adopt = .afterQuiet → w.quiet = 0) :
    ({ w with lastAccept := stamp }.checkAndSet call).1 = (w.checkAndSet call).1 ∧
      ∃ stamp', ({ w with lastAccept := stamp }.checkAndSet call).2 =
        { (w.checkAndSet call).2 with lastAccept := stamp' } := by
  have reset : { w with lastAccept := stamp }.resetTo call.session =
      { w.resetTo call.session with lastAccept := stamp } := by
    unfold resetTo retire
    dsimp only
    split
    · split <;> rfl
    · rfl
  have counted : ∀ v : ReplayWindow width, ∀ stamp,
      ({ v with lastAccept := stamp }.checkCurrent call).1 = (v.checkCurrent call).1 ∧
        ∃ stamp', ({ v with lastAccept := stamp }.checkCurrent call).2 =
          { (v.checkCurrent call).2 with lastAccept := stamp' } := by
    intro v stamp
    cases v.current.check call.session call.counter <;> exact ⟨rfl, _, rfl⟩
  unfold checkAndSet
  dsimp only
  split
  · exact ⟨rfl, stamp, rfl⟩
  split
  · exact ⟨rfl, stamp, rfl⟩
  split
  · unfold checkAndSetPrev
    dsimp only
    split
    · exact ⟨rfl, stamp, rfl⟩
    · split <;> exact ⟨rfl, stamp, rfl⟩
  split
  · rw [adopts_stamp stamp ignored, reset]
    split
    · split
      · exact counted _ stamp
      · exact ⟨rfl, stamp, rfl⟩
    · exact counted w stamp
  · rw [reset]
    exact counted _ stamp

theorem results_stamp (w : ReplayWindow width) (stamp : Option Nat)
    (ignored : w.adopt = .afterQuiet → w.quiet = 0) (later : List Call) :
    { w with lastAccept := stamp }.results later = w.results later := by
  induction later generalizing w stamp with
  | nil => rfl
  | cons call later ih =>
    obtain ⟨answer, stamp', moved⟩ := checkAndSet_stamp w call stamp ignored
    obtain ⟨adopt, quiet⟩ := w.next_policy call
    have still : (w.next call).adopt = .afterQuiet → (w.next call).quiet = 0 := by
      rw [adopt, quiet]
      exact ignored
    unfold results
    rw [answer, next, moved]
    exact congrArg _ (ih (w.next call) stamp' still)

theorem checkAndSet_unknown {cur : Nat} (here : w.session = some cur) (positive : call.counter ≠ 0)
    (unknown : call.session ∉ w.memory) : (w.checkAndSet call).1 =
      if w.adopts cur call then .ok () else .error (.retiredSession call.session) := by
  unfold memory at unknown
  simp only [List.mem_append, not_or, here, Option.toList_some, List.mem_singleton] at unknown
  obtain ⟨other, notPrevious, unretired⟩ := unknown
  have unrouted : w.prev.any (fun p => p.1 == call.session) = false := by
    cases old : w.prev with
    | none => rfl
    | some p =>
      rw [old] at notPrevious
      have apart : call.session ≠ p.1 := by simpa using notPrevious
      simp [Ne.symm apart]
  obtain ⟨after, -, adopted⟩ := checkCurrent_adopted w call positive
  unfold checkAndSet
  rw [if_neg positive, if_neg (by simpa using unretired), if_neg (by simp [unrouted]), here]
  dsimp only
  rw [if_pos (Ne.symm other)]
  split
  · rw [adopted]
  · rfl

end ReplayWindow

open ReplayWindow

/-- A refused call leaves no trace in what the window answers later, exactly when it does not
move the clock that `AfterQuiet` reads; if it does, a later call of a new session gets another
answer. -/
theorem refused_leaves_no_trace (w : ReplayWindow width) (call : Call)
    (refused : ¬ w.accepts call) :
    ((∀ later, (w.next call).results later = w.results later) ↔ ¬ w.Restamps call) ∧
      (w.Restamps call → ∃ later : Call, call.acceptAt ≤ later.readAt ∧
        later.readAt ≤ later.acceptAt ∧
        ((w.next call).checkAndSet later).1 ≠ (w.checkAndSet later).1) := by
  have moved := next_of_refused refused
  have differs : w.Restamps call → ∃ later : Call, call.acceptAt ≤ later.readAt ∧
      later.readAt ≤ later.acceptAt ∧
      ((w.next call).checkAndSet later).1 ≠ (w.checkAndSet later).1 := by
    rintro ⟨reaches, policy, silence, stamped⟩
    obtain ⟨fresh, unknown⟩ := Infinite.exists_notMem_finset w.memory.toFinset
    rw [List.mem_toFinset] at unknown
    have here : w.session = some call.session := reaches.2.2.2
    rw [if_pos reaches] at moved
    rw [moved]
    have answers : ∀ r,
        ({ w with lastAccept := some call.acceptAt }.checkAndSet ⟨fresh, 1, r, r⟩).1 =
            (if r - call.acceptAt ≥ w.quiet then .ok () else .error (.retiredSession fresh)) ∧
          (w.checkAndSet ⟨fresh, 1, r, r⟩).1 =
            if w.lastAccept.all (fun t => r - t ≥ w.quiet) then .ok ()
            else .error (.retiredSession fresh) := by
      intro r
      constructor
      · rw [checkAndSet_unknown (w := { w with lastAccept := some call.acceptAt }) here
          Nat.one_ne_zero unknown]
        simp [adopts, policy]
      · rw [checkAndSet_unknown here Nat.one_ne_zero unknown]
        simp [adopts, policy]
    cases last : w.lastAccept with
    | none =>
      refine ⟨⟨fresh, 1, call.acceptAt, call.acceptAt⟩, Nat.le_refl _, Nat.le_refl _, ?_⟩
      rw [(answers _).1, (answers _).2, last, if_neg (by omega)]
      simp
    | some t =>
      have other : t ≠ call.acceptAt := fun same => stamped (by rw [last, same])
      let r := max (min t call.acceptAt + w.quiet) call.acceptAt
      refine ⟨⟨fresh, 1, r, r⟩, Nat.le_max_right _ _, Nat.le_refl _, ?_⟩
      rw [(answers _).1, (answers _).2, last]
      by_cases earlier : t < call.acceptAt
      · rw [if_neg (by omega), if_pos (by simp; omega)]
        simp
      · rw [if_pos (by omega), if_neg (by simp; omega)]
        simp
  refine ⟨⟨?_, ?_⟩, differs⟩
  · intro same restamps
    obtain ⟨later, -, -, different⟩ := differs restamps
    have answer := same [later]
    exact different (List.cons.inj answer).1
  intro quiet later
  rw [moved]
  split
  · rename_i reaches
    by_cases stamped : w.lastAccept = some call.acceptAt
    · rw [← stamped]
    apply results_stamp
    intro policy
    by_contra silence
    exact quiet ⟨reaches, policy, by omega, stamped⟩
  · rfl

def captured : Call := ⟨7, 1, 9000000000, 9000000000⟩

def restarted : Call := ⟨8, 1, 11000000000, 11000000000⟩

/-- The injected frame is refused, and the restarted peer is refused because of it. -/
theorem injection_postpones_adoption :
    let w := (ReplayWindow.newQuietGated defaultWindow).next ⟨7, 1, 0, 0⟩
    ¬ w.accepts captured ∧ w.accepts restarted ∧ ¬ (w.next captured).accepts restarted := by
  decide +kernel

theorem refused_leaves_no_trace_epochs :
    let w := (ReplayWindow.newMonotonic defaultWindow).next ⟨7, 1, 0, 0⟩
    ∀ later, (w.next captured).results later = w.results later :=
  (refused_leaves_no_trace _ captured (by decide +kernel)).1.mpr (by decide +kernel)

end Dkms.Replay
