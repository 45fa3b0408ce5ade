import Dkms.Replay.Refusals

namespace Dkms.Replay

open List Dkms.Core ReplayWindow

variable {width : Nat}

/-- The specification of one session: a counter above everything accepted is new, and so is one
inside the window that was not accepted. -/
def NewIn (width : Nat) (accepted : Finset Nat) (counter : Nat) : Prop :=
  accepted.sup id < counter ∨ accepted.sup id - counter < width ∧ counter ∉ accepted

instance (width : Nat) (accepted : Finset Nat) (counter : Nat) :
    Decidable (NewIn width accepted counter) :=
  inferInstanceAs (Decidable (_ ∨ _))

structure Ledger where
  current : Finset Nat
  previous : Finset Nat

def Ledger.next (w : ReplayWindow width) (call : Call) (ledger : Ledger) : Ledger :=
  if ¬ w.accepts call then ledger
  else if w.session = some call.session then
    { ledger with current := insert call.counter ledger.current }
  else if w.prev.any (fun p => p.1 == call.session) then
    { ledger with previous := insert call.counter ledger.previous }
  else ⟨{call.counter}, ledger.current⟩

def recording (state : ReplayWindow width × Ledger) (call : Call) : ReplayWindow width × Ledger :=
  (state.1.next call, state.2.next state.1 call)

structure Track.Holds (track : Track width) (accepted : Finset Nat) : Prop where
  represents : track.Represents accepted
  top : track.highest = accepted.sup id

theorem Track.empty_holds (width : Nat) : (Track.empty width).Holds ∅ where
  represents := by simpa using Track.empty_represents width
  top := rfl

namespace Track.Holds

variable {track after : Track width} {accepted : Finset Nat} {counter : Nat}

theorem check_iff (holds : track.Holds accepted) (session : Nat) :
    (∃ after, track.check session counter = .ok after) ↔ NewIn width accepted counter := by
  have marked : ∀ back < width, counter + back = track.highest →
      (track.bits.test back = true ↔ counter ∈ accepted) := by
    intro back inside place
    rw [holds.represents.marked back inside]
    constructor
    · rintro ⟨c, member, same⟩
      have here : c = counter := by omega
      rw [← here]
      exact member
    · exact fun member => ⟨counter, member, place⟩
  unfold Track.check NewIn
  rw [← holds.top]
  by_cases above : counter > track.highest
  · simp [above]
  simp only [above]
  by_cases outside : track.highest - counter ≥ width
  · simp [outside]
  have inside : track.highest - counter < width := by omega
  have bit := marked _ inside (by omega)
  simp only [outside, inside]
  rw [← bit]
  cases track.bits.test (track.highest - counter) <;> simp

theorem check_ok (holds : track.Holds accepted) {session : Nat}
    (checked : track.check session counter = .ok after) :
    after.Holds (insert counter accepted) := by
  constructor
  · simpa using (Track.check_ok holds.represents checked).2
  rw [Finset.sup_insert, ← holds.top]
  unfold Track.check at checked
  dsimp only at checked
  split at checked
  · cases checked
    change counter = max counter track.highest
    omega
  split at checked
  · cases checked
  split at checked
  · cases checked
  cases checked
  change track.highest = max counter track.highest
  omega

end Track.Holds

structure Agrees (w : ReplayWindow width) (ledger : Ledger) : Prop where
  current : w.current.Holds ledger.current
  previous : ∀ p track, w.prev = some (p, track) → track.Holds ledger.previous
  unstarted : w.session = none → w.prev = none ∧ w.retired = [] ∧ ledger.current = ∅
  distinct : w.memory.Nodup
  short : w.retired.length ≤ retiredKept

/-- The counter is new in its session, where that is one that the window keeps. -/
def Unseen (w : ReplayWindow width) (ledger : Ledger) (call : Call) : Prop :=
  1 ≤ call.counter ∧
    (w.session = some call.session → NewIn width ledger.current call.counter) ∧
    ∀ track, w.prev = some (call.session, track) → NewIn width ledger.previous call.counter

/-- The session is the first one, one of the two that the window keeps, or one that is not retired
and that the policy adopts: a greater one if `monotonic`, one after a quiet time if `afterQuiet`. -/
def ReplayWindow.Admits (w : ReplayWindow width) (call : Call) : Prop :=
  call.session ∉ w.retired ∧ ∀ cur, w.session = some cur →
    cur = call.session ∨ (∃ track, w.prev = some (call.session, track)) ∨ w.adopts cur call = true

namespace Agrees

variable {w : ReplayWindow width} {ledger : Ledger} {call : Call}

section

variable (agrees : Agrees w ledger)
include agrees

theorem current_free {s : Nat} (here : w.session = some s) :
    s ∉ w.retired ∧ w.prev.any (fun p => p.1 == s) = false := by
  have distinct := agrees.distinct
  unfold memory at distinct
  rw [here, Option.toList_some, singleton_append, nodup_cons] at distinct
  constructor
  · intro retired
    exact distinct.1 (mem_append_right _ (mem_reverse.mpr retired))
  cases old : w.prev with
  | none => rfl
  | some p =>
    have other : s ≠ p.1 := by
      rintro rfl
      exact distinct.1 (by simp [old])
    simp [Ne.symm other]

theorem previous_free {s : Nat} {track : Track width} (here : w.prev = some (s, track)) :
    s ∉ w.retired ∧ w.session ≠ some s := by
  have distinct := agrees.distinct
  unfold memory at distinct
  rw [here] at distinct
  constructor
  · intro retired
    have tail := (nodup_append.mp distinct).2.1
    exact (nodup_cons.mp tail).1 (mem_reverse.mpr retired)
  · intro same
    exact absurd (agrees.current_free same).2 (by simp [here])

theorem accepts_current (positive : 1 ≤ call.counter) (here : w.session = some call.session) :
    w.accepts call ↔ NewIn width ledger.current call.counter := by
  obtain ⟨unretired, notPrevious⟩ := agrees.current_free here
  rw [← agrees.current.check_iff call.session]
  unfold accepts checkAndSet
  rw [if_neg (by omega), if_neg (by simpa using unretired), if_neg (by simp [notPrevious]), here]
  unfold checkCurrent
  cases w.current.check call.session call.counter <;> simp

theorem accepts_previous (positive : 1 ≤ call.counter) {track : Track width}
    (here : w.prev = some (call.session, track)) :
    w.accepts call ↔ NewIn width ledger.previous call.counter := by
  obtain ⟨unretired, -⟩ := agrees.previous_free here
  rw [← (agrees.previous _ _ here).check_iff call.session]
  unfold accepts checkAndSet
  rw [if_neg (by omega), if_neg (by simpa using unretired)]
  unfold checkAndSetPrev
  rw [here]
  dsimp only
  cases track.check call.session call.counter <;> simp

theorem first_accepts (positive : 1 ≤ call.counter) (here : w.session = none) :
    w.accepts call ∧ NewIn width ledger.current call.counter := by
  obtain ⟨noPrevious, noneRetired, noneAccepted⟩ := agrees.unstarted here
  obtain ⟨after, -, result⟩ := checkCurrent_adopted w call (by omega)
  constructor
  · unfold accepts checkAndSet
    rw [if_neg (by omega), if_neg (by simp [noneRetired]), if_neg (by simp [noPrevious]), here]
    rw [result]
  · rw [noneAccepted]
    exact .inl positive

theorem accepts_iff_admits (unseen : Unseen w ledger call) : w.accepts call ↔ w.Admits call := by
  obtain ⟨positive, current, previous⟩ := unseen
  by_cases retired : call.session ∈ w.retired
  · refine iff_of_false ?_ fun admits => admits.1 retired
    unfold accepts checkAndSet
    rw [if_neg (by omega), if_pos (by simpa using retired)]
    nofun
  unfold Admits
  cases here : w.session with
  | none => exact iff_of_true (agrees.first_accepts positive here).1 ⟨retired, nofun⟩
  | some cur =>
    simp only [retired, not_false_eq_true, true_and, Option.some.injEq, forall_eq']
    by_cases same : cur = call.session
    · subst same
      exact iff_of_true ((agrees.accepts_current positive here).mpr (current here)) (.inl rfl)
    by_cases old : ∃ track, w.prev = some (call.session, track)
    · obtain ⟨track, old⟩ := old
      exact iff_of_true ((agrees.accepts_previous positive old).mpr (previous track old))
        (.inr (.inl ⟨track, old⟩))
    have unknown : call.session ∉ w.memory := by
      refine not_mem_memory (by simpa [here] using same) retired ?_
      rintro p track prev rfl
      exact old ⟨track, prev⟩
    simp only [same, old, false_or]
    unfold accepts
    rw [checkAndSet_unknown here (by omega) unknown]
    split <;> simp_all

theorem next (call : Call) : Agrees (w.next call) (ledger.next w call) := by
  obtain ⟨result, after, moved, accepts, effect⟩ := next_effect w call
  rw [moved]
  cases effect with
  | rejected e stamp =>
    have refused : ¬ w.accepts call := by simp [accepts]
    rw [Ledger.next, if_pos refused]
    exact ⟨agrees.current, agrees.previous, agrees.unstarted, agrees.distinct, agrees.short⟩
  | late track after old checked =>
    have accepted : ¬ ¬ w.accepts call := by simp [accepts]
    obtain ⟨-, other⟩ := agrees.previous_free old
    rw [Ledger.next, if_neg accepted, if_neg other, if_pos (by simp [old])]
    refine ⟨agrees.current, ?_, ?_, ?_, agrees.short⟩
    · intro p track' here
      cases here
      exact (agrees.previous _ _ old).check_ok checked
    · intro unstarted
      rw [(agrees.unstarted unstarted).1] at old
      cases old
    have distinct := agrees.distinct
    unfold memory at distinct ⊢
    rw [old] at distinct
    exact distinct
  | current after same checked =>
    have accepted : ¬ ¬ w.accepts call := by simp [accepts]
    rw [Ledger.next, if_neg accepted, if_pos same]
    refine ⟨agrees.current.check_ok checked, agrees.previous, ?_, agrees.distinct, agrees.short⟩
    intro unstarted
    rw [same] at unstarted
    cases unstarted
  | adopted after changed unseen notPrevious ordered checked =>
    have accepted : ¬ ¬ w.accepts call := by simp [accepts]
    have unrouted : ¬ w.prev.any (fun p => p.1 == call.session) = true := by
      cases old : w.prev with
      | none => simp
      | some p => simpa using notPrevious p.1 p.2 old
    rw [Ledger.next, if_neg accepted, if_neg changed, if_neg unrouted]
    obtain ⟨session, -, rest⟩ := resetTo_adopting w call.session changed
    have fresh := (Track.empty_holds width).check_ok checked
    have distinct : (w.resetTo call.session).memory.Nodup := by
      rw [memory_resetTo w call.session changed agrees.short]
      apply List.Nodup.sublist (take_sublist _ _)
      exact nodup_cons.mpr ⟨not_mem_memory changed unseen notPrevious, agrees.distinct⟩
    cases current : w.session with
    | none =>
      rw [current, (agrees.unstarted current).1] at rest
      refine ⟨fresh, ?_, ?_, distinct, ?_⟩
      · intro p track here
        rw [rest.2] at here
        cases here
      · intro unstarted
        cases unstarted
      · rw [rest.1]
        exact agrees.short
    | some old =>
      rw [current] at rest
      refine ⟨fresh, ?_, ?_, distinct, ?_⟩
      · intro p track here
        rw [rest.2] at here
        cases here
        exact agrees.current
      · intro unstarted
        cases unstarted
      · rw [rest.1]
        exact retire_length w agrees.short

end

end Agrees

theorem created_agrees (policy : SessionAdopt) (width quiet : Nat) :
    Agrees ((ReplayWindow.create policy width).setQuiet quiet) ⟨∅, ∅⟩ := by
  cases policy <;> refine ⟨Track.empty_holds _, ?_, ?_, ?_, ?_⟩ <;>
    simp [create, new, newMonotonic, newQuietGated, setQuiet, memory]

/-- However a window is made and whatever it has been asked, it takes a counter of the current
session, of the first one, or of the previous one exactly when the set specification does. -/
theorem window_refines_sets (policy : SessionAdopt) (width quiet : Nat) (calls : List Call)
    (call : Call) (positive : 1 ≤ call.counter) :
    let start := (ReplayWindow.create policy width).setQuiet quiet
    let state := calls.foldl recording (start, ⟨∅, ∅⟩)
    state.1 = start.run calls ∧
      (state.1.session = some call.session ∨ state.1.session = none →
        (state.1.accepts call ↔ NewIn (max width 64) state.2.current call.counter)) ∧
      ∀ track, state.1.prev = some (call.session, track) →
        (state.1.accepts call ↔ NewIn (max width 64) state.2.previous call.counter) := by
  intro start state
  have window : ∀ calls : List Call, ∀ w : ReplayWindow (max width 64), ∀ ledger,
      (calls.foldl recording (w, ledger)).1 = w.run calls := by
    intro calls
    induction calls with
    | nil => exact fun _ _ => rfl
    | cons call calls ih => exact fun w ledger => ih _ _
  have initial : Agrees start ⟨∅, ∅⟩ := created_agrees policy width quiet
  have agrees : Agrees state.1 state.2 := by
    have keeps : ∀ (state : ReplayWindow (max width 64) × Ledger) call, Agrees state.1 state.2 →
        True → Agrees (recording state call).1 (recording state call).2 :=
      fun _ call agrees _ => agrees.next call
    exact (Follows.all _ calls).invariant keeps initial
  refine ⟨window calls start _, ?_, fun track here => agrees.accepts_previous positive here⟩
  rintro (here | unstarted)
  · exact agrees.accepts_current positive here
  · obtain ⟨accepted, new⟩ := agrees.first_accepts positive unstarted
    exact iff_of_true accepted new

/-- A window of 100, which takes two words, after a jump that pushes 100 out of it. -/
theorem window_refines_sets_after_jump :
    let start := (ReplayWindow.create .any 100).setQuiet 0
    let state := [Call.mk 7 1 0 0, Call.mk 7 200 0 0].foldl recording (start, ⟨∅, ∅⟩)
    (state.1.accepts ⟨7, 101, 0, 0⟩ ↔ NewIn (max 100 64) state.2.current 101) ∧
      state.1.accepts ⟨7, 101, 0, 0⟩ ∧ ¬ state.1.accepts ⟨7, 100, 0, 0⟩ :=
  ⟨(window_refines_sets .any 100 0 _ ⟨7, 101, 0, 0⟩ (by decide)).2.1 (.inl (by decide +kernel)),
    by decide +kernel, by decide +kernel⟩

end Dkms.Replay
