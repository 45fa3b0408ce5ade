import Dkms.Core.Runs
import Dkms.Replay.Window

namespace Dkms.Replay

open ReplayWindow Dkms.Core

variable {width : Nat}

/-- Everything one call can do to the window. Only an adoption changes the
session, and it always accepts its frame. -/
inductive Effect (w : ReplayWindow width) (call : Call) :
    Except ReplayError Unit → ReplayWindow width → Prop where
  | rejected (e : ReplayError) (stamp : Option Nat) : Effect w call (.error e) { w with lastAccept := stamp }
  | late (track after : Track width) (old : w.prev = some (call.session, track))
      (checked : track.check call.session call.counter = .ok after) :
      Effect w call (.ok ()) { w with prev := some (call.session, after) }
  | current (after : Track width) (same : w.session = some call.session)
      (checked : w.current.check call.session call.counter = .ok after) :
      Effect w call (.ok ())
        { w with lastAccept := some call.acceptAt, current := after }
  | adopted (after : Track width) (changed : w.session ≠ some call.session)
      (unseen : call.session ∉ w.retired)
      (notPrevious : ∀ p track, w.prev = some (p, track) → p ≠ call.session)
      (ordered : w.adopt = .monotonic → ∀ cur, w.session = some cur → cur < call.session)
      (checked : (Track.empty width).check call.session call.counter = .ok after) :
      Effect w call (.ok ())
        { w.resetTo call.session with lastAccept := some call.acceptAt, current := after }

theorem Track.empty_check (session counter : Nat) (positive : counter ≠ 0) :
    ∃ after, (Track.empty width).check session counter = .ok after := by
  have above : counter > (Track.empty width).highest := by simp [Track.empty]; omega
  simp only [Track.check, above]
  exact ⟨_, rfl⟩

section

variable (w : ReplayWindow width)
include w

theorem resetTo_current (session : Nat) :
    (w.resetTo session).current = Track.empty width := rfl

theorem checkCurrent_adopted (call : Call) (positive : call.counter ≠ 0) :
    ∃ after, (Track.empty width).check call.session call.counter = .ok after ∧
      (w.resetTo call.session).checkCurrent call = (.ok (), { w.resetTo call.session with
          lastAccept := some call.acceptAt, current := after }) := by
  obtain ⟨after, checked⟩ := @Track.empty_check width call.session call.counter positive
  refine ⟨after, checked, ?_⟩
  simp only [checkCurrent, resetTo_current, checked]

theorem checkCurrent_effect (call : Call) (same : w.session = some call.session) :
    Effect w call (w.checkCurrent call).1 (w.checkCurrent call).2 := by
  unfold checkCurrent
  cases checked : w.current.check call.session call.counter with
  | ok after => exact .current after same checked
  | error e => exact .rejected e _

theorem checkAndSetPrev_effect (call : Call)
    (routed : w.prev.any (fun p => p.1 == call.session) = true) :
    Effect w call (w.checkAndSetPrev call.session call.counter).1
      (w.checkAndSetPrev call.session call.counter).2 := by
  obtain ⟨⟨p, track⟩, old, same⟩ := Option.any_eq_true _ _ |>.mp routed
  have name : p = call.session := by simpa using same
  subst name
  unfold checkAndSetPrev
  rw [old]
  cases checked : track.check call.session call.counter with
  | ok after => simpa only [checked] using Effect.late track after old checked
  | error e => simpa only [checked] using Effect.rejected e w.lastAccept

theorem checkAndSet_effect (call : Call) :
    Effect w call (w.checkAndSet call).1 (w.checkAndSet call).2 := by
  unfold checkAndSet
  split
  · exact .rejected _ w.lastAccept
  rename_i positive
  split
  · exact .rejected _ w.lastAccept
  rename_i notRetired
  have unseen : call.session ∉ w.retired := by simpa using notRetired
  split
  · exact checkAndSetPrev_effect w call ‹_›
  rename_i notRouted
  have notPrevious : ∀ p track, w.prev = some (p, track) → p ≠ call.session := by
    intro p track old same
    simp [old, same] at notRouted
  obtain ⟨after, checked, result⟩ := checkCurrent_adopted w call positive
  cases current : w.session with
  | none =>
    rw [result]
    exact .adopted after (by simp [current]) unseen notPrevious (by simp [current]) checked
  | some cur =>
    dsimp only
    split
    · rename_i changed
      split
      · rename_i adopts
        rw [result]
        refine .adopted after (by simpa [current] using changed) unseen notPrevious ?_ checked
        intro policy cur' here
        have : cur' = cur := by rw [current] at here; exact Option.some.inj here.symm
        subst this
        simpa [ReplayWindow.adopts, policy] using adopts
      · exact .rejected _ w.lastAccept
    · rename_i same
      exact checkCurrent_effect w call (by simpa [current] using same)

theorem next_effect (call : Call) :
    ∃ result after, w.next call = after ∧ (w.accepts call ↔ result = .ok ()) ∧ Effect w call result after :=
  ⟨_, _, rfl, Iff.rfl, checkAndSet_effect w call⟩

end

def ReplayWindow.create (policy : SessionAdopt) (width : Nat) : ReplayWindow (max width 64) :=
  match policy with
  | .any => .new width
  | .monotonic => .newMonotonic width
  | .afterQuiet => .newQuietGated width

def watch (session : Nat) (state : ReplayWindow width × Nat) (call : Call) :
    ReplayWindow width × Nat :=
  let w := state.1.next call
  (w, if w.session = some session then 0
    else if w.session = state.1.session then state.2 else state.2 + 1)

def adoptedSince (session : Nat) (w : ReplayWindow width) (calls : List Call) : Nat :=
  (calls.foldl (watch session) (w, 0)).2

theorem watch_run (session : Nat) (w : ReplayWindow width) (n : Nat) (calls : List Call) :
    (calls.foldl (watch session) (w, n)).1 = w.run calls := by
  induction calls generalizing w n with
  | nil => rfl
  | cons call calls ih => exact ih _ _

structure Sound (w : ReplayWindow width) : Prop where
  current : ∃ seen, w.current.Represents seen
  previous : ∀ p track, w.prev = some (p, track) → ∃ seen, track.Represents seen
  distinct : ∀ p track, w.prev = some (p, track) →
    ∃ cur, w.session = some cur ∧ cur ≠ p ∧ (w.adopt = .monotonic → p < cur)
  short : w.retired.length ≤ retiredKept

theorem resetTo_adopting (w : ReplayWindow width) (session : Nat)
    (changed : w.session ≠ some session) :
    (w.resetTo session).session = some session ∧ (w.resetTo session).adopt = w.adopt ∧
      match w.session with
      | some old => (w.resetTo session).retired = w.retire ∧ (w.resetTo session).prev = some (old, w.current)
      | none => (w.resetTo session).retired = w.retired ∧ (w.resetTo session).prev = w.prev := by
  cases current : w.session with
  | none => simp [resetTo, current]
  | some old =>
    have apart : old ≠ session := fun same => changed (by rw [current, same])
    simp [resetTo, current, apart]

theorem retire_length (w : ReplayWindow width) (short : w.retired.length ≤ retiredKept) :
    w.retire.length ≤ retiredKept := by
  unfold retire
  split
  · dsimp only
    split
    · simp
      omega
    · omega
  · exact short

theorem Sound.next {w : ReplayWindow width} (sound : Sound w) (call : Call) :
    Sound (w.next call) ∧ (w.next call).adopt = w.adopt := by
  obtain ⟨result, after, moved, -, effect⟩ := next_effect w call
  rw [moved]
  cases effect with
  | rejected e stamp => exact ⟨⟨sound.current, sound.previous, sound.distinct, sound.short⟩, rfl⟩
  | late track after old checked =>
    refine ⟨⟨sound.current, ?_, ?_, sound.short⟩, rfl⟩
    · intro p track' here
      obtain ⟨seen, rep⟩ := sound.previous _ _ old
      cases here
      exact ⟨_, (Track.check_ok rep checked).2⟩
    · intro p track' here
      cases here
      exact sound.distinct _ _ old
  | current after same checked =>
    obtain ⟨seen, rep⟩ := sound.current
    exact ⟨⟨⟨_, (Track.check_ok rep checked).2⟩, sound.previous, sound.distinct, sound.short⟩, rfl⟩
  | adopted after changed unseen notPrevious ordered checked =>
    obtain ⟨session, policy, rest⟩ := resetTo_adopting w call.session changed
    have fresh : ∃ seen, after.Represents seen :=
      ⟨_, (Track.check_ok (Track.empty_represents width) checked).2⟩
    cases current : w.session with
    | none =>
      rw [current] at rest
      have noPrev : w.prev = none := by
        cases old : w.prev with
        | none => rfl
        | some p =>
          obtain ⟨cur, here, _⟩ := sound.distinct p.1 p.2 old
          rw [current] at here
          cases here
      refine ⟨⟨fresh, ?_, ?_, ?_⟩, policy⟩
      · intro p track here
        simp [rest.2, noPrev] at here
      · intro p track here
        simp [rest.2, noPrev] at here
      · simpa [rest.1] using sound.short
    | some old =>
      rw [current] at rest
      refine ⟨⟨fresh, ?_, ?_, ?_⟩, policy⟩
      · intro p track here
        simp only [rest.2, Option.some.injEq, Prod.mk.injEq] at here
        rw [← here.2]
        exact sound.current
      · intro p track here
        simp only [rest.2, Option.some.injEq, Prod.mk.injEq] at here
        refine ⟨call.session, session, ?_, ?_⟩
        · intro same
          exact changed (by rw [current, here.1, same])
        intro mono
        rw [← here.1]
        exact ordered (policy ▸ mono) old current
      · simpa [rest.1] using retire_length w sound.short

end Dkms.Replay
