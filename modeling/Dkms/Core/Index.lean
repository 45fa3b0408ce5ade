import Mathlib

namespace Dkms.Core

open Function

variable {ι κ : Type*}

section Definitions

variable [DecidableEq ι] [DecidableEq κ]

def unlink (index : κ → Option ι) (q : κ) (x : ι) : κ → Option ι :=
  if index q = some x then update index q none else index

def moveIndex (index : κ → Option ι) (old : Option κ) (q : κ) (x : ι) : κ → Option ι :=
  let index :=
    match old with
    | some old => if old ≠ q then unlink index old x else index
    | none => index
  update index q (some x)

def leaveIndex (index : κ → Option ι) (old : Option κ) (x : ι) : κ → Option ι :=
  match old with
  | some q => unlink index q x
  | none => index

end Definitions

def IndexSound (place : ι → Option κ) (index : κ → Option ι) : Prop :=
  ∀ q x, index q = some x → place x = some q

def IndexComplete (place : ι → Option κ) (index : κ → Option ι) : Prop :=
  ∀ x q, place x = some q → index q = some x

variable {place place' : ι → Option κ} {index : κ → Option ι} {x : ι} {q : κ}

theorem IndexComplete.unique (complete : IndexComplete place index) {y : ι}
    (here : place x = some q) (there : place y = some q) : x = y := by
  have first := complete x q here
  have second := complete y q there
  rw [first] at second
  exact Option.some.inj second

theorem IndexSound.under (sound : IndexSound place index)
    (same : ∀ q x, index q = some x → place' x = place x) : IndexSound place' index := by
  intro q x entry
  rw [same q x entry]
  exact sound q x entry

theorem IndexComplete.under (complete : IndexComplete place index)
    (known : ∀ x q, place' x = some q → place x = some q ∨ index q = some x) :
    IndexComplete place' index := by
  intro x q here
  rcases known x q here with before | entry
  · exact complete x q before
  · exact entry

section Clear

variable [DecidableEq κ]

theorem IndexSound.clear (sound : IndexSound place index) (q : κ) :
    IndexSound place (update index q none) := by
  intro p y entry
  rw [update_apply] at entry
  split at entry
  · cases entry
  · exact sound p y entry

theorem IndexComplete.clear (complete : IndexComplete place index)
    (vacant : ∀ x, place x ≠ some q) : IndexComplete place (update index q none) := by
  intro y p here
  have other : p ≠ q := by
    rintro rfl
    exact vacant y here
  rw [update_of_ne other]
  exact complete y p here

end Clear

section Move

variable [DecidableEq ι] [DecidableEq κ]

theorem unlink_apply (p : κ) :
    unlink index q x p = if p = q ∧ index p = some x then none else index p := by
  unfold unlink
  by_cases here : index q = some x
  · rw [if_pos here]
    by_cases same : p = q
    · simp [same, here]
    · simp [same]
  rw [if_neg here]
  by_cases same : p = q
  · simp [same, here]
  · simp [same]

theorem leaveIndex_apply (old : Option κ) (p : κ) :
    leaveIndex index old x p = if old = some p ∧ index p = some x then none else index p := by
  unfold leaveIndex
  cases old with
  | none => simp
  | some q => simp [unlink_apply, eq_comm]

theorem moveIndex_self (old : Option κ) : moveIndex index old q x q = some x := by
  exact update_self ..

theorem moveIndex_of_ne (old : Option κ) {p : κ} (other : p ≠ q) :
    moveIndex index old q x p = leaveIndex index old x p := by
  unfold moveIndex
  rw [update_of_ne other]
  cases old with
  | none => rfl
  | some before =>
    by_cases same : before = q
    · subst same
      simp [leaveIndex, unlink_apply, other]
    · simp [leaveIndex, same]

theorem IndexSound.leave (sound : IndexSound place index) (x : ι) :
    IndexSound (update place x none) (leaveIndex index (place x) x) := by
  intro p y entry
  rw [leaveIndex_apply] at entry
  split at entry
  · cases entry
  rename_i kept
  have place := sound p y entry
  by_cases same : y = x
  · subst same
    exact absurd ⟨place, entry⟩ kept
  · rw [update_of_ne same, place]

theorem IndexComplete.leave (complete : IndexComplete place index) (x : ι) :
    IndexComplete (update place x none) (leaveIndex index (place x) x) := by
  intro y p here
  rw [update_apply] at here
  split at here
  · cases here
  rename_i other
  have entry := complete y p here
  rw [leaveIndex_apply, entry]
  simp [other]

theorem IndexSound.move (sound : IndexSound place index) (x : ι) (q : κ) :
    IndexSound (update place x (some q)) (moveIndex index (place x) q x) := by
  intro p y entry
  by_cases there : p = q
  · subst there
    rw [moveIndex_self] at entry
    cases entry
    exact update_self ..
  rw [moveIndex_of_ne _ there] at entry
  have left := sound.leave x p y entry
  by_cases same : y = x
  · subst same
    rw [update_self] at left
    cases left
  · rw [update_of_ne same] at left ⊢
    exact left

theorem IndexComplete.move (complete : IndexComplete place index) (x : ι) (q : κ)
    (free : ∀ y ∈ index q, y = x) :
    IndexComplete (update place x (some q)) (moveIndex index (place x) q x) := by
  intro y p here
  by_cases same : y = x
  · subst same
    rw [update_self] at here
    cases here
    exact moveIndex_self _
  rw [update_of_ne same] at here
  have entry := complete y p here
  have elsewhere : p ≠ q := by
    rintro rfl
    exact same (free y entry)
  rw [moveIndex_of_ne _ elsewhere]
  apply complete.leave x y p
  rw [update_of_ne same, here]

end Move

end Dkms.Core
