import Mathlib

namespace Dkms.Core

variable {State Act : Type*} (next : State → Act → State) (ok : State → Act → Prop)

def Follows : State → List Act → Prop
  | _, [] => True
  | state, act :: acts => ok state act ∧ Follows (next state act) acts

variable {next ok}

instance follows_decidable [∀ state act, Decidable (ok state act)] :
    ∀ state acts, Decidable (Follows next ok state acts)
  | _, [] => .isTrue trivial
  | state, act :: acts =>
    have := follows_decidable (next state act) acts
    inferInstanceAs (Decidable (ok state act ∧ Follows next ok (next state act) acts))

variable {state : State} {acts : List Act}

theorem follows_append {first second : List Act} : Follows next ok state (first ++ second) ↔
      Follows next ok state first ∧ Follows next ok (first.foldl next state) second := by
  induction first generalizing state with
  | nil => simp [Follows]
  | cons act acts ih => simp only [List.cons_append, Follows, ih, List.foldl_cons, and_assoc]

theorem follows_of_forall {permitted : Act → Prop} (each : ∀ act ∈ acts, permitted act)
    : Follows next (fun _ act => permitted act) state acts := by
  induction acts generalizing state with
  | nil => trivial
  | cons act acts ih =>
    exact ⟨each act List.mem_cons_self, ih fun act' member => each act' (List.mem_cons_of_mem _ member)⟩

theorem Follows.and {ok' : State → Act → Prop} (follows : Follows next ok state acts)
    (follows' : Follows next ok' state acts) :
    Follows next (fun state act => ok state act ∧ ok' state act) state acts := by
  induction acts generalizing state with
  | nil => trivial
  | cons act acts ih => exact ⟨⟨follows.1, follows'.1⟩, ih follows.2 follows'.2⟩

theorem Follows.invariant {holds : State → Prop}
    (keeps : ∀ state act, holds state → ok state act → holds (next state act))
    (follows : Follows next ok state acts) (initial : holds state)
    : holds (acts.foldl next state) := by
  induction acts generalizing state with
  | nil => exact initial
  | cons act acts ih => exact ih follows.2 (keeps state act initial follows.1)

theorem follows_iff_splits : Follows next ok state acts ↔
      ∀ before act after, acts = before ++ act :: after → ok (before.foldl next state) act := by
  induction acts generalizing state with
  | nil => simp [Follows]
  | cons act acts ih =>
    simp only [Follows, ih]
    constructor
    · rintro ⟨first, rest⟩ before act' after split
      cases before with
      | nil => cases split; exact first
      | cons head before => cases split; exact rest before act' after rfl
    intro splits
    refine ⟨splits [] act acts rfl, ?_⟩
    intro before act' after split
    exact splits (act :: before) act' after (by rw [split]; rfl)

theorem Follows.all (state : State) (acts : List Act) :
    Follows next (fun _ _ => True) state acts := by
  induction acts generalizing state with
  | nil => trivial
  | cons act acts ih => exact ⟨trivial, ih _⟩

end Dkms.Core
