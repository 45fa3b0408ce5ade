import Mathlib

namespace Dkms.Core

variable {ε α β : Type}

variable {first : Except ε α}

theorem ok_of_bind {after : α → Except ε β} {result : β}
    (ok : (first >>= after) = .ok result) : ∃ value, first = .ok value ∧ after value = .ok result := by
  cases first with
  | error e => cases ok
  | ok value => exact ⟨value, rfl, ok⟩

theorem ok_of_map {f : α → β} {result : β} (ok : first.map f = .ok result) :
    ∃ value, first = .ok value ∧ f value = result := by
  cases first with
  | error e => cases ok
  | ok value => exact ⟨value, rfl, Except.ok.inj ok⟩

variable {f : α → Except ε β}

theorem mapM_eq_ok {g : α → β} {list : List α}
    (each : ∀ a ∈ list, f a = .ok (g a)) : list.mapM f = .ok (list.map g) := by
  induction list with
  | nil => rfl
  | cons a list ih =>
    rw [List.mapM_cons, each a List.mem_cons_self, ih fun b member => each b (List.mem_cons_of_mem _ member)]
    rfl

theorem forall₂_of_mapM {list : List α} {out : List β}
    (ok : list.mapM f = .ok out) : List.Forall₂ (fun a b => f a = .ok b) list out := by
  induction list generalizing out with
  | nil =>
    cases ok
    exact .nil
  | cons a list ih =>
    rw [List.mapM_cons] at ok
    obtain ⟨b, first, ok⟩ := ok_of_bind ok
    obtain ⟨rest, others, ok⟩ := ok_of_bind ok
    cases ok
    exact .cons first (ih others)

theorem update_cases {α β : Type} [DecidableEq α] {f : α → Option β} {x y : α} {value found : β}
    (held : Function.update f x (some value) y = some found) :
    y = x ∧ found = value ∨ y ≠ x ∧ f y = some found := by
  by_cases same : y = x
  · subst same
    rw [Function.update_self] at held
    exact .inl ⟨rfl, (Option.some.inj held).symm⟩
  · rw [Function.update_of_ne same] at held
    exact .inr ⟨same, held⟩

end Dkms.Core
