import Mathlib

namespace Dkms.Core

open List

variable {α : Type*} {p : α → Bool} {list : List α} {i j : Nat} {a b : α}

section

variable (held : list[i]? = some a)
include held

theorem countP_set (b : α) :
    (list.set i b).countP p + (p a).toNat = list.countP p + (p b).toNat := by
  induction list generalizing i with
  | nil => cases held
  | cons head rest ih =>
    cases i with
    | zero =>
      cases held
      rw [set_cons_zero]
      cases ha : p a <;> cases hb : p b <;> simp [ha, hb]
    | succ i =>
      have tail := ih held
      rw [set_cons_succ, countP_cons, countP_cons]
      omega

theorem eq_or_mem_set (member : b ∈ list) (c : α) : b = a ∨ b ∈ list.set i c := by
  obtain ⟨j, found⟩ := mem_iff_getElem?.mp member
  by_cases same : i = j
  · subst same
    exact .inl (Option.some.inj (found.symm.trans held))
  right
  rw [mem_iff_getElem?]
  exact ⟨j, by rw [getElem?_set_ne same, found]⟩

theorem mem_set_self (c : α) : c ∈ list.set i c := by
  have bound : i < list.length := by
    have := List.getElem?_eq_some_iff.mp held
    exact this.1
  rw [mem_iff_getElem?]
  exact ⟨i, List.getElem?_set_self bound⟩

theorem forall_mem_set {P : α → Prop} (old : P a) :
    (∀ x ∈ list.set i b, P x) ↔ (∀ x ∈ list, P x) ∧ P b := by
  constructor
  · intro all
    refine ⟨fun x member => ?_, all b (mem_set_self held b)⟩
    rcases eq_or_mem_set held member b with rfl | kept
    · exact old
    · exact all x kept
  · intro all x member
    rcases mem_or_eq_of_mem_set member with kept | rfl
    · exact all.1 x kept
    · exact all.2

theorem flatMap_set_perm {β : Type*} {f : α → List β} (b : α) :
    ((list.set i b).flatMap f ++ f a).Perm (list.flatMap f ++ f b) := by
  induction list generalizing i with
  | nil => cases held
  | cons head rest ih =>
    cases i with
    | zero =>
      cases held
      rw [set_cons_zero, flatMap_cons, flatMap_cons, append_assoc, append_assoc]
      have moved : (f b ++ (rest.flatMap f ++ f a)).Perm (rest.flatMap f ++ (f a ++ f b)) := by
        rw [← append_assoc (rest.flatMap f)]
        exact perm_append_comm
      exact moved.trans (perm_append_comm_assoc _ _ _)
    | succ i =>
      rw [set_cons_succ, flatMap_cons, flatMap_cons, append_assoc, append_assoc]
      exact (ih held).append_left _

end

theorem index_unique (one : list.countP p ≤ 1) (first : list[i]? = some a) (second : list[j]? = some b)
    (counts : p a) (counts' : p b) : i = j := by
  induction list generalizing i j with
  | nil => cases first
  | cons head rest ih =>
    rw [countP_cons] at one
    cases i with
    | zero =>
      cases first
      cases j with
      | zero => rfl
      | succ j =>
        have more : 0 < rest.countP p := countP_pos_iff.mpr ⟨b, mem_of_getElem? second, counts'⟩
        rw [if_pos counts] at one
        omega
    | succ i =>
      have more : 0 < rest.countP p := countP_pos_iff.mpr ⟨a, mem_of_getElem? first, counts⟩
      cases j with
      | zero =>
        cases second
        rw [if_pos counts'] at one
        omega
      | succ j =>
        rw [ih (by omega) first second]

theorem sum_le_sum_toNat (xs : List ℤ) : xs.sum ≤ ((xs.map Int.toNat).sum : ℤ) := by
  induction xs with
  | nil => simp
  | cons x xs ih =>
    have := Int.self_le_toNat x
    simp only [map_cons, sum_cons, Nat.cast_add]
    omega

theorem sum_toNat_eq_sum_iff {xs : List ℤ} :
    ((xs.map Int.toNat).sum : ℤ) = xs.sum ↔ ∀ x ∈ xs, 0 ≤ x := by
  induction xs with
  | nil => simp
  | cons x xs ih =>
    have rest := sum_le_sum_toNat xs
    simp only [map_cons, sum_cons, Nat.cast_add, forall_mem_cons, ← ih]
    omega

variable {Loc Id : Type*}

/-- Every id is in at most one place, and there at most once. `amount loc id` says how often the
id is found at `loc`. -/
def Exclusive (amount : Loc → Id → Nat) : Prop :=
  ∀ id loc loc', 0 < amount loc id → 0 < amount loc' id → loc = loc' ∧ amount loc id = 1

namespace Exclusive

variable {amount amount' : Loc → Id → Nat}

section

variable (exclusive : Exclusive amount)
include exclusive

theorem le_one (loc : Loc) (id : Id) : amount loc id ≤ 1 := by
  rcases Nat.eq_zero_or_pos (amount loc id) with none | some
  · omega
  · exact (exclusive id loc loc some some).2.le

theorem elsewhere {loc loc' : Loc} (other : loc ≠ loc') {id : Id} (here : 0 < amount loc id) :
    amount loc' id = 0 := by
  rcases Nat.eq_zero_or_pos (amount loc' id) with none | some
  · exact none
  · exact absurd (exclusive id loc loc' here some).1 other

theorem lose (fewer : ∀ loc id, amount' loc id ≤ amount loc id) : Exclusive amount' := by
  intro id loc loc' here there
  have before := exclusive id loc loc' (here.trans_le (fewer loc id)) (there.trans_le (fewer loc' id))
  have bound := fewer loc id
  exact ⟨before.1, by omega⟩

theorem move (source target : Loc) (apart : source ≠ target)
    (others : ∀ loc, loc ≠ source → loc ≠ target → ∀ id, amount' loc id ≤ amount loc id)
    (both : ∀ id, amount' source id + amount' target id ≤ amount source id + amount target id) :
    Exclusive amount' := by
  -- the two places together held the id at most once
  have atMost : ∀ id, amount source id + amount target id ≤ 1 := by
    intro id
    have first := exclusive.le_one source id
    have second := exclusive.le_one target id
    rcases Nat.eq_zero_or_pos (amount source id) with none | some
    · omega
    · have := exclusive.elsewhere apart some
      omega
  have apartFrom : ∀ loc, loc ≠ source → loc ≠ target → ∀ id, 0 < amount' loc id →
      amount source id + amount target id = 0 ∧ amount loc id = 1 := by
    intro loc notSource notTarget id here
    have held := here.trans_le (others loc notSource notTarget id)
    have noSource := exclusive.elsewhere notSource held
    have noTarget := exclusive.elsewhere notTarget held
    exact ⟨by omega, (exclusive id loc loc held held).2⟩
  intro id loc loc' here there
  have limit := atMost id
  have sum := both id
  by_cases isSource : loc = source
  · subst isSource
    by_cases isSource' : loc' = loc
    · exact ⟨isSource'.symm, by omega⟩
    by_cases isTarget' : loc' = target
    · subst isTarget'
      omega
    · have := (apartFrom loc' isSource' isTarget' id there).1
      omega
  by_cases isTarget : loc = target
  · subst isTarget
    by_cases isTarget' : loc' = loc
    · exact ⟨isTarget'.symm, by omega⟩
    by_cases isSource' : loc' = source
    · subst isSource'
      omega
    · have := (apartFrom loc' isSource' isTarget' id there).1
      omega
  have alone := apartFrom loc isSource isTarget id here
  have bound := others loc isSource isTarget id
  by_cases isSource' : loc' = source
  · subst isSource'
    omega
  by_cases isTarget' : loc' = target
  · subst isTarget'
    omega
  have before := exclusive id loc loc' (here.trans_le bound)
    (there.trans_le (others loc' isSource' isTarget' id))
  exact ⟨before.1, by omega⟩

end

end Exclusive

end Dkms.Core
