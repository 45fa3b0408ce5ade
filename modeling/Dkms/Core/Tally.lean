import Mathlib

namespace Dkms.Core

open List

abbrev Tally (κ K : Type*) := List (κ × K)

namespace Tally

variable {κ K : Type*} [DecidableEq κ]

def keys (t : Tally κ K) : List κ := t.map Prod.fst

section Add

variable [AddCommMonoid K]

/-- `*map.entry(key).or_insert(0) += x`. -/
def add (key : κ) (x : K) : Tally κ K → Tally κ K
  | [] => [(key, x)]
  | (k, y) :: rest => if k = key then (k, y + x) :: rest else (k, y) :: add key x rest

def get (t : Tally κ K) (key : κ) : K := (t.lookup key).getD 0

@[simp]
theorem get_nil (key : κ) : get ([] : Tally κ K) key = 0 := rfl

theorem get_cons (k key : κ) (y : K) (t : Tally κ K) :
    get ((k, y) :: t) key = if key = k then y else get t key := by
  unfold get
  rw [lookup_cons]
  by_cases same : key = k
  · simp [same]
  · simp [same, beq_false_of_ne same]

theorem get_add (t : Tally κ K) (key k : κ) (x : K) :
    (t.add key x).get k = t.get k + if k = key then x else 0 := by
  induction t with
  | nil =>
    unfold add
    rw [get_cons, get_nil, zero_add]
  | cons e t ih =>
    obtain ⟨k', y⟩ := e
    unfold add
    by_cases same : k' = key
    · subst same
      rw [if_pos rfl, get_cons, get_cons]
      by_cases here : k = k' <;> simp [here]
    rw [if_neg same, get_cons, get_cons, ih]
    by_cases here : k = k'
    · subst here
      simp [same]
    · simp [here]

theorem mem_keys_add (t : Tally κ K) (key k : κ) (x : K) :
    k ∈ (t.add key x).keys ↔ k ∈ t.keys ∨ k = key := by
  induction t with
  | nil => simp [add, keys]
  | cons e t ih =>
    obtain ⟨k', y⟩ := e
    unfold add
    split
    · rename_i same
      subst same
      simp only [keys, map_cons, mem_cons]
      tauto
    · simp only [keys, map_cons, mem_cons]
      tauto

variable {t : Tally κ K}

theorem nodup_add (once : t.keys.Nodup) (key : κ) (x : K) : (t.add key x).keys.Nodup := by
  induction t with
  | nil => simp [add, keys]
  | cons e t ih =>
    obtain ⟨k', y⟩ := e
    obtain ⟨fresh, rest⟩ := nodup_cons.mp once
    unfold add
    split
    · exact nodup_cons.mpr ⟨fresh, rest⟩
    rename_i other
    refine nodup_cons.mpr ⟨?_, ih rest⟩
    intro member
    rcases (mem_keys_add t key k' x).mp member with before | same
    · exact fresh before
    · exact other same

variable {key : κ}

theorem get_of_not_mem (fresh : key ∉ t.keys) : t.get key = 0 := by
  induction t with
  | nil => rfl
  | cons e t ih =>
    obtain ⟨k, y⟩ := e
    obtain ⟨other, rest⟩ := not_or.mp (fun both => fresh (mem_cons.mpr both))
    rw [get_cons, if_neg other, ih rest]

theorem get_of_mem (once : t.keys.Nodup) {x : K} (member : (key, x) ∈ t) : t.get key = x := by
  induction t with
  | nil => cases member
  | cons e t ih =>
    obtain ⟨k, y⟩ := e
    obtain ⟨fresh, rest⟩ := nodup_cons.mp once
    rw [get_cons]
    rcases mem_cons.mp member with same | later
    · cases same
      rw [if_pos rfl]
    rw [if_neg _, ih rest later]
    rintro rfl
    exact fresh (mem_map.mpr ⟨(key, x), later, rfl⟩)

theorem mem_of_get_ne_zero (some_sum : t.get key ≠ 0) : (key, t.get key) ∈ t := by
  induction t with
  | nil => exact absurd rfl some_sum
  | cons e t ih =>
    obtain ⟨k, y⟩ := e
    rw [get_cons] at some_sum ⊢
    split
    · rename_i same
      rw [same]
      exact mem_cons_self
    · rename_i other
      rw [if_neg other] at some_sum
      exact mem_cons_of_mem _ (ih some_sum)

end Add

section Nonneg

variable [AddCommMonoid K] [LinearOrder K] [IsOrderedAddMonoid K]

def Nonneg (t : Tally κ K) : Prop := ∀ e ∈ t, 0 ≤ e.2

theorem Nonneg.add {t : Tally κ K} (nonneg : t.Nonneg) (key : κ) {x : K} (here : 0 ≤ x) :
    (t.add key x).Nonneg := by
  induction t with
  | nil => simpa [Nonneg, Tally.add] using here
  | cons e t ih =>
    obtain ⟨k, y⟩ := e
    have head : 0 ≤ y := nonneg (k, y) mem_cons_self
    have tail : Nonneg t := fun e member => nonneg e (mem_cons_of_mem _ member)
    unfold Tally.add
    split
    · intro e member
      rcases mem_cons.mp member with rfl | later
      · exact add_nonneg head here
      · exact tail e later
    intro e member
    rcases mem_cons.mp member with rfl | later
    · exact head
    · exact ih tail e later

omit [IsOrderedAddMonoid K] in
theorem Nonneg.get {t : Tally κ K} (nonneg : t.Nonneg) (key : κ) : 0 ≤ t.get key := by
  by_cases zero : t.get key = 0
  · exact zero.ge
  · exact nonneg _ (mem_of_get_ne_zero zero)

end Nonneg

section Gather

variable [Semiring K]

def addScaled (x : K) (part : Tally κ K) (t : Tally κ K) : Tally κ K :=
  part.foldl (fun t e => t.add e.1 (e.2 * x)) t

def gather (parts : List (Tally κ K × K)) : Tally κ K :=
  parts.foldl (fun t p => addScaled p.2 p.1 t) []

theorem get_addScaled {part : Tally κ K} (once : part.keys.Nodup) (x : K) (t : Tally κ K) (key : κ) :
    (addScaled x part t).get key = t.get key + part.get key * x := by
  induction part generalizing t with
  | nil => simp [addScaled]
  | cons e part ih =>
    obtain ⟨k, y⟩ := e
    obtain ⟨fresh, rest⟩ := nodup_cons.mp once
    have step := ih rest (t.add k (y * x))
    unfold addScaled at step ⊢
    rw [foldl_cons, step, get_add, get_cons]
    by_cases same : key = k
    · subst same
      rw [if_pos rfl, if_pos rfl, get_of_not_mem fresh, zero_mul, add_zero]
    · rw [if_neg same, if_neg same, add_zero]

theorem mem_keys_addScaled (x : K) (part t : Tally κ K) (key : κ) :
    key ∈ (addScaled x part t).keys ↔ key ∈ t.keys ∨ key ∈ part.keys := by
  induction part generalizing t with
  | nil => simp [addScaled, keys]
  | cons e part ih =>
    have step := ih (t.add e.1 (e.2 * x))
    unfold addScaled at step ⊢
    rw [foldl_cons, step, mem_keys_add, or_assoc]
    simp [keys]

theorem nodup_addScaled (x : K) (part : Tally κ K) {t : Tally κ K} (once : t.keys.Nodup) :
    (addScaled x part t).keys.Nodup := by
  induction part generalizing t with
  | nil => exact once
  | cons e part ih => exact ih (nodup_add once e.1 (e.2 * x))

variable {parts : List (Tally κ K × K)}

theorem get_gather (once : ∀ p ∈ parts, p.1.keys.Nodup) (key : κ) :
    (gather parts).get key = (parts.map fun p => p.1.get key * p.2).sum := by
  have general : ∀ t : Tally κ K,
      (parts.foldl (fun t p => addScaled p.2 p.1 t) t).get key =
        t.get key + (parts.map fun p => p.1.get key * p.2).sum := by
    induction parts with
    | nil => simp
    | cons p parts ih =>
      intro t
      rw [foldl_cons, ih (fun p member => once p (mem_cons_of_mem _ member)),
        get_addScaled (once p mem_cons_self), map_cons, sum_cons, add_assoc]
  rw [gather, general, get_nil, zero_add]

theorem mem_keys_gather {key : κ} : key ∈ (gather parts).keys ↔ ∃ p ∈ parts, key ∈ p.1.keys := by
  have general : ∀ t : Tally κ K,
      key ∈ (parts.foldl (fun t p => addScaled p.2 p.1 t) t).keys ↔
        key ∈ t.keys ∨ ∃ p ∈ parts, key ∈ p.1.keys := by
    induction parts with
    | nil => simp
    | cons p parts ih =>
      intro t
      rw [foldl_cons, ih, mem_keys_addScaled, exists_mem_cons_iff, or_assoc]
  rw [gather, general]
  simp [keys]

theorem nodup_gather (parts : List (Tally κ K × K)) : (gather parts).keys.Nodup := by
  have general : ∀ t : Tally κ K, t.keys.Nodup →
      (parts.foldl (fun t p => addScaled p.2 p.1 t) t).keys.Nodup := by
    induction parts with
    | nil => exact fun t once => once
    | cons p parts ih => exact fun t once => ih _ (nodup_addScaled p.2 p.1 once)
  exact general [] nodup_nil

end Gather

end Tally

end Dkms.Core
