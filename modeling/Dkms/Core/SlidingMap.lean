import Mathlib

namespace Dkms.Core.SlidingMap

open Std TreeMap

variable {κ ν : Type} [Ord κ]

def lowest (m : TreeMap κ ν) : Option κ := m.keys.head?

def highest (m : TreeMap κ ν) : Option κ := m.keys.getLast?

def dropLowest (m : TreeMap κ ν) : TreeMap κ ν :=
  match lowest m with
  | some k => m.erase k
  | none => m

def evict (keep : Nat) (m : TreeMap κ ν) : TreeMap κ ν := dropLowest^[m.size - keep] m

def dropBelow (base : κ) (m : TreeMap κ ν) : TreeMap κ ν :=
  m.filter (fun k _ => (compare base k).isLE)

variable [TransOrd κ]

variable {m : TreeMap κ ν} {k base : κ} {keep : Nat}

theorem getElem?_dropLowest {v : ν} (held : (dropLowest m)[k]? = some v) : m[k]? = some v := by
  unfold dropLowest at held
  split at held
  · rw [getElem?_erase] at held
    split at held
    · cases held
    · exact held
  · exact held

theorem getElem?_evict {v : ν} (held : (evict keep m)[k]? = some v) : m[k]? = some v := by
  unfold evict at held
  generalize m.size - keep = n at held
  induction n generalizing m with
  | zero => exact held
  | succ n ih => exact getElem?_dropLowest (ih held)

theorem mem_of_mem_evict (held : k ∈ evict keep m) : k ∈ m := by
  rw [mem_iff_isSome_getElem?] at held ⊢
  obtain ⟨v, held⟩ := Option.isSome_iff_exists.mp held
  exact Option.isSome_of_eq_some (getElem?_evict held)

variable [LawfulEqOrd κ]

theorem highest_eq_some : highest m = some k ↔ k ∈ m ∧ ∀ k' ∈ m, (compare k' k).isLE := by
  rw [highest, ← maxKey?_eq_getLast?_keys]
  exact maxKey?_eq_some_iff_mem_and_forall

theorem lowest_eq_some : lowest m = some k ↔ k ∈ m ∧ ∀ k' ∈ m, (compare k k').isLE := by
  rw [lowest, ← minKey?_eq_head?_keys]
  exact minKey?_eq_some_iff_mem_and_forall

theorem highest_dropLowest (top : highest (dropLowest m) = some k) : highest m = some k := by
  unfold dropLowest at top
  split at top
  · rename_i low least
    obtain ⟨member, above⟩ := highest_eq_some.mp top
    obtain ⟨-, below⟩ := lowest_eq_some.mp least
    rw [mem_erase] at member
    apply highest_eq_some.mpr
    refine ⟨member.2, ?_⟩
    intro k' held
    by_cases same : compare low k' = .eq
    · rw [← LawfulEqOrd.eq_of_compare same]
      exact below k member.2
    · exact above k' (mem_erase.mpr ⟨same, held⟩)
  · exact top

theorem highest_evict (top : highest (evict keep m) = some k) : highest m = some k := by
  unfold evict at top
  generalize m.size - keep = n at top
  induction n generalizing m with
  | zero => exact top
  | succ n ih => exact highest_dropLowest (ih top)

theorem nodup_keys (m : TreeMap κ ν) : m.keys.Nodup := by
  apply distinct_keys.imp
  intro j k different same
  subst same
  exact different compare_self

theorem getElem?_evict_of_few_above {above : List κ} (few : above.length < keep)
    (rest : ∀ j ∈ m, (compare j k).isLE ∨ j ∈ above) : (evict keep m)[k]? = m[k]? := by
  unfold evict
  generalize excess : m.size - keep = n
  induction n generalizing m with
  | zero => rfl
  | succ n ih =>
    rw [Function.iterate_succ_apply]
    cases least : lowest m with
    | none =>
      have empty : m.keys = [] := List.head?_eq_none_iff.mp least
      have size : m.size = 0 := by rw [← length_keys, empty, List.length_nil]
      omega
    | some low =>
      have dropped : dropLowest m = m.erase low := by rw [dropLowest, least]
      obtain ⟨member, below⟩ := lowest_eq_some.mp least
      have other : ¬ compare low k = .eq := by
        intro same
        have same := LawfulEqOrd.eq_of_compare same
        subst same
        have within : m.keys ⊆ low :: above := by
          intro j held
          have held := mem_keys.mp held
          rcases rest j held with under | higher
          · have equal : compare j low = .eq := OrientedCmp.isLE_antisymm under (below j held)
            rw [LawfulEqOrd.eq_of_compare equal]
            exact List.mem_cons_self
          · exact List.mem_cons_of_mem _ higher
        have bound := ((nodup_keys m).subperm within).length_le
        rw [length_keys, List.length_cons] at bound
        omega
      have kept : (m.erase low)[k]? = m[k]? := by
        rw [getElem?_erase, if_neg other]
      have size : (m.erase low).size - keep = n := by
        rw [size_erase, if_pos (contains_iff_mem.mpr member)]
        omega
      rw [dropped, ih _ size, kept]
      intro j held
      exact rest j (mem_of_mem_erase held)

theorem highest_evict_eq (room : 0 < keep) (top : highest m = some k)
    : highest (evict keep m) = some k := by
  obtain ⟨member, above⟩ := highest_eq_some.mp top
  have kept : (evict keep m)[k]? = m[k]? :=
    getElem?_evict_of_few_above (show ([] : List κ).length < keep from room) fun j held => .inl (above j held)
  apply highest_eq_some.mpr
  constructor
  · rw [mem_iff_isSome_getElem?] at member ⊢
    rwa [kept]
  · exact fun j held => above j (mem_of_mem_evict held)

theorem getElem?_dropBelow :
    (dropBelow base m)[k]? = if (compare base k).isLE then m[k]? else none := by
  unfold dropBelow
  rw [getElem?_filter']
  cases m[k]? with
  | none => simp
  | some v => simp [Option.filter]

theorem mem_dropBelow : k ∈ dropBelow base m ↔ (compare base k).isLE ∧ k ∈ m := by
  rw [mem_iff_isSome_getElem?, getElem?_dropBelow]
  split <;> simp_all

theorem highest_dropBelow (top : highest (dropBelow base m) = some k) : highest m = some k := by
  obtain ⟨member, above⟩ := highest_eq_some.mp top
  obtain ⟨from_base, held⟩ := mem_dropBelow.mp member
  apply highest_eq_some.mpr
  refine ⟨held, ?_⟩
  intro k' held'
  by_cases reaches : (compare base k').isLE
  · exact above k' (mem_dropBelow.mpr ⟨reaches, held'⟩)
  have under : (compare k' base).isLE := by
    have flipped : compare k' base = (compare base k').swap := OrientedCmp.eq_swap
    rw [flipped]
    revert reaches
    cases compare base k' <;> simp
  exact TransOrd.isLE_trans under from_base

section Gapless

variable {m : TreeMap Nat ν}

def Gapless (m : TreeMap Nat ν) : Prop := ∀ a ∈ m, ∀ b ∈ m, ∀ k, a ≤ k → k ≤ b → k ∈ m

section

variable (gapless : Gapless m)
include gapless

theorem Gapless.dropLowest : Gapless (dropLowest m) := by
  unfold SlidingMap.dropLowest
  split
  · rename_i low least
    obtain ⟨-, below⟩ := lowest_eq_some.mp least
    intro a first b last k from_a to_b
    rw [mem_erase] at first last ⊢
    refine ⟨?_, gapless a first.2 b last.2 k from_a to_b⟩
    intro same
    have here : low = k := LawfulEqOrd.eq_of_compare same
    have least := below a first.2
    rw [Nat.isLE_compare] at least
    have lowest : low = a := by omega
    exact first.1 (by rw [lowest]; exact compare_self)
  · exact gapless

theorem Gapless.evict (keep : Nat) : Gapless (evict keep m) := by
  unfold SlidingMap.evict
  generalize m.size - keep = n
  induction n generalizing m with
  | zero => exact gapless
  | succ n ih => exact ih gapless.dropLowest

theorem Gapless.dropBelow (base : Nat) : Gapless (dropBelow base m) := by
  intro a first b last k from_a to_b
  rw [mem_dropBelow, Nat.isLE_compare] at first last ⊢
  exact ⟨by omega, gapless a first.2 b last.2 k from_a to_b⟩

theorem Gapless.insert {key : Nat} (value : ν)
    (next : ∀ k ∈ m, key ∈ m ∨ (∃ h ∈ m, key = h + 1) ∨ ∃ l ∈ m, key + 1 = l) :
    Gapless (m.insert key value) := by
  intro a first b last k from_a to_b
  simp only [mem_insert, Nat.compare_eq_eq] at first last ⊢
  by_cases same : key = k
  · exact .inl same
  right
  rcases first with rfl | first <;> rcases last with rfl | last
  · omega
  · rcases next b last with held | ⟨h, held, above⟩ | ⟨l, held, below⟩
    · exact gapless key held b last k from_a to_b
    · exact gapless h held b last k (by omega) to_b
    · exact gapless l held b last k (by omega) to_b
  · rcases next a first with held | ⟨h, held, above⟩ | ⟨l, held, below⟩
    · exact gapless a first key held k from_a to_b
    · exact gapless a first h held k from_a (by omega)
    · exact gapless a first l held k from_a (by omega)
  · exact gapless a first b last k from_a to_b

end

end Gapless

end Dkms.Core.SlidingMap
