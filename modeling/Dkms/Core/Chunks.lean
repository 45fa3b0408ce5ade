import Mathlib

namespace Dkms.Core

open List

variable {α : Type*}

def chunksFrom (size : Nat) : Nat → List α → List (List α)
  | 0, _ => []
  | _ + 1, [] => []
  | fuel + 1, list => list.take size :: chunksFrom size fuel (list.drop size)

def chunks (size : Nat) (list : List α) : List (List α) := chunksFrom size list.length list

section

@[simp] theorem chunks_nil (size : Nat) : chunks size ([] : List α) = [] := rfl

variable {size : Nat} (positive : 0 < size)
include positive

theorem chunksFrom_eq (fuel : Nat) (list : List α) (enough : list.length ≤ fuel) :
    chunksFrom size fuel list = chunks size list := by
  induction fuel using Nat.strong_induction_on generalizing list with
  | _ fuel ih =>
    cases list with
    | nil => cases fuel <;> rfl
    | cons head tail =>
      cases fuel with
      | zero => cases enough
      | succ fuel =>
        unfold chunksFrom
        have short : ((head :: tail).drop size).length ≤ tail.length := by
          rw [length_drop, length_cons]
          omega
        rw [length_cons] at enough
        rw [ih fuel (by omega) _ (by omega)]
        show _ = _ :: chunksFrom size tail.length _
        rw [ih tail.length (by omega) _ short]

theorem chunks_of_ne_nil {list : List α} (some : list ≠ []) :
    chunks size list = list.take size :: chunks size (list.drop size) := by
  cases list with
  | nil => exact absurd rfl some
  | cons head tail =>
    show _ :: chunksFrom size tail.length _ = _
    rw [chunksFrom_eq positive]
    rw [length_drop, length_cons]
    omega

theorem chunks_length (list : List α) :
    (chunks size list).length = (list.length + size - 1) / size := by
  induction length : list.length using Nat.strong_induction_on generalizing list with
  | _ n ih =>
    subst length
    by_cases none : list = []
    · rw [none, chunks_nil, length_nil, length_nil, Nat.div_eq_of_lt (by omega)]
    have some : 0 < list.length := length_pos_iff.mpr none
    have rest := ih _ (by rw [length_drop]; omega) (list.drop size) rfl
    rw [chunks_of_ne_nil positive none, length_cons, rest, length_drop]
    rcases Nat.lt_or_ge list.length size with short | long
    · rw [Nat.div_eq_of_lt (by omega : list.length - size + size - 1 < size)]
      exact (Nat.div_eq_of_lt_le (by omega) (by omega)).symm
    · have more : list.length + size - 1 = (list.length - size + size - 1) + size := by omega
      rw [more, Nat.add_div_right _ positive]

theorem chunks_flatten (list : List α) : (chunks size list).flatten = list := by
  induction length : list.length using Nat.strong_induction_on generalizing list with
  | _ n ih =>
    by_cases none : list = []
    · rw [none, chunks_nil, flatten_nil]
    have some : 0 < list.length := length_pos_iff.mpr none
    rw [chunks_of_ne_nil positive none, flatten_cons,
      ih _ (by rw [length_drop]; omega) _ rfl, take_append_drop]

theorem chunks_flatten_of_lengths {β : Type*} (list : List α) {pieces : List (List β)}
    (same : pieces.map List.length = (chunks size list).map List.length) :
    chunks size pieces.flatten = pieces := by
  induction length : list.length using Nat.strong_induction_on generalizing list pieces with
  | _ n ih =>
    by_cases none : list = []
    · rw [none, chunks_nil, map_nil, map_eq_nil_iff] at same
      rw [same, flatten_nil, chunks_nil]
    have some : 0 < list.length := length_pos_iff.mpr none
    rw [chunks_of_ne_nil positive none] at same
    obtain ⟨piece, rest, rfl, first, others⟩ := map_eq_cons_iff.mp same
    rw [length_take] at first
    have here : (piece :: rest).flatten ≠ [] := by
      rw [flatten_cons, ← length_pos_iff, length_append]
      omega
    have cut : ((piece :: rest).flatten.take size, (piece :: rest).flatten.drop size) =
        (piece, rest.flatten) := by
      rw [flatten_cons]
      rcases Nat.lt_or_ge list.length size with short | long
      · -- the only piece
        rw [drop_eq_nil_of_le (by omega), chunks_nil, map_nil, map_eq_nil_iff] at others
        rw [others, flatten_nil, append_nil, take_of_length_le (by omega), drop_eq_nil_of_le (by omega)]
      · rw [take_left' (by omega), drop_left' (by omega)]
    rw [Prod.mk.injEq] at cut
    rw [chunks_of_ne_nil positive here, cut.1, cut.2,
      ih _ (by rw [length_drop]; omega) (list.drop size) others rfl]

theorem chunks_length_le {list : List α} {chunk : List α} (member : chunk ∈ chunks size list) :
    chunk.length ≤ size := by
  induction length : list.length using Nat.strong_induction_on generalizing list with
  | _ n ih =>
    by_cases none : list = []
    · rw [none] at member
      cases member
    have some : 0 < list.length := length_pos_iff.mpr none
    rw [chunks_of_ne_nil positive none] at member
    rcases mem_cons.mp member with rfl | later
    · exact length_take_le _ _
    · exact ih _ (by rw [length_drop]; omega) later rfl

end

end Dkms.Core
