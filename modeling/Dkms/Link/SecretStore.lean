import Dkms.Core.SlidingMap

namespace Dkms.Link

open Std Dkms.Core TreeMap SlidingMap Option

abbrev Bytes := List UInt8

def bufferTarget : Nat := 2048

structure SecretStore where
  inner : TreeMap Nat Bytes
  keep : Nat
  resyncEpoch : Nat

namespace SecretStore

def empty (keep : Nat) : SecretStore where
  inner := ∅
  keep
  resyncEpoch := 0

def new (lookahead rekeyKeys : Nat) : SecretStore :=
  let encCap := bufferTarget * 2
  let span := if rekeyKeys = 0 then 1 else (encCap + rekeyKeys - 1) / rekeyKeys + 2
  empty (lookahead + 1 + span)

variable (st : SecretStore)

def requestResync (epoch : Nat) : SecretStore :=
  { st with resyncEpoch := max st.resyncEpoch epoch }

def get (epoch : Nat) : Option Bytes := st.inner[epoch]?

def contains (epoch : Nat) : Bool := st.inner.contains epoch

def highest : Option Nat := SlidingMap.highest st.inner

def lowest : Option Nat := SlidingMap.lowest st.inner

def put (epoch : Nat) (secret : Bytes) : SecretStore :=
  { st with inner := SlidingMap.evict st.keep (st.inner.insert epoch secret) }

def insert (epoch : Nat) (secret : Bytes) : SecretStore :=
  if st.contains epoch then st else st.put epoch secret

def replace (epoch : Nat) (secret : Bytes) : SecretStore := st.put epoch secret

def pruneBelow (epoch : Nat) : SecretStore :=
  { st with inner := SlidingMap.dropBelow epoch st.inner }

variable {st}

variable {epoch k base : Nat} {secret s : Bytes}

theorem contains_iff : st.contains epoch = (st.get epoch).isSome := by
  simp [contains, get]

theorem get_empty (keep epoch : Nat) : (empty keep).get epoch = none := by
  simp [empty, get]

theorem get_put (held : (st.put epoch secret).get k = some s) :
    (k = epoch ∧ s = secret) ∨ (k ≠ epoch ∧ st.get k = some s) := by
  have inserted := getElem?_evict held
  rw [getElem?_insert] at inserted
  split at inserted
  · rename_i same
    cases inserted
    exact .inl ⟨(LawfulEqOrd.eq_of_compare same).symm, rfl⟩
  rename_i apart
  refine .inr ⟨?_, inserted⟩
  intro same
  exact apart (by rw [same]; exact compare_self)

theorem get_insert (held : (st.insert epoch secret).get k = some s) :
    (k = epoch ∧ s = secret ∧ st.get epoch = none) ∨ st.get k = some s := by
  unfold insert at held
  split at held
  · exact .inr held
  rename_i absent
  rw [contains_iff] at absent
  rcases get_put held with ⟨same, written⟩ | ⟨-, old⟩
  · exact .inl ⟨same, written, by simpa using absent⟩
  · exact .inr old

theorem get_pruneBelow (held : (st.pruneBelow base).get k = some s) : st.get k = some s := by
  unfold get pruneBelow at held
  rw [getElem?_dropBelow] at held
  split at held
  · exact held
  · cases held

theorem highest_eq_some : st.highest = some epoch ↔
      (st.get epoch).isSome ∧ ∀ k s, st.get k = some s → k ≤ epoch := by
  rw [highest, SlidingMap.highest_eq_some]
  simp only [mem_iff_isSome_getElem?, Nat.isLE_compare, isSome_iff_exists]
  constructor
  · rintro ⟨held, above⟩
    exact ⟨held, fun k s found => above k ⟨s, found⟩⟩
  · rintro ⟨held, above⟩
    exact ⟨held, fun k found => found.elim (above k)⟩

theorem highest_isSome {k : Nat} (held : k ∈ st.inner) : ∃ h ∈ st.inner, st.highest = some h := by
  cases top : st.highest with
  | none =>
    have empty : st.inner.keys = [] := List.getLast?_eq_none_iff.mp top
    rw [← mem_keys, empty] at held
    cases held
  | some h => exact ⟨h, (SlidingMap.highest_eq_some.mp top).1, rfl⟩

theorem lowest_isSome (held : k ∈ st.inner) : ∃ lo ∈ st.inner, st.lowest = some lo := by
  cases low : st.lowest with
  | none =>
    have empty : st.inner.keys = [] := List.head?_eq_none_iff.mp low
    rw [← mem_keys, empty] at held
    cases held
  | some lo => exact ⟨lo, (lowest_eq_some.mp low).1, rfl⟩

theorem highest_put (top : (st.put epoch secret).highest = some k) :
    (k = epoch ∧ ∀ k' s, st.get k' = some s → k' ≤ epoch) ∨ (k ≠ epoch ∧ st.highest = some k) := by
  obtain ⟨member, above⟩ := SlidingMap.highest_eq_some.mp (SlidingMap.highest_evict top)
  simp only [TreeMap.mem_insert, Nat.isLE_compare] at member above
  have bound : ∀ k' s, st.get k' = some s → k' ≤ k := by
    intro k' s held
    apply above k' (.inr _)
    rw [mem_iff_isSome_getElem?]
    exact isSome_of_eq_some held
  by_cases same : k = epoch
  · subst same
    exact .inl ⟨rfl, bound⟩
  rcases member with written | held
  · exact absurd (LawfulEqOrd.eq_of_compare written).symm same
  · rw [mem_iff_isSome_getElem?] at held
    exact .inr ⟨same, highest_eq_some.mpr ⟨held, bound⟩⟩

theorem highest_pruneBelow (top : (st.pruneBelow base).highest = some k) :
    st.highest = some k := SlidingMap.highest_dropBelow top

variable (st) in
def free : Nat := st.highest.elim 0 (· + 1)

theorem lt_free (held : st.contains epoch) : epoch < st.free := by
  have member : epoch ∈ st.inner := contains_iff_mem.mp held
  obtain ⟨h, -, top⟩ := highest_isSome member
  rw [contains_iff, isSome_iff_exists] at held
  obtain ⟨s, held⟩ := held
  have below := (highest_eq_some.mp top).2 epoch s held
  simp only [free, top, elim_some]
  omega

theorem contains_highest {h : Nat} (top : st.highest = some h) : st.contains h := by
  rw [contains_iff]
  exact (highest_eq_some.mp top).1

theorem free_le_put (room : 0 < st.keep) : st.free ≤ (st.put epoch secret).free := by
  cases top : st.highest with
  | none => simp [free, top]
  | some h =>
    have member : h ∈ st.inner.insert epoch secret :=
      mem_insert.mpr (.inr (contains_iff_mem.mp (contains_highest top)))
    obtain ⟨k, -, highest⟩ := @highest_isSome { st with inner := st.inner.insert epoch secret } h member
    have kept : (st.put epoch secret).highest = some k := highest_evict_eq room highest
    have order : h ≤ k := by
      have above := (SlidingMap.highest_eq_some.mp highest).2 h member
      rwa [Nat.isLE_compare] at above
    simp only [free, top, kept, elim_some]
    omega

theorem free_le_insert (room : 0 < st.keep) : st.free ≤ (st.insert epoch secret).free := by
  unfold insert
  split
  · exact Nat.le_refl _
  · exact free_le_put room

theorem free_pruneBelow (below : base < st.free) : (st.pruneBelow base).free = st.free := by
  cases top : st.highest with
  | none => simp [free, top] at below
  | some h =>
    simp only [free, top, elim_some] at below
    have kept : (st.pruneBelow base).highest = some h := by
      obtain ⟨held, above⟩ := highest_eq_some.mp top
      refine highest_eq_some.mpr ⟨?_, fun k s found => above k s (get_pruneBelow found)⟩
      unfold get pruneBelow
      rw [getElem?_dropBelow, if_pos (by rw [Nat.isLE_compare]; omega)]
      exact held
    simp only [free, top, kept]

end SecretStore

end Dkms.Link
