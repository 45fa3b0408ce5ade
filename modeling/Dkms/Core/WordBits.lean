import Mathlib

namespace Dkms.Core

abbrev W64 := BitVec 64

def wordTest (words : List W64) (i : Nat) : Bool :=
  (words.getD (i / 64) 0).getLsbD (i % 64)

def wordSet (words : List W64) (i : Nat) : List W64 :=
  words.modify (i / 64) (fun w => w ||| (1 : W64) <<< (i % 64))

theorem wordTest_cons (w : W64) (ws : List W64) (i : Nat) :
    wordTest (w :: ws) i = if i < 64 then w.getLsbD i else wordTest ws (i - 64) := by
  by_cases first : i < 64
  · simp [wordTest, first, Nat.div_eq_of_lt first, Nat.mod_eq_of_lt first]
  have quotient : i / 64 = (i - 64) / 64 + 1 := by omega
  have remainder : i % 64 = (i - 64) % 64 := by omega
  simp only [wordTest, first, quotient, remainder, List.getD_cons_succ, if_false]

structure WordBits (n : Nat) where
  words : List W64
  size : words.length = n

namespace WordBits

variable {n : Nat}

def zero (n : Nat) : WordBits n := ⟨List.replicate n 0, by simp⟩

def test (bits : WordBits n) (i : Nat) : Bool := wordTest bits.words i

def set (bits : WordBits n) (i : Nat) : WordBits n :=
  ⟨wordSet bits.words i, by simp [wordSet, bits.size]⟩

def map (bits : WordBits n) (f : List W64 → List W64)
    (keeps : ∀ words, (f words).length = words.length) : WordBits n :=
  ⟨f bits.words, by rw [keeps, bits.size]⟩

theorem one_shift_bit (k j : Nat) (small : k < 64) :
    ((1 : W64) <<< k).getLsbD j = decide (j = k) := by
  rw [BitVec.getLsbD_shiftLeft]
  by_cases same : j = k
  · subst same
    simp [small]
  rcases Nat.lt_or_gt_of_ne same with below | above
  · simp [below, same]
  · have apart : j - k ≠ 0 := by omega
    simp [apart, same]

@[simp]
theorem test_zero (i : Nat) : (zero n).test i = false := by
  simp [test, wordTest, zero]

theorem test_set (bits : WordBits n) (i j : Nat) (bound : i / 64 < n) :
    (bits.set i).test j = (decide (j = i) || bits.test j) := by
  have inside : i / 64 < bits.words.length := by rw [bits.size]; exact bound
  simp only [test, set, wordTest, wordSet, List.getD_eq_getElem?_getD, List.getElem?_modify]
  by_cases word : i / 64 = j / 64
  · have held := List.getElem?_eq_getElem (l := bits.words) (i := j / 64) (by omega)
    have position : (j % 64 = i % 64) ↔ j = i := by omega
    have bit := one_shift_bit (i % 64) (j % 64) (Nat.mod_lt i (by decide))
    simp only [word, held, ↓reduceIte, Option.map_eq_map, Option.map_some, Option.getD_some,
      BitVec.getLsbD_or, bit, position]
    exact Bool.or_comm _ _
  · have apart : j ≠ i := fun same => word (by rw [same])
    simp [word, apart]

end WordBits

end Dkms.Core
