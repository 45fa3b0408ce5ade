import Mathlib

namespace Dkms.Core

open List

def leBytes : Nat → Nat → List UInt8
  | 0, _ => []
  | n + 1, value => UInt8.ofNat value :: leBytes n (value / 256)

def leNumber : List UInt8 → Nat
  | [] => 0
  | byte :: bytes => byte.toNat + 256 * leNumber bytes

def beBytes (n value : Nat) : List UInt8 := (leBytes n value).reverse

def beNumber (bytes : List UInt8) : Nat := leNumber bytes.reverse

def textBytes (text : String) : List UInt8 := text.toByteArray.data.toList

def textOf (bytes : List UInt8) : Option String := String.fromUTF8? ⟨bytes.toArray⟩

@[simp]
theorem leBytes_length (n value : Nat) : (leBytes n value).length = n := by
  induction n generalizing value with
  | zero => rfl
  | succ n ih => simp [leBytes, ih]

@[simp]
theorem beBytes_length (n value : Nat) : (beBytes n value).length = n := by
  simp [beBytes]

theorem leNumber_leBytes (n value : Nat) : leNumber (leBytes n value) = value % 256 ^ n := by
  induction n generalizing value with
  | zero => simp [leBytes, leNumber, Nat.mod_one]
  | succ n ih =>
    have low : (UInt8.ofNat value).toNat = value % 256 := rfl
    calc leNumber (leBytes (n + 1) value)
        = value % 256 + 256 * (value / 256 % 256 ^ n) := by rw [leBytes, leNumber, low, ih]
      _ = value % (256 * 256 ^ n) := Nat.mod_mul.symm
      _ = value % 256 ^ (n + 1) := by rw [Nat.pow_succ, Nat.mul_comm 256]

theorem beNumber_beBytes (n value : Nat) : beNumber (beBytes n value) = value % 256 ^ n := by
  rw [beNumber, beBytes, reverse_reverse, leNumber_leBytes]

theorem textOf_textBytes (text : String) : textOf (textBytes text) = some text := by
  have same : (⟨(textBytes text).toArray⟩ : ByteArray) = text.toByteArray := by
    simp [textBytes]
  unfold textOf String.fromUTF8?
  rw [same, dif_pos text.isValidUTF8]
  rfl

abbrev Cursor (ε : Type) := StateT (List UInt8) (Except ε)

namespace Cursor

variable {ε : Type}

def need (n : Nat) (e : ε) : Cursor ε Unit := fun bytes =>
  if bytes.length < n then .error e else .ok ((), bytes)

def getLe (n : Nat) : Cursor ε Nat := fun bytes =>
  .ok (leNumber (bytes.take n), bytes.drop n)

def getBe (n : Nat) : Cursor ε Nat := fun bytes =>
  .ok (beNumber (bytes.take n), bytes.drop n)

def takeBytes (n : Nat) : Cursor ε (List UInt8) := fun bytes =>
  .ok (bytes.take n, bytes.drop n)

theorem need_of_le (n : Nat) (e : ε) (bytes : List UInt8) (enough : n ≤ bytes.length) :
    need n e bytes = .ok ((), bytes) := by
  simp [need, Nat.not_lt.mpr enough]

theorem getLe_append (n value : Nat) (rest : List UInt8) :
    (getLe n : Cursor ε Nat) (leBytes n value ++ rest) = .ok (value % 256 ^ n, rest) := by
  simp [getLe, leNumber_leBytes]

theorem getBe_append (n value : Nat) (rest : List UInt8) :
    (getBe n : Cursor ε Nat) (beBytes n value ++ rest) = .ok (value % 256 ^ n, rest) := by
  simp [getBe, beNumber_beBytes]

theorem takeBytes_append (bytes rest : List UInt8) (n : Nat) (length : bytes.length = n) :
    (takeBytes n : Cursor ε (List UInt8)) (bytes ++ rest) = .ok (bytes, rest) := by
  simp [takeBytes, take_left' length, drop_left' length]

theorem bind_ok {α β : Type} {first : Cursor ε α} {after : α → Cursor ε β}
    {bytes rest : List UInt8} {value : α} (read : first bytes = .ok (value, rest)) :
    (first >>= after) bytes = after value rest := by
  change (first bytes >>= fun pair => after pair.1 pair.2) = _
  rw [read]
  rfl

end Cursor

def digitOf (c : Char) : Option Nat :=
  if '0' ≤ c ∧ c ≤ '9' then some (c.toNat - '0'.toNat)
  else if 'a' ≤ c ∧ c ≤ 'z' then some (c.toNat - 'a'.toNat + 10)
  else if 'A' ≤ c ∧ c ≤ 'Z' then some (c.toNat - 'A'.toNat + 10)
  else none

/-- `from_str_radix` of an unsigned integer: a sign `+` may stand first, and the value must fit. -/
def parseRadix (radix bound : Nat) (text : String) : Option Nat :=
  let digits := match text.toList with
    | '+' :: rest => rest
    | chars => chars
  if digits.isEmpty then none
  else digits.foldlM (fun value c => do
    let digit ← digitOf c
    guard (digit < radix)
    guard (value * radix + digit < bound)
    return value * radix + digit) 0

def parseU32 (text : String) : Option UInt32 := (parseRadix 10 (2 ^ 32) text).map UInt32.ofNat

theorem digitOf_digitChar {d : Nat} (small : d < 10) : digitOf d.digitChar = some d := by
  decide +revert

theorem fold_toDigits {bound n : Nat} (fits : n < bound) :
    (Nat.toDigits 10 n).foldlM (fun value c => do
      let digit ← digitOf c
      guard (digit < 10)
      guard (value * 10 + digit < bound)
      return value * 10 + digit) 0 = some n := by
  induction n using Nat.strongRecOn with
  | ind n ih =>
    by_cases small : n < 10
    · rw [Nat.toDigits_of_lt_base small, foldlM_cons, digitOf_digitChar small]
      simp [small, fits]
    have rest : n / 10 * 10 + n % 10 = n := by omega
    have last : n % 10 < 10 := by omega
    rw [Nat.toDigits_of_base_le (by decide) (by omega), foldlM_append, ih (n / 10) (by omega) (by omega)]
    simp [digitOf_digitChar last, last, rest, fits]

theorem parseRadix_repr {bound n : Nat} (fits : n < bound) : parseRadix 10 bound n.repr = some n := by
  unfold parseRadix
  rw [Nat.toList_repr]
  split
  · rename_i rest signed
    have digit := Nat.isDigit_of_mem_toDigits (n := n) (c := '+') (b := 10) (by decide) (by decide)
      (by rw [signed]; exact mem_cons_self)
    cases digit
  · rw [if_neg (by simp [Nat.toDigits_ne_nil])]
    exact fold_toDigits fits

theorem parseU32_repr (n : UInt32) : parseU32 n.toNat.repr = some n := by
  rw [parseU32, parseRadix_repr n.toNat_lt, Option.map_some, UInt32.ofNat_toNat]

def hexDigit (n : Nat) : Char := Char.ofNat (if n < 10 then '0'.toNat + n else 'a'.toNat + (n - 10))

def hexEncode (bytes : List UInt8) : String :=
  String.ofList (bytes.flatMap fun byte => [hexDigit (byte.toNat / 16), hexDigit (byte.toNat % 16)])

def hexPairs : List Char → Option (List UInt8)
  | [] => some []
  | [_] => none
  | high :: low :: rest => do
    let h ← digitOf high
    let l ← digitOf low
    guard (h < 16 ∧ l < 16)
    return UInt8.ofNat (16 * h + l) :: (← hexPairs rest)

def hexDecode (text : String) : Option (List UInt8) := hexPairs text.toList

variable {α : Type*} {valid : α → Prop} {encode : α → List UInt8}

/-- The encoding of a valid value shows where it ends: what follows can be anything. -/
def Delimited (valid : α → Prop) (encode : α → List UInt8) : Prop :=
  ∀ x y r s, valid x → valid y → encode x ++ r = encode y ++ s → x = y ∧ r = s

theorem delimited_beBytes (n : Nat) : Delimited (· < 256 ^ n) (beBytes n) := by
  intro a b r s boundA boundB same
  obtain ⟨bytes, rest⟩ := append_inj same (by simp)
  have value := congrArg beNumber bytes
  rw [beNumber_beBytes, beNumber_beBytes, Nat.mod_eq_of_lt boundA, Nat.mod_eq_of_lt boundB] at value
  exact ⟨value, rest⟩

theorem delimited_lengthPrefixed (n : Nat) :
    Delimited (·.length < 256 ^ n) fun bytes => beBytes n bytes.length ++ bytes := by
  intro a b r s boundA boundB same
  rw [append_assoc, append_assoc] at same
  obtain ⟨length, same⟩ := delimited_beBytes n _ _ _ _ boundA boundB same
  exact append_inj same length

theorem Delimited.flatMap (delimited : Delimited valid encode) {xs ys : List α} {r s : List UInt8}
    (validXs : ∀ x ∈ xs, valid x) (validYs : ∀ y ∈ ys, valid y) (shorter : xs.length ≤ ys.length)
    (same : xs.flatMap encode ++ r = ys.flatMap encode ++ s) :
    ∃ rest, ys = xs ++ rest ∧ r = rest.flatMap encode ++ s := by
  induction xs generalizing ys with
  | nil => exact ⟨ys, rfl, same⟩
  | cons x xs ih =>
    cases ys with
    | nil => cases shorter
    | cons y ys =>
      rw [flatMap_cons, flatMap_cons, append_assoc, append_assoc] at same
      obtain ⟨rfl, tails⟩ := delimited x y _ _ (validXs x mem_cons_self) (validYs y mem_cons_self) same
      obtain ⟨rest, rfl, others⟩ := ih (fun x member => validXs x (mem_cons_of_mem _ member))
        (fun y member => validYs y (mem_cons_of_mem _ member)) (Nat.le_of_succ_le_succ shorter)
        tails
      exact ⟨rest, rfl, others⟩

end Dkms.Core
