import Dkms.Core.Runs
import Dkms.Qkc.Otp

namespace Dkms.Qkc

open List Dkms.Core Nat

def bufferTarget : Nat := 2048
def refillThreshold : Nat := 256
def refillBatch : Nat := 128
def bankHighWaterNum : Nat := 3
def bankHighWaterDen : Nat := 4
def bankRingHeadroom : Nat := 512
def maxBankRounds : Nat := 16

def ringCapacity : Nat := bufferTarget * 2

def bankBatchSize (stored max ringLen ringCap : Nat) : Option Nat :=
  if max = 0 ∨ stored < max / bankHighWaterDen * bankHighWaterNum then none
  else
    let space := ringCap - ringLen
    if space ≤ bankRingHeadroom then none
    else
      let batch := min (min (space - bankRingHeadroom) refillBatch) stored
      if batch < 2 ^ 32 ∧ 0 < batch then some batch else none

/-- How far `enc_refill_loop` has got: between the test of its loop and the reading that sizes the
batch the ring may change. -/
inductive Refill where
  | waiting
  | testing
  | sizing
  | asking (batch : Nat)
  | absorbing (keys : List OtpKey)
  deriving DecidableEq

structure Banking where
  stored : Nat
  max : Nat
  rounds : Nat
  deriving DecidableEq

inductive Bank where
  | resting
  | sizing (b : Banking)
  | asking (b : Banking) (batch : Nat)
  | absorbing (b : Banking) (batch received : Nat) (keys : List OtpKey)
  deriving DecidableEq

structure EncRing where
  enc : List OtpKey
  droppedFull : Nat
  refill : Refill
  bank : Bank

/-- `take` is one pop of a consumer; `refill` and `bank` are one step of the two workers, and
the answers are those of the key source (`none` for an error or a timeout). -/
inductive EncAct where
  | take
  | wake
  | refill
  | refillAnswer (keys : Option (List OtpKey))
  | stock (stored max : Nat)
  | bank
  | bankAnswer (keys : Option (List OtpKey))

namespace EncRing

def new : EncRing := ⟨[], 0, .waiting, .resting⟩

variable (r : EncRing)

def push (key : OtpKey) : EncRing :=
  if r.enc.length < ringCapacity then { r with enc := r.enc ++ [key] }
  else { r with droppedFull := r.droppedFull + 1 }

def refillStep : EncRing :=
  match r.refill with
  | .waiting | .asking _ => r
  | .testing =>
    if r.enc.length < refillThreshold then { r with refill := .sizing }
    else { r with refill := .waiting }
  | .sizing =>
    let space := ringCapacity - r.enc.length
    { r with refill := .asking (min (max (space % 2 ^ 32) 1) refillBatch) }
  | .absorbing [] => { r with refill := .testing }
  | .absorbing (key :: keys) => { r.push key with refill := .absorbing keys }

def refillAnswered (keys : Option (List OtpKey)) : EncRing :=
  match r.refill, keys with
  | .asking _, some keys => { r with refill := .absorbing keys }
  | .asking _, none => { r with refill := .testing }
  | _, _ => r

def bankStep : EncRing :=
  match r.bank with
  | .resting | .asking _ _ => r
  | .sizing ⟨_, _, 0⟩ => { r with bank := .resting }
  | .sizing ⟨stored, max, rounds + 1⟩ =>
    match bankBatchSize stored max r.enc.length ringCapacity with
    | none => { r with bank := .resting }
    | some batch => { r with bank := .asking ⟨stored, max, rounds⟩ batch }
  | .absorbing b batch received [] =>
    if received < batch then { r with bank := .resting }
    else { r with bank := .sizing { b with stored := b.stored - received } }
  | .absorbing b batch received (key :: keys) =>
    { r.push key with bank := .absorbing b batch received keys }

def bankAnswered (keys : Option (List OtpKey)) : EncRing :=
  match r.bank, keys with
  | .asking b batch, some keys => { r with bank := .absorbing b batch keys.length keys }
  | .asking _ _, none => { r with bank := .resting }
  | _, _ => r

def next : EncAct → EncRing
  | .take => { r with enc := r.enc.tail }
  | .wake =>
    match r.refill with
    | .waiting => { r with refill := .testing }
    | _ => r
  | .refill => r.refillStep
  | .refillAnswer keys => r.refillAnswered keys
  | .stock stored max =>
    match r.bank with
    | .resting => { r with bank := .sizing ⟨stored, max, maxBankRounds⟩ }
    | _ => r
  | .bank => r.bankStep
  | .bankAnswer keys => r.bankAnswered keys

def run (acts : List EncAct) : EncRing := acts.foldl next r

end EncRing

def EncAct.Measured (r : EncRing) : EncAct → Prop
  | .refillAnswer (some keys) =>
    match r.refill with
    | .asking batch => keys.length ≤ batch
    | _ => True
  | .bankAnswer (some keys) =>
    match r.bank with
    | .asking _ batch => keys.length ≤ batch
    | _ => True
  | _ => True

instance (r : EncRing) (act : EncAct) : Decidable (act.Measured r) := by
  rcases act with _ | _ <;> dsimp only [EncAct.Measured]
  case refillAnswer keys =>
    rcases keys with _ | _ <;> rcases r.refill with _ | _ <;> infer_instance
  case bankAnswer keys =>
    rcases keys with _ | _ <;> rcases r.bank with _ | _ <;> infer_instance
  all_goals infer_instance

def Refill.due : Refill → Nat
  | .waiting | .testing => 0
  | .sizing => refillBatch
  | .asking batch => batch
  | .absorbing keys => keys.length

def Bank.due : Bank → Nat
  | .resting | .sizing _ => 0
  | .asking _ batch => batch
  | .absorbing _ _ _ keys => keys.length

theorem bankBatchSize_le {stored max ringLen batch : Nat}
    (sized : bankBatchSize stored max ringLen ringCapacity = some batch) :
    ringLen + batch + bankRingHeadroom ≤ ringCapacity ∧ batch ≤ refillBatch := by
  unfold bankBatchSize at sized
  split at sized
  · cases sized
  dsimp only at sized
  split at sized
  · cases sized
  split at sized
  · rw [← Option.some.inj sized]
    have most := min_le_left (min (ringCapacity - ringLen - bankRingHeadroom) refillBatch) stored
    have small := min_le_right (ringCapacity - ringLen - bankRingHeadroom) refillBatch
    exact ⟨by omega, le_trans most small⟩
  · cases sized

namespace EncRing

/-- What is in the ring and what both workers have asked for leave the part of the headroom free
that one refill does not need. -/
structure Roomy (r : EncRing) : Prop where
  room : r.enc.length + r.refill.due + r.bank.due + bankRingHeadroom ≤ ringCapacity + refillBatch
  refill : r.refill.due ≤ refillBatch
  bank : r.bank.due ≤ refillBatch
  kept : r.droppedFull = 0

theorem new_roomy : new.Roomy := by
  constructor <;> decide

variable {r : EncRing}

theorem push_free (key : OtpKey) (free : r.enc.length < ringCapacity) :
    r.push key = { r with enc := r.enc ++ [key] } :=
  if_pos free

theorem Roomy.free (roomy : r.Roomy) : r.enc.length < ringCapacity := by
  have room := roomy.room
  unfold bankRingHeadroom refillBatch at room
  omega

theorem Roomy.refillStep (roomy : r.Roomy) : r.refillStep.Roomy := by
  have free := roomy.free
  obtain ⟨room, refill, bank, kept⟩ := roomy
  unfold EncRing.refillStep
  cases at' : r.refill with
  | testing =>
    rw [at'] at room
    dsimp only
    split
    · rename_i low
      unfold refillThreshold at low
      refine ⟨?_, le_refl _, bank, kept⟩
      dsimp only [Refill.due]
      unfold refillBatch bankRingHeadroom ringCapacity bufferTarget at *
      omega
    · exact ⟨room, zero_le _, bank, kept⟩
  | sizing =>
    rw [at'] at room
    have batch : min (max ((ringCapacity - r.enc.length) % 2 ^ 32) 1) refillBatch ≤ refillBatch :=
      min_le_right _ _
    refine ⟨?_, batch, bank, kept⟩
    dsimp only [Refill.due] at room ⊢
    omega
  | absorbing keys =>
    rw [at'] at room refill
    cases keys with
    | nil => exact ⟨room, zero_le _, bank, kept⟩
    | cons key keys =>
      dsimp only
      rw [push_free key free]
      dsimp only [Refill.due] at room refill
      rw [length_cons] at room refill
      refine ⟨?_, le_of_succ_le refill, bank, kept⟩
      dsimp only [Refill.due]
      rw [length_append, length_singleton]
      omega
  | _ => exact ⟨room, refill, bank, kept⟩

theorem Roomy.bankStep (roomy : r.Roomy) : r.bankStep.Roomy := by
  have free := roomy.free
  obtain ⟨room, refill, bank, kept⟩ := roomy
  unfold EncRing.bankStep
  split
  · exact ⟨room, refill, bank, kept⟩
  · exact ⟨room, refill, bank, kept⟩
  · rename_i at'
    rw [at'] at room
    exact ⟨room, refill, zero_le _, kept⟩
  · rename_i stored max rounds at'
    rw [at'] at room
    split
    · exact ⟨room, refill, zero_le _, kept⟩
    rename_i batch sized
    -- the batch leaves the headroom, and one refill at most is due on top of it
    obtain ⟨fits, small⟩ := bankBatchSize_le sized
    refine ⟨?_, refill, small, kept⟩
    dsimp only [Bank.due]
    omega
  · rename_i b batch received at'
    rw [at'] at room
    split <;> exact ⟨room, refill, zero_le _, kept⟩
  rename_i b batch received key keys at'
  rw [at'] at room bank
  rw [push_free key free]
  dsimp only [Bank.due] at room bank
  rw [length_cons] at room bank
  refine ⟨?_, refill, le_of_succ_le bank, kept⟩
  dsimp only [Bank.due]
  rw [length_append, length_singleton]
  omega

theorem Roomy.next (roomy : r.Roomy) {act : EncAct} (measured : act.Measured r) :
    (r.next act).Roomy := by
  have held := roomy
  obtain ⟨room, refill, bank, kept⟩ := roomy
  cases act with
  | take =>
    refine ⟨?_, refill, bank, kept⟩
    dsimp only [EncRing.next]
    rw [length_tail]
    omega
  | wake =>
    dsimp only [EncRing.next]
    split
    · rename_i at'
      rw [at'] at room
      exact ⟨room, zero_le _, bank, kept⟩
    · exact held
  | refill => exact held.refillStep
  | refillAnswer keys =>
    dsimp only [EncRing.next]
    unfold refillAnswered
    split
    · rename_i batch keys at'
      have fewer : keys.length ≤ batch := by
        unfold EncAct.Measured at measured
        rw [at'] at measured
        exact measured
      rw [at'] at room refill
      dsimp only [Refill.due] at room refill
      refine ⟨?_, ?_, bank, kept⟩ <;> dsimp only [Refill.due] <;> omega
    · refine ⟨?_, zero_le _, bank, kept⟩
      dsimp only [Refill.due]
      omega
    · exact held
  | stock stored max =>
    dsimp only [EncRing.next]
    split
    · rename_i at'
      rw [at'] at room
      exact ⟨room, refill, zero_le _, kept⟩
    · exact held
  | bank => exact held.bankStep
  | bankAnswer keys =>
    dsimp only [EncRing.next]
    unfold bankAnswered
    split
    · rename_i b batch keys at'
      have fewer : keys.length ≤ batch := by
        unfold EncAct.Measured at measured
        rw [at'] at measured
        exact measured
      rw [at'] at room bank
      dsimp only [Bank.due] at room bank
      refine ⟨?_, refill, ?_, kept⟩ <;> dsimp only [Bank.due] <;> omega
    · refine ⟨?_, refill, zero_le _, kept⟩
      dsimp only [Bank.due]
      omega
    · exact held

theorem push_grows (r : EncRing) (key : OtpKey) : r.enc <+: (r.push key).enc := by
  unfold push
  split
  · exact prefix_append _ _
  · exact prefix_rfl

theorem next_grows (r : EncRing) (act : EncAct) (other : act ≠ .take) :
    r.enc <+: (r.next act).enc := by
  cases act with
  | take => exact absurd rfl other
  | refill =>
    dsimp only [next]
    unfold EncRing.refillStep
    split
    · exact prefix_rfl
    · exact prefix_rfl
    · split <;> exact prefix_rfl
    · exact prefix_rfl
    · exact prefix_rfl
    · exact r.push_grows _
  | refillAnswer keys =>
    dsimp only [next]
    unfold refillAnswered
    split <;> exact prefix_rfl
  | bank =>
    dsimp only [next]
    unfold EncRing.bankStep
    split
    · exact prefix_rfl
    · exact prefix_rfl
    · exact prefix_rfl
    · split <;> exact prefix_rfl
    · split <;> exact prefix_rfl
    · exact r.push_grows _
  | bankAnswer keys =>
    dsimp only [next]
    unfold bankAnswered
    split <;> exact prefix_rfl
  | _ =>
    dsimp only [next]
    split <;> exact prefix_rfl

/-- In every interleaving of the two workers and the consumers, with a key source that returns no
more than it is asked for, no key finds the ring full. -/
theorem ring_never_full (acts : List EncAct)
    (measured : Follows EncRing.next (fun r act => act.Measured r) new acts) :
    (new.run acts).droppedFull = 0 := by
  have reached : (new.run acts).Roomy := measured.invariant (fun _ _ roomy ok => roomy.next ok) new_roomy
  exact reached.kept

def bothFilling : List EncAct :=
  [.wake, .refill, .stock 8 8, .refill, .bank, .bankAnswer (some [⟨1, [1]⟩, ⟨2, [2]⟩]), .bank,
    .refillAnswer (some [⟨3, [3]⟩, ⟨4, [4]⟩]), .refill, .take, .bank, .refill, .refill, .bank]

theorem ring_never_full_both :
    (new.run bothFilling).enc = [⟨3, [3]⟩, ⟨2, [2]⟩, ⟨4, [4]⟩] ∧ (new.run bothFilling).droppedFull = 0 :=
  ⟨by decide +kernel, ring_never_full bothFilling (by decide +kernel)⟩

end EncRing

end Dkms.Qkc
