import Dkms.Core.Runs
import Dkms.Node.Buffer

namespace Dkms.Node

open List Dkms.Core Nat

def u64Max : Nat := 2 ^ 64 - 1

def saturatingMul (a b : Nat) : Nat := min (a * b) u64Max

def computeCost (sizeBytes number numDestinationDkms tokenUnitBytes : Nat) : Nat :=
  let unit := max tokenUnitBytes 1
  let perKey := (sizeBytes + unit - 1) / unit
  saturatingMul (saturatingMul perKey number) (max numDestinationDkms 1)

def nanosPerSec : Nat := 10 ^ 9

/-- The bucket of one SAE. Instants are in nanoseconds. -/
@[ext]
structure Bucket where
  capacity : Nat
  refillPerSec : Nat
  tokens : Nat
  last : Nat
  bounded : tokens ≤ capacity

namespace Bucket

def new (capacity refillPerSec now : Nat) : Bucket := ⟨capacity, refillPerSec, capacity, now, le_rfl⟩

variable (b : Bucket)

def refilled (now : Nat) : Nat := (now - b.last) * b.refillPerSec / nanosPerSec

/-- The clock of the bucket only moves when a whole token comes in. -/
def refillInplace (now : Nat) : Bucket :=
  if 0 < b.refilled now then
    { b with
      tokens := min (b.tokens + b.refilled now) b.capacity
      last := now
      bounded := min_le_right _ _ }
  else b

def tryConsume (n now : Nat) : Except Nat Unit × Bucket :=
  let b := b.refillInplace now
  if n ≤ b.tokens then
    (.ok (), { b with tokens := b.tokens - n, bounded := (sub_le _ _).trans b.bounded })
  else (.error b.tokens, b)

def refund (n : Nat) : Bucket :=
  { b with tokens := min (b.tokens + n) b.capacity, bounded := min_le_right _ _ }

variable {b} {n now : Nat}

theorem refilled_refillInplace : (b.refillInplace now).refilled now = 0 := by
  unfold refillInplace
  split
  · simp [refilled]
  · omega

theorem refillInplace_idem : (b.refillInplace now).refillInplace now = b.refillInplace now := by
  have settled : ¬ 0 < (b.refillInplace now).refilled now := by
    rw [refilled_refillInplace]
    exact lt_irrefl 0
  rw [refillInplace, if_neg settled]

theorem tryConsume_error {available : Nat} (refused : (b.tryConsume n now).1 = .error available) :
    (b.tryConsume n now).2 = b.refillInplace now := by
  unfold tryConsume at refused ⊢
  dsimp only at refused ⊢
  split
  · rename_i enough
    rw [if_pos enough] at refused
    cases refused
  · rfl

theorem refund_tryConsume (granted : (b.tryConsume n now).1 = .ok ()) :
    (b.tryConsume n now).2.refund n = b.refillInplace now := by
  unfold tryConsume at granted ⊢
  dsimp only at granted ⊢
  split
  · have bounded := (b.refillInplace now).bounded
    have back : min ((b.refillInplace now).tokens - n + n) (b.refillInplace now).capacity =
        (b.refillInplace now).tokens := by omega
    exact Bucket.ext rfl rfl back rfl
  · rename_i short
    rw [if_neg short] at granted
    cases granted

/-- The tokens that come in during the calls `try_consume(n)` at the instants `now`. -/
def addedBy : Bucket → List (Nat × Nat) → Nat
  | _, [] => 0
  | b, (n, now) :: calls =>
    (b.refillInplace now).tokens - b.tokens + addedBy (b.tryConsume n now).2 calls

def afterCall (b : Bucket) (call : Nat × Nat) : Bucket := (b.tryConsume call.1 call.2).2

def Uncapped (b : Bucket) (now : Nat) : Prop := (b.refillInplace now).tokens < b.capacity

/-- What has come in since `last` is less than a token or a whole number of them. -/
def Whole (b : Bucket) (now : Nat) : Prop :=
  b.refilled now = 0 ∨ nanosPerSec ∣ (now - b.last) * b.refillPerSec

theorem tryConsume_clock : (b.tryConsume n now).2.last = (b.refillInplace now).last ∧
      (b.tryConsume n now).2.refillPerSec = b.refillPerSec ∧ (b.tryConsume n now).2.refilled now = 0 := by
  have settled := @refilled_refillInplace b now
  have rate : (b.refillInplace now).refillPerSec = b.refillPerSec := by
    unfold refillInplace
    split <;> rfl
  unfold tryConsume
  dsimp only
  split <;> exact ⟨rfl, rate, settled⟩

theorem tryConsume_ordered {times : List Nat} (ordered : (b.last :: now :: times).Pairwise (· ≤ ·)) :
    ((b.tryConsume n now).2.last :: now :: times).Pairwise (· ≤ ·) := by
  obtain ⟨later, rest⟩ := pairwise_cons.mp ordered
  have early : (b.tryConsume n now).2.last ≤ now := by
    rw [tryConsume_clock.1, refillInplace]
    split
    · exact le_rfl
    · exact later now mem_cons_self
  refine pairwise_cons.mpr ⟨forall_mem_cons.mpr ⟨early, ?_⟩, rest⟩
  exact fun x listed => early.trans ((pairwise_cons.mp rest).1 x listed)

theorem addedBy_covers {t : Nat} {calls : List (Nat × Nat)}
    (ordered : (b.last :: t :: calls.map (·.2)).Pairwise (· ≤ ·)) (settled : b.refilled t = 0)
    (steady : Follows afterCall (fun b call => b.Uncapped call.2 ∧ b.Whole call.2) b calls) :
    ((calls.map (·.2)).getLastD t - b.last) * b.refillPerSec < (b.addedBy calls + 1) * nanosPerSec := by
  induction calls generalizing b t with
  | nil => simpa [addedBy] using (Nat.div_eq_zero_iff_lt (by decide)).mp settled
  | cons call calls ih =>
    obtain ⟨n, now⟩ := call
    obtain ⟨⟨uncapped, whole⟩, steady⟩ := steady
    obtain ⟨last, rate, settled⟩ := @tryConsume_clock b n now
    have ordered : (b.last :: now :: calls.map (·.2)).Pairwise (· ≤ ·) :=
      ordered.sublist ((sublist_cons_self t _).cons_cons _)
    have next := ih (tryConsume_ordered ordered) settled steady
    rw [last, rate] at next
    rw [map_cons, getLastD_cons, addedBy]
    by_cases comes : 0 < b.refilled now
    · obtain ⟨later, rest⟩ := pairwise_cons.mp ordered
      have later := later now mem_cons_self
      have ends : now ≤ (calls.map (·.2)).getLastD now := by
        rcases mem_cons.mp (@getLastD_mem_cons _ (calls.map (·.2)) now) with same | listed
        · exact same.ge
        · exact (pairwise_cons.mp rest).1 _ listed
      have tokens : (now - b.last) * b.refillPerSec = b.refilled now * nanosPerSec :=
        (Nat.div_mul_cancel (whole.resolve_left comes.ne')).symm
      rw [Uncapped, refillInplace, if_pos comes] at uncapped
      rw [refillInplace, if_pos comes] at next ⊢
      dsimp only at uncapped next ⊢
      have span : (calls.map (·.2)).getLastD now - b.last =
          (calls.map (·.2)).getLastD now - now + (now - b.last) := by omega
      have added : min (b.tokens + b.refilled now) b.capacity - b.tokens = b.refilled now := by omega
      rw [span, added, Nat.add_mul, tokens, add_assoc, Nat.add_mul (b.refilled now)]
      omega
    · rw [refillInplace, if_neg comes] at next ⊢
      simpa using next

/-- With calls in order of time, however many, the bucket keeps up with its rate as long as none of
them adds tokens while a fraction of one is on its way. -/
theorem refill_keeps_pace (b : Bucket) (n t : Nat) (calls : List (Nat × Nat))
    (ordered : (b.last :: t :: calls.map (·.2)).Pairwise (· ≤ ·))
    (uncapped : Follows afterCall (fun b call => b.Uncapped call.2) (b.tryConsume n t).2 calls)
    (whole : Follows afterCall (fun b call => b.Whole call.2) (b.tryConsume n t).2 calls) :
    b.refillPerSec * ((calls.map (·.2)).getLastD t - t) / nanosPerSec - 1 ≤
      (b.tryConsume n t).2.addedBy calls := by
  obtain ⟨-, rate, settled⟩ := @tryConsume_clock b n t
  have ordered := @tryConsume_ordered b n t _ ordered
  have early := (pairwise_cons.mp ordered).1 t mem_cons_self
  have covers := addedBy_covers ordered settled (uncapped.and whole)
  have longer : b.refillPerSec * ((calls.map (·.2)).getLastD t - t) ≤
      ((calls.map (·.2)).getLastD t - (b.tryConsume n t).2.last) * b.refillPerSec := by
    rw [Nat.mul_comm]
    exact Nat.mul_le_mul_right _ (Nat.sub_le_sub_left early _)
  rw [rate] at covers
  have := (Nat.div_lt_iff_lt_mul (by decide)).mpr (longer.trans_lt covers)
  omega

def idleBucket (refillPerSec : Nat) : Bucket := ⟨99, refillPerSec, 0, 0, zero_le _⟩

theorem refill_keeps_pace_seconds :
    let calls := [(1, 10 ^ 9), (0, 15 * 10 ^ 8)]
    2 * ((calls.map (·.2)).getLastD 0 - 0) / nanosPerSec - 1 ≤
      ((idleBucket 2).tryConsume 0 0).2.addedBy calls :=
  (idleBucket 2).refill_keeps_pace 0 0 _ (by decide)
    ⟨by unfold Uncapped; decide, by unfold Uncapped; decide, trivial⟩
    ⟨.inr (by decide), .inr (by decide), trivial⟩

/-- Polled every 1.9 seconds at one token a second, ten tokens come in where 19 are due. -/
theorem polling_loses_tokens :
    let calls := (range 10).map fun k => (0, (k + 1) * 19 * 10 ^ 8)
    ((idleBucket 1).tryConsume 0 0).2.addedBy calls = 10 ∧ (calls.map (·.2)).getLastD 0 = 19 * nanosPerSec := by
  decide

end Bucket

structure SaeBuckets where
  defaultCapacity : Nat
  defaultRefill : Nat
  map : SaeId → Option Bucket

namespace SaeBuckets

def new (defaultRefill defaultCapacity : Nat) : SaeBuckets :=
  ⟨defaultCapacity, defaultRefill, fun _ => none⟩

variable (s : SaeBuckets)

def bucket (sae : SaeId) (now : Nat) : Bucket :=
  (s.map sae).getD (.new s.defaultCapacity s.defaultRefill now)

def set (sae : SaeId) (b : Bucket) : SaeBuckets := { s with map := Function.update s.map sae b }

def tryConsume (sae : SaeId) (n now : Nat) : Except Nat Unit × SaeBuckets :=
  let (result, b) := (s.bucket sae now).tryConsume n now
  (result, s.set sae b)

def refund (sae : SaeId) (n : Nat) : SaeBuckets :=
  match s.map sae with
  | some b => s.set sae (b.refund n)
  | none => s

def tokensNow (sae : SaeId) (now : Nat) : Nat := ((s.bucket sae now).refillInplace now).tokens

variable {s} {sae other : SaeId} {n now : Nat}

@[simp]
theorem bucket_set (b : Bucket) :
    (s.set sae b).bucket other now = if other = sae then b else s.bucket other now := by
  unfold bucket set
  by_cases same : other = sae
  · subst same
    simp
  · simp [same]

theorem tokensNow_set_refilled :
    (s.set sae ((s.bucket sae now).refillInplace now)).tokensNow other now =
      s.tokensNow other now := by
  unfold tokensNow
  rw [bucket_set]
  split
  · rename_i same
    rw [same, Bucket.refillInplace_idem]
  · rfl

theorem tokensNow_refused {available : Nat}
    (refused : (s.tryConsume sae n now).1 = .error available) :
    (s.tryConsume sae n now).2.tokensNow other now = s.tokensNow other now := by
  have kept := Bucket.tryConsume_error refused
  simp only [tryConsume, kept]
  exact tokensNow_set_refilled

theorem refund_set (b : Bucket) : (s.set sae b).refund sae n = s.set sae (b.refund n) := by
  simp [refund, set]

theorem tokensNow_refunded (granted : (s.tryConsume sae n now).1 = .ok ()) :
    ((s.tryConsume sae n now).2.refund sae n).tokensNow other now = s.tokensNow other now := by
  have back := Bucket.refund_tryConsume granted
  simp only [tryConsume, refund_set, back]
  exact tokensNow_set_refilled

end SaeBuckets

theorem perKey_le (sizeBytes unit : Nat) (positive : 0 < unit) :
    (sizeBytes + unit - 1) / unit ≤ sizeBytes := by
  have scaled : sizeBytes ≤ sizeBytes * unit := Nat.le_mul_of_pos_right _ positive
  rw [Nat.div_le_iff_le_mul_add_pred positive, Nat.mul_comm]
  omega

variable {sizeBytes number unit : Nat}

theorem computeCost_destinations {dests : Nat} (size : sizeBytes ≤ 2 ^ 20)
    (keys : number ≤ 2 ^ 20) (few : dests ≤ 2 ^ 20) : computeCost sizeBytes number dests unit =
      computeCost sizeBytes number 1 unit * max dests 1 := by
  have each : (sizeBytes + max unit 1 - 1) / max unit 1 ≤ 2 ^ 20 := (perKey_le _ _ (by omega)).trans size
  unfold computeCost
  dsimp only
  generalize (sizeBytes + max unit 1 - 1) / max unit 1 = perKey at each ⊢
  have one : perKey * number ≤ 2 ^ 20 * 2 ^ 20 := Nat.mul_le_mul each keys
  have all : perKey * number * max dests 1 ≤ 2 ^ 20 * 2 ^ 20 * 2 ^ 20 := Nat.mul_le_mul one (by omega)
  have fits : perKey * number ≤ u64Max := one.trans (by decide)
  have fits' : perKey * number * max dests 1 ≤ u64Max := all.trans (by decide)
  have single : max 1 1 = 1 := rfl
  rw [saturatingMul, saturatingMul, saturatingMul, min_eq_left fits, min_eq_left fits', single,
    Nat.mul_one, min_eq_left fits]

theorem number_le_computeCost (bytes : 0 < sizeBytes)
    (fits : number ≤ u64Max) : number ≤ computeCost sizeBytes number 1 unit := by
  have each : 1 ≤ (sizeBytes + max unit 1 - 1) / max unit 1 := by
    rw [le_div_iff_mul_le (by omega)]
    omega
  have least := mul_le_mul_right number each
  rw [one_mul] at least
  have single : max 1 1 = 1 := rfl
  simp only [computeCost, saturatingMul, single, mul_one]
  exact le_min (le_min least fits) fits

def secsBetween (now since : Nat) : ℚ := ((now - since : Nat) : ℚ) / nanosPerSec

@[ext]
structure BufferBucket where
  refillRate : ℚ
  capacity : ℚ
  tokens : ℚ
  lastRefill : Nat
  bounded : tokens ≤ capacity

namespace BufferBucket

def new (now : Nat) (refillRate capacity : ℚ) : BufferBucket :=
  ⟨refillRate, capacity, capacity, now, le_rfl⟩

variable (b : BufferBucket)

def refill (now : Nat) : BufferBucket :=
  if 0 < secsBetween now b.lastRefill ∧ 0 < b.refillRate then
    { b with
      tokens := min (b.tokens + secsBetween now b.lastRefill * b.refillRate) b.capacity
      lastRefill := now
      bounded := min_le_right _ _ }
  else { b with lastRefill := now }

def updateLimits (now : Nat) (refillRate capacity : ℚ) : BufferBucket :=
  let uninitialized := b.refillRate = 0 ∧ b.capacity = 0
  let b := b.refill now
  if full : uninitialized ∨ capacity < b.tokens then ⟨refillRate, capacity, capacity, now, le_rfl⟩
  else ⟨refillRate, capacity, b.tokens, now, not_lt.mp (not_or.mp full).2⟩

def tryConsume (now cost : Nat) : Except ℚ Unit × BufferBucket :=
  let b := b.refill now
  if (cost : ℚ) ≤ b.tokens then
    (.ok (), { b with
      tokens := b.tokens - cost
      bounded := (sub_le_self _ (cast_nonneg cost)).trans b.bounded })
  else (.error b.tokens, b)

def refund (amount : Nat) : BufferBucket :=
  { b with tokens := min (b.tokens + amount) b.capacity, bounded := min_le_right _ _ }

end BufferBucket

structure AdmitFailure where
  peer : NodeId
  available : ℚ
  requested : Nat
  activeSaeCount : Nat
  capacity : ℚ

/-- The buckets per peer and SAE, with limits that follow the buffers. `lastRequest` has one entry
for each pair. -/
structure SaeBufferBuckets where
  observationWindow : Nat
  minCapacity : ℚ
  buckets : NodeId → SaeId → Option BufferBucket
  lastRequest : List ((NodeId × SaeId) × Nat)
  lastEviction : Option Nat

namespace SaeBufferBuckets

def new (observationWindow : Nat) (minCapacity : ℚ) : SaeBufferBuckets :=
  ⟨max observationWindow nanosPerSec, minCapacity, fun _ _ => none, [], none⟩

variable (s : SaeBufferBuckets)

def activeSaeCount (peer : NodeId) (now : Nat) : Nat :=
  max (s.lastRequest.countP fun ((p, _), t) => p = peer && now - t ≤ s.observationWindow) 1

def setBucket (peer : NodeId) (sae : SaeId) (b : Option BufferBucket) : SaeBufferBuckets :=
  { s with buckets := Function.update s.buckets peer (Function.update (s.buckets peer) sae b) }

def ensureBucket (peer : NodeId) (sae : SaeId) (now : Nat) : BufferBucket :=
  (s.buckets peer sae).getD (.new now 0 0)

def registerRequest (peer : NodeId) (sae : SaeId) (now : Nat) : SaeBufferBuckets :=
  { s with lastRequest := ((peer, sae), now) :: s.lastRequest.filter (·.1 ≠ (peer, sae)) }

def refund (peer : NodeId) (sae : SaeId) (amount : Nat) : SaeBufferBuckets :=
  match s.buckets peer sae with
  | some b => s.setBucket peer sae (b.refund amount)
  | none => s

def refundMany (peers : List NodeId) (sae : SaeId) (amount : Nat) : SaeBufferBuckets :=
  peers.foldl (fun s peer => s.refund peer sae amount) s

/-- At most once per window: the pairs without a request in it lose their bucket. -/
def maybeEvict (now : Nat) : SaeBufferBuckets :=
  if s.lastEviction.any fun last => now - last < s.observationWindow then s
  else
    let stale := s.lastRequest.filter fun entry => s.observationWindow < now - entry.2
    let s := { s with lastEviction := some now }
    stale.foldl (fun s entry =>
      { s.setBucket entry.1.1 entry.1.2 none with
        lastRequest := s.lastRequest.filter (·.1 ≠ entry.1) }) s

/-- Tokens of one peer: the bucket never promises more than the buffer holds. -/
def bucketLimits (rates : NodeId → Option ℚ) (peer : NodeId) (active occupancy : Nat) : ℚ × ℚ :=
  let refill := max ((rates peer).getD 0 / active) 0
  let burstFloor := refill * (s.observationWindow : ℚ) / nanosPerSec
  let capGrow := max (max burstFloor ((occupancy : ℚ) / active)) s.minCapacity
  (refill, min capGrow occupancy)

/-- The loop of `try_admit_many`. An entry of the plan is a peer with its active SAEs and the
number of keys in its buffers. -/
def admitEach (rates : NodeId → Option ℚ) (sae : SaeId) (cost now : Nat) :
    List (NodeId × Nat × Nat) → List NodeId → SaeBufferBuckets → Except AdmitFailure Unit × SaeBufferBuckets
  | [], _, s => (.ok (), s)
  | (peer, active, occupancy) :: plan, consumed, s =>
    let (refill, cap) := s.bucketLimits rates peer active occupancy
    let bucket := (s.ensureBucket peer sae now).updateLimits now refill cap
    let s := s.setBucket peer sae bucket
    if occupancy < cost then
      (.error ⟨peer, occupancy, cost, active, cap⟩, s.refundMany consumed sae cost)
    else
      match bucket.tryConsume now cost with
      | (.error available, bucket) =>
        (.error ⟨peer, available, cost, active, cap⟩,
          (s.setBucket peer sae bucket).refundMany consumed sae cost)
      | (.ok (), bucket) =>
        admitEach rates sae cost now plan (consumed ++ [peer]) (s.setBucket peer sae bucket)

def tryAdmitMany (rates : NodeId → Option ℚ) (occupancy : NodeId → Nat) (peers : List NodeId)
    (sae : SaeId) (cost now : Nat) : Except AdmitFailure Unit × SaeBufferBuckets :=
  let s := s.maybeEvict now
  let s := peers.foldl (fun s peer => s.registerRequest peer sae now) s
  let plan := peers.map fun peer => (peer, s.activeSaeCount peer now, occupancy peer)
  admitEach rates sae cost now plan [] s

variable {rates : NodeId → Option ℚ} {s : SaeBufferBuckets}

variable {sae : SaeId} {cost now : Nat}

theorem admitEach_occupancy {plan : List (NodeId × Nat × Nat)} {consumed : List NodeId}
    (admitted : (admitEach rates sae cost now plan consumed s).1.isOk) :
    ∀ entry ∈ plan, cost ≤ entry.2.2 := by
  induction plan generalizing consumed s with
  | nil => simp
  | cons entry plan ih =>
    obtain ⟨peer, active, occupancy⟩ := entry
    unfold admitEach at admitted
    dsimp only at admitted
    split at admitted
    · cases admitted
    rename_i enough
    split at admitted
    · cases admitted
    have rest := ih admitted
    intro entry member
    rcases List.mem_cons.mp member with rfl | later
    · exact Nat.le_of_not_lt enough
    · exact rest entry later

theorem tryAdmitMany_occupancy {occupancy : NodeId → Nat} {peers : List NodeId}
    (admitted : (s.tryAdmitMany rates occupancy peers sae cost now).1.isOk) :
    ∀ peer ∈ peers, cost ≤ occupancy peer := by
  intro peer member
  exact admitEach_occupancy admitted _ (List.mem_map_of_mem member)

end SaeBufferBuckets

end Dkms.Node
