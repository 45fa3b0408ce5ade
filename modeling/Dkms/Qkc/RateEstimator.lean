import Dkms.Core.Count
import Dkms.Core.Runs

namespace Dkms.Qkc

open Dkms.Core

def windowMinKeys : ℚ := 256
def windowMaxSecs : ℚ := 10
def horizonSecs : ℚ := 30
def shortMinSecs : ℚ := 5
def snapDeviation : ℚ := 1 / 4
def runDownLimit : Nat := 3
def runUpLimit : Nat := 6
def ceilingGuardMin : Nat := 8
def maxSampleGapSecs : ℚ := 30

def secsSince (now since : Nat) : ℚ := ((now - since : Nat) : ℚ) / 10 ^ 9

structure StockPoint where
  stored : Nat
  pulledTotal : Nat
  instant : Nat
  deriving DecidableEq

structure WindowRec where
  keys : ℚ
  secs : ℚ
  instant : Nat
  deriving DecidableEq

/-- The state behind the mutex. `ring` has the old windows in front. -/
structure EstimatorInner where
  last : Option StockPoint
  winKeys : ℚ
  winSecs : ℚ
  ring : List WindowRec
  est : Option ℚ
  lastValidAt : Option Nat
  runDown : Nat
  runUp : Nat
  errStreak : Nat
  deriving DecidableEq

def sums (ring : List WindowRec) : ℚ × ℚ :=
  ring.foldl (fun (keys, secs) window => (keys + window.keys, secs + window.secs)) (0, 0)

/-- The loop over the newest windows, which come first here: how many of them make up
`SHORT_MIN_SECS`, with their keys and seconds. -/
def shortSpan : List WindowRec → Nat → ℚ → ℚ → Nat × ℚ × ℚ
  | [], n, keys, secs => (n, keys, secs)
  | window :: older, n, keys, secs =>
    let keys := keys + window.keys
    let secs := secs + window.secs
    if shortMinSecs ≤ secs then (n + 1, keys, secs) else shortSpan older (n + 1) keys secs

namespace EstimatorInner

variable (g : EstimatorInner)

def default : EstimatorInner := ⟨none, 0, 0, [], none, none, 0, 0, 0⟩

def resetWindow : EstimatorInner := { g with winKeys := 0, winSecs := 0 }

def countRuns (short long : ℚ) : EstimatorInner :=
  if short < long * (1 - snapDeviation) then { g with runDown := g.runDown + 1, runUp := 0 }
  else if long * (1 + snapDeviation) < short then { g with runUp := g.runUp + 1, runDown := 0 }
  else { g with runDown := 0, runUp := 0 }

def publish (est : ℚ) (now : Nat) : EstimatorInner :=
  { g with est := some est, lastValidAt := some now }

def acceptWindow (keys secs : ℚ) (now : Nat) : EstimatorInner :=
  let ring := (g.ring ++ [WindowRec.mk keys secs now]).dropWhile
    fun front => horizonSecs < secsSince now front.instant
  let g := { g with ring }
  let (longKeys, longSecs) := sums ring
  if longSecs ≤ 0 then g
  else
    let long := longKeys / longSecs
    let (nShort, shortKeys, shortSecs) := shortSpan ring.reverse 0 0 0
    let short := if 0 < shortSecs then shortKeys / shortSecs else long
    if shortSecs + 1 / 10 ^ 9 < longSecs then
      let g := g.countRuns short long
      if runDownLimit ≤ g.runDown ∨ runUpLimit ≤ g.runUp then
        -- the level changed: only the short span stays
        { g with ring := ring.drop (ring.length - nShort), runDown := 0, runUp := 0 }.publish
          short now
      else g.publish long now
    else { g with runDown := 0, runUp := 0 }.publish long now

def contribute (contrib dt : ℚ) (now : Nat) : EstimatorInner :=
  let g := { g with winKeys := g.winKeys + contrib, winSecs := g.winSecs + dt }
  if windowMinKeys ≤ g.winKeys ∨ windowMaxSecs ≤ g.winSecs then
    let closed := if 0 < g.winSecs then g.acceptWindow (max g.winKeys 0) g.winSecs now else g
    closed.resetWindow
  else g

variable {g}

@[simp] theorem resetWindow_last : g.resetWindow.last = g.last := rfl

@[simp] theorem publish_last (est : ℚ) (now : Nat) : (g.publish est now).last = g.last := rfl

@[simp] theorem countRuns_last (short long : ℚ) : (g.countRuns short long).last = g.last := by
  unfold countRuns
  split_ifs <;> rfl

@[simp] theorem acceptWindow_last (keys secs : ℚ) (now : Nat) :
    (g.acceptWindow keys secs now).last = g.last := by
  simp only [acceptWindow, apply_ite last, publish_last, countRuns_last, ite_self]

@[simp] theorem contribute_last (contrib dt : ℚ) (now : Nat) :
    (g.contribute contrib dt now).last = g.last := by
  simp only [contribute, apply_ite last, resetWindow_last, acceptWindow_last, ite_self]

end EstimatorInner

def ceilingGuard (est : Option ℚ) (dt : ℚ) (maxKeys : Nat) : Nat :=
  let byRate := (est.elim 0 fun e => e * dt * (3 / 2)).floor.toNat
  min (max byRate ceilingGuardMin) (maxKeys / 4)

structure StockPoll where
  stored : Nat
  maxKeys : Nat
  now : Nat
  deriving DecidableEq

structure RateEstimator where
  pulled : Nat
  inner : EstimatorInner
  deriving DecidableEq

inductive Drain where
  | delivered (n : Nat)
  | peerDrained (n : Nat)
  | shortfall (n : Nat)
  deriving DecidableEq

namespace RateEstimator

variable (e : RateEstimator)

def new : RateEstimator := ⟨0, .default⟩

def onDelivered (n : Nat) : RateEstimator := { e with pulled := e.pulled + n }

def onPeerDrained (n : Nat) : RateEstimator := { e with pulled := e.pulled + n }

def onPeerDrainedShortfall (n : Nat) : RateEstimator := { e with pulled := e.pulled - n }

/-- Whether the interval since the last poll counts: it is neither empty nor too long, and the
stock was away from the ceiling at both its ends. -/
def uncensored (prev : StockPoint) (poll : StockPoll) : Bool :=
  let dt := secsSince poll.now prev.instant
  let guard := ceilingGuard e.inner.est dt poll.maxKeys
  !(dt ≤ 0 || maxSampleGapSecs < dt) &&
    !(poll.maxKeys ≤ poll.stored + guard || poll.maxKeys ≤ prev.stored + guard)

def pulledSince (prev : StockPoint) : Nat := e.pulled - prev.pulledTotal

def onStock (poll : StockPoll) : RateEstimator :=
  let g := { e.inner with
    errStreak := 0
    last := some ⟨poll.stored, e.pulled, poll.now⟩ }
  match e.inner.last with
  | none => { e with inner := g }
  | some prev =>
    if e.uncensored prev poll then
      let contrib := (poll.stored : ℚ) - prev.stored + e.pulledSince prev
      { e with inner := g.contribute contrib (secsSince poll.now prev.instant) poll.now }
    else { e with inner := g.resetWindow }

def drain : Drain → RateEstimator
  | .delivered n => e.onDelivered n
  | .peerDrained n => e.onPeerDrained n
  | .shortfall n => e.onPeerDrainedShortfall n

end RateEstimator

namespace Drain

def net : Drain → ℤ
  | .delivered n | .peerDrained n => n
  | .shortfall n => -n

def announced (standing : Nat) : Drain → Nat
  | .delivered _ => standing
  | .peerDrained n => standing + n
  | .shortfall n => standing - n

def Corrects (standing : Nat) : Drain → Prop
  | .shortfall n => n ≤ standing
  | _ => True

instance (standing : Nat) : DecidablePred (Corrects standing)
  | .shortfall n => inferInstanceAs (Decidable (n ≤ standing))
  | .delivered _ | .peerDrained _ => .isTrue trivial

end Drain

structure StockInterval where
  drains : List Drain
  poll : StockPoll

def StockInterval.net (interval : StockInterval) : ℤ := (interval.drains.map Drain.net).sum

namespace RateEstimator

variable (e : RateEstimator)

def drainAll (drains : List Drain) : RateEstimator := drains.foldl drain e

def pass (interval : StockInterval) : RateEstimator :=
  (e.drainAll interval.drains).onStock interval.poll

def pulledCount (poll : StockPoll) : Option Nat :=
  match e.inner.last with
  | none => none
  | some prev => if e.uncensored prev poll then some (e.pulledSince prev) else none

def pulledCounts : RateEstimator → List StockInterval → List Nat
  | _, [] => []
  | e, interval :: rest =>
    ((e.drainAll interval.drains).pulledCount interval.poll).toList ++ pulledCounts (e.pass interval) rest

def Uncensored (intervals : List StockInterval) : Prop :=
  Follows pass (fun e interval => ((e.drainAll interval.drains).pulledCount interval.poll).isSome) e intervals

instance (intervals : List StockInterval) : Decidable (e.Uncensored intervals) :=
  inferInstanceAs (Decidable (Follows ..))

variable {e}

variable {standing : Nat}

@[simp] theorem drain_inner (d : Drain) : (e.drain d).inner = e.inner := by
  cases d <;> rfl

@[simp] theorem drainAll_inner (drains : List Drain) : (e.drainAll drains).inner = e.inner := by
  induction drains generalizing e with
  | nil => rfl
  | cons d drains ih => exact (ih (e := e.drain d)).trans (drain_inner d)

@[simp] theorem onStock_pulled (poll : StockPoll) : (e.onStock poll).pulled = e.pulled := by
  unfold onStock
  split
  · rfl
  · split <;> rfl

@[simp] theorem onStock_last (poll : StockPoll) :
    (e.onStock poll).inner.last = some ⟨poll.stored, e.pulled, poll.now⟩ := by
  unfold onStock
  split
  · rfl
  split
  · rw [EstimatorInner.contribute_last]
  · rfl

theorem drain_pulled {d : Drain} (within : standing ≤ e.pulled)
    (corrects : d.Corrects standing) :
    ((e.drain d).pulled : ℤ) = e.pulled + d.net ∧ d.announced standing ≤ (e.drain d).pulled := by
  cases d with
  | delivered n => exact ⟨by simp [drain, onDelivered, Drain.net], Nat.le_add_right_of_le within⟩
  | peerDrained n =>
    exact ⟨by simp [drain, onPeerDrained, Drain.net], Nat.add_le_add_right within n⟩
  | shortfall n =>
    simp only [drain, onPeerDrainedShortfall, Drain.net, Drain.announced, Drain.Corrects] at corrects ⊢
    omega

theorem drainAll_pulled {drains : List Drain} (within : standing ≤ e.pulled)
    (corrects : Follows Drain.announced Drain.Corrects standing drains) :
    ((e.drainAll drains).pulled : ℤ) = e.pulled + (drains.map Drain.net).sum ∧
      drains.foldl Drain.announced standing ≤ (e.drainAll drains).pulled := by
  induction drains generalizing e standing with
  | nil => simpa [drainAll] using within
  | cons d drains ih =>
    obtain ⟨moved, within'⟩ := drain_pulled within corrects.1
    obtain ⟨total, still⟩ := ih within' corrects.2
    have first : e.drainAll (d :: drains) = (e.drain d).drainAll drains := rfl
    rw [first, List.map_cons, List.sum_cons, total, moved]
    exact ⟨by ring, still⟩

theorem pulledCounts_eq {intervals : List StockInterval} {prev : StockPoint}
    (last : e.inner.last = some prev) (anchored : prev.pulledTotal = e.pulled)
    (within : standing ≤ e.pulled)
    (corrects : Follows Drain.announced Drain.Corrects standing (intervals.flatMap StockInterval.drains))
    (uncensored : e.Uncensored intervals) :
    e.pulledCounts intervals = intervals.map fun interval => interval.net.toNat := by
  induction intervals generalizing e standing prev with
  | nil => rfl
  | cons interval rest ih =>
    rw [List.flatMap_cons, follows_append] at corrects
    obtain ⟨total, within'⟩ := drainAll_pulled within corrects.1
    have drained : (e.drainAll interval.drains).inner.last = some prev := by
      rw [drainAll_inner, last]
    have count : (e.drainAll interval.drains).pulledCount interval.poll
        = some interval.net.toNat := by
      have counted := uncensored.1
      simp only [pulledCount, drained] at counted ⊢
      split at counted
      · rw [if_pos ‹_›, pulledSince, StockInterval.net]
        congr 1
        omega
      · cases counted
    have after : (e.pass interval).pulled = (e.drainAll interval.drains).pulled :=
      onStock_pulled interval.poll
    have rests := ih (e := e.pass interval) (onStock_last interval.poll) after.symm (within'.trans_eq after.symm)
      corrects.2 uncensored.2
    rw [pulledCounts, count, rests]
    rfl

/-- The counts of the polls add up to what was really drained between the first and the last of
them exactly when no interval takes back more than it adds. -/
theorem pulled_counts_net (before : List Drain) (first : StockPoll) (intervals : List StockInterval)
    (corrects : Follows Drain.announced Drain.Corrects 0 (before ++ intervals.flatMap StockInterval.drains))
    (uncensored : (new.pass ⟨before, first⟩).Uncensored intervals) :
    (((new.pass ⟨before, first⟩).pulledCounts intervals).sum : ℤ)
        = (intervals.map StockInterval.net).sum ↔
      ∀ interval ∈ intervals, 0 ≤ interval.net := by
  rw [follows_append] at corrects
  obtain ⟨-, within⟩ := drainAll_pulled (e := new) (Nat.zero_le _) corrects.1
  have counts := pulledCounts_eq (onStock_last first) (onStock_pulled first).symm
    (within.trans_eq (onStock_pulled first).symm) corrects.2 uncensored
  have sums := @sum_toNat_eq_sum_iff (intervals.map StockInterval.net)
  rw [List.map_map, List.forall_mem_map] at sums
  rw [← sums]
  exact iff_of_eq (congrArg (fun counts : List Nat => (counts.sum : ℤ) = _) counts)

def quietPoll (sec : Nat) : StockPoll := ⟨100, 10000, sec * 10 ^ 9⟩

/-- Ten announced keys turn out to be four in the interval of the announcement. -/
theorem pulled_counts_net_corrected : ((new.pass ⟨[.peerDrained 3], quietPoll 0⟩).pulledCounts
      [⟨[.delivered 2, .peerDrained 10, .shortfall 6], quietPoll 1⟩,
        ⟨[.delivered 5, .shortfall 3], quietPoll 2⟩]).sum = (8 : ℤ) :=
  (pulled_counts_net [.peerDrained 3] (quietPoll 0)
    [⟨[.delivered 2, .peerDrained 10, .shortfall 6], quietPoll 1⟩,
      ⟨[.delivered 5, .shortfall 3], quietPoll 2⟩]
    (by decide) (by decide +kernel)).mpr (by decide)

/-- Ten invented ids are taken back one poll later: the estimate keeps them. -/
theorem invented_ids_counted :
    let announce : StockInterval := ⟨[.peerDrained 10], quietPoll 1⟩
    let takeBack : StockInterval := ⟨[.shortfall 10], quietPoll 2⟩
    Follows Drain.announced Drain.Corrects 0 (announce.drains ++ takeBack.drains) ∧
      (new.pass ⟨[], quietPoll 0⟩).Uncensored [announce, takeBack] ∧
      (new.pass ⟨[], quietPoll 0⟩).pulledCounts [announce, takeBack] = [10, 0] ∧
      announce.net + takeBack.net = 0 := by
  decide +kernel

end RateEstimator

end Dkms.Qkc
