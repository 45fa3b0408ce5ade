import Dkms.Link.Agreement
import Dkms.Link.Resync

namespace Dkms.Link

open Std Dkms.Core SecretStore PqcHandshake Nat List

def epochMax : Nat := 2 ^ 32 - 1

/-- Where the initiator's task stands. In an arm it keeps the epochs left to establish, the one
it is at first. -/
inductive Arm where
  | startup (left : List Nat)
  | select
  | retry (left : List Nat)
  | relink (base aim : Nat) (left : List Nat)
  deriving DecidableEq

namespace Arm

def left : Arm → List Nat
  | startup left | retry left | relink _ _ left => left
  | select => []

def isStartup : Arm → Bool
  | startup _ => true
  | _ => false

def relinkBase : Arm → Option Nat
  | relink base _ _ => some base
  | _ => none

end Arm

/-- The task that `spawn_rotation` starts at the initiator, and the link it works on. -/
structure RotationLoop where
  peers : Peers
  lookahead : UInt32
  target : Nat
  needWork : Bool
  pruneAfter : Option Nat
  arm : Arm
  /-- The block of a re-link that ended incomplete, its top as rotations have extended it.
      Nothing in the loop reads it. -/
  block : Option (Nat × Nat)

/-- What happens at any moment: the repeated INIT of a running `establish`, the network and
the other end. -/
def Act.interleaves {Seed : Type} : Act Seed → Bool
  | .sendInit | .deliverInit .. | .deliverResp .. | .restartResponder => true
  | _ => false

/-- `establish` to `timedOut` are the parts of one call of `establish`. `recent` is the verdict
of the check against `RELINK_MIN_INTERVAL`. -/
inductive LoopAct (Seed : Type) where
  | network (act : Act Seed)
  | establish (seed : Seed)
  | established
  | timedOut
  | retry
  | rotate
  | reconnect (recent : Bool)
  | resync (peerEpoch : UInt32) (recent : Bool)

namespace RotationLoop

variable {Seed : Type} (kem : Kem Seed)

def start (lookahead : UInt32) (rekeyKeys keepResponder : Nat) : RotationLoop where
  peers := .new (SecretStore.new lookahead.toNat rekeyKeys).keep keepResponder
  lookahead
  target := lookahead.toNat
  needWork := true
  pruneAfter := none
  arm := .startup (range (lookahead.toNat + 1))
  block := none

variable (l : RotationLoop)

def store : SecretStore := l.peers.initiator.store

def retryDone : RotationLoop :=
  { l with
    peers := l.pruneAfter.elim l.peers fun base => l.peers.next kem (.prune base)
    needWork := false
    pruneAfter := none
    arm := .select
    block := none }

def relinkDone (base aim : Nat) : RotationLoop :=
  { l with
    peers := l.peers.next kem (.prune base)
    target := max l.target aim
    arm := .select
    block := none }

def succeed : RotationLoop :=
  match l.arm with
  | .startup [_] => { l with needWork := false, arm := .select }
  | .startup (_ :: left) => { l with needWork := false, arm := .startup left }
  | .retry [_] => l.retryDone kem
  | .retry (_ :: left) => { l with arm := .retry left }
  | .relink base aim [_] => l.relinkDone kem base aim
  | .relink base aim (_ :: left) => { l with arm := .relink base aim left }
  | _ => l

def fail : RotationLoop :=
  match l.arm with
  | .startup _ | .retry _ => { l with arm := .select }
  | .relink base aim _ =>
    { l with
      target := max l.target aim
      pruneAfter := some (aim - l.lookahead.toNat)
      needWork := true
      arm := .select
      block := some (base, aim) }
  | .select => l

def establish (seed : Seed) : RotationLoop :=
  match l.arm.left with
  | [] => l
  | epoch :: _ =>
    if l.peers.establishing.isSome then l
    else if l.store.contains epoch then l.succeed kem
    else
      let started := { l with peers := l.peers.next kem (.start epoch seed) }
      if started.peers.establishing.isSome then started else started.fail

def established : RotationLoop :=
  match l.arm.left with
  | [] => l
  | epoch :: _ =>
    if l.peers.establishing.isSome && l.store.contains epoch then
      { l with peers := l.peers.next kem .finish }.succeed kem
    else l

def timedOut : RotationLoop :=
  match l.arm.left with
  | [] => l
  | epoch :: _ =>
    if l.peers.establishing.isSome && !l.store.contains epoch then
      { l with peers := l.peers.next kem .timeout }.fail
    else l

def missing : List Nat :=
  let first := l.store.highest.elim 0 fun h => min (h + 1) epochMax
  range' first (l.target + 1 - first)

def retry : RotationLoop :=
  if l.needWork then
    if l.missing = [] then l.retryDone kem else { l with arm := .retry l.missing }
  else l

def rotate : RotationLoop :=
  let next := l.store.highest.elim l.target fun h => min (h + 1) epochMax
  { l with
    target := max l.target next
    needWork := true
    block := l.block.map fun (base, top) => (base, max top (max l.target next)) }

def relink (peerEpoch : UInt32) (recent : Bool) : RotationLoop :=
  if recent then l
  else
    match relinkRange (l.store.highest.map UInt32.ofNat) peerEpoch l.lookahead with
    | none => l
    | some (base, aim) =>
      { l with
        arm := .relink base.toNat aim.toNat (range' base.toNat (aim.toNat + 1 - base.toNat)) }

def next : LoopAct Seed → RotationLoop
  | .network act => if act.interleaves then { l with peers := l.peers.next kem act } else l
  | .establish seed => l.establish kem seed
  | .established => l.established kem
  | .timedOut => l.timedOut kem
  | .retry => if l.arm = .select then l.retry kem else l
  | .rotate => if l.arm = .select then l.rotate else l
  | .reconnect recent => if l.arm = .select then l.relink 0 recent else l
  | .resync peerEpoch recent => if l.arm = .select then l.relink peerEpoch recent else l

def run (acts : List (LoopAct Seed)) : RotationLoop := acts.foldl (next kem) l

def fails : LoopAct Seed → Bool
  | .establish seed => l.arm.left.head?.any fun epoch =>
    l.peers.establishing.isNone && !l.store.contains epoch &&
      (l.peers.next kem (.start epoch seed)).establishing.isNone
  | .timedOut => l.arm.left.head?.any fun epoch =>
    l.peers.establishing.isSome && !l.store.contains epoch
  | _ => false

end RotationLoop

section Growth

variable {Seed : Type} {kem : Kem Seed}

/-- What the loop and the network do to the initiator's end when no epoch is pruned that the
loop still counts on. `asked` are the epochs `establish` may be called for. -/
structure Grown (h h' : PqcHandshake) (asked : List Nat) : Prop where
  keep : h'.store.keep = h.store.keep
  free : 0 < h.store.keep → h.store.free ≤ h'.store.free
  held : ∀ epoch, h'.store.contains epoch → h.store.contains epoch ∨ epoch ∈ h.pendingSk
  pending : ∀ epoch ∈ h'.pendingSk, epoch ∈ h.pendingSk ∨ epoch ∈ asked

theorem Grown.refl (h : PqcHandshake) (asked : List Nat) : Grown h h asked :=
  ⟨rfl, fun _ => Nat.le_refl _, fun _ => .inl, fun _ => .inl⟩

variable {asked : List Nat}

theorem grown_establishKey (h : PqcHandshake) (epoch : Nat) (seed : Seed)
    (member : epoch ∈ asked) : Grown h (h.establishKey kem epoch seed).1 asked := by
  have same := establishKey_store kem h epoch seed
  refine ⟨by rw [same], fun _ => by rw [same], fun k held => .inl (by rwa [same] at held), ?_⟩
  intro k pending
  unfold establishKey at pending
  dsimp only at pending
  split at pending
  · exact .inl pending
  split at pending
  · exact .inl pending
  simp only [TreeMap.mem_insert, Nat.compare_eq_eq] at pending
  rcases pending with rfl | old
  · exact .inr member
  · exact .inl old

theorem grown_establishDone (h : PqcHandshake) (epoch : Nat) (asked : List Nat) :
    Grown h (h.establishDone epoch) asked :=
  ⟨rfl, fun _ => Nat.le_refl _, fun _ => .inl, fun _ pending => .inl (TreeMap.mem_of_mem_erase pending)⟩

theorem grown_handleResp (h : PqcHandshake) (epoch : Nat) (ciphertext : Bytes) (asked : List Nat) :
    Grown h (h.handleResp kem epoch ciphertext) asked := by
  obtain ⟨pending, -, stored⟩ := @PqcHandshake.handleResp_effect Seed kem h epoch ciphertext
  have written : ∀ ss, (h.publish epoch ss).store.keep = h.store.keep ∧
      (0 < h.store.keep → h.store.free ≤ (h.publish epoch ss).store.free) := by
    intro ss
    unfold publish publishInner
    split
    · exact ⟨rfl, fun _ => Nat.le_refl _⟩
    · exact ⟨insert_keep, free_le_insert⟩
  have grows : (h.handleResp kem epoch ciphertext).store.keep = h.store.keep ∧
      (0 < h.store.keep → h.store.free ≤ (h.handleResp kem epoch ciphertext).store.free) := by
    unfold handleResp
    split
    · exact ⟨rfl, fun _ => Nat.le_refl _⟩
    split
    · exact ⟨rfl, fun _ => Nat.le_refl _⟩
    split
    · exact written _
    · exact ⟨rfl, fun _ => Nat.le_refl _⟩
  refine ⟨grows.1, grows.2, ?_, ?_⟩
  · intro k held
    rw [contains_iff, Option.isSome_iff_exists] at held
    obtain ⟨s, held⟩ := held
    rcases stored k s held with old | ⟨rfl, -, sk, waiting, -⟩
    · left
      rw [contains_iff, old]
      rfl
    · right
      rw [TreeMap.mem_iff_isSome_getElem?, waiting]
      rfl
  · intro k waiting
    rw [pending] at waiting
    exact .inl waiting

def Act.Grows (asked : List Nat) : Act Seed → Prop
  | .start epoch _ => epoch ∈ asked
  | .prune _ | .restartInitiator => False
  | _ => True

variable {act : Act Seed}

theorem Peers.next_grown (l : Peers) (grows : act.Grows asked) :
    Grown l.initiator (l.next kem act).initiator asked := by
  cases act with
  | start epoch seed =>
    show Grown l.initiator (l.start kem epoch seed).initiator asked
    unfold Peers.start
    split
    · exact .refl _ _
    · exact grown_establishKey _ epoch seed grows
  | sendInit =>
    show Grown l.initiator l.sendInit.initiator asked
    unfold Peers.sendInit
    split
    · split <;> exact .refl _ _
    · exact .refl _ _
  | finish =>
    show Grown l.initiator l.finish.initiator asked
    unfold Peers.finish
    split
    · split
      · exact grown_establishDone _ _ _
      · exact .refl _ _
    · exact .refl _ _
  | deliverInit epoch pubkey seed =>
    show Grown l.initiator (l.deliverInit kem epoch pubkey seed).initiator asked
    unfold Peers.deliverInit
    split <;> exact .refl _ _
  | deliverResp epoch ciphertext =>
    show Grown l.initiator (l.deliverResp kem epoch ciphertext).initiator asked
    unfold Peers.deliverResp
    split
    · exact grown_handleResp _ _ _ _
    · exact .refl _ _
  | timeout => exact .refl _ _
  | restartResponder => exact .refl _ _
  | _ => exact grows.elim

theorem Act.grows_of_interleaves (interleaves : act.interleaves) (asked : List Nat) :
    act.Grows asked := by
  cases act <;> simp_all [Act.interleaves, Act.Grows]

theorem Peers.finish_store (l : Peers) : l.finish.initiator.store = l.initiator.store := by
  unfold Peers.finish
  split
  · split <;> rfl
  · rfl

variable {l : Peers} {base : Nat}

theorem Peers.free_prune (below : base < l.initiator.store.free) :
    (l.next kem (.prune base)).initiator.store.free = l.initiator.store.free := by
  simp only [Peers.next]
  split
  · rfl
  · exact free_pruneBelow below

theorem Grown.prune {h : PqcHandshake}
    (grown : Grown h l.initiator asked) (below : base < l.initiator.store.free) :
    Grown h (l.next kem (.prune base)).initiator asked := by
  have same : (l.next kem (.prune base)).initiator.store.free = l.initiator.store.free :=
    Peers.free_prune below
  simp only [Peers.next]
  split
  · exact grown
  rename_i idle
  simp only [Peers.next, if_neg idle] at same
  refine ⟨grown.keep, fun room => ?_, ?_, ?_⟩
  · rw [same]
    exact grown.free room
  · intro k held
    apply grown.held
    rw [contains_iff, Option.isSome_iff_exists] at held ⊢
    obtain ⟨s, held⟩ := held
    exact ⟨s, get_pruneBelow held⟩
  · exact fun k waiting => grown.pending k (SlidingMap.mem_dropBelow.mp waiting).2

end Growth

namespace RotationLoop

variable {Seed : Type} {kem : Kem Seed} {l : RotationLoop}

theorem first_eq_min (st : SecretStore) :
    (st.highest.elim 0 fun h => min (h + 1) epochMax) = min st.free epochMax := by
  unfold free
  cases st.highest with
  | none => exact (zero_min _).symm
  | some h => rfl

variable {epoch : Nat}

theorem mem_missing (member : epoch ∈ l.missing) :
    min l.store.free epochMax ≤ epoch ∧ epoch ≤ l.target := by
  simp only [missing, first_eq_min, mem_range'_1] at member
  omega

theorem reached_of_missing_nil (nothing : l.missing = []) : l.target < l.store.free := by
  simp only [missing, first_eq_min, range'_eq_nil_iff] at nothing
  omega

theorem missing_getLast (some : l.missing ≠ []) : l.missing.getLast? = .some l.target := by
  simp only [missing, ne_eq, range'_eq_nil_iff] at some
  simp only [missing, getLast?_range', if_neg some]
  congr 1
  omega

structure Placed (l : RotationLoop) : Prop where
  room : 0 < l.store.keep
  prunes : ∀ base ∈ l.pruneAfter, base ≤ l.target
  last : match l.arm with
    | .startup left | .retry left => left.getLast? = some l.target
    | .relink base aim left => base ≤ aim ∧ left.getLast? = some aim
    | .select => True

/-- What one step does to the loop, whose link becomes `peers`. `failing` tells whether it makes
a call of `establish` return `false`. -/
inductive Effect (l : RotationLoop) (failing : Bool) (peers : Peers) : RotationLoop → Prop where
  | waits : Effect l failing peers { l with peers }
  | startupGoesOn {epoch : Nat} {left : List Nat} (arm : l.arm = .startup (epoch :: left))
      (more : left ≠ []) :
      Effect l failing peers { l with peers, needWork := false, arm := .startup left }
  | startupDone {left : List Nat} (arm : l.arm = .startup left)
      (reached : l.target < peers.initiator.store.free) :
      Effect l failing peers { l with peers, needWork := false, arm := .select }
  | startupFails {left : List Nat} (arm : l.arm = .startup left) (fails : failing = true) :
      Effect l failing peers { l with peers, arm := .select }
  | retryBegins (arm : l.arm = .select) (work : l.needWork = true) (some : l.missing ≠ []) :
      Effect l failing peers { l with peers, arm := .retry l.missing }
  | retryGoesOn {epoch : Nat} {left : List Nat} (arm : l.arm = .retry (epoch :: left))
      (more : left ≠ []) : Effect l failing peers { l with peers, arm := .retry left }
  | retryDone (reached : l.target < peers.initiator.store.free) :
      Effect l failing peers
        { l with peers, needWork := false, pruneAfter := none, arm := .select, block := none }
  | retryFails {left : List Nat} (arm : l.arm = .retry left) (fails : failing = true) :
      Effect l failing peers { l with peers, arm := .select }
  | rotates (arm : l.arm = .select) : Effect l failing peers { l.rotate with peers }
  | relinkBegins (arm : l.arm = .select) {peerEpoch base aim : UInt32}
      (range : relinkRange (l.store.highest.map UInt32.ofNat) peerEpoch l.lookahead = some (base, aim)) :
      Effect l failing peers { l with
        peers
        arm := .relink base.toNat aim.toNat (range' base.toNat (aim.toNat + 1 - base.toNat)) }
  | relinkGoesOn {base aim epoch : Nat} {left : List Nat}
      (arm : l.arm = .relink base aim (epoch :: left)) (more : left ≠ []) :
      Effect l failing peers { l with peers, arm := .relink base aim left }
  | relinkDone {base aim : Nat} {left : List Nat} (arm : l.arm = .relink base aim left)
      (reached : aim < peers.initiator.store.free) :
      Effect l failing peers
        { l with peers, target := max l.target aim, arm := .select, block := none }
  | relinkFails {base aim : Nat} {left : List Nat} (arm : l.arm = .relink base aim left)
      (fails : failing = true) :
      Effect l failing peers { l with
        peers
        target := max l.target aim
        pruneAfter := some (aim - l.lookahead.toNat)
        needWork := true
        arm := .select
        block := some (base, aim) }

variable {failing : Bool} {peers : Peers}

theorem retryDone_effect (placed : l.Placed)
    (grown : Grown l.peers.initiator peers.initiator l.arm.left)
    (reached : l.target < peers.initiator.store.free) :
    ∃ peers', Grown l.peers.initiator peers'.initiator l.arm.left ∧
      Effect l failing peers' ({ l with peers }.retryDone kem) := by
  cases prune : l.pruneAfter with
  | none =>
    refine ⟨peers, grown, ?_⟩
    simpa [RotationLoop.retryDone] using Effect.retryDone reached
  | some base =>
    have below : base < peers.initiator.store.free := Nat.lt_of_le_of_lt (placed.prunes base prune) reached
    have same : (peers.next kem (.prune base)).initiator.store.free = peers.initiator.store.free :=
      Peers.free_prune below
    refine ⟨peers.next kem (.prune base), grown.prune below, ?_⟩
    simpa [RotationLoop.retryDone] using Effect.retryDone (same ▸ reached)

theorem succeed_effect (placed : l.Placed)
    {rest : List Nat} (grown : Grown l.peers.initiator peers.initiator l.arm.left)
    (left : l.arm.left = epoch :: rest) (held : peers.initiator.store.contains epoch) :
    ∃ peers', Grown l.peers.initiator peers'.initiator l.arm.left ∧
      Effect l failing peers' ({ l with peers }.succeed kem) := by
  have reached := lt_free held
  have last := placed.last
  cases arm : l.arm with
  | startup epochs =>
    obtain rfl : epochs = epoch :: rest := by simpa [arm, Arm.left] using left
    refine ⟨peers, arm ▸ grown, ?_⟩
    cases rest with
    | nil =>
      obtain rfl : epoch = l.target := by simpa [arm] using last
      simpa [succeed] using Effect.startupDone arm reached
    | cons following rest => simpa [succeed] using Effect.startupGoesOn arm (by simp)
  | retry epochs =>
    obtain rfl : epochs = epoch :: rest := by simpa [arm, Arm.left] using left
    cases rest with
    | nil =>
      obtain rfl : epoch = l.target := by simpa [arm] using last
      have done : { l with peers }.succeed kem = { l with peers }.retryDone kem := by
        simp [succeed, arm]
      rw [← arm, done]
      exact retryDone_effect placed grown reached
    | cons following rest =>
      refine ⟨peers, arm ▸ grown, ?_⟩
      simpa [succeed] using Effect.retryGoesOn arm (by simp)
  | relink base aim epochs =>
    obtain rfl : epochs = epoch :: rest := by simpa [arm, Arm.left] using left
    cases rest with
    | nil =>
      obtain ⟨order, rfl⟩ : base ≤ aim ∧ epoch = aim := by simpa [arm] using last
      have below : base < peers.initiator.store.free := by omega
      have same : (peers.next kem (.prune base)).initiator.store.free =
          peers.initiator.store.free := Peers.free_prune below
      refine ⟨peers.next kem (.prune base), arm ▸ grown.prune below, ?_⟩
      simpa [succeed, RotationLoop.relinkDone] using Effect.relinkDone arm (same ▸ reached)
    | cons following rest =>
      refine ⟨peers, arm ▸ grown, ?_⟩
      simpa [succeed] using Effect.relinkGoesOn arm (by simp)
  | select => simp [arm, Arm.left] at left

theorem fail_effect (fails : failing = true) (peers : Peers) :
    Effect l failing peers { l with peers }.fail := by
  cases arm : l.arm with
  | startup left => simpa [fail] using Effect.startupFails arm fails
  | retry left => simpa [fail] using Effect.retryFails arm fails
  | relink base aim left => simpa [fail] using Effect.relinkFails arm fails
  | select =>
    have same : { l with peers }.fail = { l with peers } := by simp [fail, arm]
    rw [← arm, same]
    exact .waits

theorem relink_effect (arm : l.arm = .select) (failing : Bool) (peerEpoch : UInt32) (recent : Bool) :
    Effect l failing l.peers (l.relink peerEpoch recent) := by
  unfold relink
  split
  · exact .waits
  split
  · exact .waits
  · rename_i range
    exact .relinkBegins arm range

theorem next_effect (placed : l.Placed) (act : LoopAct Seed) :
    ∃ peers, Grown l.peers.initiator peers.initiator l.arm.left ∧
      Effect l (l.fails kem act) peers (l.next kem act) := by
  have still : Grown l.peers.initiator l.peers.initiator l.arm.left := .refl _ _
  cases act with
  | network act =>
    simp only [next]
    split
    · rename_i interleaves
      exact ⟨_, l.peers.next_grown (Act.grows_of_interleaves interleaves _), .waits⟩
    · exact ⟨_, still, .waits⟩
  | establish seed =>
    show ∃ peers, _ ∧ Effect l _ peers (l.establish kem seed)
    unfold establish
    split
    · exact ⟨_, still, .waits⟩
    rename_i epoch rest left
    split
    · exact ⟨_, still, .waits⟩
    split
    · rename_i held
      exact succeed_effect placed still left held
    have grown : Grown l.peers.initiator (l.peers.next kem (.start epoch seed)).initiator l.arm.left :=
      l.peers.next_grown (show epoch ∈ l.arm.left by simp [left])
    refine ⟨_, grown, ?_⟩
    dsimp only
    split
    · exact .waits
    apply fail_effect
    simp_all [fails]
  | established =>
    show ∃ peers, _ ∧ Effect l _ peers (l.established kem)
    unfold established
    split
    · exact ⟨_, still, .waits⟩
    rename_i epoch rest left
    split
    · rename_i held
      have grown : Grown l.peers.initiator (l.peers.next kem .finish).initiator l.arm.left :=
        l.peers.next_grown trivial
      have same : (l.peers.next kem .finish).initiator.store = l.store := l.peers.finish_store
      simp only [Bool.and_eq_true] at held
      exact succeed_effect placed grown left (by rw [same]; exact held.2)
    · exact ⟨_, still, .waits⟩
  | timedOut =>
    show ∃ peers, _ ∧ Effect l _ peers (l.timedOut kem)
    unfold timedOut
    split
    · exact ⟨_, still, .waits⟩
    rename_i epoch rest left
    split
    · rename_i late
      have grown : Grown l.peers.initiator (l.peers.next kem .timeout).initiator l.arm.left :=
        l.peers.next_grown trivial
      refine ⟨_, grown, fail_effect ?_ _⟩
      simpa [fails, left] using late
    · exact ⟨_, still, .waits⟩
  | retry =>
    simp only [next]
    split
    · rename_i idle
      unfold retry
      split
      · rename_i work
        split
        · rename_i nothing
          exact retryDone_effect placed still (reached_of_missing_nil nothing)
        · rename_i some
          exact ⟨_, still, .retryBegins idle work some⟩
      · exact ⟨_, still, .waits⟩
    · exact ⟨_, still, .waits⟩
  | rotate =>
    simp only [next]
    split
    · rename_i idle
      exact ⟨_, still, .rotates idle⟩
    · exact ⟨_, still, .waits⟩
  | _ =>
    simp only [next]
    split
    · rename_i idle
      exact ⟨_, still, relink_effect idle _ _ _⟩
    · exact ⟨_, still, .waits⟩

theorem start_placed (lookahead : UInt32) (rekeyKeys keepResponder : Nat) :
    (start lookahead rekeyKeys keepResponder).Placed := by
  refine ⟨?_, by simp [start], ?_⟩
  · show 0 < lookahead.toNat + 1 + _
    omega
  · show (range (lookahead.toNat + 1)).getLast? = some lookahead.toNat
    simp [range_succ]

theorem Placed.effect (placed : l.Placed) {l' : RotationLoop}
    (grown : Grown l.peers.initiator peers.initiator l.arm.left)
    (effect : Effect l failing peers l') : l'.Placed := by
  obtain ⟨room, prunes, last⟩ := placed
  have room : 0 < peers.initiator.store.keep := by
    rw [grown.keep]
    exact room
  cases effect with
  | waits => exact ⟨room, prunes, last⟩
  | startupGoesOn arm more =>
    refine ⟨room, prunes, ?_⟩
    simpa [arm, getLast?_cons_of_ne_nil more] using last
  | retryBegins arm work some => exact ⟨room, prunes, missing_getLast some⟩
  | retryGoesOn arm more =>
    refine ⟨room, prunes, ?_⟩
    simpa [arm, getLast?_cons_of_ne_nil more] using last
  | retryDone reached => exact ⟨room, by simp, trivial⟩
  | rotates arm =>
    refine ⟨room, fun base member => ?_, ?_⟩
    · exact (prunes base member).trans (le_max_left _ _)
    · simp [rotate, arm]
  | relinkBegins arm range =>
    obtain ⟨-, finish, -⟩ := relinkRange_spec range
    refine ⟨room, prunes, by omega, ?_⟩
    rw [getLast?_range', if_neg (by omega)]
    congr 1
    omega
  | relinkGoesOn arm more =>
    refine ⟨room, prunes, ?_⟩
    simpa [arm, getLast?_cons_of_ne_nil more] using last
  | relinkDone arm reached =>
    exact ⟨room, fun base member => (prunes base member).trans (le_max_left _ _), trivial⟩
  | relinkFails arm fails =>
    refine ⟨room, ?_, trivial⟩
    simp only [Option.mem_def, Option.some.injEq]
    omega
  | _ => exact ⟨room, prunes, trivial⟩

end RotationLoop

end Dkms.Link
