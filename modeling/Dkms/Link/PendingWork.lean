import Dkms.Link.RotationLoop

namespace Dkms.Link

open Std Dkms.Core SecretStore

def Arm.retrying : Arm → List Nat
  | .retry left => left
  | _ => []

namespace RotationLoop

variable {Seed : Type} {kem : Kem Seed} {l : RotationLoop}

def StartsWhole (kem : Kem Seed) (l : RotationLoop) (act : LoopAct Seed) : Prop :=
  l.fails kem act → l.arm.isStartup → l.needWork = true

/-- A re-link only ends incomplete once its block touches the epochs of the store. -/
def RelinkAdjoins (kem : Kem Seed) (l : RotationLoop) (act : LoopAct Seed) : Prop :=
  l.fails kem act → ∀ base ∈ l.arm.relinkBase, base ≤ l.store.free

instance (act : LoopAct Seed) : Decidable (StartsWhole kem l act) :=
  inferInstanceAs (Decidable (_ → _ → _))

instance (act : LoopAct Seed) : Decidable (RelinkAdjoins kem l act) :=
  inferInstanceAs (Decidable (_ → ∀ base ∈ _, _))

section Remembering

def Pending (l : RotationLoop) : Prop := l.store.free ≤ l.target → l.needWork = true

structure Remembers (l : RotationLoop) : Prop extends Placed l where
  pending : l.arm.isStartup = false → l.Pending
  retrying : ∀ left, l.arm = .retry left → l.needWork = true

theorem Remembers.effect (remembers : l.Remembers) {l' : RotationLoop} {failing : Bool}
    {peers : Peers} (grown : Grown l.peers.initiator peers.initiator l.arm.left)
    (effect : Effect l failing peers l')
    (whole : failing = true → l.arm.isStartup → l.needWork = true) : l'.Remembers := by
  have placed : l'.Placed := remembers.toPlaced.effect grown effect
  have free : l.store.free ≤ peers.initiator.store.free := grown.free remembers.room
  obtain ⟨-, pending, retrying⟩ := remembers
  have kept : l.arm.isStartup = false → peers.initiator.store.free ≤ l.target → l.needWork = true :=
    fun running short => pending running (free.trans short)
  cases effect with
  | waits => exact ⟨placed, kept, retrying⟩
  | startupGoesOn arm more => exact ⟨placed, by simp [Arm.isStartup], by simp⟩
  | startupDone arm reached =>
    exact ⟨placed, fun _ short => absurd short (Nat.not_le.mpr reached), by simp⟩
  | startupFails arm fails =>
    exact ⟨placed, fun _ _ => whole fails (by simp [arm, Arm.isStartup]), by simp⟩
  | retryBegins arm work some => exact ⟨placed, fun _ _ => work, fun _ _ => work⟩
  | retryGoesOn arm more =>
    have work := retrying _ arm
    exact ⟨placed, fun _ _ => work, fun _ _ => work⟩
  | retryDone reached =>
    exact ⟨placed, fun _ short => absurd short (Nat.not_le.mpr reached), by simp⟩
  | retryFails arm fails => exact ⟨placed, fun _ _ => retrying _ arm, by simp⟩
  | relinkBegins arm range =>
    exact ⟨placed, fun _ => kept (by simp [arm, Arm.isStartup]), by simp⟩
  | relinkGoesOn arm more =>
    exact ⟨placed, fun _ => kept (by simp [arm, Arm.isStartup]), by simp⟩
  | @relinkDone base aim left arm reached =>
    refine ⟨placed, fun _ (short : peers.initiator.store.free ≤ max l.target aim) => ?_, by simp⟩
    exact kept (by simp [arm, Arm.isStartup]) (by omega)
  | _ => exact ⟨placed, fun _ _ => rfl, fun _ _ => rfl⟩

theorem Remembers.next (l : RotationLoop) (act : LoopAct Seed) (remembers : l.Remembers)
    (whole : StartsWhole kem l act) : (l.next kem act).Remembers := by
  obtain ⟨peers, grown, effect⟩ := @next_effect Seed kem l remembers.toPlaced act
  exact remembers.effect grown effect whole

theorem start_remembers (lookahead : UInt32) (rekeyKeys keepResponder : Nat) :
    (start lookahead rekeyKeys keepResponder).Remembers :=
  ⟨start_placed _ _ _, fun running => by simp [start, Arm.isStartup] at running, fun _ _ => rfl⟩

/-- Work that is left is never forgotten: at the loop's `select!`, an epoch above the store's
highest and up to the target that has not been established keeps the retry arm armed. -/
theorem pending_work_remembered (kem : Kem Seed) (lookahead : UInt32)
    (rekeyKeys keepResponder : Nat) (acts : List (LoopAct Seed))
    (whole : Follows (next kem) (StartsWhole kem) (start lookahead rekeyKeys keepResponder) acts) :
    let l := (start lookahead rekeyKeys keepResponder).run kem acts
    l.arm = .select →
      ∀ epoch, l.store.highest.elim 0 (· + 1) ≤ epoch → epoch ≤ l.target →
        l.store.contains epoch = false → l.needWork = true := by
  intro l idle epoch above below absent
  have remembers : l.Remembers :=
    whole.invariant Remembers.next (start_remembers lookahead rekeyKeys keepResponder)
  apply remembers.pending
  · simp [idle, Arm.isStartup]
  · exact above.trans below

def negotiate (epoch : Nat) (seed : UInt8) : List (LoopAct UInt8) :=
  [.establish seed, .network .sendInit, .network (.deliverInit epoch [seed] seed),
    .network (.deliverResp epoch [seed, seed]), .established]

/-- A whole start, and a rotation that leaves its epoch to the retry arm. -/
theorem pending_work_remembered_rotation :
    let acts := negotiate 0 1 ++ negotiate 1 2 ++ [.rotate]
    Follows (next toyKem) (StartsWhole toyKem) (start 1 0 4) acts ∧
      ((start 1 0 4).run toyKem acts).store.contains 2 = false ∧
      ((start 1 0 4).run toyKem acts).target = 2 ∧
      ((start 1 0 4).run toyKem acts).needWork = true :=
  ⟨by decide +kernel, by decide +kernel, by decide +kernel,
    pending_work_remembered toyKem 1 0 4 _ (by decide +kernel) (by decide +kernel) 2
      (by decide +kernel) (by decide +kernel) (by decide +kernel)⟩

/-- Epoch 0 is established at the start and epoch 1 is not: the loop waits for a rotation, a
reconnection or a resync with epochs 1 and 2 missing. -/
theorem partial_start_forgotten :
    let l := (start 2 0 4).run toyKem (negotiate 0 1 ++ [.establish 2, .network .sendInit, .timedOut])
    l.arm = .select ∧ l.store.highest = some 0 ∧ l.target = 2 ∧
      l.store.contains 1 = false ∧ l.store.contains 2 = false ∧ l.needWork = false := by
  decide +kernel

end Remembering

section Confinement

structure Fits (h : PqcHandshake) : Prop where
  held : ∀ epoch, h.store.contains epoch → epoch ≤ epochMax
  pending : ∀ epoch ∈ h.pendingSk, epoch ≤ epochMax

theorem Fits.grown {h h' : PqcHandshake} {asked : List Nat} (fits : Fits h) (grown : Grown h h' asked)
    (small : ∀ epoch ∈ asked, epoch ≤ epochMax) : Fits h' := by
  constructor
  · intro epoch held
    rcases grown.held epoch held with old | answered
    · exact fits.held epoch old
    · exact fits.pending epoch answered
  intro epoch waiting
  rcases grown.pending epoch waiting with old | started
  · exact fits.pending epoch old
  · exact small epoch started

theorem Fits.firstFree {h : PqcHandshake} (fits : Fits h) :
    firstFree (h.store.highest.map UInt32.ofNat) = h.store.free := by
  unfold Link.firstFree free
  cases top : h.store.highest with
  | none => rfl
  | some k =>
    have small := fits.held k (contains_highest top)
    unfold epochMax at small
    simp only [Option.map_some, Option.getD_some, Option.elim_some, UInt32.toNat_ofNat']
    omega

/-- What keeps a retry inside its block: the block starts no higher than the epoch where a retry
starts, and the target does not leave its top. -/
structure Confined (l : RotationLoop) : Prop extends Placed l where
  fits : Fits l.peers.initiator
  asked : ∀ epoch ∈ l.arm.left, epoch ≤ epochMax
  small : l.target ≤ epochMax
  near : l.target ≤ l.store.free + l.lookahead.toNat
  relinking : ∀ base aim left, l.arm = .relink base aim left →
    l.target ≤ aim ∧ aim = base + l.lookahead.toNat ∧ aim ≤ epochMax
  block : ∀ base top, l.block = some (base, top) → base ≤ l.store.free ∧ base ≤ epochMax ∧ l.target ≤ top
  inside : ∀ base top, l.block = some (base, top) → ∀ epoch ∈ l.arm.retrying, base ≤ epoch ∧ epoch ≤ top

theorem rotate_target (l : RotationLoop) :
    l.rotate.target ≤ max l.target (min l.store.free epochMax) := by
  simp only [rotate, free]
  cases l.store.highest with
  | none => simp
  | some h => exact Nat.le_refl _

theorem Confined.effect (confined : l.Confined) {l' : RotationLoop} {failing : Bool}
    {peers : Peers} (grown : Grown l.peers.initiator peers.initiator l.arm.left)
    (effect : Effect l failing peers l')
    (adjoins : failing = true → ∀ base ∈ l.arm.relinkBase, base ≤ l.store.free) : l'.Confined := by
  have placed : l'.Placed := confined.toPlaced.effect grown effect
  have free : l.store.free ≤ peers.initiator.store.free := grown.free confined.room
  obtain ⟨-, fits, asked, small, near, relinking, block, inside⟩ := confined
  have fits' := fits.grown grown asked
  have near' : l.target ≤ peers.initiator.store.free + l.lookahead.toNat := by omega
  have block' : ∀ base top, l.block = some (base, top) →
      base ≤ peers.initiator.store.free ∧ base ≤ epochMax ∧ l.target ≤ top := by
    intro base top found
    obtain ⟨low, fit, high⟩ := block base top found
    exact ⟨low.trans free, fit, high⟩
  cases effect with
  | waits => exact ⟨placed, fits', asked, small, near', relinking, block', inside⟩
  | startupGoesOn arm more =>
    have rest : ∀ epoch ∈ l.arm.left.tail, epoch ≤ epochMax :=
      fun epoch member => asked epoch (List.mem_of_mem_tail member)
    refine ⟨placed, fits', ?_, small, near', by simp, block', by simp [Arm.retrying]⟩
    simpa [arm, Arm.left] using rest
  | retryBegins arm work some =>
    refine ⟨placed, fits', ?_, small, near', by simp, block', ?_⟩
    · exact fun epoch member => (mem_missing member).2.trans small
    intro base top found epoch member
    obtain ⟨low, fit, high⟩ := block base top found
    have within := mem_missing member
    omega
  | @retryGoesOn epoch left arm more =>
    have later : ∀ e ∈ left, e ∈ l.arm.left ∧ e ∈ l.arm.retrying := by
      intro e member
      simp [arm, Arm.left, Arm.retrying, member]
    refine ⟨placed, fits', ?_, small, near', by simp, block', ?_⟩
    · exact fun e member => asked e (later e member).1
    · exact fun base top found e member => inside base top found e (later e member).2
  | retryDone reached =>
    exact ⟨placed, fits', by simp [Arm.left], small, near', by simp, by simp, by simp⟩
  | rotates arm =>
    have raised := rotate_target l
    have idle : l.rotate.arm = .select := arm
    refine ⟨placed, fits', by simp [idle, Arm.left], ?_, ?_, by simp [idle], ?_, by simp [idle, Arm.retrying]⟩
    · show l.rotate.target ≤ epochMax
      omega
    · show l.rotate.target ≤ peers.initiator.store.free + l.lookahead.toNat
      omega
    intro base top found
    obtain ⟨⟨base', top'⟩, old, same⟩ := Option.map_eq_some_iff.mp found
    cases same
    obtain ⟨low, fit, -⟩ := block' base top' old
    exact ⟨low, fit, Nat.le_max_right _ _⟩
  | @relinkBegins arm peerEpoch base aim range =>
    obtain ⟨start, finish, fit⟩ := relinkRange_spec range
    have first : firstFree (l.store.highest.map UInt32.ofNat) = l.store.free := fits.firstFree
    have fit : aim.toNat ≤ epochMax := fit.le
    refine ⟨placed, fits', ?_, small, near', ?_, block', by simp [Arm.retrying]⟩
    · intro epoch member
      simp only [Arm.left, List.mem_range'_1] at member
      omega
    intro base' aim' left same
    cases same
    show l.target ≤ aim.toNat ∧ aim.toNat = base.toNat + l.lookahead.toNat ∧ _
    omega
  | @relinkGoesOn base aim epoch left arm more =>
    have later : ∀ e ∈ left, e ∈ l.arm.left := by
      intro e member
      simp [arm, Arm.left, member]
    refine ⟨placed, fits', fun e member => asked e (later e member), small, near', ?_, block',
      by simp [Arm.retrying]⟩
    simpa using relinking base aim _ arm
  | @relinkDone base aim left arm reached =>
    obtain ⟨below, -, fit⟩ := relinking base aim left arm
    refine ⟨placed, fits', by simp [Arm.left], ?_, ?_, by simp, by simp, by simp⟩
    · exact Nat.max_le.mpr ⟨small, fit⟩
    · show max l.target aim ≤ peers.initiator.store.free + l.lookahead.toNat
      omega
  | @relinkFails base aim left arm fails =>
    obtain ⟨below, span, fit⟩ := relinking base aim left arm
    have touches := adjoins fails base (by simp [arm, Arm.relinkBase])
    refine ⟨placed, fits', by simp [Arm.left], ?_, ?_, by simp, ?_, by simp [Arm.retrying]⟩
    · exact Nat.max_le.mpr ⟨small, fit⟩
    · show max l.target aim ≤ peers.initiator.store.free + l.lookahead.toNat
      omega
    intro base' top found
    cases found
    show base ≤ peers.initiator.store.free ∧ base ≤ epochMax ∧ max l.target aim ≤ aim
    omega
  | _ =>
    exact ⟨placed, fits', by simp [Arm.left], small, near', by simp, block', by simp [Arm.retrying]⟩

theorem Confined.next (l : RotationLoop) (act : LoopAct Seed) (confined : l.Confined)
    (adjoins : RelinkAdjoins kem l act) : (l.next kem act).Confined := by
  obtain ⟨peers, grown, effect⟩ := @next_effect Seed kem l confined.toPlaced act
  exact confined.effect grown effect adjoins

theorem start_confined (lookahead : UInt32) (rekeyKeys keepResponder : Nat) :
    (start lookahead rekeyKeys keepResponder).Confined := by
  have small : lookahead.toNat ≤ epochMax := Nat.le_sub_one_of_lt lookahead.toNat_lt
  refine ⟨start_placed _ _ _, ⟨?_, ?_⟩, ?_, small, Nat.le_add_left _ _, by simp [start],
    by simp [start], by simp [start]⟩
  · intro epoch held
    simp [start, Peers.new, PqcHandshake.new, contains_iff, get_empty] at held
  · intro epoch waiting
    simp [start, Peers.new, PqcHandshake.new] at waiting
  intro epoch member
  simp only [start, Arm.left, List.mem_range] at member
  omega

/-- The retries after a re-link that ended incomplete call `establish` for epochs of its block
only, and for those that rotations have added on top of it. -/
theorem retries_stay_in_block (kem : Kem Seed) (lookahead : UInt32)
    (rekeyKeys keepResponder : Nat) (acts : List (LoopAct Seed))
    (adjoins : Follows (next kem) (RelinkAdjoins kem) (start lookahead rekeyKeys keepResponder) acts) :
    let l := (start lookahead rekeyKeys keepResponder).run kem acts
    ∀ base top, l.block = some (base, top) →
      ∀ epoch ∈ l.arm.retrying, base ≤ epoch ∧ epoch ≤ top := by
  intro l
  have confined : l.Confined :=
    adjoins.invariant Confined.next (start_confined lookahead rekeyKeys keepResponder)
  exact confined.inside

def halfRelinked : List (LoopAct UInt8) :=
  negotiate 0 1 ++ negotiate 1 2 ++ negotiate 2 3 ++ [.reconnect false] ++ negotiate 3 4 ++
    [.establish 5, .timedOut, .rotate, .retry]

theorem retries_stay_in_block_half :
    Follows (next toyKem) (RelinkAdjoins toyKem) (start 2 0 4) halfRelinked ∧
      ((start 2 0 4).run toyKem halfRelinked).arm = .retry [4, 5] ∧
      ∀ epoch ∈ ((start 2 0 4).run toyKem halfRelinked).arm.retrying, 3 ≤ epoch ∧ epoch ≤ 5 :=
  ⟨by decide +kernel, by decide +kernel,
    retries_stay_in_block toyKem 2 0 4 halfRelinked (by decide +kernel) 3 5 (by decide +kernel)⟩

/-- The peer is at epoch 5 and the store ends at 1. The re-link chooses 6..=7 and gets no answer;
the retry starts over at epoch 2. -/
theorem retry_below_block :
    let acts := negotiate 0 1 ++ negotiate 1 2 ++ [.resync 5 false, .establish 3, .timedOut, .retry]
    let l := (start 1 0 4).run toyKem acts
    l.block = some (6, 7) ∧ l.arm.retrying = [2, 3, 4, 5, 6, 7] := by
  decide +kernel

end Confinement

end RotationLoop

end Dkms.Link
