import Dkms.Core.Count
import Dkms.Orr.Rotation

namespace Dkms.Orr

open Function Dkms.Core Dkms.Link PeerRegistry Task Nat Bool

inductive TaskKind where
  | bootstrap
  | rotation
  | passive
  deriving DecidableEq

inductive Stage where
  | fetchingKey
  | entering
  | atHead (pubkey : Bytes)
  | checked (pubkey : Bytes)
  | sleeping
  | rotating
  | refreshing
  | calling (pubkey ciphertext secret : Bytes)
  | answered (pubkey secret : Bytes) (ok : Bool)
  | storing (secret : Bytes)
  | releasing
  | spawning
  | done
  deriving DecidableEq

/-- `bootstrap_peer`, the loop of `spawn_rotation_task` or the task of
`trigger_passive_rebootstrap`. -/
structure Task where
  kind : TaskKind
  peer : String
  stage : Stage
  deriving DecidableEq

/-- What lets a task go on. A key that was fetched is `none` if the announcement was not
accepted. -/
inductive Event where
  | fetched (pubkey : Option Bytes) (coins : Nat)
  | enter
  | check
  | mark (coins : Nat)
  | rotated (rebootstrap : Bool)
  | answer (ok : Bool)
  | reply (now : Nat)
  | store
  | release
  | spawnRotation
  deriving DecidableEq

structure Moved where
  peers : PeerRegistry
  stage : Stage
  spawned : List Task

section

variable (crates : RotationCrates) (suite localOrrId : String)

def attemptEstablish (pubkey : Bytes) (coins : Nat) : Stage :=
  match crates.kemFor suite with
  | .error _ => .answered pubkey [] false
  | .ok kem =>
    match kem.encap pubkey coins with
    | .error _ => .answered pubkey [] false
    | .ok (ciphertext, secret) =>
      if secret.length ≠ 32 then .answered pubkey [] false else .calling pubkey ciphertext secret

def Task.next (peers : PeerRegistry) (task : Task) (event : Event) : Moved :=
  match task.kind, task.stage, event with
  | .bootstrap, .fetchingKey, .fetched (some pubkey) _ =>
    ⟨peers.putPubkey task.peer pubkey, .entering, []⟩
  | .bootstrap, .fetchingKey, .fetched none _ => ⟨peers, .entering, []⟩
  | .bootstrap, .entering, .enter =>
    -- only the lesser of the two ids goes on
    if task.peer ≤ localOrrId then ⟨peers, .done, []⟩
    else if peers.hasBootstrap task.peer then ⟨peers, .spawning, []⟩
    else
      match peers.pubkeys task.peer with
      | none => ⟨peers, .done, []⟩
      | some pubkey => ⟨peers, .atHead pubkey, []⟩
  | .bootstrap, .atHead pubkey, .check =>
    if peers.hasBootstrap task.peer then ⟨peers, .spawning, []⟩ else ⟨peers, .checked pubkey, []⟩
  | .bootstrap, .checked pubkey, .mark coins =>
    match peers.tryMarkRebootstrapInflight task.peer with
    | (false, peers) => ⟨peers, .atHead pubkey, []⟩
    | (true, peers) => ⟨peers, attemptEstablish crates suite pubkey coins, []⟩
  | .bootstrap, .answered pubkey secret ok, .reply _ =>
    -- the flag goes before the secret is stored
    ⟨peers.clearRebootstrapInflight task.peer, if ok then .storing secret else .atHead pubkey, []⟩
  | .bootstrap, .storing secret, .store => ⟨peers.resetForBootstrap task.peer secret, .spawning, []⟩
  | .bootstrap, .spawning, .spawnRotation =>
    match peers.tryMarkRotationSpawned task.peer with
    | (false, peers) => ⟨peers, .done, []⟩
    | (true, peers) =>
      ⟨peers, .done, if task.peer ≤ localOrrId then [] else [⟨.rotation, task.peer, .sleeping⟩]⟩
  | .rotation, .sleeping, .mark _ =>
    match peers.tryMarkRebootstrapInflight task.peer with
    | (false, peers) => ⟨peers, .sleeping, []⟩
    | (true, peers) => ⟨peers, .rotating, []⟩
  | .rotation, .rotating, .rotated rebootstrap =>
    ⟨peers, if rebootstrap then .refreshing else .releasing, []⟩
  | .rotation, .refreshing, .fetched (some pubkey) coins
  | .passive, .refreshing, .fetched (some pubkey) coins =>
    ⟨peers.putPubkey task.peer pubkey, attemptEstablish crates suite pubkey coins, []⟩
  | .rotation, .refreshing, .fetched none _ | .passive, .refreshing, .fetched none _ =>
    ⟨peers, .releasing, []⟩
  | _, .calling pubkey _ secret, .answer ok => ⟨peers, .answered pubkey secret ok, []⟩
  | .rotation, .answered _ secret ok, .reply _ =>
    ⟨peers, if ok then .storing secret else .releasing, []⟩
  | .passive, .answered _ secret true, .reply _ => ⟨peers, .storing secret, []⟩
  | .passive, .answered _ _ false, .reply now =>
    ⟨peers.markRebootstrapFailure task.peer now, .releasing, []⟩
  | .rotation, .storing secret, .store => ⟨peers.resetForBootstrap task.peer secret, .releasing, []⟩
  | .passive, .storing secret, .store =>
    ⟨(peers.resetForBootstrap task.peer secret).clearRebootstrapFailure task.peer, .releasing, []⟩
  | .rotation, .releasing, .release => ⟨peers.clearRebootstrapInflight task.peer, .sleeping, []⟩
  | .passive, .releasing, .release => ⟨peers.clearRebootstrapInflight task.peer, .done, []⟩
  | _, stage, _ => ⟨peers, stage, []⟩

end

def Task.inFlight (task : Task) : Bool :=
  match task.kind, task.stage with
  | .bootstrap, .calling _ _ _ | .bootstrap, .answered _ _ _ => true
  | .bootstrap, _ => false
  | _, .rotating | _, .refreshing | _, .calling _ _ _ | _, .answered _ _ _ | _, .storing _
  | _, .releasing => true
  | _, _ => false

def Task.alive (task : Task) : Bool := task.stage ≠ .done

def Task.rotates (task : Task) : Bool := task.alive && task.kind ≠ .passive

def Task.inFlightWith (peer : String) (task : Task) : Bool := task.peer = peer && task.inFlight

def Task.rotatesWith (peer : String) (task : Task) : Bool := task.peer = peer && task.rotates

section

variable {crates : RotationCrates} {suite localOrrId peer : String} {peers : PeerRegistry}
  {task : Task} {event : Event}

theorem attemptEstablish_inFlight (kind : TaskKind) (peer : String) (pubkey : Bytes) (coins : Nat) :
    Task.inFlight ⟨kind, peer, attemptEstablish crates suite pubkey coins⟩ := by
  unfold attemptEstablish
  split
  · cases kind <;> rfl
  split
  · cases kind <;> rfl
  · split <;> cases kind <;> rfl

inductive Task.Goes (crates : RotationCrates) (suite : String) (peers : PeerRegistry)
    (peer : String) : TaskKind → Stage → Event → Moved → Prop
  | stays (kind : TaskKind) (stage : Stage) (event : Event) :
      Goes crates suite peers peer kind stage event ⟨peers, stage, []⟩
  | keyFetched (pubkey : Bytes) (coins : Nat) :
      Goes crates suite peers peer .bootstrap .fetchingKey (.fetched (some pubkey) coins)
        ⟨peers.putPubkey peer pubkey, .entering, []⟩
  | keyMissed (coins : Nat) :
      Goes crates suite peers peer .bootstrap .fetchingKey (.fetched none coins) ⟨peers, .entering, []⟩
  | turnedBack : Goes crates suite peers peer .bootstrap .entering .enter ⟨peers, .done, []⟩
  | skipped : Goes crates suite peers peer .bootstrap .entering .enter ⟨peers, .spawning, []⟩
  | entered {pubkey : Bytes} (known : peers.pubkeys peer = some pubkey) :
      Goes crates suite peers peer .bootstrap .entering .enter ⟨peers, .atHead pubkey, []⟩
  | foundDone (pubkey : Bytes) :
      Goes crates suite peers peer .bootstrap (.atHead pubkey) .check ⟨peers, .spawning, []⟩
  | foundMissing (pubkey : Bytes) :
      Goes crates suite peers peer .bootstrap (.atHead pubkey) .check ⟨peers, .checked pubkey, []⟩
  | busy (pubkey : Bytes) (coins : Nat) :
      Goes crates suite peers peer .bootstrap (.checked pubkey) (.mark coins) ⟨peers, .atHead pubkey, []⟩
  | marked (pubkey : Bytes) (coins : Nat) (free : peers.rebootstrapInflight peer = false) :
      Goes crates suite peers peer .bootstrap (.checked pubkey) (.mark coins)
        ⟨{ peers with rebootstrapInflight := update peers.rebootstrapInflight peer true },
          attemptEstablish crates suite pubkey coins, []⟩
  | handedBack (pubkey secret : Bytes) (ok : Bool) (now : Nat) :
      Goes crates suite peers peer .bootstrap (.answered pubkey secret ok) (.reply now)
        ⟨peers.clearRebootstrapInflight peer, if ok then .storing secret else .atHead pubkey, []⟩
  | storedLate (secret : Bytes) :
      Goes crates suite peers peer .bootstrap (.storing secret) .store
        ⟨peers.resetForBootstrap peer secret, .spawning, []⟩
  | spawned {tasks : List Task} (few : tasks = [] ∨ tasks = [⟨.rotation, peer, .sleeping⟩]) :
      Goes crates suite peers peer .bootstrap .spawning .spawnRotation
        ⟨(peers.tryMarkRotationSpawned peer).2, .done, tasks⟩
  | rotationMarked (coins : Nat) (free : peers.rebootstrapInflight peer = false) :
      Goes crates suite peers peer .rotation .sleeping (.mark coins)
        ⟨{ peers with rebootstrapInflight := update peers.rebootstrapInflight peer true }, .rotating, []⟩
  | rotated (rebootstrap : Bool) :
      Goes crates suite peers peer .rotation .rotating (.rotated rebootstrap)
        ⟨peers, if rebootstrap then .refreshing else .releasing, []⟩
  | refreshed {kind : TaskKind} (later : kind ≠ .bootstrap) (pubkey : Bytes) (coins : Nat) :
      Goes crates suite peers peer kind .refreshing (.fetched (some pubkey) coins)
        ⟨peers.putPubkey peer pubkey, attemptEstablish crates suite pubkey coins, []⟩
  | notRefreshed {kind : TaskKind} (later : kind ≠ .bootstrap) (coins : Nat) :
      Goes crates suite peers peer kind .refreshing (.fetched none coins) ⟨peers, .releasing, []⟩
  | callEnded (kind : TaskKind) (pubkey ciphertext secret : Bytes) (ok : Bool) :
      Goes crates suite peers peer kind (.calling pubkey ciphertext secret) (.answer ok)
        ⟨peers, .answered pubkey secret ok, []⟩
  | accepted {kind : TaskKind} (later : kind ≠ .bootstrap) (pubkey secret : Bytes) (now : Nat) :
      Goes crates suite peers peer kind (.answered pubkey secret true) (.reply now)
        ⟨peers, .storing secret, []⟩
  | refused {kind : TaskKind} (later : kind ≠ .bootstrap) (pubkey secret : Bytes) (now : Nat)
      {after : PeerRegistry}
      (registered : after = peers ∨ after = peers.markRebootstrapFailure peer now) :
      Goes crates suite peers peer kind (.answered pubkey secret false) (.reply now) ⟨after, .releasing, []⟩
  | stored {kind : TaskKind} (later : kind ≠ .bootstrap) (secret : Bytes) {after : PeerRegistry}
      (registered : after = peers.resetForBootstrap peer secret ∨
        after = (peers.resetForBootstrap peer secret).clearRebootstrapFailure peer) :
      Goes crates suite peers peer kind (.storing secret) .store ⟨after, .releasing, []⟩
  | released {kind : TaskKind} (later : kind ≠ .bootstrap) {stage : Stage}
      (rest : stage = .sleeping ∨ stage = .done) :
      Goes crates suite peers peer kind .releasing .release ⟨peers.clearRebootstrapInflight peer, stage, []⟩

theorem Task.next_goes (task : Task) (event : Event) :
    Task.Goes crates suite peers task.peer task.kind task.stage event
      (task.next crates suite localOrrId peers event) := by
  obtain ⟨kind, peer, stage⟩ := task
  unfold next
  dsimp only
  split
  · exact .keyFetched ..
  · exact .keyMissed ..
  · split
    · exact .turnedBack
    split
    · exact .skipped
    split
    · exact .turnedBack
    · rename_i known
      exact .entered known
  · split
    · exact .foundDone ..
    · exact .foundMissing ..
  · unfold tryMarkRebootstrapInflight
    cases taken : peers.rebootstrapInflight peer with
    | true => exact .busy ..
    | false => exact .marked _ _ taken
  · exact .handedBack ..
  · exact .storedLate ..
  · unfold tryMarkRotationSpawned
    cases started : peers.rotationSpawned peer with
    | true => exact .spawned (.inl rfl)
    | false =>
      refine .spawned ?_
      split
      · exact .inl rfl
      · exact .inr rfl
  · unfold tryMarkRebootstrapInflight
    cases taken : peers.rebootstrapInflight peer with
    | true => exact .stays ..
    | false => exact .rotationMarked _ taken
  · exact .rotated ..
  · exact .refreshed (by decide) ..
  · exact .refreshed (by decide) ..
  · exact .notRefreshed (by decide) ..
  · exact .notRefreshed (by decide) ..
  · exact .callEnded ..
  · rename_i ok now
    cases ok with
    | true => exact .accepted (by decide) ..
    | false => exact .refused (by decide) _ _ _ (.inl rfl)
  · exact .accepted (by decide) ..
  · exact .refused (by decide) _ _ _ (.inr rfl)
  · exact .stored (by decide) _ (.inl rfl)
  · exact .stored (by decide) _ (.inr rfl)
  · exact .released (by decide) (.inl rfl)
  · exact .released (by decide) (.inr rfl)
  · exact .stays ..

section

variable {own : String} {kind : TaskKind} {stage : Stage} {moved : Moved}

section

variable (goes : Task.Goes crates suite peers own kind stage event moved)
include goes

theorem Task.Goes.flag_other (other : peer ≠ own) :
    moved.peers.rebootstrapInflight peer = peers.rebootstrapInflight peer := by
  cases goes with
  | marked => exact update_of_ne other ..
  | rotationMarked => exact update_of_ne other ..
  | handedBack => exact update_of_ne other ..
  | released => exact update_of_ne other ..
  | refused later pubkey secret now registered => rcases registered with rfl | rfl <;> rfl
  | stored later secret registered => rcases registered with rfl | rfl <;> rfl
  | _ => rfl

theorem Task.Goes.flag_own :
    (peers.rebootstrapInflight own).toNat + (Task.inFlight ⟨kind, own, moved.stage⟩).toNat ≤
      (moved.peers.rebootstrapInflight own).toNat + (Task.inFlight ⟨kind, own, stage⟩).toNat := by
  cases goes with
  | marked pubkey coins free =>
    rw [free, attemptEstablish_inFlight]
    simp
  | rotationMarked coins free =>
    rw [free]
    simp [inFlight]
  | handedBack pubkey secret ok now =>
    have bound := toNat_le (peers.rebootstrapInflight own)
    cases ok <;> simpa [inFlight, clearRebootstrapInflight] using bound
  | rotated rebootstrap => cases rebootstrap <;> exact le_refl _
  | refreshed later pubkey coins =>
    rw [attemptEstablish_inFlight]
    cases kind with
    | bootstrap => exact absurd rfl later
    | rotation => exact le_refl _
    | passive => exact le_refl _
  | notRefreshed => cases kind <;> exact le_refl _
  | callEnded kind => cases kind <;> exact le_refl _
  | accepted later => cases kind <;> first | exact le_refl _ | exact absurd rfl later
  | refused later pubkey secret now registered =>
    rcases registered with rfl | rfl <;> cases kind <;>
      first | exact le_refl _ | exact absurd rfl later
  | stored later secret registered =>
    rcases registered with rfl | rfl <;> cases kind <;> exact le_refl _
  | released later rest =>
    have bound := toNat_le (peers.rebootstrapInflight own)
    rcases rest with rfl | rfl <;> cases kind <;>
      first
      | exact absurd rfl later
      | simpa [inFlight, clearRebootstrapInflight] using bound
  | _ => exact le_refl _

theorem Task.Goes.flag_balance (peer : String) : (peers.rebootstrapInflight peer).toNat +
        (Task.inFlightWith peer ⟨kind, own, moved.stage⟩).toNat ≤
      (moved.peers.rebootstrapInflight peer).toNat +
        (Task.inFlightWith peer ⟨kind, own, stage⟩).toNat := by
  by_cases same : own = peer
  · subst same
    simpa only [inFlightWith, decide_true, Bool.true_and] using goes.flag_own
  rw [goes.flag_other (Ne.symm same)]
  simp only [inFlightWith, same]
  exact le_refl _

omit goes in
theorem rotatesWith_le (peer : String) (alive : stage ≠ .done) (after : Stage) :
    (Task.rotatesWith peer ⟨kind, own, after⟩).toNat ≤
      (Task.rotatesWith peer ⟨kind, own, stage⟩).toNat := by
  simp only [Task.rotatesWith, Task.rotates, Task.alive, alive, ne_eq, not_false_eq_true,
    decide_true, Bool.true_and]
  apply Bool.toNat_le_toNat
  intro rotates
  simp only [Bool.and_eq_true] at rotates ⊢
  exact ⟨rotates.1, rotates.2.2⟩

theorem Task.Goes.rotates_balance (peer : String) :
    (Task.rotatesWith peer ⟨kind, own, moved.stage⟩).toNat +
        moved.spawned.countP (Task.rotatesWith peer) ≤
      (Task.rotatesWith peer ⟨kind, own, stage⟩).toNat := by
  cases goes with
  | stays => exact le_refl _
  | spawned few =>
    rcases few with rfl | rfl
    · simp [rotatesWith, rotates, alive]
    · by_cases same : own = peer <;> simp [rotatesWith, rotates, alive, same]
  | _ => exact rotatesWith_le peer (by nofun) _

theorem Task.Goes.spawned_idle (peer : String) :
    moved.spawned.countP (Task.inFlightWith peer) = 0 := by
  cases goes with
  | spawned few =>
    rcases few with rfl | rfl
    · rfl
    · simp [inFlightWith, inFlight]
  | _ => rfl

end

end

end

structure Establisher where
  peers : PeerRegistry
  tasks : List Task

namespace Establisher

variable (crates : RotationCrates) (suite localOrrId : String) (orr : Establisher)

def advance (n : Nat) (event : Event) : Establisher :=
  match orr.tasks[n]? with
  | none => orr
  | some task =>
    let moved := task.next crates suite localOrrId orr.peers event
    ⟨moved.peers, orr.tasks.set n { task with stage := moved.stage } ++ moved.spawned⟩

def spawnOne (peer addr : String) : Establisher :=
  ⟨orr.peers.putGrpcAddr peer addr,
    orr.tasks ++ [⟨.bootstrap, peer, if (orr.peers.pubkeys peer).isNone then .fetchingKey else .entering⟩]⟩

def triggerPassiveRebootstrap (peer : String) (now : Nat) : Establisher :=
  match orr.peers.grpcAddrs peer with
  | none => orr
  | some _ =>
    if !orr.peers.shouldAttemptRebootstrap peer passiveRebootstrapMinInterval now then orr
    else
      match orr.peers.tryMarkRebootstrapInflight peer with
      | (false, peers) => { orr with peers }
      | (true, peers) =>
        match peers.pubkeys peer with
        | none => { orr with peers := peers.clearRebootstrapInflight peer }
        | some _ =>
          ⟨peers.clearPeerSecrets peer, orr.tasks ++ [⟨.passive, peer, .refreshing⟩]⟩

/-- Nothing holds back a passive re-bootstrap of the peer. -/
@[mk_iff]
structure Renews (peer : String) (now : Nat) : Prop where
  reachable : (orr.peers.grpcAddrs peer).isSome
  unlimited : orr.peers.shouldAttemptRebootstrap peer passiveRebootstrapMinInterval now
  idle : orr.peers.rebootstrapInflight peer = false
  keyed : (orr.peers.pubkeys peer).isSome

instance (peer : String) (now : Nat) : Decidable (orr.Renews peer now) :=
  decidable_of_iff _ (renews_iff ..).symm

def Flagged : Prop :=
  ∀ peer, orr.tasks.countP (Task.inFlightWith peer) ≤ (orr.peers.rebootstrapInflight peer).toNat

variable {crates suite localOrrId orr}

theorem advance_cases (orr : Establisher) (n : Nat) (event : Event) :
    orr.advance crates suite localOrrId n event = orr ∨
      ∃ task moved, orr.tasks[n]? = some task ∧
        moved = task.next crates suite localOrrId orr.peers event ∧
        Task.Goes crates suite orr.peers task.peer task.kind task.stage event moved ∧
        orr.advance crates suite localOrrId n event =
          ⟨moved.peers, orr.tasks.set n ⟨task.kind, task.peer, moved.stage⟩ ++ moved.spawned⟩ := by
  unfold Establisher.advance
  split
  · exact .inl rfl
  · rename_i task held
    exact .inr ⟨task, _, held, rfl, task.next_goes event, rfl⟩

theorem Flagged.advance (flagged : orr.Flagged) (n : Nat) (event : Event) :
    (orr.advance crates suite localOrrId n event).Flagged := by
  have moves : orr.advance crates suite localOrrId n event = _ ∨ _ := orr.advance_cases n event
  rcases moves with same | ⟨task, moved, held, -, goes, moves⟩
  · rw [same]
    exact flagged
  rw [moves]
  intro peer
  have before := flagged peer
  have balance := goes.flag_balance peer
  have idle := goes.spawned_idle peer
  have replaced := countP_set (p := Task.inFlightWith peer) held ⟨task.kind, task.peer, moved.stage⟩
  obtain ⟨kind, own, stage⟩ := task
  dsimp only at balance replaced ⊢
  rw [List.countP_append]
  omega

theorem trigger_cases (orr : Establisher) (own : String) (now : Nat) :
    ¬ orr.Renews own now ∧ orr.triggerPassiveRebootstrap own now = orr ∨
      orr.Renews own now ∧ orr.triggerPassiveRebootstrap own now =
        ⟨{ orr.peers.clearPeerSecrets own with
            rebootstrapInflight := update orr.peers.rebootstrapInflight own true },
          orr.tasks ++ [⟨.passive, own, .refreshing⟩]⟩ := by
  rw [renews_iff]
  unfold Establisher.triggerPassiveRebootstrap
  cases reachable : orr.peers.grpcAddrs own with
  | none => exact .inl ⟨by simp, rfl⟩
  | some addr =>
    cases unlimited : orr.peers.shouldAttemptRebootstrap own passiveRebootstrapMinInterval now with
    | false => exact .inl ⟨by simp, rfl⟩
    | true =>
      unfold tryMarkRebootstrapInflight
      cases idle : orr.peers.rebootstrapInflight own with
      | true => exact .inl ⟨by simp, rfl⟩
      | false =>
        cases keyed : orr.peers.pubkeys own with
        | none =>
          -- without the peer's key the flag is given back at once
          have restored : update orr.peers.rebootstrapInflight own false =
              orr.peers.rebootstrapInflight := by
            rw [← idle, update_eq_self]
          exact .inl ⟨by simp, by simp [keyed, clearRebootstrapInflight, restored]⟩
        | some pk => exact .inr ⟨by simp, by simp [keyed, clearPeerSecrets]⟩

theorem Flagged.trigger (flagged : orr.Flagged) (own : String) (now : Nat) :
    (orr.triggerPassiveRebootstrap own now).Flagged := by
  rcases orr.trigger_cases own now with ⟨-, same⟩ | ⟨renews, started⟩
  · rw [same]
    exact flagged
  rw [started]
  intro peer
  have before := flagged peer
  dsimp only
  rw [List.countP_append, List.countP_singleton]
  by_cases same : peer = own
  · subst same
    rw [renews.idle] at before
    simp only [toNat_false, le_zero] at before
    rw [before, update_self, zero_add]
    exact ite_le_one le_rfl (zero_le 1)
  · have apart : Task.inFlightWith peer ⟨.passive, own, .refreshing⟩ = false := by
      simp [Task.inFlightWith, Ne.symm same]
    rw [update_of_ne same, apart]
    exact before

theorem mem_spawnOne {own addr : String} {task : Task}
    (member : task ∈ (orr.spawnOne own addr).tasks) :
    task ∈ orr.tasks ∨ task.peer = own ∧ ∀ peer, task.inFlightWith peer = false := by
  rcases List.mem_append.mp member with held | new
  · exact .inl held
  rw [List.mem_singleton.mp new]
  refine .inr ⟨rfl, ?_⟩
  intro peer
  split <;> simp [Task.inFlightWith, Task.inFlight]

theorem Flagged.spawnOne (flagged : orr.Flagged) (own addr : String) :
    (orr.spawnOne own addr).Flagged := by
  intro peer
  have before := flagged peer
  have idle : Task.inFlightWith peer ⟨.bootstrap, own,
      if (orr.peers.pubkeys own).isNone then .fetchingKey else .entering⟩ = false := by
    split <;> simp [Task.inFlightWith, Task.inFlight]
  unfold Establisher.spawnOne
  rw [List.countP_append, List.countP_singleton, idle]
  exact before

end Establisher

end Dkms.Orr
