import Dkms.Link.SecretStore

namespace Dkms.Orr

open Function Std Dkms.Core Dkms.Link TreeMap SlidingMap

def maxEphemeralPerPeer : Nat := 64

def passiveRebootstrapMinInterval : Nat := 5000

/-- What an ORR keeps about each peer. A clock reading is in milliseconds. -/
structure PeerRegistry where
  byOrr : String → Option UInt32
  pubkeys : String → Option Bytes
  bootstrapSecrets : String → Option Bytes
  masterSecrets : String → TreeMap UInt32 Bytes
  ephemeralSks : String → TreeMap UInt32 Bytes
  currentSendEpochs : String → Option UInt32
  rebootstrapInflight : String → Bool
  rebootstrapLastFailure : String → Option Nat
  grpcAddrs : String → Option String
  rotationSpawned : String → Bool

namespace PeerRegistry

def new : PeerRegistry where
  byOrr _ := none
  pubkeys _ := none
  bootstrapSecrets _ := none
  masterSecrets _ := ∅
  ephemeralSks _ := ∅
  currentSendEpochs _ := none
  rebootstrapInflight _ := false
  rebootstrapLastFailure _ := none
  grpcAddrs _ := none
  rotationSpawned _ := false

section Operations

variable (peers : PeerRegistry)

def put (orrId : String) (qkcId : UInt32) : PeerRegistry :=
  { peers with byOrr := update peers.byOrr orrId (some qkcId) }

def putPubkey (orrId : String) (pubkey : Bytes) : PeerRegistry :=
  { peers with pubkeys := update peers.pubkeys orrId (some pubkey) }

def putGrpcAddr (orrId url : String) : PeerRegistry :=
  { peers with grpcAddrs := update peers.grpcAddrs orrId (some url) }

def hasBootstrap (orrId : String) : Bool := (peers.bootstrapSecrets orrId).isSome

def masterForEpoch (orrId : String) (epochId : UInt32) : Option Bytes :=
  (peers.masterSecrets orrId)[epochId]?

def latestEpochFor (orrId : String) : Option UInt32 := SlidingMap.highest (peers.masterSecrets orrId)

def sendEpochFor (orrId : String) : Option UInt32 :=
  (peers.currentSendEpochs orrId).or (peers.latestEpochFor orrId)

def setMasterForEpoch (orrId : String) (epochId : UInt32) (secret : Bytes) : PeerRegistry :=
  { peers with
    masterSecrets := update peers.masterSecrets orrId ((peers.masterSecrets orrId).insert epochId secret) }

def removeMasterEpoch (orrId : String) (epochId : UInt32) : PeerRegistry :=
  { peers with
    masterSecrets := update peers.masterSecrets orrId ((peers.masterSecrets orrId).erase epochId) }

def setCurrentSendEpoch (orrId : String) (epochId : UInt32) : PeerRegistry :=
  { peers with
    currentSendEpochs := update peers.currentSendEpochs orrId (some epochId) }

def storeEphemeralSk (orrId : String) (epochId : UInt32) (esk : Bytes) : PeerRegistry :=
  { peers with
    ephemeralSks := update peers.ephemeralSks orrId
      (SlidingMap.evict maxEphemeralPerPeer ((peers.ephemeralSks orrId).insert epochId esk)) }

def takeEphemeralSk (orrId : String) (epochId : UInt32) : Option Bytes × PeerRegistry :=
  ((peers.ephemeralSks orrId)[epochId]?,
    { peers with
      ephemeralSks := update peers.ephemeralSks orrId ((peers.ephemeralSks orrId).erase epochId) })

def resetForBootstrap (orrId : String) (secret : Bytes) : PeerRegistry :=
  { peers with
    bootstrapSecrets := update peers.bootstrapSecrets orrId (some secret)
    masterSecrets := update peers.masterSecrets orrId ((∅ : TreeMap UInt32 Bytes).insert 0 secret)
    ephemeralSks := update peers.ephemeralSks orrId ∅
    currentSendEpochs := update peers.currentSendEpochs orrId none }

def dropOldEpochsFor (orrId : String) (keepLastN : Nat) : PeerRegistry :=
  { peers with
    masterSecrets := update peers.masterSecrets orrId
      (SlidingMap.evict (max keepLastN 2) (peers.masterSecrets orrId))
    ephemeralSks := update peers.ephemeralSks orrId
      (SlidingMap.evict (max keepLastN 2) (peers.ephemeralSks orrId)) }

def clearPeerSecrets (orrId : String) : PeerRegistry :=
  { peers with
    bootstrapSecrets := update peers.bootstrapSecrets orrId none
    masterSecrets := update peers.masterSecrets orrId ∅
    ephemeralSks := update peers.ephemeralSks orrId ∅
    currentSendEpochs := update peers.currentSendEpochs orrId none }

def forget (orrId : String) : PeerRegistry where
  byOrr := update peers.byOrr orrId none
  pubkeys := update peers.pubkeys orrId none
  bootstrapSecrets := update peers.bootstrapSecrets orrId none
  masterSecrets := update peers.masterSecrets orrId ∅
  ephemeralSks := update peers.ephemeralSks orrId ∅
  currentSendEpochs := update peers.currentSendEpochs orrId none
  rebootstrapInflight := update peers.rebootstrapInflight orrId false
  rebootstrapLastFailure := update peers.rebootstrapLastFailure orrId none
  grpcAddrs := update peers.grpcAddrs orrId none
  rotationSpawned := update peers.rotationSpawned orrId false

def tryMarkRebootstrapInflight (orrId : String) : Bool × PeerRegistry :=
  if peers.rebootstrapInflight orrId then (false, peers)
  else
    (true, { peers with
      rebootstrapInflight := update peers.rebootstrapInflight orrId true })

def clearRebootstrapInflight (orrId : String) : PeerRegistry :=
  { peers with rebootstrapInflight := update peers.rebootstrapInflight orrId false }

def shouldAttemptRebootstrap (orrId : String) (minInterval now : Nat) : Bool :=
  match peers.rebootstrapLastFailure orrId with
  | none => true
  | some last => minInterval ≤ now - last

def markRebootstrapFailure (orrId : String) (now : Nat) : PeerRegistry :=
  { peers with
    rebootstrapLastFailure := update peers.rebootstrapLastFailure orrId (some now) }

def clearRebootstrapFailure (orrId : String) : PeerRegistry :=
  { peers with rebootstrapLastFailure := update peers.rebootstrapLastFailure orrId none }

def settled (orrId : String) (failedAt : Option Nat) : PeerRegistry :=
  match failedAt with
  | none => (peers.clearRebootstrapFailure orrId).clearRebootstrapInflight orrId
  | some now => (peers.markRebootstrapFailure orrId now).clearRebootstrapInflight orrId

def tryMarkRotationSpawned (orrId : String) : Bool × PeerRegistry :=
  (!peers.rotationSpawned orrId,
    { peers with rotationSpawned := update peers.rotationSpawned orrId true })

end Operations

variable {peers : PeerRegistry} {peer orrId : String} {epochId epochId' : UInt32}
  {secret new : Bytes}

theorem masterForEpoch_setMaster
    (found : (peers.setMasterForEpoch orrId epochId new).masterForEpoch peer epochId' = some secret) :
    peers.masterForEpoch peer epochId' = some secret ∨ orrId = peer ∧ new = secret := by
  unfold masterForEpoch setMasterForEpoch at found
  dsimp only at found
  by_cases same : peer = orrId
  · subst same
    rw [update_self, getElem?_insert] at found
    split at found
    · exact .inr ⟨rfl, Option.some.inj found⟩
    · exact .inl found
  · rw [update_of_ne same] at found
    exact .inl found

theorem masterForEpoch_removeEpoch
    (found : (peers.removeMasterEpoch orrId epochId).masterForEpoch peer epochId' = some secret) :
    peers.masterForEpoch peer epochId' = some secret := by
  unfold masterForEpoch removeMasterEpoch at found
  dsimp only at found
  by_cases same : peer = orrId
  · subst same
    rw [update_self, getElem?_erase] at found
    split at found
    · cases found
    · exact found
  · rwa [update_of_ne same] at found

variable {keepLastN : Nat}

theorem masterForEpoch_dropOld
    (found : (peers.dropOldEpochsFor orrId keepLastN).masterForEpoch peer epochId' = some secret) :
    peers.masterForEpoch peer epochId' = some secret := by
  unfold masterForEpoch dropOldEpochsFor at found
  dsimp only at found
  by_cases same : peer = orrId
  · subst same
    rw [update_self] at found
    exact getElem?_evict found
  · rwa [update_of_ne same] at found

theorem masterForEpoch_bootstrap
    (found : (peers.resetForBootstrap orrId new).masterForEpoch peer epochId' = some secret) :
    peers.masterForEpoch peer epochId' = some secret ∨ orrId = peer ∧ new = secret := by
  unfold masterForEpoch resetForBootstrap at found
  dsimp only at found
  by_cases same : peer = orrId
  · subst same
    rw [update_self, getElem?_insert] at found
    split at found
    · exact .inr ⟨rfl, Option.some.inj found⟩
    · cases found
  · rw [update_of_ne same] at found
    exact .inl found

theorem masterForEpoch_setMaster_self :
    (peers.setMasterForEpoch orrId epochId new).masterForEpoch orrId epochId' =
      if epochId = epochId' then some new else peers.masterForEpoch orrId epochId' := by
  unfold masterForEpoch setMasterForEpoch
  dsimp only
  rw [update_self, getElem?_insert]
  simp

theorem masterForEpoch_removeEpoch_self :
    (peers.removeMasterEpoch orrId epochId).masterForEpoch orrId epochId' =
      if epochId = epochId' then none else peers.masterForEpoch orrId epochId' := by
  unfold masterForEpoch removeMasterEpoch
  dsimp only
  rw [update_self, getElem?_erase]
  simp

theorem masterForEpoch_dropOld_self (above : UInt32)
    (rest : ∀ epoch secret, peers.masterForEpoch orrId epoch = some secret →
      epoch ≤ epochId ∨ epoch = above) :
    (peers.dropOldEpochsFor orrId keepLastN).masterForEpoch orrId epochId =
      peers.masterForEpoch orrId epochId := by
  unfold masterForEpoch dropOldEpochsFor
  dsimp only
  rw [update_self]
  have few : [above].length < max keepLastN 2 := by
    rw [List.length_singleton]
    omega
  apply getElem?_evict_of_few_above few
  intro epoch held
  obtain ⟨secret, found⟩ := Option.isSome_iff_exists.mp (mem_iff_isSome_getElem?.mp held)
  rcases rest epoch secret found with under | top
  · exact .inl (isLE_compare.mpr under)
  · exact .inr (List.mem_singleton.mpr top)

variable {esk : Bytes}

theorem ephemeralSk_store (other : epochId ≠ epochId')
    (found : ((peers.storeEphemeralSk orrId epochId new).ephemeralSks orrId)[epochId']? = some esk) :
    (peers.ephemeralSks orrId)[epochId']? = some esk := by
  unfold storeEphemeralSk at found
  dsimp only at found
  rw [update_self] at found
  have inserted := getElem?_evict found
  rw [getElem?_insert] at inserted
  simpa only [Std.compare_eq_iff_eq, if_neg other] using inserted

theorem ephemeralSk_store_self
    (found : ((peers.storeEphemeralSk orrId epochId new).ephemeralSks orrId)[epochId]? = some esk) :
    esk = new := by
  unfold storeEphemeralSk at found
  dsimp only at found
  rw [update_self] at found
  have inserted := getElem?_evict found
  rw [getElem?_insert_self] at inserted
  exact (Option.some.inj inserted).symm

theorem ephemeralSk_take
    (found : ((peers.takeEphemeralSk orrId epochId).2.ephemeralSks orrId)[epochId']? = some esk) :
    (peers.ephemeralSks orrId)[epochId']? = some esk := by
  unfold takeEphemeralSk at found
  dsimp only at found
  rw [update_self, getElem?_erase] at found
  split at found
  · cases found
  · exact found

theorem ephemeralSk_dropOld
    (found : ((peers.dropOldEpochsFor orrId keepLastN).ephemeralSks orrId)[epochId]? = some esk) :
    (peers.ephemeralSks orrId)[epochId]? = some esk := by
  unfold dropOldEpochsFor at found
  dsimp only at found
  rw [update_self] at found
  exact getElem?_evict found

theorem latestEpochFor_eq_some {latest : UInt32} : peers.latestEpochFor orrId = some latest ↔
      (∃ secret, peers.masterForEpoch orrId latest = some secret) ∧
        ∀ epoch secret, peers.masterForEpoch orrId epoch = some secret → epoch ≤ latest := by
  unfold latestEpochFor masterForEpoch
  simp only [highest_eq_some, mem_iff_isSome_getElem?, isLE_compare,
    Option.isSome_iff_exists, forall_exists_index]

theorem masterForEpoch_clear
    (found : (peers.clearPeerSecrets orrId).masterForEpoch peer epochId' = some secret) :
    peers.masterForEpoch peer epochId' = some secret := by
  unfold masterForEpoch clearPeerSecrets at found
  dsimp only at found
  by_cases same : peer = orrId
  · subst same
    rw [update_self] at found
    cases found
  · rwa [update_of_ne same] at found

theorem masterForEpoch_forget
    (found : (peers.forget orrId).masterForEpoch peer epochId' = some secret) :
    peers.masterForEpoch peer epochId' = some secret :=
  masterForEpoch_clear found

end PeerRegistry

end Dkms.Orr
