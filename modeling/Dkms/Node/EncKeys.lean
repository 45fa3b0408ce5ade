import Dkms.Core.Results
import Dkms.Node.World

namespace Dkms.Node

open Std Dkms.Core List

abbrev Handler := Prog Op.Answer

abbrev perform (op : Op) : Handler op.Answer := Prog.perform op

def transportKeyBytes : Nat := 32

def maxKeyPerRequest : Nat := 64

def maxKeySizeBits : Nat := transportKeyBytes * 8

def minKeySizeBits : Nat := 64

def maxSaeIdCount : Nat := 16

def saeServedLocally (saeBindings : List (SaeId × NodeId)) (nodeId : NodeId) (sae : SaeId) : Bool :=
  saeBindings.any fun binding => binding.2 = nodeId && binding.1 = sae

def authorizeLocalSae (cfg : DkmsConfig) (self : NodeId) (requester : SaeId) :
    Except DkmsError Unit :=
  if !cfg.enforceAuthorization then .ok ()
  else if saeServedLocally cfg.saeBindings self requester then .ok ()
  else .error (.unknownSae requester)

/-- An ETSI-014 `enc_keys` request, its SAE list and its security level already parsed. -/
structure KeyRequest where
  master : SaeId
  slave : SaeId
  number : Nat
  size : Nat
  additionalSaes : List SaeId
  level : Except String (Option SecurityLevel)

/-- What the request meets outside the node: where each SAE resides, whether a peer has a QKD
path, what the rate limiter says, and the random numbers of its session keys. -/
structure Surroundings where
  resolve : SaeId → Option NodeId
  qkdAvailable : NodeId → Option Bool
  limited : Option (Nat × Nat)
  uuid : Nat → KeyId
  random : Nat → Nat → UInt8

structure SessionKey where
  keyId : KeyId
  bytes : Bytes
  deriving DecidableEq, Repr

structure Group where
  peer : NodeId
  saes : List SaeId
  prefs : List KeyGrade
  deriving DecidableEq, Repr

structure EncPlan where
  master : SaeId
  localAuthorized : List SaeId
  groups : List Group
  sessionKeys : List SessionKey

def generateSessionKeys (number sizeBytes : Nat) (env : Surroundings) : List SessionKey :=
  (range number).map fun i => ⟨env.uuid i, (range sizeBytes).map (env.random i)⟩

def KeyRequest.sessionKeys (r : KeyRequest) (env : Surroundings) : List SessionKey :=
  generateSessionKeys r.number ((r.size + 7) / 8) env

def KeyRequest.validate (r : KeyRequest) : Except String Unit :=
  if r.number < 1 then .error "validation: number must be >= 1"
  else if r.size = 0 then .error "validation: size must be > 0"
  else .ok ()

def checkRequestLimits (r : KeyRequest) (saes : Nat) : Except DkmsError Unit :=
  if r.number > maxKeyPerRequest then
    .error (.badRequest s!"number {r.number} exceeds max_key_per_request {maxKeyPerRequest}")
  else if r.size % 8 ≠ 0 then
    .error (.badRequest s!"size {r.size} is not a multiple of 8 bits")
  else if r.size < minKeySizeBits ∨ r.size > maxKeySizeBits then
    .error (.badRequest s!"size {r.size} outside [{minKeySizeBits}, {maxKeySizeBits}] bits")
  else if saes > maxSaeIdCount then
    .error (.badRequest s!"{saes} destination SAEs exceeds max_SAE_ID_count {maxSaeIdCount}")
  else .ok ()

def groupByNode (resolve : SaeId → Option NodeId) :
    List SaeId → TreeMap NodeId (List SaeId) → Except DkmsError (TreeMap NodeId (List SaeId))
  | [], groups => .ok groups
  | sae :: saes, groups =>
    match resolve sae with
    | none => .error (.saeBindingLookupFailed sae)
    | some node => groupByNode resolve saes (groups.insert node (groups.getD node [] ++ [sae]))

def checkPeerCount (cfg : DkmsConfig) (remote : Nat) : Except DkmsError Unit :=
  if remote > cfg.maxConcurrentPeers then
    .error (.badRequest s!"too many destination DKMSs ({remote}), max {cfg.maxConcurrentPeers}")
  else .ok ()

/-- A `strict_qkd` request is refused up front where no QKD path is known to exist. -/
def checkQkdPaths (levelFor : NodeId → SecurityLevel) (env : Surroundings) (remote : List NodeId) :
    Except DkmsError Unit :=
  match remote.find? fun peer =>
      levelFor peer = .strictQkd && env.qkdAvailable peer = some false with
  | some peer =>
    .error (.badRequest s!"strict_qkd requested but SDN reports no QKD path to dkms {peer}")
  | none => .ok ()

def checkAdmission (env : Surroundings) (master : SaeId) : Except DkmsError Unit :=
  match env.limited with
  | some (requested, available) => .error (.rateLimited master requested available)
  | none => .ok ()

def admitEncKeys (cfg : DkmsConfig) (self : NodeId) (r : KeyRequest) (env : Surroundings) :
    Except DkmsError EncPlan := do
  authorizeLocalSae cfg self r.master
  r.validate.mapError .badRequest
  let authorized := ((r.slave :: r.additionalSaes).insertionSort (· ≤ ·)).dedup
  checkRequestLimits r authorized.length
  let groups ← groupByNode env.resolve authorized ∅
  let remote := groups.toList.filter (·.1 ≠ self)
  checkPeerCount cfg remote.length
  let requested ← r.level.mapError .badRequest
  let levelFor := fun peer => requested.getD (cfg.securityLevelFor peer)
  checkQkdPaths levelFor env (remote.map (·.1))
  checkAdmission env r.master
  return {
    master := r.master
    localAuthorized := groups.getD self []
    groups := remote.map fun group => ⟨group.1, group.2, (levelFor group.1).servePref⟩
    sessionKeys := r.sessionKeys env }

variable {cfg : DkmsConfig} {self : NodeId} {r : KeyRequest} {env : Surroundings} {plan : EncPlan}

section

variable (admitted : admitEncKeys cfg self r env = .ok plan)
include admitted

theorem admitEncKeys_cases :
    ∃ saes groups, ∃ levelFor : NodeId → SecurityLevel, checkRequestLimits r saes.length = .ok () ∧
      groupByNode env.resolve saes ∅ = .ok groups ∧
      plan = ⟨r.master, groups.getD self [],
        (groups.toList.filter (·.1 ≠ self)).map fun group =>
          ⟨group.1, group.2, (levelFor group.1).servePref⟩, r.sessionKeys env⟩ := by
  obtain ⟨_, -, admitted⟩ := ok_of_bind admitted
  obtain ⟨_, -, admitted⟩ := ok_of_bind admitted
  obtain ⟨_, limits, admitted⟩ := ok_of_bind admitted
  obtain ⟨groups, grouped, admitted⟩ := ok_of_bind admitted
  obtain ⟨_, -, admitted⟩ := ok_of_bind admitted
  obtain ⟨requested, -, admitted⟩ := ok_of_bind admitted
  obtain ⟨_, -, admitted⟩ := ok_of_bind admitted
  obtain ⟨_, -, admitted⟩ := ok_of_bind admitted
  cases admitted
  exact ⟨_, groups, fun peer => requested.getD (cfg.securityLevelFor peer), limits, grouped, rfl⟩

theorem admitEncKeys_ok :
    plan.sessionKeys = r.sessionKeys env ∧ ∀ group ∈ plan.groups, group.peer ≠ self := by
  obtain ⟨saes, groups, levelFor, -, -, rfl⟩ := admitEncKeys_cases admitted
  refine ⟨rfl, ?_⟩
  intro group member
  obtain ⟨pair, remote, rfl⟩ := mem_map.mp member
  simpa using (mem_filter.mp remote).2

omit admitted in
theorem groupByNode_size {resolve : SaeId → Option NodeId} {saes : List SaeId}
    {groups result : TreeMap NodeId (List SaeId)}
    (grouped : groupByNode resolve saes groups = .ok result) :
    result.size ≤ groups.size + saes.length := by
  induction saes generalizing groups with
  | nil =>
    cases grouped
    exact Nat.le_refl _
  | cons sae saes ih =>
    unfold groupByNode at grouped
    split at grouped
    · cases grouped
    rename_i node resolved
    have bound := ih grouped
    have one : (groups.insert node (groups.getD node [] ++ [sae])).size ≤ groups.size + 1 :=
      TreeMap.size_insert_le
    rw [length_cons]
    omega

omit admitted in
theorem checkRequestLimits_ok {saes : Nat} (passed : checkRequestLimits r saes = .ok ()) :
    r.number ≤ maxKeyPerRequest ∧ minKeySizeBits ≤ r.size ∧ r.size ≤ maxKeySizeBits ∧
      saes ≤ maxSaeIdCount := by
  unfold checkRequestLimits at passed
  split_ifs at passed
  omega

theorem admitEncKeys_limits :
    r.number ≤ maxKeyPerRequest ∧ minKeySizeBits ≤ r.size ∧ r.size ≤ maxKeySizeBits ∧
      plan.groups.length ≤ maxSaeIdCount := by
  obtain ⟨saes, groups, levelFor, passed, grouped, rfl⟩ := admitEncKeys_cases admitted
  obtain ⟨number, least, most, few⟩ := checkRequestLimits_ok passed
  have size := groupByNode_size grouped
  have remote := groups.toList.length_filter_le fun group => group.1 ≠ self
  rw [TreeMap.length_toList] at remote
  rw [TreeMap.size_emptyc] at size
  rw [length_map]
  exact ⟨number, least, most, by omega⟩

theorem sessionKeys_short : plan.sessionKeys.length = r.number ∧
      ∀ k ∈ plan.sessionKeys, k.bytes.length ≤ transportKeyBytes := by
  obtain ⟨-, -, most, -⟩ := admitEncKeys_limits admitted
  rw [(admitEncKeys_ok admitted).1, KeyRequest.sessionKeys, generateSessionKeys]
  refine ⟨by simp, ?_⟩
  intro k member
  obtain ⟨i, -, rfl⟩ := mem_map.mp member
  rw [maxKeySizeBits] at most
  simp only [length_map, length_range]
  omega

end

structure Popped where
  peer : NodeId
  grade : KeyGrade
  key : TransportKey
  deriving DecidableEq, Repr

def encPopPref (peer : NodeId) : List KeyGrade → Handler (Option Popped)
  | [] => pure none
  | grade :: prefs => do
    match ← perform (.popOldest peer grade) with
    | some key => pure (some ⟨peer, grade, key⟩)
    | none => encPopPref peer prefs

def pushFrontAll : List Popped → Handler Unit
  | [] => pure ()
  | p :: popped => do
    perform (.pushFront p.peer p.grade p.key)
    pushFrontAll popped

/-- Last out, first back: the buffers end in the order they had. -/
def giveBack (popped : List Popped) : Handler Unit := pushFrontAll popped.reverse

def wrapKey (sha : Bytes → Bytes) (k : SessionKey) (transport : TransportKey) :
    Except DkmsError Etsi020Key :=
  match wrapSessionKey transport.bytes k.bytes with
  | .error message => .error (.crypto message)
  | .ok ciphertext =>
    .ok ⟨k.keyId, ciphertext, some ⟨some transport.id, some (keyDigest sha k.keyId k.bytes)⟩⟩

def wrapKeys (sha : Bytes → Bytes) (group : Group) :
    List SessionKey → List Etsi020Key → List Popped →
      Handler (Except DkmsError (List Etsi020Key × List Popped))
  | [], keys, popped => pure (.ok (keys, popped))
  | k :: rest, keys, popped => do
    match ← encPopPref group.peer group.prefs with
    | none =>
      giveBack popped
      pure (.error (.transportBufferEmpty group.peer))
    | some p =>
      if p.key.bytes.length < transportKeyBytes then
        -- the short key itself does not go back
        giveBack popped
        pure (.error (.crypto (s!"transport key too short ({p.key.bytes.length} bytes, " ++
          s!"need {transportKeyBytes})")))
      else
        match wrapKey sha k p.key with
        | .error error => pure (.error error)
        | .ok wrapped => wrapKeys sha group rest (keys ++ [wrapped]) (popped ++ [p])

def buildExtKeysEnvelope (sha : Bytes → Bytes) (cfg : DkmsConfig) (plan : EncPlan) (group : Group) :
    Handler (Except DkmsError (Etsi020ExtKeyContainer × List Popped)) := do
  match ← wrapKeys sha group plan.sessionKeys [] [] with
  | .error error => pure (.error error)
  | .ok (keys, popped) =>
    let body := ⟨keys, plan.master, group.saes, some [("ttl_seconds", some cfg.defaultTtlSecs)]⟩
    pure (.ok (body, popped))

structure Envelope where
  peer : NodeId
  body : Etsi020ExtKeyContainer

def buildEnvelopes (sha : Bytes → Bytes) (cfg : DkmsConfig) (plan : EncPlan) :
    List Group → List Envelope → List Popped → Handler (List Popped × Except DkmsError (List Envelope))
  | [], envelopes, popped => pure (popped, .ok envelopes)
  | group :: groups, envelopes, popped => do
    match ← buildExtKeysEnvelope sha cfg plan group with
    | .error error => pure (popped, .error error)
    | .ok (body, keys) =>
      buildEnvelopes sha cfg plan groups (envelopes ++ [⟨group.peer, body⟩]) (popped ++ keys)

/-- Every envelope needs a client and a configured peer before any of them is sent. -/
def checkDestinations (cfg : DkmsConfig) : List Envelope → Handler (Except DkmsError Unit)
  | [] => pure (.ok ())
  | envelope :: envelopes => do
    if !cfg.hasPeerClient then
      pure (.error (.badRequest (s!"peer dkms {envelope.peer} ETSI020 HTTP peer_client missing — " ++
        "orchestator misconfig (tls.cert_path/peer_dkms_ca required)")))
    else if ← perform (.knownPeer envelope.peer) then checkDestinations cfg envelopes
    else pure (.error (.badRequest s!"peer dkms {envelope.peer} not configured"))

def sendAll : List Envelope → List (NodeId × Nat) → Handler (List (NodeId × Nat))
  | [], sent => pure sent
  | envelope :: envelopes, sent => do
    let post ← perform (.sendExtKeys envelope.peer envelope.body)
    sendAll envelopes (sent ++ [(envelope.peer, post)])

/-- Waits for every answer. Of an acknowledgement only its arrival is looked at. -/
def awaitAll : List (NodeId × Nat) → List DkmsError → Handler (List DkmsError)
  | [], failed => pure failed
  | (_, post) :: sent, failed => do
    match ← perform (.extKeysAnswer post) with
    | .ok () => awaitAll sent failed
    | .error error => awaitAll sent (failed ++ [error])

def forceRemoveAll : List SessionKey → Handler Unit
  | [] => pure ()
  | k :: keys => do
    perform (.forceRemove k.keyId)
    forceRemoveAll keys

def encClear (peer : NodeId) : Handler Unit := do
  perform (.encClear peer .qkd)
  perform (.encClear peer .pqc)

/-- Drops the `buffer_enc` of a peer whose refusal shows it no longer has our keys. -/
def resyncTransportBufferIfStale (error : DkmsError) : Handler Unit :=
  match error.peerWithStaleTransportBuffer with
  | some peer => encClear peer
  | none => pure ()

def resyncTransportBuffers : List DkmsError → Handler Unit
  | [] => pure ()
  | error :: errors => do
    resyncTransportBufferIfStale error
    resyncTransportBuffers errors

def pendingInsertAll (master : SaeId) (authorized : List SaeId) : List SessionKey → Handler Unit
  | [] => pure ()
  | k :: keys => do
    perform (.pendingInsert k.keyId master authorized k.bytes)
    pendingInsertAll master authorized keys

def storeLocally (plan : EncPlan) : Handler Unit :=
  if plan.localAuthorized = [] then pure ()
  else pendingInsertAll plan.master plan.localAuthorized plan.sessionKeys

/-- Nothing has left the process: transport keys go back, local entries go. -/
def rollback (plan : EncPlan) (popped : List Popped) (error : DkmsError) :
    Handler (Except DkmsError (List Etsi014Key)) := do
  giveBack popped
  forceRemoveAll plan.sessionKeys
  pure (.error error)

/-- From here on the envelopes are out and their transport keys are spent, whatever comes. -/
def distribute (plan : EncPlan) (envelopes : List Envelope) :
    Handler (Except DkmsError (List Etsi014Key)) := do
  let sent ← sendAll envelopes []
  match ← awaitAll sent [] with
  | [] => pure (.ok (plan.sessionKeys.map fun k => ⟨k.keyId, k.bytes⟩))
  | first :: failed => do
    resyncTransportBuffers (first :: failed)
    forceRemoveAll plan.sessionKeys
    pure (.error (.peerUnreachable first.text "one or more peer DKMSs failed during key distribution"))

def serveEncKeys (sha : Bytes → Bytes) (cfg : DkmsConfig) (plan : EncPlan) :
    Handler (Except DkmsError (List Etsi014Key)) := do
  storeLocally plan
  match ← buildEnvelopes sha cfg plan plan.groups [] [] with
  | (popped, .error error) => rollback plan popped error
  | (popped, .ok envelopes) =>
    match ← checkDestinations cfg envelopes with
    | .error error => rollback plan popped error
    | .ok () => distribute plan envelopes

def handleEncKeys (sha : Bytes → Bytes) (cfg : DkmsConfig) (self : NodeId) (r : KeyRequest)
    (env : Surroundings) : Handler (Except DkmsError (List Etsi014Key)) :=
  match admitEncKeys cfg self r env with
  | .error error => pure (.error error)
  | .ok plan => serveEncKeys sha cfg plan

end Dkms.Node
