import Dkms.Node.EncKeys

namespace Dkms.Node

open Std Dkms.Core

def takeKeys (requester master : SaeId) :
    List KeyId → List Etsi014Key → Handler (Except DkmsError (List Etsi014Key))
  | [], keys => pure (.ok keys)
  | keyId :: keyIds, keys => do
    match ← perform (.takeForSae keyId requester master) with
    | .error error => pure (.error error)
    | .ok (material, _) => takeKeys requester master keyIds (keys ++ [⟨keyId, material⟩])

def handleDecKeys (cfg : DkmsConfig) (self : NodeId) (requester master : SaeId)
    (keyIds : List KeyId) : Handler (Except DkmsError (List Etsi014Key)) :=
  match authorizeLocalSae cfg self requester with
  | .error error => pure (.error error)
  | .ok () => takeKeys requester master keyIds []

def invalidId (s : String) : String :=
  s!"id inválido ({s.utf8ByteSize} bytes; se admiten 1..={maxIdLen} de [A-Za-z0-9._:@+-])"

def tryId (field s : String) : Except DkmsError String :=
  if isValidId s then .ok s else .error (.badRequest s!"{field}: {invalidId s}")

def checkIngressLimits (body : Etsi020ExtKeyContainer) : Except DkmsError Unit :=
  if body.targetSaeIds.length > maxSaeIdCount then
    .error (.badRequest s!"too many target_sae_ids ({body.targetSaeIds.length}), max {maxSaeIdCount}")
  else if body.keys.length > maxKeyPerRequest then
    .error (.badRequest s!"too many keys ({body.keys.length}), max {maxKeyPerRequest}")
  else .ok ()

def checkMandatoryExtensions (body : Etsi020ExtKeyContainer) : Except DkmsError Unit :=
  match (body.extensionMandatory.getD []).find? (·.1 ≠ "ttl_seconds") with
  | some unknown => .error (.badRequest s!"unsupported mandatory extension: {repr unknown.1}")
  | none => .ok ()

def checkServedHere (cfg : DkmsConfig) (self : NodeId) (targets : List SaeId) :
    Except DkmsError Unit :=
  if !cfg.enforceAuthorization then .ok ()
  else
    match targets.find? (!saeServedLocally cfg.saeBindings self ·) with
    | some bad => .error (.badRequest s!"target sae {bad} is not served by this dkms")
    | none => .ok ()

def proposedTtl (cfg : DkmsConfig) (body : Etsi020ExtKeyContainer) : Option Nat :=
  let maxPeerTtl := max (cfg.defaultTtlSecs * 4) 3600
  let proposed := (body.extensionMandatory.getD []).find? (·.1 = "ttl_seconds")
  (proposed.bind (·.2)).map fun seconds => min seconds maxPeerTtl * 1000

structure Delivery where
  peer : NodeId
  initiator : SaeId
  authorized : List SaeId
  ttl : Option Nat

def admitExtKeys (cfg : DkmsConfig) (self peer : NodeId) (body : Etsi020ExtKeyContainer) :
    Except DkmsError Delivery := do
  body.validate.mapError .badRequest
  checkIngressLimits body
  checkMandatoryExtensions body
  let initiator ← tryId "initiator_sae_id" body.initiatorSaeId
  let targets ← body.targetSaeIds.mapM (tryId "target_sae_ids")
  checkServedHere cfg self targets
  return ⟨peer, initiator, targets.dedup, proposedTtl cfg body⟩

def transportKeyIdOf (k : Etsi020Key) : Except DkmsError KeyId :=
  match k.extension.bind (·.transportKeyId) with
  | none => .error (.badRequest "Etsi020Key.extension.transport_key_id missing")
  | some id => tryId "transport_key_id" id

def digestMatches (sha : Bytes → Bytes) (k : Etsi020Key) (plaintext : Bytes) : Bool :=
  match k.extension.bind (·.sessionKeyDigest) with
  | none => true
  | some expected => keyDigest sha k.keyId plaintext = expected

/-- The loop of `handle_incoming_ext_keys`. A key with another digest and a key whose id is
taken are left out of the acknowledgement, and the loop goes on. -/
def receiveKeys (sha : Bytes → Bytes) (d : Delivery) :
    List Etsi020Key → List KeyId → Handler (Except DkmsError (List KeyId))
  | [], acked => pure (.ok acked)
  | k :: keys, acked => do
    match transportKeyIdOf k with
    | .error error => pure (.error error)
    | .ok transportKeyId =>
      match ← perform (.takeById d.peer transportKeyId) with
      | none => pure (.error (.transportKeyMissing d.peer transportKeyId))
      | some transport =>
        match unwrapSessionKey transport.bytes k.value with
        | .error message => pure (.error (.crypto message))
        | .ok plaintext =>
          if !digestMatches sha k plaintext then receiveKeys sha d keys acked
          else
            match ← perform
              (.insertFromPeer k.keyId d.peer d.initiator d.authorized plaintext d.ttl) with
            | .ok () => receiveKeys sha d keys (acked ++ [k.keyId])
            | .error .occupied => receiveKeys sha d keys acked
            | .error .originFull => pure (.error (.pendingFull d.peer))

def handleIncomingExtKeys (sha : Bytes → Bytes) (cfg : DkmsConfig) (self peer : NodeId)
    (body : Etsi020ExtKeyContainer) : Handler (Except DkmsError Etsi020ExtKeyAckContainer) :=
  match admitExtKeys cfg self peer body with
  | .error error => pure (.error error)
  | .ok delivery => do
    match ← receiveKeys sha delivery body.keys [] with
    | .error error => pure (.error error)
    | .ok acked => pure (.ok ⟨acked, body.initiatorSaeId, body.targetSaeIds.headD ""⟩)

def handleExtKeys (sha : Bytes → Bytes) (cfg : DkmsConfig) (self peer : NodeId)
    (body : Etsi020ExtKeyContainer) : Handler (Except DkmsError Etsi020ExtKeyAckContainer) := do
  if ← perform (.knownPeer peer) then handleIncomingExtKeys sha cfg self peer body
  else pure (.error (.unknownPeer peer))

theorem tryId_ok {field s id : String} (accepted : tryId field s = .ok id) : id = s := by
  unfold tryId at accepted
  split at accepted
  · cases accepted
    rfl
  · cases accepted

theorem mapM_tryId_ok {field : String} {texts ids : List String}
    (accepted : texts.mapM (tryId field) = .ok ids) : ids = texts := by
  induction texts generalizing ids with
  | nil =>
    cases accepted
    rfl
  | cons text texts ih =>
    rw [List.mapM_cons] at accepted
    obtain ⟨id, first, accepted⟩ := ok_of_bind accepted
    obtain ⟨rest, others, accepted⟩ := ok_of_bind accepted
    cases accepted
    rw [tryId_ok first, ih others]

variable {config : DkmsConfig} {self peer : NodeId} {body : Etsi020ExtKeyContainer}

theorem admitExtKeys_ok {d : Delivery} (admitted : admitExtKeys config self peer body = .ok d) :
    d.peer = peer ∧ ∀ sae ∈ body.targetSaeIds, sae ∈ d.authorized := by
  obtain ⟨_, -, admitted⟩ := ok_of_bind admitted
  obtain ⟨_, -, admitted⟩ := ok_of_bind admitted
  obtain ⟨_, -, admitted⟩ := ok_of_bind admitted
  obtain ⟨_, -, admitted⟩ := ok_of_bind admitted
  obtain ⟨targets, parsed, admitted⟩ := ok_of_bind admitted
  obtain ⟨_, -, admitted⟩ := ok_of_bind admitted
  cases admitted
  refine ⟨rfl, ?_⟩
  intro sae member
  rw [mapM_tryId_ok parsed]
  exact List.mem_dedup.mpr member

theorem admitExtKeys_targets {d : Delivery}
    (admitted : admitExtKeys config self peer body = .ok d) : ∃ sae, sae ∈ d.authorized := by
  have listed := (admitExtKeys_ok admitted).2
  obtain ⟨_, valid, -⟩ := ok_of_bind admitted
  cases targets : body.targetSaeIds with
  | nil =>
    unfold Etsi020ExtKeyContainer.validate at valid
    split at valid <;> cases valid
  | cons sae rest => exact ⟨sae, listed sae (by rw [targets]; exact List.mem_cons_self)⟩

theorem transportKeyIdOf_ok {k : Etsi020Key} {id : KeyId} (named : transportKeyIdOf k = .ok id) :
    k.extension.bind (·.transportKeyId) = some id := by
  unfold transportKeyIdOf at named
  split at named
  · cases named
  · rename_i text found
    rw [found, tryId_ok named]

end Dkms.Node
