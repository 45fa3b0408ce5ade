import Dkms.Node.EncKeys

namespace Dkms.Node

open Std Dkms.Core

/-- The receipt of a transport key: it moves from `ack_pending` to `buffer_enc`, in two steps. -/
def onAck (peer : NodeId) (keyId : KeyId) : Handler Bool := do
  match ← perform (.ackTake peer keyId) with
  | .unknownPeer => pure false
  | .unknownKey => pure false
  | .hit entry =>
    perform (.tryPush peer entry.grade ⟨keyId, entry.bytes⟩)
    pure true

def handleIncomingAck (peer : NodeId) : List KeyId → Nat → Handler Nat
  | [], matched => pure matched
  | keyId :: keyIds, matched => do
    if ← onAck peer keyId then handleIncomingAck peer keyIds (matched + 1)
    else handleIncomingAck peer keyIds matched

/-- What one emission draws: a fresh id, random bytes, and whether the SDN reports a QKD path
to the peer at that moment. -/
structure Draw where
  keyId : KeyId
  bytes : Bytes
  qkd : Bool

/-- What a tick finds for a peer with a positive rate: the tokens of its bucket after the
refill, and what its emissions will draw. -/
structure Quota where
  tokens : Nat
  draw : Nat → Draw

structure Emission where
  peer : NodeId
  draw : Draw

/-- The plan of a tick. The free space of each peer is read with three locks, one after the
other, and the number of emissions is capped to it. -/
def planTick (cfg : DkmsConfig) : List (NodeId × Quota) → List Emission → Handler (List Emission)
  | [], plan => pure plan
  | (peer, quota) :: work, plan => do
    let qkd ← perform (.encLen peer .qkd)
    let pqc ← perform (.encLen peer .pqc)
    let waiting ← perform (.pendingCount peer)
    let headroom := cfg.capacityPerPeer - (qkd + pqc + waiting)
    if headroom = 0 then planTick cfg work plan
    else
      let perTick := min cfg.maxTokensPerPeerPerTick headroom
      let emissions := (List.range (min quota.tokens perTick)).map fun i => ⟨peer, quota.draw i⟩
      planTick cfg work (plan ++ emissions)

def frameOf (cfg : DkmsConfig) (self : NodeId) (incarnation : String) (e : Emission) :
    BufferFrame where
  dest := e.peer
  keyId := some e.draw.keyId
  saeOrigin := some self
  keySizeBits := some (cfg.keySizeBytes * 8)
  incarnation := some incarnation
  payload := e.draw.bytes

/-- `emit_key` up to its await: the key is pending before it is sent, and no longer so if
there is no epoch to seal it with. -/
def startEmission (cfg : DkmsConfig) (self : NodeId) (incarnation : String) (e : Emission) :
    Handler Bool := do
  if ← perform (.knownPeer e.peer) then
    let grade := if e.draw.qkd then KeyGrade.qkd else .pqc
    perform (.ackInsert e.peer e.draw.keyId e.draw.bytes grade)
    if ← perform (.e2eSeal e.peer e.draw.keyId) then
      perform (.sendKey (frameOf cfg self incarnation e))
      pure true
    else
      perform (.ackDiscard e.peer e.draw.keyId)
      pure false
  else pure false

def finishEmission (inFlight : List Emission) : Handler (List Emission) := do
  let (i, sent) ← perform (.sendKeyDone inFlight.length)
  match inFlight[i]? with
  | none => pure inFlight
  | some e =>
    if sent then pure (inFlight.eraseIdx i)
    else
      perform (.ackDiscard e.peer e.draw.keyId)
      pure (inFlight.eraseIdx i)

/-- All emissions of the tick, at most `max_emits_in_flight` at a time. Each turn starts one or
ends one; the result is what was left when the fuel ran out. -/
def emitAll (cfg : DkmsConfig) (self : NodeId) (incarnation : String) :
    Nat → List Emission → List Emission → Handler (List Emission × List Emission)
  | 0, plan, inFlight => pure (plan, inFlight)
  | fuel + 1, [], inFlight =>
    if inFlight.isEmpty then pure ([], [])
    else do
      let inFlight ← finishEmission inFlight
      emitAll cfg self incarnation fuel [] inFlight
  | fuel + 1, e :: plan, inFlight =>
    if inFlight.length < max cfg.maxEmitsInFlight 1 then do
      if ← startEmission cfg self incarnation e then
        emitAll cfg self incarnation fuel plan (inFlight ++ [e])
      else emitAll cfg self incarnation fuel plan inFlight
    else do
      let inFlight ← finishEmission inFlight
      emitAll cfg self incarnation fuel (e :: plan) inFlight

def tickOnce (cfg : DkmsConfig) (self : NodeId) (incarnation : String)
    (work : TreeMap NodeId Quota) : Handler (List Emission × List Emission) := do
  let plan ← planTick cfg work.toList []
  emitAll cfg self incarnation (2 * plan.length) plan []

def forgetMaterialOfPreviousIncarnation (peer : NodeId) : Handler Unit := do
  encClear peer
  perform (.decClear peer)
  perform (.dropPeer peer)

def notePeerIncarnation (peer : NodeId) (incarnation : String) : Handler Unit := do
  match ← perform (.noteIncarnation peer incarnation) with
  | some _ => forgetMaterialOfPreviousIncarnation peer
  | none => pure ()

def noteHeader (source : NodeId) : Option String → Handler Unit
  | some incarnation => notePeerIncarnation source incarnation
  | none => pure ()

def acknowledge (cfg : DkmsConfig) (source : NodeId) (keyId : KeyId) : Handler Unit :=
  if cfg.hasAckRoute then perform (.enqueueAck source keyId) else pure ()

/-- A transport key a peer fills our `buffer_dec` with; the answer says if it was opened. Its
header is not believed before that. -/
def handleOrrDeliveryBuffer (cfg : DkmsConfig) (frame : BufferFrame) :
    Handler (Except DkmsError Bool) := do
  match frame.keyId, frame.saeOrigin with
  | none, _ => pure (.error (.badRequest "orr buffer delivery missing key_id"))
  | some _, none => pure (.error (.badRequest "orr buffer delivery missing sae_origin"))
  | some keyId, some source =>
    let known ← perform (.knownPeer source)
    if !isValidId source || !known then pure (.ok false)
    else if frame.keySizeBits.any fun bits => frame.payload.length ≠ (bits + 7) / 8 then
      pure (.error (.badRequest (s!"orr buffer delivery {keyId}: payload " ++
        s!"{frame.payload.length} bytes, header {frame.keySizeBits.getD 0} bits")))
    else
      match ← perform (.e2eOpen frame) with
      | none => pure (.ok false)
      | some plaintext =>
        noteHeader source frame.incarnation
        if ← perform (.tryPushCapped source ⟨keyId, plaintext⟩) then
          acknowledge cfg source keyId
          pure (.ok true)
        else pure (.ok true)

end Dkms.Node
