import Dkms.Orr.Onion
import Dkms.Orr.Tasks
import Dkms.Replay.Window

namespace Dkms.Orr

open Std Dkms.Core Dkms.Link Dkms.Replay

def headerType : String := "ORR"
def onionWindow : Nat := 65536
structure OrrHeader where
  kind : String
  fromOrr : String
  toOrr : String
  nextOrrId : String
  keyId : Option KeyId
  maxHops : Int32
  fresh : Freshness
  tag : Bytes
  deriving DecidableEq

def OrrHeader.onion (fromOrr toOrr nextOrrId : String) (keyId : KeyId) (maxHops : Int32)
    (fresh : Freshness) (tag : Bytes) : OrrHeader where
  kind := headerType
  fromOrr
  toOrr
  nextOrrId
  keyId := some keyId
  maxHops
  fresh
  tag

def OrrHeader.passthrough (fromOrr toOrr : String) : OrrHeader where
  kind := headerType
  fromOrr
  toOrr
  nextOrrId := toOrr
  keyId := none
  maxHops := 0
  fresh := ⟨0, 0⟩
  tag := List.replicate 16 0

structure OrrFrame (Header : Type) where
  grade : UInt8
  destFinal : UInt32
  epochId : UInt32
  header : OrrHeader
  dkms : Header
  payload : Bytes
  deriving DecidableEq

structure DeliveredMessage (Header : Type) where
  origin : Option String
  destination : String
  payload : Bytes
  appHeader : Header
  pqcDecapsulated : Bool
  deriving DecidableEq

/-- `peers` and `tasks` are those of the `Establisher`. -/
structure OrrService extends Establisher where
  orrId : String
  localQkcId : UInt32
  onionSession : UInt64
  onionCounter : UInt64
  onionReplay : String → Option (ReplayWindow (max onionWindow 64))

structure SendOutcome where
  status : String
  finalDestOrr : String
  nextHopQkc : UInt32
  remainingHops : Int32
  pqcLayer : Bool
  deriving DecidableEq

inductive Handed (Header : Type) where
  | delivered (message : DeliveredMessage Header)
  | framed (frame : OrrFrame Header)
  deriving DecidableEq

inductive Incoming (Header : Type) where
  | ignored
  | noSecret
  | failed (e : OrrError)
  | replayed (e : ReplayError)
  | delivered (message : DeliveredMessage Header)
  | forwarded (frame : OrrFrame Header)

namespace OrrService

def new (orrId : String) (localQkcId : UInt32) (session : UInt64) : OrrService where
  peers := .new
  tasks := []
  orrId
  localQkcId
  onionSession := max session 1
  onionCounter := 0
  onionReplay _ := none

variable {Header : Type} (suite : Suite Header) (s : OrrService)

def qkcId (orrId : String) : Option UInt32 :=
  if orrId = s.orrId then some s.localQkcId else s.peers.byOrr orrId

def nextOnionFreshness : Freshness × OrrService :=
  (⟨s.onionSession, s.onionCounter + 1⟩, { s with onionCounter := s.onionCounter + 1 })

def onionFrame (finalDestOrr : String) (nextQkc : UInt32) (onion : OnionWire) (appHeader : Header)
    (grade : UInt8) : OrrFrame Header where
  grade
  destFinal := nextQkc
  epochId := onion.firstEpochId
  header := .onion s.orrId finalDestOrr onion.firstHopOrr onion.firstKeyId onion.maxHops onion.fresh onion.tag
  dkms := appHeader
  payload := onion.payload

def draw (hops : List PathHopSecret) (keyIds : Nat → KeyId) : List (PathHopSecret × KeyId) :=
  hops.zipIdx.map fun (hop, i) => (hop, keyIds i)

def triggerPassiveRebootstrap (peerId : String) (now : Nat) : OrrService :=
  { s with toEstablisher := s.toEstablisher.triggerPassiveRebootstrap peerId now }

def sendOnionE2e (keyIds : Nat → KeyId) (destOrr : String) (payload : Bytes) (appHeader : Header)
    (grade : UInt8) (now : Nat) : Except OrrError (OrrFrame Header × List Layer) × OrrService :=
  match s.qkcId destOrr with
  | none => (.error (.relay s!"ORR destino {destOrr} no resoluble"), s)
  | some destQkc =>
    match s.peers.sendEpochFor destOrr with
    | none =>
      (.error (.relay s!"ORR destino {destOrr} sin master_secret (rebootstrap triggered, retry)"),
        s.triggerPassiveRebootstrap destOrr now)
    | some epochId =>
      match s.peers.masterForEpoch destOrr epochId with
      | none =>
        (.error (.relay s!"ORR destino {destOrr} sin master_secret para epoch {epochId}"), s)
      | some secret =>
        let (fresh, s) := s.nextOnionFreshness
        match suite.buildOnion (draw [⟨destOrr, secret, epochId⟩] keyIds) payload fresh
            (suite.encodeDkms appHeader) with
        | .error e => (.error e, s)
        | .ok (onion, layers) => (.ok (s.onionFrame destOrr destQkc onion appHeader grade, layers), s)

def pathHopSecret (orrId : String) : Except OrrError PathHopSecret :=
  match s.qkcId orrId with
  | none => .error (.relay s!"hop {orrId} sin qkc_id en peers config")
  | some _ =>
    match s.peers.sendEpochFor orrId with
    | none => .error (.relay s!"hop {orrId} sin master_secret (bootstrap incompleto)")
    | some epochId =>
      match s.peers.masterForEpoch orrId epochId with
      | none => .error (.relay s!"hop {orrId} sin master_secret para epoch {epochId}")
      | some secret => .ok ⟨orrId, secret, epochId⟩

/-- A layer for each hop of the path that the hint, the cache or the SDN gave, cut to the hops
that were drawn. -/
def sendOnionPath (keyIds : Nat → KeyId) (destOrr : String) (fullPath : List String)
    (payload : Bytes) (appHeader : Header) (grade : UInt8) :
    Except OrrError (OrrFrame Header × List Layer) × OrrService :=
  match fullPath.mapM s.pathHopSecret with
  | .error e => (.error e, s)
  | .ok hops =>
    let (fresh, s) := s.nextOnionFreshness
    match suite.buildOnion (draw hops keyIds) payload fresh (suite.encodeDkms appHeader) with
    | .error e => (.error e, s)
    | .ok (onion, layers) =>
      match s.qkcId onion.firstHopOrr with
      | none => (.error (.relay s!"first hop {onion.firstHopOrr} sin qkc_id en peers config"), s)
      | some firstQkc => (.ok (s.onionFrame destOrr firstQkc onion appHeader grade, layers), s)

def sendPassthrough (destOrr : String) (payload : Bytes) (appHeader : Header) (grade : UInt8) :
    Except OrrError (OrrFrame Header) :=
  match s.qkcId destOrr with
  | none => .error (.relay s!"ORR destino {destOrr} no resoluble (peers config)")
  | some destQkc => .ok
    { grade
      destFinal := destQkc
      epochId := 0
      header := .passthrough s.orrId destOrr
      dkms := appHeader
      payload }

/-- `shuffle` is what the random generator makes of the indices before the destination. -/
def selectRandomHops (shuffle : Nat → List Nat) (path : List String) (n : Nat) :
    Except OrrError (List String) :=
  if n = 0 then .error (.invalidPath "cap == 0")
  else if path.length ≤ n then .ok path
  else
    let chosen := ((shuffle (path.length - 1)).take (n - 1)).insertionSort (· ≤ ·)
    .ok (chosen.filterMap (path[·]?) ++ path.getLast?.toList)

def resolvePath (destOrr : String) (cap : Option Nat) (hint : Except OrrError (List String))
    (shuffle : Nat → List Nat) : Except OrrError (List String) :=
  match hint with
  | .error e => .error e
  | .ok listed =>
    let fullPath := listed.filter fun hop => hop ≠ "" ∧ hop ≠ s.orrId
    if fullPath.isEmpty then .error (.invalidPath "orr_path vacío tras filtrar self")
    else
      let fullPath := if fullPath.getLast? = some destOrr then fullPath else fullPath ++ [destOrr]
      match cap with
      | none => .ok fullPath
      | some n => selectRandomHops shuffle fullPath n

def sendMessage (keyIds : Nat → KeyId) (destOrr : String) (payload : Bytes) (maxHops : Int32)
    (appHeader : Header) (grade : UInt8) (hint : Except OrrError (List String))
    (shuffle : Nat → List Nat) (now : Nat) :
    Except OrrError (SendOutcome × Handed Header) × OrrService :=
  let destOrr := suite.toLowercase destOrr
  if destOrr = s.orrId then
    (.ok (⟨"delivered_local", destOrr, s.localQkcId, 0, false⟩,
      .delivered ⟨some s.orrId, s.orrId, payload, appHeader, false⟩), s)
  else if maxHops = 0 then
    ((s.sendPassthrough destOrr payload appHeader grade).map fun frame =>
      (⟨"sent", destOrr, frame.destFinal, 0, false⟩, .framed frame), s)
  else if maxHops = 1 then
    let (sent, s) := s.sendOnionE2e suite keyIds destOrr payload appHeader grade now
    (sent.map fun made => (⟨"sent", destOrr, made.1.destFinal, 0, true⟩, .framed made.1), s)
  else if maxHops = -1 ∨ 2 ≤ maxHops then
    let cap := if maxHops = -1 then none else some maxHops.toInt.toNat
    match s.resolvePath destOrr cap hint shuffle with
    | .error e => (.error e, s)
    | .ok fullPath =>
      let (sent, s) := s.sendOnionPath suite keyIds destOrr fullPath payload appHeader grade
      (sent.map fun made =>
        (⟨"sent", destOrr, made.1.destFinal, made.1.header.maxHops, true⟩, .framed made.1), s)
  else (.error (.invalidPath s!"max_hops inválido: {maxHops}"), s)

/-- `OnionReplay::check`: one window for each origin as the header spells it. -/
def checkReplay (origin : String) (call : Call) : Except ReplayError Unit × OrrService :=
  let window := (s.onionReplay origin).getD (.new onionWindow)
  let (result, window) := window.checkAndSet call
  (result, { s with onionReplay := Function.update s.onionReplay origin (some window) })

def broadcastDelivery (header : OrrHeader) (dkmsMap : Header) (payload : Bytes) :
    DeliveredMessage Header where
  origin := if header.fromOrr.isEmpty then none else some header.fromOrr
  destination := if header.toOrr.isEmpty then s.orrId else header.toOrr
  payload
  appHeader := dkmsMap
  pqcDecapsulated := header.keyId.isSome

def forwardOnion (prevHeader : OrrHeader) (dkmsMap : Header) (inner : InnerLayer)
    (nextQkcId : UInt32) : OrrFrame Header where
  grade := 0
  destFinal := nextQkcId
  epochId := inner.epochId
  header := .onion prevHeader.fromOrr prevHeader.toOrr inner.nextOrrId inner.keyId
    (max (prevHeader.maxHops - 1) 0) prevHeader.fresh inner.tag
  dkms := dkmsMap
  payload := inner.xorCt

def secretFor (header : OrrHeader) (epochId : UInt32) : Option Bytes :=
  s.peers.masterForEpoch (suite.toLowercase header.fromOrr) epochId

def handlePeeled (header : OrrHeader) (dkmsMap : Header) : Peeled → Incoming Header
  | .deliver body => .delivered (s.broadcastDelivery header dkmsMap body)
  | .forward inner =>
    if inner.nextOrrId = s.orrId then .failed (.relay "onion forward loop to self")
    else
      match s.qkcId inner.nextOrrId with
      | none => .failed (.relay s!"forward hop {inner.nextOrrId} sin qkc_id")
      | some nextQkc => .forwarded (forwardOnion header dkmsMap inner nextQkc)

/-- `readAt` and `acceptAt` are the clock readings of the replay window; where there is no secret,
the first is the one of the rate limit. -/
def handleOnionIn (header : OrrHeader) (keyId : KeyId) (epochId : UInt32) (dkmsMap : Header)
    (payload : Bytes) (readAt acceptAt : Nat) : Incoming Header × OrrService :=
  match s.secretFor suite header epochId with
  | none => (.noSecret, s.triggerPassiveRebootstrap (suite.toLowercase header.fromOrr) readAt)
  | some secret =>
    match suite.peel secret keyId payload header.tag header.maxHops epochId header.fresh
        (suite.encodeDkms dkmsMap) with
    | .error e => (.failed e, s)
    | .ok peeled =>
      match s.checkReplay header.fromOrr
          ⟨header.fresh.session.toNat, header.fresh.counter.toNat, readAt, acceptAt⟩ with
      | (.error e, s) => (.replayed e, s)
      | (.ok (), s) => (s.handlePeeled header dkmsMap peeled, s)

def handleIncoming (frame : OrrFrame Header) (readAt acceptAt : Nat) :
    Incoming Header × OrrService :=
  if frame.header.kind ≠ "" ∧ frame.header.kind ≠ headerType then (.ignored, s)
  else
    match frame.header.keyId with
    | none => (.delivered (s.broadcastDelivery frame.header frame.dkms frame.payload), s)
    | some keyId =>
      s.handleOnionIn suite frame.header keyId frame.epochId frame.dkms frame.payload readAt acceptAt

end OrrService

end Dkms.Orr
