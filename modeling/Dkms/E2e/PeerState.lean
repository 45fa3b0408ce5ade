import Dkms.Link.Handshake
import Dkms.Replay.Window
import Dkms.Core.Bytes

namespace Dkms.E2e

open Dkms.Core Dkms.Link Dkms.Replay

def agreementMinInterval : Nat := 2 * 1000
def pendingEskTtl : Nat := 30 * 1000
def defaultRespondBurst : Nat := 4
def guardrailWindow : Nat := 8192

structure TransportE2eCfg where
  suite : String
  epochHistoryKeep : Nat
  replayWindow : Nat
  respondBurst : Nat

structure KemSuite (Seed : Type) extends Kem Seed where
  publicKeyLen : Nat

structure Crypto (Seed : Type) where
  kemFor : String → Option (KemSuite Seed)
  base64 : Bytes → String
  unbase64 : String → Option Bytes
  hkdf : (salt ikm info : Bytes) → Nat → Bytes
  sealDetached : (key nonce plaintext aad : Bytes) → Option (Bytes × Bytes)
  openDetached : (key nonce ciphertext tag aad : Bytes) → Option Bytes

structure Crypto.Lawful {Seed : Type} (crypto : Crypto Seed) : Prop where
  kem : ∀ suite kem, crypto.kemFor suite = some kem → kem.Lawful
  base64 : ∀ bytes, crypto.unbase64 (crypto.base64 bytes) = some bytes

structure KemRequest where
  suite : String
  epk : String
  deriving DecidableEq

structure KemResponse where
  suite : String
  epoch : Nat
  ct : String
  deriving DecidableEq

inductive HeaderFault where
  | missing (name : String)
  | notU32 (name : String)
  | notU64 (name : String)
  | notHex (name : String)
  | tagLength
  | incarnation
  deriving DecidableEq

inductive KemFault where
  | backend
  | secretLength (length : Nat)
  deriving DecidableEq

inductive PeerFault where
  | epochZero
  | suite (theirs ours : String)
  | ctBase64
  | noneInFlight
  | stale
  | tooOften (burst : Nat)
  | epkBase64
  | epkLength (length : Nat) (suite : String) (expected : Nat)
  deriving DecidableEq

inductive E2eError where
  | noEpoch (peer : String)
  | unknownEpoch (peer : String) (epoch : Nat)
  | header (fault : HeaderFault)
  | badTag
  | keyIdReuse (peer keyId : String)
  | replay (error : ReplayError)
  | kem (fault : KemFault)
  | peer (fault : PeerFault)
  deriving DecidableEq

structure RecentKeyIds where
  seen : Finset String
  order : List String

namespace RecentKeyIds

def empty : RecentKeyIds := ⟨∅, []⟩

def makeRoom (r : RecentKeyIds) : RecentKeyIds :=
  if r.order.length ≥ guardrailWindow then
    match r.order with
    | old :: order => ⟨r.seen.erase old, order⟩
    | [] => r
  else r

def insert (r : RecentKeyIds) (id : String) : Bool × RecentKeyIds :=
  if id ∈ r.seen then (false, r)
  else
    let r := r.makeRoom
    (true, ⟨Insert.insert id r.seen, r.order ++ [id]⟩)

end RecentKeyIds

structure PeerState (window : Nat) where
  epochs : List (Nat × Bytes)
  sendEpoch : Option Nat
  counter : Nat
  epochSends : Nat
  recentKeyIds : RecentKeyIds
  lastResponse : Option Nat
  respondBurst : Nat
  replay : ReplayWindow (max window 64)
  pendingEsk : Option (Bytes × Nat)
  inflight : Bool
  lastAttempt : Option Nat
  establishedAt : Option Nat

namespace PeerState

variable {window : Nat} {Seed : Type} (crypto : Crypto Seed) (cfg : TransportE2eCfg)

def new (window : Nat) : PeerState window where
  epochs := []
  sendEpoch := none
  counter := 0
  epochSends := 0
  recentKeyIds := .empty
  lastResponse := none
  respondBurst := defaultRespondBurst
  replay := .new window
  pendingEsk := none
  inflight := false
  lastAttempt := none
  establishedAt := none

variable (st : PeerState window)

def secret (epoch : Nat) : Option Bytes := (st.epochs.find? (·.1 = epoch)).map (·.2)

def pushEpoch (epochs : List (Nat × Bytes)) (epoch : Nat) (ss : Bytes) (keep : Nat) :
    List (Nat × Bytes) :=
  let pushed := epochs.filter (·.1 ≠ epoch) ++ [(epoch, ss)]
  pushed.drop (pushed.length - max keep 1)

def store (epoch : Nat) (ss : Bytes) (keep now : Nat) : Except E2eError (PeerState window) :=
  if ss.length ≠ 32 then .error (.kem (.secretLength ss.length))
  else
    .ok { st with
      epochs := pushEpoch st.epochs epoch ss keep
      sendEpoch := some epoch
      establishedAt := some now
      epochSends := 0
      recentKeyIds := .empty }

def freshEpoch (draws : List Nat) : Option Nat :=
  draws.find? fun e => e ≠ 0 && !st.epochs.any (·.1 = e)

def requestAgreement (now : Nat) : Bool × PeerState window :=
  if st.inflight then (false, st)
  else if st.lastAttempt.any (now - · < agreementMinInterval) then (false, st)
  else (true, { st with inflight := true, lastAttempt := some now })

def beginRequest (seed : Seed) (now : Nat) : Except E2eError KemRequest × PeerState window :=
  match crypto.kemFor cfg.suite with
  | none => (.error (.kem .backend), st)
  | some kem =>
    match kem.keygen seed with
    | none => (.error (.kem .backend), st)
    | some pair =>
      (.ok ⟨cfg.suite, crypto.base64 pair.publicKey⟩,
        { st with pendingEsk := some (pair.secretKey, now) })

/-- `complete_request` up to the key it takes out of `pending_esk`, with the ciphertext. -/
def completeTake (resp : KemResponse) (now : Nat) :
    Except E2eError (Bytes × Bytes) × PeerState window :=
  if resp.epoch = 0 then (.error (.peer .epochZero), st)
  else if resp.suite ≠ cfg.suite then (.error (.peer (.suite resp.suite cfg.suite)), st)
  else if (crypto.kemFor resp.suite).isNone then (.error (.kem .backend), st)
  else
    match crypto.unbase64 resp.ct with
    | none => (.error (.peer .ctBase64), st)
    | some ct =>
      match st.pendingEsk with
      | none => (.error (.peer .noneInFlight), st)
      | some (esk, since) =>
        (if now - since > pendingEskTtl then .error (.peer .stale) else .ok (esk, ct),
          { st with pendingEsk := none })

def completeStore (resp : KemResponse) (esk ct : Bytes) (now : Nat) :
    Except E2eError Nat × PeerState window :=
  match (crypto.kemFor resp.suite).bind (·.decap esk ct) with
  | none => (.error (.kem .backend), st)
  | some ss =>
    match st.store resp.epoch ss cfg.epochHistoryKeep now with
    | .error e => (.error e, st)
    | .ok st => (.ok resp.epoch, st)

/-- `respond` up to its first unlock: the bound on answers. -/
def respondAdmit (now : Nat) : Except E2eError Unit × PeerState window :=
  let burst := max cfg.respondBurst 1
  if st.lastResponse.any (now - · < agreementMinInterval) then
    if st.respondBurst = 0 then (.error (.peer (.tooOften burst)), st)
    else (.ok (), { st with respondBurst := st.respondBurst - 1 })
  else (.ok (), { st with respondBurst := burst - 1, lastResponse := some now })

def respondEncap (req : KemRequest) (seed : Seed) : Except E2eError (Bytes × Bytes) :=
  if req.suite ≠ cfg.suite then .error (.peer (.suite req.suite cfg.suite))
  else
    match crypto.kemFor req.suite with
    | none => .error (.kem .backend)
    | some kem =>
      match crypto.unbase64 req.epk with
      | none => .error (.peer .epkBase64)
      | some epk =>
        if epk.length ≠ kem.publicKeyLen then
          .error (.peer (.epkLength epk.length req.suite kem.publicKeyLen))
        else
          match kem.encap seed epk with
          | none => .error (.kem .backend)
          | some answer => .ok answer

def respondStore (req : KemRequest) (ct ss : Bytes) (epoch now : Nat) :
    Except E2eError KemResponse × PeerState window :=
  match st.store epoch ss cfg.epochHistoryKeep now with
  | .error e => (.error e, st)
  | .ok st => (.ok ⟨req.suite, epoch, crypto.base64 ct⟩, st)

def settle (ok : Bool) : PeerState window :=
  { st with inflight := false, pendingEsk := if ok then st.pendingEsk else none }

end PeerState

open Std

abbrev Header := TreeMap String String

def hdrE2eEpoch : String := "e2e_epoch"
def hdrE2eCtr : String := "e2e_ctr"
def hdrE2eTag : String := "e2e_tag"
def hdrIncarnation : String := "incarnation"

def hkdfSalt : Bytes := textBytes "dkms.e2e.v1"
def hkdfInfo : Bytes := textBytes "dkms.e2e.v1"
def aadDomain : Bytes := textBytes "dkms.e2e.v1"

def nonceLen : Nat := 12
def tagLen : Nat := 16

def parseU32 (text : String) : Option Nat := parseRadix 10 (2 ^ 32) text
def parseU64 (text : String) : Option Nat := parseRadix 10 (2 ^ 64) text
def parseHexU64 (text : String) : Option Nat := parseRadix 16 (2 ^ 64) text

variable {Seed : Type} (crypto : Crypto Seed)

def derive (secret : Bytes) (keyId : String) : Bytes × Bytes :=
  let okm := crypto.hkdf hkdfSalt secret (textBytes keyId ++ hkdfInfo) (32 + nonceLen)
  (okm.take 32, okm.drop 32)

def putText (text : String) : Bytes := beBytes 4 (textBytes text).length ++ textBytes text

/-- The domain, both ends, and the header in the order of its keys, without the tag. -/
def aad (source dest : String) (header : Header) : Bytes :=
  beBytes 4 aadDomain.length ++ aadDomain ++ putText source ++ putText dest ++
    (header.toList.filter (·.1 ≠ hdrE2eTag)).flatMap fun entry => putText entry.1 ++ putText entry.2

namespace PeerState

variable {window : Nat} (st : PeerState window)

def sealMaterial (peer keyId : String) : Except E2eError (Nat × Bytes) × PeerState window :=
  match st.sendEpoch with
  | none => (.error (.noEpoch peer), st)
  | some epoch =>
    match st.secret epoch with
    | none => (.error (.noEpoch peer), st)
    | some secret =>
      match st.recentKeyIds.insert keyId with
      | (false, _) => (.error (.keyIdReuse peer keyId), st)
      | (true, recentKeyIds) =>
        (.ok (epoch, secret),
          { st with recentKeyIds, counter := st.counter + 1, epochSends := st.epochSends + 1 })

def sealHeader (header : Header) (epoch counter : Nat) : Header :=
  ((header.insert hdrE2eEpoch (toString epoch)).insert hdrE2eCtr (toString counter)).erase hdrE2eTag

def sealFrame (self peer keyId : String) (header : Header) (plaintext : Bytes) :
    Except E2eError (Header × Bytes) × PeerState window :=
  match st.sealMaterial peer keyId with
  | (.error e, st) => (.error e, st)
  | (.ok (epoch, secret), st) =>
    let header := sealHeader header epoch st.counter
    let (key, nonce) := derive crypto secret keyId
    match crypto.sealDetached key nonce plaintext (aad self peer header) with
    | none => (.error (.kem .backend), st)
    | some (ct, tag) => (.ok (header.insert hdrE2eTag (hexEncode tag), ct), st)

end PeerState

structure SealFields where
  epoch : Nat
  counter : Nat
  tag : Bytes
  session : Nat

def headerField (header : Header) (name : String) : Except E2eError String :=
  match header[name]? with
  | none => .error (.header (.missing name))
  | some value => .ok value

def sealFields (header : Header) : Except E2eError SealFields := do
  let epoch ← (parseU32 (← headerField header hdrE2eEpoch)).elim (.error (.header (.notU32 hdrE2eEpoch))) .ok
  let counter ← (parseU64 (← headerField header hdrE2eCtr)).elim (.error (.header (.notU64 hdrE2eCtr))) .ok
  let tag ← (hexDecode (← headerField header hdrE2eTag)).elim (.error (.header (.notHex hdrE2eTag))) .ok
  if tag.length ≠ tagLen then .error (.header .tagLength)
  let session ← (parseHexU64 (← headerField header hdrIncarnation)).elim (.error (.header .incarnation)) .ok
  return ⟨epoch, counter, tag, session⟩

structure Opened where
  secret : Bytes
  session : Nat
  counter : Nat
  plaintext : Bytes

namespace PeerState

variable {window : Nat} (st : PeerState window)

/-- `open` up to the verified plaintext; it only reads the state. -/
def openVerify (self source : String) (header : Header) (keyId : String) (payload : Bytes) :
    Except E2eError Opened := do
  let fields ← sealFields header
  match st.secret fields.epoch with
  | none => .error (.unknownEpoch source fields.epoch)
  | some secret =>
    let (key, nonce) := derive crypto secret keyId
    match crypto.openDetached key nonce payload fields.tag (aad source self header) with
    | none => .error .badTag
    | some plaintext => .ok ⟨secret, fields.session, fields.counter, plaintext⟩

def openCheck (opened : Opened) (now : Nat) : Except E2eError Bytes × PeerState window :=
  match st.replay.checkAndSet ⟨opened.session, opened.counter, now, now⟩ with
  | (.error e, replay) => (.error (.replay e), { st with replay })
  | (.ok (), replay) => (.ok opened.plaintext, { st with replay })

end PeerState

end Dkms.E2e
