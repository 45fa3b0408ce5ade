import Dkms.Link.FrameMac
import Dkms.Replay.Window

namespace Dkms.Link

open Dkms.Core Dkms.Wire Dkms.Replay

inductive FrameAuthError where
  | truncated
  | badMac
  | replay (e : ReplayError)
  | plaintextRejected
  deriving DecidableEq

inductive FrameAuth where
  | off
  | prefer
  | require
  deriving DecidableEq

def FrameAuth.signs : FrameAuth → Bool
  | .off => false
  | .prefer | .require => true

def FrameAuth.rejectsPlaintext : FrameAuth → Bool
  | .off | .prefer => false
  | .require => true

def resyncSuppressAfterVerified : Nat := 10 * 10 ^ 9

/-- The store of `PerEpoch` is shared with the handshake, so the operations below are
given it. -/
inductive RootSource where
  | fixed (root : Bytes) (session : Nat) (sendKey : Bytes)
  | perEpoch (sendCache : Option (Nat × Bytes))

structure RecvState where
  window : ReplayWindow (max defaultWindow 64)
  cached : Option (Nat × Bytes)
  lastVerified : Option Nat

structure LinkFrameAuth where
  mode : FrameAuth
  src : RootSource
  counter : Nat
  recv : RecvState

structure OpenTimes where
  lookupAt : Nat
  readAt : Nat
  acceptAt : Nat
  verifiedAt : Nat

namespace LinkFrameAuth

variable (mac : MacSuite)

def withSource (mode : FrameAuth) (src : RootSource) : LinkFrameAuth where
  mode
  src
  counter := 0
  recv := {
    window := match src with
      | .perEpoch _ => .newMonotonic defaultWindow
      | .fixed _ _ _ => .newQuietGated defaultWindow
    cached := none
    lastVerified := none }

def new (mode : FrameAuth) (root : Option Bytes) (random : Nat) : Option LinkFrameAuth :=
  root.map fun root =>
    let session := max random 1
    withSource mode (.fixed root session (mac.deriveKey root session))

def perEpoch (mode : FrameAuth) : LinkFrameAuth := withSource mode (.perEpoch none)

variable (a : LinkFrameAuth) (store : SecretStore)

def deriveSend (epoch : Nat) : Option (Nat × Bytes) × LinkFrameAuth :=
  match store.get epoch with
  | none => (none, a)
  | some secret =>
    let k := mac.deriveKey secret epoch
    (some (epoch, k), { a with src := .perEpoch (some (epoch, k)) })

def sendMaterial : Option (Nat × Bytes) × LinkFrameAuth :=
  match a.src with
  | .fixed _ session sendKey => (some (session, sendKey), a)
  | .perEpoch sendCache =>
    match store.highest with
    | none => (none, a)
    | some epoch =>
      match sendCache with
      | some (e, k) => if e = epoch then (some (epoch, k), a) else a.deriveSend mac store epoch
      | none => a.deriveSend mac store epoch

def seals (kind : UInt8) : Bool := kind = frameKeyIdsNotify || a.mode.signs

def aadOf (kind : UInt8) (session counter : Nat) (frame : Frame) (body : Bytes) : FrameAad where
  kind
  grade := frame.grade
  session
  counter
  senderId := frame.senderId
  receiverId := frame.receiverId
  destFinal := frame.destFinal
  keySizeBits := frame.keySizeBits
  epochId := frame.epochId
  keyIds := frame.keyIds
  headerOrrMp := frame.headerOrrMp
  headerDkmsMp := frame.headerDkmsMp
  body

def sealWith (authKind : UInt8) (session : Nat) (key : Bytes) (counter : Nat) (frame : Frame) :
    Frame :=
  let tag := mac.tag key (aadOf authKind session counter frame frame.payload)
  { frame with
    kind := authKind
    payload := appendAuthTrailer frame.payload session counter tag }

def sealFrame (frame : Frame) : Frame × LinkFrameAuth :=
  match authKindFor frame.kind with
  | none => (frame, a)
  | some authKind =>
    if a.seals frame.kind then
      match a.sendMaterial mac store with
      | (none, a) => (frame, a)
      | (some (session, key), a) =>
        let counter := (a.counter + 1) % 2 ^ 64
        (sealWith mac authKind session key counter frame, { a with counter })
    else (frame, a)

/-- `None` when the root is per epoch and the store lacks the epoch the session names. -/
def peerKey (session : Nat) : Option Bytes × RecvState :=
  let derive := match a.src with
    | .fixed root _ _ => some (mac.deriveKey root session)
    | .perEpoch _ => (store.get (session % 2 ^ 32)).map (mac.deriveKey · session)
  let fresh := match derive with
    | none => (none, a.recv)
    | some k => (some k, { a.recv with cached := some (session, k) })
  match a.recv.cached with
  | some (s, k) => if s = session then (some k, a.recv) else fresh
  | none => fresh

def askResync (session lookupAt : Nat) : SecretStore :=
  if a.recv.lastVerified.any (fun t => lookupAt - t < resyncSuppressAfterVerified) then store
  else
    match a.src with
    | .perEpoch _ => store.requestResync (min session (2 ^ 32 - 1))
    | .fixed _ _ _ => store

def openFrame (times : OpenTimes) (frame : Frame) :
    Except FrameAuthError Frame × LinkFrameAuth × SecretStore :=
  match splitAuthTrailer frame.payload with
  | .error _ => (.error .truncated, a, store)
  | .ok ⟨body, session, counter, tag⟩ =>
    match a.peerKey mac store session with
    | (none, recv) => (.error .badMac, { a with recv }, a.askResync store session times.lookupAt)
    | (some key, recv) =>
      if mac.verify key (aadOf frame.kind session counter frame body) tag then
        match recv.window.checkAndSet ⟨session, counter, times.readAt, times.acceptAt⟩ with
        | (.error e, window) => (.error (.replay e), { a with recv := { recv with window } }, store)
        | (.ok (), window) =>
          (.ok { frame with
              kind := baseKindOf frame.kind
              payload := frame.payload.take (frame.payload.length - authTrailerLen) },
            { a with recv := { recv with window, lastVerified := some times.verifiedAt } }, store)
      else (.error .badMac, { a with recv }, store)

def acceptPlaintext (kind : UInt8) : Except FrameAuthError Unit :=
  if kind = frameKeyIdsNotify || a.mode.rejectsPlaintext then .error .plaintextRejected else .ok ()

end LinkFrameAuth

/-- `authenticate`, the entry point for every frame from the peer; a link without a root
only strips the trailer. -/
def authenticate (mac : MacSuite) (auth : Option LinkFrameAuth) (store : SecretStore)
    (times : OpenTimes) (frame : Frame) :
    Except FrameAuthError Frame × Option LinkFrameAuth × SecretStore :=
  match auth, isAuthKind frame.kind with
  | some a, true =>
    let (result, a, store) := a.openFrame mac store times frame
    (result, some a, store)
  | some a, false => ((a.acceptPlaintext frame.kind).map (fun _ => frame), some a, store)
  | none, true =>
    if frame.payload.length < authTrailerLen then (.error .truncated, none, store)
    else
      (.ok { frame with
          kind := baseKindOf frame.kind
          payload := frame.payload.take (frame.payload.length - authTrailerLen) }, none, store)
  | none, false => (.ok frame, none, store)

end Dkms.Link
