import Dkms.Core.Programs
import Dkms.Node.Pending

namespace Dkms.Node

open Std Dkms.Core

/-- The run of each peer's process that was heard last, and when its material was last wiped. -/
structure PeerIncarnations where
  seen : TreeMap NodeId String
  lastWipe : TreeMap NodeId Nat

namespace PeerIncarnations

def new : PeerIncarnations := ⟨∅, ∅⟩

/-- The incarnation that `incarnation` replaces, if that is a restart to act on. -/
def noteAt (p : PeerIncarnations) (peer : NodeId) (incarnation : String) (now cooldown : Nat) :
    Option String × PeerIncarnations :=
  let heard := { p with seen := p.seen.insert peer incarnation }
  match p.seen[peer]? with
  | none => (none, heard)
  | some previous =>
    if previous = incarnation then (none, heard)
    else if p.lastWipe[peer]?.any (now - · < cooldown) then (none, heard)
    else (some previous, { heard with lastWipe := p.lastWipe.insert peer now })

end PeerIncarnations

def incarnationWipeCooldown : Nat := 30 * 1000

structure DkmsConfig where
  capacityPerPeer : Nat
  defaultTtlSecs : Nat
  enforceAuthorization : Bool
  saeBindings : List (SaeId × NodeId)
  hasPeerClient : Bool
  hasAckRoute : Bool
  maxConcurrentPeers : Nat
  securityLevelFor : NodeId → SecurityLevel
  keySizeBytes : Nat
  ackTimeoutMs : Nat
  maxTokensPerPeerPerTick : Nat
  maxEmitsInFlight : Nat

structure DkmsService where
  cfg : DkmsConfig
  incarnation : String
  peers : List NodeId
  pool : BufferPool
  pending : PendingStore
  ackPending : AckPendingStore
  peerIncarnations : PeerIncarnations

def DkmsService.boot (cfg : DkmsConfig) (incarnation : String) (peers : List NodeId) :
    DkmsService where
  cfg
  incarnation
  peers
  pool := .new cfg.capacityPerPeer
  pending := .new cfg.defaultTtlSecs
  ackPending := .new
  peerIncarnations := .new

structure Post where
  source : NodeId
  dest : NodeId
  body : Etsi020ExtKeyContainer
  handler : Option Nat
  answer : Option (Except DkmsError Unit)

structure BufferFrame where
  dest : NodeId
  keyId : Option KeyId
  saeOrigin : Option NodeId
  keySizeBits : Option Nat
  incarnation : Option String
  payload : Bytes
  deriving DecidableEq

structure Receipt where
  source : NodeId
  dest : NodeId
  keyId : KeyId
  incarnation : String
  deriving DecidableEq

structure World where
  now : Nat
  nodes : NodeId → DkmsService
  posts : List Post
  frames : List BufferFrame
  receipts : List Receipt

def World.setNode (w : World) (id : NodeId) (node : DkmsService) : World :=
  { w with nodes := Function.update w.nodes id node }

/-- What a handler does to the state it shares with the others, each in one step: every
constructor is one critical section of the source or one message handed over. -/
inductive Op where
  | popOldest (peer : NodeId) (grade : KeyGrade)
  | pushFront (peer : NodeId) (grade : KeyGrade) (key : TransportKey)
  | tryPush (peer : NodeId) (grade : KeyGrade) (key : TransportKey)
  | encLen (peer : NodeId) (grade : KeyGrade)
  | encClear (peer : NodeId) (grade : KeyGrade)
  | takeById (peer : NodeId) (id : KeyId)
  | tryPushCapped (peer : NodeId) (key : TransportKey)
  | decClear (peer : NodeId)
  | clearAll
  | pendingInsert (keyId : KeyId) (initiator : SaeId) (authorized : List SaeId) (material : Bytes)
  | insertFromPeer (keyId : KeyId) (origin : NodeId) (initiator : SaeId)
      (authorized : List SaeId) (material : Bytes) (ttl : Option Nat)
  | takeForSae (keyId : KeyId) (sae master : SaeId)
  | forceRemove (keyId : KeyId)
  | sweepExpired
  | pendingClear
  | ackInsert (peer : NodeId) (keyId : KeyId) (bytes : Bytes) (grade : KeyGrade)
  | ackTake (peer : NodeId) (keyId : KeyId)
  | ackDiscard (peer : NodeId) (keyId : KeyId)
  | pendingCount (peer : NodeId)
  | reapExpired
  | dropPeer (peer : NodeId)
  | noteIncarnation (peer : NodeId) (incarnation : String)
  | knownPeer (peer : NodeId)
  | sendExtKeys (peer : NodeId) (body : Etsi020ExtKeyContainer)
  | extKeysAnswer (post : Nat)
  | e2eSeal (peer : NodeId) (keyId : KeyId)
  | e2eOpen (frame : BufferFrame)
  | sendKey (frame : BufferFrame)
  | sendKeyDone (inFlight : Nat)
  | enqueueAck (peer : NodeId) (keyId : KeyId)

@[reducible]
def Op.Answer : Op → Type
  | popOldest _ _ | takeById _ _ => Option TransportKey
  | encLen _ _ | pendingCount _ | sendExtKeys _ _ => Nat
  | tryPushCapped _ _ | knownPeer _ | e2eSeal _ _ => Bool
  | insertFromPeer _ _ _ _ _ _ => Except PendingInsertError Unit
  | takeForSae _ _ _ => Except DkmsError (Bytes × SaeId)
  | ackTake _ _ => TakeOutcome
  | noteIncarnation _ _ => Option String
  | extKeysAnswer _ => Except DkmsError Unit
  | e2eOpen _ => Option Bytes
  | sendKeyDone _ => Nat × Bool
  | pushFront _ _ _ | tryPush _ _ _ | encClear _ _ | decClear _ | clearAll
  | pendingInsert _ _ _ _ | forceRemove _ | sweepExpired | pendingClear | ackInsert _ _ _ _
  | ackDiscard _ _ | reapExpired | dropPeer _ | sendKey _ | enqueueAck _ _ => Unit

/-- What lies outside the model decides: which of the sends in flight ends first, and whether
a call into another component succeeds. -/
structure Hint where
  pick : Nat
  good : Bool
  deriving DecidableEq

def decHardCeilingMult : Nat := 64

namespace DkmsService

def setEnc (n : DkmsService) (peer : NodeId) (grade : KeyGrade) (buffer : SecureKeyBuffer) :
    DkmsService :=
  { n with pool := n.pool.set peer ((n.pool.forPeer peer).setEnc buffer grade) }

def setDec (n : DkmsService) (peer : NodeId) (buffer : SecureKeyBuffer) : DkmsService :=
  { n with pool := n.pool.set peer { n.pool.forPeer peer with dec := buffer } }

def enc (n : DkmsService) (peer : NodeId) (grade : KeyGrade) : SecureKeyBuffer :=
  (n.pool.forPeer peer).enc grade

def dec (n : DkmsService) (peer : NodeId) : SecureKeyBuffer := (n.pool.forPeer peer).dec

end DkmsService

/-- One operation of a handler that runs at node `self`; `none` if it has to wait. -/
def exec (self : NodeId) (op : Op) (hint : Hint) (w : World) : Option (op.Answer × World) :=
  let node := w.nodes self
  let pending := node.pending
  let acks := node.ackPending
  match op with
  | .popOldest peer grade =>
    let (key, buffer) := (node.enc peer grade).popOldest
    some (key, w.setNode self (node.setEnc peer grade buffer))
  | .pushFront peer grade key =>
    some ((), w.setNode self (node.setEnc peer grade ((node.enc peer grade).pushFront key)))
  | .tryPush peer grade key =>
    some ((), w.setNode self (node.setEnc peer grade ((node.enc peer grade).tryPush key)))
  | .encLen peer grade => some ((node.enc peer grade).len, w)
  | .encClear peer grade =>
    some ((), w.setNode self (node.setEnc peer grade (node.enc peer grade).clear))
  | .takeById peer id =>
    let (key, buffer) := (node.dec peer).takeById id
    some (key, w.setNode self (node.setDec peer buffer))
  | .tryPushCapped peer key =>
    let ceiling := (node.dec peer).capacity * decHardCeilingMult
    let (taken, buffer) := (node.dec peer).tryPushCapped key ceiling
    some (taken, w.setNode self (node.setDec peer buffer))
  | .decClear peer => some ((), w.setNode self (node.setDec peer (node.dec peer).clear))
  | .clearAll => some ((), w.setNode self { node with pool := node.pool.clearAll })
  | .pendingInsert keyId initiator authorized material =>
    let pending := pending.insert keyId initiator authorized material none w.now
    some ((), w.setNode self { node with pending })
  | .insertFromPeer keyId origin initiator authorized material ttl =>
    let (result, pending) := pending.insertFromPeer keyId origin initiator authorized material ttl w.now
    some (result, w.setNode self { node with pending })
  | .takeForSae keyId sae master =>
    let (result, pending) := pending.takeForSaeOfMaster keyId sae (some master) w.now
    some (result, w.setNode self { node with pending })
  | .forceRemove keyId =>
    some ((), w.setNode self { node with pending := pending.forceRemove keyId })
  | .sweepExpired => some ((), w.setNode self { node with pending := pending.sweepExpired w.now })
  | .pendingClear => some ((), w.setNode self { node with pending := pending.clear })
  | .ackInsert peer keyId bytes grade =>
    let entry := ⟨bytes, w.now + node.cfg.ackTimeoutMs, grade⟩
    some ((), w.setNode self { node with ackPending := acks.insert peer keyId entry })
  | .ackTake peer keyId =>
    let (outcome, ackPending) := acks.takeDiagnosed peer keyId
    some (outcome, w.setNode self { node with ackPending })
  | .ackDiscard peer keyId =>
    some ((), w.setNode self { node with ackPending := (acks.takeDiagnosed peer keyId).2 })
  | .pendingCount peer => some (acks.pendingCount peer, w)
  | .reapExpired =>
    some ((), w.setNode self { node with ackPending := acks.reapExpired w.now })
  | .dropPeer peer => some ((), w.setNode self { node with ackPending := acks.dropPeer peer })
  | .noteIncarnation peer incarnation =>
    let (previous, peerIncarnations) :=
      node.peerIncarnations.noteAt peer incarnation w.now incarnationWipeCooldown
    some (previous, w.setNode self { node with peerIncarnations })
  | .knownPeer peer => some (node.peers.contains peer, w)
  | .sendExtKeys peer body =>
    some (w.posts.length, { w with posts := w.posts ++ [⟨self, peer, body, none, none⟩] })
  | .extKeysAnswer post => (w.posts[post]?.bind (·.answer)).map (·, w)
  | .e2eSeal _ _ => some (hint.good, w)
  | .e2eOpen frame => some (if hint.good then some frame.payload else none, w)
  | .sendKey frame => some ((), { w with frames := w.frames ++ [frame] })
  | .sendKeyDone inFlight =>
    if hint.pick < inFlight then some ((hint.pick, hint.good), w) else none
  | .enqueueAck peer keyId =>
    let receipt := ⟨self, peer, keyId, node.incarnation⟩
    some ((), { w with receipts := w.receipts ++ [receipt] })

end Dkms.Node
