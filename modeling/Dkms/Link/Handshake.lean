import Dkms.Link.SecretStore

namespace Dkms.Link

open Std Dkms.Core

structure KemKeypair where
  publicKey : Bytes
  secretKey : Bytes
  deriving DecidableEq

/-- The ML-KEM backend. What it draws from `OsRng` is the seed it is given. -/
structure Kem (Seed : Type) where
  keygen : Seed → Option KemKeypair
  encap : Seed → Bytes → Option (Bytes × Bytes)
  decap : Bytes → Bytes → Option Bytes

structure Kem.Lawful {Seed : Type} (kem : Kem Seed) : Prop where
  shared : ∀ s pair r ct ss, kem.keygen s = some pair →
    kem.encap r pair.publicKey = some (ct, ss) → kem.decap pair.secretKey ct = some ss
  length : ∀ r pk ct ss, kem.encap r pk = some (ct, ss) → ss.length = 32

inductive HsMsg where
  | init (epoch : Nat) (pubkey : Bytes)
  | resp (epoch : Nat) (ciphertext : Bytes)
  deriving DecidableEq

/-- What one end of a link keeps: `pending_sk` and `pending_pk` serve the initiator,
`resp_cache` the responder. -/
structure PqcHandshake where
  store : SecretStore
  pendingSk : TreeMap Nat Bytes
  pendingPk : TreeMap Nat Bytes
  respCache : TreeMap Nat (Bytes × Bytes)

namespace PqcHandshake

variable {Seed : Type} (kem : Kem Seed) (h : PqcHandshake)

def new (keep : Nat) : PqcHandshake where
  store := .empty keep
  pendingSk := ∅
  pendingPk := ∅
  respCache := ∅

def publishInner (epoch : Nat) (ss : Bytes) (replace : Bool) : PqcHandshake :=
  if ss.length ≠ 32 then h
  else if replace then { h with store := h.store.replace epoch ss }
  else { h with store := h.store.insert epoch ss }

def publish (epoch : Nat) (ss : Bytes) : PqcHandshake := h.publishInner epoch ss false

def publishReplacing (epoch : Nat) (ss : Bytes) : PqcHandshake := h.publishInner epoch ss true

def pruneBelow (base : Nat) : PqcHandshake where
  store := h.store.pruneBelow base
  pendingSk := SlidingMap.dropBelow base h.pendingSk
  pendingPk := SlidingMap.dropBelow base h.pendingPk
  respCache := SlidingMap.dropBelow base h.respCache

def establishKey (epoch : Nat) (seed : Seed) : PqcHandshake × Option Bytes :=
  let reuse := if h.pendingSk.contains epoch then h.pendingPk[epoch]? else none
  match reuse with
  | some pk => (h, some pk)
  | none =>
    match kem.keygen seed with
    | none => (h, none)
    | some pair =>
      ({ h with
          pendingSk := h.pendingSk.insert epoch pair.secretKey
          pendingPk := h.pendingPk.insert epoch pair.publicKey },
        some pair.publicKey)

def establishDone (epoch : Nat) : PqcHandshake :=
  { h with pendingSk := h.pendingSk.erase epoch, pendingPk := h.pendingPk.erase epoch }

def encapsulate (epoch : Nat) (pubkey : Bytes) (seed : Seed) (stale : Bool) :
    PqcHandshake × Option HsMsg :=
  match kem.encap seed pubkey with
  | none => (h, none)
  | some (ct, ss) =>
    let published := if stale then h.publishReplacing epoch ss else h.publish epoch ss
    ({ published with respCache := published.respCache.insert epoch (pubkey, ct) }, some (.resp epoch ct))

def handleInit (epoch : Nat) (peerPubkey : Bytes) (seed : Seed) : PqcHandshake × Option HsMsg :=
  match h.respCache[epoch]? with
  | some (pk, ct) =>
    if pk = peerPubkey then (h, some (.resp epoch ct))
    else h.encapsulate kem epoch peerPubkey seed true
  | none => h.encapsulate kem epoch peerPubkey seed false

def handleResp (epoch : Nat) (ciphertext : Bytes) : PqcHandshake :=
  if h.store.contains epoch then h
  else
    match h.pendingSk[epoch]? with
    | none => h
    | some sk =>
      match kem.decap sk ciphertext with
      | some ss => h.publish epoch ss
      | none => h

end PqcHandshake

/-- Both ends and the network between them. `sent` is never emptied: a message may be
delivered late, many times, in any order or not at all. -/
structure Peers where
  initiator : PqcHandshake
  responder : PqcHandshake
  /-- The epoch and public key of the `establish` call that is running, if there is one. -/
  establishing : Option (Nat × Bytes)
  sent : List HsMsg

/-- `start` to `timeout` are the parts of `establish` between its suspension points. -/
inductive Act (Seed : Type) where
  | start (epoch : Nat) (seed : Seed)
  | sendInit
  | finish
  | timeout
  | prune (base : Nat)
  | deliverInit (epoch : Nat) (pubkey : Bytes) (seed : Seed)
  | deliverResp (epoch : Nat) (ciphertext : Bytes)
  | restartInitiator
  | restartResponder

namespace Peers

variable {Seed : Type} (kem : Kem Seed)

def new (keepInitiator keepResponder : Nat) : Peers where
  initiator := .new keepInitiator
  responder := .new keepResponder
  establishing := none
  sent := []

def start (l : Peers) (epoch : Nat) (seed : Seed) : Peers :=
  if l.establishing.isSome || l.initiator.store.contains epoch then l
  else
    let (initiator, pubkey) := l.initiator.establishKey kem epoch seed
    { l with initiator, establishing := pubkey.map (epoch, ·) }

def sendInit (l : Peers) : Peers :=
  match l.establishing with
  | some (epoch, pubkey) =>
    if l.initiator.store.contains epoch then l
    else { l with sent := .init epoch pubkey :: l.sent }
  | none => l

def finish (l : Peers) : Peers :=
  match l.establishing with
  | some (epoch, _) =>
    if l.initiator.store.contains epoch then
      { l with initiator := l.initiator.establishDone epoch, establishing := none }
    else l
  | none => l

def deliverInit (l : Peers) (epoch : Nat) (pubkey : Bytes) (seed : Seed) : Peers :=
  if .init epoch pubkey ∈ l.sent then
    let (responder, reply) := l.responder.handleInit kem epoch pubkey seed
    { l with responder, sent := reply.toList ++ l.sent }
  else l

def deliverResp (l : Peers) (epoch : Nat) (ciphertext : Bytes) : Peers :=
  if .resp epoch ciphertext ∈ l.sent then
    { l with initiator := l.initiator.handleResp kem epoch ciphertext }
  else l

def next (l : Peers) : Act Seed → Peers
  | .start epoch seed => l.start kem epoch seed
  | .sendInit => l.sendInit
  | .finish => l.finish
  | .timeout => { l with establishing := none }
  | .prune base =>
    if l.establishing.isSome then l else { l with initiator := l.initiator.pruneBelow base }
  | .deliverInit epoch pubkey seed => l.deliverInit kem epoch pubkey seed
  | .deliverResp epoch ciphertext => l.deliverResp kem epoch ciphertext
  | .restartInitiator =>
    { l with initiator := .new l.initiator.store.keep, establishing := none }
  | .restartResponder => { l with responder := .new l.responder.store.keep }

def run (l : Peers) (acts : List (Act Seed)) : Peers := acts.foldl (next kem) l

end Peers

end Dkms.Link
