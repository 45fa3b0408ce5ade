import Dkms.Link.FrameMac

namespace Dkms.Orr

open Dkms.Core Dkms.Link

abbrev KeyId := BitVec 128

inductive OrrError where
  | relay (text : String)
  | invalidPath (text : String)
  | aead
  deriving DecidableEq

structure InnerLayer where
  nextOrrId : String
  epochId : UInt32
  keyId : KeyId
  xorCt : Bytes
  tag : Bytes
  deriving DecidableEq

/-- What the ORR takes from the crates, with the DKMS header of which it reads nothing. -/
structure Suite (Header : Type) where
  hkdf : (salt ikm info : Bytes) → Nat → Bytes
  sha256 : Bytes → Bytes
  sealDetached : (key nonce plaintext aad : Bytes) → Option (Bytes × Bytes)
  openDetached : (key nonce ciphertext tag aad : Bytes) → Option Bytes
  encodeInner : InnerLayer → Bytes
  decodeInner : Bytes → Option InnerLayer
  encodeDkms : Header → Bytes
  toLowercase : String → String

def hkdfSalt : Bytes := textBytes "orr.onion.v1"
def aadV3 : Bytes := textBytes "orr.onion.v3"

structure Freshness where
  session : UInt64
  counter : UInt64
  deriving DecidableEq

def layerNonce (keyId : KeyId) : Bytes := (beBytes 16 keyId.toNat).take 12

structure PathHopSecret where
  orrId : String
  masterSecret : Bytes
  epochId : UInt32
  deriving DecidableEq

structure Layer where
  hop : PathHopSecret
  keyId : KeyId
  maxHops : Int32
  plaintext : Bytes
  ciphertext : Bytes
  tag : Bytes
  deriving DecidableEq

structure OnionWire where
  firstHopOrr : String
  firstEpochId : UInt32
  firstKeyId : KeyId
  maxHops : Int32
  payload : Bytes
  tag : Bytes
  fresh : Freshness

inductive Peeled where
  | forward (inner : InnerLayer)
  | deliver (body : Bytes)

namespace Suite

variable {Header : Type} (suite : Suite Header)

def layerKey (masterSecret : Bytes) (keyId : KeyId) : Bytes :=
  suite.hkdf hkdfSalt masterSecret (beBytes 16 keyId.toNat ++ aadV3) 32

def layerAad (keyId : KeyId) (epochId : UInt32) (maxHops : Int32) (fresh : Freshness)
    (dkmsHdr : Bytes) : Bytes :=
  aadV3 ++ (beBytes 16 keyId.toNat ++ (beBytes 4 epochId.toNat ++
    (beBytes 4 maxHops.toUInt32.toNat ++ (beBytes 8 fresh.session.toNat ++
      (beBytes 8 fresh.counter.toNat ++ suite.sha256 dkmsHdr)))))

def sealLayer (hop : PathHopSecret) (keyId : KeyId) (plaintext : Bytes) (maxHops : Int32)
    (fresh : Freshness) (dkmsHdr : Bytes) : Except OrrError Layer :=
  match suite.sealDetached (suite.layerKey hop.masterSecret keyId) (layerNonce keyId) plaintext
      (suite.layerAad keyId hop.epochId maxHops fresh dkmsHdr) with
  | none => .error .aead
  | some (ciphertext, tag) => .ok ⟨hop, keyId, maxHops, plaintext, ciphertext, tag⟩

/-- The layers of `build_onion`, the outermost first; each hop comes with the key id drawn for
it. -/
def layers (fresh : Freshness) (dkmsHdr body : Bytes) :
    List (PathHopSecret × KeyId) → Except OrrError (Layer × List Layer)
  | [] => .error (.relay "onion: empty path")
  | [(dst, keyId)] => (suite.sealLayer dst keyId body 0 fresh dkmsHdr).map (·, [])
  | (hop, keyId) :: next :: rest =>
    match layers fresh dkmsHdr body (next :: rest) with
    | .error e => .error e
    | .ok (current, inside) =>
      let inner := suite.encodeInner
        ⟨current.hop.orrId, current.hop.epochId, current.keyId, current.ciphertext, current.tag⟩
      (suite.sealLayer hop keyId inner (.ofNat (rest.length + 1)) fresh dkmsHdr).map (·, current :: inside)

def wire (fresh : Freshness) (outermost : Layer) : OnionWire where
  firstHopOrr := outermost.hop.orrId
  firstEpochId := outermost.hop.epochId
  firstKeyId := outermost.keyId
  maxHops := outermost.maxHops
  payload := outermost.ciphertext
  tag := outermost.tag
  fresh

def buildOnion (path : List (PathHopSecret × KeyId)) (body : Bytes) (fresh : Freshness)
    (dkmsHdr : Bytes) : Except OrrError (OnionWire × List Layer) :=
  (suite.layers fresh dkmsHdr body path).map fun made => (wire fresh made.1, made.1 :: made.2)

def openLayer (masterSecret : Bytes) (keyId : KeyId) (ciphertext tag : Bytes) (epochId : UInt32)
    (maxHops : Int32) (fresh : Freshness) (dkmsHdr : Bytes) : Option Bytes :=
  suite.openDetached (suite.layerKey masterSecret keyId) (layerNonce keyId) ciphertext tag
    (suite.layerAad keyId epochId maxHops fresh dkmsHdr)

def peel (masterSecret : Bytes) (keyId : KeyId) (xorCt tag : Bytes) (maxHops : Int32)
    (epochId : UInt32) (fresh : Freshness) (dkmsHdr : Bytes) : Except OrrError Peeled :=
  match suite.openLayer masterSecret keyId xorCt tag epochId maxHops fresh dkmsHdr with
  | none => .error .aead
  | some plaintext =>
    if maxHops ≤ 0 then .ok (.deliver plaintext)
    else
      match suite.decodeInner plaintext with
      | none => .error (.relay "inner decode")
      | some inner => .ok (.forward inner)

structure Unrelated : Prop where
  key : ∀ secret keyId secret' keyId',
    suite.layerKey secret keyId = suite.layerKey secret' keyId' → secret = secret' ∧ keyId = keyId'
  digest : Function.Injective suite.sha256
  header : Function.Injective suite.encodeDkms

variable {suite}

theorem beBytes_inj {width m n : Nat} (left : m < 256 ^ width) (right : n < 256 ^ width)
    (same : beBytes width m = beBytes width n) : m = n := by
  have back := congrArg beNumber same
  rwa [beNumber_beBytes, beNumber_beBytes, Nat.mod_eq_of_lt left, Nat.mod_eq_of_lt right] at back

theorem Unrelated.layerAad_inj (unrelated : suite.Unrelated) {keyId keyId' : KeyId}
    {epochId epochId' : UInt32} {maxHops maxHops' : Int32} {fresh fresh' : Freshness}
    {dkms dkms' : Bytes} (same : suite.layerAad keyId epochId maxHops fresh dkms =
      suite.layerAad keyId' epochId' maxHops' fresh' dkms') :
    keyId = keyId' ∧ epochId = epochId' ∧ maxHops = maxHops' ∧ fresh = fresh' ∧ dkms = dkms' := by
  have equal : ∀ {width m n : Nat} {left right : Bytes}, m < 256 ^ width → n < 256 ^ width →
      beBytes width m ++ left = beBytes width n ++ right → m = n ∧ left = right := by
    intro width m n left right small small' here
    obtain ⟨first, others⟩ := List.append_inj here (by rw [beBytes_length, beBytes_length])
    exact ⟨beBytes_inj small small' first, others⟩
  have word : ∀ n : UInt64, n.toNat < 256 ^ 8 := fun n => n.toNat_lt
  have half : ∀ n : UInt32, n.toNat < 256 ^ 4 := fun n => n.toNat_lt
  have rest := List.append_cancel_left same
  obtain ⟨ids, rest⟩ := equal (lt_of_lt_of_eq keyId.isLt (by norm_num))
    (lt_of_lt_of_eq keyId'.isLt (by norm_num)) rest
  obtain ⟨epochs, rest⟩ := equal (half _) (half _) rest
  obtain ⟨hops, rest⟩ := equal (half _) (half _) rest
  obtain ⟨sessions, rest⟩ := equal (word _) (word _) rest
  obtain ⟨counters, digests⟩ := equal (word _) (word _) rest
  refine ⟨BitVec.eq_of_toNat_eq ids, UInt32.toNat_inj.mp epochs,
    congrArg Int32.ofUInt32 (UInt32.toNat_inj.mp hops), ?_, unrelated.digest digests⟩
  cases fresh
  cases fresh'
  rw [Freshness.mk.injEq]
  exact ⟨UInt64.toNat_inj.mp sessions, UInt64.toNat_inj.mp counters⟩

end Suite

end Dkms.Orr
