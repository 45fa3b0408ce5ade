import Dkms.Link.FrameMac

namespace Dkms.Link

open List Option Dkms.Core Dkms.Wire Nat

inductive HsTag where
  | init
  | resp
  | resync
  | notify
  deriving DecidableEq

def HsTag.bytes : HsTag → Bytes
  | .init => textBytes "QKCINIT"
  | .resp => textBytes "QKCRESP"
  | .resync => textBytes "QKCRESYNC"
  | .notify => textBytes "QKCNOTIFY"

structure LinkAad where
  tag : HsTag
  epoch : UInt32
  senderId : UInt32
  receiverId : UInt32
  blob : Bytes
  suiteId : String
  keySizeBits : UInt32
  deriving DecidableEq

/-- What `link_mac::build` feeds to the HMAC and `canonical_msg` to the signature. Nothing but a
debug assertion keeps a length from being cut to its two bytes. -/
def LinkAad.message (aad : LinkAad) : Bytes :=
  aad.tag.bytes ++ (beBytes 4 aad.epoch.toNat ++ (beBytes 4 aad.senderId.toNat ++
    (beBytes 4 aad.receiverId.toNat ++ (lp16 aad.blob ++ (lp16 (textBytes aad.suiteId) ++
      beBytes 4 aad.keySizeBits.toNat)))))

theorem HsTag.bytes_delimited : Delimited (fun _ => True) HsTag.bytes := by
  have init : HsTag.init.bytes = [0x51, 0x4B, 0x43, 0x49, 0x4E, 0x49, 0x54] := by decide +kernel
  have resp : HsTag.resp.bytes = [0x51, 0x4B, 0x43, 0x52, 0x45, 0x53, 0x50] := by decide +kernel
  have resync : HsTag.resync.bytes =
      [0x51, 0x4B, 0x43, 0x52, 0x45, 0x53, 0x59, 0x4E, 0x43] := by decide +kernel
  have notify : HsTag.notify.bytes =
      [0x51, 0x4B, 0x43, 0x4E, 0x4F, 0x54, 0x49, 0x46, 0x59] := by decide +kernel
  intro x y r s _ _ same
  cases x <;> cases y <;> simp_all

theorem word_delimited : Delimited (fun _ => True) fun word : UInt32 => beBytes 4 word.toNat := by
  intro x y r s _ _ same
  obtain ⟨values, rest⟩ := delimited_beBytes 4 _ _ r s x.toNat_lt y.toNat_lt same
  exact ⟨UInt32.toNat.inj values, rest⟩

theorem lp16_congr {x y r s : Bytes} (same : lp16 x ++ r = lp16 y ++ s) :
    x.length % 65536 = y.length % 65536 ∧ x ++ r = y ++ s := by
  unfold lp16 at same
  rw [append_assoc, append_assoc] at same
  obtain ⟨lengths, rest⟩ := append_inj same (by simp)
  have value := congrArg beNumber lengths
  rw [beNumber_beBytes, beNumber_beBytes] at value
  exact ⟨value, rest⟩

theorem LinkAad.message_injective {x y : LinkAad} (shortX : (textBytes x.suiteId).length < 65536)
    (shortY : (textBytes y.suiteId).length < 65536) (same : x.message = y.message) : x = y := by
  obtain ⟨tag, same⟩ := HsTag.bytes_delimited _ _ _ _ trivial trivial same
  obtain ⟨epoch, same⟩ := word_delimited _ _ _ _ trivial trivial same
  obtain ⟨sender, same⟩ := word_delimited _ _ _ _ trivial trivial same
  obtain ⟨receiver, same⟩ := word_delimited _ _ _ _ trivial trivial same
  obtain ⟨congruent, same⟩ := lp16_congr same
  have total := congrArg length same
  simp only [lp16, length_append, beBytes_length] at total
  obtain ⟨blob, same⟩ := append_inj same (by omega)
  obtain ⟨suite, same⟩ := lp16_delimited _ _ _ _ (le_of_lt_succ shortX) (le_of_lt_succ shortY) same
  have bits : x.keySizeBits = y.keySizeBits := by
    have extended := congrArg (· ++ ([] : Bytes)) same
    exact (word_delimited _ _ _ _ trivial trivial extended).1
  cases x
  cases y
  simp only [LinkAad.mk.injEq]
  exact ⟨tag, epoch, sender, receiver, blob, textBytes_injective suite, bits⟩

theorem textBytes_zeros (n : Nat) :
    textBytes (String.ofList (replicate n '\x00')) = replicate n 0 := by
  have encoded : String.utf8EncodeChar '\x00' = [0] := by decide
  have bytes : ∀ chars : List Char,
      textBytes (String.ofList chars) = chars.flatMap String.utf8EncodeChar := by
    intro chars
    simp [textBytes, utf8Encode]
  rw [bytes]
  induction n with
  | zero => rfl
  | succ n ih => rw [replicate_succ, flatMap_cons, ih]; rfl

def zeroBlob : LinkAad where
  tag := .init
  epoch := 0
  senderId := 1
  receiverId := 2
  blob := replicate 65536 0
  suiteId := ""
  keySizeBits := 256

def zeroSuite : LinkAad :=
  { zeroBlob with blob := [], suiteId := String.ofList (replicate 65536 '\x00') }

theorem zeroBlob_length : zeroBlob.blob.length = 65536 := length_replicate

theorem zeros_differ : zeroBlob ≠ zeroSuite := by
  intro same
  have lengths := congrArg (fun aad => aad.blob.length) same
  rw [zeroBlob_length, show zeroSuite.blob.length = 0 from rfl] at lengths
  omega

theorem zeros_collide : zeroBlob.message = zeroSuite.message := by
  have empty : lp16 [] = replicate 2 0 := by decide
  have cut : beBytes 2 65536 = replicate 2 0 := by decide
  have full : lp16 (replicate 65536 0) = replicate (2 + 65536) 0 := by
    rw [lp16, length_replicate, cut, replicate_append_replicate]
  have swapped : ∀ rest : Bytes, replicate (2 + 65536) 0 ++ (replicate 2 0 ++ rest) =
      replicate 2 0 ++ (replicate (2 + 65536) 0 ++ rest) := by
    intro rest
    rw [← append_assoc, ← append_assoc, replicate_append_replicate, replicate_append_replicate]
  have noSuite : textBytes "" = [] := by decide
  simp only [LinkAad.message, zeroBlob, zeroSuite, textBytes_zeros, noSuite, empty, full, swapped]

inductive PqcAuth where
  | off
  | prefer
  | require
  | sign
  deriving DecidableEq

inductive RecvAuth where
  | plain
  | hmac
  | signed
  deriving DecidableEq

inductive HsKind where
  | init
  | resp
  | resyncReq
  deriving DecidableEq

def framePqcKemInit : UInt8 := 0x21
def framePqcKemResp : UInt8 := 0x22
def framePqcKemInitAuth : UInt8 := 0x23
def framePqcKemRespAuth : UInt8 := 0x24
def framePqcKemInitSigned : UInt8 := 0x26
def framePqcKemRespSigned : UInt8 := 0x27
def framePqcResyncReq : UInt8 := 0x28
def framePqcResyncReqAuth : UInt8 := 0x29
def framePqcResyncReqSigned : UInt8 := 0x2A

namespace HsKind

def kinds : HsKind → UInt8 × UInt8 × UInt8
  | .init => (framePqcKemInit, framePqcKemInitAuth, framePqcKemInitSigned)
  | .resp => (framePqcKemResp, framePqcKemRespAuth, framePqcKemRespSigned)
  | .resyncReq => (framePqcResyncReq, framePqcResyncReqAuth, framePqcResyncReqSigned)

def tag : HsKind → HsTag
  | .init => .init
  | .resp => .resp
  | .resyncReq => .resync

end HsKind

def dispatch (kind : UInt8) : Option (HsKind × RecvAuth) :=
  if kind = framePqcKemInit then some (.init, .plain)
  else if kind = framePqcKemResp then some (.resp, .plain)
  else if kind = framePqcKemInitAuth then some (.init, .hmac)
  else if kind = framePqcKemRespAuth then some (.resp, .hmac)
  else if kind = framePqcKemInitSigned then some (.init, .signed)
  else if kind = framePqcKemRespSigned then some (.resp, .signed)
  else if kind = framePqcResyncReq then some (.resyncReq, .plain)
  else if kind = framePqcResyncReqAuth then some (.resyncReq, .hmac)
  else if kind = framePqcResyncReqSigned then some (.resyncReq, .signed)
  else none

theorem dispatch_kinds (msg : HsKind) :
    dispatch msg.kinds.1 = some (msg, .plain) ∧ dispatch msg.kinds.2.1 = some (msg, .hmac) ∧
      dispatch msg.kinds.2.2 = some (msg, .signed) := by
  cases msg <;> decide

def signatureLen : Nat := 3309
def tagLen : Nat := 32

structure SignSuite where
  Signer : Type
  TrustRoots : Type
  fromSeed : Bytes → Option Signer
  sign : Signer → Bytes → Bytes
  verifyingKey : Signer → Bytes
  verify : (key message signature : Bytes) → Bool
  verifyNodeCert : List Bytes → TrustRoots → String → Option Bytes
  sign_length : ∀ signer message, (sign signer message).length = signatureLen
  verify_sign : ∀ signer message, verify (verifyingKey signer) message (sign signer message) = true

structure SignIdentity (suite : SignSuite) where
  signer : suite.Signer
  chain : List Bytes
  roots : suite.TrustRoots

def encodeCert (der : Bytes) : Bytes := beBytes 4 der.length ++ der

def encodeCertChain (chain : List Bytes) : Bytes := beBytes 2 chain.length ++ chain.flatMap encodeCert

def splitCerts : Nat → Bytes → Option (List Bytes × Bytes)
  | 0, rest => some ([], rest)
  | n + 1, rest =>
    if rest.length < 4 then none
    else
      let len := beNumber (rest.take 4)
      let tail := rest.drop 4
      if tail.length < len then none
      else (splitCerts n (tail.drop len)).map fun (chain, rest) => (tail.take len :: chain, rest)

def splitCertChain (buf : Bytes) : Option (List Bytes × Bytes) :=
  if buf.length < 2 then none else splitCerts (beNumber (buf.take 2)) (buf.drop 2)

def splitEpoch (payload : Bytes) : Option (UInt32 × Bytes) :=
  if payload.length < 4 then none
  else some (UInt32.ofNat (beNumber (payload.take 4)), payload.drop 4)

structure HandshakeEnd (suite : SignSuite) where
  suiteId : String
  myId : UInt32
  peerId : UInt32
  psk : Option Bytes
  signSeed : Option Bytes
  peerVerifyKey : Option Bytes
  certId : Option (SignIdentity suite)
  auth : PqcAuth
  keySizeBits : UInt32

namespace HandshakeEnd

variable (mac : MacSuite) {suite : SignSuite} (h : HandshakeEnd suite)

def peerCertId : String := "qkc-" ++ toString h.peerId.toNat

def hmacActive : Bool := h.psk.isSome && (h.auth = .prefer || h.auth = .require)

def sentAad (tag : HsTag) (epoch : UInt32) (blob : Bytes) : LinkAad where
  tag
  epoch
  senderId := h.myId
  receiverId := h.peerId
  blob
  suiteId := h.suiteId
  keySizeBits := h.keySizeBits

def receivedAad (tag : HsTag) (epoch : UInt32) (blob : Bytes) : LinkAad :=
  { h.sentAad tag epoch blob with senderId := h.peerId, receiverId := h.myId }

def signed (tag : HsTag) (epoch : UInt32) (blob : Bytes) : Option (Bytes × Bytes) :=
  let message := (h.sentAad tag epoch blob).message
  match h.certId with
  | some id => some (encodeCertChain id.chain, suite.sign id.signer message)
  | none =>
    match h.signSeed with
    | some seed =>
      (suite.fromSeed seed).map fun signer => (encodeCertChain [], suite.sign signer message)
    | none => none

def sendHandshake (msg : HsKind) (epoch : UInt32) (blob : Bytes) : Frame :=
  let (plain, hmacKind, signedKind) := msg.kinds
  let payload := beBytes 4 epoch.toNat ++ blob
  let (kind, payload) :=
    if h.auth = .sign then
      match h.signed msg.tag epoch blob with
      | some (chainBlock, signature) =>
        (signedKind, beBytes 4 epoch.toNat ++ chainBlock ++ blob ++ signature)
      | none => (plain, payload)
    else
      match h.psk.filter (fun _ => h.hmacActive) with
      | some psk =>
        (hmacKind, payload ++ mac.hmac psk (h.sentAad msg.tag epoch blob).message)
      | none => (plain, payload)
  { Frame.empty kind with
    senderId := h.myId
    receiverId := h.peerId
    destFinal := h.peerId
    payload }

def verifyKey (chain : List Bytes) : Option Bytes :=
  if chain.isEmpty then h.peerVerifyKey
  else h.certId.bind fun id => suite.verifyNodeCert chain id.roots h.peerCertId

def acceptSigned (tag : HsTag) (payload : Bytes) : Option (UInt32 × Bytes) :=
  if payload.length < 4 + signatureLen then none
  else do
    let cut := payload.length - signatureLen
    let (epoch, afterEpoch) ← splitEpoch (payload.take cut)
    let (chain, blob) ← splitCertChain afterEpoch
    let vk ← h.verifyKey chain
    if suite.verify vk (h.receivedAad tag epoch blob).message (payload.drop cut) then
      some (epoch, blob)
    else none

def acceptHmac (tag : HsTag) (payload : Bytes) : Option (UInt32 × Bytes) := do
  let psk ← h.psk
  if payload.length < 4 + tagLen then none
  else
    let cut := payload.length - tagLen
    let (epoch, blob) ← splitEpoch (payload.take cut)
    if mac.hmac psk (h.receivedAad tag epoch blob).message = payload.drop cut then
      some (epoch, blob)
    else none

def accept (tag : HsTag) (payload : Bytes) : RecvAuth → Option (UInt32 × Bytes)
  | .signed => h.acceptSigned tag payload
  | .hmac => h.acceptHmac mac tag payload
  | .plain =>
    if h.auth = .sign || (h.auth = .require && h.psk.isSome) then none else splitEpoch payload

def receive (frame : Frame) : Option (UInt32 × Bytes) :=
  (dispatch frame.kind).bind fun (msg, recv) => h.accept mac msg.tag frame.payload recv

def signer : Option (List Bytes × suite.Signer) :=
  match h.certId with
  | some id => some (id.chain, id.signer)
  | none => (h.signSeed.bind suite.fromSeed).map fun signer => ([], signer)

def mode : RecvAuth :=
  if h.auth = .sign then if h.signer.isSome then .signed else .plain
  else if h.hmacActive then .hmac
  else .plain

/-- The two ends are configured for one link: `peer` takes messages as `h` sends them, and holds
what it needs to check them. -/
structure Matched (h peer : HandshakeEnd suite) : Prop where
  ids : peer.myId = h.peerId ∧ peer.peerId = h.myId
  suiteId : peer.suiteId = h.suiteId
  keySizeBits : peer.keySizeBits = h.keySizeBits
  plain : h.mode = .plain → peer.auth ≠ .sign ∧ (peer.auth = .require → peer.psk = none)
  hmac : h.mode = .hmac → peer.psk = h.psk
  signed : ∀ chain signer, h.mode = .signed → h.signer = some (chain, signer) →
    peer.verifyKey chain = some (suite.verifyingKey signer)

variable {mac} {h} {peer : HandshakeEnd suite}

theorem Matched.aad (ends : Matched h peer) (tag : HsTag) (epoch : UInt32) (blob : Bytes) :
    peer.receivedAad tag epoch blob = h.sentAad tag epoch blob := by
  simp only [receivedAad, sentAad, ends.ids.1, ends.ids.2, ends.suiteId, ends.keySizeBits]

end HandshakeEnd

theorem splitEpoch_append (epoch : UInt32) (rest : Bytes) :
    splitEpoch (beBytes 4 epoch.toNat ++ rest) = some (epoch, rest) := by
  have long : ¬ (beBytes 4 epoch.toNat ++ rest).length < 4 := by simp
  have number : epoch.toNat % 256 ^ 4 = epoch.toNat := mod_eq_of_lt epoch.toNat_lt
  rw [splitEpoch, if_neg long, take_left' (beBytes_length 4 _),
    drop_left' (beBytes_length 4 _), beNumber_beBytes, number, UInt32.ofNat_toNat]

variable {chain : List Bytes}

theorem splitCerts_append (small : ∀ der ∈ chain, der.length < 2 ^ 32)
    (rest : Bytes) : splitCerts chain.length (chain.flatMap encodeCert ++ rest) = some (chain, rest) := by
  induction chain with
  | nil => rfl
  | cons der chain ih =>
    have later := ih fun other member => small other (mem_cons_of_mem _ member)
    have length : der.length % 256 ^ 4 = der.length := mod_eq_of_lt (small der mem_cons_self)
    have whole : (der :: chain).flatMap encodeCert ++ rest =
        beBytes 4 der.length ++ (der ++ (chain.flatMap encodeCert ++ rest)) := by
      simp [encodeCert]
    rw [whole, length_cons, splitCerts, if_neg (by simp)]
    simp only [take_left' (beBytes_length 4 _), drop_left' (beBytes_length 4 _), beNumber_beBytes, length]
    rw [if_neg (by simp), take_left, drop_left, later]
    rfl

theorem splitCertChain_encode (small : ∀ der ∈ chain, der.length < 2 ^ 32) (rest : Bytes) :
    splitCertChain (encodeCertChain chain ++ rest) = some (chain.take (chain.length % 65536),
        (chain.drop (chain.length % 65536)).flatMap encodeCert ++ rest) := by
  have taken : (chain.take (chain.length % 65536)).length = chain.length % 65536 := by
    rw [length_take, min_eq_left (mod_le _ _)]
  have divided : chain.flatMap encodeCert ++ rest =
      (chain.take (chain.length % 65536)).flatMap encodeCert ++
        ((chain.drop (chain.length % 65536)).flatMap encodeCert ++ rest) := by
    rw [← append_assoc, ← flatMap_append, take_append_drop]
  have long : ¬ (beBytes 2 chain.length ++ (chain.flatMap encodeCert ++ rest)).length < 2 := by
    rw [length_append, beBytes_length]
    omega
  unfold splitCertChain encodeCertChain
  rw [append_assoc, take_left' (beBytes_length 2 _), beNumber_beBytes, divided]
  have kept : ∀ der ∈ chain.take (chain.length % 65536), der.length < 2 ^ 32 :=
    fun der member => small der (mem_of_mem_take member)
  have read := splitCerts_append kept ((chain.drop (chain.length % 65536)).flatMap encodeCert ++ rest)
  rw [taken] at read
  exact read

namespace HandshakeEnd

variable {mac : MacSuite} {suite : SignSuite} {h peer : HandshakeEnd suite} {msg : HsKind}
  {epoch : UInt32} {blob : Bytes}

theorem acceptHmac_tagged {psk tag : Bytes} (shared : peer.psk = some psk) (long : tag.length = tagLen) :
    peer.acceptHmac mac msg.tag (beBytes 4 epoch.toNat ++ blob ++ tag) =
      if mac.hmac psk (peer.receivedAad msg.tag epoch blob).message = tag then some (epoch, blob)
      else none := by
  have cut : (beBytes 4 epoch.toNat ++ blob ++ tag).length - tagLen =
      (beBytes 4 epoch.toNat ++ blob).length := by
    simp only [length_append, long, Nat.add_sub_cancel]
  have enough : ¬ (beBytes 4 epoch.toNat ++ blob ++ tag).length < 4 + tagLen := by
    simp only [length_append, beBytes_length, long]
    omega
  unfold acceptHmac
  simp only [shared, bind_eq_bind, bind_some, if_neg enough, cut, take_left, drop_left, splitEpoch_append]

theorem acceptSigned_signed {block signature : Bytes} (long : signature.length = signatureLen) :
    peer.acceptSigned msg.tag (beBytes 4 epoch.toNat ++ block ++ blob ++ signature) =
      (splitCertChain (block ++ blob)).bind fun (chain, blob) =>
        (peer.verifyKey chain).bind fun vk =>
          if suite.verify vk (peer.receivedAad msg.tag epoch blob).message signature then
            some (epoch, blob)
          else none := by
  have cut : (beBytes 4 epoch.toNat ++ block ++ blob ++ signature).length - signatureLen =
      (beBytes 4 epoch.toNat ++ block ++ blob).length := by
    rw [length_append, long, Nat.add_sub_cancel]
  have enough : ¬ (beBytes 4 epoch.toNat ++ block ++ blob ++ signature).length <
      4 + signatureLen := by
    simp only [length_append, beBytes_length, long]
    omega
  have epochFirst : splitEpoch (beBytes 4 epoch.toNat ++ block ++ blob) =
      some (epoch, block ++ blob) := by
    rw [append_assoc, splitEpoch_append]
  unfold acceptSigned
  simp only [if_neg enough, cut, take_left, drop_left, epochFirst, bind_eq_bind, bind_some]

theorem signed_eq (h : HandshakeEnd suite) (tag : HsTag) (epoch : UInt32) (blob : Bytes) :
    h.signed tag epoch blob = h.signer.map fun (chain, signer) =>
      (encodeCertChain chain, suite.sign signer (h.sentAad tag epoch blob).message) := by
  unfold signed signer
  cases h.certId with
  | some id => rfl
  | none =>
    cases h.signSeed with
    | none => rfl
    | some seed => simp [Function.comp_def]

theorem sendHandshake_sent (mac : MacSuite) (h : HandshakeEnd suite) (msg : HsKind) (epoch : UInt32)
    (blob : Bytes) :
    let frame := h.sendHandshake mac msg epoch blob
    let message := (h.sentAad msg.tag epoch blob).message
    match h.mode with
    | .plain => frame.kind = msg.kinds.1 ∧ frame.payload = beBytes 4 epoch.toNat ++ blob
    | .hmac => ∃ psk, h.psk = some psk ∧ frame.kind = msg.kinds.2.1 ∧
        frame.payload = beBytes 4 epoch.toNat ++ blob ++ mac.hmac psk message
    | .signed => ∃ chain signer, h.signer = some (chain, signer) ∧ frame.kind = msg.kinds.2.2 ∧
        frame.payload =
          beBytes 4 epoch.toNat ++ encodeCertChain chain ++ blob ++ suite.sign signer message := by
  intro frame message
  by_cases signs : h.auth = .sign
  · cases identity : h.signer with
    | some pair =>
      have signed : h.mode = .signed := by simp [mode, signs, identity]
      rw [signed]
      refine ⟨pair.1, pair.2, rfl, ?_, ?_⟩ <;>
        simp [frame, message, sendHandshake, signs, signed_eq, identity, Frame.empty]
    | none =>
      have plain : h.mode = .plain := by simp [mode, signs, identity]
      rw [plain]
      constructor <;> simp [frame, sendHandshake, signs, signed_eq, identity, Frame.empty]
  cases active : h.hmacActive with
  | true =>
    have hmac : h.mode = .hmac := by simp [mode, signs, active]
    obtain ⟨psk, secret⟩ : ∃ psk, h.psk = some psk := by
      simp only [hmacActive, Bool.and_eq_true] at active
      exact isSome_iff_exists.mp active.1
    rw [hmac]
    refine ⟨psk, secret, ?_, ?_⟩ <;>
      simp [frame, message, sendHandshake, signs, active, secret, Option.filter, Frame.empty]
  | false =>
    have plain : h.mode = .plain := by simp [mode, signs, active]
    rw [plain]
    constructor <;> simp [frame, sendHandshake, signs, active, Frame.empty]

theorem receive_plain (ends : Matched h peer) (plain : h.mode = .plain) :
    peer.receive mac (h.sendHandshake mac msg epoch blob) = some (epoch, blob) := by
  have sent := sendHandshake_sent mac h msg epoch blob
  simp only [plain] at sent
  obtain ⟨unsigned, free⟩ := ends.plain plain
  rw [receive, sent.1, (dispatch_kinds msg).1, sent.2]
  have allowed : ¬ (peer.auth = .sign || (peer.auth = .require && peer.psk.isSome)) := by
    simp only [Bool.or_eq_true, decide_eq_true_eq, Bool.and_eq_true, not_or, not_and]
    exact ⟨unsigned, fun required => by simp [free required]⟩
  show (if peer.auth = .sign || (peer.auth = .require && peer.psk.isSome) then none
    else splitEpoch (beBytes 4 epoch.toNat ++ blob)) = some (epoch, blob)
  rw [if_neg allowed, splitEpoch_append]

theorem receive_hmac (ends : Matched h peer) (tagged : h.mode = .hmac) :
    peer.receive mac (h.sendHandshake mac msg epoch blob) = some (epoch, blob) := by
  have sent := sendHandshake_sent mac h msg epoch blob
  simp only [tagged] at sent
  obtain ⟨psk, secret, kind, payload⟩ := sent
  have shared : peer.psk = some psk := (ends.hmac tagged).trans secret
  rw [receive, kind, (dispatch_kinds msg).2.1, payload]
  show peer.acceptHmac mac msg.tag _ = _
  rw [acceptHmac_tagged shared (mac.hmac_length _ _), ends.aad, if_pos rfl]

variable {chain : List Bytes} {signer : suite.Signer}

theorem receive_signed (ends : Matched h peer) (signing : h.mode = .signed)
    (identity : h.signer = some (chain, signer)) (small : ∀ der ∈ chain, der.length < 2 ^ 32) :
    peer.receive mac (h.sendHandshake mac msg epoch blob) = some (epoch, blob) ↔
      chain.length < 65536 := by
  have sent := sendHandshake_sent mac h msg epoch blob
  simp only [signing, identity] at sent
  obtain ⟨_, _, ⟨rfl, rfl⟩, kind, payload⟩ := sent
  rw [receive, kind, (dispatch_kinds msg).2.2, payload, bind_some]
  show peer.acceptSigned msg.tag _ = _ ↔ _
  rw [acceptSigned_signed (suite.sign_length _ _), splitCertChain_encode small, bind_some]
  dsimp only
  constructor
  · intro accepted
    obtain ⟨vk, -, accepted⟩ := bind_eq_some_iff.mp accepted
    split at accepted
    · -- what is taken for the blob has the unread certificates in front
      have taken := congrArg Prod.snd (Option.some.inj accepted)
      have unread := flatMap_eq_nil_iff.mp (append_left_eq_self.mp taken)
      have none : chain.drop (chain.length % 65536) = [] := by
        apply eq_nil_iff_forall_not_mem.mpr
        intro der member
        have length := congrArg length (unread der member)
        simp [encodeCert] at length
      have read := drop_eq_nil_iff.mp none
      omega
    · cases accepted
  · intro few
    have key := ends.signed chain signer signing identity
    rw [mod_eq_of_lt few, take_length, drop_length, flatMap_nil,
      nil_append, key, bind_some, ends.aad, suite.verify_sign, if_pos rfl]

theorem certs_small (signing : h.mode = .signed) (identity : h.signer = some (chain, signer))
    (admitted : (h.sendHandshake mac msg epoch blob).payload.length ≤ maxTotalLen) :
    ∀ der ∈ chain, der.length < 2 ^ 32 := by
  have sent := sendHandshake_sent mac h msg epoch blob
  simp only [signing, identity] at sent
  obtain ⟨_, _, ⟨rfl, rfl⟩, -, payload⟩ := sent
  rw [payload] at admitted
  intro der member
  have inside : (encodeCert der).length ≤ (chain.flatMap encodeCert).length := by
    rw [length_flatMap]
    exact le_sum_of_mem (mem_map_of_mem member)
  simp only [length_append, encodeCertChain, maxTotalLen] at admitted
  simp only [encodeCert, length_append] at inside
  omega

theorem receive_iff (ends : Matched h peer)
    (admitted : (h.sendHandshake mac msg epoch blob).payload.length ≤ maxTotalLen) :
    peer.receive mac (h.sendHandshake mac msg epoch blob) = some (epoch, blob) ↔
      (h.mode = .signed → ∀ chain signer, h.signer = some (chain, signer) → chain.length < 65536) := by
  cases sending : h.mode with
  | plain => simp [receive_plain ends sending]
  | hmac => simp [receive_hmac ends sending]
  | signed =>
    obtain ⟨⟨chain, signer⟩, identity⟩ : ∃ pair, h.signer = some pair := by
      apply isSome_iff_exists.mp
      unfold mode at sending
      split at sending
      · split at sending
        · assumption
        · cases sending
      · split at sending <;> cases sending
    rw [receive_signed ends sending identity (certs_small sending identity admitted)]
    simp [identity]

/-- The bytes under the MAC tell any two messages apart as long as the suites are shorter than
65536 bytes, and no longer; and the peer reads the epoch and the blob that were sent, in every
mode, exactly when a chain that is sent along has fewer than 65536 certificates. -/
theorem handshake_binds (mac : MacSuite) (suite : SignSuite) :
    (∀ n, (∀ x y : LinkAad, x.blob.length ≤ maxTotalLen → y.blob.length ≤ maxTotalLen →
        (textBytes x.suiteId).length < n → (textBytes y.suiteId).length < n →
        x.message = y.message → x = y) ↔ n ≤ 65536) ∧
    ∀ (h peer : HandshakeEnd suite) (msg : HsKind) (epoch : UInt32) (blob : Bytes),
      Matched h peer → (h.sendHandshake mac msg epoch blob).payload.length ≤ maxTotalLen →
      (peer.receive mac (h.sendHandshake mac msg epoch blob) = some (epoch, blob) ↔
        (h.mode = .signed → ∀ chain signer, h.signer = some (chain, signer) →
          chain.length < 65536)) := by
  refine ⟨?_, fun h peer msg epoch blob ends admitted => receive_iff ends admitted⟩
  intro n
  constructor
  · intro injective
    by_contra long
    have empty : (textBytes zeroBlob.suiteId).length = 0 := by decide
    have suiteLength : (textBytes zeroSuite.suiteId).length = 65536 := by
      show (textBytes (String.ofList (List.replicate 65536 '\x00'))).length = 65536
      rw [textBytes_zeros, length_replicate]
    apply zeros_differ
    exact injective zeroBlob zeroSuite (by rw [zeroBlob_length]; decide) (by decide)
      (by rw [empty]; omega) (by rw [suiteLength]; omega) zeros_collide
  · intro short x y _ _ shortX shortY same
    exact LinkAad.message_injective (by omega) (by omega) same

/-- Signatures and certificates small enough to evaluate: a signature repeats the key byte, and a
leaf certificate is the key. -/
def toySigning : SignSuite where
  Signer := UInt8
  TrustRoots := Unit
  fromSeed seed := seed.head?
  sign signer _ := replicate signatureLen signer
  verifyingKey signer := [signer]
  verify key _ signature := signature = replicate signatureLen (key.headD 0)
  verifyNodeCert chain _ _ := chain.head?
  sign_length _ _ := length_replicate
  verify_sign _ _ := by simp

def zeroMac : MacSuite where
  hkdf _ _ _ len := replicate len 0
  hmac _ _ := replicate 32 0
  hmac_length _ _ := rfl

def toySender (chain : List Bytes) : HandshakeEnd toySigning where
  suiteId := "ml-kem-768"
  myId := 1
  peerId := 2
  psk := none
  signSeed := none
  peerVerifyKey := none
  certId := some ⟨(9 : UInt8), chain, ()⟩
  auth := .sign
  keySizeBits := 256

def toyReceiver : HandshakeEnd toySigning :=
  { toySender [] with myId := 2, peerId := 1 }

theorem toySender_matched {leaf : Bytes} (key : leaf = [9]) :
    Matched (toySender (leaf :: chain)) toyReceiver where
  ids := ⟨rfl, rfl⟩
  suiteId := rfl
  keySizeBits := rfl
  plain unsigned := by cases unsigned
  hmac tagged := by cases tagged
  signed := by
    intro chain' signer _ identity
    cases identity
    rw [key]
    rfl

theorem toySender_payload (n : Nat) :
    ((toySender ([9] :: replicate n [])).sendHandshake zeroMac .init 5 [1, 2, 3]).payload.length =
      4 * n + 3323 := by
  obtain ⟨chain, signer, identity, -, payload⟩ :=
    sendHandshake_sent zeroMac (toySender ([9] :: replicate n [])) .init 5 [1, 2, 3]
  cases identity
  rw [payload, length_append, toySigning.sign_length]
  simp [encodeCertChain, encodeCert, signatureLen]
  omega

theorem handshake_binds_chain :
    toyReceiver.receive zeroMac ((toySender [[9], [8, 8]]).sendHandshake zeroMac .init 5 [1, 2, 3]) =
      some (5, [1, 2, 3]) := by
  apply ((handshake_binds zeroMac toySigning).2 _ _ .init 5 [1, 2, 3] (toySender_matched rfl)
    (by decide +kernel)).mpr
  intro _ chain signer identity
  cases identity
  decide

/-- With a suite of 65536 bytes two messages have the same bytes under the MAC; with 65536
certificates the peer does not get the blob back. -/
theorem cut_lengths_collide : (zeroBlob ≠ zeroSuite ∧ zeroBlob.blob.length ≤ maxTotalLen ∧
      zeroSuite.blob.length ≤ maxTotalLen ∧ zeroBlob.message = zeroSuite.message) ∧
    let sender := toySender ([9] :: List.replicate 65535 [])
    Matched sender toyReceiver ∧
      (sender.sendHandshake zeroMac .init 5 [1, 2, 3]).payload.length ≤ maxTotalLen ∧
      toyReceiver.receive zeroMac (sender.sendHandshake zeroMac .init 5 [1, 2, 3]) ≠
        some (5, [1, 2, 3]) := by
  refine ⟨⟨zeros_differ, by rw [zeroBlob_length]; decide, by decide, zeros_collide⟩, ?_⟩
  intro sender
  have ends : Matched sender toyReceiver := toySender_matched rfl
  have small : ∀ der ∈ ([9] :: List.replicate 65535 [] : List Bytes), der.length < 2 ^ 32 := by
    intro der member
    rcases mem_cons.mp member with leaf | other
    · rw [leaf]
      decide
    · rw [eq_of_mem_replicate other]
      decide
  have count : ([9] :: List.replicate 65535 [] : List Bytes).length = 65536 := by
    rw [length_cons, length_replicate]
  refine ⟨ends, ?_, ?_⟩
  · rw [toySender_payload]
    decide
  intro received
  have few := (receive_signed ends rfl rfl small).mp received
  rw [count] at few
  omega

end HandshakeEnd

end Dkms.Link
