import Dkms.Node.Buffer

namespace Dkms.Node

inductive DkmsError where
  | unknownSae (sae : SaeId)
  | unknownPeer (peer : String)
  | pendingFull (peer : String)
  | rateLimited (sae : SaeId) (requested available : Nat)
  | badRequest (message : String)
  | keyNotAuthorized (sae : SaeId)
  | keyExpired
  | peerUnreachable (peer source : String)
  | peerRejected (peer : String) (status : Nat) (body : String)
  | peerAckTimeout (peer : String)
  | transportBufferEmpty (peer : String)
  | transportKeyMissing (peer keyId : String)
  | saeBindingLookupFailed (sae : SaeId)
  | crypto (message : String)
  deriving DecidableEq, Repr

namespace DkmsError

def text : DkmsError → String
  | unknownSae sae => s!"unknown sae: {sae}"
  | unknownPeer peer => s!"forbidden: {peer} is not a known peer dkms of this node"
  | pendingFull peer => s!"pending store full for peer {peer}: their SAEs are not retrieving"
  | rateLimited sae requested available =>
    s!"rate-limited: sae {sae} requested {requested} tokens, {available} available"
  | badRequest message => s!"invalid request: {message}"
  | keyNotAuthorized sae => s!"key not found or not authorized for sae {sae}"
  | keyExpired => "key expired"
  | peerUnreachable peer source => s!"peer dkms {peer} unreachable: {source}"
  | peerRejected peer status body => s!"peer dkms {peer} rejected: HTTP {status} — {body}"
  | peerAckTimeout peer => s!"peer dkms {peer} did not ack within timeout"
  | transportBufferEmpty peer => s!"transport buffer empty for peer {peer}"
  | transportKeyMissing peer keyId => s!"transport key {keyId} not in buffer_dec[{peer}]"
  | saeBindingLookupFailed sae => s!"sae binding lookup failed for {sae}"
  | crypto message => s!"crypto: {message}"

def response : DkmsError → Nat × String
  | error@(unknownPeer _) => (403, error.text)
  | error@(pendingFull _) | error@(transportBufferEmpty _) | error@(transportKeyMissing _ _) =>
    (503, error.text)
  | error@(unknownSae _) | error@(saeBindingLookupFailed _) => (404, error.text)
  | error@(badRequest _) => (400, error.text)
  | error@(rateLimited _ _ _) => (429, error.text)
  | keyNotAuthorized _ | keyExpired => (404, "key not found")
  | error@(peerUnreachable _ _) | error@(peerRejected _ _ _) | error@(peerAckTimeout _) =>
    (502, error.text)
  | crypto _ => (500, "internal error")

def peerWithStaleTransportBuffer : DkmsError → Option String
  | peerRejected peer _ body =>
    if "not in buffer_dec".toList <:+: body.toList then some peer else none
  | _ => none

end DkmsError

def maxIdLen : Nat := 64

def isValidId (s : String) : Bool :=
  s ≠ "" && s.utf8ByteSize ≤ maxIdLen &&
    s.toList.all fun c => c.isAlphanum || ['.', '_', ':', '@', '+', '-'].contains c

def hexDigit (n : Nat) : Char := "0123456789abcdef".toList.getD n '0'

def hexEncode (bytes : Bytes) : String :=
  String.ofList (bytes.flatMap fun b => [hexDigit (b.toNat / 16), hexDigit (b.toNat % 16)])

/-- Fingerprint of a key, bound to its id. `sha` stands for the 16 bytes of SHA-256 that the
source keeps. -/
def keyDigest (sha : Bytes → Bytes) (keyId : KeyId) (bytes : Bytes) : String :=
  hexEncode (sha (keyId.toUTF8.toList ++ bytes))

theorem hexDigit_injective {a b : Nat} (low : a < 16) (high : b < 16)
    (same : hexDigit a = hexDigit b) : a = b := by
  have all : ∀ a < 16, ∀ b < 16, hexDigit a = hexDigit b → a = b := by decide
  exact all a low b high same

theorem hexEncode_injective : Function.Injective hexEncode := by
  intro a b same
  replace same := String.ofList_injective same
  induction a generalizing b with
  | nil =>
    cases b with
    | nil => rfl
    | cons y b => cases same
  | cons x a ih =>
    cases b with
    | nil => cases same
    | cons y b =>
      simp only [List.flatMap_cons, List.cons_append, List.cons.injEq] at same
      obtain ⟨high, low, rest⟩ := same
      have xBound := x.toNat_lt
      have yBound := y.toNat_lt
      have highs := hexDigit_injective (by omega) (by omega) high
      have lows := hexDigit_injective (by omega) (by omega) low
      have bytes : x = y := UInt8.toNat_inj.mp (by omega)
      rw [bytes, ih rest]

theorem keyDigest_injective {sha : Bytes → Bytes} (injective : Function.Injective sha)
    (keyId : KeyId) : Function.Injective (keyDigest sha keyId) := by
  intro a b same
  exact List.append_cancel_left (injective (hexEncode_injective same))

def wrapSessionKey (transport k : Bytes) : Except String Bytes :=
  if transport.length < k.length then
    .error (s!"transport key too short for OTP ({transport.length} bytes, " ++
      s!"session key {k.length} bytes)")
  else .ok (List.zipWith (· ^^^ ·) k transport)

def unwrapSessionKey (transport wire : Bytes) : Except String Bytes :=
  if transport.length < wire.length then
    .error (s!"transport key too short for OTP ({transport.length} bytes, " ++
      s!"ciphertext {wire.length} bytes)")
  else .ok (List.zipWith (· ^^^ ·) wire transport)

structure KeyExtension where
  transportKeyId : Option String
  sessionKeyDigest : Option String
  deriving DecidableEq, Repr

structure Etsi020Key where
  keyId : KeyId
  value : Bytes
  extension : Option KeyExtension
  deriving DecidableEq, Repr

/-- Session keys for the SAEs of another DKMS. A mandatory extension is a name with its value,
where that is an unsigned integer. -/
structure Etsi020ExtKeyContainer where
  keys : List Etsi020Key
  initiatorSaeId : String
  targetSaeIds : List String
  extensionMandatory : Option (List (String × Option Nat))
  deriving DecidableEq, Repr

structure Etsi020ExtKeyAckContainer where
  keyIds : List KeyId
  initiatorSaeId : String
  targetSaeId : String
  deriving DecidableEq, Repr

structure Etsi014Key where
  keyId : KeyId
  key : Bytes
  deriving DecidableEq, Repr

def Etsi020ExtKeyContainer.validate (body : Etsi020ExtKeyContainer) : Except String Unit :=
  if body.keys = [] then .error "validation: keys must contain at least 1 entry"
  else if body.targetSaeIds = [] then .error "validation: target_sae_ids must contain at least 1 entry"
  else if body.keys.any (·.value = []) then .error "validation: value must be at least 1 byte"
  else .ok ()

def Etsi020ExtKeyContainer.transportKeyIds (body : Etsi020ExtKeyContainer) : List KeyId :=
  body.keys.filterMap fun k => k.extension.bind (·.transportKeyId)

end Dkms.Node
