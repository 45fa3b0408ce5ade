import Dkms.Link.SecretStore
import Dkms.Wire.Frame

namespace Dkms.Link

open List Dkms.Core Dkms.Wire

structure MacSuite where
  hkdf : (salt ikm info : Bytes) → Nat → Bytes
  hmac : (key message : Bytes) → Bytes
  hmac_length : ∀ key message, (hmac key message).length = 32

def tagFrame : Bytes := textBytes "QKCFRAME"
def hkdfInfo : Bytes := textBytes "dkms/link-mac/frame/v1"

def MacSuite.deriveKey (mac : MacSuite) (root : Bytes) (session : Nat) : Bytes :=
  mac.hkdf (beBytes 8 session) root hkdfInfo 32

structure FrameAad where
  kind : UInt8
  grade : UInt8
  session : Nat
  counter : Nat
  senderId : UInt32
  receiverId : UInt32
  destFinal : UInt32
  keySizeBits : UInt16
  epochId : UInt32
  keyIds : List String
  headerOrrMp : Bytes
  headerDkmsMp : Bytes
  body : Bytes

/-- `write_lp16`; the source asserts that the length fits its two bytes. -/
def lp16 (bytes : Bytes) : Bytes := beBytes 2 bytes.length ++ bytes

def FrameAad.message (aad : FrameAad) : Bytes :=
  tagFrame ++ [aad.kind, aad.grade] ++ beBytes 8 aad.session ++ beBytes 8 aad.counter ++
    beBytes 4 aad.senderId.toNat ++ beBytes 4 aad.receiverId.toNat ++
    beBytes 4 aad.destFinal.toNat ++ beBytes 2 aad.keySizeBits.toNat ++
    beBytes 4 aad.epochId.toNat ++ beBytes 4 aad.keyIds.length ++
    aad.keyIds.flatMap (fun k => lp16 (textBytes k)) ++ lp16 aad.headerOrrMp ++
    lp16 aad.headerDkmsMp ++ beBytes 4 aad.body.length ++ aad.body

def MacSuite.tag (mac : MacSuite) (key : Bytes) (aad : FrameAad) : Bytes :=
  mac.hmac key aad.message

def MacSuite.verify (mac : MacSuite) (key : Bytes) (aad : FrameAad) (tag : Bytes) : Bool :=
  mac.tag key aad = tag

def frameRecv : UInt8 := 0x01
def frameRelay : UInt8 := 0x02
def frameRecvAuth : UInt8 := 0x04
def frameRelayAuth : UInt8 := 0x05
def frameKeyIdsNotify : UInt8 := 0x20
def frameKeyIdsNotifyAuth : UInt8 := 0x25

def isAuthKind (kind : UInt8) : Bool :=
  kind = frameRecvAuth || kind = frameRelayAuth || kind = frameKeyIdsNotifyAuth

def authKindFor (kind : UInt8) : Option UInt8 :=
  if kind = frameRecv then some frameRecvAuth
  else if kind = frameRelay then some frameRelayAuth
  else if kind = frameKeyIdsNotify then some frameKeyIdsNotifyAuth
  else none

def baseKindOf (kind : UInt8) : UInt8 :=
  if kind = frameRecvAuth then frameRecv
  else if kind = frameRelayAuth then frameRelay
  else if kind = frameKeyIdsNotifyAuth then frameKeyIdsNotify
  else kind

theorem baseKindOf_of_authKindFor {kind authKind : UInt8} (auth : authKindFor kind = some authKind) :
    baseKindOf authKind = kind := by
  unfold authKindFor at auth
  split at auth
  · rename_i same
    cases auth
    exact same.symm
  split at auth
  · rename_i same
    cases auth
    exact same.symm
  split at auth
  · rename_i same
    cases auth
    exact same.symm
  · cases auth

def authTrailerLen : Nat := 8 + 8 + 32

def appendAuthTrailer (payload : Bytes) (session counter : Nat) (tag : Bytes) : Bytes :=
  payload ++ (leBytes 8 session ++ (leBytes 8 counter ++ tag))

structure AuthTrailer where
  body : Bytes
  session : Nat
  counter : Nat
  tag : Bytes

def splitAuthTrailer (payload : Bytes) : Except WireError AuthTrailer :=
  if payload.length < authTrailerLen then .error (.truncated "auth trailer")
  else
    let cut := payload.length - authTrailerLen
    let trailer := payload.drop cut
    .ok {
      body := payload.take cut
      session := leNumber (trailer.take 8)
      counter := leNumber ((trailer.drop 8).take 8)
      tag := trailer.drop 16 }

theorem lp16_delimited : Delimited (·.length ≤ 65535) lp16 :=
  fun a b r s shortA shortB => delimited_lengthPrefixed 2 a b r s (Nat.lt_succ_of_le shortA)
    (Nat.lt_succ_of_le shortB)

theorem textBytes_injective : Function.Injective textBytes := by
  intro a b same
  have text := congrArg textOf same
  rw [textOf_textBytes, textOf_textBytes] at text
  exact Option.some.inj text

structure FrameAad.Fits (aad : FrameAad) : Prop where
  session : aad.session < 2 ^ 64
  counter : aad.counter < 2 ^ 64
  keyIds : ∀ k ∈ aad.keyIds, (textBytes k).length ≤ 65535
  headerOrrMp : aad.headerOrrMp.length ≤ 65535
  headerDkmsMp : aad.headerDkmsMp.length ≤ 65535
  body : aad.body.length < 2 ^ 32

/-- The count of the ids is cut to 32 bits, and yet the bytes tell the ids apart from the rest:
2^32 ids more take up more room than the headers and the body can have. -/
theorem keyIds_of_append {a b : FrameAad} (fitsA : a.Fits) (fitsB : b.Fits) {r s : Bytes}
    (short : a.keyIds.length ≤ b.keyIds.length) (room : r.length < 2 ^ 33)
    (count : a.keyIds.length % 2 ^ 32 = b.keyIds.length % 2 ^ 32)
    (same : a.keyIds.flatMap (fun k => lp16 (textBytes k)) ++ r =
      b.keyIds.flatMap (fun k => lp16 (textBytes k)) ++ s) : a.keyIds = b.keyIds ∧ r = s := by
  have delimited : Delimited (fun k => (textBytes k).length ≤ 65535) fun k => lp16 (textBytes k) := by
    intro k l r s shortK shortL same
    obtain ⟨bytes, rest⟩ := lp16_delimited _ _ _ _ shortK shortL same
    exact ⟨textBytes_injective bytes, rest⟩
  obtain ⟨more, ids, rest⟩ := delimited.flatMap fitsA.keyIds fitsB.keyIds short same
  have long : 2 * more.length ≤ (more.flatMap fun k => lp16 (textBytes k)).length := by
    clear ids rest
    induction more with
    | nil => exact Nat.zero_le _
    | cons k more ih =>
      rw [flatMap_cons, length_append, length_cons, lp16, length_append, beBytes_length]
      omega
  have none : more = [] := by
    rw [ids, length_append] at count
    rw [rest, length_append] at room
    apply eq_nil_of_length_eq_zero
    omega
  rw [none] at rest
  rw [none, append_nil] at ids
  exact ⟨ids.symm, rest⟩

def FrameAad.afterIds (aad : FrameAad) : Bytes :=
  lp16 aad.headerOrrMp ++ (lp16 aad.headerDkmsMp ++ (beBytes 4 aad.body.length ++ aad.body))

theorem FrameAad.Fits.afterIds_length {aad : FrameAad} (fits : aad.Fits) :
    aad.afterIds.length < 2 ^ 33 := by
  have := fits.headerOrrMp
  have := fits.headerDkmsMp
  have := fits.body
  simp only [FrameAad.afterIds, lp16, length_append, beBytes_length]
  omega

theorem message_determines {a b : FrameAad} (fitsA : a.Fits) (fitsB : b.Fits) :
    a.message = b.message ↔ a = b := by
  refine ⟨fun same => ?_, fun same => congrArg _ same⟩
  simp only [FrameAad.message, append_assoc] at same
  replace same := append_cancel_left same
  obtain ⟨head, same⟩ := append_inj same rfl
  obtain ⟨session, same⟩ := delimited_beBytes 8 _ _ _ _ fitsA.session fitsB.session same
  obtain ⟨counter, same⟩ := delimited_beBytes 8 _ _ _ _ fitsA.counter fitsB.counter same
  obtain ⟨senderId, same⟩ := delimited_beBytes 4 _ _ _ _ a.senderId.toNat_lt b.senderId.toNat_lt same
  obtain ⟨receiverId, same⟩ := delimited_beBytes 4 _ _ _ _ a.receiverId.toNat_lt b.receiverId.toNat_lt same
  obtain ⟨destFinal, same⟩ := delimited_beBytes 4 _ _ _ _ a.destFinal.toNat_lt b.destFinal.toNat_lt same
  obtain ⟨keySizeBits, same⟩ := delimited_beBytes 2 _ _ _ _ a.keySizeBits.toNat_lt b.keySizeBits.toNat_lt same
  obtain ⟨epochId, same⟩ := delimited_beBytes 4 _ _ _ _ a.epochId.toNat_lt b.epochId.toNat_lt same
  obtain ⟨counts, same⟩ := append_inj same (by simp)
  have count : a.keyIds.length % 2 ^ 32 = b.keyIds.length % 2 ^ 32 := by
    have numbers := congrArg beNumber counts
    rwa [beNumber_beBytes, beNumber_beBytes] at numbers
  obtain ⟨keyIds, same⟩ : a.keyIds = b.keyIds ∧ a.afterIds = b.afterIds := by
    rcases Nat.le_total a.keyIds.length b.keyIds.length with short | short
    · exact keyIds_of_append fitsA fitsB short fitsA.afterIds_length count same
    obtain ⟨ids, rest⟩ := keyIds_of_append fitsB fitsA short fitsB.afterIds_length count.symm same.symm
    exact ⟨ids.symm, rest.symm⟩
  obtain ⟨headerOrrMp, same⟩ := lp16_delimited _ _ _ _ fitsA.headerOrrMp fitsB.headerOrrMp same
  obtain ⟨headerDkmsMp, same⟩ := lp16_delimited _ _ _ _ fitsA.headerDkmsMp fitsB.headerDkmsMp same
  obtain ⟨-, body⟩ := delimited_beBytes 4 _ _ _ _ fitsA.body fitsB.body same
  obtain ⟨kind, grade⟩ : a.kind = b.kind ∧ a.grade = b.grade := by simpa using head
  cases a
  cases b
  simp only [FrameAad.mk.injEq]
  exact ⟨kind, grade, session, counter, UInt32.toNat_inj.mp senderId, UInt32.toNat_inj.mp receiverId,
    UInt32.toNat_inj.mp destFinal, UInt16.toNat_inj.mp keySizeBits, UInt32.toNat_inj.mp epochId,
    keyIds, headerOrrMp, headerDkmsMp, body⟩

def twoIds (first second : String) : FrameAad :=
  ⟨frameRecvAuth, 0, 7, 1, 1, 2, 2, 256, 0, [first, second], [], [], [5]⟩

theorem message_determines_ids : (twoIds "ab" "c").message ≠ (twoIds "a" "bc").message := by
  have fits : ∀ first second, (textBytes first).length ≤ 65535 → (textBytes second).length ≤ 65535 →
      (twoIds first second).Fits := by
    intro first second shortFirst shortSecond
    exact {
      session := by simp [twoIds]
      counter := by simp [twoIds]
      keyIds := by simp [twoIds, shortFirst, shortSecond]
      headerOrrMp := by simp [twoIds]
      headerDkmsMp := by simp [twoIds]
      body := by simp [twoIds] }
  intro same
  have equal := (message_determines (fits "ab" "c" (by decide) (by decide))
    (fits "a" "bc" (by decide) (by decide))).mp same
  exact absurd (congrArg FrameAad.keyIds equal) (by decide)

theorem splitAuthTrailer_append (payload tag : Bytes) (session counter : Nat)
    (length : tag.length = 32) (sessionBound : session < 2 ^ 64) (counterBound : counter < 2 ^ 64) :
    splitAuthTrailer (appendAuthTrailer payload session counter tag) =
      .ok ⟨payload, session, counter, tag⟩ := by
  have total : (appendAuthTrailer payload session counter tag).length =
      payload.length + authTrailerLen := by
    simp [appendAuthTrailer, authTrailerLen, length]
  have cut : (appendAuthTrailer payload session counter tag).length - authTrailerLen =
      payload.length := by omega
  have word : ∀ n : Nat, n < 2 ^ 64 → leNumber (leBytes 8 n) = n := by
    intro n bound
    rw [leNumber_leBytes]
    exact Nat.mod_eq_of_lt bound
  unfold splitAuthTrailer
  rw [if_neg (by omega)]
  dsimp only
  rw [cut, appendAuthTrailer, take_left, drop_left,
    take_left' (leBytes_length 8 session), drop_left' (leBytes_length 8 session),
    take_left' (leBytes_length 8 counter), word session sessionBound, word counter counterBound]
  rfl

end Dkms.Link
