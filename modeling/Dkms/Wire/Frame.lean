import Dkms.Core.Bytes

namespace Dkms.Wire

open Dkms.Core

inductive IoErrorKind where
  | unexpectedEof
  deriving DecidableEq, Repr

inductive WireError where
  | io (kind : IoErrorKind)
  | badMagic
  | tooLarge (bytes : Nat)
  | truncated (what : String)
  | fieldTooLong (what : String)
  deriving DecidableEq, Repr

structure Frame where
  kind : UInt8
  grade : UInt8
  senderId : UInt32
  receiverId : UInt32
  destFinal : UInt32
  keySizeBits : UInt16
  epochId : UInt32
  keyIds : List String
  headerOrrMp : List UInt8
  headerDkmsMp : List UInt8
  payload : List UInt8
  deriving DecidableEq

def Frame.empty (kind : UInt8) : Frame where
  kind
  grade := 0
  senderId := 0
  receiverId := 0
  destFinal := 0
  keySizeBits := 0
  epochId := 0
  keyIds := []
  headerOrrMp := []
  headerDkmsMp := []
  payload := []

def magic : List UInt8 := [0x51, 0x4B, 0x43, 0x03]
def fixedPrefix : Nat := 4 + 1 + 1 + 4
def maxTotalLen : Nat := 1024 * 1024

namespace Frame

variable (f : Frame)

/-- The length of the first key id, which the format takes for all of them. -/
def keyIdLen : Nat := f.keyIds.head?.elim 0 (fun k => (textBytes k).length)

def validateForEncode : Except WireError Unit := do
  if f.keyIds.length > 255 then throw (.fieldTooLong "key_ids count")
  if f.keyIdLen > 255 then throw (.fieldTooLong "key_id length")
  if f.keyIds.any (fun k => (textBytes k).length ≠ f.keyIdLen) then
    throw (.fieldTooLong "non-uniform key_id length")
  if f.headerOrrMp.length > 65535 then throw (.fieldTooLong "header_orr_mp")
  if f.headerDkmsMp.length > 65535 then throw (.fieldTooLong "header_dkms_mp")
  let total := fixedPrefix + 4 + 4 + 4 + 2 + 4 + 1 + 1 + f.keyIdLen * f.keyIds.length + 2 +
    f.headerOrrMp.length + 2 + f.headerDkmsMp.length + 4 + f.payload.length
  if total > maxTotalLen then throw (.tooLarge (total % 2 ^ 32))

def bodyLen : Nat :=
  4 + 4 + 4 + 2 + 4 + 1 + 1 + f.keyIdLen % 256 * f.keyIds.length + 2 + f.headerOrrMp.length + 2 +
    f.headerDkmsMp.length + 4 + f.payload.length

/-- Everything after the fixed part of the body; lengths are truncated to their field. -/
def encodeTail : List UInt8 :=
  f.keyIds.flatMap textBytes ++
    (leBytes 2 f.headerOrrMp.length ++ (f.headerOrrMp ++
      (leBytes 2 f.headerDkmsMp.length ++ (f.headerDkmsMp ++ (leBytes 4 f.payload.length ++ f.payload)))))

def encodeBody : List UInt8 :=
  leBytes 4 f.senderId.toNat ++ (leBytes 4 f.receiverId.toNat ++ (leBytes 4 f.destFinal.toNat ++
    (leBytes 2 f.keySizeBits.toNat ++ (beBytes 4 f.epochId.toNat ++
      (leBytes 1 f.keyIds.length ++ (leBytes 1 f.keyIdLen ++ f.encodeTail))))))

def encode : List UInt8 :=
  magic ++ ([f.kind, f.grade] ++ (leBytes 4 f.bodyLen ++ f.encodeBody))

end Frame

open Cursor

def readLp16 (what : String) : Cursor WireError (List UInt8) := do
  need 2 (.truncated what)
  let len ← getLe 2
  need len (.truncated what)
  takeBytes len

def readKeyId (len : Nat) : Cursor WireError String := do
  let bytes ← takeBytes len
  match textOf bytes with
  | some text => pure text
  | none => throw (.truncated "key_id utf-8")

def readKeyIds (len : Nat) : Nat → Cursor WireError (List String)
  | 0 => pure []
  | n + 1 => do
    let id ← readKeyId len
    let ids ← readKeyIds len n
    pure (id :: ids)

/-- `decode_body`: the caller fills in kind and grade from the prefix. -/
def decodeFields : Cursor WireError Frame := do
  need (4 + 4 + 4 + 2 + 4 + 1 + 1) (.truncated "header")
  let senderId ← getLe 4
  let receiverId ← getLe 4
  let destFinal ← getLe 4
  let keySizeBits ← getLe 2
  let epochId ← getBe 4
  let nKeyIds ← getLe 1
  let keyIdLen ← getLe 1
  need (nKeyIds * keyIdLen + 2) (.truncated "key_ids")
  let keyIds ← readKeyIds keyIdLen nKeyIds
  let headerOrrMp ← readLp16 "header_orr"
  let headerDkmsMp ← readLp16 "header_dkms"
  need 4 (.truncated "payload_len")
  let payloadLen ← getLe 4
  need payloadLen (.truncated "payload")
  let payload ← takeBytes payloadLen
  pure {
    kind := 0
    grade := 0
    senderId := .ofNat senderId
    receiverId := .ofNat receiverId
    destFinal := .ofNat destFinal
    keySizeBits := .ofNat keySizeBits
    epochId := .ofNat epochId
    keyIds
    headerOrrMp
    headerDkmsMp
    payload }

def Frame.decodeBody (body : List UInt8) : Except WireError Frame := do
  let (frame, _) ← decodeFields body
  pure frame

def readExact (n : Nat) : Cursor WireError (List UInt8) := fun stream =>
  if stream.length < n then .error (.io .unexpectedEof)
  else .ok (stream.take n, stream.drop n)

def chunk : Nat := 16 * 1024

/-- `read_body`: memory grows with what arrives, a chunk at a time. -/
def readBody (remaining : Nat) : Cursor WireError (List UInt8) :=
  if remaining = 0 then pure []
  else do
    let bytes ← readExact (min remaining chunk)
    let rest ← readBody (remaining - min remaining chunk)
    pure (bytes ++ rest)
termination_by remaining
decreasing_by simp only [chunk]; omega

def readFrame : Cursor WireError Frame := do
  let start ← readExact fixedPrefix
  if start.take 4 ≠ magic then throw .badMagic
  let totalLen := leNumber (start.drop 6)
  if totalLen > maxTotalLen then throw (.tooLarge totalLen)
  let body ← readBody totalLen
  match Frame.decodeBody body with
  | .error e => throw e
  | .ok f => pure { f with kind := start.getD 4 0, grade := start.getD 5 0 }

theorem readExact_of_le (n : Nat) (stream : List UInt8) (enough : n ≤ stream.length) :
    readExact n stream = .ok (stream.take n, stream.drop n) := by
  simp [readExact, not_lt.mpr enough]

theorem readExact_short (n : Nat) (stream : List UInt8) (short : stream.length < n) :
    readExact n stream = .error (.io .unexpectedEof) := by
  simp [readExact, short]

theorem readExact_add (first second : Nat) :
    (do let bytes ← readExact first
        let rest ← readExact second
        pure (bytes ++ rest)) = readExact (first + second) := by
  funext stream
  change (readExact first stream >>= fun head => readExact second head.2 >>= fun tail =>
    Except.ok (head.1 ++ tail.1, tail.2)) = readExact (first + second) stream
  by_cases enough : first ≤ stream.length
  · rw [readExact_of_le first stream enough]
    change (readExact second (stream.drop first) >>= fun tail =>
      Except.ok (stream.take first ++ tail.1, tail.2)) = _
    by_cases whole : first + second ≤ stream.length
    · rw [readExact_of_le second _ (by rw [List.length_drop]; omega), readExact_of_le _ _ whole]
      change Except.ok (stream.take first ++ (stream.drop first).take second,
        (stream.drop first).drop second) = _
      rw [← List.take_add, List.drop_drop]
    · rw [readExact_short second _ (by rw [List.length_drop]; omega), readExact_short _ _ (by omega)]
      rfl
  · rw [readExact_short first stream (by omega), readExact_short _ _ (by omega)]
    rfl

theorem readBody_eq (total : Nat) : readBody total = readExact total := by
  induction total using Nat.strongRecOn with
  | ind total ih =>
    rw [readBody]
    by_cases empty : total = 0
    · subst empty
      funext stream
      exact (readExact_of_le 0 stream (Nat.zero_le _)).symm
    have positive : 0 < min total chunk := by simp only [chunk]; omega
    rw [if_neg empty, ih (total - min total chunk) (by omega), readExact_add]
    congr 1
    omega

theorem readFrame_consumes {stream rest : List UInt8} {f : Frame}
    (read : readFrame stream = .ok (f, rest)) : rest.length < stream.length := by
  by_cases enough : fixedPrefix ≤ stream.length
  · have start := readExact_of_le fixedPrefix stream enough
    rw [readFrame, Cursor.bind_ok start] at read
    have tail : (stream.drop fixedPrefix).length < stream.length := by
      rw [List.length_drop]
      simp only [fixedPrefix] at enough ⊢
      omega
    split at read
    · cases read
    dsimp only at read
    split at read
    · cases read
    rw [readBody_eq] at read
    by_cases whole : leNumber ((stream.take fixedPrefix).drop 6) ≤ (stream.drop fixedPrefix).length
    · have body := readExact_of_le _ _ whole
      rw [Cursor.bind_ok body] at read
      cases decoded : Frame.decodeBody ((stream.drop fixedPrefix).take
          (leNumber ((stream.take fixedPrefix).drop 6))) with
      | error e => rw [decoded] at read; cases read
      | ok g =>
        rw [decoded] at read
        cases read
        rw [List.length_drop]
        omega
    · have body := readExact_short _ _ (Nat.lt_of_not_le whole)
      change (readExact _ _ >>= _) = _ at read
      rw [body] at read
      cases read
  · have short := readExact_short fixedPrefix stream (by omega)
    change (readExact _ _ >>= _) = _ at read
    rw [short] at read
    cases read

/-- Repeated `read_frame` until it fails: the frames, the failure, and the bytes
that were left unread before it. -/
def readFrames (stream : List UInt8) : List Frame × WireError × List UInt8 :=
  match _read : readFrame stream with
  | .error e => ([], e, stream)
  | .ok (f, rest) =>
    let (frames, e, unread) := readFrames rest
    (f :: frames, e, unread)
termination_by stream.length
decreasing_by exact readFrame_consumes _read

open List Cursor Nat

structure Frame.Encodable (f : Frame) : Prop where
  count : f.keyIds.length ≤ 255
  length : f.keyIdLen ≤ 255
  uniform : ∀ k ∈ f.keyIds, (textBytes k).length = f.keyIdLen
  orr : f.headerOrrMp.length ≤ 65535
  dkms : f.headerDkmsMp.length ≤ 65535
  total : fixedPrefix + f.bodyLen ≤ maxTotalLen

variable {f : Frame}

theorem Frame.encodable_of_validate (valid : f.validateForEncode = .ok ()) : f.Encodable := by
  unfold Frame.validateForEncode at valid
  by_cases count : f.keyIds.length > 255
  · simp only [count] at valid
    cases valid
  by_cases length : f.keyIdLen > 255
  · simp only [count, length] at valid
    cases valid
  by_cases mixed : f.keyIds.any (fun k => (textBytes k).length ≠ f.keyIdLen) = true
  · simp only [count, length, mixed] at valid
    cases valid
  by_cases orr : f.headerOrrMp.length > 65535
  · simp only [count, length, mixed, orr] at valid
    cases valid
  by_cases dkms : f.headerDkmsMp.length > 65535
  · simp only [count, length, mixed, orr, dkms] at valid
    cases valid
  simp only [count, length, mixed, orr, dkms] at valid
  have uniform : ∀ k ∈ f.keyIds, (textBytes k).length = f.keyIdLen := by
    simpa using mixed
  refine ⟨by omega, by omega, uniform, by omega, by omega, ?_⟩
  have narrow : f.keyIdLen % 256 = f.keyIdLen := mod_eq_of_lt (by omega)
  by_contra large
  have exceeds : fixedPrefix + 4 + 4 + 4 + 2 + 4 + 1 + 1 + f.keyIdLen * f.keyIds.length + 2 +
      f.headerOrrMp.length + 2 + f.headerDkmsMp.length + 4 + f.payload.length > maxTotalLen := by
    simp only [Frame.bodyLen, narrow] at large
    omega
  have failed := (if_pos exceeds).symm.trans valid
  cases failed

theorem readLp16_append (what : String) (bytes rest : List UInt8) (bound : bytes.length ≤ 65535) :
    readLp16 what (leBytes 2 bytes.length ++ (bytes ++ rest)) = .ok (bytes, rest) := by
  have length : bytes.length % 256 ^ 2 = bytes.length := mod_eq_of_lt (by omega)
  unfold readLp16
  rw [bind_ok (need_of_le 2 _ _ (by simp)), bind_ok (getLe_append 2 _ _), length,
    bind_ok (need_of_le _ _ _ (by simp))]
  exact takeBytes_append bytes rest _ rfl

theorem readKeyId_append (text : String) (rest : List UInt8) :
    readKeyId (textBytes text).length (textBytes text ++ rest) = .ok (text, rest) := by
  unfold readKeyId
  rw [bind_ok (takeBytes_append _ rest _ rfl), textOf_textBytes]
  rfl

theorem readKeyIds_append (len : Nat) (ids : List String) (rest : List UInt8)
    (uniform : ∀ k ∈ ids, (textBytes k).length = len) :
    readKeyIds len ids.length (ids.flatMap textBytes ++ rest) = .ok (ids, rest) := by
  induction ids with
  | nil => rfl
  | cons id ids ih =>
    have first : (textBytes id).length = len := uniform id (by simp)
    have others : ∀ k ∈ ids, (textBytes k).length = len :=
      fun k member => uniform k (mem_cons_of_mem _ member)
    have read := readKeyId_append id (ids.flatMap textBytes ++ rest)
    rw [first] at read
    rw [length_cons, readKeyIds, flatMap_cons, append_assoc, bind_ok read, bind_ok (ih others)]
    rfl

theorem flatMap_textBytes_length (len : Nat) (ids : List String)
    (uniform : ∀ k ∈ ids, (textBytes k).length = len) :
    (ids.flatMap textBytes).length = ids.length * len := by
  induction ids with
  | nil => simp
  | cons id ids ih =>
    have first : (textBytes id).length = len := uniform id (by simp)
    have rest := ih (fun k member => uniform k (mem_cons_of_mem _ member))
    rw [flatMap_cons, length_append, rest, first, length_cons, succ_mul]
    omega

theorem u32_field (x : UInt32) : UInt32.ofNat (x.toNat % 256 ^ 4) = x := by
  have bound : x.toNat < 256 ^ 4 := x.toNat_lt
  rw [mod_eq_of_lt bound]
  exact UInt32.ofNat_toNat

theorem u16_field (x : UInt16) : UInt16.ofNat (x.toNat % 256 ^ 2) = x := by
  have bound : x.toNat < 256 ^ 2 := x.toNat_lt
  rw [mod_eq_of_lt bound]
  exact UInt16.ofNat_toNat

section

variable (ok : f.Encodable)
include ok

theorem Frame.Encodable.bodyLength : f.encodeBody.length = f.bodyLen := by
  have ids := flatMap_textBytes_length f.keyIdLen f.keyIds ok.uniform
  have narrow : f.keyIdLen % 256 = f.keyIdLen := by
    have := ok.length
    exact mod_eq_of_lt (by omega)
  simp only [Frame.encodeBody, Frame.encodeTail, Frame.bodyLen, length_append,
    leBytes_length, beBytes_length, ids, narrow, mul_comm f.keyIds.length]
  omega

theorem Frame.Encodable.decode :
    decodeFields f.encodeBody = .ok ({ f with kind := 0, grade := 0 }, []) := by
  have count : f.keyIds.length % 256 ^ 1 = f.keyIds.length := by
    have := ok.count
    exact mod_eq_of_lt (by omega)
  have length : f.keyIdLen % 256 ^ 1 = f.keyIdLen := by
    have := ok.length
    exact mod_eq_of_lt (by omega)
  have payload : f.payload.length % 256 ^ 4 = f.payload.length := by
    have := ok.total
    simp only [Frame.bodyLen, maxTotalLen] at this
    exact mod_eq_of_lt (by omega)
  have ids := flatMap_textBytes_length f.keyIdLen f.keyIds ok.uniform
  unfold decodeFields Frame.encodeBody Frame.encodeTail
  rw [bind_ok (need_of_le _ _ _ (by simp; omega)), bind_ok (getLe_append 4 _ _),
    bind_ok (getLe_append 4 _ _), bind_ok (getLe_append 4 _ _), bind_ok (getLe_append 2 _ _),
    bind_ok (getBe_append 4 _ _), bind_ok (getLe_append 1 _ _), bind_ok (getLe_append 1 _ _),
    count, length,
    bind_ok (need_of_le _ _ _ (by simp only [length_append, leBytes_length]; omega)),
    bind_ok (readKeyIds_append _ _ _ ok.uniform),
    bind_ok (readLp16_append _ _ _ ok.orr), bind_ok (readLp16_append _ _ _ ok.dkms),
    bind_ok (need_of_le _ _ _ (by simp)), bind_ok (getLe_append 4 _ _), payload,
    bind_ok (need_of_le _ _ _ (le_refl _))]
  have taken := @takeBytes_append WireError f.payload [] f.payload.length rfl
  rw [append_nil] at taken
  rw [bind_ok taken, u32_field, u32_field, u32_field, u16_field, u32_field]
  rfl

theorem Frame.Encodable.decodeBody :
    Frame.decodeBody f.encodeBody = .ok { f with kind := 0, grade := 0 } := by
  rw [Frame.decodeBody, ok.decode]
  rfl

theorem Frame.Encodable.bodyLen_le : f.bodyLen ≤ maxTotalLen := by
  have := ok.total
  omega

theorem Frame.Encodable.readFrame (rest : List UInt8) :
    readFrame (f.encode ++ rest) = .ok (f, rest) := by
  have bound := ok.bodyLen_le
  have length : f.bodyLen % 256 ^ 4 = f.bodyLen := by
    simp only [maxTotalLen] at bound
    exact mod_eq_of_lt (by omega)
  have announced : leNumber ((magic ++ ([f.kind, f.grade] ++ leBytes 4 f.bodyLen)).drop 6) =
      f.bodyLen := by
    show leNumber (leBytes 4 f.bodyLen) = f.bodyLen
    rw [leNumber_leBytes, length]
  have start : readExact fixedPrefix (f.encode ++ rest) =
      .ok (magic ++ ([f.kind, f.grade] ++ leBytes 4 f.bodyLen), f.encodeBody ++ rest) := by
    rfl
  have body : readExact f.bodyLen (f.encodeBody ++ rest) = .ok (f.encodeBody, rest) := by
    rw [← ok.bodyLength, readExact_of_le _ _ (by simp), take_left, drop_left]
  have marked : ¬ (magic ++ ([f.kind, f.grade] ++ leBytes 4 f.bodyLen)).take 4 ≠ magic :=
    fun differs => differs rfl
  rw [Wire.readFrame, bind_ok start]
  rw [announced, if_neg (not_lt.mpr bound), readBody_eq]
  change (readExact _ >>= _) _ = _
  rw [bind_ok body, ok.decodeBody]
  rfl

end

theorem readFrames_nil : readFrames [] = ([], .io .unexpectedEof, []) := by
  rw [readFrames]
  rfl

theorem readFrames_cons {stream rest : List UInt8} (read : readFrame stream = .ok (f, rest)) :
    readFrames stream = (f :: (readFrames rest).1, (readFrames rest).2) := by
  rw [readFrames]
  split
  · next failed => rw [read] at failed; cases failed
  next found =>
  rw [read] at found
  cases found
  rfl

/-- What the writer accepts, the reader reads back: the same frames in order, then the end
of the stream with nothing left over. -/
theorem readFrames_encode (frames : List Frame)
    (valid : ∀ f ∈ frames, f.validateForEncode = .ok ()) :
    readFrames (frames.flatMap Frame.encode) = (frames, .io .unexpectedEof, []) ∧
      ∀ f ∈ frames, f.encodeBody.length ≤ maxTotalLen := by
  have encodable : ∀ f ∈ frames, f.Encodable := fun f member =>
    Frame.encodable_of_validate (valid f member)
  constructor
  · clear valid
    induction frames with
    | nil => exact readFrames_nil
    | cons f frames ih =>
      have ok : f.Encodable := encodable f (by simp)
      have others := ih (fun g member => encodable g (mem_cons_of_mem _ member))
      rw [flatMap_cons, readFrames_cons (ok.readFrame _), others]
  · intro f member
    rw [(encodable f member).bodyLength]
    exact (encodable f member).bodyLen_le

/-- Two key ids of one length, both headers and a payload, next to an empty frame. -/
def sampleFrames : List Frame :=
  [{ Frame.empty 3 with
      grade := 1
      senderId := 7
      epochId := 258
      keyIds := ["a1", "b2"]
      headerOrrMp := [1, 2]
      headerDkmsMp := [3]
      payload := [4, 5, 6] },
    Frame.empty 9]

theorem readFrames_encode_sample :
    readFrames (sampleFrames.flatMap Frame.encode) = (sampleFrames, .io .unexpectedEof, []) ∧
      ∀ f ∈ sampleFrames, f.encodeBody.length ≤ maxTotalLen :=
  readFrames_encode sampleFrames (by decide +kernel)

end Dkms.Wire
