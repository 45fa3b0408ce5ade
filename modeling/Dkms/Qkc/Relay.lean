import Dkms.Qkc.Otp
import Dkms.Qkc.Routing
import Dkms.Link.SealOpen

namespace Dkms.Qkc

open Function Dkms.Core Dkms.Wire Dkms.Link List

def maxRelayChunks : Nat := 4

def decWaitTimeout : Nat := 2000
def encWaitTimeout : Nat := 30000

def frameLocalDeliver : UInt8 := 0x11
def gradeQkd : UInt8 := 0

structure Crates where
  mac : MacSuite
  uuidText : Uuid → String
  parseUuid : String → Except String Uuid
  parse_text : ∀ id, parseUuid (uuidText id) = .ok id
  hash : (destFinal : UInt32) → (headerOrrMp headerDkmsMp : Bytes) → (keyIds : List String) → UInt64

/-- The keys of a link. `enc` counts what the refill brings while a frame waits, `arriving` is
what the DEC worker inserts while a frame waits. -/
structure KeyStore where
  enc : List OtpKey
  dec : Uuid → Option Bytes
  announced : Uuid → Bool
  arriving : Uuid → Option Bytes

namespace KeyStore

variable (ks : KeyStore)

/-- A wait that ends too early has taken what there was. -/
def takeOrFetchEnc (n : Nat) : Except QkcError (List OtpKey) × KeyStore :=
  if ks.enc.length < n then
    (.error (.keyWaitTimeout "enc" (n - ks.enc.length) encWaitTimeout), { ks with enc := [] })
  else (.ok (ks.enc.take n), { ks with enc := ks.enc.drop n })

def fetchDec (id : Uuid) : Except QkcError Bytes × KeyStore :=
  match ks.dec id with
  | some material => (.ok material, { ks with dec := update ks.dec id none })
  | none =>
    if ks.announced id then
      match ks.arriving id with
      | some material => (.ok material, { ks with arriving := update ks.arriving id none })
      | none => (.error (.keyWaitTimeout "dec" 1 decWaitTimeout), ks)
    else (.error (.keyWaitTimeout "dec (id no anunciado)" 1 0), ks)

/-- The keys looked up before one that is missing are gone. -/
def lookupOrFetchDec (ks : KeyStore) : List Uuid → Except QkcError (List OtpKey) × KeyStore
  | [] => (.ok [], ks)
  | id :: ids =>
    match ks.fetchDec id with
    | (.error e, ks) => (.error e, ks)
    | (.ok material, ks) =>
      match ks.lookupOrFetchDec ids with
      | (.error e, ks) => (.error e, ks)
      | (.ok keys, ks) => (.ok (⟨id, material⟩ :: keys), ks)

end KeyStore

/-- A mounted link. `room` tells whether the queue towards the neighbour takes a frame. -/
structure LinkRuntime where
  keySizeBits : Nat
  keys : KeyStore
  frameAuth : Option LinkFrameAuth
  secrets : SecretStore
  room : Bool

def LinkRuntime.chunkBytes (link : LinkRuntime) : Nat := link.keySizeBits / 8

def LinkRuntime.sealFrame (mac : MacSuite) (link : LinkRuntime) (frame : Frame) :
    Frame × LinkRuntime :=
  match link.frameAuth with
  | none => (frame, link)
  | some fa =>
    let (out, fa) := fa.sealFrame mac link.secrets frame
    (out, { link with frameAuth := some fa })

def LinkRuntime.authenticate (mac : MacSuite) (link : LinkRuntime) (times : OpenTimes)
    (frame : Frame) : Except FrameAuthError Frame × LinkRuntime :=
  let (result, frameAuth, secrets) := Link.authenticate mac link.frameAuth link.secrets times frame
  (result, { link with frameAuth, secrets })

structure QkcService where
  qkcId : UInt32
  routing : ForwardingTable
  links : UInt32 → Option LinkRuntime

inductive Relayed where
  | forwarded (nextHop : UInt32) (frame : Frame)
  | delivered (frame : Frame)
  deriving DecidableEq

def parseKeyIds (crates : Crates) (texts : List String) : Except QkcError (List Uuid) :=
  texts.mapM fun text =>
    (crates.parseUuid text).mapError fun e => .badRequest s!"invalid key_id {text}: {e}"

def localDeliverFrame (qkcId : UInt32) (frame : Frame) (plaintext : Bytes) : Frame :=
  { Frame.empty frameLocalDeliver with
    senderId := frame.senderId
    receiverId := qkcId
    destFinal := qkcId
    grade := frame.grade
    epochId := frame.epochId
    keySizeBits := 0
    keyIds := []
    headerOrrMp := frame.headerOrrMp
    headerDkmsMp := frame.headerDkmsMp
    payload := plaintext }

def outboundFrame (me nextHop destFinal : UInt32) (grade : UInt8) (epochId : UInt32)
    (keySizeBits : UInt16) (keyIds : List String) (headerOrrMp headerDkmsMp ciphertext : Bytes) :
    Frame :=
  { Frame.empty (if nextHop = destFinal then frameRecv else frameRelay) with
    senderId := me
    receiverId := nextHop
    destFinal
    grade
    epochId
    keySizeBits
    keyIds
    headerOrrMp
    headerDkmsMp
    payload := ciphertext }

namespace QkcService

variable (crates : Crates) (q : QkcService)

def setLink (neighbor : UInt32) (link : LinkRuntime) : QkcService :=
  { q with links := update q.links neighbor (some link) }

def onward (link : LinkRuntime) (nextHop : UInt32) (frame : Frame) (ids : List Uuid)
    (ciphertext : Bytes) : Frame :=
  outboundFrame q.qkcId nextHop frame.destFinal frame.grade frame.epochId
    (UInt16.ofNat link.keySizeBits) (ids.map crates.uuidText) frame.headerOrrMp frame.headerDkmsMp
    ciphertext

def sendFrameToPeer (link : LinkRuntime) (nextHop : UInt32) (out : Frame) :
    Except QkcError Relayed × QkcService :=
  let (out, link) := link.sealFrame crates.mac out
  let q := q.setLink nextHop link
  if link.room then (.ok (.forwarded nextHop out), q)
  else (.error (.quditto s!"peer_out queue full for {nextHop}"), q)

def forwardPlaintext (nextHop : UInt32) (frame : Frame) (plaintext : Bytes) :
    Except QkcError Relayed × QkcService :=
  match q.links nextHop with
  | none => (.error (.unknownNeighbor nextHop), q)
  | some link =>
    let needed := numChunks plaintext.length link.chunkBytes
    if needed > maxRelayChunks then
      (.error (.badRequest
        s!"relay payload of {plaintext.length} bytes needs {needed} chunks, max {maxRelayChunks}"), q)
    else
      match link.keys.takeOrFetchEnc needed with
      | (.error e, keys) => (.error e, q.setLink nextHop { link with keys })
      | (.ok encKeys, keys) =>
        let link := { link with keys }
        match encrypt plaintext encKeys with
        | .error e => (.error e, q.setLink nextHop link)
        | .ok (ciphertext, ids) =>
          q.sendFrameToPeer crates link nextHop (q.onward crates link nextHop frame ids ciphertext)

def routeOn (frame : Frame) (plaintext : Bytes) : Except QkcError Relayed × QkcService :=
  let hash := crates.hash frame.destFinal frame.headerOrrMp frame.headerDkmsMp frame.keyIds
  match q.routing.nextHopGraded frame.destFinal hash (frame.grade = gradeQkd) with
  | none => (.error (.noRoute frame.destFinal), q)
  | some nextHop => q.forwardPlaintext crates nextHop frame plaintext

def handleLocalSend (frame : Frame) : Except QkcError Relayed × QkcService :=
  if frame.destFinal = q.qkcId then
    (.error (.badRequest "LOCAL_SEND con dest_final == my_id no tiene sentido"), q)
  else q.routeOn crates frame frame.payload

def openPayload (link : LinkRuntime) (frame : Frame) : Except QkcError Bytes × LinkRuntime :=
  match parseKeyIds crates frame.keyIds with
  | .error e => (.error e, link)
  | .ok ids =>
    match link.keys.lookupOrFetchDec ids with
    | (.error e, keys) => (.error e, { link with keys })
    | (.ok decKeys, keys) =>
      (decrypt crates.uuidText frame.payload ids decKeys link.chunkBytes, { link with keys })

def handleIncoming (preAuthenticated : Bool) (times : OpenTimes) (frame : Frame) :
    Except QkcError Relayed × QkcService :=
  match q.links frame.senderId with
  | none => (.error (.unknownNeighbor frame.senderId), q)
  | some link =>
    match if preAuthenticated then (.ok frame, link)
        else link.authenticate crates.mac times frame with
    | (.error e, link) => (.error (.frameAuth e), q.setLink frame.senderId link)
    | (.ok frame, link) =>
      match openPayload crates link frame with
      | (.error e, link) => (.error e, q.setLink frame.senderId link)
      | (.ok plaintext, link) =>
        let q := q.setLink frame.senderId link
        if frame.destFinal = q.qkcId then
          (.ok (.delivered (localDeliverFrame q.qkcId frame plaintext)), q)
        else q.routeOn crates frame plaintext

/-- A data frame from the connection of a neighbour: the reader authenticates it, and the
dispatcher handles it. -/
def ingress (times : OpenTimes) (frame : Frame) : Except QkcError Relayed × QkcService :=
  match q.links frame.senderId with
  | none => q.handleIncoming crates false times frame
  | some link =>
    match link.authenticate crates.mac times frame with
    | (.error e, link) => (.error (.frameAuth e), q.setLink frame.senderId link)
    | (.ok opened, link) =>
      (q.setLink frame.senderId link).handleIncoming crates true times opened

end QkcService

open Dkms.Replay LinkFrameAuth Option

namespace KeyStore

variable {ks : KeyStore} {key : OtpKey}

def Holds (ks : KeyStore) (key : OtpKey) : Prop :=
  ks.dec key.keyId = some key.material ∨
    ks.dec key.keyId = none ∧ ks.announced key.keyId ∧ ks.arriving key.keyId = some key.material

theorem Holds.fetchDec (held : ks.Holds key) :
    ∃ after : KeyStore, ks.fetchDec key.keyId = (.ok key.material, after) ∧ after.enc = ks.enc ∧
      ∀ other : OtpKey, other.keyId ≠ key.keyId → ks.Holds other → after.Holds other := by
  unfold KeyStore.fetchDec
  rcases held with here | ⟨missing, announced, arriving⟩
  · rw [here]
    refine ⟨_, rfl, rfl, ?_⟩
    intro other apart held
    simpa [Holds, update_of_ne apart] using held
  simp only [missing, announced, arriving]
  refine ⟨_, rfl, rfl, ?_⟩
  intro other apart held
  simpa [Holds, update_of_ne apart] using held

theorem lookupOrFetchDec_held {keys : List OtpKey} (held : ∀ key ∈ keys, ks.Holds key)
    (distinct : (keys.map (·.keyId)).Nodup) :
    ∃ after : KeyStore, ks.lookupOrFetchDec (keys.map (·.keyId)) = (.ok keys, after) ∧
      after.enc = ks.enc := by
  induction keys generalizing ks with
  | nil => exact ⟨ks, rfl, rfl⟩
  | cons key keys ih =>
    rw [map_cons, nodup_cons] at distinct
    obtain ⟨next, fetched, same, others⟩ := (held key mem_cons_self).fetchDec
    have rest : ∀ other ∈ keys, next.Holds other := by
      intro other member
      apply others other
      · intro equal
        exact distinct.1 (equal ▸ mem_map_of_mem member)
      · exact held other (mem_cons_of_mem _ member)
    obtain ⟨after, looked, kept⟩ := ih rest distinct.2
    refine ⟨after, ?_, kept.trans same⟩
    simp only [map_cons, KeyStore.lookupOrFetchDec, fetched, looked]

end KeyStore

theorem parseKeyIds_text (crates : Crates) (ids : List Uuid) :
    parseKeyIds crates (ids.map crates.uuidText) = .ok ids := by
  unfold parseKeyIds
  induction ids with
  | nil => rfl
  | cons id ids ih =>
    rw [map_cons, mapM_cons, ih, crates.parse_text]
    rfl

def IsData (kind : UInt8) : Prop := kind = frameRecv ∨ kind = frameRelay

theorem outboundFrame_isData (me nextHop destFinal : UInt32) (grade : UInt8) (epochId : UInt32)
    (keySizeBits : UInt16) (keyIds : List String) (headerOrrMp headerDkmsMp ciphertext : Bytes) :
    IsData (outboundFrame me nextHop destFinal grade epochId keySizeBits keyIds headerOrrMp
      headerDkmsMp ciphertext).kind := by
  show IsData (if nextHop = destFinal then frameRecv else frameRelay)
  split
  · exact .inl rfl
  · exact .inr rfl

theorem IsData.auth {kind : UInt8} (data : IsData kind) :
    ∃ authKind, authKindFor kind = some authKind ∧ isAuthKind authKind = true ∧
      isAuthKind kind = false ∧ baseKindOf authKind = kind ∧ kind ≠ frameKeyIdsNotify := by
  rcases data with rfl | rfl <;> exact ⟨_, rfl, rfl, rfl, rfl, by decide⟩

namespace LinkRuntime

variable {mac : MacSuite} {up down : LinkRuntime} {times : OpenTimes} {frame : Frame}

def material (mac : MacSuite) (link : LinkRuntime) : Option (Nat × Bytes × Nat) :=
  link.frameAuth.bind fun fa =>
    if fa.mode.signs then
      (fa.sendMaterial mac link.secrets).1.map fun (session, key) =>
        (session, key, (fa.counter + 1) % 2 ^ 64)
    else none

theorem sealFrame_fst {authKind : UInt8} (kind : authKindFor frame.kind = some authKind)
    (data : frame.kind ≠ frameKeyIdsNotify) (link : LinkRuntime) : (link.sealFrame mac frame).1 =
      match link.material mac with
      | none => frame
      | some (session, key, counter) =>
        LinkFrameAuth.sealWith mac authKind session key counter frame := by
  unfold LinkRuntime.sealFrame material
  cases link.frameAuth with
  | none => rfl
  | some fa =>
    have counted := sendMaterial_counter mac fa link.secrets
    simp only [LinkFrameAuth.sealFrame, kind, LinkFrameAuth.seals, data, Option.bind_some]
    cases fa.mode.signs with
    | false => rfl
    | true =>
      cases made : fa.sendMaterial mac link.secrets with
      | mk pair after =>
        rw [made] at counted
        cases pair with
        | none => rfl
        | some pair =>
          dsimp
          rw [counted]

theorem sealFrame_senderId (data : IsData frame.kind) :
    (up.sealFrame mac frame).1.senderId = frame.senderId := by
  obtain ⟨authKind, kind, -, -, -, other⟩ := data.auth
  rw [sealFrame_fst kind other]
  cases up.material mac <;> rfl

theorem sealFrame_snd (mac : MacSuite) (link : LinkRuntime) (frame : Frame) :
    ∃ frameAuth, (link.sealFrame mac frame).2 = { link with frameAuth } := by
  unfold LinkRuntime.sealFrame
  split
  · exact ⟨link.frameAuth, rfl⟩
  · exact ⟨_, rfl⟩

/-- The peer takes a frame under this material: it derives the same key and its window has not
seen the counter, or nothing is signed and it takes frames in the clear. -/
def InStep (mac : MacSuite) (material : Option (Nat × Bytes × Nat)) (down : LinkRuntime)
    (times : OpenTimes) : Prop :=
  match material, down.frameAuth with
  | _, none => True
  | none, some fa => fa.mode.rejectsPlaintext = false
  | some (session, key, counter), some fa =>
    session < 2 ^ 64 ∧ (fa.peerKey mac down.secrets session).1 = some key ∧
      (fa.recv.window.checkAndSet ⟨session, counter, times.readAt, times.acceptAt⟩).1 = .ok ()

structure Alike (mac : MacSuite) (link link' : LinkRuntime) : Prop where
  keySizeBits : link'.keySizeBits = link.keySizeBits
  enc : link'.keys.enc = link.keys.enc
  room : link'.room = link.room
  material : link'.material mac = link.material mac

theorem Alike.refl (mac : MacSuite) (link : LinkRuntime) : Alike mac link link := ⟨rfl, rfl, rfl, rfl⟩

theorem material_counter {link : LinkRuntime} {session counter : Nat} {key : Bytes}
    (made : link.material mac = some (session, key, counter)) : counter < 2 ^ 64 := by
  obtain ⟨fa, -, made⟩ := bind_eq_some_iff.mp made
  split at made
  · obtain ⟨pair, -, same⟩ := map_eq_some_iff.mp made
    cases same
    exact Nat.mod_lt _ (by decide)
  · cases made

theorem authenticate_sealFrame (inStep : InStep mac (up.material mac) down times)
    (data : IsData frame.kind) :
    ∃ after, down.authenticate mac times (up.sealFrame mac frame).1 = (.ok frame, after) ∧
      after.keys = down.keys ∧ Alike mac down after := by
  obtain ⟨authKind, kind, signed, plain, base, other⟩ := data.auth
  rw [sealFrame_fst kind other]
  cases made : up.material mac with
  | none =>
    refine ⟨down, ?_, rfl, Alike.refl mac down⟩
    unfold InStep at inStep
    rw [made] at inStep
    unfold LinkRuntime.authenticate Link.authenticate
    rw [plain]
    cases root : down.frameAuth with
    | none =>
      dsimp only
      rw [← root]
    | some fa =>
      simp only [root] at inStep
      simp only [acceptPlaintext, other, inStep, decide_false, Bool.or_self,
        Bool.false_eq_true, if_false, Except.map]
      rw [← root]
  | some triple =>
    obtain ⟨session, key, counter⟩ := triple
    obtain ⟨long, stripped⟩ := strip_sealWith mac session counter key frame base
    have kept : isAuthKind (sealWith mac authKind session key counter frame).kind =
        true := signed
    unfold LinkRuntime.authenticate Link.authenticate
    rw [kept]
    cases root : down.frameAuth with
    | none =>
      refine ⟨down, ?_, rfl, Alike.refl mac down⟩
      dsimp only
      rw [if_neg long]
      rw [← root]
      exact congrArg (Except.ok · , down) stripped
    | some fa =>
      unfold InStep at inStep
      simp only [made, root] at inStep
      obtain ⟨bound, derived, unseen⟩ := inStep
      dsimp only
      rw [openFrame_sealWith authKind session counter key times frame bound (material_counter made)]
      cases found : fa.peerKey mac down.secrets session with
      | mk key' recv =>
        have window := peerKey_window mac fa down.secrets session
        rw [found] at derived window
        dsimp only at derived window
        rw [derived]
        dsimp only
        rw [if_pos rfl, window]
        cases checked : fa.recv.window.checkAndSet
            ⟨session, counter, times.readAt, times.acceptAt⟩ with
        | mk verdict w =>
          rw [checked] at unseen
          dsimp only at unseen
          rw [unseen]
          refine ⟨_, congrArg (fun f => (Except.ok f, _)) stripped, rfl, rfl, rfl, rfl, ?_⟩
          unfold material
          rw [root, bind_some, bind_some, sendMaterial_recv]

end LinkRuntime

end Dkms.Qkc
