import Dkms.Qkc.Transparency

namespace Dkms.Qkc

open List Dkms.Core Dkms.Wire Dkms.Link

section

variable {plaintext ciphertext out : Bytes} {keys : List OtpKey} {ids : List Uuid}
  {keyBytes chunkBytes : Nat} {uuidText : Uuid → String}

theorem encrypt_needs (some : plaintext ≠ []) (positive : 0 < keyBytes)
    (sized : ∀ key ∈ keys, key.material.length = keyBytes)
    (done : encrypt plaintext keys = .ok (ciphertext, ids)) :
    numChunks plaintext.length keyBytes ≤ keys.length ∧ ciphertext.length = plaintext.length ∧
      ids = (keys.take (numChunks plaintext.length keyBytes)).map (·.keyId) := by
  have present : keys ≠ [] := by
    rintro rfl
    unfold encrypt at done
    rw [if_neg (by rwa [List.isEmpty_iff])] at done
    cases done
  rw [encrypt_of_ne_nil some positive sized present] at done
  split at done
  · cases done
  rename_i enough
  cases done
  have count : (chunks keyBytes plaintext).length = numChunks plaintext.length keyBytes := by
    rw [chunks_length positive, numChunks_eq _ positive]
  have firsts : ((chunks keyBytes plaintext).zip keys).map Prod.fst = chunks keyBytes plaintext :=
    map_fst_zip (by omega)
  refine ⟨by omega, ?_, ?_⟩
  · have each : ∀ u ∈ (chunks keyBytes plaintext).zip keys,
        (xorBytes u.1 u.2.material).length = u.1.length := by
      rintro ⟨chunk, key⟩ member
      obtain ⟨left, right⟩ := of_mem_zip member
      apply xorBytes_length
      rw [sized key right]
      exact chunks_length_le positive left
    have total : (((chunks keyBytes plaintext).zip keys).map fun u => u.1.length).sum =
        plaintext.length := by
      conv_rhs => rw [← chunks_flatten positive plaintext, length_flatten, ← firsts, map_map]
      rfl
    rw [← total, length_flatMap]
    exact congrArg List.sum (map_congr_left each)
  · have cut : (chunks keyBytes plaintext).zip keys =
        (chunks keyBytes plaintext).zip (keys.take (numChunks plaintext.length keyBytes)) := by
      rw [zip_eq_zip_take_min, Nat.min_eq_left (by omega), take_length, count]
    have seconds : ((chunks keyBytes plaintext).zip
        (keys.take (numChunks plaintext.length keyBytes))).map Prod.snd =
        keys.take (numChunks plaintext.length keyBytes) := by
      apply map_snd_zip
      rw [length_take]
      omega
    conv_rhs => rw [← seconds, map_map, ← cut]
    rfl

theorem findKey_mem {id : Uuid} {material : Bytes} (found : findKey keys id = some material) :
    ∃ key ∈ keys, key.material = material := by
  unfold findKey at found
  split at found
  · obtain ⟨key, here, same⟩ := Option.map_eq_some_iff.mp found
    exact ⟨key, mem_reverse.mp (mem_of_find?_eq_some here), same⟩
  · obtain ⟨key, here, same⟩ := Option.map_eq_some_iff.mp found
    exact ⟨key, mem_of_find?_eq_some here, same⟩

theorem decrypt_needs (some : ciphertext ≠ [])
    (done : decrypt uuidText ciphertext ids keys chunkBytes = .ok out) :
    numChunks ciphertext.length chunkBytes ≤ ids.length ∧
      ∃ key ∈ keys, min chunkBytes ciphertext.length ≤ key.material.length := by
  unfold decrypt at done
  rw [if_neg (by rwa [List.isEmpty_iff])] at done
  split at done
  · cases done
  rename_i listed
  split at done
  · cases done
  dsimp only at done
  split at done
  · cases done
  refine ⟨by omega, ?_⟩
  obtain ⟨id, rest, rfl⟩ := exists_cons_of_ne_nil (fun none => listed (isEmpty_iff.mpr none))
  rw [chunks_of_ne_nil (by omega) some, zip_cons_cons, mapM_cons] at done
  cases found : findKey keys id with
  | none =>
    simp only [decryptChunk, found] at done
    cases done
  | some material =>
    simp only [decryptChunk, found] at done
    split at done
    · cases done
    rename_i long
    obtain ⟨key, member, rfl⟩ := findKey_mem found
    rw [length_take] at long
    exact ⟨key, member, by omega⟩

end

def frameLocalSend : UInt8 := 0x10

def zeroKeys (keyBytes : Nat) : List OtpKey :=
  (range maxRelayChunks).map fun i => ⟨BitVec.ofNat 128 i, replicate keyBytes 0⟩

namespace LinkPlan

variable (plan : LinkPlan) (u v : UInt32)

def upLink : LinkRuntime where
  keySizeBits := plan.keySizeBits u v
  keys := {
    enc := zeroKeys (plan.keyBytes u v)
    dec := fun _ => none
    announced := fun _ => false
    arriving := fun _ => none }
  frameAuth := none
  secrets := .empty 0
  room := true

def downLink : LinkRuntime where
  keySizeBits := plan.keySizeBits v u
  keys := {
    enc := []
    dec := fun id =>
      if id.toNat < maxRelayChunks then some (replicate (plan.keyBytes u v) 0) else none
    announced := fun _ => false
    arriving := fun _ => none }
  frameAuth := none
  secrets := .empty 0
  room := true

def sender : QkcService where
  qkcId := u
  routing := .newWithGrades {v} ∅
  links n := if n = v then some (plan.upLink u v) else none

def receiver : Stop where
  qkc := {
    qkcId := v
    routing := .newWithGrades {u} ∅
    links := fun n => if n = u then some (plan.downLink u v) else none }
  times := ⟨0, 0, 0, 0⟩

def zeroFrame (bytes : Nat) : Frame :=
  { Frame.empty frameLocalSend with
    destFinal := v
    payload := replicate bytes 0 }

variable {plan u v}

theorem zeroKeys_sized {keyBytes : Nat} {key : OtpKey} (member : key ∈ zeroKeys keyBytes) :
    key.material.length = keyBytes ∧ key.keyId.toNat < maxRelayChunks ∧
      key.material = replicate keyBytes 0 := by
  obtain ⟨i, small, rfl⟩ := mem_map.mp member
  rw [mem_range] at small
  refine ⟨length_replicate, ?_, rfl⟩
  exact lt_of_le_of_lt (Nat.mod_le _ _) small

theorem zeroKeys_distinct (keyBytes : Nat) : ((zeroKeys keyBytes).map (·.keyId)).Nodup := by
  show ((range maxRelayChunks).map fun i => BitVec.ofNat 128 i).Nodup
  decide

theorem downLink_holds {key : OtpKey} (member : key ∈ zeroKeys (plan.keyBytes u v)) :
    (plan.downLink u v).keys.Holds key := by
  obtain ⟨-, small, zeros⟩ := zeroKeys_sized member
  left
  show (if key.keyId.toNat < maxRelayChunks then _ else none) = _
  rw [if_pos small, zeros]

theorem sender_routes (hash : UInt64) (qkdOnly : Bool) :
    (plan.sender u v).routing.nextHopGraded v hash qkdOnly = some v := by
  simp [sender, ForwardingTable.nextHopGraded, ForwardingTable.nextHop, ForwardingTable.newWithGrades]

theorem sender_path (crates : Crates) (linked : plan.linked u v) {bytes : Nat}
    (fits : numChunks bytes (plan.keyBytes u v) ≤ maxRelayChunks) (keyIds : List String) :
    Path crates plan (zeroFrame v bytes) keyIds (plan.sender u v) [plan.receiver u v] := by
  have length : (zeroFrame v bytes).payload.length = bytes := length_replicate
  refine ⟨(plan.apart u v linked).symm, linked, sender_routes _ _, plan.upLink u v,
    plan.downLink u v, if_pos rfl, if_pos rfl, ?_, rfl⟩
  rw [length]
  exact {
    upSize := rfl
    downSize := rfl
    sized := fun key member => (zeroKeys_sized member).1
    distinct := zeroKeys_distinct _
    shared := fun key => downLink_holds
    supplied := fun _ => fits
    room := rfl
    inStep := trivial }

theorem sizes_of_delivered {crates : Crates} {bytes : Nat} (content : 0 < bytes) {out : Frame}
    (delivered : (journey crates (plan.sender u v) [plan.receiver u v] (zeroFrame v bytes)).1 =
      .ok (.delivered out)) : numChunks bytes (plan.keySizeBits u v / 8) ≤ maxRelayChunks ∧
      numChunks bytes (plan.keyBytes u v) ≤ numChunks bytes (plan.keySizeBits u v / 8) ∧
      numChunks bytes (plan.keySizeBits v u / 8) ≤ numChunks bytes (plan.keyBytes u v) ∧
      min (plan.keySizeBits v u / 8) bytes ≤ plan.keyBytes u v := by
  have length : (zeroFrame v bytes).payload.length = bytes := length_replicate
  have nonempty : (zeroFrame v bytes).payload ≠ [] := by
    rwa [← length_pos_iff, length]
  have here : (plan.sender u v).links v = some (plan.upLink u v) := if_pos rfl
  have pieces : numChunks (zeroFrame v bytes).payload.length (plan.upLink u v).chunkBytes =
      numChunks bytes (plan.keySizeBits u v / 8) := by
    rw [length]
    rfl
  generalize numChunks bytes (plan.keySizeBits u v / 8) = needed at *
  unfold journey QkcService.handleLocalSend at delivered
  split at delivered
  · cases delivered
  have route : (plan.sender u v).routeOn crates (zeroFrame v bytes) (zeroFrame v bytes).payload =
      (plan.sender u v).forwardPlaintext crates v (zeroFrame v bytes)
        (zeroFrame v bytes).payload := by
    unfold QkcService.routeOn
    have dest : (zeroFrame v bytes).destFinal = v := rfl
    simp only [dest, sender_routes]
  rw [route] at delivered
  have small : needed ≤ maxRelayChunks := by
    by_contra large
    obtain ⟨e, refused⟩ := QkcService.forwardPlaintext_oversize crates here (zeroFrame v bytes)
      (by rw [pieces]; omega)
    rw [refused] at delivered
    cases delivered
  refine ⟨small, ?_⟩
  rw [QkcService.forwardPlaintext_fits here (zeroFrame v bytes) pieces small small rfl] at delivered
  cases encrypted : encrypt (zeroFrame v bytes).payload
      ((plan.upLink u v).keys.enc.take needed) with
  | error e =>
    rw [encrypted] at delivered
    cases delivered
  | ok sent =>
    obtain ⟨ciphertext, ids⟩ := sent
    have part : ∀ key ∈ (plan.upLink u v).keys.enc.take needed,
        key ∈ zeroKeys (plan.keyBytes u v) := fun _ => mem_of_mem_take
    obtain ⟨enough, size, named⟩ := encrypt_needs nonempty (plan.positive u v)
      (fun key member => (zeroKeys_sized (part key member)).1) encrypted
    rw [length] at enough size named
    have taken : ((plan.upLink u v).keys.enc.take needed).length = needed := by
      rw [length_take]
      exact Nat.min_eq_left small
    let keys := ((plan.upLink u v).keys.enc.take needed).take (numChunks bytes (plan.keyBytes u v))
    have part' : ∀ key ∈ keys, key ∈ zeroKeys (plan.keyBytes u v) :=
      fun key member => part key (mem_of_mem_take member)
    have distinct : (keys.map (·.keyId)).Nodup :=
      (zeroKeys_distinct (plan.keyBytes u v)).sublist (((take_sublist _ _).trans (take_sublist _ _)).map _)
    let onward := (plan.sender u v).onward crates (plan.upLink u v) v (zeroFrame v bytes) ids ciphertext
    have texts : onward.keyIds = (keys.map (·.keyId)).map crates.uuidText :=
      congrArg (map crates.uuidText) named
    have linked : (plan.receiver u v).qkc.links onward.senderId = some (plan.downLink u v) := if_pos rfl
    have inStep : LinkRuntime.InStep crates.mac
        (((plan.upLink u v).spend needed).material crates.mac) (plan.downLink u v)
        (plan.receiver u v).times := trivial
    obtain ⟨next, -, ingress⟩ := QkcService.ingress_sealed linked
      (outboundFrame_isData _ _ _ _ _ _ _ _ _ _) inStep texts
      (fun key member => downLink_holds (part' key member)) distinct
    have arrived : (travel crates ((plan.receiver u v).qkc.ingress crates (plan.receiver u v).times
        (((plan.upLink u v).spend needed).sealFrame crates.mac onward).1) []).1 =
        .ok (.delivered out) := by
      rw [encrypted] at delivered
      simp only [travel] at delivered
      have there : v = (plan.receiver u v).qkc.qkcId := rfl
      rw [if_pos there] at delivered
      exact delivered
    rw [ingress] at arrived
    cases decrypted : decrypt crates.uuidText onward.payload (keys.map (·.keyId)) keys
        (plan.downLink u v).chunkBytes with
    | error e =>
      rw [decrypted] at arrived
      cases arrived
    | ok plaintext =>
      have present : ciphertext ≠ [] := by
        rwa [← length_pos_iff, size]
      obtain ⟨listed, key, member, long⟩ := decrypt_needs present decrypted
      rw [(zeroKeys_sized (part' key member)).1] at long
      rw [size, length_map, length_take] at listed
      have chunk : (plan.downLink u v).chunkBytes = plan.keySizeBits v u / 8 := rfl
      rw [chunk] at listed long
      omega

end LinkPlan

theorem numChunks_le_iff {bytes chunkBytes count : Nat} (positive : 0 < chunkBytes) :
    numChunks bytes chunkBytes ≤ count ↔ bytes ≤ count * chunkBytes := by
  have next : (count + 1) * chunkBytes = count * chunkBytes + chunkBytes := Nat.succ_mul _ _
  rw [numChunks_eq _ positive, ← Nat.lt_succ_iff, Nat.div_lt_iff_lt_mul positive, Nat.succ_eq_add_one]
  omega

/-- Frames cross every path as they were sent, at one key a piece, if and only if both ends of each
link are configured for the size that its keys have. -/
theorem relay_transparent (crates : Crates) (plan : LinkPlan) :
    (∀ first stops frame, Path crates plan frame frame.keyIds first stops → stops ≠ [] →
      Transparent crates plan first stops frame) ↔ plan.Matches := by
  constructor
  · intro transparent u v linked
    obtain ⟨-, upWhole⟩ := plan.validated u v
    obtain ⟨-, downWhole⟩ := plan.validated v u
    have through : ∀ bytes, 0 < bytes → numChunks bytes (plan.keyBytes u v) ≤ maxRelayChunks →
        ∃ out, (journey crates (plan.sender u v) [plan.receiver u v]
          (LinkPlan.zeroFrame v bytes)).1 = .ok (.delivered out) := by
      intro bytes content fits
      have path := LinkPlan.sender_path crates linked fits (LinkPlan.zeroFrame v bytes).keyIds
      have length : (LinkPlan.zeroFrame v bytes).payload.length = bytes := length_replicate
      have arrives := (transparent _ _ _ path (cons_ne_nil _ _)).arrives
      rw [length] at arrives
      obtain ⟨out, delivered, -⟩ := arrives ⟨fits, trivial⟩
      exact ⟨out, delivered⟩
    have positive := plan.positive u v
    have fits : ∀ bytes, bytes ≤ 4 * plan.keyBytes u v →
        numChunks bytes (plan.keyBytes u v) ≤ maxRelayChunks :=
      fun bytes => (numChunks_le_iff positive).mpr
    -- four whole keys, one byte more than a key, and exactly one key
    obtain ⟨_, four⟩ := through (4 * plan.keyBytes u v) (by omega) (fits _ le_rfl)
    obtain ⟨_, more⟩ := through (plan.keyBytes u v + 1) (by omega) (fits _ (by omega))
    obtain ⟨_, one⟩ := through (plan.keyBytes u v) positive (fits _ (by omega))
    have upPositive : 0 < plan.keySizeBits u v / 8 := by
      have whole := plan.validated u v
      omega
    have downPositive : 0 < plan.keySizeBits v u / 8 := by
      have whole := plan.validated v u
      omega
    have upLong : plan.keyBytes u v ≤ plan.keySizeBits u v / 8 := by
      have pieces := (numChunks_le_iff upPositive).mp (LinkPlan.sizes_of_delivered (by omega) four).1
      unfold maxRelayChunks at pieces
      omega
    have upShort : plan.keySizeBits u v / 8 ≤ plan.keyBytes u v := by
      by_contra longer
      have single : numChunks (plan.keyBytes u v + 1) (plan.keySizeBits u v / 8) ≤ 1 :=
        (numChunks_le_iff upPositive).mpr (by omega)
      have pieces := (LinkPlan.sizes_of_delivered (by omega) more).2.1.trans single
      rw [numChunks_le_iff positive] at pieces
      omega
    have downShort := (LinkPlan.sizes_of_delivered (by omega) more).2.2.2
    have downLong : plan.keyBytes u v ≤ plan.keySizeBits v u / 8 := by
      have single : numChunks (plan.keyBytes u v) (plan.keyBytes u v) ≤ 1 :=
        (numChunks_le_iff positive).mpr (by omega)
      have pieces := (LinkPlan.sizes_of_delivered positive one).2.2.1.trans single
      rw [numChunks_le_iff downPositive] at pieces
      omega
    omega
  · intro matched first stops frame path onwards
    have away : frame.destFinal ≠ first.qkcId := by
      cases stops with
      | nil => exact absurd rfl onwards
      | cons _ _ => exact path.1
    have carries : Carries frame frame.keyIds frame := ⟨rfl, rfl, rfl, rfl, rfl, rfl⟩
    obtain ⟨arrives, spent⟩ := travel_transparent matched path onwards carries
      (QkcService.Alike.refl crates.mac first)
    have start : first.handleLocalSend crates frame = first.routeOn crates frame frame.payload := if_neg away
    constructor
    · unfold journey
      rw [start]
      exact arrives
    · unfold journey
      rw [start]
      exact spent

def toyCrates : Crates where
  mac := Keyed.toyMac
  uuidText id := String.ofList (replicate id.toNat '0')
  parseUuid text := .ok (BitVec.ofNat 128 text.length)
  parse_text id := by
    rw [String.length_ofList, length_replicate, BitVec.ofNat_toNat, BitVec.setWidth_eq]
  hash _ _ _ _ := 0

/-- Both ends have the default of 256 bits, and the KME announces and delivers keys of 512. -/
def widePlan : LinkPlan where
  linked u v := u ≠ v
  keySizeBits _ _ := 256
  keyBytes _ _ := 64
  apart _ _ := id
  positive _ _ := by decide
  validated _ _ := by decide

/-- A plaintext of one key is lost, and two keys with it. -/
theorem wide_keys_lose_frame :
    Path toyCrates widePlan (LinkPlan.zeroFrame 2 64) [] (widePlan.sender 1 2)
        [widePlan.receiver 1 2] ∧
      Fits widePlan 64 (widePlan.sender 1 2) [widePlan.receiver 1 2] ∧
      (journey toyCrates (widePlan.sender 1 2) [widePlan.receiver 1 2]
        (LinkPlan.zeroFrame 2 64)).1 =
        .error (.badRequest "decrypt: header lists 1 key_ids but 2 chunks needed") ∧
      ((journey toyCrates (widePlan.sender 1 2) [widePlan.receiver 1 2]
        (LinkPlan.zeroFrame 2 64)).2.map fun q => (q.ring 2).length) = [2, 0] := by
  refine ⟨LinkPlan.sender_path toyCrates (by decide : (1 : UInt32) ≠ 2) (by decide) [],
    ⟨by decide, trivial⟩, ?_, ?_⟩
  · decide +kernel
  · decide +kernel

end Dkms.Qkc
