import Dkms.Core.Chunks
import Dkms.Core.Results
import Dkms.Link.FrameAuth

namespace Dkms.Qkc

open List Dkms.Core Dkms.Link

abbrev Uuid := BitVec 128

instance lawfulUuid : LawfulBEq Uuid := inferInstance

inductive QkcError where
  | badRequest (text : String)
  | noRoute (dest : UInt32)
  | unknownNeighbor (neighbor : UInt32)
  | frameAuth (error : FrameAuthError)
  | notEnoughKeys (requested received : Nat)
  | keyWaitTimeout (what : String) (missing ms : Nat)
  | quditto (text : String)
  deriving DecidableEq

structure OtpKey where
  keyId : Uuid
  material : Bytes
  deriving DecidableEq

def numChunks (bytes chunkBytes : Nat) : Nat :=
  if bytes = 0 then 0 else (bytes + chunkBytes - 1) / chunkBytes

def xorBytes (bytes pad : Bytes) : Bytes := zipWith (· ^^^ ·) bytes pad

def encrypt (plaintext : Bytes) (keys : List OtpKey) : Except QkcError (Bytes × List Uuid) :=
  if plaintext.isEmpty then .ok ([], [])
  else
    match keys with
    | [] => .error (.badRequest "encrypt called with 0 keys")
    | first :: _ =>
      let chunkBytes := first.material.length
      if chunkBytes = 0 then .error (.badRequest "encrypt: key material is empty")
      else
        let needed := numChunks plaintext.length chunkBytes
        if keys.length < needed then .error (.notEnoughKeys needed keys.length)
        else
          let used := (chunks chunkBytes plaintext).zip keys
          .ok (used.flatMap fun (chunk, key) => xorBytes chunk key.material,
            used.map fun (_, key) => key.keyId)

/-- The two ways in which `decrypt` finds a key: a map, in which the last one wins, or a scan. -/
def findKey (keys : List OtpKey) (id : Uuid) : Option Bytes :=
  if keys.length > 8 then (keys.reverse.find? (·.keyId = id)).map (·.material)
  else (keys.find? (·.keyId = id)).map (·.material)

def decryptChunk (uuidText : Uuid → String) (keys : List OtpKey) :
    Bytes × Uuid → Except QkcError Bytes
  | (chunk, id) =>
    match findKey keys id with
    | none => .error (.quditto s!"missing key for key_id {uuidText id}")
    | some material =>
      if material.length < chunk.length then
        .error (.quditto s!"key for {uuidText id} is shorter than chunk ({material.length} < {chunk.length})")
      else .ok (xorBytes chunk material)

def decrypt (uuidText : Uuid → String) (ciphertext : Bytes) (keyIds : List Uuid)
    (keys : List OtpKey) (chunkBytes : Nat) : Except QkcError Bytes :=
  if ciphertext.isEmpty then .ok []
  else if keyIds.isEmpty then .error (.badRequest "decrypt: no key_ids in header")
  else if chunkBytes = 0 then .error (.badRequest "decrypt: chunk_bytes == 0")
  else
    let needed := numChunks ciphertext.length chunkBytes
    if keyIds.length < needed then
      .error (.badRequest s!"decrypt: header lists {keyIds.length} key_ids but {needed} chunks needed")
    else do
      let parts ← ((chunks chunkBytes ciphertext).zip keyIds).mapM (decryptChunk uuidText keys)
      pure parts.flatten

theorem numChunks_eq (bytes : Nat) {chunkBytes : Nat} (positive : 0 < chunkBytes) :
    numChunks bytes chunkBytes = (bytes + chunkBytes - 1) / chunkBytes := by
  unfold numChunks
  split
  · rename_i none
    rw [Nat.div_eq_of_lt (by omega)]
  · rfl

theorem xorBytes_xorBytes {bytes pad : Bytes} (long : bytes.length ≤ pad.length) :
    xorBytes (xorBytes bytes pad) pad = bytes := by
  unfold xorBytes
  induction bytes generalizing pad with
  | nil => rfl
  | cons byte bytes ih =>
    cases pad with
    | nil => cases long
    | cons k pad =>
      rw [length_cons, length_cons] at long
      rw [zipWith_cons_cons, zipWith_cons_cons, ih (by omega), UInt8.xor_assoc,
        UInt8.xor_self, UInt8.xor_zero]

theorem xorBytes_length {bytes pad : Bytes} (long : bytes.length ≤ pad.length) :
    (xorBytes bytes pad).length = bytes.length := by
  unfold xorBytes
  rw [length_zipWith]
  omega

theorem findKey_of_mem {keys : List OtpKey} (distinct : (keys.map (·.keyId)).Nodup) {key : OtpKey}
    (member : key ∈ keys) : findKey keys key.keyId = some key.material := by
  have only : ∀ list : List OtpKey, (∀ other ∈ list, other ∈ keys) → key ∈ list →
      list.find? (·.keyId = key.keyId) = some key := by
    intro list part here
    cases found : list.find? (·.keyId = key.keyId) with
    | none => exact absurd (find?_eq_none.mp found key here) (by simp)
    | some other =>
      have same : other.keyId = key.keyId := by simpa using find?_some found
      rw [inj_on_of_nodup_map distinct (part other (mem_of_find?_eq_some found)) member same]
  unfold findKey
  split
  · rw [only keys.reverse (fun _ => mem_reverse.mp) (mem_reverse.mpr member)]
    rfl
  · rw [only keys (fun _ => id) member]
    rfl

section

variable {plaintext : Bytes} {keys : List OtpKey} {keyBytes : Nat}

theorem encrypt_of_ne_nil (some : plaintext ≠ []) (positive : 0 < keyBytes)
    (sized : ∀ key ∈ keys, key.material.length = keyBytes) (present : keys ≠ []) :
    encrypt plaintext keys =
      if keys.length < numChunks plaintext.length keyBytes then
        .error (.notEnoughKeys (numChunks plaintext.length keyBytes) keys.length)
      else
        .ok (((chunks keyBytes plaintext).zip keys).flatMap fun (chunk, key) =>
            xorBytes chunk key.material,
          ((chunks keyBytes plaintext).zip keys).map fun (_, key) => key.keyId) := by
  unfold encrypt
  rw [if_neg (by rwa [List.isEmpty_iff])]
  cases keys with
  | nil => exact absurd rfl present
  | cons first rest =>
    dsimp only
    rw [sized first mem_cons_self, if_neg (by omega)]

def chunkBytesOf (keys : List OtpKey) : Nat := keys.head?.elim 0 (·.material.length)

def usedKeys (plaintext : Bytes) (keys : List OtpKey) : List (Bytes × OtpKey) :=
  (chunks (chunkBytesOf keys) plaintext).zip keys

def sealedChunks (plaintext : Bytes) (keys : List OtpKey) : List Bytes :=
  (usedKeys plaintext keys).map fun (chunk, key) => xorBytes chunk key.material

def Covered (plaintext : Bytes) (keys : List OtpKey) : Prop :=
  ∀ used ∈ usedKeys plaintext keys, used.1.length ≤ used.2.material.length

instance : Decidable (Covered plaintext keys) := inferInstanceAs (Decidable (∀ used ∈ _, _))

variable {ciphertext : Bytes} {ids : List Uuid}

theorem encrypt_ok (done : encrypt plaintext keys = .ok (ciphertext, ids)) :
    ciphertext = (sealedChunks plaintext keys).flatten ∧
      ids = (usedKeys plaintext keys).map (·.2.keyId) ∧
      (plaintext ≠ [] → 0 < chunkBytesOf keys ∧
        (usedKeys plaintext keys).map Prod.fst = chunks (chunkBytesOf keys) plaintext) := by
  unfold encrypt at done
  split at done
  · rename_i none
    rw [List.isEmpty_iff] at none
    subst none
    cases done
    simp [sealedChunks, usedKeys]
  cases keys with
  | nil => cases done
  | cons first rest =>
    dsimp only at done
    split at done
    · cases done
    rename_i some positive
    split at done
    · cases done
    cases done
    have room : (chunks first.material.length plaintext).length ≤ (first :: rest).length := by
      rw [chunks_length (by omega), ← numChunks_eq _ (by omega)]
      omega
    exact ⟨rfl, rfl, fun _ => ⟨Nat.pos_of_ne_zero positive, map_fst_zip room⟩⟩

theorem sealedChunks_lengths (covered : Covered plaintext keys) :
    (sealedChunks plaintext keys).map length = ((usedKeys plaintext keys).map Prod.fst).map length := by
  unfold sealedChunks
  rw [map_map, map_map]
  exact map_congr_left fun u member => xorBytes_length (covered u member)

theorem decrypt_covered (uuidText : Uuid → String)
    (done : encrypt plaintext keys = .ok (ciphertext, ids)) (covered : Covered plaintext keys)
    {others : List OtpKey} (distinct : (others.map (·.keyId)).Nodup)
    (among : ∀ key ∈ keys, key ∈ others) :
    decrypt uuidText ciphertext ids others (chunkBytesOf keys) = .ok plaintext := by
  obtain ⟨rfl, rfl, cut⟩ := encrypt_ok done
  by_cases none : plaintext = []
  · subst none
    rfl
  obtain ⟨positive, firsts⟩ := cut none
  have lengths := sealedChunks_lengths covered
  rw [firsts] at lengths
  have pieces : chunks (chunkBytesOf keys) (sealedChunks plaintext keys).flatten =
      sealedChunks plaintext keys := chunks_flatten_of_lengths positive plaintext lengths
  have used : 0 < (usedKeys plaintext keys).length := by
    rw [← length_map, firsts, chunks_of_ne_nil positive none]
    exact Nat.succ_pos _
  have needed : numChunks (sealedChunks plaintext keys).flatten.length (chunkBytesOf keys) =
      (usedKeys plaintext keys).length := by
    rw [numChunks_eq _ positive, ← chunks_length positive, pieces, sealedChunks, length_map]
  have long : (sealedChunks plaintext keys).flatten ≠ [] := by
    intro short
    have nothing : numChunks 0 (chunkBytesOf keys) = 0 := rfl
    rw [short, length_nil] at needed
    omega
  -- chunk by chunk, with the key that its id finds
  let back (part : Bytes × Uuid) : Bytes := xorBytes part.1 ((findKey others part.2).getD [])
  have parts : (sealedChunks plaintext keys).zip ((usedKeys plaintext keys).map (·.2.keyId)) =
      (usedKeys plaintext keys).map fun u => (xorBytes u.1 u.2.material, u.2.keyId) :=
    zip_map'
  have found : ∀ u ∈ usedKeys plaintext keys, findKey others u.2.keyId = some u.2.material :=
    fun u member => findKey_of_mem distinct (among u.2 (of_mem_zip member).2)
  have each : ∀ part ∈ (sealedChunks plaintext keys).zip ((usedKeys plaintext keys).map (·.2.keyId)),
      decryptChunk uuidText others part = .ok (back part) := by
    rw [parts]
    intro part member
    obtain ⟨u, here, rfl⟩ := mem_map.mp member
    have room : ¬ u.2.material.length < (xorBytes u.1 u.2.material).length := by
      rw [xorBytes_length (covered u here)]
      exact Nat.not_lt.mpr (covered u here)
    simp only [decryptChunk, back, found u here, Option.getD_some, if_neg room]
  have opened : ((sealedChunks plaintext keys).zip ((usedKeys plaintext keys).map (·.2.keyId))).map
      back = chunks (chunkBytesOf keys) plaintext := by
    rw [parts, map_map, ← firsts]
    apply map_congr_left
    intro u here
    simp only [back, Function.comp_apply, found u here, Option.getD_some, xorBytes_xorBytes (covered u here)]
  unfold decrypt
  rw [if_neg (by rwa [List.isEmpty_iff]),
    if_neg (by rw [List.isEmpty_iff, ← List.length_eq_zero_iff, List.length_map]; omega),
    if_neg (by omega), needed, length_map, if_neg (Nat.lt_irrefl _), pieces, mapM_eq_ok each,
    opened]
  exact congrArg Except.ok (chunks_flatten positive plaintext)

theorem covered_of_length (done : encrypt plaintext keys = .ok (ciphertext, ids))
    (length : ciphertext.length = plaintext.length) : Covered plaintext keys := by
  obtain ⟨rfl, -, cut⟩ := encrypt_ok done
  by_cases none : plaintext = []
  · subst none
    intro u member
    cases member
  obtain ⟨positive, firsts⟩ := cut none
  have total : ((usedKeys plaintext keys).map fun u => (xorBytes u.1 u.2.material).length).sum =
      ((usedKeys plaintext keys).map fun u => u.1.length).sum := by
    have whole := congrArg List.length (chunks_flatten positive plaintext)
    rw [length_flatten, ← firsts, map_map] at whole
    rw [length_flatten, sealedChunks, map_map] at length
    exact length.trans whole.symm
  intro u member
  by_contra short
  apply total.not_lt
  apply sum_lt_sum
  · intro v _
    simp only [xorBytes, length_zipWith]
    omega
  · refine ⟨u, member, ?_⟩
    simp only [xorBytes, length_zipWith]
    omega

theorem decrypt_encrypt (uuidText : Uuid → String) (positive : 0 < keyBytes)
    (sized : ∀ key ∈ keys, key.material.length = keyBytes) (distinct : (keys.map (·.keyId)).Nodup)
    (exactly : keys.length = numChunks plaintext.length keyBytes) :
    ∃ ciphertext, encrypt plaintext keys = .ok (ciphertext, keys.map (·.keyId)) ∧
      decrypt uuidText ciphertext (keys.map (·.keyId)) keys keyBytes = .ok plaintext := by
  by_cases none : plaintext = []
  · subst none
    have nothing : keys = [] := eq_nil_of_length_eq_zero exactly
    exact ⟨[], by rw [nothing]; rfl, rfl⟩
  have count : (chunks keyBytes plaintext).length = keys.length := by
    rw [chunks_length positive, exactly, numChunks_eq _ positive]
  have present : keys ≠ [] := by
    rintro rfl
    rw [chunks_of_ne_nil positive none] at count
    cases count
  have size : chunkBytesOf keys = keyBytes := by
    cases keys with
    | nil => exact absurd rfl present
    | cons first rest => exact sized first mem_cons_self
  have covered : Covered plaintext keys := by
    intro u member
    obtain ⟨left, right⟩ := of_mem_zip member
    rw [sized _ right]
    rw [size] at left
    exact chunks_length_le positive left
  have done := encrypt_of_ne_nil none positive sized present
  rw [if_neg (by omega)] at done
  have ids : ((chunks keyBytes plaintext).zip keys).map (fun u => u.2.keyId) = keys.map (·.keyId) := by
    have seconds : ((chunks keyBytes plaintext).zip keys).map Prod.snd = keys := map_snd_zip (by omega)
    conv_rhs => rw [← seconds, map_map]
    rfl
  rw [ids] at done
  have read := decrypt_covered uuidText done covered distinct fun _ => id
  rw [size] at read
  exact ⟨_, done, read⟩

/-- What `encrypt` returns has the length of the plaintext and is read back with any list of keys
that has the used ones, exactly when no key is shorter than its chunk. -/
theorem otp_round_trip (uuidText : Uuid → String)
    (done : encrypt plaintext keys = .ok (ciphertext, ids)) :
    (ciphertext.length = plaintext.length ∧
      ∀ others : List OtpKey, (others.map (·.keyId)).Nodup → (∀ key ∈ keys, key ∈ others) →
        decrypt uuidText ciphertext ids others (chunkBytesOf keys) = .ok plaintext) ↔
      Covered plaintext keys := by
  refine ⟨fun both => covered_of_length done both.1, fun covered => ⟨?_, ?_⟩⟩
  · obtain ⟨rfl, -, cut⟩ := encrypt_ok done
    by_cases none : plaintext = []
    · subst none
      rfl
    obtain ⟨positive, firsts⟩ := cut none
    have whole := congrArg List.length (chunks_flatten positive plaintext)
    rw [length_flatten, ← firsts, ← sealedChunks_lengths covered, ← length_flatten] at whole
    exact whole
  · exact fun others apart among => decrypt_covered uuidText done covered apart among

end

/-- A last key that is shorter than the first one, and long enough for the last chunk. -/
theorem otp_round_trip_last_short :
    encrypt [1, 2, 3] [⟨1, [9, 9]⟩, ⟨2, [7]⟩] = .ok ([8, 11, 4], [1, 2]) ∧
      decrypt (fun _ => "") [8, 11, 4] [1, 2] [⟨5, []⟩, ⟨2, [7]⟩, ⟨1, [9, 9]⟩] 2 = .ok [1, 2, 3] := by
  have done : encrypt [1, 2, 3] [⟨1, [9, 9]⟩, ⟨2, [7]⟩] = .ok ([8, 11, 4], [1, 2]) := by
    decide +kernel
  have covered : Covered [1, 2, 3] [⟨1, [9, 9]⟩, ⟨2, [7]⟩] := by decide +kernel
  exact ⟨done, ((otp_round_trip (fun _ => "") done).mpr covered).2 _ (by decide +kernel) (by decide +kernel)⟩

/-- A second key of one byte for a chunk of two: the byte is lost, and nobody notices. -/
theorem otp_loses_byte : encrypt [1, 2, 3, 4] [⟨1, [9, 9]⟩, ⟨2, [7]⟩] = .ok ([8, 11, 4], [1, 2]) ∧
      decrypt (fun _ => "") [8, 11, 4] [1, 2] [⟨1, [9, 9]⟩, ⟨2, [7]⟩] 2 = .ok [1, 2, 3] := by
  decide +kernel

end Dkms.Qkc
