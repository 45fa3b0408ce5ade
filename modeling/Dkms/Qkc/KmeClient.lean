import Dkms.Qkc.Otp

namespace Dkms.Qkc

open List Dkms.Core Dkms.Link

structure KmeRejection where
  status : Nat
  statusLine : String
  text : String
  deriving DecidableEq

def badRequestStatus : Nat := 400

/-- What a KME answers to `dec_keys`: `key` to a POST of one id, and `batch` how it rejects a POST
of several, if it does. It may reject batches it could serve, and never serves one that has an
id it rejects. -/
structure Kme where
  key : Uuid → Except KmeRejection Bytes
  batch : List Uuid → Option KmeRejection
  rejects : ∀ ids, ∀ id ∈ ids, (key id).isOk = false → (batch ids).isSome

namespace Kme

variable (kme : Kme)

def accepts (id : Uuid) : Bool := (kme.key id).isOk

def keyOf (id : Uuid) : Option OtpKey := (kme.key id).toOption.map (⟨id, ·⟩)

end Kme

inductive DecOutcome where
  | keys (keys : List OtpKey)
  | rejected (rejection : KmeRejection)

structure KmeClient where
  decBatch : Bool
  deriving DecidableEq

def KmeRejection.error (r : KmeRejection) : QkcError :=
  .quditto s!"dec_keys -> {r.statusLine}: {r.text}"

def decKeysOnce (kme : Kme) : List Uuid → DecOutcome
  | [id] =>
    match kme.key id with
    | .ok material => .keys [⟨id, material⟩]
    | .error r => .rejected r
  | ids =>
    match kme.batch ids with
    | none => .keys (ids.filterMap kme.keyOf)
    | some r => .rejected r

def decKeysEach (kme : Kme) : List OtpKey → List Uuid → Except QkcError (List OtpKey)
  | out, [] => .ok out
  | out, id :: ids =>
    match decKeysOnce kme [id] with
    | .keys keys => decKeysEach kme (out ++ keys) ids
    | .rejected r => if out.isEmpty then .error r.error else .ok out

namespace KmeClient

variable (client : KmeClient)

def triesBatch (ids : List Uuid) : Bool := 1 < ids.length && client.decBatch

def decKeys (kme : Kme) (ids : List Uuid) : Except QkcError (List OtpKey) × KmeClient :=
  if ids.isEmpty then (.ok [], client)
  else if client.triesBatch ids then
    match decKeysOnce kme ids with
    | .keys keys => (.ok keys, client)
    | .rejected r =>
      if r.status = badRequestStatus then (decKeysEach kme [] ids, { client with decBatch := false })
      else (.error r.error, client)
  else (decKeysEach kme [] ids, client)

def FallsBack (kme : Kme) (ids : List Uuid) : Prop :=
  client.triesBatch ids → ∃ r ∈ kme.batch ids, r.status = badRequestStatus

end KmeClient

/-- The first id is accepted, and after the first rejected one there is none that is. -/
def Kme.RejectsLast (kme : Kme) (ids : List Uuid) : Prop :=
  (∃ id ∈ ids.head?, kme.accepts id) ∧ ∀ id ∈ ids.dropWhile kme.accepts, ¬ kme.accepts id

variable {kme : Kme} {ids : List Uuid} {out : List OtpKey}

theorem keyOf_eq_none_iff {id : Uuid} : kme.keyOf id = none ↔ ¬ kme.accepts id := by
  unfold Kme.keyOf Kme.accepts
  cases kme.key id <;> simp [Except.toOption, Except.toBool]

theorem decKeysOnce_singleton (kme : Kme) (id : Uuid) :
    (kme.accepts id ∧ ∃ key, kme.keyOf id = some key ∧ decKeysOnce kme [id] = .keys [key]) ∨
      (¬ kme.accepts id ∧ ∃ r, decKeysOnce kme [id] = .rejected r) := by
  unfold Kme.accepts Kme.keyOf
  cases answer : kme.key id with
  | ok material =>
    exact .inl ⟨rfl, ⟨id, material⟩, rfl, by simp [decKeysOnce, answer]⟩
  | error r => exact .inr ⟨by simp [Except.isOk, Except.toBool], r, by simp [decKeysOnce, answer]⟩

theorem decKeysEach_of_ne_nil (inHand : out ≠ []) :
    decKeysEach kme out ids = .ok (out ++ (ids.takeWhile kme.accepts).filterMap kme.keyOf) := by
  induction ids generalizing out with
  | nil => simp [decKeysEach]
  | cons id ids ih =>
    unfold decKeysEach
    rcases decKeysOnce_singleton kme id with
      ⟨accepted, key, named, answer⟩ | ⟨rejected, r, answer⟩
    · rw [answer, takeWhile_cons_of_pos accepted, filterMap_cons_some named]
      have held : out ++ [key] ≠ [] := by simp
      have more := ih held
      rw [append_assoc] at more
      exact more
    · rw [answer, takeWhile_cons_of_neg rejected]
      simp [inHand]

theorem takeWhile_keys_iff :
    (ids.takeWhile kme.accepts).filterMap kme.keyOf = ids.filterMap kme.keyOf ↔
      ∀ id ∈ ids.dropWhile kme.accepts, ¬ kme.accepts id := by
  have split : ids.filterMap kme.keyOf = (ids.takeWhile kme.accepts).filterMap kme.keyOf ++
      (ids.dropWhile kme.accepts).filterMap kme.keyOf := by
    rw [← filterMap_append, takeWhile_append_dropWhile]
  rw [split, self_eq_append_right, filterMap_eq_nil_iff]
  simp only [keyOf_eq_none_iff]

theorem decKeysEach_nil_iff (asked : ids ≠ []) :
    decKeysEach kme [] ids = .ok (ids.filterMap kme.keyOf) ↔ kme.RejectsLast ids := by
  cases ids with
  | nil => exact absurd rfl asked
  | cons id ids =>
    unfold decKeysEach Kme.RejectsLast
    rcases decKeysOnce_singleton kme id with
      ⟨accepted, key, named, answer⟩ | ⟨rejected, r, answer⟩
    · rw [answer, filterMap_cons_some named]
      simp [decKeysEach_of_ne_nil, takeWhile_keys_iff, accepted]
    · rw [answer]
      simp [rejected]

theorem decKeysOnce_batch (several : 1 < ids.length) : decKeysOnce kme ids =
      (kme.batch ids).elim (.keys (ids.filterMap kme.keyOf)) .rejected := by
  match ids, several with
  | first :: second :: rest, _ =>
    simp only [decKeysOnce]
    cases kme.batch (first :: second :: rest) <;> rfl

/-- Exactly the keys of the accepted ids come: the batch is served, or the KME rejects it with a
400 and the ids that it rejects are the last ones, not the first. -/
theorem dec_keys_not_poisoned (client : KmeClient) (kme : Kme) (ids : List Uuid) :
    (client.decKeys kme ids).1 = .ok (ids.filterMap kme.keyOf) ↔
      ids = [] ∨ (client.triesBatch ids ∧ kme.batch ids = none) ∨
        (client.FallsBack kme ids ∧ kme.RejectsLast ids) := by
  unfold KmeClient.decKeys KmeClient.FallsBack
  by_cases empty : ids = []
  · subst empty
    simp
  rw [if_neg (by simpa using empty)]
  cases tries : client.triesBatch ids with
  | false => simp [empty, decKeysEach_nil_iff]
  | true =>
    have several : 1 < ids.length := by
      have both := tries
      simp only [KmeClient.triesBatch, Bool.and_eq_true, decide_eq_true_eq] at both
      exact both.1
    rw [decKeysOnce_batch several]
    cases answer : kme.batch ids with
    | none => simp
    | some r =>
      by_cases status : r.status = badRequestStatus
      · simp [status, empty, decKeysEach_nil_iff]
      · simp [status, empty]

def kmeWithout (bad : Uuid) : Kme where
  key id := if id = bad then .error ⟨400, "400 Bad Request", ""⟩ else .ok [0]
  batch ids := if bad ∈ ids then some ⟨400, "400 Bad Request", ""⟩ else none
  rejects := by
    intro ids id member rejected
    have same : id = bad := by
      by_contra other
      simp [other, Except.isOk, Except.toBool] at rejected
    subst same
    simp [member]

/-- The id in the middle is bad: the key after it is not asked for. -/
theorem bad_id_hides_next :
    ((KmeClient.mk true).decKeys (kmeWithout 2) [1, 2, 3]).1.toOption = some [⟨1, [0]⟩] ∧
      [1, 2, 3].filterMap (kmeWithout 2).keyOf = [⟨1, [0]⟩, ⟨3, [0]⟩] := by
  decide +kernel

end Dkms.Qkc
