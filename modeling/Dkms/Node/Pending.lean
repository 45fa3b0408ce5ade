import Dkms.Node.Messages

namespace Dkms.Node

open Std TreeMap

def maxTtl : Nat := 7 * 24 * 3600 * 1000

def maxPendingPerOrigin : Nat := 131072

inductive PendingInsertError where
  | occupied
  | originFull
  deriving DecidableEq, Repr

structure PendingEntry where
  initiator : SaeId
  authorized : List SaeId
  retrieved : List SaeId
  material : Bytes
  expiresAt : Nat
  origin : Option NodeId

namespace PendingEntry

def isExpired (e : PendingEntry) (now : Nat) : Bool := now ≥ e.expiresAt

def isComplete (e : PendingEntry) : Bool := e.authorized.all (e.retrieved.contains ·)

end PendingEntry

structure PendingStore where
  inner : TreeMap KeyId PendingEntry
  defaultTtl : Nat
  perOrigin : TreeMap NodeId Nat

namespace PendingStore

def new (defaultTtlSecs : Nat) : PendingStore := ⟨∅, defaultTtlSecs * 1000, ∅⟩

def get (s : PendingStore) (keyId : KeyId) : Option PendingEntry := s.inner[keyId]?

def noteRemoved (s : PendingStore) (entry : PendingEntry) : PendingStore :=
  match entry.origin with
  | none => s
  | some origin =>
    match s.perOrigin[origin]? with
    | none => s
    | some count => { s with perOrigin := s.perOrigin.insert origin (count - 1) }

def removeEntry (s : PendingStore) (keyId : KeyId) : PendingStore :=
  match s.inner[keyId]? with
  | some entry => { s with inner := s.inner.erase keyId }.noteRemoved entry
  | none => s

def pendingFrom (s : PendingStore) (origin : NodeId) : Nat := s.perOrigin.getD origin 0

/-- Never overwrites: an id that is there, whoever put it, is a conflict. -/
def insertFromPeer (s : PendingStore) (keyId : KeyId) (origin : NodeId) (initiator : SaeId)
    (authorized : List SaeId) (material : Bytes) (ttl : Option Nat) (now : Nat) :
    Except PendingInsertError Unit × PendingStore :=
  let expiresAt := now + min (ttl.getD s.defaultTtl) maxTtl
  let count := s.perOrigin.getD origin 0
  let s := { s with perOrigin := s.perOrigin.insert origin count }
  if count ≥ maxPendingPerOrigin then (.error .originFull, s)
  else if keyId ∈ s.inner then (.error .occupied, s)
  else
    let entry := ⟨initiator, authorized, [], material, expiresAt, some origin⟩
    (.ok (), { s with
      inner := s.inner.insert keyId entry
      perOrigin := s.perOrigin.insert origin (count + 1) })

def insert (s : PendingStore) (keyId : KeyId) (initiator : SaeId) (authorized : List SaeId)
    (material : Bytes) (ttl : Option Nat) (now : Nat) : PendingStore :=
  let expiresAt := now + min (ttl.getD s.defaultTtl) maxTtl
  let inserted := { s with
    inner := s.inner.insert keyId ⟨initiator, authorized, [], material, expiresAt, none⟩ }
  match s.inner[keyId]? with
  | some old => inserted.noteRemoved old
  | none => inserted

/-- One collection per authorised SAE; the entry goes with the last one. -/
def takeForSaeOfMaster (s : PendingStore) (keyId : KeyId) (sae : SaeId) (master : Option SaeId)
    (now : Nat) : Except DkmsError (Bytes × SaeId) × PendingStore :=
  match s.inner[keyId]? with
  | none => (.error (.keyNotAuthorized sae), s)
  | some entry =>
    if entry.isExpired now then (.error .keyExpired, s.removeEntry keyId)
    else if !entry.authorized.contains sae then (.error (.keyNotAuthorized sae), s)
    else if master.any (entry.initiator ≠ ·) then (.error (.keyNotAuthorized sae), s)
    else if entry.retrieved.contains sae then (.error (.keyNotAuthorized sae), s)
    else
      let entry := { entry with retrieved := sae :: entry.retrieved }
      let marked := { s with inner := s.inner.insert keyId entry }
      (.ok (entry.material, entry.initiator),
        if entry.isComplete then marked.removeEntry keyId else marked)

def sweepExpired (s : PendingStore) (now : Nat) : PendingStore :=
  (s.inner.toList.filter (·.2.isExpired now)).foldl (fun s stale => s.removeEntry stale.1) s

def forceRemove (s : PendingStore) (keyId : KeyId) : PendingStore := s.removeEntry keyId

def clear (s : PendingStore) : PendingStore := { s with inner := ∅, perOrigin := ∅ }

section

variable (s : PendingStore)
include s

@[simp]
theorem noteRemoved_get (entry : PendingEntry) (keyId : KeyId) :
    (s.noteRemoved entry).get keyId = s.get keyId := by
  unfold noteRemoved get
  cases entry.origin with
  | none => rfl
  | some origin =>
    dsimp only
    cases s.perOrigin[origin]? <;> rfl

theorem removeEntry_get (keyId k : KeyId) :
    (s.removeEntry keyId).get k = if keyId = k then none else s.get k := by
  unfold removeEntry
  cases found : s.inner[keyId]? with
  | none =>
    by_cases same : keyId = k
    · rw [if_pos same, ← same]
      exact found
    · rw [if_neg same]
  | some entry =>
    rw [noteRemoved_get]
    simp only [get, getElem?_erase, Std.compare_eq_iff_eq]

theorem insert_get (keyId k : KeyId) (initiator : SaeId) (authorized : List SaeId)
    (material : Bytes) (ttl : Option Nat) (now : Nat) :
    (s.insert keyId initiator authorized material ttl now).get k =
      if keyId = k then
        some ⟨initiator, authorized, [], material, now + min (ttl.getD s.defaultTtl) maxTtl, none⟩
      else s.get k := by
  have inserted : ∀ entry : PendingEntry,
      ({ s with inner := s.inner.insert keyId entry } : PendingStore).get k =
        if keyId = k then some entry else s.get k := by
    intro entry
    simp only [get, getElem?_insert, Std.compare_eq_iff_eq]
  unfold insert
  cases s.inner[keyId]? with
  | none => exact inserted _
  | some old =>
    rw [noteRemoved_get]
    exact inserted _

theorem insertFromPeer_cases (keyId : KeyId) (origin : NodeId) (initiator : SaeId)
    (authorized : List SaeId) (material : Bytes) (ttl : Option Nat) (now : Nat) :
    ((∃ error, (s.insertFromPeer keyId origin initiator authorized material ttl now).1 =
          .error error ∧ (error = .occupied → (s.get keyId).isSome)) ∧
        ∀ k, (s.insertFromPeer keyId origin initiator authorized material ttl now).2.get k = s.get k) ∨
      ((s.insertFromPeer keyId origin initiator authorized material ttl now).1 = .ok () ∧
        s.get keyId = none ∧
        ∀ k, (s.insertFromPeer keyId origin initiator authorized material ttl now).2.get k =
          if keyId = k then some ⟨initiator, authorized, [], material,
            now + min (ttl.getD s.defaultTtl) maxTtl, some origin⟩
          else s.get k) := by
  unfold insertFromPeer
  dsimp only
  split
  · exact .inl ⟨⟨_, rfl, by simp⟩, fun k => rfl⟩
  split
  · rename_i present
    exact .inl ⟨⟨_, rfl, fun _ => mem_iff_isSome_getElem?.mp present⟩, fun k => rfl⟩
  rename_i absent
  refine .inr ⟨rfl, getElem?_eq_none absent, fun k => ?_⟩
  simp only [get, getElem?_insert, Std.compare_eq_iff_eq]

theorem takeForSaeOfMaster_cases (keyId : KeyId) (sae : SaeId) (master : Option SaeId) (now : Nat) :
    ((∃ error, (s.takeForSaeOfMaster keyId sae master now).1 = .error error) ∧
        ∀ k, (s.takeForSaeOfMaster keyId sae master now).2.get k = s.get k ∨
          (s.takeForSaeOfMaster keyId sae master now).2.get k = none ∧ keyId = k ∧
            ∃ entry, s.get k = some entry ∧ entry.isExpired now) ∨
      ∃ entry, s.get keyId = some entry ∧ entry.isExpired now = false ∧
        sae ∈ entry.authorized ∧ sae ∉ entry.retrieved ∧
        (∀ m, master = some m → entry.initiator = m) ∧
        (s.takeForSaeOfMaster keyId sae master now).1 = .ok (entry.material, entry.initiator) ∧
        ∀ k, (s.takeForSaeOfMaster keyId sae master now).2.get k =
          if keyId = k then
            if entry.authorized.all ((sae :: entry.retrieved).contains ·) then none
            else some { entry with retrieved := sae :: entry.retrieved }
          else s.get k := by
  unfold takeForSaeOfMaster
  cases found : s.inner[keyId]? with
  | none => exact .inl ⟨⟨_, rfl⟩, fun k => .inl rfl⟩
  | some entry =>
    dsimp only
    split
    · rename_i expired
      refine .inl ⟨⟨_, rfl⟩, fun k => ?_⟩
      rw [removeEntry_get]
      by_cases same : keyId = k
      · exact .inr ⟨if_pos same, same, entry, same ▸ found, expired⟩
      · exact .inl (if_neg same)
    rename_i live
    split
    · exact .inl ⟨⟨_, rfl⟩, fun k => .inl rfl⟩
    rename_i authorized
    split
    · exact .inl ⟨⟨_, rfl⟩, fun k => .inl rfl⟩
    rename_i agreed
    split
    · exact .inl ⟨⟨_, rfl⟩, fun k => .inl rfl⟩
    rename_i first
    refine .inr ⟨entry, found, by simpa using live, by simpa using authorized,
      by simpa using first, ?_, rfl, fun k => ?_⟩
    · intro m given
      simpa [given] using agreed
    unfold PendingEntry.isComplete
    split
    · rw [removeEntry_get]
      simp only [get, getElem?_insert, Std.compare_eq_iff_eq]
      split <;> rfl
    · simp only [get, getElem?_insert, Std.compare_eq_iff_eq]

theorem sweepExpired_get (now : Nat) (k : KeyId) : (s.sweepExpired now).get k = s.get k ∨
      (s.sweepExpired now).get k = none ∧ ∃ entry, s.get k = some entry ∧ entry.isExpired now := by
  have swept : ∀ (stale : List (KeyId × PendingEntry)) (t : PendingStore),
      (∀ pair ∈ stale, s.get pair.1 = some pair.2 ∧ pair.2.isExpired now) →
      (t.get k = s.get k ∨ t.get k = none ∧ ∃ entry, s.get k = some entry ∧ entry.isExpired now) →
      ((stale.foldl (fun s pair => s.removeEntry pair.1) t).get k = s.get k ∨
        (stale.foldl (fun s pair => s.removeEntry pair.1) t).get k = none ∧
          ∃ entry, s.get k = some entry ∧ entry.isExpired now) := by
    intro stale
    induction stale with
    | nil => exact fun t _ holds => holds
    | cons pair stale ih =>
      intro t expired holds
      apply ih
      · exact fun pair member => expired pair (List.mem_cons_of_mem _ member)
      rw [removeEntry_get]
      split
      · rename_i same
        have gone := expired pair (List.mem_cons_self ..)
        rw [same] at gone
        exact .inr ⟨rfl, pair.2, gone⟩
      · exact holds
  apply swept _ s _ (.inl rfl)
  intro pair member
  have listed := List.mem_filter.mp member
  exact ⟨mem_toList_iff_getElem?_eq_some.mp listed.1, listed.2⟩

end

end PendingStore

end Dkms.Node
