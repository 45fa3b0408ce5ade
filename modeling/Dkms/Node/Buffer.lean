import Mathlib

namespace Dkms.Node

abbrev Bytes := List UInt8

abbrev KeyId := String

abbrev NodeId := String

abbrev SaeId := String

inductive KeyGrade where
  | qkd
  | pqc
  deriving DecidableEq, Repr

inductive SecurityLevel where
  | strictQkd
  | qkdPrefer
  | noWorry
  deriving DecidableEq, Repr

def SecurityLevel.servePref : SecurityLevel → List KeyGrade
  | .strictQkd => [.qkd]
  | .qkdPrefer => [.qkd, .pqc]
  | .noWorry => [.pqc, .qkd]

structure TransportKey where
  id : KeyId
  bytes : Bytes
  deriving DecidableEq, Repr

structure SecureKeyBuffer where
  capacity : Nat
  inner : List TransportKey
  deriving DecidableEq

namespace SecureKeyBuffer

def new (capacity : Nat) : SecureKeyBuffer := ⟨capacity, []⟩

def len (b : SecureKeyBuffer) : Nat := b.inner.length

/-- The capacity is only a hint here: a push is never refused. -/
def tryPush (b : SecureKeyBuffer) (key : TransportKey) : SecureKeyBuffer :=
  { b with inner := b.inner ++ [key] }

def tryPushCapped (b : SecureKeyBuffer) (key : TransportKey) (ceiling : Nat) :
    Bool × SecureKeyBuffer :=
  if b.inner.length ≥ ceiling then (false, b)
  else (true, { b with inner := b.inner ++ [key] })

def popOldest (b : SecureKeyBuffer) : Option TransportKey × SecureKeyBuffer :=
  match b.inner with
  | [] => (none, b)
  | key :: keys => (some key, { b with inner := keys })

def pushFront (b : SecureKeyBuffer) (key : TransportKey) : SecureKeyBuffer :=
  { b with inner := key :: b.inner }

def takeById (b : SecureKeyBuffer) (id : KeyId) : Option TransportKey × SecureKeyBuffer :=
  (b.inner.find? (·.id = id), { b with inner := b.inner.eraseP (·.id = id) })

def clear (b : SecureKeyBuffer) : SecureKeyBuffer := { b with inner := [] }

end SecureKeyBuffer

structure PeerBuffers where
  encQkd : SecureKeyBuffer
  encPqc : SecureKeyBuffer
  dec : SecureKeyBuffer

namespace PeerBuffers

def new (capacity : Nat) : PeerBuffers := ⟨.new capacity, .new capacity, .new capacity⟩

def enc (b : PeerBuffers) : KeyGrade → SecureKeyBuffer
  | .qkd => b.encQkd
  | .pqc => b.encPqc

def setEnc (b : PeerBuffers) (buffer : SecureKeyBuffer) : KeyGrade → PeerBuffers
  | .qkd => { b with encQkd := buffer }
  | .pqc => { b with encPqc := buffer }

@[simp]
theorem enc_setEnc (b : PeerBuffers) (buffer : SecureKeyBuffer) (grade grade' : KeyGrade) :
    (b.setEnc buffer grade).enc grade' = if grade = grade' then buffer else b.enc grade' := by
  cases grade <;> cases grade' <;> rfl

@[simp]
theorem dec_setEnc (b : PeerBuffers) (buffer : SecureKeyBuffer) (grade : KeyGrade) :
    (b.setEnc buffer grade).dec = b.dec := by
  cases grade <;> rfl

@[simp]
theorem enc_setDec (b : PeerBuffers) (buffer : SecureKeyBuffer) (grade : KeyGrade) :
    { b with dec := buffer }.enc grade = b.enc grade := by
  cases grade <;> rfl

end PeerBuffers

/-- The buffers of every peer. The source creates those of a new peer, empty, when they are
first asked for; here they are there from the start. -/
structure BufferPool where
  capacityPerPeer : Nat
  peers : NodeId → PeerBuffers

namespace BufferPool

def new (capacity : Nat) : BufferPool := ⟨capacity, fun _ => .new capacity⟩

def forPeer (pool : BufferPool) (peer : NodeId) : PeerBuffers := pool.peers peer

def set (pool : BufferPool) (peer : NodeId) (buffers : PeerBuffers) : BufferPool :=
  { pool with peers := Function.update pool.peers peer buffers }

def clearAll (pool : BufferPool) : BufferPool :=
  { pool with
    peers := fun peer =>
      let b := pool.forPeer peer
      ⟨b.encQkd.clear, b.encPqc.clear, b.dec.clear⟩ }

@[simp]
theorem forPeer_set (pool : BufferPool) (peer peer' : NodeId) (buffers : PeerBuffers) :
    (pool.set peer buffers).forPeer peer' = if peer' = peer then buffers else pool.forPeer peer' := by
  exact Function.update_apply pool.peers peer buffers peer'

@[simp]
theorem enc_forPeer_clearAll (pool : BufferPool) (peer : NodeId) (grade : KeyGrade) :
    ((pool.clearAll.forPeer peer).enc grade).inner = [] := by
  cases grade <;> rfl

end BufferPool

open Std TreeMap

structure AckPendingEntry where
  bytes : Bytes
  deadline : Nat
  grade : KeyGrade
  deriving DecidableEq, Repr

def AckPendingEntry.isExpired (e : AckPendingEntry) (now : Nat) : Bool := now ≥ e.deadline

inductive TakeOutcome where
  | hit (entry : AckPendingEntry)
  | unknownPeer
  | unknownKey
  deriving DecidableEq, Repr

structure AckPendingStore where
  inner : TreeMap NodeId (TreeMap KeyId AckPendingEntry)

namespace AckPendingStore

def new : AckPendingStore := ⟨∅⟩

def bucket (s : AckPendingStore) (peer : NodeId) : TreeMap KeyId AckPendingEntry :=
  s.inner.getD peer ∅

def insert (s : AckPendingStore) (peer : NodeId) (keyId : KeyId) (entry : AckPendingEntry) :
    AckPendingStore :=
  ⟨s.inner.insert peer ((s.bucket peer).insert keyId entry)⟩

def takeDiagnosed (s : AckPendingStore) (peer : NodeId) (keyId : KeyId) :
    TakeOutcome × AckPendingStore :=
  match s.inner[peer]? with
  | none => (.unknownPeer, s)
  | some bucket =>
    let rest := bucket.erase keyId
    let s := if rest.isEmpty then ⟨s.inner.erase peer⟩ else ⟨s.inner.insert peer rest⟩
    match bucket[keyId]? with
    | some entry => (.hit entry, s)
    | none => (.unknownKey, s)

def dropPeer (s : AckPendingStore) (peer : NodeId) : AckPendingStore := ⟨s.inner.erase peer⟩

def pendingCount (s : AckPendingStore) (peer : NodeId) : Nat := (s.bucket peer).size

def reapExpired (s : AckPendingStore) (now : Nat) : AckPendingStore :=
  let live := s.inner.map fun _ bucket => bucket.filter fun _ entry => !entry.isExpired now
  ⟨live.filter fun _ bucket => !bucket.isEmpty⟩

theorem bucket_insert (s : AckPendingStore) (peer peer' : NodeId) (keyId : KeyId)
    (entry : AckPendingEntry) : (s.insert peer keyId entry).bucket peer' =
      if peer = peer' then (s.bucket peer').insert keyId entry else s.bucket peer' := by
  unfold insert bucket
  rw [getD_insert]
  simp only [Std.compare_eq_iff_eq]
  by_cases same : peer = peer'
  · rw [if_pos same, if_pos same, same]
  · rw [if_neg same, if_neg same]

theorem bucket_dropPeer (s : AckPendingStore) (peer peer' : NodeId) :
    (s.dropPeer peer).bucket peer' = if peer = peer' then ∅ else s.bucket peer' := by
  unfold dropPeer bucket
  rw [getD_erase]
  simp

variable {s : AckPendingStore} {peer : NodeId}

theorem bucket_of_getElem?
    {found : Option (TreeMap KeyId AckPendingEntry)} (held : s.inner[peer]? = found) :
    s.bucket peer = found.getD ∅ := by
  rw [bucket, getD_eq_getD_getElem?, held]

-- a bucket is dropped when nothing is left in it, which a lookup cannot see
theorem bucket_replace (s : AckPendingStore) (peer peer' : NodeId)
    (rest : TreeMap KeyId AckPendingEntry) :
    ((if rest.isEmpty then mk (s.inner.erase peer)
      else ⟨s.inner.insert peer rest⟩).bucket peer').Equiv (if peer = peer' then rest else s.bucket peer') := by
  split
  · rename_i empty
    simp only [bucket, getD_erase, Std.compare_eq_iff_eq]
    split
    · exact (equiv_empty_iff_isEmpty.mpr empty).symm
    · exact .rfl
  · simp only [bucket, getD_insert, Std.compare_eq_iff_eq]
    split <;> exact .rfl

theorem bucket_takeDiagnosed (s : AckPendingStore) (peer peer' : NodeId) (keyId : KeyId) :
    (∀ id : KeyId, ((s.takeDiagnosed peer keyId).2.bucket peer')[id]? =
        if peer = peer' ∧ keyId = id then none else (s.bucket peer')[id]?) ∧
      (s.takeDiagnosed peer keyId).2.pendingCount peer' =
        if peer = peer' then ((s.bucket peer').erase keyId).size else s.pendingCount peer' := by
  have left : ((s.takeDiagnosed peer keyId).2.bucket peer').Equiv
      (if peer = peer' then (s.bucket peer).erase keyId else s.bucket peer') := by
    unfold takeDiagnosed
    cases found : s.inner[peer]? with
    | none =>
      rw [bucket_of_getElem? found]
      dsimp only
      split
      · rename_i same
        rw [← same, bucket_of_getElem? found]
        exact (equiv_empty_iff_isEmpty.mpr (by simp)).symm
      · exact .rfl
    | some held =>
      rw [bucket_of_getElem? found]
      dsimp only
      split <;> exact bucket_replace s peer peer' _
  refine ⟨fun id => left.getElem?_eq.trans ?_, left.size_eq.trans ?_⟩
  · by_cases same : peer = peer'
    · subst same
      simp [getElem?_erase]
    · simp [same]
  · split
    · rename_i same
      rw [same]
    · rfl

theorem takeDiagnosed_hit {keyId : KeyId}
    {entry : AckPendingEntry} (hit : (s.takeDiagnosed peer keyId).1 = .hit entry) :
    (s.bucket peer)[keyId]? = some entry := by
  unfold takeDiagnosed at hit
  cases found : s.inner[peer]? with
  | none =>
    rw [found] at hit
    cases hit
  | some held =>
    rw [bucket_of_getElem? found]
    rw [found] at hit
    dsimp only at hit
    split at hit
    · rename_i there
      cases hit
      exact there
    · cases hit

theorem getElem?_filter_values {Value : Type} (map : TreeMap String Value) (keep : Value → Bool)
    (key : String) : (map.filter fun _ value => keep value)[key]? = map[key]?.filter keep := by
  rw [getElem?_filter, Option.pfilter_eq_filter]

theorem bucket_reapExpired (s : AckPendingStore) (now : Nat) (peer : NodeId) :
    (∀ id : KeyId, ((s.reapExpired now).bucket peer)[id]? =
        (s.bucket peer)[id]?.filter (!·.isExpired now)) ∧
      (s.reapExpired now).pendingCount peer ≤ s.pendingCount peer := by
  unfold pendingCount bucket reapExpired
  simp only [getD_eq_getD_getElem?]
  rw [getElem?_filter_values, getElem?_map]
  cases s.inner[peer]? with
  | none => simp
  | some held =>
    simp only [Option.map_some, Option.getD_some]
    have size : (held.filter fun _ entry => !entry.isExpired now).size ≤ held.size :=
      size_filter_le_size
    by_cases none : (held.filter fun _ entry => !entry.isExpired now).isEmpty
    · rw [Option.filter_some_neg (by simpa using none)]
      refine ⟨fun id => ?_, by simp⟩
      rw [← getElem?_filter_values, getElem?_of_isEmpty none]
      simp
    · rw [Option.filter_some_pos (by simpa using none)]
      exact ⟨fun id => getElem?_filter_values held _ id, size⟩

end AckPendingStore

end Dkms.Node
