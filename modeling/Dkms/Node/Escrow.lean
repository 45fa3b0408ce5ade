import Dkms.Node.Pending

namespace Dkms.Node

open Function Std TreeMap PendingStore Finset

namespace PendingStore

def liveFrom (s : PendingStore) (origin : NodeId) : Finset KeyId :=
  s.inner.keys.toFinset.filter fun k => (s.get k).bind (·.origin) = some origin

theorem mem_liveFrom {s : PendingStore} {origin : NodeId} {k : KeyId} :
    k ∈ s.liveFrom origin ↔ (s.get k).bind (·.origin) = some origin := by
  unfold liveFrom
  rw [Finset.mem_filter, List.mem_toFinset, mem_keys, mem_iff_isSome_getElem?]
  constructor
  · exact fun both => both.2
  intro named
  obtain ⟨entry, held, -⟩ := Option.bind_eq_some_iff.mp named
  exact ⟨by rw [show s.inner[k]? = some entry from held]; rfl, named⟩

def weight (entry : Option PendingEntry) (origin : NodeId) : Nat :=
  if entry.bind (·.origin) = some origin then 1 else 0

theorem card_liveFrom (s : PendingStore) (k : KeyId) (origin : NodeId) :
    (s.liveFrom origin).card = ((s.liveFrom origin).erase k).card + weight (s.get k) origin := by
  unfold weight
  split
  · rename_i named
    exact (card_erase_add_one (mem_liveFrom.mpr named)).symm
  · rename_i other
    rw [erase_eq_of_notMem (fun member => other (mem_liveFrom.mp member)), Nat.add_zero]

structure Counted (s : PendingStore) : Prop where
  exact : ∀ origin, s.pendingFrom origin = (s.liveFrom origin).card
  bounded : ∀ origin, s.pendingFrom origin ≤ maxPendingPerOrigin

namespace Counted

variable {s s' : PendingStore}

theorem weight_le (counted : s.Counted) (k : KeyId) (origin : NodeId) :
    weight (s.get k) origin ≤ s.pendingFrom origin := by
  have whole := card_liveFrom s k origin
  rw [counted.exact]
  omega

theorem change (counted : s.Counted) (k : KeyId) (others : ∀ j, k ≠ j → s'.get j = s.get j)
    (balance : ∀ origin, s'.pendingFrom origin + weight (s.get k) origin =
      s.pendingFrom origin + weight (s'.get k) origin)
    (bounded : ∀ origin, s'.pendingFrom origin ≤ maxPendingPerOrigin) : s'.Counted := by
  refine ⟨fun origin => ?_, bounded⟩
  have rest : (s'.liveFrom origin).erase k = (s.liveFrom origin).erase k := by
    ext j
    rw [Finset.mem_erase, Finset.mem_erase, mem_liveFrom, mem_liveFrom]
    constructor
    · exact fun ⟨other, named⟩ => ⟨other, others j (Ne.symm other) ▸ named⟩
    · exact fun ⟨other, named⟩ => ⟨other, (others j (Ne.symm other)).symm ▸ named⟩
  have before := card_liveFrom s k origin
  have after := card_liveFrom s' k origin
  have count := counted.exact origin
  have moved := balance origin
  rw [rest] at after
  omega

end Counted

theorem noteRemoved_pendingFrom (s : PendingStore) (entry : PendingEntry) (origin : NodeId) :
    (s.noteRemoved entry).pendingFrom origin =
      s.pendingFrom origin - weight (some entry) origin := by
  unfold noteRemoved weight pendingFrom
  rw [Option.bind_some]
  cases entry.origin with
  | none => rfl
  | some peer =>
    simp only [Option.some.injEq, getD_eq_getD_getElem?]
    split
    · rename_i found
      by_cases same : peer = origin
      · rw [if_pos same, ← same, found]
        rfl
      · rw [if_neg same, Nat.sub_zero]
    rename_i count found
    simp only [getElem?_insert, Std.compare_eq_iff_eq]
    by_cases same : peer = origin
    · rw [if_pos same, if_pos same, ← same, found]
      rfl
    · rw [if_neg same, if_neg same, Nat.sub_zero]

variable {s : PendingStore}

section

variable (counted : s.Counted)
include counted

theorem Counted.removeEntry (k : KeyId) : (s.removeEntry k).Counted := by
  cases found : s.inner[k]? with
  | none =>
    have same : s.removeEntry k = s := by
      unfold PendingStore.removeEntry
      rw [found]
    rw [same]
    exact counted
  | some entry =>
    have fewer : ∀ origin, (s.removeEntry k).pendingFrom origin =
        s.pendingFrom origin - weight (s.get k) origin := by
      intro origin
      unfold PendingStore.removeEntry get
      rw [found]
      exact noteRemoved_pendingFrom _ entry origin
    apply counted.change k
    · exact fun j other => by rw [removeEntry_get, if_neg other]
    · intro origin
      have enough := counted.weight_le k origin
      rw [fewer, removeEntry_get, if_pos rfl]
      exact Nat.sub_add_cancel enough
    · intro origin
      rw [fewer]
      exact (Nat.sub_le _ _).trans (counted.bounded origin)

theorem Counted.insert (keyId : KeyId) (initiator : SaeId) (authorized : List SaeId)
    (material : Bytes) (ttl : Option Nat) (now : Nat) :
    (s.insert keyId initiator authorized material ttl now).Counted := by
  have fewer : ∀ origin,
      (s.insert keyId initiator authorized material ttl now).pendingFrom origin =
        s.pendingFrom origin - weight (s.get keyId) origin := by
    intro origin
    unfold PendingStore.insert get
    cases s.inner[keyId]? with
    | none => rfl
    | some old => exact noteRemoved_pendingFrom _ old origin
  apply counted.change keyId
  · exact fun j other => by rw [insert_get, if_neg other]
  · intro origin
    have enough := counted.weight_le keyId origin
    rw [fewer, insert_get, if_pos rfl]
    exact Nat.sub_add_cancel enough
  · intro origin
    rw [fewer]
    exact (Nat.sub_le _ _).trans (counted.bounded origin)

theorem Counted.insertFromPeer (keyId : KeyId) (origin : NodeId) (initiator : SaeId)
    (authorized : List SaeId) (material : Bytes) (ttl : Option Nat) (now : Nat) :
    (s.insertFromPeer keyId origin initiator authorized material ttl now).2.Counted := by
  -- the counter is created with its own value before anything is checked
  have touched : ∀ o, (s.perOrigin.insert origin (s.perOrigin.getD origin 0)).getD o 0 =
      s.pendingFrom o := by
    intro o
    simp only [getD_insert, Std.compare_eq_iff_eq]
    split
    · rename_i same
      rw [same]
      rfl
    · rfl
  have same : ({ s with perOrigin := s.perOrigin.insert origin (s.perOrigin.getD origin 0) } :
      PendingStore).Counted :=
    counted.change keyId (fun _ _ => rfl)
      (fun o => congrArg (· + weight (s.get keyId) o) (touched o))
      (fun o => (touched o).trans_le (counted.bounded o))
  unfold PendingStore.insertFromPeer
  dsimp only
  split
  · exact same
  split
  · exact same
  rename_i absent
  have vacant : s.get keyId = none := getElem?_eq_none absent
  apply counted.change keyId
  · intro j other
    simp only [get, getElem?_insert, Std.compare_eq_iff_eq, if_neg other]
  · intro o
    rw [vacant]
    simp only [pendingFrom, get, getElem?_insert_self, getD_insert, Std.compare_eq_iff_eq, weight,
      Option.bind_none]
    by_cases here : origin = o
    · simp [here]
    · simp [here]
  · intro o
    have bound := counted.bounded o
    simp only [pendingFrom, getD_insert] at bound ⊢
    split <;> omega

theorem Counted.takeForSaeOfMaster (keyId : KeyId) (sae : SaeId) (master : Option SaeId)
    (now : Nat) : (s.takeForSaeOfMaster keyId sae master now).2.Counted := by
  unfold PendingStore.takeForSaeOfMaster
  cases found : s.inner[keyId]? with
  | none => exact counted
  | some entry =>
    let collected : PendingEntry := { entry with retrieved := sae :: entry.retrieved }
    have marked : ({ s with inner := s.inner.insert keyId collected } : PendingStore).Counted := by
      apply counted.change keyId
      · intro j other
        simp only [get, getElem?_insert, Std.compare_eq_iff_eq, if_neg other]
      · intro o
        simp only [get, getElem?_insert_self, found]
        rfl
      · exact counted.bounded
    dsimp only
    split
    · exact counted.removeEntry keyId
    split
    · exact counted
    split
    · exact counted
    split
    · exact counted
    split
    · exact marked.removeEntry keyId
    · exact marked

theorem Counted.sweepExpired (now : Nat) : (s.sweepExpired now).Counted := by
  unfold PendingStore.sweepExpired
  generalize s.inner.toList.filter _ = stale
  induction stale generalizing s with
  | nil => exact counted
  | cons pair stale ih => exact ih (counted.removeEntry pair.1)

end

end PendingStore

structure Deposit where
  initiator : SaeId
  authorized : List SaeId
  material : Bytes

/-- What callers have seen of the store: the last deposit that was accepted under each id, and
who has obtained it since. -/
structure Escrow where
  deposits : KeyId → Option Deposit
  collectors : KeyId → List SaeId

namespace Escrow

def empty : Escrow := ⟨fun _ => none, fun _ => []⟩

def deposit (e : Escrow) (keyId : KeyId) (d : Deposit) : Escrow where
  deposits := update e.deposits keyId (some d)
  collectors := update e.collectors keyId []

def collect (e : Escrow) (keyId : KeyId) (sae : SaeId) : Escrow :=
  { e with collectors := update e.collectors keyId (sae :: e.collectors keyId) }

end Escrow

inductive PendingOp where
  | insertFromPeer (keyId : KeyId) (origin : NodeId) (initiator : SaeId) (authorized : List SaeId)
      (material : Bytes) (ttl : Option Nat)
  | insert (keyId : KeyId) (initiator : SaeId) (authorized : List SaeId) (material : Bytes) (ttl : Option Nat)
  | takeForSaeOfMaster (keyId : KeyId) (sae : SaeId) (master : Option SaeId)
  | forceRemove (keyId : KeyId)
  | sweepExpired

structure Custodian where
  store : PendingStore
  seen : Escrow

namespace Custodian

def new (defaultTtlSecs : Nat) : Custodian := ⟨.new defaultTtlSecs, .empty⟩

def serve (c : Custodian) : Nat × PendingOp → Custodian
  | (now, .insertFromPeer keyId origin initiator authorized material ttl) =>
    let (result, store) := c.store.insertFromPeer keyId origin initiator authorized material ttl now
    match result with
    | .ok _ => ⟨store, c.seen.deposit keyId ⟨initiator, authorized, material⟩⟩
    | .error _ => ⟨store, c.seen⟩
  | (now, .insert keyId initiator authorized material ttl) =>
    ⟨c.store.insert keyId initiator authorized material ttl now,
      c.seen.deposit keyId ⟨initiator, authorized, material⟩⟩
  | (now, .takeForSaeOfMaster keyId sae master) =>
    let (result, store) := c.store.takeForSaeOfMaster keyId sae master now
    match result with
    | .ok _ => ⟨store, c.seen.collect keyId sae⟩
    | .error _ => ⟨store, c.seen⟩
  | (_, .forceRemove keyId) => ⟨c.store.forceRemove keyId, c.seen⟩
  | (now, .sweepExpired) => ⟨c.store.sweepExpired now, c.seen⟩

def run (c : Custodian) (ops : List (Nat × PendingOp)) : Custodian := ops.foldl serve c

/-- The entry under an id is the last deposit, marked with those who obtained it, and after a
first collection somebody is still to come. -/
def Matches (seen : Escrow) (k : KeyId) (entry : PendingEntry) : Prop :=
  seen.deposits k = some ⟨entry.initiator, entry.authorized, entry.material⟩ ∧
    seen.collectors k = entry.retrieved ∧ (entry.retrieved ≠ [] → entry.isComplete = false)

structure Sound (c : Custodian) : Prop where
  matched : ∀ k entry, c.store.get k = some entry → Matches c.seen k entry
  once : ∀ k, (c.seen.collectors k).Nodup
  counted : c.store.Counted

theorem new_sound (defaultTtlSecs : Nat) : (new defaultTtlSecs).Sound := by
  constructor
  · intro k entry held
    cases held
  · exact fun k => List.nodup_nil
  have nothing : ∀ origin, (new defaultTtlSecs).store.pendingFrom origin = 0 :=
    fun origin => getD_emptyc
  constructor
  · intro origin
    rw [nothing, eq_comm, card_eq_zero, eq_empty_iff_forall_notMem]
    intro k member
    cases member
  · intro origin
    exact Nat.zero_le _

variable {c : Custodian}

section

variable (sound : c.Sound)
include sound

theorem Sound.fewer {store : PendingStore} (counted : store.Counted)
    (kept : ∀ k, store.get k = c.store.get k ∨ store.get k = none) : Sound ⟨store, c.seen⟩ := by
  refine ⟨fun k entry held => ?_, sound.once, counted⟩
  rcases kept k with same | gone
  · exact sound.matched k entry (same ▸ held)
  · rw [show store.get k = some entry from held] at gone
    cases gone

theorem Sound.deposit {store : PendingStore} (counted : store.Counted) {keyId : KeyId}
    {entry : PendingEntry} (fresh : entry.retrieved = [])
    (stored : ∀ k, store.get k = if keyId = k then some entry else c.store.get k) :
    Sound ⟨store, c.seen.deposit keyId ⟨entry.initiator, entry.authorized, entry.material⟩⟩ := by
  refine ⟨fun k held found => ?_, fun k => ?_, counted⟩
  case refine_2 =>
    unfold Escrow.deposit
    dsimp only
    rcases eq_or_ne k keyId with rfl | other
    · rw [update_self]
      exact List.nodup_nil
    · rw [update_of_ne other]
      exact sound.once k
  have here : store.get k = some held := found
  rw [stored] at here
  unfold Matches Escrow.deposit
  by_cases same : keyId = k
  · rw [if_pos same] at here
    cases here
    subst same
    dsimp only
    rw [update_self, update_self, fresh]
    exact ⟨rfl, rfl, fun begun => absurd rfl begun⟩
  · rw [if_neg same] at here
    dsimp only
    rw [update_of_ne (Ne.symm same), update_of_ne (Ne.symm same)]
    exact sound.matched k held here

theorem Sound.take (keyId : KeyId) (sae : SaeId) (master : Option SaeId) (now : Nat) :
    (c.serve (now, .takeForSaeOfMaster keyId sae master)).Sound := by
  have counted := sound.counted.takeForSaeOfMaster keyId sae master now
  unfold serve
  dsimp only
  rcases takeForSaeOfMaster_cases c.store keyId sae master now with
    ⟨⟨error, failed⟩, kept⟩ | ⟨entry, found, -, -, first, -, served, after⟩
  · rw [failed]
    apply sound.fewer counted
    intro k
    rcases kept k with same | ⟨gone, -⟩
    · exact .inl same
    · exact .inr gone
  rw [served]
  refine ⟨fun k held here => ?_, fun k => ?_, counted⟩
  case refine_2 =>
    unfold Escrow.collect
    dsimp only
    rcases eq_or_ne k keyId with rfl | other
    · rw [update_self]
      exact List.nodup_cons.mpr ⟨(sound.matched k entry found).2.1 ▸ first, sound.once k⟩
    · rw [update_of_ne other]
      exact sound.once k
  have stored : (c.store.takeForSaeOfMaster keyId sae master now).2.get k = some held := here
  rw [after] at stored
  unfold Matches Escrow.collect
  by_cases same : keyId = k
  · subst same
    obtain ⟨deposited, collected, -⟩ := sound.matched keyId entry found
    rw [if_pos rfl] at stored
    split at stored
    · cases stored
    rename_i missing
    cases stored
    dsimp only
    rw [update_self, collected]
    exact ⟨deposited, rfl, fun _ => Bool.eq_false_of_not_eq_true missing⟩
  · rw [if_neg same] at stored
    dsimp only
    rw [update_of_ne (Ne.symm same)]
    exact sound.matched k held stored

theorem Sound.insertFromPeer (keyId : KeyId) (origin : NodeId) (initiator : SaeId)
    (authorized : List SaeId) (material : Bytes) (ttl : Option Nat) (now : Nat) :
    (c.serve (now, .insertFromPeer keyId origin initiator authorized material ttl)).Sound := by
  have counted := sound.counted.insertFromPeer keyId origin initiator authorized material ttl now
  unfold serve
  dsimp only
  rcases insertFromPeer_cases c.store keyId origin initiator authorized material ttl
    now with ⟨⟨error, refused, -⟩, kept⟩ | ⟨stored, -, after⟩
  · rw [refused]
    exact sound.fewer counted fun k => .inl (kept k)
  · rw [stored]
    exact sound.deposit counted rfl after

theorem Sound.serve (op : Nat × PendingOp) : (c.serve op).Sound := by
  obtain ⟨now, op⟩ := op
  cases op with
  | insertFromPeer keyId origin initiator authorized material ttl =>
    exact sound.insertFromPeer keyId origin initiator authorized material ttl now
  | insert keyId initiator authorized material ttl =>
    exact sound.deposit (sound.counted.insert keyId initiator authorized material ttl now) rfl
      fun k => insert_get c.store keyId k initiator authorized material ttl now
  | takeForSaeOfMaster keyId sae master => exact sound.take keyId sae master now
  | forceRemove keyId =>
    apply sound.fewer (sound.counted.removeEntry keyId)
    intro k
    rw [removeEntry_get]
    split
    · exact .inr rfl
    · exact .inl rfl
  | sweepExpired =>
    apply sound.fewer (sound.counted.sweepExpired now)
    intro k
    rcases sweepExpired_get c.store now k with same | ⟨gone, -⟩
    · exact .inl same
    · exact .inr gone

theorem Sound.run (ops : List (Nat × PendingOp)) : (c.run ops).Sound := by
  induction ops generalizing c with
  | nil => exact sound
  | cons op ops ih => exact ih (sound.serve op)

end

end Custodian

/-- After any sequence of operations the store is a one-shot escrow: a peer changes no entry that
is there, a collection hands out the last deposit to one who may have it and has not had it,
what all have collected is gone, and the counters are exact and within the limit. -/
theorem pendingStore_one_shot_escrow (defaultTtlSecs : Nat) (ops : List (Nat × PendingOp)) :
    let c := (Custodian.new defaultTtlSecs).run ops
    (∀ keyId origin initiator authorized material ttl now k entry, c.store.get k = some entry →
      (c.store.insertFromPeer keyId origin initiator authorized material ttl now).2.get k = some entry) ∧
    (∀ keyId sae master now material initiator,
      (c.store.takeForSaeOfMaster keyId sae master now).1 = .ok (material, initiator) →
        ∃ d, c.seen.deposits keyId = some d ∧ material = d.material ∧ initiator = d.initiator ∧
          sae ∈ d.authorized ∧ sae ∉ c.seen.collectors keyId ∧
          ∀ m, master = some m → m = d.initiator) ∧
    (∀ keyId, (c.seen.collectors keyId).Nodup) ∧
    (∀ keyId d, c.seen.deposits keyId = some d → c.seen.collectors keyId ≠ [] →
      (∀ sae ∈ d.authorized, sae ∈ c.seen.collectors keyId) → c.store.get keyId = none) ∧
    ∀ origin, c.store.pendingFrom origin = (c.store.liveFrom origin).card ∧
      c.store.pendingFrom origin ≤ maxPendingPerOrigin := by
  intro c
  have sound : c.Sound := (Custodian.new_sound defaultTtlSecs).run ops
  refine ⟨?_, ?_, sound.once, ?_, fun origin => ⟨sound.counted.exact origin, sound.counted.bounded origin⟩⟩
  · intro keyId origin initiator authorized material ttl now k entry held
    rcases insertFromPeer_cases c.store keyId origin initiator authorized material
      ttl now with ⟨-, kept⟩ | ⟨-, vacant, after⟩
    · rw [kept, held]
    have other : keyId ≠ k := by
      rintro rfl
      rw [vacant] at held
      cases held
    rw [after, if_neg other, held]
  · intro keyId sae master now material initiator taken
    rcases takeForSaeOfMaster_cases c.store keyId sae master now with
      ⟨⟨error, failed⟩, -⟩ | ⟨entry, found, -, authorized, first, named, served, -⟩
    · rw [failed] at taken
      cases taken
    rw [served] at taken
    cases taken
    obtain ⟨deposited, collected, -⟩ := sound.matched keyId entry found
    exact ⟨_, deposited, rfl, rfl, authorized, collected ▸ first, fun m given => (named m given).symm⟩
  intro keyId d deposited begun all
  by_contra present
  obtain ⟨entry, held⟩ := Option.ne_none_iff_exists'.mp present
  obtain ⟨same, collected, unfinished⟩ := sound.matched keyId entry held
  rw [deposited] at same
  cases same
  rw [collected] at begun all
  have complete : entry.isComplete := by
    unfold PendingEntry.isComplete
    rw [List.all_eq_true]
    exact fun sae member => List.contains_iff_mem.mpr (all sae member)
  rw [unfinished begun] at complete
  cases complete

end Dkms.Node
