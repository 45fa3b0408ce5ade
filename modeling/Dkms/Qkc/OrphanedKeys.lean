import Dkms.Qkc.DecStore

namespace Dkms.Qkc

open List Function Dkms.Core Dkms.Link DecStore

def DecAct.Leaves (id : Uuid) : DecAct → Prop
  | .receive ids => id ∉ ids
  | _ => True

namespace DecStore

variable {s : DecStore} {id : Uuid}

structure Orphan (id : Uuid) (s : DecStore) : Prop where
  held : s.dec id ≠ none
  unnamed : ∀ path ∈ s.paths, id ∉ path.ids

theorem Orphan.setPath (orphan : s.Orphan id) {i : Nat} {path : DecPath}
    (here : s.paths[i]? = some path) (moved : DecPath) (sub : moved.ids ⊆ path.ids) :
    (s.setPath i moved).Orphan id := by
  refine ⟨orphan.held, ?_⟩
  intro other member
  rcases mem_or_eq_of_mem_set member with old | rfl
  · exact orphan.unnamed other old
  · exact fun named => orphan.unnamed path (mem_of_getElem? here) (sub named)

theorem Orphan.lookup (orphan : s.Orphan id) {i : Nat} {path : DecPath} {wanted : Uuid}
    (here : s.paths[i]? = some path) (first : path.ids.head? = some wanted) (missed : DecPhase) :
    (s.lookup i path wanted missed).Orphan id := by
  have apart : id ≠ wanted := by
    rintro rfl
    exact orphan.unnamed path (mem_of_getElem? here) (mem_of_head? first)
  unfold DecStore.lookup
  split
  · rename_i material _
    have moved := orphan.setPath here (path.next ⟨wanted, material⟩) (tail_subset _)
    refine ⟨?_, moved.unnamed⟩
    show update s.dec wanted none id ≠ none
    rw [update_of_ne apart]
    exact orphan.held
  · exact orphan.setPath here _ (Subset.refl _)

theorem Orphan.next (s : DecStore) (act : DecAct) (orphan : s.Orphan id) (leaves : act.Leaves id) :
    (s.next act).Orphan id := by
  cases act with
  | notify ids => exact ⟨orphan.held, orphan.unnamed⟩
  | announce call =>
    show (s.announce call).Orphan id
    unfold announce
    split
    · exact orphan
    · exact ⟨orphan.held, orphan.unnamed⟩
  | wake =>
    simp only [DecStore.next]
    split
    · exact ⟨orphan.held, orphan.unnamed⟩
    · exact orphan
  | work =>
    show s.workerStep.Orphan id
    unfold workerStep
    split
    · exact orphan
    · exact orphan
    · split <;> exact ⟨orphan.held, orphan.unnamed⟩
    · exact ⟨orphan.held, orphan.unnamed⟩
    · exact ⟨orphan.held, orphan.unnamed⟩
    rename_i key keys _
    refine ⟨?_, orphan.unnamed⟩
    show update s.dec key.keyId (some key.material) id ≠ none
    by_cases same : id = key.keyId
    · rw [same, update_self]
      exact Option.some_ne_none _
    · rw [update_of_ne same]
      exact orphan.held
  | answer keys =>
    show (s.answer keys).Orphan id
    unfold answer
    split
    · exact ⟨orphan.held, orphan.unnamed⟩
    · exact orphan
  | receive ids =>
    refine ⟨orphan.held, ?_⟩
    intro path member
    rcases mem_append.mp member with old | new
    · exact orphan.unnamed path old
    · rw [mem_singleton.mp new]
      exact leaves
  | step i =>
    show (s.pathStep i).Orphan id
    unfold pathStep
    split
    · exact orphan
    rename_i path here
    split
    · rename_i first _
      exact orphan.lookup here first _
    · exact orphan.setPath here _ (Subset.refl _)
    · rename_i first _
      exact orphan.lookup here first _
    · exact orphan
  | timeout i =>
    show (s.timeout i).Orphan id
    unfold timeout
    split
    · exact orphan
    rename_i path here
    split
    · exact orphan.setPath here _ (Subset.refl _)
    · exact orphan

theorem Orphan.run (orphan : s.Orphan id) {acts : List DecAct} (leave : ∀ act ∈ acts, act.Leaves id) :
    (s.run acts).Orphan id :=
  (follows_of_forall leave).invariant (fun s act orphan leaves => orphan.next s act leaves) orphan

structure Quiet (s : DecStore) : Prop where
  pending : s.pending = []
  announcing : s.announcing = []
  worker : s.worker = .waiting
  paths : s.paths = []

def supply (key : OtpKey) : List DecAct :=
  [.notify [key.keyId], .announce 0, .wake, .work, .answer (some [key]), .work, .work, .work, .work]

theorem Quiet.supply (quiet : s.Quiet) (key : OtpKey) :
    (s.run (supply key)).Quiet ∧ (s.run (supply key)).Orphan key.keyId := by
  obtain ⟨pending, announcing, worker, paths⟩ := quiet
  have room : [key.keyId].take decPendingMax = [key.keyId] := by simp [decPendingMax]
  have batch : min 1 decBatchMax = 1 := by decide
  have ran : s.run (DecStore.supply key) =
      { s with
        dec := update s.dec key.keyId (some key.material)
        announced := (s.announced ∪ {key.keyId}) \ {key.keyId}
        accepted := s.accepted ∪ {key.keyId}
        returned := s.returned ∪ {key.keyId} } := by
    simp [run, DecStore.supply, next, notify, announce, workerStep, answer, pending, announcing,
      worker, room, batch]
  rw [ran]
  refine ⟨⟨pending, announcing, worker, paths⟩, ⟨?_, ?_⟩⟩
  · simp
  · simp [paths]

theorem supply_leaves (key : OtpKey) (id : Uuid) : ∀ act ∈ supply key, act.Leaves id := by
  simp [supply, DecAct.Leaves]

theorem Quiet.supplies (quiet : s.Quiet) (keys : List OtpKey) :
    (s.run (keys.flatMap DecStore.supply)).Quiet ∧
      ∀ key ∈ keys, (s.run (keys.flatMap DecStore.supply)).Orphan key.keyId := by
  induction keys generalizing s with
  | nil => exact ⟨quiet, by simp⟩
  | cons key keys ih =>
    obtain ⟨after, orphan⟩ := quiet.supply key
    obtain ⟨final, others⟩ := ih after
    have split : s.run ((key :: keys).flatMap DecStore.supply) =
        (s.run (DecStore.supply key)).run (keys.flatMap DecStore.supply) := by
      simp [run]
    have leave : ∀ act ∈ keys.flatMap DecStore.supply, act.Leaves key.keyId := by
      intro act member
      obtain ⟨other, -, member⟩ := mem_flatMap.mp member
      exact supply_leaves other key.keyId act member
    rw [split]
    refine ⟨final, ?_⟩
    intro other member
    rcases mem_cons.mp member with rfl | member
    · exact orphan.run leave
    · exact others other member

def firstIds (n : Nat) : Finset Uuid := (Finset.range n).image (BitVec.ofNat 128)

theorem card_firstIds {n : Nat} (space : n ≤ 2 ^ 128) : (firstIds n).card = n := by
  rw [firstIds, Finset.card_image_of_injOn, Finset.card_range]
  intro a first b second same
  have boundA := Finset.mem_range.mp first
  have boundB := Finset.mem_range.mp second
  have values := congrArg BitVec.toNat same
  rwa [BitVec.toNat_ofNat, BitVec.toNat_ofNat, Nat.mod_eq_of_lt (by omega),
    Nat.mod_eq_of_lt (by omega)] at values

def supplied (n : Nat) : List OtpKey :=
  (range n).map fun i => ⟨BitVec.ofNat 128 i, replicate 32 0⟩

theorem new_quiet : new.Quiet := ⟨rfl, rfl, rfl, rfl⟩

theorem firstIds_orphans (n : Nat) :
    ∀ id ∈ firstIds n, (new.run ((supplied n).flatMap DecStore.supply)).Orphan id := by
  intro id member
  obtain ⟨i, small, rfl⟩ := Finset.mem_image.mp member
  have key : (⟨BitVec.ofNat 128 i, replicate 32 0⟩ : OtpKey) ∈ supplied n :=
    mem_map_of_mem (mem_range.mpr (Finset.mem_range.mp small))
  exact (new_quiet.supplies (supplied n)).2 _ key

/-- For every bound that the ids leave room for there is a run, of announcements whose frames are
lost, after which the map holds more keys; and it holds them as long as no frame names them. -/
theorem dec_store_unbounded (bound : Nat) (space : bound < 2 ^ 128) :
    ∃ (ids : Finset Uuid) (acts : List DecAct), bound < ids.card ∧
      ∀ later : List DecAct, (∀ act ∈ later, ∀ id ∈ ids, act.Leaves id) →
        ∀ id ∈ ids, ((new.run (acts ++ later)).dec id).isSome := by
  refine ⟨firstIds (bound + 1), (supplied (bound + 1)).flatMap supply, ?_, ?_⟩
  · rw [card_firstIds space]
    exact Nat.lt_succ_self bound
  intro later lost id member
  have orphan := firstIds_orphans (bound + 1) id member
  have still := orphan.run (fun act inside => lost act inside id member)
  rw [run, foldl_append]
  exact Option.isSome_iff_ne_none.mpr still.held

theorem dec_store_unbounded_million :
    ∃ (ids : Finset Uuid) (acts : List DecAct), 10 ^ 6 < ids.card ∧
      ∀ later : List DecAct, (∀ act ∈ later, ∀ id ∈ ids, act.Leaves id) →
        ∀ id ∈ ids, ((new.run (acts ++ later)).dec id).isSome :=
  dec_store_unbounded (10 ^ 6) (by decide)

/-- More keys than the ENC ring, the queue and a batch take together. -/
theorem lost_keys_exceed_limits : ∃ (ids : Finset Uuid) (acts : List DecAct),
      2 * Link.bufferTarget + decPendingMax + decBatchMax < ids.card ∧
        ∀ id ∈ ids, ((new.run acts).dec id).isSome := by
  refine ⟨firstIds 70000, (supplied 70000).flatMap supply, ?_, ?_⟩
  · rw [card_firstIds (by decide)]
    decide
  · intro id member
    exact Option.isSome_iff_ne_none.mpr (firstIds_orphans 70000 id member).held

end DecStore

end Dkms.Qkc
