import Dkms.Core.Runs
import Dkms.Qkc.Otp

namespace Dkms.Qkc

open Dkms.Core Dkms.Link

def decBatchMax : Nat := 128
def decPendingMax : Nat := 65536

/-- How far `dec_refill_loop` has got. Between taking the ids out of `dec_announced` and putting
the keys into `dec` it holds no lock. -/
inductive DecWorker where
  | waiting
  | draining
  | asking (ids : List Uuid)
  | unlisting (ids : List Uuid) (keys : List OtpKey)
  | inserting (keys : List OtpKey)
  deriving DecidableEq

inductive DecPhase where
  | looking
  | checking
  | waiting
  | refused
  | timedOut
  deriving DecidableEq

/-- One call of `lookup_or_fetch_dec`, with the ids that had been announced and accepted when it
began. -/
structure DecPath where
  before : Finset Uuid
  ids : List Uuid
  got : List OtpKey
  phase : DecPhase
  deriving DecidableEq

def DecPath.next (path : DecPath) (key : OtpKey) : DecPath :=
  { path with ids := path.ids.tail, got := path.got ++ [key], phase := .looking }

/-- The DEC side of a `KeyStore` and the calls that are running. `accepted`, `returned` and
`consumed` record what happened. -/
structure DecStore where
  dec : Uuid → Option Bytes
  pending : List Uuid
  announced : Finset Uuid
  worker : DecWorker
  announcing : List (List Uuid)
  paths : List DecPath
  accepted : Finset Uuid
  returned : Finset Uuid
  consumed : Finset Uuid

/-- One critical section of `notify_remote_enc` (`notify`, `announce`), of the worker (`wake`,
`work`, and `answer` with what `dec_keys` returns) or of a frame path. -/
inductive DecAct where
  | notify (ids : List Uuid)
  | announce (call : Nat)
  | wake
  | work
  | answer (keys : Option (List OtpKey))
  | receive (ids : List Uuid)
  | step (path : Nat)
  | timeout (path : Nat)

namespace DecStore

def new : DecStore where
  dec _ := none
  pending := []
  announced := ∅
  worker := .waiting
  announcing := []
  paths := []
  accepted := ∅
  returned := ∅
  consumed := ∅

variable (s : DecStore)

/-- What does not fit into `dec_pending` is cut off and never announced. -/
def notify (ids : List Uuid) : DecStore :=
  let ids := ids.take (decPendingMax - s.pending.length)
  { s with pending := s.pending ++ ids, announcing := s.announcing ++ [ids] }

def announce (call : Nat) : DecStore :=
  match s.announcing[call]? with
  | none => s
  | some ids =>
    { s with
      announced := s.announced ∪ ids.toFinset
      accepted := s.accepted ∪ ids.toFinset
      announcing := s.announcing.eraseIdx call }

def workerStep : DecStore :=
  match s.worker with
  | .waiting | .asking _ => s
  | .draining =>
    if s.pending.isEmpty then { s with worker := .waiting }
    else
      let take := min s.pending.length decBatchMax
      { s with pending := s.pending.drop take, worker := .asking (s.pending.take take) }
  | .unlisting ids keys =>
    { s with announced := s.announced \ ids.toFinset, worker := .inserting keys }
  | .inserting [] => { s with worker := .draining }
  | .inserting (key :: keys) =>
    { s with dec := Function.update s.dec key.keyId (some key.material), worker := .inserting keys }

def answer (keys : Option (List OtpKey)) : DecStore :=
  match s.worker with
  | .asking ids =>
    { s with
      worker := .unlisting ids (keys.getD [])
      returned := s.returned ∪ ((keys.getD []).map (·.keyId)).toFinset }
  | _ => s

def setPath (i : Nat) (path : DecPath) : DecStore := { s with paths := s.paths.set i path }

def lookup (i : Nat) (path : DecPath) (id : Uuid) (missed : DecPhase) : DecStore :=
  match s.dec id with
  | some material =>
    { s.setPath i (path.next ⟨id, material⟩) with
      dec := Function.update s.dec id none
      consumed := Insert.insert id s.consumed }
  | none => s.setPath i { path with phase := missed }

def pathStep (i : Nat) : DecStore :=
  match s.paths[i]? with
  | none => s
  | some path =>
    match path.ids.head?, path.phase with
    | some id, .looking => s.lookup i path id .checking
    | some id, .checking =>
      s.setPath i { path with phase := if id ∈ s.announced then .waiting else .refused }
    | some id, .waiting => s.lookup i path id .waiting
    | _, _ => s

def timeout (i : Nat) : DecStore :=
  match s.paths[i]? with
  | none => s
  | some path =>
    match path.phase with
    | .waiting => s.setPath i { path with phase := .timedOut }
    | _ => s

def next : DecAct → DecStore
  | .notify ids => s.notify ids
  | .announce call => s.announce call
  | .wake =>
    match s.worker with
    | .waiting => { s with worker := .draining }
    | _ => s
  | .work => s.workerStep
  | .answer keys => s.answer keys
  | .receive ids => { s with paths := s.paths ++ [⟨s.accepted, ids, [], .looking⟩] }
  | .step i => s.pathStep i
  | .timeout i => s.timeout i

def run (acts : List DecAct) : DecStore := acts.foldl next s

end DecStore

open List Function

def DecWorker.insertingIds : DecWorker → List Uuid
  | .inserting keys => keys.map (·.keyId)
  | _ => []

def DecWorker.heldIds : DecWorker → List Uuid
  | .unlisting _ keys => keys.map (·.keyId)
  | .inserting keys => keys.map (·.keyId)
  | _ => []

def DecAct.Supplied (id : Uuid) (s : DecStore) : DecAct → Prop
  | .answer keys =>
    match s.worker with
    | .asking ids => id ∈ ids → id ∈ (keys.getD []).map (·.keyId) ∨ id ∈ s.returned
    | _ => True
  | .step i => ∀ path ∈ s.paths[i]?, path.ids.head? = some id →
    path.phase = .looking ∨ path.phase = .waiting → id ∉ s.consumed
  | _ => True

/-- The worker does not take the id out of `dec_announced` while a frame path is between its
lookup and its check of that id, and no path looks the id up while the worker has it neither
announced nor inserted. -/
def DecAct.Unraced (id : Uuid) (s : DecStore) : DecAct → Prop
  | .work =>
    match s.worker with
    | .unlisting ids _ => id ∈ ids → ∀ path ∈ s.paths, path.ids.head? = some id → path.phase ≠ .checking
    | _ => True
  | .step i => id ∈ s.worker.insertingIds →
    ∀ path ∈ s.paths[i]?, path.ids.head? = some id → path.phase ≠ .looking
  | _ => True

instance (id : Uuid) (s : DecStore) (act : DecAct) : Decidable (act.Supplied id s) := by
  rcases act with _ | _ <;> dsimp only [DecAct.Supplied]
  case answer keys => rcases s.worker with _ | _ <;> infer_instance
  all_goals infer_instance

instance (id : Uuid) (s : DecStore) (act : DecAct) : Decidable (act.Unraced id s) := by
  rcases act with _ | _ <;> dsimp only [DecAct.Unraced]
  case work => rcases s.worker with _ | _ <;> infer_instance
  all_goals infer_instance

namespace DecStore

structure Tracked (id : Uuid) (s : DecStore) : Prop where
  returned : id ∈ s.returned → id ∉ s.consumed → s.dec id ≠ none ∨ id ∈ s.worker.heldIds
  asked : ∀ ids keys, s.worker = .unlisting ids keys → id ∈ ids → id ∈ s.returned
  announced : id ∈ s.accepted → id ∉ s.consumed →
    id ∈ s.announced ∨ s.dec id ≠ none ∨ id ∈ s.worker.insertingIds
  known : ∀ path ∈ s.paths, path.before ⊆ s.accepted
  checking : ∀ path ∈ s.paths, path.ids.head? = some id → path.phase = .checking →
    id ∈ path.before → id ∈ s.announced
  refused : ∀ path ∈ s.paths, path.ids.head? = some id → path.phase = .refused → id ∉ path.before

theorem new_tracked (id : Uuid) : new.Tracked id := by
  refine ⟨?_, ?_, ?_, ?_, ?_, ?_⟩
  · exact fun member => absurd member (Finset.notMem_empty id)
  · exact fun ids keys unlisting => nomatch unlisting
  · exact fun member => absurd member (Finset.notMem_empty id)
  · exact fun path member => absurd member not_mem_nil
  · exact fun path member => absurd member not_mem_nil
  · exact fun path member => absurd member not_mem_nil

namespace Tracked

variable {id : Uuid} {s : DecStore}

theorem announce (tracked : s.Tracked id) (call : Nat) : (s.announce call).Tracked id := by
  unfold DecStore.announce
  split
  · exact tracked
  refine ⟨tracked.returned, tracked.asked, ?_, ?_, ?_, tracked.refused⟩
  · intro accepted fresh
    rcases Finset.mem_union.mp accepted with old | new
    · rcases tracked.announced old fresh with listed | elsewhere
      · exact .inl (Finset.mem_union_left _ listed)
      · exact .inr elsewhere
    · exact .inl (Finset.mem_union_right _ new)
  · exact fun path member => (tracked.known path member).trans Finset.subset_union_left
  · exact fun path member here phase before =>
      Finset.mem_union_left _ (tracked.checking path member here phase before)

theorem idle (tracked : s.Tracked id) (worker : DecWorker) (pending : List Uuid)
    (empty : id ∉ s.worker.heldIds) (quiet : ∀ ids keys, worker ≠ .unlisting ids keys) :
    Tracked id { s with worker, pending } := by
  have gone : id ∉ s.worker.insertingIds := by
    intro member
    apply empty
    cases at' : s.worker with
    | inserting keys =>
      rw [at'] at member
      exact member
    | waiting | draining | asking | unlisting =>
      rw [at'] at member
      cases member
  refine ⟨?_, ?_, ?_, tracked.known, tracked.checking, tracked.refused⟩
  · intro returned fresh
    exact .inl ((tracked.returned returned fresh).resolve_right empty)
  · exact fun ids keys unlisting => absurd unlisting (quiet ids keys)
  intro accepted fresh
  rcases tracked.announced accepted fresh with listed | held | inserting
  · exact .inl listed
  · exact .inr (.inl held)
  · exact absurd inserting gone

theorem work (tracked : s.Tracked id) (unraced : DecAct.Unraced id s .work) :
    s.workerStep.Tracked id := by
  unfold DecStore.workerStep
  unfold DecAct.Unraced at unraced
  cases at' : s.worker with
  | draining =>
    have empty : id ∉ s.worker.heldIds := by
      rw [at']
      exact not_mem_nil
    dsimp only
    split
    · exact tracked.idle .waiting s.pending empty fun _ _ same => nomatch same
    · exact tracked.idle (.asking _) _ empty fun _ _ same => nomatch same
  | unlisting ids keys =>
    rw [at'] at unraced
    have asked := tracked.asked ids keys at'
    refine ⟨?_, fun _ _ same => (nomatch same), ?_, tracked.known, ?_, tracked.refused⟩
    · intro returned fresh
      have held := tracked.returned returned fresh
      rw [at'] at held
      exact held
    · intro accepted fresh
      by_cases mine : id ∈ ids
      · have held := tracked.returned (asked mine) fresh
        rw [at'] at held
        exact .inr held
      rcases tracked.announced accepted fresh with listed | held | inserting
      · left
        rw [Finset.mem_sdiff, mem_toFinset]
        exact ⟨listed, mine⟩
      · exact .inr (.inl held)
      · rw [at'] at inserting
        cases inserting
    · intro path member here phase before
      have other : id ∉ ids := fun mine => unraced mine path member here phase
      rw [Finset.mem_sdiff, mem_toFinset]
      exact ⟨tracked.checking path member here phase before, other⟩
  | inserting keys =>
    cases keys with
    | nil =>
      have empty : id ∉ s.worker.heldIds := by
        rw [at']
        exact not_mem_nil
      exact tracked.idle .draining s.pending empty fun _ _ same => nomatch same
    | cons key keys =>
      -- a key leaves the worker's hands for the map
      have moved : s.dec id ≠ none ∨ id ∈ (key :: keys).map (·.keyId) →
          update s.dec key.keyId (some key.material) id ≠ none ∨
            id ∈ keys.map (·.keyId) := by
        intro held
        by_cases same : id = key.keyId
        · left
          rw [same, update_self]
          exact Option.some_ne_none _
        rw [update_of_ne same]
        rcases held with there | listed
        · exact .inl there
        · rw [map_cons, mem_cons] at listed
          exact .inr (listed.resolve_left same)
      refine ⟨?_, fun _ _ same => (nomatch same), ?_, tracked.known, tracked.checking, tracked.refused⟩
      · intro returned fresh
        have held := tracked.returned returned fresh
        rw [at'] at held
        exact moved held
      intro accepted fresh
      have held := tracked.announced accepted fresh
      rw [at'] at held
      exact held.imp_right moved
  | _ => exact tracked

theorem answer (tracked : s.Tracked id) {keys : Option (List OtpKey)}
    (supplied : DecAct.Supplied id s (.answer keys)) : (s.answer keys).Tracked id := by
  unfold DecStore.answer
  unfold DecAct.Supplied at supplied
  cases at' : s.worker with
  | asking ids =>
    rw [at'] at supplied
    refine ⟨?_, ?_, ?_, tracked.known, tracked.checking, tracked.refused⟩
    · intro returned fresh
      rcases Finset.mem_union.mp returned with old | new
      · left
        have held := tracked.returned old fresh
        rw [at'] at held
        exact held.resolve_right not_mem_nil
      · exact .inr (mem_toFinset.mp new)
    · intro ids' keys' same mine
      cases same
      rcases supplied mine with now | before
      · exact Finset.mem_union_right _ (mem_toFinset.mpr now)
      · exact Finset.mem_union_left _ before
    · intro accepted fresh
      have held := tracked.announced accepted fresh
      rw [at'] at held
      exact held
  | _ => exact tracked

theorem setPath (tracked : s.Tracked id) (i : Nat) (path : DecPath)
    (known : path.before ⊆ s.accepted)
    (checking : path.ids.head? = some id → path.phase = .checking → id ∈ path.before → id ∈ s.announced)
    (refused : path.ids.head? = some id → path.phase = .refused → id ∉ path.before) :
    (s.setPath i path).Tracked id := by
  refine ⟨tracked.returned, tracked.asked, tracked.announced, ?_, ?_, ?_⟩
  · intro path' member
    rcases mem_or_eq_of_mem_set member with old | rfl
    · exact tracked.known path' old
    · exact known
  · intro path' member
    rcases mem_or_eq_of_mem_set member with old | rfl
    · exact tracked.checking path' old
    · exact checking
  intro path' member
  rcases mem_or_eq_of_mem_set member with old | rfl
  · exact tracked.refused path' old
  · exact refused

theorem lookup (tracked : s.Tracked id) {i : Nat} {path : DecPath} {wanted : Uuid}
    {missed : DecPhase} (known : path.before ⊆ s.accepted) (head : path.ids.head? = some wanted)
    (pass : missed = .checking ∨ missed = .waiting)
    (there : wanted = id → missed = .checking → s.dec id = none → id ∈ path.before → id ∈ s.announced) :
    (s.lookup i path wanted missed).Tracked id := by
  unfold DecStore.lookup
  split
  · rename_i material found
    have moved := tracked.setPath i (path.next ⟨wanted, material⟩) known
      (fun _ phase => by cases phase) (fun _ phase => by cases phase)
    have stays : id ∉ Insert.insert wanted s.consumed → id ∉ s.consumed ∧
        update s.dec wanted none id = s.dec id := by
      intro fresh
      rw [Finset.mem_insert, not_or] at fresh
      exact ⟨fresh.2, update_of_ne fresh.1 _ _⟩
    refine ⟨?_, moved.asked, ?_, moved.known, moved.checking, moved.refused⟩
    · intro returned fresh
      obtain ⟨before, same⟩ := stays fresh
      show update s.dec wanted none id ≠ none ∨ _
      rw [same]
      exact tracked.returned returned before
    · intro accepted fresh
      obtain ⟨before, same⟩ := stays fresh
      show _ ∨ update s.dec wanted none id ≠ none ∨ _
      rw [same]
      exact tracked.announced accepted before
  · rename_i missing
    apply tracked.setPath i { path with phase := missed } known
    · intro here phase before
      have same : wanted = id := Option.some.inj (head.symm.trans here)
      exact there same phase (same ▸ missing) before
    · intro here phase
      rcases pass with rfl | rfl <;> cases phase

theorem pathStep (tracked : s.Tracked id) {i : Nat} (supplied : DecAct.Supplied id s (.step i))
    (unraced : DecAct.Unraced id s (.step i)) : (s.pathStep i).Tracked id := by
  unfold DecStore.pathStep
  split
  · exact tracked
  rename_i path found
  have member : path ∈ s.paths := mem_of_getElem? found
  have known := tracked.known path member
  split
  · rename_i wanted head phase
    apply tracked.lookup known head (.inl rfl)
    rintro rfl - missing before
    have fresh := supplied path found head (.inl phase)
    rcases tracked.announced (known before) fresh with listed | held | inserting
    · exact listed
    · exact absurd missing held
    · exact absurd phase (unraced inserting path found head)
  · rename_i wanted head phase
    apply tracked.setPath i
      { path with phase := if wanted ∈ s.announced then .waiting else .refused } known
    · intro here checks
      split at checks <;> cases checks
    intro here refuses before
    obtain rfl : wanted = id := Option.some.inj (head.symm.trans here)
    have listed := tracked.checking path member head phase before
    rw [if_pos listed] at refuses
    cases refuses
  · rename_i wanted head phase
    apply tracked.lookup known head (.inr rfl)
    intro same checks
    cases checks
  · exact tracked

theorem next (tracked : s.Tracked id) {act : DecAct} (supplied : act.Supplied id s)
    (unraced : act.Unraced id s) : (s.next act).Tracked id := by
  cases act with
  | notify ids =>
    exact ⟨tracked.returned, tracked.asked, tracked.announced, tracked.known, tracked.checking,
      tracked.refused⟩
  | announce call => exact tracked.announce call
  | wake =>
    dsimp only [DecStore.next]
    split
    · rename_i at'
      apply tracked.idle .draining s.pending _ fun _ _ same => nomatch same
      rw [at']
      exact not_mem_nil
    · exact tracked
  | work => exact tracked.work unraced
  | answer keys => exact tracked.answer supplied
  | receive ids =>
    refine ⟨tracked.returned, tracked.asked, tracked.announced, ?_, ?_, ?_⟩
    · intro path member
      rcases mem_append.mp member with old | new
      · exact tracked.known path old
      rw [mem_singleton] at new
      subst new
      exact Finset.Subset.refl _
    · intro path member here phase
      rcases mem_append.mp member with old | new
      · exact tracked.checking path old here phase
      rw [mem_singleton] at new
      subst new
      cases phase
    intro path member here phase
    rcases mem_append.mp member with old | new
    · exact tracked.refused path old here phase
    rw [mem_singleton] at new
    subst new
    cases phase
  | step i => exact tracked.pathStep supplied unraced
  | timeout i =>
    dsimp only [DecStore.next]
    unfold DecStore.timeout
    split
    · exact tracked
    rename_i path found
    split
    · exact tracked.setPath i { path with phase := .timedOut }
        (tracked.known path (mem_of_getElem? found)) (fun _ phase => nomatch phase) (fun _ phase => nomatch phase)
    · exact tracked

end Tracked

/-- In every interleaving in which neither race occurs, a key that was announced and accepted
before a frame is processed is not refused as unannounced. -/
theorem announced_key_not_refused (id : Uuid) (acts : List DecAct)
    (orderly : Follows DecStore.next (fun s act => act.Supplied id s ∧ act.Unraced id s) new acts)
    (path : DecPath) (member : path ∈ (new.run acts).paths) (head : path.ids.head? = some id)
    (announced : id ∈ path.before) : path.phase ≠ .refused := by
  have reached : (new.run acts).Tracked id :=
    orderly.invariant (fun _ _ tracked ok => tracked.next ok.1 ok.2) (new_tracked id)
  intro refused
  exact reached.refused path member head refused announced

def lookedUpEarly : List DecAct :=
  [.notify [7], .announce 0, .wake, .work, .receive [7], .step 0, .step 0, .answer (some [⟨7, [1]⟩])]

theorem announced_key_not_refused_early :
    ∃ path ∈ (new.run lookedUpEarly).paths, 7 ∈ path.before ∧ path.phase ≠ .refused :=
  ⟨⟨{7}, [7], [], .waiting⟩, by decide +kernel, by decide +kernel,
    announced_key_not_refused 7 lookedUpEarly (by decide +kernel) ⟨{7}, [7], [], .waiting⟩
      (by decide +kernel) rfl (by decide +kernel)⟩

/-- The frame comes when the worker has taken the id out of `dec_announced` and not yet put the
key into the map. -/
def lookedUpInBetween : List DecAct :=
  [.notify [7], .announce 0, .wake, .work, .answer (some [⟨7, [1]⟩]), .work, .receive [7], .step 0,
    .step 0, .work]

theorem lookedUpInBetween_refused :
    Follows DecStore.next (fun s act => act.Supplied 7 s) new lookedUpInBetween ∧
      ((new.run lookedUpInBetween).paths = [⟨{7}, [7], [], .refused⟩] ∧
        (new.run lookedUpInBetween).dec 7 = some [1]) := by
  decide +kernel

end DecStore

end Dkms.Qkc
