import Dkms.Sdn.Anchors

namespace Dkms.Sdn

open List Function Dkms.Core Dkms.Sdn.Topology TopologyStore

variable {K : Type*}

inductive Kind
  | qkc
  | orr
  | dkms
  deriving DecidableEq

abbrev Entity := Kind × String

def Topology.has (t : Topology K) : Entity → Bool
  | (.qkc, id) => t.registered id
  | (.orr, id) => (t.orrs id).isSome
  | (.dkms, id) => (t.dkms id).isSome

inductive Announcement (K : Type*)
  | qkc (reg : QkcAnnounce K)
  | orr (reg : OrrAnnounce)
  | dkms (reg : DkmsAnnounce)

def Announcement.entity : Announcement K → Entity
  | .qkc reg => (.qkc, reg.id)
  | .orr reg => (.orr, reg.id)
  | .dkms reg => (.dkms, reg.id)

/-- The sweeper between two of its steps. Of the stale entities those in `gone` have left the
presence table. -/
inductive Sweep
  | idle
  | selecting (now : Nat) (stale : List Entity)
  | removing (gone rest : List Entity)
  | deleting (rest : List Entity)

/-- What a sweep has taken, or is about to take, out of the presence table and has yet to take
out of the topology. -/
def Sweep.pending : Sweep → List Entity
  | .removing gone rest => gone ++ rest
  | .deleting rest => rest
  | .idle | .selecting _ _ => []

structure Service (K : Type*) where
  store : TopologyStore K
  seen : Entity → Option Nat
  -- handlers whose announcement is in and whose `touch` is still to come
  touching : List Entity
  sweep : Sweep
  -- every entity that an announcement has brought in, or found there
  announced : List Entity

def Service.start (store : TopologyStore K) : Service K := ⟨store, fun _ => none, [], .idle, []⟩

inductive Step (K : Type*)
  | announce (announcement : Announcement K)
  | touch (i now : Nat)
  | sweep (now : Nat)
  | look (e : Entity)
  | selected
  | remove
  | delete

section Run

variable [Field K] [LinearOrder K] (tenPow : K → K) (ttl : Nat)

def TopologyStore.announce (store : TopologyStore K) : Announcement K → Bool × TopologyStore K
  | .qkc reg => (true, (store.announceQkc tenPow reg).2)
  | .orr reg =>
    let (out, store) := store.announceOrr reg
    (out.accepted, store)
  | .dkms reg =>
    let (out, store) := store.announceDkms reg
    (out.accepted, store)

def TopologyStore.expire (store : TopologyStore K) : Entity → TopologyStore K
  | (.qkc, id) => (store.deleteQkc id).2
  | (.orr, id) => (store.deleteOrr id).2
  | (.dkms, id) => (store.deleteDkms id).2

def isStale (seen : Entity → Option Nat) (now : Nat) (e : Entity) : Bool :=
  (seen e).any fun heard => ttl < now - heard

def Service.next (s : Service K) : Step K → Service K
  | .announce announcement =>
    let (accepted, store) := s.store.announce tenPow announcement
    if accepted then
      { s with
        store
        touching := announcement.entity :: s.touching
        announced := announcement.entity :: s.announced }
    else { s with store }
  | .touch i now =>
    match s.touching[i]? with
    | some e =>
      { s with seen := update s.seen e (some now), touching := s.touching.eraseIdx i }
    | none => s
  | .sweep now =>
    match s.sweep with
    | .idle => { s with sweep := .selecting now [] }
    | _ => s
  | .look e =>
    match s.sweep with
    | .selecting now stale =>
      if isStale ttl s.seen now e then { s with sweep := .selecting now (stale ++ [e]) } else s
    | _ => s
  | .selected =>
    match s.sweep with
    | .selecting _ stale => { s with sweep := .removing [] stale }
    | _ => s
  | .remove =>
    match s.sweep with
    | .removing gone (e :: rest) =>
      { s with seen := update s.seen e none, sweep := .removing (gone ++ [e]) rest }
    | .removing gone [] => { s with sweep := .deleting gone }
    | _ => s
  | .delete =>
    match s.sweep with
    | .deleting (e :: rest) => { s with store := s.store.expire e, sweep := .deleting rest }
    | .deleting [] => { s with sweep := .idle }
    | _ => s

end Run

section Has

variable {store : TopologyStore K} {e : Entity}

theorem Topology.has_congr {t t' : Topology K}
    (qkcs : ∀ id, e = (.qkc, id) → t'.qkcs id = t.qkcs id)
    (orrs : ∀ id, e = (.orr, id) → t'.orrs id = t.orrs id)
    (dkms : ∀ id, e = (.dkms, id) → t'.dkms id = t.dkms id) : t'.has e = t.has e := by
  obtain ⟨kind, id⟩ := e
  cases kind with
  | qkc => simp only [has, registered, qkcs id rfl]
  | orr => simp only [has, orrs id rfl]
  | dkms => simp only [has, dkms id rfl]

theorem update_elsewhere {α : Type*} {kind : Kind} {id : String} (elsewhere : e ≠ (kind, id))
    (f : String → Option α) (value : Option α) :
    ∀ other, e = (kind, other) → update f id value other = f other := by
  intro other same
  apply update_of_ne
  rintro rfl
  exact elsewhere same

theorem TopologyStore.announceOrr_unaccepted {reg : OrrAnnounce}
    (refused : (store.announceOrr reg).1.accepted = false) :
    (store.announceOrr reg).2.topology = store.topology := by
  unfold announceOrr mutate at refused ⊢
  by_cases known : store.topology.registered reg.qkcId
  · simp only [known] at refused ⊢
    generalize store.topology.upsertOrr _ = result at refused ⊢
    obtain ⟨r, t⟩ := result
    cases r
    · rfl
    · cases refused
    · cases refused
  · simp [known]

theorem TopologyStore.announceDkms_unaccepted {reg : DkmsAnnounce}
    (refused : (store.announceDkms reg).1.accepted = false) :
    (store.announceDkms reg).2.topology = store.topology := by
  unfold announceDkms mutate at refused ⊢
  by_cases many : maxSaesPerDkms < reg.saes.length
  · simp only [many, ↓reduceIte]
  simp only [many] at refused ⊢
  by_cases known : (store.topology.orrs reg.orrId).isNone
  · simp [known]
  simp only [known, Bool.false_eq_true, ↓reduceIte] at refused ⊢
  generalize store.topology.upsertDkms _ = result at refused ⊢
  obtain ⟨r, t⟩ := result
  cases r
  · rfl
  · dsimp only at refused
    split at refused <;> cases refused
  · dsimp only at refused
    split at refused <;> cases refused

variable [Field K] [LinearOrder K] (tenPow : K → K)

theorem TopologyStore.announce_has (announcement : Announcement K)
    (there : (store.announce tenPow announcement).2.topology.has e) : store.topology.has e ∨
      (store.announce tenPow announcement).1 ∧ e = announcement.entity := by
  by_cases sender : e = announcement.entity
  · cases accepted : (store.announce tenPow announcement).1 with
    | true => exact .inr ⟨rfl, sender⟩
    | false =>
      refine .inl ?_
      cases announcement with
      | qkc reg => cases accepted
      | orr reg => rwa [← announceOrr_unaccepted accepted]
      | dkms reg => rwa [← announceDkms_unaccepted accepted]
  refine .inl ?_
  cases announcement with
  | qkc reg =>
    let measured := (recordReports reg.id (reportsOf store.topology reg) store.measured).2
    have nodes := foldQkcAnnounce_sameNodes tenPow reg measured store.topology
    change (store.announceQkc tenPow reg).2.topology.has e at there
    unfold announceQkc mutate at there
    dsimp only at there
    split at there
    · rw [← there]
      symm
      apply has_congr
      · intro id same
        rw [nodes.qkcs]
        exact update_elsewhere sender _ _ id same
      · intro id _
        rw [nodes.orrs]
        rfl
      · intro id _
        rw [nodes.dkms]
        rfl
    · exact there
  | orr reg =>
    change (store.announceOrr reg).2.topology.has e at there
    rcases store.announceOrr_cases reg with same | ⟨-, placed⟩
    · rwa [← same]
    rw [placed] at there
    rw [← there]
    symm
    exact has_congr (fun _ _ => rfl) (update_elsewhere sender _ _) (fun _ _ => rfl)
  | dkms reg =>
    change (store.announceDkms reg).2.topology.has e at there
    rcases store.announceDkms_cases reg with same | ⟨orr, saes, -, -, -, placed⟩
    · rwa [← same]
    rw [placed] at there
    rw [← there]
    symm
    exact has_congr (fun _ _ => rfl) (fun _ _ => rfl) (update_elsewhere sender _ _)

omit [Field K] [LinearOrder K] in
theorem TopologyStore.expire_has {gone : Entity} (there : (store.expire gone).topology.has e) :
    e ≠ gone ∧ store.topology.has e := by
  -- one goal for each kind: the deletion found nobody, or it updated one of the three maps
  have leaves : ∀ t' : Topology K, t'.has gone = false →
      (e ≠ gone → t'.has e = store.topology.has e) → t'.has e → e ≠ gone ∧ store.topology.has e := by
    intro t' absent elsewhere here
    have other : e ≠ gone := by
      rintro rfl
      rw [absent] at here
      cases here
    exact ⟨other, by rwa [elsewhere other] at here⟩
  obtain ⟨kind, id⟩ := gone
  cases kind with
  | qkc =>
    change (store.deleteQkc id).2.topology.has e at there
    rcases store.deleteQkc_cases id with ⟨absent, same⟩ | removed
    · rw [same] at there
      exact leaves _ absent (fun _ => rfl) there
    rw [removed] at there
    refine leaves _ (by simp [has, registered, removeQkc]) ?_ there
    intro other
    exact has_congr (update_elsewhere other _ _) (fun _ _ => rfl) (fun _ _ => rfl)
  | orr =>
    change (store.deleteOrr id).2.topology.has e at there
    rcases store.deleteOrr_cases id with ⟨absent, same⟩ | ⟨orr, -, removed⟩
    · rw [same] at there
      exact leaves _ (by simp [has, absent]) (fun _ => rfl) there
    rw [removed] at there
    refine leaves _ (by simp [has]) ?_ there
    intro other
    exact has_congr (fun _ _ => rfl) (update_elsewhere other _ _) (fun _ _ => rfl)
  | dkms =>
    change (store.deleteDkms id).2.topology.has e at there
    rcases store.deleteDkms_cases id with ⟨absent, same⟩ | ⟨dkms, saes, -, removed⟩
    · rw [same] at there
      exact leaves _ (by simp [has, absent]) (fun _ => rfl) there
    rw [removed] at there
    refine leaves _ (by simp [has]) ?_ there
    intro other
    exact has_congr (fun _ _ => rfl) (fun _ _ => rfl) (update_elsewhere other _ _)

end Has

section Invariant

variable [Field K] [LinearOrder K] (tenPow : K → K) (ttl : Nat)

/-- Whoever has been announced and is in the topology is in the presence table, or a handler is
about to put it there, or a sweep is about to delete it. -/
def Service.Watched (s : Service K) : Prop :=
  ∀ e ∈ s.announced, s.store.topology.has e → (s.seen e).isSome ∨ e ∈ s.touching ∨ e ∈ s.sweep.pending

theorem Service.Watched.next {s : Service K} (watched : s.Watched) (step : Step K) :
    (s.next tenPow ttl step).Watched := by
  cases step with
  | announce announcement =>
    have brought := fun e => s.store.announce_has (e := e) tenPow announcement
    unfold Service.next
    dsimp only
    split
    · intro e announced there
      by_cases sender : e = announcement.entity
      · exact .inr (.inl (by simp [sender]))
      have before : e ∈ s.announced := by simpa [sender] using announced
      have known : s.store.topology.has e := by simpa [sender] using brought e there
      rcases watched e before known with seen | touching | pending
      · exact .inl seen
      · exact .inr (.inl (mem_cons_of_mem _ touching))
      · exact .inr (.inr pending)
    · rename_i refused
      intro e announced there
      have known : s.store.topology.has e := by simpa [refused] using brought e there
      exact watched e announced known
  | touch i now =>
    unfold Service.next
    dsimp only
    split
    · rename_i touched found
      intro e announced there
      by_cases same : e = touched
      · exact .inl (by simp [same])
      rcases watched e announced there with seen | touching | pending
      · exact .inl (by simpa [update_of_ne same] using seen)
      · refine .inr (.inl ?_)
        obtain ⟨j, here⟩ := mem_iff_getElem?.mp touching
        refine mem_eraseIdx_iff_getElem?.mpr ⟨j, ?_, here⟩
        rintro rfl
        rw [found] at here
        exact same (Option.some.inj here).symm
      · exact .inr (.inr pending)
    · exact watched
  | sweep now =>
    unfold Service.next
    dsimp only
    split
    · rename_i idle
      intro e announced there
      have before := watched e announced there
      rw [idle] at before
      exact before
    · exact watched
  | look e =>
    unfold Service.next
    dsimp only
    split
    · rename_i selecting
      split
      · intro e announced there
        have before := watched e announced there
        rw [selecting] at before
        exact before
      · exact watched
    · exact watched
  | selected =>
    unfold Service.next
    dsimp only
    split
    · rename_i selecting
      intro e announced there
      have before := watched e announced there
      rw [selecting] at before
      rcases before with seen | touching | pending
      · exact .inl seen
      · exact .inr (.inl touching)
      · cases pending
    · exact watched
  | remove =>
    unfold Service.next
    dsimp only
    split
    · rename_i gone removed rest removing
      intro e announced there
      have before := watched e announced there
      rw [removing] at before
      by_cases same : e = removed
      · exact .inr (.inr (by simp [Sweep.pending, same]))
      rcases before with seen | touching | pending
      · exact .inl (by simpa [update_of_ne same] using seen)
      · exact .inr (.inl touching)
      · exact .inr (.inr (by simpa [Sweep.pending] using pending))
    · rename_i gone removing
      intro e announced there
      have before := watched e announced there
      rw [removing] at before
      simpa [Sweep.pending] using before
    · exact watched
  | delete =>
    unfold Service.next
    dsimp only
    split
    · rename_i removed rest deleting
      intro e announced there
      obtain ⟨other, known⟩ := expire_has there
      have before := watched e announced known
      rw [deleting] at before
      simpa [Sweep.pending, other] using before
    · rename_i deleting
      intro e announced there
      have before := watched e announced there
      rw [deleting] at before
      exact before
    · exact watched

def Service.sweepAlone (s : Service K) (now : Nat) (keys : List Entity) : List (Step K) :=
  let n := (keys.filter (isStale ttl s.seen now)).length + 1
  [.sweep now] ++ keys.map .look ++ [.selected] ++ replicate n .remove ++ replicate n .delete

theorem looks {s : Service K} {now : Nat} {stale : List Entity} (keys : List Entity) :
    (keys.map Step.look).foldl (Service.next tenPow ttl) { s with sweep := .selecting now stale } =
      { s with sweep := .selecting now (stale ++ keys.filter (isStale ttl s.seen now)) } := by
  induction keys generalizing stale with
  | nil => simp
  | cons e keys ih =>
    rw [map_cons, foldl_cons]
    cases old : isStale ttl s.seen now e with
    | true =>
      have first : Service.next tenPow ttl { s with sweep := .selecting now stale } (.look e) =
          { s with sweep := .selecting now (stale ++ [e]) } := by
        simp [Service.next, old]
      rw [first, ih, filter_cons_of_pos old, append_assoc]
      rfl
    | false =>
      have first : Service.next tenPow ttl { s with sweep := .selecting now stale } (.look e) =
          { s with sweep := .selecting now stale } := by
        simp [Service.next, old]
      rw [first, ih, filter_cons_of_neg (by simp [old])]

theorem removes (s : Service K) (gone rest : List Entity) :
    ∃ seen, (replicate (rest.length + 1) Step.remove).foldl (Service.next tenPow ttl)
        { s with sweep := .removing gone rest } =
      { s with seen, sweep := .deleting (gone ++ rest) } := by
  induction rest generalizing s gone with
  | nil => exact ⟨s.seen, by simp [Service.next]⟩
  | cons e rest ih =>
    obtain ⟨seen, later⟩ := ih { s with seen := update s.seen e none } (gone ++ [e])
    refine ⟨seen, ?_⟩
    rw [append_assoc] at later
    exact later

theorem deletes (s : Service K) (rest : List Entity) :
    (replicate (rest.length + 1) Step.delete).foldl (Service.next tenPow ttl)
        { s with sweep := .deleting rest } =
      { s with store := rest.foldl expire s.store, sweep := .idle } := by
  induction rest generalizing s with
  | nil => rfl
  | cons e rest ih =>
    exact ih { s with store := s.store.expire e }

omit [Field K] [LinearOrder K] in
theorem expired_gone {store : TopologyStore K} {e : Entity} {rest : List Entity} (listed : e ∈ rest) :
    (rest.foldl expire store).topology.has e = false := by
  have stays : ∀ (rest : List Entity) (store : TopologyStore K), store.topology.has e = false →
      (rest.foldl expire store).topology.has e = false := by
    intro rest
    induction rest with
    | nil => exact fun _ absent => absent
    | cons other rest ih =>
      intro store absent
      apply ih
      by_contra there
      rw [Bool.not_eq_false] at there
      have known := (expire_has there).2
      rw [absent] at known
      cases known
  induction rest generalizing store with
  | nil => cases listed
  | cons first rest ih =>
    rcases mem_cons.mp listed with rfl | later
    · refine stays rest (store.expire e) ?_
      by_contra there
      rw [Bool.not_eq_false] at there
      exact (expire_has there).1 rfl
    · exact ih later

/-- Whatever the handlers and the sweeper do, once they are all done every announced entity of
the topology is in the presence table, and the next sweep that finds it silent for longer than
the TTL deletes it. -/
theorem no_immortal_entity (store : TopologyStore K) (steps : List (Step K)) :
    let s := steps.foldl (Service.next tenPow ttl) (.start store)
    s.touching = [] → s.sweep = .idle → ∀ e ∈ s.announced, s.store.topology.has e →
      ∃ heard, s.seen e = some heard ∧ ∀ now keys, e ∈ keys → ttl < now - heard →
        let after := (s.sweepAlone ttl now keys).foldl (Service.next tenPow ttl) s
        after.sweep = .idle ∧ after.store.topology.has e = false := by
  intro s touched idle e announced there
  have watched : s.Watched := by
    have keeps : ∀ (s : Service K) step, s.Watched → True → (s.next tenPow ttl step).Watched :=
      fun _ step watched _ => watched.next tenPow ttl step
    exact (Follows.all _ steps).invariant keeps (fun _ member => nomatch member)
  have seen : (s.seen e).isSome := by
    have places := watched e announced there
    rw [touched, idle] at places
    simpa [Sweep.pending] using places
  obtain ⟨heard, found⟩ := Option.isSome_iff_exists.mp seen
  refine ⟨heard, found, ?_⟩
  intro now keys listed silent
  have stale : e ∈ keys.filter (isStale ttl s.seen now) := by
    rw [mem_filter]
    exact ⟨listed, by simp [isStale, found, silent]⟩
  have solo : ∃ seen, (s.sweepAlone ttl now keys).foldl (Service.next tenPow ttl) s =
      { s with
        seen
        store := (keys.filter (isStale ttl s.seen now)).foldl TopologyStore.expire s.store
        sweep := .idle } := by
    have begun : s.next tenPow ttl (.sweep now) = { s with sweep := .selecting now [] } := by
      unfold Service.next
      rw [idle]
    obtain ⟨seen, removed⟩ := removes tenPow ttl s [] (keys.filter (isStale ttl s.seen now))
    refine ⟨seen, ?_⟩
    have selected : Service.next tenPow ttl
        { s with sweep := .selecting now ([] ++ keys.filter (isStale ttl s.seen now)) } .selected =
        { s with sweep := .removing [] (keys.filter (isStale ttl s.seen now)) } := rfl
    unfold Service.sweepAlone
    simp only [foldl_append, foldl_cons, foldl_nil]
    rw [begun, looks, selected, removed]
    exact deletes tenPow ttl { s with seen } _
  obtain ⟨seen', ended⟩ := solo
  rw [ended]
  exact ⟨rfl, expired_gone stale⟩

end Invariant

/-- A QKC announces itself, goes silent, comes back in the middle of the sweep that takes it for
dead, and announces itself once more. -/
def returning : List (Step ℚ) :=
  let back := Step.announce (.qkc ⟨"1", host, none, []⟩)
  [back, .touch 0 5, .sweep 100, .look (.qkc, "1"), back, .selected, .touch 0 100, .remove,
    .remove, .delete, .delete, back, .touch 0 101]

theorem no_immortal_entity_returning :
    let s := returning.foldl (Service.next wholeTenPow 90) (.start .empty)
    s.store.topology.has (.qkc, "1") ∧
      ∃ heard, s.seen (.qkc, "1") = some heard ∧
        ∀ now keys, (.qkc, "1") ∈ keys → 90 < now - heard →
          let after := (s.sweepAlone 90 now keys).foldl (Service.next wholeTenPow 90) s
          after.sweep = .idle ∧ after.store.topology.has (.qkc, "1") = false :=
  ⟨by decide +kernel, no_immortal_entity wholeTenPow 90 .empty returning (by decide +kernel) rfl
    (.qkc, "1") (by decide +kernel) (by decide +kernel)⟩

end Dkms.Sdn
