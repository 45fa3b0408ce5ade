import Dkms.Sdn.Anchors
import Dkms.Sdn.HttpApi

namespace Dkms.Sdn

open List Function Dkms.Sdn.Topology TopologyStore
open Std (ExtTreeMap)

variable {K : Type*}

section Rest

variable {t : Topology K} {d : Draft K} {me other : String}

theorem Topology.insertNeighbor_of_adjacent {a b : String} (adjacent : t.adjacent a b) :
    t.insertNeighbor a b = t := by
  unfold Topology.adjacent at adjacent
  unfold insertNeighbor
  cases here : t.graph a with
  | none => simp [here] at adjacent
  | some adj =>
    have member : b ∈ adj := by simpa [here] using adjacent
    have same : update t.graph a (some (insert b adj)) = t.graph := by
      rw [Finset.insert_eq_self.mpr member, ← here]
      exact update_eq_self a t.graph
    simp [same]

theorem EdgeMeta.eq_of_declaredPart {link m : EdgeMeta K}
    (same : link.declaredPart = m.declaredPart) :
    { m with measuredKeysPerS := link.measuredKeysPerS } = link := by
  unfold declaredPart at same
  obtain ⟨_, _, _, _, _, _, _, _⟩ := link
  obtain ⟨_, _, _, _, _, _, _, _⟩ := m
  simp_all

variable [DecidableEq K]

theorem Draft.placeEdge_edgesRemoved (d : Draft K) (link : EdgeMeta K) :
    (d.placeEdge me other link).2.out.edgesRemoved = d.out.edgesRemoved := by
  unfold placeEdge
  dsimp only
  split
  · rfl
  · split <;> split <;> rfl

def Draft.Calm (d : Draft K) (result : Bool × Draft K) : Prop :=
  result.1 = false ∧ result.2.topology = d.topology ∧ result.2.out.edgesRemoved = d.out.edgesRemoved

theorem Draft.placeEdge_calm {link : EdgeMeta K} (distinct : me ≠ other)
    (m : d.topology.Mirrored) (settled : d.topology.Settled me other)
    (some_end : (d.topology.declaration me other).isSome ∨ (d.topology.declaration other me).isSome)
    (agreed : d.topology.registered me → d.topology.registered other →
      d.topology.Agreed me other link) : d.Calm (d.placeEdge me other link) := by
  by_cases both : d.topology.registered me ∧ d.topology.registered other
  · have there : (d.topology.edge me other).isSome := settled.linked.mpr ⟨both.1, both.2, some_end⟩
    obtain ⟨existing, found⟩ := Option.isSome_iff_exists.mp there
    have same : d.topology.edge me other = some (d.topology.keepMeasured me other link) := by
      have parts := settled.agreed existing found link (agreed both.1 both.2)
      unfold keepMeasured
      rw [found]
      exact congrArg some (EdgeMeta.eq_of_declaredPart parts).symm
    have adjacent := m.adjacent me other distinct
    have back := m.adjacent other me distinct.symm
    rw [edge_comm, there] at back
    rw [there] at adjacent
    obtain ⟨flag, topology⟩ := placeEdge_same link both.1 both.2 same
    refine ⟨?_, ?_, placeEdge_edgesRemoved d link⟩
    · rw [flag, adjacent]; rfl
    · rw [topology, insertNeighbor_of_adjacent adjacent, insertNeighbor_of_adjacent back]
  · obtain ⟨flag, topology⟩ := placeEdge_pending link both
    exact ⟨flag, topology, placeEdge_edgesRemoved d link⟩

theorem Draft.recomputeEdge_calm (distinct : me ≠ other) (m : d.topology.Mirrored)
    (settled : d.topology.Settled me other) (some_end : (d.topology.declaration me other).isSome ∨
      (d.topology.declaration other me).isSome) : d.Calm (d.recomputeEdge me other) := by
  unfold recomputeEdge
  dsimp only
  split
  · rename_i mine theirs
    simp [mine, theirs] at some_end
  · rename_i link mine theirs
    exact placeEdge_calm distinct m settled some_end fun _ _ => .inr (.inl ⟨mine, theirs⟩)
  · rename_i link mine theirs
    exact placeEdge_calm distinct m settled some_end fun _ _ => .inr (.inr ⟨mine, theirs⟩)
  rename_i here there mine theirs
  split
  · rename_i same
    exact placeEdge_calm distinct m settled some_end fun _ _ => .inl ⟨mine, same ▸ theirs⟩
  split
  · exact ⟨rfl, rfl, rfl⟩
  rename_i absent
  -- without an edge the pair is not linked, so one end is not registered
  exact placeEdge_calm
    (d := { d with out := { d.out with edgesConflict := d.out.edgesConflict ++ [other] } })
    distinct m settled some_end fun me_ other_ => by
      have linked := settled.linked.mpr ⟨me_, other_, some_end⟩
      simp [absent] at linked

theorem Draft.recomputeEdges_calm {others : List String} {d : Draft K} (m : d.topology.Mirrored)
    (each : ∀ other ∈ others, me ≠ other ∧ d.topology.Settled me other ∧
      ((d.topology.declaration me other).isSome ∨ (d.topology.declaration other me).isSome)) :
    d.Calm (recomputeEdges me others d) := by
  induction others generalizing d with
  | nil => exact ⟨rfl, rfl, rfl⟩
  | cons other others ih =>
    obtain ⟨distinct, settled, some_end⟩ := each other mem_cons_self
    obtain ⟨flag, topology, removed⟩ := recomputeEdge_calm distinct m settled some_end
    have later := ih (d := (d.recomputeEdge me other).2) (by rw [topology]; exact m) (by
      intro o member
      rw [topology]
      exact each o (mem_cons_of_mem _ member))
    refine ⟨?_, later.2.1.trans topology, later.2.2.trans removed⟩
    unfold recomputeEdges
    dsimp only
    rw [flag, later.1]
    rfl

end Rest

section Hysteresis

variable [Field K] [LinearOrder K] (tenPow : K → K)

def Topology.Quiet (t : Topology K) (a b : String) (kps : Option K) : Prop :=
  (t.edge a b).bind (EdgeMeta.adjusted tenPow kps) = none

variable {t : Topology K} {a b id : String} {kps : Option K} {measured : List (String × Option K)}

theorem Topology.applyMeasuredCapacity_of_quiet (quiet : t.Quiet tenPow a b kps)
    : t.applyMeasuredCapacity tenPow a b kps = (false, t) := by
  rw [applyMeasuredCapacity, quiet]

theorem Topology.quiet_of_flag (flag : (t.applyMeasuredCapacity tenPow a b kps).1 = false)
    : t.Quiet tenPow a b kps := by
  rw [applyMeasuredCapacity] at flag
  unfold Quiet
  cases here : (t.edge a b).bind (EdgeMeta.adjusted tenPow kps) with
  | none => rfl
  | some link => rw [here] at flag; cases flag

theorem Topology.applyMeasuredCapacity_elsewhere {x y : String} (kps : Option K)
    (elsewhere : edgeKey x y ≠ edgeKey a b) :
    (t.applyMeasuredCapacity tenPow a b kps).2.edge x y = t.edge x y := by
  rw [applyMeasuredCapacity]
  split
  · rfl
  · exact update_of_ne elsewhere _ _

theorem Topology.applyMeasured_elsewhere {x y : String}
    (elsewhere : ∀ p ∈ measured, edgeKey x y ≠ edgeKey id p.1) :
    (t.applyMeasured tenPow id measured).2.edge x y = t.edge x y := by
  induction measured generalizing t with
  | nil => rfl
  | cons p measured ih =>
    have later := ih (t := (t.applyMeasuredCapacity tenPow id p.1 p.2).2)
      fun p' member => elsewhere p' (mem_cons_of_mem _ member)
    exact later.trans (applyMeasuredCapacity_elsewhere tenPow p.2 (elsewhere p mem_cons_self))

theorem Topology.applyMeasured_of_quiet (quiet : ∀ p ∈ measured, t.Quiet tenPow id p.1 p.2) :
    t.applyMeasured tenPow id measured = (false, t) := by
  induction measured with
  | nil => rfl
  | cons p measured ih =>
    have first := applyMeasuredCapacity_of_quiet tenPow (quiet p mem_cons_self)
    unfold applyMeasured
    dsimp only
    rw [first, ih fun p' member => quiet p' (mem_cons_of_mem _ member)]
    rfl

theorem Topology.applyMeasured_of_flag (flag : (t.applyMeasured tenPow id measured).1 = false) :
    (t.applyMeasured tenPow id measured).2 = t := by
  induction measured generalizing t with
  | nil => rfl
  | cons p measured ih =>
    unfold applyMeasured at flag ⊢
    rw [Bool.or_eq_false_iff] at flag
    have first := applyMeasuredCapacity_of_quiet tenPow (quiet_of_flag tenPow flag.1)
    rw [first] at flag ⊢
    exact ih flag.2

theorem edgeKey_right {n n' : String} (same : edgeKey id n = edgeKey id n') : n = n' := by
  rcases edgeKey_eq_iff.mp same with ⟨-, here⟩ | ⟨here, there⟩
  · exact here
  · rw [there, here]

variable [IsStrictOrderedRing K]

theorem EdgeMeta.adjusted_again {link link' : EdgeMeta K}
    (bounded : ∀ m ∈ kps, m ≤ maxCapacityKeysPerS) (changed : link.adjusted tenPow kps = some link')
    : link'.adjusted tenPow kps = none := by
  cases kps with
  | none => rfl
  | some m =>
    unfold adjusted at changed
    dsimp only at changed
    split at changed
    · cases changed
    rename_i nonneg
    split at changed
    · cases changed
    rename_i qkd
    split at changed
    · cases changed
    cases changed
    -- the measured rate is the capacity now
    have capacity : ({ link with measuredKeysPerS := some m } : EdgeMeta K).capacityKeysPerSecond
        tenPow = m := by
      have kind : ({ link with measuredKeysPerS := some m } : EdgeMeta K).isPqc = false := by
        simpa [isPqc] using qkd
      unfold capacityKeysPerSecond
      rw [kind]
      dsimp only
      rw [if_neg (by decide), min_eq_left (bounded m rfl), max_eq_right (not_lt.mp nonneg)]
    unfold adjusted
    dsimp only
    rw [capacity, if_neg nonneg]
    split
    · rfl
    · have half : (0 : K) < 0.5 := by norm_num
      rw [sub_self, abs_zero, if_pos (lt_max_of_lt_right half)]

theorem Topology.applyMeasuredCapacity_quiet (t : Topology K) (a b : String)
    (bounded : ∀ m ∈ kps, m ≤ maxCapacityKeysPerS) :
    (t.applyMeasuredCapacity tenPow a b kps).2.Quiet tenPow a b kps := by
  rw [applyMeasuredCapacity]
  cases here : (t.edge a b).bind (EdgeMeta.adjusted tenPow kps) with
  | none => exact here
  | some link' =>
    obtain ⟨link, -, changed⟩ := Option.bind_eq_some_iff.mp here
    have edge : ({ t with edges := update t.edges (edgeKey a b) (some link') } :
        Topology K).edge a b = some link' := update_self ..
    unfold Quiet
    rw [edge]
    exact EdgeMeta.adjusted_again tenPow bounded changed

theorem Topology.applyMeasured_quiet (id : String) (distinct : (measured.map Prod.fst).Nodup)
    (bounded : ∀ p ∈ measured, ∀ m ∈ p.2, m ≤ maxCapacityKeysPerS) :
    ∀ p ∈ measured, (t.applyMeasured tenPow id measured).2.Quiet tenPow id p.1 p.2 := by
  induction measured generalizing t with
  | nil => simp
  | cons p measured ih =>
    obtain ⟨fresh, rest⟩ := nodup_cons.mp distinct
    intro p' member
    change ((t.applyMeasuredCapacity tenPow id p.1 p.2).2.applyMeasured tenPow id
      measured).2.Quiet tenPow id p'.1 p'.2
    rcases mem_cons.mp member with rfl | member
    · have elsewhere : ∀ p ∈ measured, edgeKey id p'.1 ≠ edgeKey id p.1 := by
        intro p listed same
        apply fresh
        rw [edgeKey_right same]
        exact mem_map_of_mem listed
      unfold Quiet
      rw [applyMeasured_elsewhere tenPow elsewhere]
      exact applyMeasuredCapacity_quiet tenPow t id p'.1 (bounded p' mem_cons_self)
    · exact ih rest (fun p'' listed => bounded p'' (mem_cons_of_mem _ listed)) p' member

end Hysteresis

section Reports

variable [LinearOrder K] {rates : MeasuredRates K}

def rateOf (report : String × K × Option String) : EndpointRate K :=
  ⟨report.2.1, report.2.2.getD "measured"⟩

theorem MeasuredRates.combined_congr {rates' : MeasuredRates K} {a b : String}
    (same : rates'.byEdge (edgeKey a b) = rates.byEdge (edgeKey a b)) :
    rates'.combined a b = rates.combined a b := by
  unfold combined
  rw [same]

theorem MeasuredRates.combined_key {a b x y : String} (same : edgeKey a b = edgeKey x y) :
    rates.combined a b = rates.combined x y := by
  unfold combined
  rw [same]

variable {reports : List (String × K × Option String)}

variable {id : String}

theorem recordReports_elsewhere (rates : MeasuredRates K) {key : EdgeKey}
    (elsewhere : ∀ r ∈ reports, edgeKey id r.1 ≠ key) :
    (recordReports id reports rates).1.byEdge key = rates.byEdge key := by
  induction reports generalizing rates with
  | nil => rfl
  | cons r reports ih =>
    have later := ih (rates.record id r.1 r.2.1 r.2.2).2
      fun r' member => elsewhere r' (mem_cons_of_mem _ member)
    refine later.trans ?_
    exact update_of_ne (elsewhere r mem_cons_self).symm _ _

theorem recordReports_byEdge (rates : MeasuredRates K) (distinct : (reports.map Prod.fst).Nodup) :
    ∀ r ∈ reports, (recordReports id reports rates).1.byEdge (edgeKey id r.1) =
      (rates.byEdge (edgeKey id r.1)).insert id (rateOf r) := by
  induction reports generalizing rates with
  | nil => simp
  | cons r reports ih =>
    obtain ⟨fresh, rest⟩ := nodup_cons.mp distinct
    intro r' member
    change (recordReports id reports (rates.record id r.1 r.2.1 r.2.2).2).1.byEdge _ = _
    rcases mem_cons.mp member with rfl | member
    · rw [recordReports_elsewhere]
      · exact update_self ..
      intro r'' listed same
      apply fresh
      rw [← edgeKey_right same]
      exact mem_map_of_mem listed
    rw [ih (rates.record id r.1 r.2.1 r.2.2).2 rest r' member]
    have other : edgeKey id r'.1 ≠ edgeKey id r.1 := by
      intro same
      apply fresh
      rw [← edgeKey_right same]
      exact mem_map_of_mem member
    have kept : (rates.record id r.1 r.2.1 r.2.2).2.byEdge (edgeKey id r'.1) =
        rates.byEdge (edgeKey id r'.1) := update_of_ne other _ _
    rw [kept]

theorem recordReports_measured (id : String) (rates : MeasuredRates K)
    (distinct : (reports.map Prod.fst).Nodup) : (recordReports id reports rates).2 =
      reports.map fun r => (r.1, (recordReports id reports rates).1.combined id r.1) := by
  induction reports generalizing rates with
  | nil => rfl
  | cons r reports ih =>
    obtain ⟨fresh, rest⟩ := nodup_cons.mp distinct
    have later := ih (rates.record id r.1 r.2.1 r.2.2).2 rest
    change (r.1, (rates.record id r.1 r.2.1 r.2.2).2.combined id r.1) ::
      (recordReports id reports (rates.record id r.1 r.2.1 r.2.2).2).2 = _
    rw [later]
    refine congrArg₂ cons (congrArg (Prod.mk r.1) ?_) rfl
    symm
    apply MeasuredRates.combined_congr
    change (recordReports id reports (rates.record id r.1 r.2.1 r.2.2).2).1.byEdge _ = _
    apply recordReports_elsewhere
    intro r' listed same
    apply fresh
    rw [← edgeKey_right same]
    exact mem_map_of_mem listed

theorem recordReports_known {rates : MeasuredRates K} (distinct : (reports.map Prod.fst).Nodup)
    (known : ∀ r ∈ reports, (rates.byEdge (edgeKey id r.1))[id]? = some (rateOf r)) :
    (recordReports id reports rates).1 = rates := by
  have same : (recordReports id reports rates).1.byEdge = rates.byEdge := by
    funext key
    by_cases reported : ∃ r ∈ reports, edgeKey id r.1 = key
    · obtain ⟨r, member, rfl⟩ := reported
      rw [recordReports_byEdge rates distinct r member]
      apply ExtTreeMap.ext_getElem?
      intro reporter
      rw [ExtTreeMap.getElem?_insert]
      split
      · rename_i here
        rw [Std.compare_eq_iff_eq] at here
        rw [← here, known r member]
      · rfl
    · apply recordReports_elsewhere
      intro r member same
      exact reported ⟨r, member, same⟩
  cases result : (recordReports id reports rates).1
  cases rates
  rw [result] at same
  exact congrArg MeasuredRates.mk same

def MeasuredRates.Bounded [NatCast K] (rates : MeasuredRates K) : Prop :=
  ∀ (key : EdgeKey) (id : String) (rate : EndpointRate K), (rates.byEdge key)[id]? = some rate →
    rate.keysPerS ≤ maxCapacityKeysPerS

theorem MeasuredRates.Bounded.combined [NatCast K] (bounded : rates.Bounded) (a b : String) :
    ∀ m ∈ rates.combined a b, m ≤ maxCapacityKeysPerS := by
  intro m least
  have member := min?_mem least
  obtain ⟨rate, listed, rfl⟩ := mem_map.mp member
  obtain ⟨⟨id, _⟩, entry, rfl⟩ := mem_map.mp (mem_of_mem_filter listed)
  exact bounded _ id _ (ExtTreeMap.mem_toList_iff_getElem?_eq_some.mp entry)

theorem MeasuredRates.Bounded.record [NatCast K] (bounded : rates.Bounded) (id : String)
    (reported : ∀ r ∈ reports, r.2.1 ≤ maxCapacityKeysPerS) :
    (recordReports id reports rates).1.Bounded := by
  induction reports generalizing rates with
  | nil => exact bounded
  | cons r reports ih =>
    apply ih
    · intro key reporter rate found
      change (update rates.byEdge (edgeKey id r.1) _ key)[reporter]? = some rate at found
      rw [update_apply] at found
      split at found
      · rw [ExtTreeMap.getElem?_insert] at found
        split at found
        · cases found
          exact reported r mem_cons_self
        · exact bounded _ reporter rate found
      · exact bounded key reporter rate found
    · intro r' member
      exact reported r' (mem_cons_of_mem _ member)

end Reports

section Announce

variable [Field K] [LinearOrder K] (tenPow : K → K) {t : Topology K}
  {last : String → Option (QkcAnnounce K)} {reg : QkcAnnounce K}

omit [Field K] [LinearOrder K] in
theorem Topology.heard_of_known (known : t.qkcs reg.id = some (t.announcedQkc reg))
    (declared : t.declared[reg.id]? = some (declaredLinks reg)) :
    t.heard reg = { t with
      graph := update t.graph reg.id (some ((t.graph reg.id).getD ∅)) } := by
  have qkcs : update t.qkcs reg.id (some (t.announcedQkc reg)) = t.qkcs := by
    rw [← known]
    exact update_eq_self _ _
  have said : t.declared.insert reg.id (declaredLinks reg) = t.declared := by
    apply ExtTreeMap.ext_getElem?
    intro id
    rw [ExtTreeMap.getElem?_insert]
    split
    · rename_i here
      rw [Std.compare_eq_iff_eq] at here
      rw [← here, declared]
    · rfl
  unfold heard
  rw [said]
  unfold upsertQkc
  change ({ t with qkcs := update t.qkcs reg.id _, graph := _ } : Topology K) = _
  rw [qkcs]
  rfl

theorem foldQkcAnnounce_repeated (measured : List (String × Option K)) (r : Reflects t last)
    (known : t.qkcs reg.id = some (t.announcedQkc reg)) (repeated : last reg.id = some reg) :
    (foldQkcAnnounce tenPow reg measured t).1 =
        ((t.heard reg).applyMeasured tenPow reg.id measured).1 ∧
      (foldQkcAnnounce tenPow reg measured t).2.1 = ((t.heard reg).applyMeasured tenPow reg.id measured).2 ∧
      (foldQkcAnnounce tenPow reg measured t).2.2.edgesRemoved = [] := by
  have declared : t.declared[reg.id]? = some (declaredLinks reg) := by
    rw [r.declared, repeated]
    rfl
  have shape := heard_of_known known declared
  have edited := r.mirrored.upsertQkc (t.announcedQkc reg)
  have mirrored : (t.heard reg).Mirrored := ⟨edited.adjacent, edited.registered, edited.keys⟩
  have settled : ∀ a b, a ≠ b → (t.heard reg).Settled a b := by
    intro a b distinct
    rw [shape]
    exact (r.settled a b distinct).of_same rfl rfl rfl rfl rfl
  let out : QkcAnnounceOutcome := ⟨reg.id, false, [], [], [], []⟩
  let others := ((((t.declared[reg.id]?).getD ∅).keys ++ (declaredLinks reg).keys).filter
    (· ≠ reg.id)).eraseDups
  -- every neighbour of the list is declared by the announcer
  have applied : (Draft.mk (t.heard reg) out).Calm
      (Draft.recomputeEdges reg.id others ⟨t.heard reg, out⟩) := by
    apply Draft.recomputeEdges_calm mirrored
    intro other listed
    have member : other ∈ declaredLinks reg ∧ other ≠ reg.id := by
      simpa [others, declared] using listed
    refine ⟨member.2.symm, settled _ _ member.2.symm, .inl ?_⟩
    unfold declaration
    rw [heard_declared, if_pos rfl]
    exact ExtTreeMap.mem_iff_isSome_getElem?.mp member.1
  let first := (Draft.recomputeEdges reg.id others ⟨t.heard reg, out⟩).2
  have topology : first.topology = t.heard reg := applied.2.1
  have closed : first.Calm (first.closeDeclarationsPointingAt reg.id) := by
    apply Draft.recomputeEdges_calm
    · rw [topology]; exact mirrored
    intro other listed
    rw [topology] at listed ⊢
    obtain ⟨ne, said, -⟩ := Draft.mem_declarersOf.mp listed
    exact ⟨ne.symm, settled _ _ ne.symm, .inr said⟩
  have final : (first.closeDeclarationsPointingAt reg.id).2.topology = t.heard reg :=
    closed.2.1.trans topology
  have folded : foldQkcAnnounce tenPow reg measured t =
      (decide (t.qkcs reg.id ≠ some (t.announcedQkc reg)) ||
          (decide ((t.declared[reg.id]?).getD ∅ ≠ declaredLinks reg) ||
            (Draft.recomputeEdges reg.id others ⟨t.heard reg, out⟩).1) ||
          (first.closeDeclarationsPointingAt reg.id).1 ||
          ((first.closeDeclarationsPointingAt reg.id).2.topology.applyMeasured tenPow reg.id measured).1,
        ((first.closeDeclarationsPointingAt reg.id).2.topology.applyMeasured tenPow reg.id measured).2,
        (first.closeDeclarationsPointingAt reg.id).2.out) := rfl
  rw [folded, final, applied.1, closed.1, known, declared]
  refine ⟨by simp, rfl, ?_⟩
  exact closed.2.2.trans applied.2.2

variable {store : TopologyStore K}

theorem TopologyStore.announceQkc_repeated (r : Reflects store.topology last)
    (known : store.topology.qkcs reg.id = some (store.topology.announcedQkc reg))
    (repeated : last reg.id = some reg) : (store.announceQkc tenPow reg).2.measured =
        (recordReports reg.id (reportsOf store.topology reg) store.measured).1 ∧
      (store.announceQkc tenPow reg).2.topology.qkcs = store.topology.qkcs ∧
      (store.announceQkc tenPow reg).2.topology.edges =
        ((store.topology.heard reg).applyMeasured tenPow reg.id
          (recordReports reg.id (reportsOf store.topology reg) store.measured).2).2.edges ∧
      (((store.topology.heard reg).applyMeasured tenPow reg.id
          (recordReports reg.id (reportsOf store.topology reg) store.measured).2).1 = false →
        (store.announceQkc tenPow reg).2.topology = store.topology) := by
  obtain ⟨flag, topology, removed⟩ := foldQkcAnnounce_repeated tenPow
    (recordReports reg.id (reportsOf store.topology reg) store.measured).2 r known repeated
  have nodes := foldQkcAnnounce_sameNodes tenPow reg
    (recordReports reg.id (reportsOf store.topology reg) store.measured).2 store.topology
  have qkcs : (store.topology.heard reg).qkcs = store.topology.qkcs := by
    change update store.topology.qkcs reg.id _ = _
    rw [← known]
    exact update_eq_self _ _
  unfold announceQkc mutate
  dsimp only
  cases changed : (foldQkcAnnounce tenPow reg
      (recordReports reg.id (reportsOf store.topology reg) store.measured).2 store.topology).1 with
  | true =>
    rw [if_pos rfl, removed]
    have edges := congrArg edges topology
    refine ⟨rfl, nodes.qkcs.trans qkcs, edges, ?_⟩
    intro same
    rw [same, changed] at flag
    cases flag
  | false =>
    rw [if_neg (by decide), removed]
    rw [changed] at flag
    refine ⟨rfl, rfl, ?_, fun _ => rfl⟩
    rw [applyMeasured_of_flag tenPow flag.symm]
    rfl

end Announce

section Fleet

variable [Field K] [LinearOrder K] (tenPow : K → K)

variable {reg : QkcAnnounce K}

theorem mem_reportsOf {t : Topology K} {r : String × K × Option String}
    (listed : r ∈ reportsOf t reg) :
    ∃ l ∈ reg.links, l.neighborId = r.1 ∧ l.measuredRateKeysPerS = some r.2.1 := by
  obtain ⟨l, member, reported⟩ := mem_filterMap.mp listed
  refine ⟨l, mem_of_mem_filter member, ?_⟩
  cases measured : l.measuredRateKeysPerS with
  | none => simp [measured] at reported
  | some kps =>
    rw [measured] at reported
    dsimp only [Option.bind_some] at reported
    split at reported
    · cases reported
    · cases reported
      exact ⟨rfl, rfl⟩

theorem reportsOf_nodup (distinct : (reg.links.map (·.neighborId)).Nodup)
    (t : Topology K) : ((reportsOf t reg).map Prod.fst).Nodup := by
  have sub : ∀ links : List (QkcLinkAnnounce K),
      ((links.filterMap fun l => l.measuredRateKeysPerS.bind fun kps =>
        if kps < 0 then none else some (l.neighborId, kps, l.measuredQuality)).map Prod.fst).Sublist
      (links.map (·.neighborId)) := by
    intro links
    induction links with
    | nil => exact .slnil
    | cons l links ih =>
      rw [filterMap_cons]
      split
      · exact ih.cons _
      rename_i reported
      cases measured : l.measuredRateKeysPerS with
      | none => simp [measured] at reported
      | some kps =>
        rw [measured] at reported
        dsimp only [Option.bind_some] at reported
        split at reported
        · cases reported
        · cases reported
          exact ih.cons_cons _
  apply Nodup.sublist (sub _)
  exact distinct.sublist (filter_sublist.map _)

theorem reportsOf_congr {t t' : Topology K} (same : t'.qkcs = t.qkcs) (reg : QkcAnnounce K) :
    reportsOf t' reg = reportsOf t reg := by
  unfold reportsOf registered
  rw [same]

structure Fleet (K : Type*) [Field K] [LinearOrder K] where
  rules : TextRules K
  regs : List (QkcAnnounce K)
  ids : (regs.map (·.id)).Nodup
  valid : ∀ reg ∈ regs, validateQkcAnnounce rules reg = .ok ()
  neighbors : ∀ reg ∈ regs, (reg.links.map (·.neighborId)).Nodup

variable {fleet : Fleet K}

theorem Fleet.eq_of_id {reg reg' : QkcAnnounce K} (here : reg ∈ fleet.regs)
    (there : reg' ∈ fleet.regs) (same : reg.id = reg'.id) : reg = reg' :=
  inj_on_of_nodup_map fleet.ids here there same

theorem Fleet.bounded {t : Topology K} (member : reg ∈ fleet.regs) :
    ∀ r ∈ reportsOf t reg, r.2.1 ≤ maxCapacityKeysPerS := by
  intro r listed
  obtain ⟨l, link, -, measured⟩ := mem_reportsOf listed
  exact (validateQkcAnnounce_measured fleet.rules (fleet.valid reg member) l link _ measured).2

structure Fleet.Known (fleet : Fleet K) (store : TopologyStore K) : Prop where
  qkcs : ∀ reg ∈ fleet.regs, ∀ q, store.topology.qkcs reg.id = some q → q = store.topology.announcedQkc reg
  bounded : store.measured.Bounded

theorem MeasuredRates.Bounded.forget {rates : MeasuredRates K} (bounded : rates.Bounded)
    (id : String) (others : List String) :
    (others.foldl (fun rates n => rates.forgetEdge id n) rates).Bounded := by
  induction others generalizing rates with
  | nil => exact bounded
  | cons other others ih =>
    apply ih
    intro key reporter rate found
    change (update rates.byEdge (edgeKey id other) ∅ key)[reporter]? = some rate at found
    rw [update_apply] at found
    split at found
    · simp at found
    · exact bounded key reporter rate found

theorem Fleet.Known.announce {store : TopologyStore K} (known : fleet.Known store)
    (member : reg ∈ fleet.regs) : fleet.Known (store.announceQkc tenPow reg).2 := by
  let measured := (recordReports reg.id (reportsOf store.topology reg) store.measured).2
  have nodes := (foldQkcAnnounce_sameNodes tenPow reg measured store.topology).qkcs
  have qkcs : (store.announceQkc tenPow reg).2.topology.qkcs = store.topology.qkcs ∨
      (store.announceQkc tenPow reg).2.topology.qkcs =
        update store.topology.qkcs reg.id (some (store.topology.announcedQkc reg)) := by
    unfold announceQkc mutate
    dsimp only
    split
    · exact .inr nodes
    · exact .inl rfl
  constructor
  · intro other listed q found
    unfold announcedQkc
    rcases qkcs with same | updated
    · rw [same] at found ⊢
      exact known.qkcs other listed q found
    rw [updated] at found ⊢
    rw [update_apply] at found ⊢
    split at found
    · rename_i here
      rw [if_pos here]
      have whole := Fleet.eq_of_id listed member here
      subst whole
      cases found
      rfl
    · rename_i elsewhere
      rw [if_neg elsewhere]
      exact known.qkcs other listed q found
  · apply MeasuredRates.Bounded.forget
    exact known.bounded.record reg.id (Fleet.bounded member)

/-- The store once all of the fleet are registered: what `sent` have reported since then stands
in the table, and has been applied. -/
structure Fleet.Level (fleet : Fleet K) (last : String → Option (QkcAnnounce K))
    (store : TopologyStore K) (sent : List (QkcAnnounce K)) : Prop where
  reflects : Reflects store.topology last
  repeated : ∀ reg ∈ fleet.regs, last reg.id = some reg
  known : fleet.Known store
  recorded : ∀ reg ∈ sent, ∀ r ∈ reportsOf store.topology reg,
    (store.measured.byEdge (edgeKey reg.id r.1))[reg.id]? = some (rateOf r)
  quiet : ∀ reg ∈ sent, ∀ r ∈ reportsOf store.topology reg,
    store.topology.Quiet tenPow reg.id r.1 (store.measured.combined reg.id r.1)

variable {last : String → Option (QkcAnnounce K)} {store : TopologyStore K}
  {sent : List (QkcAnnounce K)} {reg : QkcAnnounce K}

section

variable (level : fleet.Level tenPow last store sent)
include level

theorem Fleet.Level.qkc (member : reg ∈ fleet.regs) :
    store.topology.qkcs reg.id = some (store.topology.announcedQkc reg) := by
  have registered := level.reflects.registered reg.id
  rw [level.repeated reg member] at registered
  obtain ⟨q, found⟩ := Option.isSome_iff_exists.mp registered
  rw [found, level.known.qkcs reg member q found]

omit level in
theorem Topology.quiet_key {t : Topology K} {a b x y : String} {kps : Option K}
    (same : edgeKey a b = edgeKey x y) : t.Quiet tenPow a b kps ↔ t.Quiet tenPow x y kps := by
  unfold Quiet edge
  rw [same]

theorem Fleet.Level.rest (member : reg ∈ fleet.regs) (reported : reg ∈ sent) :
    (store.announceQkc tenPow reg).2 = store := by
  have distinct := reportsOf_nodup (fleet.neighbors reg member) store.topology
  have rates := recordReports_known distinct (level.recorded reg reported)
  have measured := recordReports_measured reg.id store.measured distinct
  rw [rates] at measured
  obtain ⟨table, -, -, unchanged⟩ := announceQkc_repeated tenPow level.reflects
    (level.qkc tenPow member) (level.repeated reg member)
  rw [rates] at table
  have topology : (store.announceQkc tenPow reg).2.topology = store.topology := by
    apply unchanged
    rw [applyMeasured_of_quiet]
    intro p listed
    rw [measured] at listed
    obtain ⟨r, member, rfl⟩ := mem_map.mp listed
    exact level.quiet reg reported r member
  cases result : (store.announceQkc tenPow reg).2
  cases store
  rw [result] at table topology
  cases table
  cases topology
  rfl

theorem Fleet.Level.announce [IsStrictOrderedRing K] (all : ∀ reg ∈ sent, reg ∈ fleet.regs)
    (member : reg ∈ fleet.regs) :
    fleet.Level tenPow last (store.announceQkc tenPow reg).2 (sent ++ [reg]) := by
  have repeated := level.repeated reg member
  have distinct := reportsOf_nodup (fleet.neighbors reg member) store.topology
  obtain ⟨table, qkcs, edges, -⟩ := announceQkc_repeated tenPow level.reflects
    (level.qkc tenPow member) repeated
  have reflects := level.reflects.announceQkc tenPow reg
  rw [update_eq_self_iff.mpr repeated.symm] at reflects
  have known := level.known.announce tenPow member
  generalize (store.announceQkc tenPow reg).2 = store' at table qkcs edges reflects known ⊢
  have reports := reportsOf_congr qkcs
  have measured := recordReports_measured reg.id store.measured distinct
  rw [← table] at measured
  rw [measured] at edges
  have bounded : ∀ p ∈ (reportsOf store.topology reg).map fun r =>
      (r.1, store'.measured.combined reg.id r.1), ∀ m ∈ p.2, m ≤ maxCapacityKeysPerS := by
    intro p listed
    obtain ⟨r, -, rfl⟩ := mem_map.mp listed
    exact known.bounded.combined reg.id r.1
  refine ⟨reflects, level.repeated, known, ?_, ?_⟩
  · intro other listed r report
    rw [reports] at report
    rw [table]
    by_cases own : other = reg
    · subst own
      rw [recordReports_byEdge store.measured distinct r report]
      exact ExtTreeMap.getElem?_insert_self
    have before : other ∈ sent := by simpa [own] using listed
    have stood := level.recorded other before r report
    by_cases touched : ∃ r' ∈ reportsOf store.topology reg, edgeKey reg.id r'.1 = edgeKey other.id r.1
    · obtain ⟨r', member', key⟩ := touched
      have ids : reg.id ≠ other.id := by
        intro same
        exact own (Fleet.eq_of_id (all other before) member same.symm)
      rw [← key] at stood ⊢
      rw [recordReports_byEdge store.measured distinct r' member', ExtTreeMap.getElem?_insert,
        if_neg (by rw [Std.compare_eq_iff_eq]; exact ids)]
      exact stood
    · rw [recordReports_elsewhere store.measured]
      · exact stood
      · intro r' member' same
        exact touched ⟨r', member', same⟩
  · intro other listed r report
    rw [reports] at report
    by_cases touched : ∃ r' ∈ reportsOf store.topology reg, edgeKey reg.id r'.1 = edgeKey other.id r.1
    · -- the announcer reports on this edge: its rate has just been applied
      obtain ⟨r', member', key⟩ := touched
      have applied := applyMeasured_quiet tenPow (t := store.topology.heard reg) reg.id
        (by rw [← measured, measured, map_map]; exact distinct) bounded (r'.1, _)
        (mem_map_of_mem member')
      have here : store'.topology.Quiet tenPow reg.id r'.1 (store'.measured.combined reg.id r'.1) := by
        unfold Quiet edge
        rw [edges]
        exact applied
      rw [quiet_key tenPow key, MeasuredRates.combined_key key] at here
      exact here
    have before : other ∈ sent := by
      rcases mem_append.mp listed with before | last
      · exact before
      rw [mem_singleton] at last
      subst last
      exact absurd ⟨r, report, rfl⟩ touched
    have elsewhere : ∀ r' ∈ reportsOf store.topology reg,
        edgeKey reg.id r'.1 ≠ edgeKey other.id r.1 := by
      intro r' member' same
      exact touched ⟨r', member', same⟩
    have edge : store'.topology.edge other.id r.1 = store.topology.edge other.id r.1 := by
      unfold edge
      rw [edges]
      refine applyMeasured_elsewhere tenPow (t := store.topology.heard reg) ?_
      intro p listed
      obtain ⟨r', member', rfl⟩ := mem_map.mp listed
      exact (elsewhere r' member').symm
    have rate : store'.measured.combined other.id r.1 = store.measured.combined other.id r.1 := by
      apply MeasuredRates.combined_congr
      rw [table]
      exact recordReports_elsewhere store.measured elsewhere
    unfold Quiet
    rw [edge, rate]
    exact level.quiet other before r report

omit level in
theorem Fleet.Level.sends [IsStrictOrderedRing K] (level : fleet.Level tenPow last store [])
    {round : List (QkcAnnounce K)} (all : ∀ reg ∈ round, reg ∈ fleet.regs) :
    fleet.Level tenPow last (round.foldl (fun store reg => (store.announceQkc tenPow reg).2) store)
      round := by
  induction round using reverseRecOn with
  | nil => exact level
  | append_singleton round reg ih =>
    rw [foldl_append]
    have before : ∀ reg ∈ round, reg ∈ fleet.regs := fun r member =>
      all r (mem_append_left _ member)
    exact (ih before).announce tenPow before (all reg (by simp))

theorem Fleet.Level.stays (reported : ∀ reg ∈ fleet.regs, reg ∈ sent) {after : List (QkcAnnounce K)}
    (all : ∀ reg ∈ after, reg ∈ fleet.regs) :
    after.foldl (fun store reg => (store.announceQkc tenPow reg).2) store = store := by
  induction after with
  | nil => rfl
  | cons reg after ih =>
    have member := all reg mem_cons_self
    rw [foldl_cons, level.rest tenPow member (reported reg member)]
    exact ih fun r listed => all r (mem_cons_of_mem _ listed)

end

theorem Fleet.run_known {sends : List (QkcAnnounce K)} (all : ∀ reg ∈ sends, reg ∈ fleet.regs) :
    fleet.Known (TopologyStore.run tenPow (sends.map .announceQkc)) := by
  induction sends using reverseRecOn with
  | nil =>
    constructor
    · intro reg _ q found; cases found
    · intro key id rate found
      simp [TopologyStore.run, TopologyStore.empty, MeasuredRates.empty] at found
  | append_singleton sends reg ih =>
    unfold TopologyStore.run
    rw [map_append, foldl_append]
    exact (ih fun r member => all r (mem_append_left _ member)).announce tenPow (all reg (by simp))

/-- QKCs that keep sending one announcement each come to rest: once all are registered and each
has announced at least twice more, no announcement changes the version again. -/
theorem Fleet.heartbeats_rest [IsStrictOrderedRing K] (fleet : Fleet K) (before round after : List (QkcAnnounce K))
    (all : ∀ reg ∈ before ++ round ++ after, reg ∈ fleet.regs) (registered : ∀ reg ∈ fleet.regs,
      (TopologyStore.run tenPow (before.map .announceQkc)).topology.registered reg.id)
    (twice : ∀ reg ∈ fleet.regs, 2 ≤ round.countP fun sent => sent.id = reg.id) :
    (TopologyStore.run tenPow ((before ++ round ++ after).map .announceQkc)).topology.version =
      (TopologyStore.run tenPow ((before ++ round).map .announceQkc)).topology.version := by
  simp only [mem_append, or_imp, forall_and] at all
  have reflects := run_reflects tenPow (before.map Op.announceQkc)
  have level : fleet.Level tenPow (lastAnnounce (before.map .announceQkc))
      (TopologyStore.run tenPow (before.map .announceQkc)) [] := by
    refine ⟨reflects, ?_, Fleet.run_known tenPow all.1.1, by simp, by simp⟩
    intro reg member
    have present := registered reg member
    rw [reflects.registered] at present
    obtain ⟨sent, found⟩ := Option.isSome_iff_exists.mp present
    obtain ⟨listed, here⟩ := lastAnnounce_sent found
    have inBefore : sent ∈ before := by simpa using listed
    rw [found, Fleet.eq_of_id (all.1.1 sent inBefore) member here]
  have rounds := level.sends tenPow all.1.2
  have reported : ∀ reg ∈ fleet.regs, reg ∈ round := by
    intro reg member
    have some_time : 0 < round.countP fun sent => sent.id = reg.id := by
      have := twice reg member
      omega
    obtain ⟨sent, listed, here⟩ := countP_pos_iff.mp some_time
    rw [decide_eq_true_eq] at here
    rw [← Fleet.eq_of_id (all.1.2 sent listed) member here]
    exact listed
  have runs : ∀ sends : List (QkcAnnounce K), ∀ store : TopologyStore K,
      (sends.map Op.announceQkc).foldl (TopologyStore.next tenPow) store =
        sends.foldl (fun store reg => (store.announceQkc tenPow reg).2) store := by
    intro sends store
    exact foldl_map
  unfold TopologyStore.run at rounds ⊢
  rw [runs] at rounds ⊢
  rw [runs, foldl_append, foldl_append, rounds.stays tenPow reported all.2]

end Fleet

def measuring (id neighbor : String) (distance : UInt32) (rate : ℚ) : QkcAnnounce ℚ where
  id := id
  host := host
  peerAddr := none
  links := [⟨some rate, none, neighbor, ⟨distance, 1000, 0, 256, .qkd, 256, 0, none⟩⟩]

def disagreeing : Fleet ℚ where
  rules := plainRules
  regs := [measuring "1" "2" 10 100, measuring "2" "1" 12 50]
  ids := by decide
  valid := by decide +kernel
  neighbors := by decide

theorem heartbeats_rest_disagreeing :
    let send := fun regs : List (QkcAnnounce ℚ) =>
      (TopologyStore.run wholeTenPow (regs.map .announceQkc)).topology.version
    send (disagreeing.regs ++ (disagreeing.regs ++ disagreeing.regs) ++ disagreeing.regs) =
      send (disagreeing.regs ++ (disagreeing.regs ++ disagreeing.regs)) :=
  Fleet.heartbeats_rest wholeTenPow disagreeing disagreeing.regs
    (disagreeing.regs ++ disagreeing.regs) disagreeing.regs (by decide +kernel) (by decide +kernel)
    (by decide +kernel)

end Dkms.Sdn
