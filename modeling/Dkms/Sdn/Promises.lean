import Dkms.Sdn.DeadEdges
import Dkms.Sdn.Heartbeat

namespace Dkms.Sdn

open Function Dkms.Core McmcfInputs Option
open Dkms.Node (KeyGrade)

variable {K : Type*} {t : Topology K} {keys : Keys} {a b : String}

section Components

theorem qkdNeighbors_lists (mirrored : t.Mirrored) (keyed : t.Keyed keys) :
    Search.Lists (t.linkGraph (some .qkd)) keys.qkcs.toFinset t.qkdNeighbors := by
  have lists := Topology.neighbors_lists mirrored keyed
  have listed : ∀ v w, w ∈ t.qkdNeighbors v ↔
      w ∈ t.neighbors v ∧ ∃ link ∈ t.edge v w, ¬link.isPqc := by
    intro v w
    unfold Topology.qkdNeighbors
    rw [List.mem_filter]
    cases t.edge v w <;> simp
  exact {
    adj := by
      intro v w member other
      obtain ⟨-, link, found, qkd⟩ := (listed v w).mp member
      exact ⟨other.symm, link, found, fun pqc => qkd pqc.2⟩
    all := by
      intro v w ⟨other, link, found, qkd⟩
      have near := lists.all v w (Topology.linkGraph_adj.mpr ⟨other, isSome_of_mem found⟩)
      exact (listed v w).mpr ⟨near, link, found, fun pqc => qkd ⟨rfl, pqc⟩⟩
    inside := fun v w member => lists.inside v w ((listed v w).mp member).1 }

abbrev Topology.QkdJoined (t : Topology K) : String → String → Prop :=
  (t.linkGraph (some .qkd)).Reachable

structure Labelled (t : Topology K) (comp : String → Option ℕ) (next : ℕ) : Prop where
  component : ∀ v w k, comp v = some k → (comp w = some k ↔ t.QkdJoined v w)
  below : ∀ v k, comp v = some k → k < next

variable {comp comp' : String → Option ℕ} {next : ℕ} {start : String}

theorem Labelled.fresh (labelled : Labelled t comp next)
    (inside : ∀ v, t.QkdJoined start v → comp' v = some next)
    (outside : ∀ v, ¬t.QkdJoined start v → comp' v = comp v) : Labelled t comp' (next + 1) where
  component := by
    intro v w k found
    by_cases nearV : t.QkdJoined start v
    · obtain rfl := some.inj ((inside v nearV).symm.trans found)
      refine ⟨fun same => ?_, fun reached => inside w (nearV.trans reached)⟩
      by_contra apart
      rw [outside w fun nearW => apart (nearV.symm.trans nearW)] at same
      exact (labelled.below w _ same).false
    rw [outside v nearV] at found
    rw [← labelled.component v w k found]
    by_cases nearW : t.QkdJoined start w
    · rw [inside w nearW]
      constructor
      · intro same
        exact ((labelled.below v k found).ne' (some.inj same)).elim
      intro same
      have reached := (labelled.component v w k found).mp same
      exact (nearV (nearW.trans reached.symm)).elim
    · rw [outside w nearW]
  below := by
    intro v k found
    by_cases near : t.QkdJoined start v
    · exact (some.inj ((inside v near).symm.trans found)) ▸ Nat.lt_succ_self _
    · exact (labelled.below v k ((outside v near).symm.trans found)).trans (Nat.lt_succ_self _)

theorem search_labels (mirrored : t.Mirrored) (keyed : t.Keyed keys)
    (labelled : Labelled t comp next) (unmarked : comp start = none) :
    let found := (Search.run t.qkdNeighbors (fun _ id => id) (fun _ => false) (keys.qkcs.length + 1)
      ⟨update comp start (some next), [start], [start]⟩).1.mark
    (∀ v, t.QkdJoined start v → found v = some next) ∧
      ∀ v, ¬t.QkdJoined start v → found v = comp v := by
  have lists := qkdNeighbors_lists mirrored keyed
  have few : keys.qkcs.toFinset.card < keys.qkcs.length + 1 := Nat.lt_succ_of_le (List.toFinset_card_le _)
  obtain ⟨busy, level, layered, all, halted⟩ := Search.search_layered (fun _ => false) lists start
    next (fun _ id => id) few
  have goes := Bool.eq_false_iff.mpr fun stops => Bool.false_ne_true (halted stops).choose_spec.1
  -- no earlier label can be met, since labels are given to whole components
  have fresh : ∀ v, t.QkdJoined start v → comp v = none := by
    intro v reached
    by_contra marked
    obtain ⟨k, found⟩ := ne_none_iff_exists'.mp marked
    have known := (labelled.component v start k found).mpr reached.symm
    rw [unmarked] at known
    cases known
  have closed : ∀ v, t.QkdJoined start v → ∀ w ∈ t.qkdNeighbors v, t.QkdJoined start w := by
    intro v reached w member
    by_cases same : w = v
    · exact same ▸ reached
    · exact reached.trans (lists.adj v w member same).reachable
  have shadowed : (⟨update comp start (some next), [start], [start]⟩ : Search String ℕ) =
      (Search.start start next).shadow comp := by
    simp only [Search.shadow, Search.start, Search.mk.injEq, and_true]
    funext v
    by_cases same : v = start <;> simp [same]
  rw [shadowed, Search.run_shadow _ closed fresh (by simp [Search.start])]
  refine ⟨fun v reached => ?_, fun v apart => ?_⟩
  · obtain ⟨k, marked⟩ := isSome_iff_exists.mp (all goes v reached)
    obtain rfl := layered.mark_eq_value marked
    simp only [Search.shadow, marked, some_or]
  · have missed := mt (layered.reached v) apart
    rw [not_isSome_iff_eq_none] at missed
    simp only [Search.shadow, missed, none_or]

theorem foldl_labelled {grow : (String → Option ℕ) × ℕ → String → (String → Option ℕ) × ℕ}
    (step : ∀ comp next start, Labelled t comp next →
      Labelled t (grow (comp, next) start).1 (grow (comp, next) start).2 ∧
        ∀ v, v = start ∨ (comp v).isSome → ((grow (comp, next) start).1 v).isSome)
    (ids : List String) (labelled : Labelled t comp next) :
    (∃ next', Labelled t (ids.foldl grow (comp, next)).1 next') ∧
      ∀ v, v ∈ ids ∨ (comp v).isSome → ((ids.foldl grow (comp, next)).1 v).isSome := by
  induction ids generalizing comp next with
  | nil => exact ⟨⟨next, labelled⟩, fun v there => there.resolve_left List.not_mem_nil⟩
  | cons start ids ih =>
    obtain ⟨after, kept⟩ := step comp next start labelled
    obtain ⟨done, all⟩ := ih after
    refine ⟨done, fun v there => all v ?_⟩
    rcases there with member | marked
    · exact (List.mem_cons.mp member).symm.imp_right fun here => kept v (.inl here)
    · exact .inr (kept v (.inr marked))

theorem qkdComponents_labelled (mirrored : t.Mirrored) (keyed : t.Keyed keys) :
    (∃ next, Labelled t (t.qkdComponents keys) next) ∧
      ∀ id, id ∈ keys.qkcs.insertionSort (· ≤ ·) ∨ (none : Option ℕ).isSome →
        (t.qkdComponents keys id).isSome := by
  have empty : Labelled t (fun _ => none) 0 := ⟨by simp, by simp⟩
  unfold Topology.qkdComponents
  refine foldl_labelled (fun comp next start labelled => ?_) _ empty
  dsimp only
  split
  · rename_i marked
    exact ⟨labelled, fun v there => there.elim (fun here => here ▸ marked) id⟩
  rename_i unmarked
  rw [not_isSome_iff_eq_none] at unmarked
  obtain ⟨inside, outside⟩ := search_labels mirrored keyed labelled unmarked
  refine ⟨labelled.fresh inside outside, fun v there => ?_⟩
  by_cases near : t.QkdJoined start v
  · exact isSome_of_mem (inside v near)
  have same := outside v near
  dsimp only at same ⊢
  rw [same]
  exact there.resolve_left fun here => near (here ▸ .refl _)

theorem qkdConnected_iff (mirrored : t.Mirrored) (keyed : t.Keyed keys) (distinct : a ≠ b) :
    qkdConnected (t.qkdComponents keys) a b ↔ t.QkdJoined a b := by
  obtain ⟨⟨next, labelled⟩, all⟩ := qkdComponents_labelled mirrored keyed
  unfold qkdConnected
  constructor
  · intro same
    cases atA : t.qkdComponents keys a with
    | none => simp [atA] at same
    | some x =>
      cases atB : t.qkdComponents keys b with
      | none => simp [atB] at same
      | some y =>
        rw [← labelled.component a b x atA]
        simpa [atA, atB, eq_comm] using same
  · intro joined
    obtain ⟨p, linked, -⟩ := Search.exists_closer joined.symm distinct.symm
    have known := registered_of_adj mirrored linked
    obtain ⟨x, atA⟩ := isSome_iff_exists.mp (all a (.inl (by simpa [keyed.qkcs] using known)))
    have atB := (labelled.component a b x atA).mpr joined
    simp [atA, atB]

end Components

section Routes

variable [Field K] [LinearOrder K] [FloorSemiring K] (tenPow : K → K)

theorem qkd_promises_match_routes (mirrored : t.Mirrored) (keyed : t.Keyed keys)
    (ids : ∀ id, t.registered id → Canonical id) (known : t.registered b) (distinct : a ≠ b) :
    (qkdConnected (t.qkdComponents keys) a b ↔ t.QkdJoined a b) ∧
      (t.QkdJoined a b ↔
        ∃ hops ∈ t.wcmpFromTopology tenPow keys (some .qkd) a b, hops ≠ []) := by
  refine ⟨qkdConnected_iff mirrored keyed distinct, fun joined => ?_, ?_⟩
  · obtain ⟨hops, entry⟩ := isSome_iff_exists.mp
      (wcmpFromTopology_isSome mirrored keyed ids tenPow known distinct joined.symm)
    refine ⟨hops, entry, ?_⟩
    rw [Topology.wcmpFromTopology, if_pos known] at entry
    exact Topology.wcmpTowards_ne_nil entry
  · rintro ⟨hops, entry, some_hop⟩
    obtain ⟨hop, member⟩ := List.exists_mem_of_ne_nil hops some_hop
    rw [Topology.wcmpFromTopology, if_pos known] at entry
    obtain ⟨m, -, linked, reached, -⟩ := Topology.wcmpTowards_hop mirrored keyed entry member
    exact linked.reachable.trans reached.symm

theorem qkd_promises_match_routes_line :
    let t := meshOf ["1", "2", "3"] lineLinks
    let keys := meshKeys ["1", "2", "3"] lineLinks
    qkdConnected (t.qkdComponents keys) "1" "3" ∧
      ∃ hops ∈ t.wcmpFromTopology (fun _ => 1) keys (some .qkd) "1" "3", hops ≠ [] := by
  have promised : qkdConnected ((meshOf ["1", "2", "3"] lineLinks).qkdComponents
      (meshKeys ["1", "2", "3"] lineLinks)) "1" "3" := by decide +kernel
  have mirrored : (meshOf ["1", "2", "3"] lineLinks).Mirrored := meshOf_mirrored (by decide +kernel)
  obtain ⟨joined, routed⟩ := qkd_promises_match_routes (fun _ => 1) mirrored meshOf_keyed
    (fun id known => fourIds id (List.mem_append_left ["4"] (meshOf_registered.mp known)))
    (meshOf_registered.mpr (by decide)) (show "1" ≠ "3" by decide)
  exact ⟨promised, routed.mp (joined.mp promised)⟩

end Routes

section Commodities

variable [Field K] [LinearOrder K] {tenPow : K → K} {registry : DemandRegistry K}

def McmcfInputs.Arc (inputs : McmcfInputs K) (t : Topology K) (grade : KeyGrade) (a b : String) :
    Prop :=
  (∃ cap, (edgeKey a b, cap) ∈ inputs.edgeCapacity) ∧ (grade = .qkd → ∀ link ∈ t.edge a b, ¬link.isPqc)

def Topology.Yields (t : Topology K) (tenPow : K → K) (grade : KeyGrade) (a b : String) : Prop :=
  ∃ link ∈ t.edge a b, 0 < link.capacityKeysPerSecond tenPow ∧ (grade = .qkd → ¬link.isPqc)

theorem arc_iff (keyed : t.Keyed keys) {grade : KeyGrade} :
    (McmcfInputs.build tenPow t keys registry).Arc t grade a b ↔ t.Yields tenPow grade a b := by
  have listed : (∃ cap, (edgeKey a b, cap) ∈ (build tenPow t keys registry).edgeCapacity) ↔
      ∃ link ∈ t.edge a b, 0 < link.capacityKeysPerSecond tenPow := by
    simp only [build, List.mem_filterMap, capacityEntry]
    constructor
    · rintro ⟨cap, key, -, made⟩
      split at made
      · cases made
      rename_i link found
      split at made
      · rename_i positive
        obtain ⟨rfl, -⟩ := Prod.mk.inj (some.inj made)
        exact ⟨link, found, positive⟩
      · cases made
    · rintro ⟨link, found, positive⟩
      have there : t.edges (edgeKey a b) = some link := found
      refine ⟨link.capacityKeysPerSecond tenPow, edgeKey a b,
        (keyed.edges _).mpr (isSome_of_mem found), ?_⟩
      simp only [there, if_pos positive]
  constructor
  · rintro ⟨there, admitted⟩
    obtain ⟨link, found, positive⟩ := listed.mp there
    exact ⟨link, found, positive, fun qkd => admitted qkd link found⟩
  rintro ⟨link, found, positive, admitted⟩
  refine ⟨listed.mpr ⟨link, found, positive⟩, fun qkd other there => ?_⟩
  obtain rfl := mem_unique found there
  exact admitted qkd

omit [LinearOrder K] in
theorem demandBetween_isSome {connected : Bool} {src dst : String} {grade : KeyGrade} :
    (demandBetween registry connected src dst grade).isSome ↔
      match grade with
      | .qkd => connected = true
      | .pqc => connected = false ∨ (registry.inner src dst .pqc).isSome := by
  unfold demandBetween
  cases grade <;> cases connected
  all_goals cases registry.inner src dst _ <;> simp [naturalGrade]

theorem mem_commodities {c : CommodityDemand K} :
    c ∈ (McmcfInputs.build tenPow t keys registry).commodities ↔
      ∃ src ∈ keys.dkms, ∃ dst ∈ keys.dkms, src ≠ dst ∧ ∃ a b, t.qkcOfDkms src = some a ∧
        t.qkcOfDkms dst = some b ∧ a ≠ b ∧ c.srcDkms = src ∧ c.dstDkms = dst ∧
        demandBetween registry (qkdConnected (t.qkdComponents keys) a b) src dst c.grade = some c := by
  unfold build
  rw [List.mem_insertionSort, List.mem_filterMap]
  constructor
  · rintro ⟨⟨src, dst, grade⟩, listed, found⟩
    obtain ⟨key, distinct, a, b, atSrc, atDst, apart, -⟩ := commodity_key found
    obtain ⟨sameSrc, sameDst, rfl⟩ : c.srcDkms = src ∧ c.dstDkms = dst ∧ c.grade = grade := by
      simpa [CommodityDemand.key] using key
    obtain ⟨inSrc, inDst, -⟩ := by simpa using listed
    simp only [commodity, if_neg distinct, atSrc, atDst, if_neg apart] at found
    exact ⟨src, inSrc, dst, inDst, distinct, a, b, atSrc, atDst, apart, sameSrc, sameDst, found⟩
  · rintro ⟨src, inSrc, dst, inDst, distinct, a, b, atSrc, atDst, apart, -, -, found⟩
    refine ⟨(src, dst, c.grade), ?_, ?_⟩
    · cases c.grade <;> simp [inSrc, inDst]
    · simpa only [commodity, if_neg distinct, atSrc, atDst, if_neg apart] using found

/-- Commodities are made by the links alone, and some have no way through links with capacity. -/
theorem commodities_routable_iff (mirrored : t.Mirrored) (keyed : t.Keyed keys) :
    let inputs := McmcfInputs.build tenPow t keys registry
    (∀ c ∈ inputs.commodities, ∃ a b, inputs.dkmsToQkc c.srcDkms = some a ∧
      inputs.dkmsToQkc c.dstDkms = some b ∧ Relation.ReflTransGen (inputs.Arc t c.grade) a b) ↔
    ∀ src ∈ keys.dkms, ∀ dst ∈ keys.dkms, src ≠ dst → ∀ a b, t.qkcOfDkms src = some a →
      t.qkcOfDkms dst = some b → a ≠ b →
        (t.QkdJoined a b → Relation.ReflTransGen (t.Yields tenPow .qkd) a b) ∧
        (¬t.QkdJoined a b ∨ (registry.inner src dst .pqc).isSome →
          Relation.ReflTransGen (t.Yields tenPow .pqc) a b) := by
  intro inputs
  have arcs : ∀ grade, inputs.Arc t grade = t.Yields tenPow grade := by
    intro grade
    funext a b
    exact propext (arc_iff keyed)
  constructor
  · intro routable src inSrc dst inDst distinct a b atSrc atDst apart
    rw [← qkdConnected_iff mirrored keyed apart]
    have route : ∀ grade,
        (demandBetween registry (qkdConnected (t.qkdComponents keys) a b) src dst grade).isSome →
          Relation.ReflTransGen (t.Yields tenPow grade) a b := by
      intro grade made
      obtain ⟨c, found⟩ := isSome_iff_exists.mp made
      obtain ⟨sameSrc, sameDst, rfl⟩ : c.srcDkms = src ∧ c.dstDkms = dst ∧ c.grade = grade := by
        simpa [CommodityDemand.key] using (demandBetween_key found).1
      obtain ⟨a', b', atA, atB, path⟩ := routable c (mem_commodities.mpr
        ⟨src, inSrc, dst, inDst, distinct, a, b, atSrc, atDst, apart, sameSrc, sameDst, found⟩)
      rw [sameSrc] at atA
      rw [sameDst] at atB
      obtain rfl := Option.some.inj (atSrc.symm.trans atA)
      obtain rfl := Option.some.inj (atDst.symm.trans atB)
      exact arcs c.grade ▸ path
    refine ⟨fun joined => route .qkd (demandBetween_isSome.mpr joined), fun wanted => ?_⟩
    exact route .pqc (demandBetween_isSome.mpr (by simpa using wanted))
  · intro paths c member
    obtain ⟨src, inSrc, dst, inDst, distinct, a, b, atSrc, atDst, apart, rfl, rfl, found⟩ :=
      mem_commodities.mp member
    obtain ⟨qkd, pqc⟩ := paths _ inSrc _ inDst distinct a b atSrc atDst apart
    rw [← qkdConnected_iff mirrored keyed apart] at qkd pqc
    have made := demandBetween_isSome.mp (isSome_of_mem found)
    refine ⟨a, b, atSrc, atDst, ?_⟩
    rw [arcs]
    cases grade : c.grade with
    | qkd => exact qkd (by simpa [grade] using made)
    | pqc => exact pqc (by simpa [grade] using made)

theorem commodities_routable_iff_pair : (pairOf tenKeys).Mirrored ∧
    ∀ c ∈ (McmcfInputs.build (fun _ => 1) (pairOf tenKeys) pairKeys .empty).commodities, ∃ a b,
      (pairOf tenKeys).qkcOfDkms c.srcDkms = some a ∧
      (pairOf tenKeys).qkcOfDkms c.dstDkms = some b ∧ Relation.ReflTransGen
        ((McmcfInputs.build (fun _ => 1) (pairOf tenKeys) pairKeys .empty).Arc (pairOf tenKeys)
          c.grade) a b := by
  have mesh : (meshOf ["1", "2"] [(("1", "2"), tenKeys)]).Mirrored := meshOf_mirrored (by decide +kernel)
  have mirrored : (pairOf tenKeys).Mirrored := ⟨mesh.adjacent, mesh.registered, mesh.keys⟩
  refine ⟨mirrored, (commodities_routable_iff mirrored (pairOf_keyed tenKeys)).mpr ?_⟩
  intro src inSrc dst inDst distinct a b atSrc atDst apart
  have ends : ∀ src ∈ pairKeys.dkms, ∀ dst ∈ pairKeys.dkms, src ≠ dst →
      (pairOf tenKeys).edge (((pairOf tenKeys).qkcOfDkms src).getD "")
        (((pairOf tenKeys).qkcOfDkms dst).getD "") = some tenKeys := by decide +kernel
  have there := ends src inSrc dst inDst distinct
  rw [atSrc, atDst] at there
  have yields : ∀ grade, (pairOf tenKeys).Yields (fun _ => 1) grade a b := fun grade =>
    ⟨tenKeys, there, by decide +kernel, fun _ => by decide⟩
  exact ⟨fun _ => .single (yields .qkd), fun _ => .single (yields .pqc)⟩

theorem dark_link_commodity :
    let inputs := McmcfInputs.build (fun _ => 1) (pairOf darkLink) pairKeys .empty
    (∃ c ∈ inputs.commodities, c.srcDkms = "dA" ∧ c.dstDkms = "dB" ∧ c.grade = .qkd) ∧
      inputs.dkmsToQkc "dA" = some "1" ∧ inputs.dkmsToQkc "dB" = some "2" ∧
      ¬Relation.ReflTransGen (inputs.Arc (pairOf darkLink) .qkd) "1" "2" := by
  refine ⟨by decide +kernel, by decide +kernel, by decide +kernel, fun path => ?_⟩
  have none_listed : (build (fun _ => 1) (pairOf darkLink) pairKeys .empty).edgeCapacity =
      [] := by decide +kernel
  rcases Relation.ReflTransGen.cases_head path with same | ⟨next, ⟨⟨cap, listed⟩, -⟩, -⟩
  · exact absurd same (by decide)
  · rw [none_listed] at listed
    cases listed

end Commodities

section Numbers

variable [Field K] [LinearOrder K] (tenPow : K → K) {rules : TextRules K}

def Topology.Names (t : Topology K) (number : UInt32) : Prop :=
  ∃! id, t.registered id ∧ parseU32 id = some number

theorem canonical_of_run {ops : List (Op K)}
    (announced : ∀ reg, .announceQkc reg ∈ ops → Canonical reg.id) {id : String}
    (known : (TopologyStore.run tenPow ops).topology.registered id) : Canonical id := by
  rw [(run_reflects tenPow ops).registered] at known
  obtain ⟨reg, found⟩ := isSome_iff_exists.mp known
  obtain ⟨sent, rfl⟩ := lastAnnounce_sent found
  exact announced reg sent

variable [FloorSemiring K]

/-- The tables may be those of an earlier topology, as long as no QKC of it was removed since. -/
theorem canonical_ids_name_one_qkc (earlier later : List (Op K))
    (announced : ∀ reg, .announceQkc reg ∈ earlier ++ later →
      validateQkcAnnounce rules reg = .ok () ∧ Canonical reg.id) :
    let old := (TopologyStore.run tenPow earlier).topology
    let snap := (TopologyStore.run tenPow (earlier ++ later)).topology
    (∀ a b n, snap.registered a → snap.registered b → parseU32 a = some n →
      parseU32 b = some n → a = b) ∧
    ∀ oldKeys keys, old.Keyed oldKeys → snap.Keyed keys →
      (∀ id, old.registered id → snap.registered id) → ∀ q dst,
      ∀ hops ∈ pushTable snap keys (old.wcmpFromTopology tenPow oldKeys none) q dst,
        (∃ n, parseU32 dst = some n ∧ snap.Names n) ∧
          ∀ hop ∈ hops, snap.Names hop.qkcId := by
  intro old snap
  have ids : ∀ id, snap.registered id → Canonical id := fun id =>
    canonical_of_run tenPow fun reg sent => (announced reg sent).2
  have unique : ∀ a b n, snap.registered a → snap.registered b → parseU32 a = some n →
      parseU32 b = some n → a = b :=
    fun a b n atA atB => (ids a atA).eq_of_parse (ids b atB)
  have names : ∀ id n, snap.registered id → parseU32 id = some n → snap.Names n :=
    fun id n known parsed =>
      ⟨id, ⟨known, parsed⟩, fun other there => unique other id n there.1 known there.2 parsed⟩
  refine ⟨unique, fun oldKeys keys oldKeyed keyed kept q dst hops entry => ?_⟩
  obtain ⟨⟨-, known, distinct⟩, listed⟩ := pushTable_cases entry
  have number : ∃ n, parseU32 dst = some n := by
    obtain ⟨n, rfl⟩ := ids dst known
    exact ⟨n, parseU32_repr n⟩
  obtain ⟨n, parsed⟩ := number
  refine ⟨⟨n, parsed, names dst n known parsed⟩, fun hop member => ?_⟩
  rcases listed with table | ⟨-, nh, id, next, parsed, rfl⟩
  · unfold Topology.wcmpFromTopology at table
    split at table
    · obtain ⟨m, parsed, linked, -⟩ :=
        Topology.wcmpTowards_hop (run_reflects tenPow earlier).mirrored oldKeyed table member
      have there := registered_of_adj (run_reflects tenPow earlier).mirrored linked
      exact names m _ (kept m there) parsed
    · cases table
  · obtain rfl := List.mem_singleton.mp member
    have mirrored := (run_reflects tenPow (earlier ++ later)).mirrored
    obtain ⟨linked, -⟩ := Topology.nextHopQkc_closer mirrored keyed distinct.symm next
    exact names nh id (registered_of_adj mirrored linked) parsed

def canonicalPair : List (Op ℚ) :=
  [.announceQkc (measuring "1" "2" 10 100), .announceQkc (measuring "2" "1" 10 100)]

theorem canonical_ids_name_one_qkc_pair :
    let snap := (TopologyStore.run (fun _ => 1) canonicalPair).topology
    snap.registered "1" ∧ ∀ b, snap.registered b → parseU32 b = some 1 → "1" = b := by
  have announced : ∀ reg, .announceQkc reg ∈ canonicalPair ++ [] →
      validateQkcAnnounce plainRules reg = .ok () ∧ Canonical reg.id := by
    intro reg sent
    simp only [canonicalPair, List.append_nil, List.mem_cons, Op.announceQkc.injEq,
      List.not_mem_nil, or_false] at sent
    rcases sent with rfl | rfl
    · exact ⟨by decide +kernel, fourIds _ (by decide)⟩
    · exact ⟨by decide +kernel, fourIds _ (by decide)⟩
  have known : (TopologyStore.run (fun _ => 1) canonicalPair).topology.registered "1" := by
    decide +kernel
  obtain ⟨unique, -⟩ := canonical_ids_name_one_qkc (fun _ => 1) canonicalPair [] announced
  exact ⟨known, fun b atB => unique "1" b 1 known atB (by decide +kernel)⟩

theorem leading_zero_shares_number :
    let regs := [measuring "1" "3" 10 100, measuring "01" "3" 10 100]
    let snap := (TopologyStore.run (fun _ => 1) (regs.map .announceQkc)).topology
    (∀ reg ∈ regs, validateQkcAnnounce plainRules reg = .ok ()) ∧ snap.registered "1" ∧
      snap.registered "01" ∧ parseU32 "1" = some 1 ∧
      parseU32 "01" = some 1 := by
  decide +kernel

end Numbers

end Dkms.Sdn
