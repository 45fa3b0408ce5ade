import Dkms.Sdn.Feasible

namespace Dkms.Sdn

open List Function Dkms.Core McmcfInputs Filling
open Dkms.Node (KeyGrade)

variable {K : Type*} [Field K] [LinearOrder K]

section Inputs

variable {tenPow : K → K} {t : Topology K} {keys : Keys} {registry : DemandRegistry K}

theorem mem_capacity {key e : EdgeKey} {r : K} : capacityEntry tenPow t key = some (e, r) ↔
    key = e ∧ ∃ link, t.edges e = some link ∧ r = link.capacityKeysPerSecond tenPow ∧ 0 < r := by
  unfold capacityEntry
  constructor
  · intro entry
    split at entry
    · cases entry
    rename_i link there
    split at entry
    · rename_i live
      cases entry
      exact ⟨rfl, link, there, rfl, live⟩
    · cases entry
  · rintro ⟨rfl, link, there, rfl, live⟩
    simp only [there, if_pos live]

theorem build_capacity (keyed : t.Keyed keys) {e : EdgeKey} {r : K} :
    (McmcfInputs.build tenPow t keys registry).edgeCapacity.lookup e = some r ↔
      ∃ link, t.edges e = some link ∧ r = link.capacityKeysPerSecond tenPow ∧ 0 < r := by
  have listed : ∀ r, (e, r) ∈ keys.edges.filterMap (capacityEntry tenPow t) ↔
      ∃ link, t.edges e = some link ∧ r = link.capacityKeysPerSecond tenPow ∧ 0 < r := by
    intro r
    simp only [mem_filterMap, mem_capacity]
    constructor
    · rintro ⟨key, -, -, found⟩
      exact found
    intro found
    obtain ⟨link, there, -⟩ := id found
    exact ⟨e, (keyed.edges e).mpr (by rw [there]; rfl), rfl, found⟩
  have lookedUp : ∀ r, (keys.edges.filterMap (capacityEntry tenPow t)).lookup e = some r →
      ∃ link, t.edges e = some link ∧ r = link.capacityKeysPerSecond tenPow ∧ 0 < r := by
    intro r found
    obtain ⟨before, after, split, -⟩ := lookup_eq_some_iff.mp found
    rw [← listed, split]
    simp
  refine ⟨lookedUp r, fun found => ?_⟩
  obtain ⟨q, atE⟩ : ∃ q, (keys.edges.filterMap (capacityEntry tenPow t)).lookup e = some q := by
    have member := (listed r).mpr found
    generalize keys.edges.filterMap (capacityEntry tenPow t) = entries at member
    rw [← Option.isSome_iff_exists]
    simpa using ⟨r, member⟩
  obtain ⟨link, there, rfl, -⟩ := found
  obtain ⟨link', there', rfl, -⟩ := lookedUp q atE
  rw [there] at there'
  cases there'
  exact atE

def CommodityDemand.key (d : CommodityDemand K) : String × String × KeyGrade :=
  (d.srcDkms, d.dstDkms, d.grade)

variable {src dst : String} {grade : KeyGrade} {d : CommodityDemand K}

omit [LinearOrder K] in
theorem demandBetween_key {connected : Bool}
    (found : demandBetween registry connected src dst grade = some d) :
    d.key = (src, dst, grade) ∧ (grade = .qkd → connected) := by
  unfold demandBetween at found
  split at found
  · cases found
  rename_i admitted
  have connects : grade = .qkd → connected := by
    intro isQkd
    simpa [isQkd] using admitted
  split at found
  · rename_i d' reported
    obtain ⟨sameSrc, sameDst, -⟩ := registry.keyed src dst grade d' reported
    cases found
    exact ⟨by simp only [CommodityDemand.key, sameSrc, sameDst], connects⟩
  split at found
  · cases found
    exact ⟨rfl, connects⟩
  · cases found

omit [LinearOrder K] in
theorem commodity_key {comp : String → Option ℕ}
    (found : commodity t registry comp src dst grade = some d) :
    d.key = (src, dst, grade) ∧ src ≠ dst ∧ ∃ a b, t.qkcOfDkms src = some a ∧
      t.qkcOfDkms dst = some b ∧ a ≠ b ∧ (grade = .qkd → qkdConnected comp a b) := by
  unfold commodity at found
  split at found
  · cases found
  rename_i distinct
  split at found
  · rename_i a b atSrc atDst
    split at found
    · cases found
    rename_i apart
    obtain ⟨key, connects⟩ := demandBetween_key found
    exact ⟨key, distinct, a, b, atSrc, atDst, apart, connects⟩
  · cases found

end Inputs

section Routes

variable [IsStrictOrderedRing K] [FloorSemiring K] (tenPow : K → K) (t : Topology K)
  (keys : Keys)

def publishedTables : Tables where
  full := t.wcmpFromTopology tenPow keys none
  qkd := t.wcmpFromTopology tenPow keys (some .qkd)

def Routes (src dst : String) (grade : KeyGrade) (fractions : Tally EdgeKey K) : Prop :=
  src ≠ dst ∧ ∃ a b, t.qkcOfDkms src = some a ∧ t.qkcOfDkms dst = some b ∧ a ≠ b ∧
    (grade = .qkd → qkdConnected (t.qkdComponents keys) a b) ∧
    ∃ arrived, commodityEdgeFractions ((publishedTables tenPow t keys).of grade) a b =
      (fractions, arrived) ∧ 0.99 < arrived

/-- Every routed commodity that crosses an edge without capacity has its whole flow cross another
edge, so narrow that no rate above the threshold fits. -/
def DeadEdgesChoked : Prop :=
  ∀ src dst grade fractions, Routes tenPow t keys src dst grade fractions →
    ∀ e link, t.edges e = some link → link.capacityKeysPerSecond tenPow = 0 → 0 < fractions.get e →
      ∃ e' link', t.edges e' = some link' ∧ 0 < link'.capacityKeysPerSecond tenPow ∧
        1 ≤ fractions.get e' ∧
        link'.capacityKeysPerSecond tenPow < flowEpsilon * fractions.get e'

variable {tenPow t keys} {registry : DemandRegistry K}

def flowsOf (tenPow : K → K) (t : Topology K) (keys : Keys)
    (registry : DemandRegistry K) : List (Flow K) :=
  prepareFlows (McmcfInputs.build tenPow t keys registry) (publishedTables tenPow t keys)

variable {f : Flow K}

omit [IsStrictOrderedRing K] in
theorem mem_flowsOf (member : f ∈ flowsOf tenPow t keys registry) :
    ∃ src dst grade a b, commodity t registry (t.qkdComponents keys) src dst grade = some f.c ∧
      t.qkcOfDkms src = some a ∧ t.qkcOfDkms dst = some b ∧
      f = flowOf (publishedTables tenPow t keys) f.c a b := by
  obtain ⟨c, listed, made⟩ := mem_filterMap.mp member
  obtain ⟨⟨src, dst, grade⟩, -, found⟩ := mem_filterMap.mp ((mem_insertionSort _).mp listed)
  obtain ⟨key, -, a, b, atSrc, atDst, -⟩ := commodity_key found
  obtain ⟨sameSrc, sameDst, -⟩ : c.srcDkms = src ∧ c.dstDkms = dst ∧ c.grade = grade := by
    simpa [CommodityDemand.key] using key
  have atSrc' : (build tenPow t keys registry).dkmsToQkc c.srcDkms = some a := by
    rw [sameSrc]
    exact atSrc
  have atDst' : (build tenPow t keys registry).dkmsToQkc c.dstDkms = some b := by
    rw [sameDst]
    exact atDst
  simp only [atSrc', atDst'] at made
  cases made
  exact ⟨src, dst, grade, a, b, found, atSrc, atDst, rfl⟩

theorem flowsOf_routes (member : f ∈ flowsOf tenPow t keys registry) : f.Sound ∧
      (f.routable → Routes tenPow t keys f.c.srcDkms f.c.dstDkms f.c.grade f.fractions) := by
  obtain ⟨src, dst, grade, a, b, found, atSrc, atDst, made⟩ := mem_flowsOf member
  obtain ⟨key, distinct, a', b', atSrc', atDst', apart, connects⟩ := commodity_key found
  obtain ⟨rfl, rfl, rfl⟩ : f.c.srcDkms = src ∧ f.c.dstDkms = dst ∧ f.c.grade = grade := by
    simpa [CommodityDemand.key] using key
  rw [atSrc] at atSrc'
  rw [atDst] at atDst'
  cases atSrc'
  cases atDst'
  constructor
  · rw [made]
    exact flowOf_sound _ _ a b
  intro routable
  rw [made] at routable
  refine ⟨distinct, a, b, atSrc, atDst, apart, connects, _, ?_, of_decide_eq_true routable⟩
  rw [congrArg Flow.fractions made]
  rfl

def numPublished (tenPow : K → K) (t : Topology K) (keys : Keys)
    (registry : DemandRegistry K) (powf : K → K → K) (p : NumParams K) (state : NumState K) :
    List (Flow K × K) :=
  let flows := flowsOf tenPow t keys registry
  published flows (stepRates powf p state (McmcfInputs.build tenPow t keys registry).edgeCapacity flows)

def maxminPublished (tenPow : K → K) (t : Topology K) (keys : Keys)
    (registry : DemandRegistry K) : List (Flow K × K) :=
  let flows := flowsOf tenPow t keys registry
  published flows (maxminRates (McmcfInputs.build tenPow t keys registry).edgeCapacity flows)

def Feasible (tenPow : K → K) (t : Topology K) (slack : K) (rates : List (Flow K × K)) : Prop :=
  ∀ e link, t.edges e = some link →
    edgeLoad rates e ≤ link.capacityKeysPerSecond tenPow +
      if 0 < link.capacityKeysPerSecond tenPow then slack else 0

variable (keyed : t.Keyed keys) (choked : DeadEdgesChoked tenPow t keys)

include keyed choked

theorem numPublished_feasible (powf : K → K → K) (p : NumParams K) (state : NumState K) :
    Feasible tenPow t 0 (numPublished tenPow t keys registry powf p state) := by
  have sound : ∀ f ∈ flowsOf tenPow t keys registry, f.Sound :=
    fun f member => (flowsOf_routes member).1
  have live : ∀ e link, t.edges e = some link → 0 < link.capacityKeysPerSecond tenPow →
      edgeLoad (numPublished tenPow t keys registry powf p state) e ≤
        link.capacityKeysPerSecond tenPow := by
    intro e link there positive
    unfold numPublished
    rw [published_stepRates]
    exact scaled_load_le sound _ ((build_capacity keyed).mpr ⟨link, there, rfl, positive⟩) positive
  have origin : ∀ f x, (f, x) ∈ numPublished tenPow t keys registry powf p state →
      f ∈ flowsOf tenPow t keys registry ∧
        ∃ y, x = truncated y ∧ (f.routable = false → y = 0) := by
    intro f x member
    unfold numPublished at member
    rw [published_stepRates] at member
    obtain ⟨g, inside, same⟩ := mem_map.mp member
    cases same
    exact ⟨inside, _, rfl, fun lost => by simp [pricedRate, lost]⟩
  intro e link there
  by_cases positive : 0 < link.capacityKeysPerSecond tenPow
  · rw [if_pos positive, add_zero]
    exact live e link there positive
  have dead : link.capacityKeysPerSecond tenPow = 0 :=
    le_antisymm (not_lt.mp positive) (link.capacity_nonneg tenPow)
  rw [if_neg positive, dead, add_zero]
  apply le_of_eq
  apply edgeLoad_eq_zero fun f x member => sound f (origin f x member).1
  intro f x member crosses
  obtain ⟨inside, y, rfl, lost⟩ := origin f x member
  by_cases routable : f.routable
  · obtain ⟨e', link', there', positive', whole, narrow⟩ :=
      choked _ _ _ _ ((flowsOf_routes inside).2 routable) e link there dead crosses
    refine rate_eq_zero_of_narrow ?_ (live e' link' there' positive') member (one_pos.trans_le whole) narrow
    intro g x listed
    obtain ⟨insideG, y, rfl, -⟩ := origin g x listed
    exact ⟨sound g insideG, truncated_nonneg y⟩
  · rw [lost (Bool.eq_false_iff.mpr routable)]
    exact truncated_of_le le_rfl

theorem maxminPublished_feasible :
    Feasible tenPow t (2 * flowEpsilon) (maxminPublished tenPow t keys registry) := by
  have sound : ∀ f ∈ flowsOf tenPow t keys registry, f.Sound :=
    fun f member => (flowsOf_routes member).1
  have origin : ∀ f x, (f, x) ∈ maxminPublished tenPow t keys registry →
      f ∈ flowsOf tenPow t keys registry := fun f x => mem_of_published
  intro e link there
  by_cases positive : 0 < link.capacityKeysPerSecond tenPow
  · rw [if_pos positive]
    exact maxmin_load_le sound ((build_capacity keyed).mpr ⟨link, there, rfl, positive⟩) positive
  have dead : link.capacityKeysPerSecond tenPow = 0 :=
    le_antisymm (not_lt.mp positive) (link.capacity_nonneg tenPow)
  rw [if_neg positive, dead, add_zero]
  apply le_of_eq
  apply edgeLoad_eq_zero fun f x member => sound f (origin f x member)
  intro f x member crosses
  by_cases routable : f.routable
  · obtain ⟨e', link', there', positive', whole, narrow⟩ :=
      choked _ _ _ _ ((flowsOf_routes (origin f x member)).2 routable) e link there dead crosses
    exact maxmin_whole sound ((build_capacity keyed).mpr ⟨link', there', rfl, positive'⟩) positive'
      member whole narrow
  · exact maxmin_unroutable sound member (Bool.eq_false_iff.mpr routable)

omit keyed choked

end Routes

section Sole

variable [IsStrictOrderedRing K] [FloorSemiring K]

def soleDemand (k : String × String × KeyGrade) (drain : K) : DemandRegistry K where
  inner src dst grade := some ⟨src, dst, 1, 1, if (src, dst, grade) = k then drain else 0, 0, grade⟩
  keyed := by
    intro src dst grade d found
    cases found
    exact ⟨rfl, rfl, rfl⟩

variable {fractions : Tally EdgeKey K}

omit [FloorSemiring K] in
theorem exists_demand (nonneg : fractions.Nonneg) :
    ∃ drain, flowEpsilon < drain ∧ ∀ e, fractions.get e < 1 → fractions.get e * drain ≤ flowEpsilon := by
  have listed : ∃ drain : K, flowEpsilon < drain ∧
      ∀ p ∈ fractions, p.2 < 1 → p.2 * drain ≤ flowEpsilon := by
    induction fractions with
    | nil => exact ⟨flowEpsilon + 1, by linarith, by simp⟩
    | cons p rest ih =>
      obtain ⟨drain, above, small⟩ := ih fun q member => nonneg q (mem_cons_of_mem _ member)
      have nonnegP := nonneg p mem_cons_self
      by_cases part : 0 < p.2 ∧ p.2 < 1
      · have wider : flowEpsilon < flowEpsilon / p.2 := by
          rw [lt_div_iff₀ part.1]
          exact mul_lt_of_lt_one_right flowEpsilon_pos part.2
        refine ⟨min drain (flowEpsilon / p.2), lt_min above wider, fun q member less => ?_⟩
        rcases mem_cons.mp member with rfl | later
        · calc q.2 * min drain (flowEpsilon / q.2) ≤ q.2 * (flowEpsilon / q.2) :=
                mul_le_mul_of_nonneg_left (min_le_right _ _) part.1.le
            _ = flowEpsilon := mul_div_cancel₀ _ part.1.ne'
        · exact (mul_le_mul_of_nonneg_left (min_le_left _ _)
            (nonneg q (mem_cons_of_mem _ later))).trans (small q later less)
      · refine ⟨drain, above, fun q member less => ?_⟩
        rcases mem_cons.mp member with rfl | later
        · obtain none : q.2 = 0 := le_antisymm (not_lt.mp fun positive => part ⟨positive, less⟩) nonnegP
          rw [none, zero_mul]
          exact flowEpsilon_pos.le
        · exact small q later less
  obtain ⟨drain, above, small⟩ := listed
  refine ⟨drain, above, fun e less => ?_⟩
  by_cases none : fractions.get e = 0
  · rw [none, zero_mul]
    exact flowEpsilon_pos.le
  · exact small _ (Tally.mem_of_get_ne_zero none) less

theorem sole_drain_served {flows : List (Flow K)} {capacity : Tally EdgeKey K} {f : Flow K} {drain : K}
    (sound : ∀ f ∈ flows, f.Sound) (alone : flows.filter (fun g => g.routable &&
      flowEpsilon < g.c.drainRate) = [f]) (drains : f.c.drainRate = drain) (above : flowEpsilon < drain)
    (small : ∀ e, f.fractions.get e < 1 → f.fractions.get e * drain ≤ flowEpsilon)
    (wide : ∀ e cap, capacity.lookup e = some cap → 1 ≤ f.fractions.get e →
      flowEpsilon * f.fractions.get e ≤ cap) :
    ∃ d ∈ (drainPass flows capacity).shares, d.flow = f ∧ flowEpsilon ≤ d.t * d.demand := by
  subst drains
  let first : Filling K := start flows (·.c.drainRate) fun e => capacity.lookup e
  have soundFirst : first.Sound fun e => capacity.lookup e := start_sound sound _ _
  have inside : f ∈ flows ∧ (f.routable && flowEpsilon < f.c.drainRate) = true := by
    have member := mem_singleton_self f
    rw [← alone] at member
    exact mem_filter.mp member
  let share : Share K := ⟨f, f.c.drainRate, 0, f.routable && flowEpsilon < f.c.drainRate⟩
  have actives : first.actives = [share] := by
    change (flows.map _).filter _ = _
    rw [filter_map]
    exact congrArg (map _) alone
  have slope : ∀ e, first.slope.get e = f.fractions.get e * f.c.drainRate := by
    intro e
    rw [soundFirst.slope_get, actives]
    simp [share]
  have positive : 0 < f.c.drainRate := flowEpsilon_pos.trans above
  obtain ⟨δ, delta⟩ : ∃ δ, first.delta = some δ := by
    unfold delta bounds
    rw [actives]
    simp
  -- no bound on the first rise holds the demand below the threshold
  have served : flowEpsilon ≤ δ * f.c.drainRate := by
    obtain ⟨member, -⟩ := min?_eq_some_iff.mp delta
    rcases mem_append.mp member with missing | onEdge
    · rw [actives] at missing
      obtain rfl : δ = 1 := by simpa [share] using missing
      rw [one_mul]
      exact above.le
    obtain ⟨⟨e, m⟩, listed, bound⟩ := mem_filterMap.mp onEdge
    dsimp only at bound
    split at bound
    · obtain ⟨cap, known, rfl⟩ := Option.map_eq_some_iff.mp bound
      have atE : m = f.fractions.get e * f.c.drainRate := by
        have found : first.slope.get e = m := Tally.get_of_mem (Tally.nodup_gather _) listed
        rw [← found, slope]
      have whole : 1 ≤ f.fractions.get e := by
        by_contra part
        have := small e (not_le.mp part)
        linarith
      have enough := wide e cap known whole
      have fraction : 0 < f.fractions.get e := one_pos.trans_le whole
      rw [atE, div_mul_eq_mul_div, mul_div_mul_right _ _ positive.ne', le_div_iff₀ fraction]
      exact enough.trans (le_max_left cap 0)
    · cases bound
  have rises : 0 < δ := by
    by_contra flat
    have := mul_nonpos_of_nonpos_of_nonneg (not_lt.mp flat) positive.le
    linarith [flowEpsilon_pos (K := K)]
  have turned : ∃ after ∈ (first.turn δ).shares, after.flow = f ∧
      after.demand = f.c.drainRate ∧ after.t = δ := by
    have listed : share ∈ first.shares := mem_map.mpr ⟨f, inside.1, rfl⟩
    unfold turn
    rw [if_pos rises]
    refine ⟨_, mem_map_of_mem (mem_map_of_mem listed), ?_⟩
    simp [Share.rise_t, share, inside.2]
  obtain ⟨after, member, sameFlow, sameDemand, level⟩ := turned
  have advances := advances_first soundFirst delta (by rw [actives]; simp) flows.length
  obtain ⟨d, there, flow, demand, more⟩ := advances.of_mem member
  refine ⟨d, there, flow.trans sameFlow, ?_⟩
  rw [demand, sameDemand]
  rw [level] at more
  exact served.trans (mul_le_mul_of_nonneg_right more positive.le)

variable {tenPow : K → K} {t : Topology K} {keys : Keys}
  {registry : DemandRegistry K}

theorem filterMap_sublist {α β γ : Type*} {g : α → Option β} {h : β → γ} {k : α → γ}
    (agrees : ∀ x y, g x = some y → h y = k x) (l : List α) :
    ((l.filterMap g).map h).Sublist (l.map k) := by
  induction l with
  | nil => exact .slnil
  | cons x l ih =>
    cases made : g x with
    | none =>
      rw [filterMap_cons_none made]
      exact ih.cons _
    | some y =>
      rw [filterMap_cons_some made, map_cons, agrees x y made]
      exact ih.cons_cons _

omit [IsStrictOrderedRing K] in
theorem flowsOf_once (keyed : t.Keyed keys) :
    ((flowsOf tenPow t keys registry).map (·.c.key)).Nodup := by
  have triples : (keys.dkms.product (keys.dkms.product [KeyGrade.qkd, .pqc])).Nodup :=
    keyed.dkmsOnce.product (keyed.dkmsOnce.product (by decide))
  have commodities : ((build tenPow t keys registry).commodities.map (·.key)).Nodup := by
    have keyOf : ∀ (k : String × String × KeyGrade) d,
        commodity t registry (t.qkdComponents keys) k.1 k.2.1 k.2.2 = some d → d.key = id k :=
      fun k d found => (commodity_key found).1
    have formed := filterMap_sublist keyOf (keys.dkms.product (keys.dkms.product [KeyGrade.qkd, .pqc]))
    rw [map_id] at formed
    exact (((perm_insertionSort _ _).map _).nodup_iff).mpr (triples.sublist formed)
  refine Nodup.sublist (filterMap_sublist ?_ _) commodities
  intro c f made
  split at made
  · cases made
    rfl
  · cases made

theorem filter_eq_singleton {α γ : Type*} {l : List α} {h : α → γ} (once : (l.map h).Nodup) {x : α}
    (member : x ∈ l) {p : α → Bool} (holds : p x) (only : ∀ y ∈ l, p y → h y = h x) :
    l.filter p = [x] := by
  have distinct : l.Nodup := once.of_map h
  apply perm_singleton.mp
  rw [perm_ext_iff_of_nodup (distinct.filter p) (nodup_singleton x)]
  intro y
  rw [mem_filter, mem_singleton]
  constructor
  · rintro ⟨inside, holdsY⟩
    exact inj_on_of_nodup_map once inside member (only y inside holdsY)
  · rintro rfl
    exact ⟨member, holds⟩

variable {src dst : String} {grade : KeyGrade}

omit [LinearOrder K] [IsStrictOrderedRing K] [FloorSemiring K] in
theorem sole_commodity {k : String × String × KeyGrade} {drain : K} {comp : String → Option ℕ}
    {d : CommodityDemand K} (found : commodity t (soleDemand k drain) comp src dst grade = some d) :
    d = ⟨src, dst, 1, 1, if (src, dst, grade) = k then drain else 0, 0, grade⟩ := by
  unfold commodity at found
  split at found
  · cases found
  split at found
  · split at found
    · cases found
    unfold demandBetween at found
    split at found
    · cases found
    · cases found
      rfl
  · cases found

omit [Field K] [LinearOrder K] [IsStrictOrderedRing K] [FloorSemiring K] in
theorem Topology.Keyed.mem_dkms (keyed : t.Keyed keys) {id q : String}
    (anchored : t.qkcOfDkms id = some q) : id ∈ keys.dkms := by
  apply (keyed.dkms id).mpr
  cases known : t.dkms id with
  | none => simp [Topology.qkcOfDkms, known] at anchored
  | some d => rfl

omit [IsStrictOrderedRing K] in
theorem sole_flow (keyed : t.Keyed keys)
    (route : Routes tenPow t keys src dst grade fractions) (drain : K) :
    ∃ f ∈ flowsOf tenPow t keys (soleDemand (src, dst, grade) drain),
      f.c.key = (src, dst, grade) ∧ f.c.drainRate = drain ∧ f.fractions = fractions ∧ f.routable := by
  obtain ⟨distinct, a, b, atSrc, atDst, apart, connects, arrived, spread, most⟩ := route
  let c : CommodityDemand K := ⟨src, dst, 1, 1, drain, 0, grade⟩
  have formed : commodity t (soleDemand (src, dst, grade) drain) (t.qkdComponents keys) src dst grade =
      some c := by
    have admitted : (decide (grade = .qkd) && !qkdConnected (t.qkdComponents keys) a b) = false := by
      cases grade with
      | qkd => simp [connects rfl]
      | pqc => rfl
    unfold commodity demandBetween
    simp [distinct, atSrc, atDst, apart, admitted, soleDemand, c]
  have inside : c ∈ (build tenPow t keys (soleDemand (src, dst, grade) drain)).commodities := by
    apply (mem_insertionSort _).mpr
    apply mem_filterMap.mpr
    refine ⟨(src, dst, grade), ?_, formed⟩
    simp only [product, mem_flatMap, mem_map]
    have graded : grade ∈ [KeyGrade.qkd, .pqc] := by cases grade <;> decide
    exact ⟨src, keyed.mem_dkms atSrc, (dst, grade), ⟨dst, keyed.mem_dkms atDst, grade, graded, rfl⟩, rfl⟩
  refine ⟨flowOf (publishedTables tenPow t keys) c a b, ?_, rfl, rfl, ?_, ?_⟩
  · apply mem_filterMap.mpr
    have atSrc' : (build tenPow t keys
        (soleDemand (src, dst, grade) drain)).dkmsToQkc c.srcDkms = some a := atSrc
    have atDst' : (build tenPow t keys
        (soleDemand (src, dst, grade) drain)).dkmsToQkc c.dstDkms = some b := atDst
    refine ⟨c, inside, ?_⟩
    simp only [atSrc', atDst']
  · exact congrArg Prod.fst spread
  · have arrives := congrArg Prod.snd spread
    exact decide_eq_true (arrives ▸ most)

theorem choked_of_feasible (keyed : t.Keyed keys) (feasible : ∀ registry : DemandRegistry K,
      Feasible tenPow t (2 * flowEpsilon) (maxminPublished tenPow t keys registry)) :
    DeadEdgesChoked tenPow t keys := by
  intro src dst grade fractions route e link there dead crosses
  by_contra open_
  push Not at open_
  have nonneg : fractions.Nonneg := by
    obtain ⟨-, a, b, -, -, -, -, arrived, spread, -⟩ := route
    have sound := flowOf_sound (publishedTables tenPow t keys)
      (⟨src, dst, 1, 1, (0 : K), 0, grade⟩ : CommodityDemand K) a b
    have same : (commodityEdgeFractions ((publishedTables tenPow t keys).of grade) a b).1 =
        fractions := congrArg Prod.fst spread
    rw [← same]
    exact sound.nonneg
  obtain ⟨drain, above, small⟩ := exists_demand nonneg
  let registry : DemandRegistry K := soleDemand (src, dst, grade) drain
  let flows := flowsOf tenPow t keys registry
  have sound : ∀ f ∈ flows, f.Sound := fun f member => (flowsOf_routes member).1
  obtain ⟨f, inside, key, drains, rfl, routable⟩ := sole_flow keyed route drain
  have alone : flows.filter (fun g => g.routable && flowEpsilon < g.c.drainRate) = [f] := by
    apply filter_eq_singleton (flowsOf_once keyed) inside
    · simp [routable, drains, above]
    intro g member draws
    obtain ⟨src', dst', grade', a, b, found, -⟩ := mem_flowsOf member
    have formed := sole_commodity found
    have keyG : g.c.key = (src', dst', grade') := (commodity_key found).1
    rw [formed] at draws
    by_cases same : (src', dst', grade') = (src, dst, grade)
    · rw [keyG, key, same]
    · simp [same] at draws
      linarith [flowEpsilon_pos (K := K)]
  let capacity : Tally EdgeKey K := (build tenPow t keys registry).edgeCapacity
  have wide : ∀ e cap, capacity.lookup e = some cap → 1 ≤ f.fractions.get e →
      flowEpsilon * f.fractions.get e ≤ cap := by
    intro e cap known whole
    obtain ⟨link, there, rfl, live⟩ := (build_capacity keyed).mp known
    exact open_ e link there live whole
  obtain ⟨ofDrains, ofFills, rates⟩ := maxminRates_eq sound capacity
  obtain ⟨d, member, flow, served⟩ := sole_drain_served sound alone drains above small wide
  obtain ⟨g, inFills, listed⟩ := published_of_mem ofDrains ofFills member
  rw [flow] at listed
  have fills : (fillPass flows capacity).Sound _ := waterfill_sound sound
  have total : flowEpsilon ≤ servedTotal d g := by
    unfold servedTotal
    linarith [fills.served_nonneg g inFills]
  have within := feasible registry e link there
  rw [dead, if_neg (lt_irrefl 0), add_zero] at within
  have idle : truncated (servedTotal d g) = 0 := by
    refine rate_eq_zero_of_narrow ?_ within listed crosses (mul_pos flowEpsilon_pos crosses)
    intro h x published
    obtain ⟨_, -, _, -, -, -, rfl⟩ := mem_published_served ofDrains ofFills published
    exact ⟨sound h (mem_of_published published), truncated_nonneg _⟩
  unfold truncated at idle
  rw [if_neg (not_lt.mpr total)] at idle
  linarith [flowEpsilon_pos (K := K)]

end Sole

section Returned

variable [IsStrictOrderedRing K] [FloorSemiring K] {tenPow : K → K}
  {t : Topology K} {keys : Keys} {registry : DemandRegistry K}

def McmcfSolution.Returns (solution : McmcfSolution K) (rates : List (Flow K × K)) : Prop :=
  ∀ f x, (f, x) ∈ rates → solution.ratesGrade (flowId f.c.srcDkms f.c.dstDkms, f.c.grade) = some x

theorem foldl_update_of_mem {α κ ν : Type*} [DecidableEq κ] {k : α → κ} {v : α → ν} {l : List α}
    (once : (l.map k).Nodup) (start : κ → Option ν) {a : α} (member : a ∈ l) :
    l.foldl (fun m a => update m (k a) (some (v a))) start (k a) = some (v a) := by
  induction l using reverseRecOn with
  | nil => cases member
  | append_singleton l last ih =>
    rw [map_append, nodup_append] at once
    simp only [foldl_append, foldl_cons, foldl_nil]
    rcases mem_append.mp member with earlier | here
    · have apart : k a ≠ k last := once.2.2 (k a) (mem_map_of_mem earlier) (k last) (by simp)
      rw [update_of_ne apart]
      exact ih once.1 earlier
    · rw [mem_singleton.mp here, update_self]

theorem flowId_injective {src dst src' dst' : String} (validSrc : Node.isValidId src)
    (validDst : Node.isValidId dst) (same : flowId src dst = flowId src' dst') :
    src = src' ∧ dst = dst' := by
  have noArrow : ∀ id, Node.isValidId id = true → '>' ∉ id.toList := by
    intro id valid member
    simp only [Node.isValidId, Bool.and_eq_true, all_eq_true] at valid
    exact absurd (valid.2 '>' member) (by decide)
  have lists : (src.toList ++ ['-']) ++ '>' :: dst.toList =
      (src'.toList ++ ['-']) ++ '>' :: dst'.toList := by
    have := congrArg String.toList same
    simpa [flowId] using this
  have front : '>' ∉ src.toList ++ ['-'] := by simp [noArrow src validSrc]
  obtain ⟨sameSrc, -, sameDst⟩ := (append_cons_inj_of_notMem front (noArrow dst validDst)).mp lists
  exact ⟨String.toList_inj.mp (append_cancel_right sameSrc), String.toList_inj.mp sameDst⟩

omit [IsStrictOrderedRing K] in
theorem assemble_returns (keyed : t.Keyed keys) (valid : ∀ id ∈ keys.dkms, Node.isValidId id)
    (xs : List K) : (assemble (flowsOf tenPow t keys registry) xs).Returns
      (published (flowsOf tenPow t keys registry) xs) := by
  have known : ∀ f ∈ flowsOf tenPow t keys registry,
      Node.isValidId f.c.srcDkms ∧ Node.isValidId f.c.dstDkms := by
    intro f member
    obtain ⟨src, dst, grade, a, b, found, atSrc, atDst, -⟩ := mem_flowsOf member
    obtain ⟨rfl, rfl, -⟩ : f.c.srcDkms = src ∧ f.c.dstDkms = dst ∧ f.c.grade = grade := by
      simpa [CommodityDemand.key] using (commodity_key found).1
    exact ⟨valid _ (keyed.mem_dkms atSrc), valid _ (keyed.mem_dkms atDst)⟩
  have ids : ((flowsOf tenPow t keys registry).map fun f =>
      (flowId f.c.srcDkms f.c.dstDkms, f.c.grade)).Nodup := by
    refine Nodup.map_on ?_ ((flowsOf_once keyed).of_map _)
    intro f inside g inside' same
    obtain ⟨id, grade⟩ := Prod.mk.inj same
    obtain ⟨src, dst⟩ := flowId_injective (known f inside).1 (known f inside).2 id
    refine inj_on_of_nodup_map (flowsOf_once keyed) inside inside' ?_
    simp only [CommodityDemand.key, src, dst, grade]
  let id (p : Flow K × K) := (flowId p.1.c.srcDkms p.1.c.dstDkms, p.1.c.grade)
  have once : ((published (flowsOf tenPow t keys registry) xs).map id).Nodup := by
    have part := ids.sublist ((published_sublist (flowsOf tenPow t keys registry) xs).map _)
    rwa [map_map] at part
  intro f x member
  exact foldl_update_of_mem (k := id) (v := Prod.snd) once (fun _ => none) member

end Returned

/-- The published rates are feasible whatever the nodes report, and in whatever state the prices
are, exactly where no routed commodity meets an edge without capacity. -/
theorem published_rates_feasible [IsStrictOrderedRing K] [FloorSemiring K] {tenPow : K → K}
    {t : Topology K} {keys : Keys} (keyed : t.Keyed keys) :
    ((∀ registry : DemandRegistry K,
      (∀ powf p state, Feasible tenPow t 0 (numPublished tenPow t keys registry powf p state)) ∧
      Feasible tenPow t (2 * flowEpsilon) (maxminPublished tenPow t keys registry)) ↔
        DeadEdgesChoked tenPow t keys) ∧
    ((∀ id ∈ keys.dkms, Node.isValidId id) → ∀ registry : DemandRegistry K,
      (∀ powf p state, (NumState.step powf p state (McmcfInputs.build tenPow t keys registry)
        (publishedTables tenPow t keys)).2.Returns
          (numPublished tenPow t keys registry powf p state)) ∧
      (maxminAllocate (McmcfInputs.build tenPow t keys registry)
        (publishedTables tenPow t keys)).Returns
          (maxminPublished tenPow t keys registry)) := by
  refine ⟨⟨?_, ?_⟩, ?_⟩
  · intro feasible
    exact choked_of_feasible keyed fun registry => (feasible registry).2
  · intro choked registry
    exact ⟨numPublished_feasible keyed choked, maxminPublished_feasible keyed choked⟩
  · intro valid registry
    exact ⟨fun powf p state => assemble_returns keyed valid _, assemble_returns keyed valid _⟩

def pairOf (link : EdgeMeta ℚ) : Topology ℚ :=
  { meshOf ["1", "2"] [(("1", "2"), link)] with
    orrs := fun id =>
      if id = "oA" then some ⟨"oA", ⟨0, "10.0.0.7", 20001⟩, "1"⟩
      else if id = "oB" then some ⟨"oB", ⟨0, "10.0.0.7", 20001⟩, "2"⟩
      else none
    dkms := fun id =>
      if id = "dA" then some ⟨"dA", ⟨0, "10.0.0.7", 20001⟩, none, none, "oA"⟩
      else if id = "dB" then some ⟨"dB", ⟨0, "10.0.0.7", 20001⟩, none, none, "oB"⟩
      else none }

def pairKeys : Keys := ⟨["1", "2"], ["dA", "dB"], [("1", "2")]⟩

theorem pairOf_keyed (link : EdgeMeta ℚ) : (pairOf link).Keyed pairKeys where
  qkcs id := by
    have mesh : (meshOf ["1", "2"] [(("1", "2"), link)]).registered id ↔ id ∈ ["1", "2"] := meshOf_registered
    exact mesh.symm
  dkms id := by
    simp only [pairOf, pairKeys]
    split <;> rename_i first
    · simp [first]
    · split <;> rename_i second <;> simp [first, second]
  edges key := by
    have mesh : (meshOf ["1", "2"] [(("1", "2"), link)]).Keyed (meshKeys ["1", "2"] [(("1", "2"), link)]) :=
      meshOf_keyed
    exact mesh.edges key
  dkmsOnce := by decide

theorem published_rates_feasible_pair :
    Feasible (fun _ => 1) (pairOf tenKeys) 0 (numPublished (fun _ => 1) (pairOf tenKeys)
      pairKeys .empty (fun x _ => x) .default ⟨fun _ => none⟩) := by
  have choked : DeadEdgesChoked (fun _ => 1) (pairOf tenKeys) pairKeys := by
    intro src dst grade fractions route e link there dead
    obtain ⟨before, after, listed, -⟩ := lookup_eq_some_iff.mp there
    obtain ⟨-, rfl⟩ : e = ("1", "2") ∧ link = tenKeys := by
      have member : (e, link) ∈ [((("1", "2"), tenKeys) : EdgeKey × EdgeMeta ℚ)] := by
        rw [listed]
        simp
      simpa using member
    exact absurd dead (by decide +kernel)
  exact (((published_rates_feasible (pairOf_keyed tenKeys)).1.mpr choked) .empty).1 _ _ _

def darkLink : EdgeMeta ℚ := { tenKeys with measuredKeysPerS := some 0 }

theorem dark_link_promised : darkLink.capacityKeysPerSecond (fun _ => 1) = 0 ∧
    edgeLoad (numPublished (fun _ => 1) (pairOf darkLink) pairKeys .empty (fun x _ => x)
      .default ⟨fun _ => none⟩) ("1", "2") = 8192 / 5 ∧
    edgeLoad (maxminPublished (fun _ => 1) (pairOf darkLink) pairKeys .empty)
      ("1", "2") = 8192 / 5 := by
  decide +kernel

end Dkms.Sdn
