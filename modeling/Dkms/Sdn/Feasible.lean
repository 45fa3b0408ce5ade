import Dkms.Sdn.Forwarding
import Dkms.Sdn.Waterfill

namespace Dkms.Sdn

open List Dkms.Core
open Dkms.Node (KeyGrade)

variable {K : Type*} [Field K] [LinearOrder K]

def edgeLoad (rates : List (Flow K × K)) (e : EdgeKey) : K :=
  (rates.map fun (f, x) => x * f.fractions.get e).sum

variable {flows : List (Flow K)} {drains fills : List (Share K)} {capacity : Tally EdgeKey K}
  {e : EdgeKey}

variable {x y cap : K}

theorem truncated_le (nonneg : 0 ≤ x) : truncated x ≤ x := by
  unfold truncated
  split
  · exact nonneg
  · exact le_rfl

theorem truncated_eq_zero (below : x ≤ y) (small : y < flowEpsilon) : truncated x = 0 := by
  unfold truncated
  rw [if_pos (below.trans_lt small)]

theorem published_sublist (flows : List (Flow K)) (xs : List K) :
    ((published flows xs).map Prod.fst).Sublist flows := by
  unfold published
  induction flows generalizing xs with
  | nil => simp
  | cons f flows ih =>
    cases xs with
    | nil => simp
    | cons x xs => exact (ih xs).cons_cons f

variable {f : Flow K}

theorem mem_of_published {xs : List K}
    (member : (f, x) ∈ published flows xs) : f ∈ flows :=
  (published_sublist flows xs).subset (mem_map_of_mem (f := Prod.fst) member)

theorem loadOf_get (sound : ∀ f ∈ flows, f.fractions.keys.Nodup) (rate : Flow K → K) (e : EdgeKey) :
    (loadOf flows (flows.map rate)).get e =
      (flows.map fun f => if 0 < rate f then f.fractions.get e * rate f else 0).sum := by
  have pairs : flows.zip (flows.map rate) = flows.map fun f => (f, rate f) := by
    have both : (flows.map id).zip (flows.map rate) = flows.map fun f => (id f, rate f) := zip_map'
    rwa [map_id] at both
  unfold loadOf
  rw [Tally.get_gather, pairs]
  · rw [map_map]
    clear sound pairs
    induction flows with
    | nil => rfl
    | cons f flows ih =>
      by_cases positive : 0 < rate f
      · simp only [map_cons, filter_cons, positive, decide_true, if_true, sum_cons, ih]
        rfl
      · simp only [map_cons, filter_cons, positive, decide_false, Bool.false_eq_true,
          if_false, sum_cons, ih, zero_add]
  · intro p member
    obtain ⟨⟨f, x⟩, inside, rfl⟩ := mem_map.mp member
    obtain ⟨g, known, same⟩ := mem_map.mp (mem_of_mem_filter (pairs ▸ inside))
    obtain rfl : g = f := congrArg Prod.fst same
    exact sound g known

theorem published_stepRates (powf : K → K → K) (p : NumParams K) (state : NumState K) :
    published flows (stepRates powf p state capacity flows) =
      flows.map fun f => (f, truncated (pricedRate powf p state.prices f / worstOf
        (overloadOf capacity (loadOf flows (flows.map (pricedRate powf p state.prices)))) f)) := by
  unfold published stepRates
  simp only [zipWith_map_right, zipWith_self]

def SharesOf (flows : List (Flow K)) (shares : List (Share K)) : Prop :=
  List.Forall₂ (fun f share => share.flow = f) flows shares

def servedTotal (drain fill : Share K) : K := drain.t * drain.demand + fill.t * fill.demand

theorem mem_published_served (ofDrains : SharesOf flows drains) (ofFills : SharesOf flows fills)
    (member : (f, x) ∈ published flows (drains.zipWith servedTotal fills)) :
    ∃ d ∈ drains, ∃ g ∈ fills, d.flow = f ∧ g.flow = f ∧ x = truncated (servedTotal d g) := by
  unfold SharesOf at ofDrains ofFills
  induction ofDrains generalizing fills with
  | nil => simp [published] at member
  | @cons f' d flows drains same _ ih =>
    cases ofFills with
    | @cons _ g _ fills same' rest =>
      simp only [published, zipWith_cons_cons] at member
      rcases mem_cons.mp member with here | later
      · cases here
        exact ⟨d, mem_cons_self, g, mem_cons_self, same, same', rfl⟩
      · obtain ⟨d', inD, g', inG, found⟩ := ih rest later
        exact ⟨d', mem_cons_of_mem _ inD, g', mem_cons_of_mem _ inG, found⟩

theorem published_of_mem (ofDrains : SharesOf flows drains) (ofFills : SharesOf flows fills)
    {d : Share K} (member : d ∈ drains) : ∃ g ∈ fills,
      (d.flow, truncated (servedTotal d g)) ∈ published flows (drains.zipWith servedTotal fills) := by
  unfold SharesOf at ofDrains ofFills
  induction ofDrains generalizing fills with
  | nil => cases member
  | @cons f d' flows drains same _ ih =>
    cases ofFills with
    | @cons _ g _ fills _ rest =>
      simp only [published, zipWith_cons_cons]
      rcases mem_cons.mp member with rfl | later
      · exact ⟨g, mem_cons_self, by rw [same]; exact mem_cons_self⟩
      · obtain ⟨g', inside, listed⟩ := ih rest later
        exact ⟨g', mem_cons_of_mem _ inside, mem_cons_of_mem _ listed⟩

variable {s : Filling K} {start : EdgeKey → Option K}

theorem Filling.Sound.residual_eq {r : K}
    (sound : s.Sound start) (started : start e = some r) : s.residual e = some (r - s.used e) := by
  rw [sound.balance e, started, Option.map_some]

variable {rates : List (Flow K × K)}

theorem edgeLoad_eq_zero (sound : ∀ f x, (f, x) ∈ rates → f.Sound)
    (idle : ∀ f x, (f, x) ∈ rates → 0 < f.fractions.get e → x = 0) : edgeLoad rates e = 0 := by
  apply sum_eq_zero
  intro y member
  obtain ⟨⟨f, x⟩, inside, rfl⟩ := mem_map.mp member
  rcases ((sound f x inside).nonneg.get e).eq_or_lt with none | crosses
  · simp [← none]
  · simp [idle f x inside crosses]

theorem EdgeMeta.capacity_nonneg (link : EdgeMeta K) (tenPow : K → K) :
    0 ≤ link.capacityKeysPerSecond tenPow := le_max_left 0 _

omit [Field K] in
theorem foldl_max_le (l : List K) (a : K) : a ≤ l.foldl max a ∧ ∀ x ∈ l, x ≤ l.foldl max a := by
  induction l generalizing a with
  | nil => simp
  | cons y l ih =>
    obtain ⟨head, rest⟩ := ih (max a y)
    refine ⟨(le_max_left a y).trans head, fun x member => ?_⟩
    rcases mem_cons.mp member with rfl | later
    · exact (le_max_right a x).trans head
    · exact rest x later

variable [IsStrictOrderedRing K]

section Spread

variable {s : Spread K} {wcmp : Wcmp} {dst v : String} {m : K}

def Spread.Sound (s : Spread K) : Prop := s.fractions.keys.Nodup ∧ s.fractions.Nonneg

variable {total : K}

theorem Spread.Sound.send (sound : s.Sound) (mass : 0 ≤ m) (positive : 0 ≤ total)
    (hop : WcmpNextHop) : (s.send v m total hop).Sound := by
  have frac : 0 ≤ m * (hop.weight.toNat : K) / total := by positivity
  exact ⟨Tally.nodup_add sound.1 _ _, sound.2.add _ frac⟩

theorem Spread.Sound.sendAll (sound : s.Sound) (mass : 0 ≤ m) (positive : 0 ≤ total)
    (hops : List WcmpNextHop) : (hops.foldl (Spread.send v m total) s).Sound := by
  induction hops generalizing s with
  | nil => exact sound
  | cons hop hops ih => exact ih (sound.send mass positive hop)

theorem Spread.Sound.move (sound : s.Sound) : (s.move wcmp dst v m).Sound := by
  unfold Spread.move
  split
  · exact sound
  rename_i mass
  split
  · exact sound
  split
  · exact sound
  dsimp only
  split
  · exact sound
  · rename_i positive
    exact sound.sendAll (not_le.mp mass).le (not_le.mp positive).le _

theorem Spread.Sound.loop (sound : s.Sound) (steps : ℕ) : (Spread.loop wcmp dst steps s).Sound := by
  induction steps generalizing s with
  | zero => exact sound
  | succ steps ih =>
    unfold Spread.loop
    split
    · exact sound
    split
    · exact ih sound
    · exact ih (Spread.Sound.move sound)

theorem flowOf_sound (tables : Tables) (c : CommodityDemand K) (a b : String) :
    (flowOf tables c a b).Sound := by
  have sound : Spread.Sound (⟨[], 0, [(a, 1)], [a]⟩ : Spread K) := by
    simp [Spread.Sound, Tally.keys, Tally.Nonneg]
  obtain ⟨once, nonneg⟩ := sound.loop maxSteps
  exact ⟨once, nonneg⟩

end Spread

theorem truncated_of_le (low : x ≤ 0) : truncated x = 0 := by
  unfold truncated
  rw [if_pos (low.trans_lt flowEpsilon_pos)]

theorem truncated_nonneg (x : K) : 0 ≤ truncated x := by
  unfold truncated
  split
  · exact le_rfl
  · rename_i big
    exact flowEpsilon_pos.le.trans (not_lt.mp big)

theorem rate_eq_zero_of_narrow
    (sound : ∀ f x, (f, x) ∈ rates → f.Sound ∧ 0 ≤ x) (load : edgeLoad rates e ≤ cap)
    (member : (f, truncated y) ∈ rates) (crosses : 0 < f.fractions.get e)
    (narrow : cap < flowEpsilon * f.fractions.get e) : truncated y = 0 := by
  have own : truncated y * f.fractions.get e ≤ edgeLoad rates e := by
    apply single_le_sum
    · intro z inside
      obtain ⟨⟨g, x⟩, listed, rfl⟩ := mem_map.mp inside
      obtain ⟨soundG, nonneg⟩ := sound g x listed
      exact mul_nonneg nonneg (soundG.nonneg.get e)
    · exact mem_map.mpr ⟨(f, truncated y), member, rfl⟩
  have small : truncated y < flowEpsilon := lt_of_mul_lt_mul_right (own.trans load |>.trans_lt narrow)
    crosses.le
  unfold truncated at small ⊢
  split
  · rfl
  rename_i big
  rw [if_neg big] at small
  exact absurd small big

theorem scaled_load_le (sound : ∀ f ∈ flows, f.Sound) (rate : Flow K → K)
    (known : capacity.lookup e = some cap) (live : 0 < cap) :
    edgeLoad (flows.map fun f => (f, truncated (rate f / worstOf
      (overloadOf capacity (loadOf flows (flows.map rate))) f))) e ≤ cap := by
  have loads := loadOf_get (fun f member => (sound f member).once) rate e
  generalize (loadOf flows (flows.map rate)) = load at *
  -- the factor by which what crosses `e` is at least reduced
  have term : ∀ f ∈ flows, truncated (rate f / worstOf (overloadOf capacity load) f) *
      f.fractions.get e ≤
        (if 0 < rate f then f.fractions.get e * rate f else 0) / max 1 (load.get e / cap) := by
    intro f inside
    have fraction := (sound f inside).nonneg.get e
    have atLeast : 0 < max 1 (load.get e / cap) := lt_of_lt_of_le one_pos (le_max_left _ _)
    have worst := foldl_max_le (f.fractions.filterMap fun p => overloadOf capacity load p.1) 1
    change _ ≤ worstOf _ f ∧ ∀ x ∈ _, x ≤ worstOf _ f at worst
    split
    · rename_i positive
      rcases fraction.eq_or_lt with none | crosses
      · simp [← none]
      have reduced : max 1 (load.get e / cap) ≤ worstOf (overloadOf capacity load) f := by
        apply max_le worst.1
        by_cases over_ : cap < load.get e
        · apply worst.2
          apply mem_filterMap.mpr
          refine ⟨_, Tally.mem_of_get_ne_zero crosses.ne', ?_⟩
          simp only [overloadOf, known, if_pos (And.intro live over_)]
        · have : load.get e / cap ≤ 1 := (div_le_one live).mpr (not_lt.mp over_)
          linarith [worst.1]
      have scaled : rate f / worstOf (overloadOf capacity load) f ≤
          rate f / max 1 (load.get e / cap) := div_le_div_of_nonneg_left positive.le atLeast reduced
      have below := truncated_le (div_nonneg positive.le (atLeast.le.trans reduced))
      calc _ ≤ rate f / max 1 (load.get e / cap) * f.fractions.get e :=
            mul_le_mul_of_nonneg_right (below.trans scaled) fraction
        _ = _ := by ring
    · rename_i idle
      rw [truncated_of_le (div_nonpos_of_nonpos_of_nonneg (not_lt.mp idle) (zero_le_one.trans worst.1))]
      simp
  calc edgeLoad _ e
      ≤ (flows.map fun f => (if 0 < rate f then f.fractions.get e * rate f else 0) /
          max 1 (load.get e / cap)).sum := by
        unfold edgeLoad
        rw [map_map]
        exact sum_le_sum term
    _ = load.get e / max 1 (load.get e / cap) := by
        simp only [div_eq_mul_inv _ (max _ _), sum_map_mul_right, ← loads]
    _ ≤ cap := by
        rw [div_le_iff₀ (lt_of_lt_of_le one_pos (le_max_left _ _))]
        calc load.get e = cap * (load.get e / cap) := by field_simp
          _ ≤ _ := mul_le_mul_of_nonneg_left (le_max_right _ _) live.le

theorem edgeLoad_served_le (ofDrains : SharesOf flows drains) (ofFills : SharesOf flows fills)
    (sound : ∀ f ∈ flows, f.Sound) (drained : ∀ d ∈ drains, 0 ≤ d.t * d.demand)
    (filled : ∀ g ∈ fills, 0 ≤ g.t * g.demand) :
    edgeLoad (published flows (drains.zipWith servedTotal fills)) e ≤
      (drains.map (·.takes e)).sum + (fills.map (·.takes e)).sum := by
  induction ofDrains generalizing fills with
  | nil =>
    cases ofFills
    simp [published, edgeLoad]
  | @cons f d flows drains same _ ih =>
    cases ofFills with
    | @cons _ g _ fills same' rest =>
      have later := ih rest (fun f inside => sound f (mem_cons_of_mem _ inside))
        (fun d inside => drained d (mem_cons_of_mem _ inside))
        fun g inside => filled g (mem_cons_of_mem _ inside)
      have here : truncated (servedTotal d g) * f.fractions.get e ≤ d.takes e + g.takes e := by
        have fraction := (sound f mem_cons_self).nonneg.get e
        have below : truncated (servedTotal d g) ≤ servedTotal d g :=
          truncated_le (add_nonneg (drained d mem_cons_self) (filled g mem_cons_self))
        calc _ ≤ servedTotal d g * f.fractions.get e := mul_le_mul_of_nonneg_right below fraction
          _ = _ := by
            unfold servedTotal Share.takes
            rw [same, same']
            ring
      simp only [edgeLoad, published, zipWith_cons_cons, map_cons, sum_cons] at later ⊢
      linarith

theorem Filling.Sound.served_nonneg
    (sound : s.Sound start) : ∀ share ∈ s.shares, 0 ≤ share.t * share.demand := by
  intro share inside
  by_cases rises : share.t = 0
  · simp [rises]
  · have demand := (sound.wants share inside (.inr rises)).2
    exact mul_nonneg (sound.served share inside) (flowEpsilon_pos.trans demand).le

section TwoPasses

variable (flows capacity)

def drainPass : Filling K := waterfill flows (·.c.drainRate) fun e => capacity.lookup e

def fillPass : Filling K := waterfill flows (·.c.fillRate) (drainPass flows capacity).residual

variable {flows capacity} (sound : ∀ f ∈ flows, f.Sound)

include sound

theorem maxminRates_eq (capacity : Tally EdgeKey K) :
    SharesOf flows (drainPass flows capacity).shares ∧ SharesOf flows (fillPass flows capacity).shares ∧
      maxminRates capacity flows = (drainPass flows capacity).shares.zipWith servedTotal
        (fillPass flows capacity).shares :=
  ⟨(waterfill_shares sound).imp fun _ _ same => same.1,
    (waterfill_shares sound).imp fun _ _ same => same.1, rfl⟩

variable {cap x : K}

theorem maxmin_load_le (known : capacity.lookup e = some cap) (live : 0 < cap) :
    edgeLoad (published flows (maxminRates capacity flows)) e ≤ cap + 2 * flowEpsilon := by
  obtain ⟨ofDrains, ofFills, rates⟩ := maxminRates_eq sound capacity
  have drains : (drainPass flows capacity).Sound _ := waterfill_sound sound
  have fills : (fillPass flows capacity).Sound _ := waterfill_sound sound
  have load := edgeLoad_served_le (e := e) ofDrains ofFills sound drains.served_nonneg fills.served_nonneg
  have afterDrain := drains.residual_eq known
  have afterFill := fills.residual_eq afterDrain
  obtain ⟨T, -, atMost, -, floor⟩ := drains.level
  obtain ⟨T', -, atMost', -, floor'⟩ := fills.level
  have first := floor e cap _ known afterDrain
  have second := floor' e _ _ afterDrain afterFill
  rw [min_eq_right live.le] at first
  have small : flowEpsilon * T ≤ (flowEpsilon : K) := mul_le_of_le_one_right flowEpsilon_pos.le atMost
  have small' : flowEpsilon * T' ≤ (flowEpsilon : K) := mul_le_of_le_one_right flowEpsilon_pos.le atMost'
  have lower : -flowEpsilon ≤ min (cap - (drainPass flows capacity).used e) 0 :=
    le_min (by linarith) (by linarith [flowEpsilon_pos (K := K)])
  rw [rates]
  unfold Filling.used at *
  linarith

variable {f : Flow K}

theorem maxmin_whole (known : capacity.lookup e = some cap) (live : 0 < cap)
    (member : (f, x) ∈ published flows (maxminRates capacity flows))
    (whole : 1 ≤ f.fractions.get e) (narrow : cap < flowEpsilon * f.fractions.get e) : x = 0 := by
  obtain ⟨ofDrains, ofFills, rates⟩ := maxminRates_eq sound capacity
  have drains : (drainPass flows capacity).Sound _ := waterfill_sound sound
  have fills : (fillPass flows capacity).Sound _ := waterfill_sound sound
  obtain ⟨d, inD, g, inG, sameD, sameG, rfl⟩ := mem_published_served ofDrains ofFills member
  have afterDrain := drains.residual_eq known
  have afterFill := fills.residual_eq afterDrain
  have first := drains.whole d inD e cap _ (sameD ▸ whole) known afterDrain
  have second := fills.whole g inG e _ _ (sameG ▸ whole) afterDrain afterFill
  rw [max_eq_left live.le] at first
  have left := le_max_right (cap - (drainPass flows capacity).used e - (fillPass flows capacity).used e) 0
  have total : f.fractions.get e * servedTotal d g ≤ cap := by
    have split : f.fractions.get e * servedTotal d g = d.takes e + g.takes e := by
      unfold servedTotal Share.takes
      rw [sameD, sameG]
      ring
    linarith
  have small : servedTotal d g < flowEpsilon := by
    by_contra big
    have := mul_le_mul_of_nonneg_left (not_lt.mp big) (zero_le_one.trans whole)
    linarith
  exact truncated_eq_zero le_rfl small

theorem maxmin_unroutable
    (member : (f, x) ∈ published flows (maxminRates capacity flows)) (lost : f.routable = false) :
    x = 0 := by
  obtain ⟨ofDrains, ofFills, rates⟩ := maxminRates_eq sound capacity
  have drains : (drainPass flows capacity).Sound _ := waterfill_sound sound
  have fills : (fillPass flows capacity).Sound _ := waterfill_sound sound
  obtain ⟨d, inD, g, inG, sameD, sameG, rfl⟩ := mem_published_served ofDrains ofFills member
  have none : d.t = 0 := by
    by_contra rises
    have := (drains.wants d inD (.inr rises)).1
    rw [sameD, lost] at this
    cases this
  have none' : g.t = 0 := by
    by_contra rises
    have := (fills.wants g inG (.inr rises)).1
    rw [sameG, lost] at this
    cases this
  apply truncated_of_le
  simp [servedTotal, none, none']

end TwoPasses

end Dkms.Sdn
