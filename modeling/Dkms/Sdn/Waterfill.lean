import Dkms.Sdn.Rates

namespace Dkms.Sdn

open List Dkms.Core Bool

variable {K : Type*} [Field K]

namespace Share

variable (share : Share K) (δ : K)

def takes (e : EdgeKey) : K := share.flow.fractions.get e * (share.t * share.demand)

@[simp] theorem rise_flow : (share.rise δ).flow = share.flow := by
  unfold rise
  split <;> rfl

@[simp] theorem rise_demand : (share.rise δ).demand = share.demand := by
  unfold rise
  split <;> rfl

@[simp] theorem rise_active : (share.rise δ).active = share.active := by
  unfold rise
  split <;> rfl

theorem rise_t : (share.rise δ).t = share.t + if share.active then δ else 0 := by
  unfold rise
  split <;> simp [*]

theorem rise_takes (e : EdgeKey) : (share.rise δ).takes e =
    share.takes e + if share.active then δ * (share.flow.fractions.get e * share.demand) else 0 := by
  unfold takes
  rw [rise_flow, rise_demand, rise_t]
  split <;> ring

end Share

namespace Filling

variable {s : Filling K} {δ : K}

def used (s : Filling K) (e : EdgeKey) : K := (s.shares.map (·.takes e)).sum

theorem residual_raise {e : EdgeKey} {r : K} (left : (s.raise δ).residual e = some r) :
    ∃ q, s.residual e = some q ∧ r = q - δ * s.slope.get e := by
  obtain ⟨q, before, rfl⟩ := Option.map_eq_some_iff.mp left
  exact ⟨q, before, rfl⟩

theorem actives_raise (δ : K) : (s.raise δ).actives = s.actives.map (Share.rise δ) := by
  unfold actives raise
  rw [filter_map]
  congr 2
  funext share
  exact share.rise_active δ

end Filling

variable [LinearOrder K]

structure Flow.Sound (f : Flow K) : Prop where
  once : f.fractions.keys.Nodup
  nonneg : f.fractions.Nonneg

namespace Filling

variable {s : Filling K} {start : EdgeKey → Option K} {δ : K} {share : Share K}

/-- What holds at every moment of a pass that started on the capacities `start`. An edge is
overdrawn by no more than the threshold, and a commodity that crosses an edge with its whole
flow has all that it took out of what was left there. -/
structure Sound (start : EdgeKey → Option K) (s : Filling K) : Prop where
  flows : ∀ share ∈ s.shares, share.flow.Sound
  served : ∀ share ∈ s.shares, 0 ≤ share.t
  wants : ∀ share ∈ s.shares, share.active ∨ share.t ≠ 0 → share.flow.routable ∧ flowEpsilon < share.demand
  balance : ∀ e, s.residual e = (start e).map (· - s.used e)
  level : ∃ T, 0 ≤ T ∧ T ≤ 1 ∧ (∀ share ∈ s.shares, share.active → share.t = T) ∧
    ∀ e r₀ r, start e = some r₀ → s.residual e = some r → min r₀ 0 - flowEpsilon * T ≤ r
  whole : ∀ share ∈ s.shares, ∀ e r₀ r, 1 ≤ share.flow.fractions.get e → start e = some r₀ →
    s.residual e = some r → share.takes e ≤ max r₀ 0 - max r 0

omit [Field K] [LinearOrder K] in
theorem mem_actives : share ∈ s.actives ↔ share ∈ s.shares ∧ share.active := by
  unfold actives
  rw [mem_filter]

theorem Sound.slope_get (sound : s.Sound start) (e : EdgeKey) :
    s.slope.get e = (s.actives.map fun share => share.flow.fractions.get e * share.demand).sum := by
  unfold slope
  rw [Tally.get_gather, map_map]
  · rfl
  intro p member
  obtain ⟨share, active, rfl⟩ := mem_map.mp member
  exact (sound.flows share (mem_actives.mp active).1).once

theorem used_raise (sound : s.Sound start) (δ : K) (e : EdgeKey) :
    (s.raise δ).used e = s.used e + δ * s.slope.get e := by
  rw [sound.slope_get]
  unfold used raise actives
  simp only [map_map]
  induction s.shares with
  | nil => simp
  | cons share shares ih =>
    simp only [map_cons, sum_cons, filter_cons, ih, Function.comp_apply, Share.rise_takes]
    split
    · simp only [map_cons, sum_cons]
      ring
    · ring

theorem Sound.freeze (sound : s.Sound start) (slope : Tally EdgeKey K) :
    (s.freeze slope).Sound start := by
  have origin : ∀ share ∈ (s.freeze slope).shares, ∃ before ∈ s.shares,
      share = { before with active := share.active } ∧ (share.active → before.active) := by
    intro share member
    obtain ⟨before, inside, rfl⟩ := mem_map.mp member
    exact ⟨before, inside, rfl, fun active => (and_eq_true_iff.mp active).1⟩
  have sameUse : ∀ e, (s.freeze slope).used e = s.used e := by
    intro e
    unfold used Filling.freeze
    rw [map_map]
    rfl
  obtain ⟨T, begun, atMost, same, floor⟩ := sound.level
  exact {
    flows := by
      intro share member
      obtain ⟨before, inside, same, -⟩ := origin share member
      rw [same]
      exact sound.flows before inside
    served := by
      intro share member
      obtain ⟨before, inside, same, -⟩ := origin share member
      rw [same]
      exact sound.served before inside
    wants := by
      intro share member rises
      obtain ⟨before, inside, same, was⟩ := origin share member
      rw [same] at rises ⊢
      exact sound.wants before inside (rises.imp was id)
    balance := by
      intro e
      rw [sameUse]
      exact sound.balance e
    level := by
      refine ⟨T, begun, atMost, ?_, floor⟩
      intro share member rises
      obtain ⟨before, inside, sameShare, was⟩ := origin share member
      rw [sameShare]
      exact same before inside (was rises)
    whole := by
      intro share member e r₀ r full
      obtain ⟨before, inside, same, -⟩ := origin share member
      rw [same] at full ⊢
      exact sound.whole before inside e r₀ r full }

theorem loop_invariant (holds : Filling K → Prop) (begins : holds s)
    (turns : ∀ s δ, holds s → s.delta = some δ → s.actives ≠ [] → holds (s.turn δ)) (fuel : ℕ) :
    holds (loop fuel s) := by
  induction fuel generalizing s with
  | zero => exact begins
  | succ fuel ih =>
    unfold loop
    split
    · exact begins
    rename_i some_active
    split
    · exact begins
    rename_i δ delta
    have turned := turns s δ begins delta some_active
    split
    · exact turned
    · exact ih turned

/-- Before the first turn, with any demand for each flow. -/
def ofDemands (entries : List (Flow K × K)) (residual : EdgeKey → Option K) : Filling K where
  shares := entries.map fun (f, demand) => ⟨f, demand, 0, f.routable && flowEpsilon < demand⟩
  residual := residual

def Advances (s s' : Filling K) : Prop :=
  Forall₂ (fun a b => b.flow = a.flow ∧ b.demand = a.demand ∧ a.t ≤ b.t) s.shares s'.shares

omit [Field K] in
theorem Advances.refl (s : Filling K) : s.Advances s :=
  forall₂_same.mpr fun _ _ => ⟨rfl, rfl, le_rfl⟩

omit [Field K] in
theorem Advances.trans {s' s'' : Filling K} (first : s.Advances s') (second : s'.Advances s'') :
    s.Advances s'' := by
  unfold Advances at *
  generalize s.shares = xs at *
  generalize s'.shares = ys at *
  generalize s''.shares = zs at *
  induction first generalizing zs with
  | nil => exact second
  | cons step _ ih =>
    cases second with
    | cons step' rest =>
      exact .cons ⟨step'.1.trans step.1, step'.2.1.trans step.2.1, step.2.2.trans step'.2.2⟩ (ih _ rest)

omit [Field K] in
theorem Advances.of_mem {s' : Filling K} (advances : s.Advances s')
    (member : share ∈ s.shares) : ∃ later ∈ s'.shares,
      later.flow = share.flow ∧ later.demand = share.demand ∧ share.t ≤ later.t := by
  unfold Advances at advances
  generalize s.shares = xs at *
  generalize s'.shares = ys at *
  induction advances with
  | nil => cases member
  | cons step _ ih =>
    rcases mem_cons.mp member with rfl | inside
    · exact ⟨_, mem_cons_self, step⟩
    · obtain ⟨later, there, found⟩ := ih inside
      exact ⟨later, mem_cons_of_mem _ there, found⟩

theorem actives_freeze (slope : Tally EdgeKey K) :
    (s.freeze slope).actives.length = (s.actives.filter (s.goesOn slope)).length := by
  unfold actives freeze
  rw [filter_map, length_map, filter_filter]
  congr 2
  funext share
  exact and_comm _ _

theorem turn_eq (nonneg : 0 ≤ δ) : s.turn δ = (s.raise δ).freeze s.slope := by
  unfold turn
  split
  · rfl
  rename_i flat
  obtain rfl : δ = 0 := le_antisymm (not_lt.mp flat) nonneg
  have still : s.raise 0 = s := by
    have shares : s.shares.map (Share.rise 0) = s.shares := by
      apply map_id''
      intro share
      unfold Share.rise
      split <;> simp
    simp only [raise, shares, zero_mul, sub_zero, Option.map_id']
  rw [still]

/-- No commodity is ahead of those that rise, and each one that has stopped is served, or is one of
the best served on an edge that is used up. -/
structure Fair (s : Filling K) : Prop where
  low : ∀ a ∈ s.shares, a.active → ∀ share ∈ s.shares, share.t ≤ a.t
  stopped : ∀ share ∈ s.shares, share.flow.routable → flowEpsilon < share.demand →
    share.active ∨ 1 - 1 / 1000000000000 ≤ share.t ∨
      ∃ e ∈ share.flow.fractions.keys, (∃ r, s.residual e = some r ∧ r ≤ 1 / 1000000000) ∧
        ∀ other ∈ s.shares, e ∈ other.flow.fractions.keys → other.t ≤ share.t ∧ ¬other.active

theorem fair_ofDemands (entries : List (Flow K × K)) (residual : EdgeKey → Option K) :
    (ofDemands entries residual).Fair := by
  constructor
  · intro a inA _ share inShare
    obtain ⟨p, -, rfl⟩ := mem_map.mp inA
    obtain ⟨q, -, rfl⟩ := mem_map.mp inShare
    exact le_rfl
  · intro share member routable wanted
    obtain ⟨p, -, rfl⟩ := mem_map.mp member
    exact .inl (and_eq_true_iff.mpr ⟨routable, decide_eq_true wanted⟩)

end Filling

variable [IsStrictOrderedRing K]

theorem flowEpsilon_pos : (0 : K) < flowEpsilon := by
  unfold flowEpsilon
  positivity

namespace Filling

variable {s : Filling K} {start : EdgeKey → Option K} {δ : K} {share : Share K}

theorem Sound.term_nonneg (sound : s.Sound start) (member : share ∈ s.actives)
    (e : EdgeKey) : 0 ≤ share.flow.fractions.get e * share.demand := by
  obtain ⟨inside, active⟩ := mem_actives.mp member
  have demand := (sound.wants share inside (.inl active)).2
  exact mul_nonneg ((sound.flows share inside).nonneg.get e) (flowEpsilon_pos.le.trans demand.le)

theorem Sound.slope_nonneg (sound : s.Sound start) (e : EdgeKey) : 0 ≤ s.slope.get e := by
  rw [sound.slope_get]
  apply sum_nonneg
  intro x member
  obtain ⟨share, active, rfl⟩ := mem_map.mp member
  exact sound.term_nonneg active e

theorem Sound.le_slope (sound : s.Sound start) (member : share ∈ s.actives)
    (e : EdgeKey) : share.flow.fractions.get e * share.demand ≤ s.slope.get e := by
  rw [sound.slope_get]
  apply single_le_sum
  · intro x inside
    obtain ⟨other, active, rfl⟩ := mem_map.mp inside
    exact sound.term_nonneg active e
  · exact mem_map_of_mem member

theorem Sound.delta_le (sound : s.Sound start) (delta : s.delta = some δ) :
    0 ≤ δ ∧ (∀ share ∈ s.actives, δ ≤ 1 - share.t) ∧
      ∀ e r, s.residual e = some r → flowEpsilon < s.slope.get e →
        δ * s.slope.get e ≤ max r 0 := by
  obtain ⟨member, below⟩ := min?_eq_some_iff.mp delta
  obtain ⟨T, -, atMost, same, -⟩ := sound.level
  refine ⟨?_, fun share active => ?_, fun e r left steep => ?_⟩
  · rcases mem_append.mp member with missing | onEdge
    · obtain ⟨share, active, rfl⟩ := mem_map.mp missing
      obtain ⟨inside, active⟩ := mem_actives.mp active
      rw [same share inside active]
      exact sub_nonneg.mpr atMost
    obtain ⟨⟨e, slope⟩, -, bound⟩ := mem_filterMap.mp onEdge
    dsimp only at bound
    split at bound
    · rename_i steep
      obtain ⟨r, -, rfl⟩ := Option.map_eq_some_iff.mp bound
      exact div_nonneg (le_max_right r 0) (flowEpsilon_pos.trans steep).le
    · cases bound
  · apply below
    exact mem_append_left _ (mem_map_of_mem active)
  have positive : 0 < s.slope.get e := flowEpsilon_pos.trans steep
  have bound : max r 0 / s.slope.get e ∈ s.bounds := by
    apply mem_append_right
    apply mem_filterMap.mpr
    refine ⟨(e, s.slope.get e), Tally.mem_of_get_ne_zero positive.ne', ?_⟩
    simp only [if_pos steep, left, Option.map_some]
  exact (le_div_iff₀ positive).mp (below _ bound)

theorem Sound.raise (sound : s.Sound start) (delta : s.delta = some δ)
    (some_active : s.actives ≠ []) : (s.raise δ).Sound start := by
  obtain ⟨nonneg, room, edges⟩ := sound.delta_le delta
  obtain ⟨T, begun, atMost, same, floor⟩ := sound.level
  have origin : ∀ share ∈ (s.raise δ).shares, ∃ before ∈ s.shares, before.rise δ = share :=
    fun share member => mem_map.mp member
  exact {
    flows := by
      intro share member
      obtain ⟨before, inside, rfl⟩ := origin share member
      rw [Share.rise_flow]
      exact sound.flows before inside
    served := by
      intro share member
      obtain ⟨before, inside, rfl⟩ := origin share member
      have := sound.served before inside
      rw [Share.rise_t]
      split <;> linarith
    wants := by
      intro share member rises
      obtain ⟨before, inside, rfl⟩ := origin share member
      rw [Share.rise_t] at rises
      rw [Share.rise_demand, Share.rise_flow]
      apply sound.wants before inside
      by_cases active : before.active
      · exact .inl active
      · simpa [active] using rises
    balance := by
      intro e
      rw [used_raise sound]
      simp only [Filling.raise, sound.balance e, Option.map_map]
      congr 1
      funext r
      simp only [Function.comp_apply]
      ring
    level := by
      obtain ⟨share, active⟩ := exists_mem_of_ne_nil _ some_active
      obtain ⟨inside, isActive⟩ := mem_actives.mp active
      have below := room share active
      rw [same share inside isActive] at below
      refine ⟨T + δ, by linarith, by linarith, ?_, ?_⟩
      · intro share member rises
        obtain ⟨before, inside, rfl⟩ := origin share member
        rw [Share.rise_active] at rises
        rw [Share.rise_t, if_pos rises, same before inside rises]
      intro e r₀ r started left
      obtain ⟨q, before, rfl⟩ := residual_raise left
      have earlier := floor e r₀ q started before
      have small : 0 ≤ flowEpsilon * δ := mul_nonneg flowEpsilon_pos.le nonneg
      by_cases steep : flowEpsilon < s.slope.get e
      · -- an edge that counts is drawn at most down to zero
        have drawn := edges e q before steep
        rcases le_total q 0 with under | above
        · rw [max_eq_right under] at drawn
          linarith
        rw [max_eq_left above] at drawn
        have := min_le_right r₀ 0
        have : 0 ≤ flowEpsilon * T := mul_nonneg flowEpsilon_pos.le begun
        linarith
      · have shallow := mul_le_mul_of_nonneg_left (not_lt.mp steep) nonneg
        linarith
    whole := by
      intro share member e r₀ r full started left
      obtain ⟨before, inside, rfl⟩ := origin share member
      obtain ⟨q, atEdge, rfl⟩ := residual_raise left
      rw [Share.rise_flow] at full
      have earlier := sound.whole before inside e r₀ q full started atEdge
      have slope := sound.slope_nonneg e
      rw [Share.rise_takes]
      split
      · rename_i active
        have demand := (sound.wants before inside (.inl active)).2
        have own := sound.le_slope (mem_actives.mpr ⟨inside, active⟩) e
        have steep : flowEpsilon < s.slope.get e := by
          have : before.demand ≤ before.flow.fractions.get e * before.demand :=
            le_mul_of_one_le_left (flowEpsilon_pos.trans demand).le full
          linarith
        have drawn := edges e q atEdge steep
        have taken := mul_le_mul_of_nonneg_left own nonneg
        rcases le_total q 0 with under | above
        · have : max (q - δ * s.slope.get e) 0 = 0 := by
            apply max_eq_right
            linarith [mul_nonneg nonneg slope]
          linarith
        · rw [max_eq_left above] at drawn earlier
          have kept : max (q - δ * s.slope.get e) 0 = q - δ * s.slope.get e := max_eq_left (by linarith)
          linarith
      · have : max (q - δ * s.slope.get e) 0 ≤ max q 0 :=
          max_le_max_right 0 (by linarith [mul_nonneg nonneg slope])
        linarith }

theorem Sound.turn (sound : s.Sound start) (delta : s.delta = some δ) (some_active : s.actives ≠ []) :
    (s.turn δ).Sound start := by
  apply freeze
  split
  · exact sound.raise delta some_active
  · exact sound

theorem Sound.loop (sound : s.Sound start) (fuel : ℕ) : (loop fuel s).Sound start :=
  loop_invariant (Sound start) sound (fun _ _ sound => sound.turn) fuel

theorem sound_ofDemands {entries : List (Flow K × K)} (sound : ∀ p ∈ entries, p.1.Sound)
    (start : EdgeKey → Option K) : (ofDemands entries start).Sound start := by
  have origin : ∀ share ∈ (ofDemands entries start).shares, ∃ p ∈ entries,
      share = ⟨p.1, p.2, 0, p.1.routable && flowEpsilon < p.2⟩ := by
    intro share member
    obtain ⟨p, inside, rfl⟩ := mem_map.mp member
    exact ⟨p, inside, rfl⟩
  have unused : ∀ e, (ofDemands entries start).used e = 0 := by
    intro e
    apply sum_eq_zero
    intro x member
    obtain ⟨share, inside, rfl⟩ := mem_map.mp member
    obtain ⟨f, -, rfl⟩ := origin share inside
    simp [Share.takes]
  exact {
    flows := by
      intro share member
      obtain ⟨f, inside, rfl⟩ := origin share member
      exact sound f inside
    served := by
      intro share member
      obtain ⟨f, -, rfl⟩ := origin share member
      exact le_rfl
    wants := by
      intro share member rises
      obtain ⟨f, -, rfl⟩ := origin share member
      simpa using rises
    balance := by
      intro e
      simp only [unused, sub_zero]
      exact Option.map_id'.symm
    level := by
      refine ⟨0, le_rfl, zero_le_one, ?_, ?_⟩
      · intro share member _
        obtain ⟨f, -, rfl⟩ := origin share member
        rfl
      intro e r₀ r started left
      obtain rfl : r₀ = r := Option.some.inj (started.symm.trans left)
      rw [mul_zero, sub_zero]
      exact min_le_left r₀ 0
    whole := by
      intro share member e r₀ r _ started left
      obtain ⟨f, -, rfl⟩ := origin share member
      obtain rfl : r₀ = r := Option.some.inj (started.symm.trans left)
      simp [Share.takes] }

theorem advances_turn (sound : s.Sound start) (delta : s.delta = some δ) :
    s.Advances (s.turn δ) := by
  have nonneg := (sound.delta_le delta).1
  unfold Advances turn freeze
  rw [forall₂_map_right_iff]
  split
  · unfold raise
    rw [forall₂_map_right_iff, forall₂_same]
    intro share _
    refine ⟨share.rise_flow δ, share.rise_demand δ, ?_⟩
    simp only [Share.rise_t]
    split <;> linarith
  · exact forall₂_same.mpr fun _ _ => ⟨rfl, rfl, le_rfl⟩

theorem advances_loop (sound : s.Sound start) (fuel : ℕ) : s.Advances (loop fuel s) := by
  refine (loop_invariant (fun s' => s'.Sound start ∧ s.Advances s') ⟨sound, .refl s⟩ ?_ fuel).2
  intro s' δ before delta some_active
  exact ⟨before.1.turn delta some_active, before.2.trans (advances_turn before.1 delta)⟩

theorem Sound.turn_lt (sound : s.Sound start) (delta : s.delta = some δ) :
    (s.turn δ).actives.length < s.actives.length := by
  have nonneg := (sound.delta_le delta).1
  have sameLength : s.actives.length = (s.raise δ).actives.length := by
    rw [actives_raise, length_map]
  rw [turn_eq nonneg, actives_freeze, sameLength, length_filter_lt_length_iff_exists, actives_raise]
  obtain ⟨member, -⟩ := min?_eq_some_iff.mp delta
  rcases mem_append.mp member with missing | onEdge
  · obtain ⟨share, active, rfl⟩ := mem_map.mp missing
    refine ⟨share.rise (1 - share.t), mem_map_of_mem active, ?_⟩
    have full : (share.rise (1 - share.t)).t = 1 := by
      rw [Share.rise_t, if_pos (mem_actives.mp active).2]
      ring
    simp [goesOn, full]
  obtain ⟨⟨e, m⟩, listed, bound⟩ := mem_filterMap.mp onEdge
  dsimp only at bound
  split at bound
  · rename_i steep
    obtain ⟨r, left, rfl⟩ := Option.map_eq_some_iff.mp bound
    have inKeys : e ∈ s.slope.keys := mem_map.mpr ⟨(e, m), listed, rfl⟩
    obtain ⟨p, part, crosses⟩ := Tally.mem_keys_gather.mp inKeys
    obtain ⟨share, active, rfl⟩ := mem_map.mp part
    refine ⟨share.rise (max r 0 / m), mem_map_of_mem active, ?_⟩
    have positive : 0 < m := flowEpsilon_pos.trans steep
    have slope : s.slope.get e = m := Tally.get_of_mem (Tally.nodup_gather _) listed
    have drained : r - max r 0 / m * m ≤ 1 / 1000000000 := by
      rw [div_mul_cancel₀ _ positive.ne']
      have := le_max_left r 0
      linarith
    have atEdge : (s.raise (max r 0 / m)).residual e = some (r - max r 0 / m * m) := by
      simp only [Filling.raise, left, Option.map_some, slope]
    have gone : (s.raise (max r 0 / m)).exhausted s.slope e = true := by
      unfold exhausted
      rw [atEdge, and_eq_true]
      exact ⟨contains_iff_mem.mpr inKeys, decide_eq_true drained⟩
    have stops : (share.rise (max r 0 / m)).flow.fractions.keys.any
        ((s.raise (max r 0 / m)).exhausted s.slope) = true := by
      rw [Share.rise_flow]
      exact any_eq_true.mpr ⟨e, crosses, gone⟩
    unfold goesOn
    rw [stops]
    simp
  · cases bound

theorem advances_first (sound : s.Sound start) (delta : s.delta = some δ)
    (some_active : s.actives ≠ []) (fuel : ℕ) : (s.turn δ).Advances (loop (fuel + 1) s) := by
  unfold loop
  rw [if_neg some_active]
  simp only [delta]
  split
  · exact .refl _
  · exact advances_loop (sound.turn delta some_active) fuel

theorem loop_done (sound : s.Sound start) {fuel : ℕ} (enough : s.actives.length ≤ fuel) :
    (loop fuel s).actives = [] := by
  induction fuel generalizing s with
  | zero => exact length_eq_zero_iff.mp (Nat.le_zero.mp enough)
  | succ fuel ih =>
    unfold loop
    split
    · rename_i none_active
      exact none_active
    rename_i some_active
    split
    · rename_i unbounded
      obtain ⟨share, rest, actives⟩ := exists_cons_of_ne_nil some_active
      unfold delta bounds at unbounded
      rw [actives] at unbounded
      simp at unbounded
    · rename_i δ delta
      have fewer := sound.turn_lt delta
      rw [if_neg (by omega)]
      exact ih (sound.turn delta some_active) (by omega)

theorem Fair.turn (fair : s.Fair) (sound : s.Sound start) (delta : s.delta = some δ) :
    (s.turn δ).Fair := by
  have nonneg := (sound.delta_le delta).1
  rw [turn_eq nonneg]
  have origin : ∀ share ∈ ((s.raise δ).freeze s.slope).shares, ∃ before ∈ s.shares,
      share.flow = before.flow ∧ share.demand = before.demand ∧
        (share.t = before.t + if before.active then δ else 0) ∧
        share.active = (before.active && (s.raise δ).goesOn s.slope share) := by
    intro share member
    obtain ⟨raised, inside, rfl⟩ := mem_map.mp member
    obtain ⟨before, listed, rfl⟩ := mem_map.mp inside
    exact ⟨before, listed, before.rise_flow δ, before.rise_demand δ, before.rise_t δ,
      congrArg (· && _) (before.rise_active δ)⟩
  constructor
  · intro a member active share other
    obtain ⟨a', inA, -, -, atA, rises⟩ := origin a member
    obtain ⟨share', inShare, -, -, atShare, -⟩ := origin share other
    have active' : a'.active := (Bool.and_eq_true_iff.mp (rises.symm.trans active)).1
    have := fair.low a' inA active' share' inShare
    rw [atA, atShare, if_pos active']
    split <;> linarith
  intro share member routable wanted
  obtain ⟨before, inside, flow, demand, level, rises⟩ := origin share member
  rw [flow] at routable ⊢
  rw [demand] at wanted
  by_cases active : before.active
  · -- what rose in this turn stops at the common level
    rw [active, Bool.true_and] at rises
    by_cases served : 1 - 1 / 1000000000000 ≤ share.t
    · exact .inr (.inl served)
    by_cases spent : before.flow.fractions.keys.any ((s.raise δ).exhausted s.slope)
    · obtain ⟨e, crosses, gone⟩ := any_eq_true.mp spent
      refine .inr (.inr ⟨e, crosses, ?_, ?_⟩)
      · obtain ⟨-, left⟩ := Bool.and_eq_true_iff.mp gone
        split at left
        · cases left
        · exact ⟨_, ‹_›, of_decide_eq_true left⟩
      · intro other listed here
        obtain ⟨other', inOther, sameFlow, -, atOther, goes⟩ := origin other listed
        have := fair.low before inside active other' inOther
        rw [atOther, level, if_pos active, goes]
        refine ⟨by split <;> linarith, ?_⟩
        have stops : other.flow.fractions.keys.any ((s.raise δ).exhausted s.slope) = true :=
          any_eq_true.mpr ⟨e, here, gone⟩
        simp [goesOn, stops]
    · left
      rw [rises, goesOn, flow, Bool.eq_false_of_not_eq_true spent]
      exact Bool.and_eq_true_iff.mpr ⟨decide_eq_true (not_le.mp served), rfl⟩
  · -- what had stopped stays where it was, and so do all that share its edge
    rw [level, if_neg active, add_zero]
    rcases fair.stopped before inside routable wanted with yes | served | ⟨e, crosses, ⟨r, left, low⟩, rest⟩
    · exact absurd yes active
    · exact .inr (.inl served)
    refine .inr (.inr ⟨e, crosses, ⟨r - δ * s.slope.get e, ?_, ?_⟩, ?_⟩)
    · simp only [freeze, raise, left, Option.map_some]
    · linarith [mul_nonneg nonneg (sound.slope_nonneg e)]
    intro other listed here
    obtain ⟨other', inOther, sameFlow, -, atOther, goes⟩ := origin other listed
    obtain ⟨below, still⟩ := rest other' inOther (sameFlow ▸ here)
    rw [atOther, if_neg still, add_zero, goes, Bool.eq_false_of_not_eq_true still]
    exact ⟨below, Bool.false_ne_true⟩

end Filling

section Pass

variable {flows : List (Flow K)} {demand : Flow K → K} {start : EdgeKey → Option K}

section

variable (sound : ∀ f ∈ flows, f.Sound)
include sound

theorem start_sound (demand : Flow K → K) (start : EdgeKey → Option K) :
    (Filling.start flows demand start).Sound start := by
  have same : Filling.start flows demand start =
      .ofDemands (flows.map fun f => (f, demand f)) start := by
    simp [Filling.start, Filling.ofDemands, Function.comp_def]
  rw [same]
  exact Filling.sound_ofDemands (by simpa using sound) start

theorem waterfill_sound : (waterfill flows demand start).Sound start :=
  (start_sound sound demand start).loop _

theorem waterfill_shares :
    Forall₂ (fun f share => share.flow = f ∧ share.demand = demand f) flows
      (waterfill flows demand start).shares := by
  have steps := Filling.advances_loop (start_sound sound demand start) (flows.length + 1)
  unfold Filling.Advances at steps
  rw [Filling.start, forall₂_map_left_iff] at steps
  exact steps.imp fun _ _ step => ⟨step.1, step.2.1⟩

end

theorem waterfill_fair {entries : List (Flow K × K)} {residual : EdgeKey → Option K}
    (sound : ∀ p ∈ entries, p.1.Sound) (nonneg : ∀ e r, residual e = some r → 0 ≤ r) {rounds : ℕ}
    (enough : entries.length ≤ rounds) :
    let s := Filling.ofDemands entries residual
    let s' := s.loop rounds
    s'.actives = [] ∧
    (∀ n δ e r, (s.loop n).delta = some δ → (s.loop n).residual e = some r → 0 ≤ r →
      flowEpsilon < (s.loop n).slope.get e → ∃ left ≥ 0, ((s.loop n).turn δ).residual e = some left) ∧
    (∀ e r, s'.residual e = some r → -flowEpsilon ≤ r) ∧
    List.Forall₂ (fun p share => share.flow = p.1 ∧ share.demand = p.2) entries s'.shares ∧
    ∀ share ∈ s'.shares, share.flow.routable → flowEpsilon < share.demand →
      1 - 1 / 1000000000000 ≤ share.t ∨
        ∃ e ∈ share.flow.fractions.keys, (∃ r, s'.residual e = some r ∧ r ≤ 1 / 1000000000) ∧
          ∀ other ∈ s'.shares, e ∈ other.flow.fractions.keys → other.t ≤ share.t := by
  intro s s'
  have begins : s.Sound residual := Filling.sound_ofDemands sound residual
  have done : s'.actives = [] := by
    apply Filling.loop_done begins
    have listed : s.shares.length = entries.length := length_map _
    exact (length_filter_le _ _).trans (listed.le.trans enough)
  refine ⟨done, ?_, ?_, ?_, ?_⟩
  · intro n δ e r delta left above steep
    obtain ⟨least, -, edges⟩ := (begins.loop n).delta_le delta
    refine ⟨r - δ * (s.loop n).slope.get e, ?_, ?_⟩
    · have := edges e r left steep
      rw [max_eq_left above] at this
      exact sub_nonneg.mpr this
    · rw [Filling.turn_eq least]
      simp only [Filling.freeze, Filling.raise, left, Option.map_some]
  · intro e r left
    obtain ⟨T, -, atMost, -, floor⟩ := (begins.loop rounds).level
    obtain ⟨r₀, started, -⟩ := Option.map_eq_some_iff.mp (((begins.loop rounds).balance e).symm.trans left)
    have := floor e r₀ r started left
    rw [min_eq_right (nonneg e r₀ started)] at this
    linarith [mul_le_of_le_one_right (flowEpsilon_pos (K := K)).le atMost]
  · have steps := forall₂_map_left_iff.mp (Filling.advances_loop begins rounds)
    exact steps.imp fun _ _ step => ⟨step.1, step.2.1⟩
  intro share member routable wanted
  have fair : s'.Sound residual ∧ s'.Fair := by
    refine Filling.loop_invariant (fun s => s.Sound residual ∧ s.Fair)
      ⟨begins, Filling.fair_ofDemands entries residual⟩ ?_ rounds
    intro s δ before delta some_active
    exact ⟨before.1.turn delta some_active, before.2.turn before.1 delta⟩
  rcases fair.2.stopped share member routable wanted with rises | served | ⟨e, crosses, low, rest⟩
  · exact absurd (Filling.mem_actives.mpr ⟨member, rises⟩) (by simp [done])
  · exact .inl served
  · exact .inr ⟨e, crosses, low, fun other listed here => (rest other listed here).1⟩

def oneEdge : Flow ℚ := ⟨⟨"dkms-1", "dkms-2", 0, 8, 2, 0, .qkd⟩, [(("1", "2"), 1)], true⟩

theorem waterfill_fair_shared : oneEdge.Sound ∧
      ((Filling.ofDemands [(oneEdge, 2), (oneEdge, 4)] fun _ => some 3).loop 2).actives = [] := by
  have sound : oneEdge.Sound := ⟨by decide, by simp [oneEdge, Tally.Nonneg]⟩
  exact ⟨sound, (waterfill_fair (by simp [sound]) (by simp) (Nat.le_refl 2)).1⟩

end Pass

end Dkms.Sdn
