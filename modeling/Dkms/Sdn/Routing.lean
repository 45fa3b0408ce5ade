import Dkms.Core.Bfs
import Dkms.Sdn.Edges
import Dkms.Sdn.HttpApi

namespace Dkms.Sdn

open List Option Function Dkms.Core Prod SimpleGraph
open Dkms.Node (KeyGrade)

structure WcmpNextHop where
  qkcId : UInt32
  weight : UInt32
  deriving DecidableEq

abbrev Wcmp := String → String → Option (List WcmpNextHop)

structure Keys where
  qkcs : List String
  dkms : List String
  edges : List EdgeKey

def sortedIds (ids : Finset String) : List String :=
  Quot.liftOn ids.val (insertionSort (· ≤ ·)) fun a b perm =>
    ((perm_insertionSort _ a).trans
      (perm.trans (perm_insertionSort _ b).symm)).eq_of_pairwise'
        (pairwise_insertionSort _ a) (pairwise_insertionSort _ b)

theorem mem_sortedIds {ids : Finset String} {id : String} : id ∈ sortedIds ids ↔ id ∈ ids := by
  obtain ⟨⟨list⟩, nodup⟩ := ids
  exact mem_insertionSort _

variable {K : Type*}

namespace Topology

structure Keyed (t : Topology K) (keys : Keys) : Prop where
  qkcs : ∀ id, id ∈ keys.qkcs ↔ t.registered id
  dkms : ∀ id, id ∈ keys.dkms ↔ (t.dkms id).isSome
  edges : ∀ key, key ∈ keys.edges ↔ (t.edges key).isSome
  dkmsOnce : keys.dkms.Nodup

section ShortestPath

variable (t : Topology K) (keys : Keys)

def neighbors (node : String) : List String := sortedIds ((t.graph node).getD ∅)

def shortestPathQkc (src dst : String) : Option (List String) :=
  if (t.graph src).isNone || (t.graph dst).isNone then none
  else if src = dst then some [src]
  else
    let (s, found) := Search.run t.neighbors (fun node _ => some node) (fun n => n = dst)
      (keys.qkcs.length + 1) (Search.start src none)
    if found then some (dst :: Search.ancestors s.mark s.order.length dst).reverse else none

def nextHopQkc (src dst : String) : Option String :=
  match t.shortestPathQkc keys src dst with
  | none => none
  | some path => if src = dst then some src else path[1]?

end ShortestPath

section Wcmp

variable [Field K] [LinearOrder K] [FloorSemiring K] (tenPow : K → K)
  (t : Topology K) (keys : Keys) (grade : Option KeyGrade)

/-- Rounds to whole hundredths of a key per second, and never to nothing. -/
def quantiseWeight (keysPerSecond : K) : UInt32 :=
  .ofNat (max 1 (min ⌊keysPerSecond * 100.0 + 0.5⌋₊ (2 ^ 32 - 1)))

def adj (v : String) : List (String × K) :=
  (keys.edges.flatMap fun key =>
    match t.edges key with
    | none => []
    | some link =>
      if grade = some .qkd ∧ link.isPqc then []
      else
        let cap := link.capacityKeysPerSecond tenPow
        (if key.1 = v then [(key.2, cap)] else []) ++
          (if key.2 = v then [(key.1, cap)] else [])).insertionSort (·.1 ≤ ·.1)

def hopSearch (dst : String) : Search String ℕ :=
  (Search.run (fun v => (t.adj tenPow keys grade v).map fst) (fun _ hops => hops + 1)
    (fun _ => false) (2 * keys.edges.length + 1) (Search.start dst 0)).1

def narrower (cap : K) : Option K → K
  | none => cap
  | some width => min cap width

/-- The two maps that the walk over the nodes fills. A width that is not there is the panic of an
index; here it counts as no bound. -/
structure Widest (K : Type*) where
  width : String → Option (Option K)
  out : String → Option (List WcmpNextHop)

def through (dist : String → Option ℕ) (width : String → Option (Option K)) (v : String) (dv : ℕ) :
    List (String × K) :=
  ((t.adj tenPow keys grade v).filter fun (n, _) => dist n = some (dv - 1)).map
    fun (n, cap) => (n, narrower cap ((width n).getD none))

def hopsOver (through : List (String × K)) : List WcmpNextHop :=
  (through.filterMap fun (n, x) => (parseU32 n).map (⟨·, quantiseWeight x⟩)).insertionSort
    (·.qkcId ≤ ·.qkcId)

def widen (dist : String → Option ℕ) (w : Widest K) (v : String) : Widest K :=
  match dist v with
  | none => w
  | some dv =>
    let through := t.through tenPow keys grade dist w.width v dv
    let best := through.foldl (fun best (_, x) => max best x) 0
    let hops := hopsOver through
    { width := update w.width v (some (some best))
      out := if hops.isEmpty then w.out else update w.out v (some hops) }

def wcmpTowards (dst : String) : String → Option (List WcmpNextHop) :=
  let s := t.hopSearch tenPow keys grade dst
  let w : Widest K := ⟨update (fun _ => none) dst (some none), fun _ => none⟩
  (s.order.tail.foldl (t.widen tenPow keys grade s.mark) w).out

def wcmpFromTopology : Wcmp := fun transit dst =>
  if t.registered dst then t.wcmpTowards tenPow keys grade dst transit else none

end Wcmp

section Links

variable {t : Topology K} {keys : Keys}

def linkGraph (t : Topology K) (grade : Option KeyGrade) : SimpleGraph String where
  Adj a b := a ≠ b ∧ ∃ link ∈ t.edge a b, ¬(grade = some .qkd ∧ link.isPqc)
  symm := ⟨fun a b linked => ⟨linked.1.symm, t.edge_comm a b ▸ linked.2⟩⟩
  loopless := ⟨fun _ linked => linked.1 rfl⟩

variable {a b src dst : String}

theorem linkGraph_adj : (t.linkGraph none).Adj a b ↔ a ≠ b ∧ (t.edge a b).isSome := by
  simp [linkGraph, isSome_iff_exists]

theorem Mirrored.key_eq (mirrored : t.Mirrored) (there : (t.edges (a, b)).isSome) :
    a ≠ b ∧ edgeKey a b = (a, b) := by
  obtain ⟨x, y, distinct, key⟩ := mirrored.keys _ there
  unfold edgeKey at key ⊢
  split at key <;> rename_i order <;> cases key
  · exact ⟨distinct, if_pos order⟩
  · exact ⟨distinct.symm, if_pos (not_le.mp order).le⟩

theorem mem_neighbors {v w : String} : w ∈ t.neighbors v ↔ t.adjacent v w := by
  unfold neighbors adjacent
  rw [mem_sortedIds]
  cases t.graph v <;> simp

theorem neighbors_lists (mirrored : t.Mirrored) (keyed : t.Keyed keys) :
    Search.Lists (t.linkGraph none) keys.qkcs.toFinset t.neighbors where
  adj := by
    intro v w member other
    rw [mem_neighbors, mirrored.adjacent v w other.symm] at member
    exact linkGraph_adj.mpr ⟨other.symm, member⟩
  all := by
    intro v w linked
    obtain ⟨other, there⟩ := linkGraph_adj.mp linked
    rwa [mem_neighbors, mirrored.adjacent v w other]
  inside := by
    intro v w member other
    rw [mem_neighbors, mirrored.adjacent v w other.symm, t.edge_comm] at member
    rw [List.mem_toFinset, keyed.qkcs]
    exact mirrored.registered w v other member

theorem shortestPathQkc_walk {G : SimpleGraph String} {path : List String}
    (lists : Search.Lists G keys.qkcs.toFinset t.neighbors)
    (found : t.shortestPathQkc keys src dst = some path) :
    ∃ walk : G.Walk src dst, walk.support = path ∧ walk.length = G.dist src dst := by
  have few : keys.qkcs.toFinset.card < keys.qkcs.length + 1 :=
    Nat.lt_succ_of_le (toFinset_card_le _)
  obtain ⟨busy, level, layered, -, halted⟩ := Search.search_layered (fun n => n = dst) lists src none
    (fun node _ => some node) few
  unfold shortestPathQkc at found
  split at found
  · cases found
  split at found
  · rename_i same
    subst same
    exact ⟨.nil, some.inj found, by simp⟩
  split at found
  rename_i s ends search
  rw [search] at layered halted
  split at found
  · rename_i stopped
    obtain ⟨w, isDst, marked⟩ := halted stopped
    obtain rfl : w = dst := by simpa using isDst
    rw [← some.inj found]
    exact layered.walk marked (layered.dist_lt_order marked)
  · cases found

theorem nextHopQkc_closer (mirrored : t.Mirrored) (keyed : t.Keyed keys) {n : String}
    (distinct : src ≠ dst) (next : t.nextHopQkc keys src dst = some n) :
    (t.linkGraph none).Adj src n ∧ (t.linkGraph none).Reachable n dst ∧
      (t.linkGraph none).dist src dst = (t.linkGraph none).dist n dst + 1 := by
  unfold nextHopQkc at next
  split at next
  · cases next
  rename_i path found
  rw [if_neg distinct] at next
  obtain ⟨walk, rfl, length⟩ := shortestPathQkc_walk (neighbors_lists mirrored keyed) found
  cases walk with
  | nil => exact absurd rfl distinct
  | @cons _ m _ first rest =>
    obtain rfl : m = n := by simpa [Walk.support_cons] using next
    have close := dist_le rest
    have triangle := first.reachable.dist_triangle_left dst
    rw [dist_eq_one_iff_adj.mpr first] at triangle
    rw [Walk.length_cons] at length
    exact ⟨first, rest.reachable, by omega⟩

end Links

section Tables

variable [Field K] [LinearOrder K] {tenPow : K → K}
  {t : Topology K} {keys : Keys} {grade : Option KeyGrade} {v n : String}

theorem mem_adj (mirrored : t.Mirrored) (keyed : t.Keyed keys) {cap : K} :
    (n, cap) ∈ t.adj tenPow keys grade v ↔ n ≠ v ∧ ∃ link ∈ t.edge v n,
      ¬(grade = some .qkd ∧ link.isPqc) ∧ cap = link.capacityKeysPerSecond tenPow := by
  unfold adj
  rw [mem_insertionSort, mem_flatMap]
  constructor
  · rintro ⟨⟨a, b⟩, member, inside⟩
    obtain ⟨link, found⟩ := isSome_iff_exists.mp ((keyed.edges _).mp member)
    obtain ⟨distinct, canonical⟩ := mirrored.key_eq ((keyed.edges _).mp member)
    simp only [found] at inside
    split at inside
    · cases inside
    rename_i admitted
    rcases mem_append.mp inside with first | second
    · split at first
      · rename_i same
        subst same
        obtain ⟨rfl, rfl⟩ : n = b ∧ cap = _ := by simpa using first
        refine ⟨distinct.symm, link, ?_, admitted, rfl⟩
        rw [edge, canonical]
        exact found
      · cases first
    split at second
    · rename_i same
      subst same
      obtain ⟨rfl, rfl⟩ : n = a ∧ cap = _ := by simpa using second
      refine ⟨distinct, link, ?_, admitted, rfl⟩
      rw [edge, edgeKey_comm, canonical]
      exact found
    · cases second
  · rintro ⟨distinct, link, found, admitted, rfl⟩
    have there : edgeKey v n ∈ keys.edges := by
      rw [keyed.edges, isSome_iff_exists]
      exact ⟨link, found⟩
    have atKey : t.edges (edgeKey v n) = some link := found
    refine ⟨edgeKey v n, there, ?_⟩
    simp only [atKey, if_neg admitted]
    unfold edgeKey
    split <;> simp

theorem adj_lists (mirrored : t.Mirrored) (keyed : t.Keyed keys) :
    Search.Lists (t.linkGraph grade) (keys.edges.flatMap fun e => [e.1, e.2]).toFinset
      fun v => (t.adj tenPow keys grade v).map Prod.fst := by
  have listed : ∀ v w, w ∈ (t.adj tenPow keys grade v).map Prod.fst ↔ (t.linkGraph grade).Adj v w := by
    intro v w
    simp only [List.mem_map, Prod.exists, exists_and_right, exists_eq_right, mem_adj mirrored keyed]
    constructor
    · rintro ⟨cap, distinct, link, found, admitted, -⟩
      exact ⟨distinct.symm, link, found, admitted⟩
    · rintro ⟨distinct, link, found, admitted⟩
      exact ⟨_, distinct.symm, link, found, admitted, rfl⟩
  exact {
    adj := fun v w member _ => (listed v w).mp member
    all := fun v w linked => (listed v w).mpr linked
    inside := by
      intro v w member _
      obtain ⟨-, link, found, -⟩ := (listed v w).mp member
      have there : edgeKey v w ∈ keys.edges := by
        rw [keyed.edges, isSome_iff_exists]
        exact ⟨link, found⟩
      simp only [List.mem_toFinset, List.mem_flatMap]
      refine ⟨edgeKey v w, there, ?_⟩
      unfold edgeKey
      split <;> simp }

theorem mem_through {width : String → Option (Option K)} {dist : String → Option ℕ} {dv : ℕ}
    {x : K} : (n, x) ∈ t.through tenPow keys grade dist width v dv ↔
      dist n = some (dv - 1) ∧ ∃ cap, (n, cap) ∈ t.adj tenPow keys grade v ∧
        x = narrower cap ((width n).getD none) := by
  simp only [through, List.mem_map, List.mem_filter, decide_eq_true_eq, Prod.exists, Prod.mk.injEq]
  constructor
  · rintro ⟨m, cap, ⟨member, close⟩, rfl, rfl⟩
    exact ⟨close, cap, member, rfl⟩
  · rintro ⟨close, cap, member, rfl⟩
    exact ⟨n, cap, ⟨member, close⟩, rfl, rfl⟩

theorem hopSearch_spec (mirrored : t.Mirrored) (keyed : t.Keyed keys) (tenPow : K → K)
    (grade : Option KeyGrade) (dst : String) :
    let s := t.hopSearch tenPow keys grade dst
    (∃ busy level, Search.Layered (t.linkGraph grade) dst 0 (fun _ hops => hops + 1) busy level s) ∧
      ∀ v d, s.mark v = some d ↔
        (t.linkGraph grade).Reachable dst v ∧ (t.linkGraph grade).dist dst v = d := by
  have few : (keys.edges.flatMap fun e => [e.1, e.2]).toFinset.card < 2 * keys.edges.length + 1 := by
    have := toFinset_card_le (keys.edges.flatMap fun e => [e.1, e.2])
    simp at this
    omega
  have lists : Search.Lists (t.linkGraph grade) _ fun v => (t.adj tenPow keys grade v).map fst :=
    adj_lists mirrored keyed
  obtain ⟨busy, level, layered, all, halted⟩ := Search.search_layered (fun _ => false) lists dst 0
    (fun _ hops => hops + 1) few
  have goes : (Search.run (fun v => (t.adj tenPow keys grade v).map fst)
      (fun _ hops => hops + 1) (fun _ => false) (2 * keys.edges.length + 1)
      (Search.start dst 0)).2 = false := by
    by_contra stops
    obtain ⟨w, impossible, -⟩ := halted (Bool.not_eq_false _ ▸ stops)
    cases impossible
  refine ⟨⟨busy, level, layered⟩, fun v d => ⟨fun marked => ?_, ?_⟩⟩
  · exact ⟨layered.reached v (isSome_of_mem marked), (layered.mark_eq_dist marked).symm⟩
  rintro ⟨reached, rfl⟩
  obtain ⟨d, marked⟩ := isSome_iff_exists.mp (all goes v reached)
  rw [layered.mark_eq_dist marked] at marked
  exact marked

variable [FloorSemiring K]

variable {hop : WcmpNextHop}

theorem mem_hopsOver {ways : List (String × K)} : hop ∈ hopsOver ways ↔
      ∃ n x, (n, x) ∈ ways ∧ parseU32 n = some hop.qkcId ∧ hop.weight = quantiseWeight x := by
  unfold hopsOver
  rw [mem_insertionSort, mem_filterMap]
  constructor
  · rintro ⟨⟨n, x⟩, member, mapped⟩
    obtain ⟨id, parsed, rfl⟩ := map_eq_some_iff.mp mapped
    exact ⟨n, x, member, parsed, rfl⟩
  · rintro ⟨n, x, member, parsed, weight⟩
    refine ⟨(n, x), member, ?_⟩
    simp only [parsed, map_some, ← weight]

section Widening

variable {dist : String → Option ℕ} {dv : ℕ}

theorem widen_cases (w : Widest K) (known : dist v = some dv) :
    let hops := hopsOver (t.through tenPow keys grade dist w.width v dv)
    (t.widen tenPow keys grade dist w v).out =
      if hops = [] then w.out else update w.out v (some hops) := by
  simp only [widen, known, List.isEmpty_iff]

theorem foldl_widen_out (order : List String) (w : Widest K) {hops : List WcmpNextHop}
    (entry : (order.foldl (t.widen tenPow keys grade dist) w).out v = some hops) :
    w.out v = some hops ∨ hops ≠ [] ∧ ∃ dv width, dist v = some dv ∧
      hops = hopsOver (t.through tenPow keys grade dist width v dv) := by
  induction order generalizing w with
  | nil => exact .inl entry
  | cons u order ih =>
    rcases ih _ entry with same | found
    · cases known : dist u with
      | none =>
        simp only [widen, known] at same
        exact .inl same
      | some du =>
        rw [widen_cases w known] at same
        split at same
        · exact .inl same
        rename_i some_hop
        by_cases here : v = u
        · subst here
          rw [update_self] at same
          obtain rfl := some.inj same
          exact .inr ⟨some_hop, du, w.width, known, rfl⟩
        · rw [update_of_ne here] at same
          exact .inl same
    · exact .inr found

theorem foldl_widen_isSome (order : List String) (w : Widest K) (known : dist v = some dv)
    (hops : ∀ width, hopsOver (t.through tenPow keys grade dist width v dv) ≠ [])
    (there : (w.out v).isSome ∨ v ∈ order) :
    ((order.foldl (t.widen tenPow keys grade dist) w).out v).isSome := by
  induction order generalizing w with
  | nil => exact there.resolve_right (by simp)
  | cons u order ih =>
    apply ih
    by_cases here : v = u
    · subst here
      left
      rw [widen_cases w known, if_neg (hops w.width), update_self]
      rfl
    refine there.imp (fun before => ?_) fun member => (mem_cons.mp member).resolve_left here
    cases knownU : dist u with
    | none => simpa only [widen, knownU] using before
    | some du =>
      rw [widen_cases w knownU]
      split
      · exact before
      · rwa [update_of_ne here]

end Widening

variable {dst : String}

variable {hops : List WcmpNextHop}

theorem wcmpTowards_hop (mirrored : t.Mirrored) (keyed : t.Keyed keys)
    (entry : t.wcmpTowards tenPow keys grade dst v = some hops) (member : hop ∈ hops) :
    ∃ n, parseU32 n = some hop.qkcId ∧ (t.linkGraph grade).Adj v n ∧
      (t.linkGraph grade).Reachable dst n ∧
      (t.linkGraph grade).dist dst v = (t.linkGraph grade).dist dst n + 1 := by
  have lists : Search.Lists (t.linkGraph grade) _ fun v => (t.adj tenPow keys grade v).map fst :=
    adj_lists mirrored keyed
  obtain ⟨-, exactly⟩ := hopSearch_spec mirrored keyed tenPow grade dst
  rcases foldl_widen_out _ _ entry with empty | ⟨-, dv, width, known, rfl⟩
  · cases empty
  obtain ⟨n, x, inside, parsed, -⟩ := mem_hopsOver.mp member
  obtain ⟨close, cap, listed, -⟩ := mem_through.mp inside
  obtain ⟨reachedN, atN⟩ := (exactly n _).mp close
  obtain ⟨reachedV, atV⟩ := (exactly v _).mp known
  have linked : (t.linkGraph grade).Adj v n :=
    lists.adj v n (mem_map_of_mem listed) ((mem_adj mirrored keyed).mp listed).1
  refine ⟨n, parsed, linked, reachedN, ?_⟩
  -- at the destination itself no neighbour is closer
  have positive : dv ≠ 0 := by
    rintro rfl
    obtain rfl := reachedV.dist_eq_zero_iff.mp atV
    obtain rfl := reachedN.dist_eq_zero_iff.mp atN
    exact linked.ne rfl
  omega

theorem wcmpTowards_ne_nil
    (entry : t.wcmpTowards tenPow keys grade dst v = some hops) : hops ≠ [] := by
  rcases foldl_widen_out _ _ entry with empty | ⟨some_hop, -⟩
  · cases empty
  · exact some_hop

theorem wcmpTowards_isSome (mirrored : t.Mirrored) (keyed : t.Keyed keys)
    (ids : ∀ n, (t.linkGraph grade).Adj v n → (parseU32 n).isSome) (other : v ≠ dst)
    (reached : (t.linkGraph grade).Reachable dst v) :
    (t.wcmpTowards tenPow keys grade dst v).isSome := by
  obtain ⟨⟨busy, level, layered⟩, exactly⟩ := hopSearch_spec mirrored keyed tenPow grade dst
  have known := (exactly v _).mpr ⟨reached, rfl⟩
  have inTail : v ∈ (t.hopSearch tenPow keys grade dst).order.tail := by
    have member := (layered.ordered v).mpr (by rw [known]; rfl)
    have first := layered.first
    cases order : (t.hopSearch tenPow keys grade dst).order with
    | nil => simp [order] at member
    | cons head tail =>
      rw [order] at member first
      obtain rfl : head = dst := by simpa using first
      exact (mem_cons.mp member).resolve_left other
  apply foldl_widen_isSome _ _ known _ (.inr inTail)
  intro width none
  obtain ⟨p, linked, reachedP, layer⟩ := Search.exists_closer reached other.symm
  obtain ⟨id, parsed⟩ := isSome_iff_exists.mp (ids p linked.symm)
  have lists : Search.Lists (t.linkGraph grade) _ fun v => (t.adj tenPow keys grade v).map fst :=
    adj_lists mirrored keyed
  obtain ⟨⟨m, cap⟩, member, same⟩ := mem_map.mp (lists.all v p linked.symm)
  obtain rfl : m = p := same
  have close := (exactly m _).mpr ⟨reachedP, rfl⟩
  rw [layer] at none
  have hop : ⟨id, quantiseWeight (narrower cap ((width m).getD .none))⟩ ∈ hopsOver
      (t.through tenPow keys grade (t.hopSearch tenPow keys grade dst).mark width v
        ((t.linkGraph grade).dist dst m + 1)) :=
    mem_hopsOver.mpr ⟨m, _, mem_through.mpr ⟨close, cap, member, rfl⟩, parsed, rfl⟩
  rw [none] at hop
  cases hop

end Tables

end Topology

end Dkms.Sdn
