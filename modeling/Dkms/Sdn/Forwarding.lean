import Dkms.Sdn.Routing

namespace Dkms.Sdn

open List Dkms.Core
open Dkms.Node (KeyGrade)

variable {K : Type*}

/-- The entry for `other` in the full table that a push cycle sends to `qkcId`: from the published
WCMP tables, else along a shortest path of the snapshot. -/
def pushTable (snap : Topology K) (keys : Keys) (wcmp : Wcmp)
    (qkcId other : String) : Option (List WcmpNextHop) :=
  if snap.registered qkcId && snap.registered other && other ≠ qkcId then
    match wcmp qkcId other with
    | some hops => some hops
    | none =>
      match snap.nextHopQkc keys qkcId other with
      | some nh => (parseU32 nh).map fun id => [⟨id, 1⟩]
      | none => none
  else none

def Canonical (id : String) : Prop := ∃ n : UInt32, id = n.toNat.repr

theorem Canonical.eq_of_parse {a b : String} {n : UInt32}
    (ofA : Canonical a) (ofB : Canonical b) (parsesA : parseU32 a = some n)
    (parsesB : parseU32 b = some n) : a = b := by
  obtain ⟨x, rfl⟩ := ofA
  obtain ⟨y, rfl⟩ := ofB
  rw [parseU32_repr] at parsesA parsesB
  rw [Option.some.inj parsesA, Option.some.inj parsesB]

def Forwards (snap : Topology K) (tables : Wcmp) (dst q n : String) : Prop :=
  ∃ hops ∈ tables q dst, ∃ hop ∈ hops, parseU32 n = some hop.qkcId ∧ snap.registered n

section Push

variable {snap : Topology K} {keys : Keys} {wcmp : Wcmp} {q other : String}

theorem pushTable_cases {hops : List WcmpNextHop}
    (entry : pushTable snap keys wcmp q other = some hops) :
    (snap.registered q ∧ snap.registered other ∧ other ≠ q) ∧
      (wcmp q other = some hops ∨ wcmp q other = none ∧ ∃ nh id,
        snap.nextHopQkc keys q other = some nh ∧ parseU32 nh = some id ∧
          hops = [⟨id, 1⟩]) := by
  unfold pushTable at entry
  split at entry
  · rename_i pushed
    refine ⟨by simpa [and_assoc] using pushed, ?_⟩
    split at entry
    · rename_i found
      exact .inl (found.trans entry)
    rename_i missing
    split at entry
    · rename_i nh next
      obtain ⟨id, parsed, rfl⟩ := Option.map_eq_some_iff.mp entry
      exact .inr ⟨missing, nh, id, next, parsed, rfl⟩
    · cases entry
  · cases entry

end Push

theorem registered_of_adj {t : Topology K} {grade : Option KeyGrade} {a b : String}
    (mirrored : t.Mirrored) (linked : (t.linkGraph grade).Adj a b) : t.registered b := by
  obtain ⟨distinct, link, found, -⟩ := linked.symm
  exact mirrored.registered b a distinct (Option.isSome_of_mem found)

section Tables

variable [Field K] [LinearOrder K] [FloorSemiring K] {tenPow : K → K}
  {t snap : Topology K} {keys newKeys : Keys} {dst q n : String} {grade : Option KeyGrade}

theorem wcmpFromTopology_hop (mirrored : t.Mirrored) (keyed : t.Keyed keys)
    (ids : ∀ id, t.registered id → Canonical id) (canonical : Canonical n)
    {hops : List WcmpNextHop} {hop : WcmpNextHop}
    (entry : t.wcmpFromTopology tenPow keys grade q dst = some hops) (member : hop ∈ hops)
    (names : parseU32 n = some hop.qkcId) :
    t.registered dst ∧ (t.linkGraph grade).Adj q n ∧ (t.linkGraph grade).Reachable dst n ∧
      (t.linkGraph grade).dist dst q = (t.linkGraph grade).dist dst n + 1 := by
  unfold Topology.wcmpFromTopology at entry
  split at entry
  · rename_i known
    obtain ⟨m, parsed, linked, reached, closer⟩ := Topology.wcmpTowards_hop mirrored keyed entry member
    obtain rfl := (ids m (registered_of_adj mirrored linked)).eq_of_parse canonical parsed names
    exact ⟨known, linked, reached, closer⟩
  · cases entry

theorem wcmpFromTopology_isSome (mirrored : t.Mirrored) (keyed : t.Keyed keys)
    (ids : ∀ id, t.registered id → Canonical id) (tenPow : K → K) (known : t.registered dst)
    (other : q ≠ dst) (reached : (t.linkGraph grade).Reachable dst q) :
    (t.wcmpFromTopology tenPow keys grade q dst).isSome := by
  unfold Topology.wcmpFromTopology
  rw [if_pos known]
  apply Topology.wcmpTowards_isSome mirrored keyed _ other reached
  intro m linked
  obtain ⟨id, rfl⟩ := ids m (registered_of_adj mirrored linked)
  rw [parseU32_repr]
  rfl

variable (tenPow t keys snap newKeys dst)

/-- Where a QKC stands on the way to `dst`: at it, on the tables of `t`, or on the paths of the
snapshot, which may lead onto the tables and never the other way. -/
noncomputable def standing (q : String) : ℕ ×ₗ ℕ :=
  if q = dst then toLex (0, 0)
  else if (t.wcmpFromTopology tenPow keys none q dst).isSome then
    toLex (0, (t.linkGraph none).dist dst q)
  else toLex (1, (snap.linkGraph none).dist q dst)

variable {tenPow t keys snap newKeys dst}

theorem Forwards.standing_lt (mirrored : t.Mirrored) (keyed : t.Keyed keys)
    (ids : ∀ id, t.registered id → Canonical id) (newMirrored : snap.Mirrored)
    (newKeyed : snap.Keyed newKeys) (newIds : ∀ id, snap.registered id → Canonical id)
    (step : Forwards snap (pushTable snap newKeys
      (t.wcmpFromTopology tenPow keys none)) dst q n) :
    standing tenPow t snap keys dst n < standing tenPow t snap keys dst q := by
  obtain ⟨hops, entry, hop, member, names, registered⟩ := step
  obtain ⟨⟨-, -, other⟩, ways⟩ := pushTable_cases entry
  have atQ := standing.eq_def tenPow t snap keys dst q
  have atN := standing.eq_def tenPow t snap keys dst n
  rw [if_neg other.symm] at atQ
  rcases ways with found | ⟨missing, nh, id, next, parsed, rfl⟩
  · obtain ⟨known, linked, reached, closer⟩ :=
      wcmpFromTopology_hop mirrored keyed ids (newIds n registered) found member names
    rw [found, Option.isSome_some, if_pos rfl] at atQ
    rw [atQ]
    split at atN
    · rw [atN, Prod.Lex.toLex_lt_toLex]
      exact .inr ⟨rfl, by omega⟩
    rename_i away
    rw [if_pos (wcmpFromTopology_isSome mirrored keyed ids tenPow known away reached)] at atN
    rw [atN, Prod.Lex.toLex_lt_toLex]
    exact .inr ⟨rfl, by omega⟩
  obtain rfl := mem_singleton.mp member
  obtain ⟨linked, reached, closer⟩ := Topology.nextHopQkc_closer newMirrored newKeyed other.symm next
  obtain rfl : nh = n := (newIds nh (registered_of_adj newMirrored linked)).eq_of_parse
    (newIds n registered) parsed names
  rw [missing, if_neg (by simp)] at atQ
  rw [atQ]
  split at atN
  · rw [atN, Prod.Lex.toLex_lt_toLex]
    exact .inl (by simp)
  split at atN
  · rw [atN, Prod.Lex.toLex_lt_toLex]
    exact .inl (by simp)
  · rw [atN, Prod.Lex.toLex_lt_toLex]
    exact .inr ⟨rfl, by omega⟩

section Settled

variable (mirrored : t.Mirrored) (keyed : t.Keyed keys)
  (ids : ∀ id, t.registered id → Canonical id)

include mirrored keyed ids

theorem pushTable_settled (known : t.registered dst) (reached : (t.linkGraph none).Reachable dst q)
    (other : q ≠ dst) :
    ∃ hops ∈ pushTable t newKeys (t.wcmpFromTopology tenPow keys none) q dst,
      hops ≠ [] ∧ ∀ hop ∈ hops, ∃ n, parseU32 n = some hop.qkcId ∧ t.registered n := by
  obtain ⟨hops, entry⟩ := Option.isSome_iff_exists.mp
    (wcmpFromTopology_isSome mirrored keyed ids tenPow known other reached)
  have here : t.registered q := by
    obtain ⟨p, linked, -⟩ := Search.exists_closer reached other.symm
    exact registered_of_adj mirrored linked
  have pushed : pushTable t newKeys (t.wcmpFromTopology tenPow keys none) q dst =
      some hops := by
    simp [pushTable, here, known, other.symm, entry]
  have towards : t.wcmpTowards tenPow keys none dst q = some hops := by
    simpa only [Topology.wcmpFromTopology, if_pos known] using entry
  refine ⟨hops, pushed, Topology.wcmpTowards_ne_nil towards, ?_⟩
  intro hop member
  obtain ⟨n, parsed, linked, -⟩ := Topology.wcmpTowards_hop mirrored keyed towards member
  exact ⟨n, parsed, registered_of_adj mirrored linked⟩

theorem Forwards.settled_closer (reached : (t.linkGraph none).Reachable dst q)
    (step : Forwards t (pushTable t newKeys
      (t.wcmpFromTopology tenPow keys none)) dst q n) : (t.linkGraph none).Reachable dst n ∧
      (t.linkGraph none).dist dst q = (t.linkGraph none).dist dst n + 1 := by
  obtain ⟨hops, entry, hop, member, names, registered⟩ := step
  obtain ⟨⟨-, known, other⟩, found | ⟨missing, -⟩⟩ := pushTable_cases entry
  · obtain ⟨-, -, closer⟩ := wcmpFromTopology_hop mirrored keyed ids (ids n registered) found member names
    exact closer
  · have entry := wcmpFromTopology_isSome mirrored keyed ids tenPow known other.symm reached
    rw [missing] at entry
    cases entry

theorem chain_settled {path : List String} (reached : (t.linkGraph none).Reachable dst q)
    (chain : List.IsChain (Forwards t (pushTable t newKeys
      (t.wcmpFromTopology tenPow keys none)) dst) (q :: path)) :
    (t.linkGraph none).Reachable dst (path.getLastD q) ∧
      path.length + (t.linkGraph none).dist dst (path.getLastD q) =
        (t.linkGraph none).dist dst q := by
  induction path generalizing q with
  | nil => exact ⟨reached, Nat.zero_add _⟩
  | cons n path ih =>
    obtain ⟨step, rest⟩ := isChain_cons_cons.mp chain
    obtain ⟨reachedN, closer⟩ := step.settled_closer mirrored keyed ids reached
    obtain ⟨reachedLast, total⟩ := ih reachedN rest
    rw [getLastD_cons, length_cons]
    exact ⟨reachedLast, by omega⟩

end Settled

theorem pushed_tables_never_loop {tOld tNew : Topology K} {oldKeys newKeys : Keys}
    (oldMirrored : tOld.Mirrored) (oldKeyed : tOld.Keyed oldKeys)
    (oldIds : ∀ id, tOld.registered id → Canonical id) (newMirrored : tNew.Mirrored)
    (newKeyed : tNew.Keyed newKeys) (newIds : ∀ id, tNew.registered id → Canonical id) :
    let tables := pushTable tNew newKeys (tOld.wcmpFromTopology tenPow oldKeys none)
    (∀ dst q, ¬Relation.TransGen (Forwards tNew tables dst) q q) ∧
      (tOld = tNew → ∀ dst q, tNew.registered dst → (tNew.linkGraph none).Reachable q dst →
        ∀ path, List.IsChain (Forwards tNew tables dst) (q :: path) →
          path.length ≤ (tNew.linkGraph none).dist q dst ∧
          (path.getLastD q = dst ↔ path.length = (tNew.linkGraph none).dist q dst) ∧
          (path.getLastD q ≠ dst → ∃ hops ∈ tables (path.getLastD q) dst, hops ≠ [] ∧
            ∀ hop ∈ hops, ∃ n, parseU32 n = some hop.qkcId ∧ tNew.registered n)) := by
  intro tables
  constructor
  · intro dst q cycle
    -- every step goes down in a well-founded order, so none leads back
    have falls : ∀ a b, Relation.TransGen (Forwards tNew tables dst) a b →
        standing tenPow tOld tNew oldKeys dst b <
          standing tenPow tOld tNew oldKeys dst a := by
      intro a b walk
      induction walk with
      | single step =>
        exact step.standing_lt oldMirrored oldKeyed oldIds newMirrored newKeyed newIds
      | tail _ step ih =>
        exact (step.standing_lt oldMirrored oldKeyed oldIds newMirrored newKeyed newIds).trans ih
    exact lt_irrefl _ (falls q q cycle)
  · rintro rfl dst q known connected path chain
    obtain ⟨reached, total⟩ := chain_settled oldMirrored oldKeyed oldIds connected.symm chain
    rw [SimpleGraph.dist_comm (u := q)]
    refine ⟨by omega, ?_, pushTable_settled oldMirrored oldKeyed oldIds known reached⟩
    rw [eq_comm, ← reached.dist_eq_zero_iff]
    omega

end Tables

def meshOf (ids : List String) (links : List (EdgeKey × EdgeMeta ℚ)) : Topology ℚ :=
  let linked (a b : String) : Bool := (links.lookup (edgeKey a b)).isSome
  { Topology.empty with
    qkcs := fun id => if id ∈ ids then some ⟨id, ⟨0, "10.0.0.7", 20001⟩, none, none⟩ else none
    graph := fun id => if id ∈ ids then some (ids.filter (linked id)).toFinset else none
    edges := fun key => links.lookup key }

def meshKeys (ids : List String) (links : List (EdgeKey × EdgeMeta ℚ)) : Keys :=
  ⟨ids, [], links.map Prod.fst⟩

section Mesh

variable {ids : List String} {links : List (EdgeKey × EdgeMeta ℚ)}

theorem meshOf_registered {id : String} : (meshOf ids links).registered id ↔ id ∈ ids := by
  unfold meshOf Topology.registered
  by_cases member : id ∈ ids <;> simp [member]

theorem meshOf_mirrored (sound : ∀ e ∈ links, e.1.1 < e.1.2 ∧ e.1.1 ∈ ids ∧
      e.1.2 ∈ ids) : (meshOf ids links).Mirrored := by
  have listed : ∀ key, (links.lookup key).isSome → key.1 < key.2 ∧
      key.1 ∈ ids ∧ key.2 ∈ ids := by
    intro key there
    obtain ⟨link, found⟩ := Option.isSome_iff_exists.mp there
    obtain ⟨before, after, rfl, -⟩ := lookup_eq_some_iff.mp found
    exact sound (key, link) (by simp)
  have ends : ∀ a b, (links.lookup (edgeKey a b)).isSome →
      a ∈ ids ∧ b ∈ ids := by
    intro a b there
    obtain ⟨-, first, second⟩ := listed _ there
    unfold edgeKey at first second
    split at first <;> rename_i order
    · rw [if_pos order] at second
      exact ⟨first, second⟩
    · rw [if_neg order] at second
      exact ⟨second, first⟩
  exact {
    adjacent := by
      intro a b _
      rw [Bool.eq_iff_iff]
      change _ ↔ (links.lookup (edgeKey a b)).isSome
      by_cases atA : a ∈ ids
      · simp only [meshOf, Topology.adjacent, if_pos atA, decide_eq_true_eq, mem_toFinset, mem_filter]
        exact ⟨fun near => near.2, fun there => ⟨(ends a b there).2, there⟩⟩
      · simp only [meshOf, Topology.adjacent, if_neg atA]
        exact ⟨fun near => (Bool.false_ne_true near).elim, fun there => absurd (ends a b there).1 atA⟩
    registered := fun a b _ there => meshOf_registered.mpr (ends a b there).1
    keys := by
      intro key there
      have less := (listed key there).1
      exact ⟨key.1, key.2, less.ne, by simp [edgeKey, less.le]⟩ }

theorem meshOf_keyed : (meshOf ids links).Keyed (meshKeys ids links) where
  qkcs _ := meshOf_registered.symm
  dkms id := by simp [meshOf, meshKeys, Topology.empty]
  edges key := by simp [meshOf, meshKeys]
  dkmsOnce := nodup_nil

end Mesh

def tenKeys : EdgeMeta ℚ := ⟨0, 10, 0, 4096, .qkd, 256, 0, none⟩

def lineLinks : List (EdgeKey × EdgeMeta ℚ) := [(("1", "2"), tenKeys), (("2", "3"), tenKeys)]

def movedLinks : List (EdgeKey × EdgeMeta ℚ) :=
  [(("2", "3"), tenKeys), (("1", "4"), tenKeys), (("3", "4"), tenKeys)]

def movedTables : Wcmp :=
  pushTable (meshOf ["1", "2", "3", "4"] movedLinks) (meshKeys ["1", "2", "3", "4"] movedLinks)
    ((meshOf ["1", "2", "3"] lineLinks).wcmpFromTopology (fun _ => 1)
      (meshKeys ["1", "2", "3"] lineLinks) none)

theorem fourIds : ∀ id ∈ ["1", "2", "3", "4"], Canonical id := by
  simp only [forall_mem_cons, not_mem_nil, false_imp_iff, implies_true, and_true]
  exact ⟨⟨1, by decide +kernel⟩, ⟨2, by decide +kernel⟩, ⟨3, by decide +kernel⟩, ⟨4, by decide +kernel⟩⟩

theorem pushed_tables_never_loop_moved :
    movedTables "4" "2" = some [⟨3, 1⟩] ∧ movedTables "3" "2" = some [⟨2, 1000⟩] ∧
      ¬Relation.TransGen (Forwards (meshOf ["1", "2", "3", "4"] movedLinks) movedTables
        "2") "4" "4" := by
  have line : (meshOf ["1", "2", "3"] lineLinks).Mirrored := meshOf_mirrored (by decide +kernel)
  have moved : (meshOf ["1", "2", "3", "4"] movedLinks).Mirrored := meshOf_mirrored (by decide +kernel)
  have lineIds : ∀ id, (meshOf ["1", "2", "3"] lineLinks).registered id →
      Canonical id :=
    fun id known => fourIds id (mem_append_left ["4"] (meshOf_registered.mp known))
  have movedIds : ∀ id, (meshOf ["1", "2", "3", "4"] movedLinks).registered id →
      Canonical id := fun id known => fourIds id (meshOf_registered.mp known)
  exact ⟨by decide +kernel, by decide +kernel,
    (pushed_tables_never_loop line meshOf_keyed lineIds moved meshOf_keyed movedIds).1 "2" "4"⟩

namespace Topology

variable {t : Topology K} {keys : Keys}

structure Symmetric (t : Topology K) : Prop where
  domain : ∀ id, (t.graph id).isSome = t.registered id
  symm : ∀ a b, t.adjacent a b → t.adjacent b a

structure Leads (t : Topology K) (src dst : String) (path : List String) : Prop where
  first : path.head? = some src
  last : path.getLast? = some dst
  follows : path.IsChain fun a b => t.adjacent a b

abbrev hops (t : Topology K) : SimpleGraph String := .fromRel fun a b => t.adjacent a b

theorem symmetric_lists (symmetric : t.Symmetric) (keyed : t.Keyed keys) :
    Search.Lists t.hops keys.qkcs.toFinset t.neighbors where
  adj v w member other := ⟨other.symm, .inl (mem_neighbors.mp member)⟩
  all v w linked := mem_neighbors.mpr (linked.2.elim id (symmetric.symm w v))
  inside v w member _ := by
    have back := symmetric.symm v w (mem_neighbors.mp member)
    rw [List.mem_toFinset, keyed.qkcs, ← symmetric.domain]
    unfold adjacent at back
    cases here : t.graph w with
    | none => simp [here] at back
    | some adj => rfl

theorem Leads.walk {src dst : String} {path : List String} (leads : t.Leads src dst path) :
    ∃ walk : t.hops.Walk src dst, walk.length < path.length := by
  obtain ⟨first, last, follows⟩ := leads
  induction path generalizing src with
  | nil => cases first
  | cons a rest ih =>
    obtain rfl := Option.some.inj first
    cases rest with
    | nil =>
      obtain rfl := Option.some.inj last
      exact ⟨.nil, by simp⟩
    | cons b rest =>
      rw [isChain_cons_cons] at follows
      obtain ⟨walk, short⟩ := ih rfl last follows.2
      by_cases same : a = b
      · subst same
        exact ⟨walk, short.trans (Nat.lt_succ_self _)⟩
      · exact ⟨.cons ⟨same, .inl follows.1⟩ walk, Nat.succ_lt_succ short⟩

theorem shortestPathQkc_correct (symmetric : t.Symmetric) (keyed : t.Keyed keys) {src dst : String}
    (atSrc : t.registered src) (atDst : t.registered dst) :
    ((t.shortestPathQkc keys src dst).isSome ↔ ∃ path, t.Leads src dst path) ∧
      ∀ path ∈ t.shortestPathQkc keys src dst, t.Leads src dst path ∧ path.Nodup ∧
        ∀ other, t.Leads src dst other → path.length ≤ other.length := by
  have lists := symmetric_lists symmetric keyed
  have found : ∀ path ∈ t.shortestPathQkc keys src dst, t.Leads src dst path ∧ path.Nodup ∧
      ∀ other, t.Leads src dst other → path.length ≤ other.length := by
    intro path found
    obtain ⟨walk, rfl, shortest⟩ := shortestPathQkc_walk lists found
    refine ⟨⟨?_, ?_, ?_⟩, (walk.isPath_of_length_eq_dist shortest).support_nodup, ?_⟩
    · rw [head?_eq_some_head walk.support_ne_nil, walk.head_support]
    · rw [getLast?_eq_some_getLast walk.support_ne_nil, walk.getLast_support]
    · exact walk.isChain_adj_support.imp fun a b linked => linked.2.elim id (symmetric.symm b a)
    · intro other leads
      obtain ⟨way, short⟩ := leads.walk
      have := SimpleGraph.dist_le way
      rw [walk.length_support]
      omega
  refine ⟨⟨fun some_path => ?_, fun ⟨path, leads⟩ => ?_⟩, found⟩
  · obtain ⟨path, some_path⟩ := Option.isSome_iff_exists.mp some_path
    exact ⟨path, (found path some_path).1⟩
  obtain ⟨way, -⟩ := leads.walk
  have few : keys.qkcs.toFinset.card < keys.qkcs.length + 1 :=
    Nat.lt_succ_of_le (toFinset_card_le _)
  obtain ⟨busy, level, -, all, -⟩ := Search.search_layered (fun n => n = dst) lists src none
    (fun node _ => some node) few
  unfold shortestPathQkc
  rw [if_neg (by simp [← Option.not_isSome, symmetric.domain, atSrc, atDst])]
  split
  · rfl
  rename_i distinct
  split
  rename_i s ends search
  rw [search] at all
  cases ends with
  | true => rfl
  | false =>
    have marked := Search.run_unhalted (fun n => n = dst) (w := dst) (by rw [search]) (by simp)
      (by rw [search]; exact all rfl dst way.reachable)
    simp [Search.start, Function.update_of_ne (Ne.symm distinct)] at marked

theorem shortestPathQkc_correct_line :
    let t := meshOf ["1", "2", "3"] lineLinks
    t.shortestPathQkc (meshKeys ["1", "2", "3"] lineLinks) "1" "3" = some ["1", "2", "3"] ∧
      ∀ other, t.Leads "1" "3" other → 3 ≤ other.length := by
  have found : (meshOf ["1", "2", "3"] lineLinks).shortestPathQkc
      (meshKeys ["1", "2", "3"] lineLinks) "1" "3" = some ["1", "2", "3"] := by decide +kernel
  have mirrored : (meshOf ["1", "2", "3"] lineLinks).Mirrored := meshOf_mirrored (by decide +kernel)
  have symmetric : (meshOf ["1", "2", "3"] lineLinks).Symmetric := by
    constructor
    · intro id
      by_cases member : id ∈ ["1", "2", "3"] <;> simp only [meshOf, registered, member] <;> rfl
    · intro a b linked
      by_cases same : a = b
      · rwa [same] at linked ⊢
      · rw [mirrored.adjacent b a (Ne.symm same), edge_comm, ← mirrored.adjacent a b same]
        exact linked
  exact ⟨found, ((shortestPathQkc_correct symmetric meshOf_keyed (meshOf_registered.mpr (by decide))
    (meshOf_registered.mpr (by decide))).2 _ found).2.2⟩

end Topology

end Dkms.Sdn
