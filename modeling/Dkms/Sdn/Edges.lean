import Dkms.Sdn.Topology

namespace Dkms.Sdn

open Function
open Std (ExtTreeMap)

variable {K : Type*}

namespace Topology

variable {t t' : Topology K} {a b me other : String}

theorem edge_comm (t : Topology K) (a b : String) : t.edge a b = t.edge b a := by
  unfold edge
  rw [edgeKey_comm]

theorem adjacent_insertNeighbor (x y : String) :
    (t.insertNeighbor x y).adjacent a b = (t.adjacent a b || decide (a = x ∧ b = y)) := by
  unfold adjacent insertNeighbor
  by_cases same : a = x
  · subst same
    cases here : t.graph a with
    | none => simp
    | some adj => simp [Bool.or_comm]
  · simp [same]

theorem adjacent_removeNeighbor (x y : String) :
    (t.removeNeighbor x y).adjacent a b = (t.adjacent a b && !decide (a = x ∧ b = y)) := by
  unfold adjacent removeNeighbor
  by_cases same : a = x
  · subst same
    cases here : t.graph a with
    | none => simp
    | some adj => simp [Bool.and_comm]
  · simp [same]

theorem adjacent_insertPair (x y : String) :
    ((t.insertNeighbor x y).insertNeighbor y x).adjacent a b =
      if edgeKey a b = edgeKey x y then true else t.adjacent a b := by
  rw [adjacent_insertNeighbor, adjacent_insertNeighbor]
  by_cases key : edgeKey a b = edgeKey x y
  · rw [if_pos key]
    rcases edgeKey_eq_iff.mp key with same | same
    · rw [decide_eq_true same, Bool.or_true, Bool.true_or]
    · rw [decide_eq_true same, Bool.or_true]
  · rw [if_neg key]
    obtain ⟨mine, theirs⟩ := not_or.mp (edgeKey_eq_iff.not.mp key)
    rw [decide_eq_false mine, decide_eq_false theirs, Bool.or_false, Bool.or_false]

theorem adjacent_removePair (x y : String) :
    ((t.removeNeighbor x y).removeNeighbor y x).adjacent a b =
      if edgeKey a b = edgeKey x y then false else t.adjacent a b := by
  rw [adjacent_removeNeighbor, adjacent_removeNeighbor]
  by_cases key : edgeKey a b = edgeKey x y
  · rw [if_pos key]
    rcases edgeKey_eq_iff.mp key with same | same
    · rw [decide_eq_true same, Bool.not_true, Bool.and_false, Bool.false_and]
    · rw [decide_eq_true same, Bool.not_true, Bool.and_false]
  rw [if_neg key]
  obtain ⟨mine, theirs⟩ := not_or.mp (edgeKey_eq_iff.not.mp key)
  rw [decide_eq_false mine, decide_eq_false theirs, Bool.not_false, Bool.and_true, Bool.and_true]

structure Mirrored (t : Topology K) : Prop where
  adjacent : ∀ a b, a ≠ b → t.adjacent a b = (t.edge a b).isSome
  registered : ∀ a b, a ≠ b → (t.edge a b).isSome → t.registered a
  keys : ∀ key, (t.edges key).isSome → ∃ a b, a ≠ b ∧ key = edgeKey a b

def Linked (t : Topology K) (a b : String) : Prop :=
  t.registered a ∧ t.registered b ∧ ((t.declaration a b).isSome ∨ (t.declaration b a).isSome)

def Agreed (t : Topology K) (a b : String) (m : EdgeMeta K) : Prop :=
  t.declaration a b = some m ∧ t.declaration b a = some m ∨
    t.declaration a b = some m ∧ t.declaration b a = none ∨
    t.declaration a b = none ∧ t.declaration b a = some m

structure Settled (t : Topology K) (a b : String) : Prop where
  linked : (t.edge a b).isSome ↔ t.Linked a b
  agreed : ∀ link ∈ t.edge a b, ∀ m, t.Agreed a b m → link.declaredPart = m.declaredPart

theorem keepMeasured_declaredPart (t : Topology K) (a b : String) (link : EdgeMeta K) :
    (t.keepMeasured a b link).declaredPart = link.declaredPart := by
  unfold keepMeasured
  split <;> rfl

def SameNodes (t t' : Topology K) : Prop :=
  t' = { t with graph := t'.graph, edges := t'.edges }

theorem SameNodes.refl (t : Topology K) : t.SameNodes t := rfl

theorem SameNodes.trans {t'' : Topology K} (first : t.SameNodes t') (second : t'.SameNodes t'') :
    t.SameNodes t'' := by
  unfold SameNodes at *
  rw [second, first]

section

variable (same : t.SameNodes t')
include same

theorem SameNodes.registered (id : String) : t'.registered id = t.registered id := by
  rw [same]; rfl

theorem SameNodes.qkcs : t'.qkcs = t.qkcs := by
  rw [same]

theorem SameNodes.declared : t'.declared = t.declared := by
  rw [same]

theorem SameNodes.orrs : t'.orrs = t.orrs := by
  rw [same]

theorem SameNodes.orrByQkc : t'.orrByQkc = t.orrByQkc := by
  rw [same]

theorem SameNodes.dkms : t'.dkms = t.dkms := by
  rw [same]

theorem SameNodes.saes : t'.saes = t.saes := by
  rw [same]

theorem SameNodes.dkmsByQkc : t'.dkmsByQkc = t.dkmsByQkc := by
  rw [same]

theorem SameNodes.declaration (a b : String) : t'.declaration a b = t.declaration a b := by
  rw [same]; rfl

end

theorem Settled.of_same (settled : t.Settled a b) (edge : t'.edge a b = t.edge a b)
    (here : t'.registered a = t.registered a) (there : t'.registered b = t.registered b)
    (mine : t'.declaration a b = t.declaration a b)
    (theirs : t'.declaration b a = t.declaration b a) : t'.Settled a b := by
  constructor
  · unfold Linked
    rw [edge, here, there, mine, theirs]
    exact settled.linked
  · unfold Agreed
    rw [edge, mine, theirs]
    exact settled.agreed

theorem Settled.symm (settled : t.Settled a b) : t.Settled b a := by
  constructor
  · rw [edge_comm, settled.linked]
    unfold Linked
    tauto
  intro link found m agreed
  rw [edge_comm] at found
  apply settled.agreed link found m
  unfold Agreed at *
  tauto

structure PairSet (t t' : Topology K) (me other : String) (v : Option (EdgeMeta K)) : Prop where
  nodes : t.SameNodes t'
  edges : t'.edges = update t.edges (edgeKey me other) v
  adjacent : ∀ a b, t'.adjacent a b =
    if edgeKey a b = edgeKey me other then v.isSome else t.adjacent a b

namespace PairSet

variable {v : Option (EdgeMeta K)}

section

variable (set : PairSet t t' me other v)
include set

theorem edge (a b : String) :
    t'.edge a b = if edgeKey a b = edgeKey me other then v else t.edge a b := by
  unfold Topology.edge
  rw [set.edges, update_apply]

theorem mirrored (distinct : me ≠ other) (m : t.Mirrored)
    (ends : v.isSome → t.registered me ∧ t.registered other) : t'.Mirrored := by
  constructor
  · intro a b ne
    rw [set.adjacent, set.edge]
    split
    · rfl
    · exact m.adjacent a b ne
  · intro a b ne there
    rw [set.nodes.registered]
    rw [set.edge] at there
    split at there
    · rename_i key
      have both := ends there
      rcases edgeKey_eq_iff.mp key with ⟨rfl, -⟩ | ⟨rfl, -⟩
      · exact both.1
      · exact both.2
    · exact m.registered a b ne there
  · intro key there
    rw [set.edges, update_apply] at there
    split at there
    · rename_i here
      exact ⟨me, other, distinct, here⟩
    · exact m.keys key there

theorem settled_elsewhere (elsewhere : edgeKey a b ≠ edgeKey me other) (settled : t.Settled a b) :
    t'.Settled a b := by
  have edge := set.edge a b
  rw [if_neg elsewhere] at edge
  exact settled.of_same edge (set.nodes.registered a) (set.nodes.registered b)
    (set.nodes.declaration a b) (set.nodes.declaration b a)

end

end PairSet

structure Edited (t t' : Topology K) : Prop where
  nodes : t.SameNodes t'
  mirrored : t'.Mirrored
  settled : ∀ a b, a ≠ b → t.Settled a b → t'.Settled a b

theorem Edited.refl (m : t.Mirrored) : t.Edited t := ⟨.refl t, m, fun _ _ _ settled => settled⟩

theorem Edited.trans {t'' : Topology K} (first : t.Edited t') (second : t'.Edited t'') :
    t.Edited t'' :=
  ⟨first.nodes.trans second.nodes, second.mirrored,
    fun a b ne settled => second.settled a b ne (first.settled a b ne settled)⟩

end Topology

namespace Draft

open Dkms.Sdn.Topology

variable {d : Draft K} {me other : String}

theorem dropEdge_pairSet (d : Draft K) (me other : String) :
    PairSet d.topology (d.dropEdge me other).2.topology me other none := by
  have topology : (d.dropEdge me other).2.topology =
      (({ d.topology with
        edges := update d.topology.edges (edgeKey me other) none }).removeNeighbor
          me other).removeNeighbor other me := by
    unfold dropEdge
    dsimp only
    split <;> rfl
  rw [topology]
  constructor
  · rfl
  · rfl
  · intro a b
    exact adjacent_removePair me other

variable [DecidableEq K]

theorem placeEdge_pending (link : EdgeMeta K)
    (absent : ¬(d.topology.registered me ∧ d.topology.registered other)) :
    (d.placeEdge me other link).1 = false ∧
      (d.placeEdge me other link).2.topology = d.topology := by
  have pending : (!d.topology.registered me || !d.topology.registered other) = true := by
    revert absent
    cases d.topology.registered me <;> cases d.topology.registered other <;> simp
  unfold placeEdge
  rw [if_pos pending]
  exact ⟨rfl, rfl⟩

theorem placeEdge_same (link : EdgeMeta K) (here : d.topology.registered me)
    (there : d.topology.registered other)
    (same : d.topology.edge me other = some (d.topology.keepMeasured me other link)) :
    (d.placeEdge me other link).1 = !d.topology.adjacent me other ∧
      (d.placeEdge me other link).2.topology =
        (d.topology.insertNeighbor me other).insertNeighbor other me := by
  unfold placeEdge
  dsimp only
  rw [here, there, if_pos same]
  exact ⟨rfl, rfl⟩

theorem placeEdge_new (link : EdgeMeta K) (here : d.topology.registered me)
    (there : d.topology.registered other)
    (new : d.topology.edge me other ≠ some (d.topology.keepMeasured me other link)) :
    (d.placeEdge me other link).1 = true ∧
      (d.placeEdge me other link).2.topology =
        { (d.topology.insertNeighbor me other).insertNeighbor other me with
          edges := update d.topology.edges (edgeKey me other)
            (some (d.topology.keepMeasured me other link)) } := by
  unfold placeEdge
  dsimp only
  rw [here, there, if_neg new]
  exact ⟨rfl, rfl⟩

theorem placeEdge_pairSet (link : EdgeMeta K) (here : d.topology.registered me)
    (there : d.topology.registered other) :
    PairSet d.topology (d.placeEdge me other link).2.topology me other
      (some (d.topology.keepMeasured me other link)) := by
  have graph := fun a b => adjacent_insertPair (t := d.topology) (a := a) (b := b) me other
  by_cases same : d.topology.edge me other = some (d.topology.keepMeasured me other link)
  · rw [(placeEdge_same link here there same).2]
    refine ⟨rfl, ?_, graph⟩
    exact (update_eq_self_iff.mpr same.symm).symm
  · rw [(placeEdge_new link here there same).2]
    exact ⟨rfl, rfl, graph⟩

inductive Recomputed (t : Topology K) (me other : String) : Topology K → Prop
  | dropped {t'} (mine : t.declaration me other = none) (theirs : t.declaration other me = none)
      (set : PairSet t t' me other none) : Recomputed t me other t'
  | placed {t' link} (here : t.registered me) (there : t.registered other)
      (some_end : (t.declaration me other).isSome ∨ (t.declaration other me).isSome)
      (agreed : ∀ m, t.Agreed me other m → link.declaredPart = m.declaredPart)
      (set : PairSet t t' me other (some link)) : Recomputed t me other t'
  | pending (absent : ¬(t.registered me ∧ t.registered other))
      (some_end : (t.declaration me other).isSome ∨ (t.declaration other me).isSome) :
      Recomputed t me other t
  | conflict (mine : (t.declaration me other).isSome) (theirs : (t.declaration other me).isSome)
      (differ : t.declaration me other ≠ t.declaration other me) (there : (t.edge me other).isSome) :
      Recomputed t me other t

theorem placeEdge_recomputed (d : Draft K) (me other : String) (link : EdgeMeta K)
    (some_end : (d.topology.declaration me other).isSome ∨ (d.topology.declaration other me).isSome)
    (agreed : ∀ m, d.topology.Agreed me other m → link = m) :
    Recomputed d.topology me other (d.placeEdge me other link).2.topology := by
  by_cases both : d.topology.registered me ∧ d.topology.registered other
  · refine .placed both.1 both.2 some_end ?_ (placeEdge_pairSet link both.1 both.2)
    intro m said
    rw [keepMeasured_declaredPart, agreed m said]
  · rw [(placeEdge_pending link both).2]
    exact .pending both some_end

theorem recomputeEdge_recomputed (d : Draft K) (me other : String) :
    Recomputed d.topology me other (d.recomputeEdge me other).2.topology := by
  unfold recomputeEdge
  dsimp only
  split
  · rename_i mine theirs
    exact .dropped mine theirs (dropEdge_pairSet d me other)
  · rename_i link mine theirs
    apply placeEdge_recomputed
    · simp [mine]
    · simp [Agreed, mine, theirs]
  · rename_i link mine theirs
    apply placeEdge_recomputed
    · simp [theirs]
    · simp [Agreed, mine, theirs]
  rename_i here there mine theirs
  split
  · apply placeEdge_recomputed
    · simp [mine]
    · simp [Agreed, mine, theirs]
  rename_i differ
  split
  · rename_i existing found
    refine .conflict ?_ ?_ ?_ ?_
    · simp [mine]
    · simp [theirs]
    · simpa [mine, theirs] using differ
    · simp [found]
  -- the conflict is recorded in the outcome alone
  apply placeEdge_recomputed
    { d with out := { d.out with edgesConflict := d.out.edgesConflict ++ [other] } }
  · simp [mine]
  intro m agreed
  simp only [Agreed, mine, theirs, Option.some.injEq, reduceCtorEq, and_false, false_and, or_false] at agreed
  exact agreed.1

omit [DecidableEq K] in
theorem Recomputed.sameNodes {t t' : Topology K} (ways : Recomputed t me other t') :
    t.SameNodes t' := by
  cases ways with
  | dropped _ _ set => exact set.nodes
  | placed _ _ _ _ set => exact set.nodes
  | pending | conflict => exact .refl t

theorem recomputeEdges_sameNodes (me : String) (others : List String) (d : Draft K) :
    d.topology.SameNodes (recomputeEdges me others d).2.topology := by
  induction others generalizing d with
  | nil => exact .refl _
  | cons other others ih => exact (recomputeEdge_recomputed d me other).sameNodes.trans (ih _)

omit [DecidableEq K] in
theorem Recomputed.edited {t t' : Topology K} (ways : Recomputed t me other t')
    (distinct : me ≠ other) (m : t.Mirrored) : t.Edited t' ∧ t'.Settled me other := by
  -- a pair set to `v` is settled at that pair, and nothing else is touched
  have spread : ∀ {v}, PairSet t t' me other v → (v.isSome → t.registered me ∧ t.registered other) →
      t'.Settled me other → t.Edited t' ∧ t'.Settled me other := by
    intro v set ends settled
    refine ⟨⟨set.nodes, set.mirrored distinct m ends, ?_⟩, settled⟩
    intro a b _ before
    by_cases here : edgeKey a b = edgeKey me other
    · rcases edgeKey_eq_iff.mp here with ⟨rfl, rfl⟩ | ⟨rfl, rfl⟩
      · exact settled
      · exact settled.symm
    · exact set.settled_elsewhere here before
  cases ways with
  | dropped mine theirs set =>
    have edge := set.edge me other
    rw [if_pos rfl] at edge
    have mine' := (set.nodes.declaration me other).trans mine
    have theirs' := (set.nodes.declaration other me).trans theirs
    refine spread set (by simp) ⟨?_, ?_⟩
    · simp [edge, Linked, mine', theirs']
    · simp [edge]
  | @placed _ link here there some_end agreed set =>
    have edge := set.edge me other
    rw [if_pos rfl] at edge
    refine spread set (fun _ => ⟨here, there⟩) ⟨?_, ?_⟩
    · unfold Linked
      rw [edge, set.nodes.registered, set.nodes.registered, set.nodes.declaration, set.nodes.declaration]
      simp [here, there, some_end]
    intro found isEdge said saidBoth
    rw [edge] at isEdge
    cases isEdge
    apply agreed said
    unfold Agreed at *
    rwa [set.nodes.declaration, set.nodes.declaration] at saidBoth
  | pending absent some_end =>
    refine ⟨.refl m, ⟨?_, ?_⟩⟩
    · constructor
      · intro there
        have there' := there
        rw [edge_comm] at there'
        exact absurd ⟨m.registered me other distinct there, m.registered other me distinct.symm there'⟩ absent
      · intro linked
        exact absurd ⟨linked.1, linked.2.1⟩ absent
    intro link found
    have there : (t.edge me other).isSome := Option.isSome_of_mem found
    have there' := there
    rw [edge_comm] at there'
    exact absurd ⟨m.registered me other distinct there, m.registered other me distinct.symm there'⟩ absent
  | conflict mine theirs differ there =>
    have there' := there
    rw [edge_comm] at there'
    refine ⟨.refl m, ⟨?_, ?_⟩⟩
    · simp [there, Linked, mine, m.registered me other distinct there,
        m.registered other me distinct.symm there']
    intro link _ said agreed
    rcases agreed with ⟨one, two⟩ | ⟨-, two⟩ | ⟨one, -⟩
    · exact absurd (one.trans two.symm) differ
    · simp [two] at theirs
    · simp [one] at mine

theorem recomputeEdges_edited (me : String) (others : List String) {d : Draft K}
    (distinct : ∀ other ∈ others, me ≠ other) (m : d.topology.Mirrored) :
    d.topology.Edited (recomputeEdges me others d).2.topology ∧
      ∀ other ∈ others, (recomputeEdges me others d).2.topology.Settled me other := by
  induction others generalizing d with
  | nil => exact ⟨.refl m, by simp⟩
  | cons other others ih =>
    have ne := distinct other List.mem_cons_self
    obtain ⟨first, settled⟩ := (recomputeEdge_recomputed d me other).edited ne m
    have later := ih (fun o member => distinct o (List.mem_cons_of_mem _ member)) first.mirrored
    refine ⟨first.trans later.1, ?_⟩
    intro o member
    rcases List.mem_cons.mp member with rfl | member
    · exact later.1.settled me o ne settled
    · exact later.2 o member

end Draft

section Measured

open Dkms.Sdn.Topology

variable (tenPow : K → K) {t : Topology K}

theorem Topology.edited_of_measured {a b : String} {link link' : EdgeMeta K}
    (found : t.edge a b = some link) (same : link'.declaredPart = link.declaredPart)
    (m : t.Mirrored) : t.Edited { t with edges := update t.edges (edgeKey a b) (some link') } := by
  have edge : ∀ x y,
      ({ t with edges := update t.edges (edgeKey a b) (some link') } : Topology K).edge x y =
        if edgeKey x y = edgeKey a b then some link' else t.edge x y := by
    intro x y
    exact update_apply _ _ _ _
  have there : ∀ x y,
      (({ t with edges := update t.edges (edgeKey a b) (some link') } : Topology K).edge
        x y).isSome = (t.edge x y).isSome := by
    intro x y
    rw [edge]
    split
    · rename_i key
      have here : t.edge x y = some link := by
        unfold Topology.edge at *
        rw [key, found]
      simp [here]
    · rfl
  refine ⟨rfl, ⟨?_, ?_, ?_⟩, ?_⟩
  · intro x y ne
    rw [there]
    exact m.adjacent x y ne
  · intro x y ne isEdge
    rw [there] at isEdge
    exact m.registered x y ne isEdge
  · intro key isEdge
    dsimp only at isEdge
    rw [update_apply] at isEdge
    split at isEdge
    · rename_i here
      apply m.keys
      rw [here]
      exact Option.isSome_of_mem found
    · exact m.keys key isEdge
  intro x y ne settled
  constructor
  · rw [there]
    exact settled.linked
  intro new isEdge said agreed
  rw [edge] at isEdge
  split at isEdge
  · rename_i key
    have here : t.edge x y = some link := by
      unfold Topology.edge at *
      rw [key, found]
    cases isEdge
    rw [same]
    exact settled.agreed link here said agreed
  · exact settled.agreed new isEdge said agreed

variable [Field K] [LinearOrder K]

theorem Topology.applyMeasuredCapacity_cases (a b : String) (kps : Option K) :
    t.applyMeasuredCapacity tenPow a b kps = (false, t) ∨
      ∃ link m, t.edge a b = some link ∧ kps = some m ∧
        t.applyMeasuredCapacity tenPow a b kps = (true, { t with
          edges := update t.edges (edgeKey a b)
            (some { link with measuredKeysPerS := some m }) }) := by
  unfold applyMeasuredCapacity
  split
  · exact .inl rfl
  rename_i link' adjusted
  obtain ⟨link, found, adjusted⟩ := Option.bind_eq_some_iff.mp adjusted
  unfold EdgeMeta.adjusted at adjusted
  cases kps with
  | none => cases adjusted
  | some m =>
    dsimp only at adjusted
    split_ifs at adjusted
    cases adjusted
    exact .inr ⟨link, m, found, rfl, rfl⟩

theorem Topology.applyMeasured_sameNodes (id : String) (measured : List (String × Option K))
    (t : Topology K) : t.SameNodes (t.applyMeasured tenPow id measured).2 := by
  induction measured generalizing t with
  | nil => exact .refl t
  | cons report measured ih =>
    obtain ⟨neighbor, kps⟩ := report
    have first : t.SameNodes (t.applyMeasuredCapacity tenPow id neighbor kps).2 := by
      rcases applyMeasuredCapacity_cases tenPow (t := t) id neighbor kps with
        same | ⟨link, rate, -, -, changed⟩
      · rw [same]; exact .refl t
      · rw [changed]; exact .refl _
    exact first.trans (ih _)

theorem Topology.applyMeasured_edited (id : String) (measured : List (String × Option K))
    {t : Topology K} (m : t.Mirrored) : t.Edited (t.applyMeasured tenPow id measured).2 := by
  induction measured generalizing t with
  | nil => exact .refl m
  | cons report measured ih =>
    obtain ⟨neighbor, kps⟩ := report
    have first : t.Edited (t.applyMeasuredCapacity tenPow id neighbor kps).2 := by
      rcases applyMeasuredCapacity_cases tenPow (t := t) id neighbor kps with
        same | ⟨link, rate, found, -, changed⟩
      · rw [same]; exact .refl m
      · rw [changed]; exact edited_of_measured found rfl m
    exact first.trans (ih first.mirrored)

end Measured

end Dkms.Sdn
