import Dkms.Sdn.Edges
import Dkms.Sdn.Store

namespace Dkms.Sdn

open List Function Dkms.Sdn.Topology
open Std (ExtTreeMap)
open TopologyStore (declaredLinks foldQkcAnnounce)

variable {K : Type*}

def QkcAnnounce.declaration (reg : QkcAnnounce K) (b : String) : Option (EdgeMeta K) :=
  ((reg.links.filter (·.neighborId = b)).getLast?).map (·.edgeMeta)

theorem getElem?_insertMany_last {V : Type*} (t : ExtTreeMap String V) (entries : List (String × V))
    (k : String) : (t.insertMany entries)[k]? =
      (((entries.filter (·.1 = k)).getLast?).map Prod.snd).or t[k]? := by
  induction entries generalizing t with
  | nil => simp
  | cons entry entries ih =>
    obtain ⟨k', v⟩ := entry
    rw [ExtTreeMap.insertMany_cons, ih, ExtTreeMap.getElem?_insert, filter_cons]
    simp only [Std.compare_eq_iff_eq]
    by_cases same : k' = k
    · simp only [same, ↓reduceIte, decide_true, getLast?_cons]
      cases (entries.filter (·.1 = k)).getLast? <;> rfl
    · simp [same]

theorem declaredLinks_eq (reg : QkcAnnounce K) {b : String} (other : b ≠ reg.id) :
    (declaredLinks reg)[b]? = reg.declaration b := by
  unfold declaredLinks QkcAnnounce.declaration
  rw [ExtTreeMap.ofList_eq_insertMany_empty, getElem?_insertMany_last, filter_map,
    filter_filter, getLast?_map]
  have about : (reg.links.filter fun l =>
      ((fun x : String × EdgeMeta K => decide (x.1 = b)) ∘ fun l => (l.neighborId, l.edgeMeta)) l &&
        decide (l.neighborId ≠ reg.id)) = reg.links.filter (·.neighborId = b) := by
    apply filter_congr
    intro l _
    by_cases here : l.neighborId = b
    · simp [here, other]
    · simp [here]
  rw [about]
  simp [Function.comp_def]

/-- The graph that the last announcements of the live QKCs describe: what the store is for. -/
def declarationGraph (last : String → Option (QkcAnnounce K)) : SimpleGraph String where
  Adj a b := a ≠ b ∧ ∃ mine ∈ last a, ∃ theirs ∈ last b,
    (mine.declaration b).isSome ∨ (theirs.declaration a).isSome
  symm := by
    constructor
    rintro a b ⟨distinct, mine, here, theirs, there, said⟩
    exact ⟨distinct.symm, theirs, there, mine, here, said.symm⟩
  loopless := by
    constructor
    intro a adj
    exact adj.1 rfl

/-- `m` is what the last announcements of `a` and `b` say of their link: both say it, or one
says it and the other nothing. -/
def Declares (last : String → Option (QkcAnnounce K)) (a b : String) (m : EdgeMeta K) : Prop :=
  let mine := (last a).bind (·.declaration b)
  let theirs := (last b).bind (·.declaration a)
  mine = some m ∧ theirs = some m ∨ mine = some m ∧ theirs = none ∨ mine = none ∧ theirs = some m

def Op.remember (last : String → Option (QkcAnnounce K)) : Op K → String → Option (QkcAnnounce K)
  | .announceQkc reg => update last reg.id (some reg)
  | .deleteQkc id => update last id none
  | _ => last

def lastAnnounce (ops : List (Op K)) : String → Option (QkcAnnounce K) :=
  ops.foldl Op.remember fun _ => none

theorem lastAnnounce_sent {ops : List (Op K)} {id : String} {reg : QkcAnnounce K}
    (found : lastAnnounce ops id = some reg) : .announceQkc reg ∈ ops ∧ reg.id = id := by
  induction ops using reverseRecOn with
  | nil => cases found
  | append_singleton ops op ih =>
    have before : lastAnnounce ops id = some reg → .announceQkc reg ∈ ops ++ [op] ∧ reg.id = id :=
      fun found => ⟨mem_append_left _ (ih found).1, (ih found).2⟩
    unfold lastAnnounce at found
    rw [foldl_append] at found
    change op.remember (lastAnnounce ops) id = some reg at found
    cases op with
    | announceQkc other =>
      rw [Op.remember, update_apply] at found
      split at found
      · rename_i here
        cases found
        exact ⟨by simp, here.symm⟩
      · exact before found
    | deleteQkc other =>
      rw [Op.remember, update_apply] at found
      split at found
      · cases found
      · exact before found
    | _ => exact before found

structure Reflects (t : Topology K) (last : String → Option (QkcAnnounce K)) : Prop where
  mirrored : t.Mirrored
  settled : ∀ a b, a ≠ b → t.Settled a b
  registered : ∀ id, t.registered id = (last id).isSome
  declared : ∀ id, t.declared[id]? = (last id).map declaredLinks
  named : ∀ id, ∀ reg ∈ last id, reg.id = id

namespace Reflects

variable {t t' : Topology K} {last : String → Option (QkcAnnounce K)}

theorem declaration (r : Reflects t last) {a b : String} (distinct : a ≠ b) :
    t.declaration a b = (last a).bind (·.declaration b) := by
  unfold Topology.declaration
  rw [r.declared]
  cases here : last a with
  | none => rfl
  | some reg =>
    have name := r.named a reg here
    exact declaredLinks_eq reg (name ▸ distinct.symm)

theorem of_same (r : Reflects t last) (qkcs : t'.qkcs = t.qkcs) (graph : t'.graph = t.graph)
    (edges : t'.edges = t.edges) (declared : t'.declared = t.declared) : Reflects t' last := by
  have registered : ∀ id, t'.registered id = t.registered id := by
    intro id
    unfold Topology.registered
    rw [qkcs]
  have edge : ∀ a b, t'.edge a b = t.edge a b := by
    intro a b
    unfold Topology.edge
    rw [edges]
  have said : ∀ a b, t'.declaration a b = t.declaration a b := by
    intro a b
    unfold Topology.declaration
    rw [declared]
  have adjacent : ∀ a b, t'.adjacent a b = t.adjacent a b := by
    intro a b
    unfold Topology.adjacent
    rw [graph]
  refine ⟨⟨?_, ?_, ?_⟩, ?_, ?_, ?_, r.named⟩
  · intro a b distinct
    rw [adjacent, edge]
    exact r.mirrored.adjacent a b distinct
  · intro a b distinct there
    rw [edge] at there
    rw [registered]
    exact r.mirrored.registered a b distinct there
  · rw [edges]
    exact r.mirrored.keys
  · intro a b distinct
    exact (r.settled a b distinct).of_same (edge a b) (registered a) (registered b) (said a b) (said b a)
  · intro id
    rw [registered, r.registered]
  · rw [declared]
    exact r.declared

end Reflects

section Announce

variable {t : Topology K} {d : Draft K} {id : String}

theorem Topology.Mirrored.upsertQkc (m : t.Mirrored) (qkc : Qkc) : (t.upsertQkc qkc).2.Mirrored := by
  have registered : ∀ a, t.registered a → (t.upsertQkc qkc).2.registered a := by
    intro a here
    unfold Topology.registered Topology.upsertQkc at *
    by_cases same : a = qkc.id
    · simp [same]
    · simpa [same] using here
  have adjacent : ∀ a b, (t.upsertQkc qkc).2.adjacent a b = t.adjacent a b := by
    intro a b
    unfold Topology.adjacent Topology.upsertQkc
    by_cases same : a = qkc.id
    · subst same
      cases t.graph qkc.id <;> simp
    · simp [same]
  refine ⟨?_, ?_, m.keys⟩
  · intro a b distinct
    rw [adjacent]
    exact m.adjacent a b distinct
  · intro a b distinct there
    exact registered a (m.registered a b distinct there)

theorem Draft.mem_declarersOf {other : String} : other ∈ declarersOf t id ↔
      other ≠ id ∧ (t.declaration other id).isSome ∧ t.declaration id other = none := by
  unfold declarersOf declaration
  simp only [mem_map, mem_filter, Prod.exists, exists_eq_right, exists_and_right,
    ExtTreeMap.mem_toList_iff_getElem?_eq_some, decide_eq_true_eq, Bool.not_eq_true']
  constructor
  · rintro ⟨links, found, ne, here, absent⟩
    refine ⟨ne, ?_, ?_⟩
    · simpa [found, ExtTreeMap.isSome_getElem?_eq_contains] using here
    cases mine : t.declared[id]? with
    | none => rfl
    | some known =>
      rw [mine] at absent
      exact ExtTreeMap.getElem?_eq_none_of_contains_eq_false absent
  rintro ⟨ne, here, absent⟩
  cases found : t.declared[other]? with
  | none => simp [found] at here
  | some links =>
    refine ⟨links, rfl, ne, ?_, ?_⟩
    · simpa [found, ExtTreeMap.isSome_getElem?_eq_contains] using here
    cases mine : t.declared[id]? with
    | none => simp
    | some known =>
      rw [mine] at absent
      rw [ExtTreeMap.contains_eq_isSome_getElem?]
      exact Option.isSome_eq_false_iff.mpr (Option.isNone_iff_eq_none.mpr absent)

variable [DecidableEq K]

theorem Draft.applyDeclaredLinks_edited (id : String) (links : ExtTreeMap String (EdgeMeta K))
    (m : d.topology.Mirrored) :
    let t := { d.topology with declared := d.topology.declared.insert id links }
    t.Edited (d.applyDeclaredLinks id links).2.topology ∧
      ∀ other, other ≠ id → (d.topology.declaration id other).isSome ∨ other ∈ links →
        (d.applyDeclaredLinks id links).2.topology.Settled id other := by
  intro t
  have mirrored : t.Mirrored := ⟨m.adjacent, m.registered, m.keys⟩
  let prev := (d.topology.declared[id]?).getD ∅
  let others := ((prev.keys ++ links.keys).filter (· ≠ id)).eraseDups
  have member : ∀ other, other ∈ others ↔ (other ∈ prev ∨ other ∈ links) ∧ other ≠ id := by
    intro other
    simp [others, or_and_right]
  have edited := recomputeEdges_edited id others (d := { d with topology := t })
    (fun other listed => ((member other).mp listed).2.symm) mirrored
  refine ⟨edited.1, ?_⟩
  intro other ne said
  apply edited.2 other ((member other).mpr ⟨?_, ne⟩)
  refine said.imp_left ?_
  intro before
  unfold declaration at before
  cases here : d.topology.declared[id]? with
  | none => simp [here] at before
  | some known => simpa [prev, here] using before

theorem Draft.closeDeclarationsPointingAt_edited (id : String) (m : d.topology.Mirrored) :
    d.topology.Edited (d.closeDeclarationsPointingAt id).2.topology ∧
      ∀ other, other ≠ id → (d.topology.declaration other id).isSome →
        d.topology.declaration id other = none →
        (d.closeDeclarationsPointingAt id).2.topology.Settled id other := by
  have edited := recomputeEdges_edited id (declarersOf d.topology id)
    (fun other listed => (mem_declarersOf.mp listed).1.symm) m
  refine ⟨edited.1, ?_⟩
  intro other ne said absent
  exact edited.2 other (mem_declarersOf.mpr ⟨ne, said, absent⟩)

end Announce

section Step

variable [Field K] [LinearOrder K] (tenPow : K → K) {t : Topology K} {reg : QkcAnnounce K}
  {measured : List (String × Option K)} {last : String → Option (QkcAnnounce K)}

def Topology.heard (t : Topology K) (reg : QkcAnnounce K) : Topology K :=
  { (t.upsertQkc (t.announcedQkc reg)).2 with
    declared := t.declared.insert reg.id (declaredLinks reg) }

omit [Field K] [LinearOrder K] in
theorem Topology.heard_registered (id : String) :
    (t.heard reg).registered id = if id = reg.id then true else t.registered id := by
  change (update t.qkcs reg.id (some (t.announcedQkc reg)) id).isSome = _
  rw [update_apply]
  split <;> rfl

omit [Field K] [LinearOrder K] in
theorem Topology.heard_declared (id : String) :
    (t.heard reg).declared[id]? = if id = reg.id then some (declaredLinks reg) else t.declared[id]? := by
  change (t.declared.insert reg.id (declaredLinks reg))[id]? = _
  rw [ExtTreeMap.getElem?_insert]
  simp only [Std.compare_eq_iff_eq, eq_comm (a := reg.id)]

omit [Field K] [LinearOrder K] in
theorem Topology.heard_declaration {a : String} (other : a ≠ reg.id) (b : String) :
    (t.heard reg).declaration a b = t.declaration a b := by
  unfold declaration
  rw [heard_declared, if_neg other]

theorem foldQkcAnnounce_unchanged (unchanged : (foldQkcAnnounce tenPow reg measured t).1 = false) :
    t.qkcs reg.id = some (t.announcedQkc reg) ∧
      (t.declared[reg.id]?).getD ∅ = declaredLinks reg := by
  unfold foldQkcAnnounce upsertQkc Draft.applyDeclaredLinks at unchanged
  simp only [Bool.or_eq_false_iff, decide_eq_false_iff_not, not_not] at unchanged
  exact ⟨unchanged.1.1.1, unchanged.1.1.2.1⟩

theorem foldQkcAnnounce_sameNodes (reg : QkcAnnounce K) (measured : List (String × Option K))
    (t : Topology K) : (t.heard reg).SameNodes (foldQkcAnnounce tenPow reg measured t).2.1 := by
  have applied := Draft.recomputeEdges_sameNodes (d := ⟨t.heard reg, ⟨reg.id, false, [], [], [], []⟩⟩)
    reg.id (((((t.declared[reg.id]?).getD ∅).keys ++ (declaredLinks reg).keys).filter (· ≠ reg.id)).eraseDups)
  exact (applied.trans (Draft.recomputeEdges_sameNodes _ _ _)).trans
    (applyMeasured_sameNodes tenPow _ _ _)

theorem foldQkcAnnounce_edited (reg : QkcAnnounce K) (measured : List (String × Option K))
    (m : t.Mirrored) : (t.heard reg).Edited (foldQkcAnnounce tenPow reg measured t).2.1 ∧
      ∀ other, other ≠ reg.id →
        (t.declaration reg.id other).isSome ∨ ((t.heard reg).declaration reg.id other).isSome ∨
          (t.declaration other reg.id).isSome →
        (foldQkcAnnounce tenPow reg measured t).2.1.Settled reg.id other := by
  let out : QkcAnnounceOutcome := ⟨reg.id, false, [], [], [], []⟩
  let d : Draft K := ⟨(t.upsertQkc (t.announcedQkc reg)).2, out⟩
  obtain ⟨applied, mine⟩ := Draft.applyDeclaredLinks_edited (d := d) reg.id
    (declaredLinks reg) (m.upsertQkc _)
  change (t.heard reg).Edited _ at applied
  obtain ⟨closed, theirs⟩ := Draft.closeDeclarationsPointingAt_edited reg.id applied.mirrored
  have rated := applyMeasured_edited tenPow reg.id measured closed.mirrored
  refine ⟨(applied.trans closed).trans rated, ?_⟩
  intro other ne said
  apply rated.settled _ _ ne.symm
  by_cases own : (t.declaration reg.id other).isSome ∨ other ∈ declaredLinks reg
  · exact closed.settled _ _ ne.symm (mine other ne own)
  obtain ⟨before, now⟩ := not_or.mp own
  have now : (t.heard reg).declaration reg.id other = none := by
    unfold declaration
    rw [heard_declared, if_pos rfl]
    exact ExtTreeMap.getElem?_eq_none now
  apply theirs other ne
  · rw [applied.nodes.declaration, heard_declaration ne]
    simpa [before, now] using said
  · rw [applied.nodes.declaration]
    exact now

theorem foldQkcAnnounce_reflects (reg : QkcAnnounce K) (measured : List (String × Option K))
    (r : Reflects t last) : Reflects (foldQkcAnnounce tenPow reg measured t).2.1
      (update last reg.id (some reg)) := by
  obtain ⟨edited, touched⟩ := foldQkcAnnounce_edited tenPow reg measured r.mirrored
  -- a pair of the announcer that nobody declares was without an edge and stays so
  have own : ∀ other, other ≠ reg.id →
      (foldQkcAnnounce tenPow reg measured t).2.1.Settled reg.id other := by
    intro other ne
    by_cases said : (t.declaration reg.id other).isSome ∨
        ((t.heard reg).declaration reg.id other).isSome ∨ (t.declaration other reg.id).isSome
    · exact touched other ne said
    simp only [not_or, Bool.not_eq_true, Option.isSome_eq_false_iff, Option.isNone_iff_eq_none] at said
    obtain ⟨before, now, theirs⟩ := said
    have unlinked : t.edge reg.id other = none := by
      have settled := (r.settled reg.id other ne.symm).linked
      simpa [Linked, before, theirs] using settled
    have absent : (t.heard reg).edge reg.id other = none := unlinked
    have silent := (heard_declaration (t := t) ne reg.id).trans theirs
    apply edited.settled _ _ ne.symm
    constructor
    · simp [absent, Linked, now, silent]
    · simp [absent]
  refine ⟨edited.mirrored, ?_, ?_, ?_, ?_⟩
  · intro a b distinct
    by_cases mine : a = reg.id
    · subst mine
      exact own b distinct.symm
    by_cases theirs : b = reg.id
    · subst theirs
      exact (own a mine).symm
    apply edited.settled a b distinct
    refine (r.settled a b distinct).of_same rfl ?_ ?_ (heard_declaration mine b)
      (heard_declaration theirs a)
    · rw [heard_registered, if_neg mine]
    · rw [heard_registered, if_neg theirs]
  · intro id
    rw [edited.nodes.registered, heard_registered, update_apply, r.registered]
    split <;> rfl
  · intro id
    rw [edited.nodes.declared, heard_declared, update_apply, r.declared]
    split <;> rfl
  intro id other here
  rw [update_apply] at here
  split at here
  · rename_i same
    cases here
    exact same.symm
  · exact r.named id other here

theorem Reflects.announceQkc {store : TopologyStore K} (r : Reflects store.topology last)
    (reg : QkcAnnounce K) : Reflects (store.announceQkc tenPow reg).2.topology
      (update last reg.id (some reg)) := by
  let measured := (TopologyStore.recordReports reg.id (TopologyStore.reportsOf store.topology reg)
    store.measured).2
  have folded := foldQkcAnnounce_reflects tenPow reg measured r
  cases changed : (foldQkcAnnounce tenPow reg measured store.topology).1 with
  | true =>
    have published : (store.announceQkc tenPow reg).2.topology =
        { (foldQkcAnnounce tenPow reg measured store.topology).2.1 with
          version := (foldQkcAnnounce tenPow reg measured store.topology).2.1.version + 1 } := by
      unfold TopologyStore.announceQkc TopologyStore.mutate
      dsimp only
      rw [if_pos changed]
    rw [published]
    exact folded.of_same rfl rfl rfl rfl
  | false =>
    have discarded : (store.announceQkc tenPow reg).2.topology = store.topology := by
      unfold TopologyStore.announceQkc TopologyStore.mutate
      dsimp only
      rw [if_neg (by rw [changed]; decide)]
    obtain ⟨known, said⟩ := foldQkcAnnounce_unchanged tenPow changed
    -- the announcer was there and had said the same
    have before : ∃ old ∈ last reg.id, declaredLinks old = declaredLinks reg := by
      have present : (last reg.id).isSome := by
        rw [← r.registered, Topology.registered, known]
        rfl
      obtain ⟨old, here⟩ := Option.isSome_iff_exists.mp present
      rw [r.declared, here] at said
      exact ⟨old, here, said⟩
    obtain ⟨old, here, same⟩ := before
    rw [discarded]
    refine ⟨r.mirrored, r.settled, ?_, ?_, ?_⟩
    · intro id
      rw [r.registered, update_apply]
      split
      · rename_i own
        rw [own, here]
        rfl
      · rfl
    · intro id
      rw [r.declared, update_apply]
      split
      · rename_i own
        rw [own, here]
        exact congrArg some same
      · rfl
    intro id other isLast
    rw [update_apply] at isLast
    split at isLast
    · rename_i own
      cases isLast
      exact own.symm
    · exact r.named id other isLast

end Step

section Remove

variable {t : Topology K} {id : String} {last : String → Option (QkcAnnounce K)}

theorem Topology.removeQkc_registered (other : String) :
    (t.removeQkc id).registered other = if other = id then false else t.registered other := by
  change (update t.qkcs id none other).isSome = _
  rw [update_apply]
  split <;> rfl

theorem Topology.removeQkc_declared (other : String) :
    (t.removeQkc id).declared[other]? = if other = id then none else t.declared[other]? := by
  change (t.declared.erase id)[other]? = _
  rw [ExtTreeMap.getElem?_erase]
  simp only [Std.compare_eq_iff_eq, eq_comm (a := id)]

theorem Topology.removeQkc_declaration {a : String} (other : a ≠ id) (b : String) :
    (t.removeQkc id).declaration a b = t.declaration a b := by
  unfold declaration
  rw [removeQkc_declared, if_neg other]

theorem Topology.removeQkc_edge (id a b : String) :
    (t.removeQkc id).edge a b = if a = id ∨ b = id then none else t.edge a b := by
  unfold edge removeQkc edgeKey
  by_cases mine : a = id <;> by_cases theirs : b = id <;> split <;> simp [mine]

theorem Topology.removeQkc_adjacent (a b : String) :
    (t.removeQkc id).adjacent a b = if a = id ∨ b = id then false else t.adjacent a b := by
  unfold adjacent removeQkc
  by_cases mine : a = id
  · simp [mine]
  · cases here : t.graph a <;> by_cases theirs : b = id <;> simp [mine, here]

theorem Reflects.removeQkc (r : Reflects t last) (id : String) :
    Reflects (t.removeQkc id) (update last id none) := by
  refine ⟨⟨?_, ?_, ?_⟩, ?_, ?_, ?_, ?_⟩
  · intro a b distinct
    rw [Topology.removeQkc_adjacent, Topology.removeQkc_edge]
    split
    · rfl
    · exact r.mirrored.adjacent a b distinct
  · intro a b distinct there
    rw [Topology.removeQkc_edge] at there
    split at there
    · cases there
    rename_i others
    rw [Topology.removeQkc_registered, if_neg (not_or.mp others).1]
    exact r.mirrored.registered a b distinct there
  · intro key there
    unfold Topology.removeQkc at there
    dsimp only at there
    split at there
    · exact r.mirrored.keys key there
    · cases there
  · intro a b distinct
    have edge := Topology.removeQkc_edge (t := t) id a b
    by_cases gone : a = id ∨ b = id
    · rw [if_pos gone] at edge
      constructor
      · unfold Topology.Linked
        rw [edge, Topology.removeQkc_registered, Topology.removeQkc_registered]
        rcases gone with gone | gone <;> simp [gone]
      · simp [edge]
    rw [if_neg gone] at edge
    obtain ⟨mine, theirs⟩ := not_or.mp gone
    apply (r.settled a b distinct).of_same edge
    · rw [Topology.removeQkc_registered, if_neg mine]
    · rw [Topology.removeQkc_registered, if_neg theirs]
    · exact Topology.removeQkc_declaration mine b
    · exact Topology.removeQkc_declaration theirs a
  · intro other
    rw [Topology.removeQkc_registered, update_apply, r.registered]
    split <;> rfl
  · intro other
    rw [Topology.removeQkc_declared, update_apply, r.declared]
    split <;> rfl
  intro other reg here
  rw [update_apply] at here
  split at here
  · cases here
  · exact r.named other reg here

theorem Reflects.deleteQkc {store : TopologyStore K} (r : Reflects store.topology last) :
    Reflects (store.deleteQkc id).2.topology (update last id none) := by
  unfold TopologyStore.deleteQkc TopologyStore.tryMutate
  by_cases known : store.topology.registered id
  · simp only [known]
    exact (r.removeQkc id).of_same rfl rfl rfl rfl
  simp only [known]
  have absent : last id = none := by
    have unknown := r.registered id
    rw [Bool.not_eq_true] at known
    rw [known] at unknown
    exact Option.isNone_iff_eq_none.mp (Option.isSome_eq_false_iff.mp unknown.symm)
  rw [update_eq_self_iff.mpr absent.symm]
  exact r

end Remove

section Run

theorem reflects_empty : Reflects (empty : Topology K) fun _ => none := by
  refine ⟨⟨?_, ?_, ?_⟩, ?_, ?_, ?_, ?_⟩
  · intro a b _; rfl
  · intro a b _ there; cases there
  · intro key there; cases there
  · intro a b _
    constructor
    · constructor
      · intro there; cases there
      · intro linked; cases linked.1
    · intro link there; cases there
  · intro id; rfl
  · intro id; simp [empty]
  · intro id reg here; cases here

variable [Field K] [LinearOrder K] (tenPow : K → K)

theorem Reflects.next {store : TopologyStore K} {last : String → Option (QkcAnnounce K)}
    (r : Reflects store.topology last) (op : Op K) :
    Reflects (store.next tenPow op).topology (op.remember last) := by
  cases op with
  | announceQkc reg => exact r.announceQkc tenPow reg
  | deleteQkc id => exact r.deleteQkc
  | announceOrr reg =>
    change Reflects (store.announceOrr reg).2.topology last
    rcases store.announceOrr_cases reg with same | ⟨-, placed⟩
    · rw [same]; exact r
    · rw [placed]; exact r.of_same rfl rfl rfl rfl
  | announceDkms reg =>
    change Reflects (store.announceDkms reg).2.topology last
    rcases store.announceDkms_cases reg with same | ⟨orr, saes, -, -, -, placed⟩
    · rw [same]; exact r
    · rw [placed]; exact r.of_same rfl rfl rfl rfl
  | deleteOrr id =>
    change Reflects (store.deleteOrr id).2.topology last
    rcases store.deleteOrr_cases id with ⟨-, same⟩ | ⟨orr, -, removed⟩
    · rw [same]; exact r
    · rw [removed]; exact r.of_same rfl rfl rfl rfl
  | deleteDkms id =>
    change Reflects (store.deleteDkms id).2.topology last
    rcases store.deleteDkms_cases id with ⟨-, same⟩ | ⟨dkms, saes, -, removed⟩
    · rw [same]; exact r
    · rw [removed]; exact r.of_same rfl rfl rfl rfl

theorem run_reflects (ops : List (Op K)) :
    Reflects (TopologyStore.run tenPow ops).topology (lastAnnounce ops) := by
  induction ops using reverseRecOn with
  | nil => exact reflects_empty
  | append_singleton ops op ih =>
    unfold TopologyStore.run lastAnnounce
    rw [foldl_append, foldl_append]
    exact Reflects.next tenPow ih op

/-- After any history, `edges` and both sides of `graph` hold the links that the last
announcements of the registered QKCs declare, with the metadata they declare where their ends
do not disagree. The order in which they came plays no part in which edges there are. -/
theorem edges_as_declared (ops : List (Op K)) :
    let t := (TopologyStore.run tenPow ops).topology
    let last := lastAnnounce ops
    (∀ id, t.registered id ↔ (last id).isSome) ∧
      (∀ a b, a ≠ b →
        ((t.edge a b).isSome ↔ t.adjacent a b) ∧ (t.adjacent a b ↔ t.adjacent b a) ∧
          (t.adjacent b a ↔ (declarationGraph last).Adj a b) ∧
          ∀ link m, t.edge a b = some link → Declares last a b m → link.declaredPart = m.declaredPart) ∧
      ∀ ops', lastAnnounce ops' = last →
        {key | ((TopologyStore.run tenPow ops').topology.edges key).isSome} =
          {key | (t.edges key).isSome} := by
  have main : ∀ ops : List (Op K), ∀ a b, a ≠ b →
      (((TopologyStore.run tenPow ops).topology.edge a b).isSome ↔
        (declarationGraph (lastAnnounce ops)).Adj a b) := by
    intro ops a b distinct
    have r := run_reflects tenPow ops
    rw [(r.settled a b distinct).linked]
    unfold Topology.Linked
    rw [r.registered, r.registered, r.declaration distinct, r.declaration distinct.symm]
    change _ ↔ a ≠ b ∧ _
    cases mine : lastAnnounce ops a <;> cases theirs : lastAnnounce ops b <;> simp [distinct]
  intro t last
  have r := run_reflects tenPow ops
  refine ⟨?_, ?_, ?_⟩
  · intro id
    rw [r.registered]
  · intro a b distinct
    have mine := r.mirrored.adjacent a b distinct
    have theirs := r.mirrored.adjacent b a distinct.symm
    rw [Topology.edge_comm] at theirs
    refine ⟨by rw [mine], by rw [mine, theirs], ?_, ?_⟩
    · rw [theirs]
      exact main ops a b distinct
    intro link m found declares
    apply (r.settled a b distinct).agreed link found m
    unfold Topology.Agreed
    rw [r.declaration distinct, r.declaration distinct.symm]
    exact declares
  · intro ops' same
    ext key
    have keys : ∀ {ops : List (Op K)} {ops' : List (Op K)}, lastAnnounce ops' = lastAnnounce ops →
        ((TopologyStore.run tenPow ops).topology.edges key).isSome →
        ((TopologyStore.run tenPow ops').topology.edges key).isSome := by
      intro ops ops' same there
      obtain ⟨a, b, distinct, rfl⟩ := (run_reflects tenPow ops).mirrored.keys key there
      have adj := (main ops a b distinct).mp there
      rw [← same] at adj
      exact (main ops' a b distinct).mpr adj
    exact ⟨keys same.symm, keys same⟩

end Run

end Dkms.Sdn
