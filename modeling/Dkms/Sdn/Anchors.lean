import Dkms.Core.Runs
import Dkms.Sdn.Declared

namespace Dkms.Sdn

open Function Dkms.Core TopologyStore Dkms.Sdn.Topology

variable {K : Type*}

def Topology.qkcOfOrr (t : Topology K) (orrId : String) : Option String :=
  (t.orrs orrId).map (·.qkcId)

theorem Topology.qkcOfDkms_eq (t : Topology K) (dkmsId : String) :
    t.qkcOfDkms dkmsId = (t.dkms dkmsId).bind fun d => t.qkcOfOrr d.orrId := by
  unfold qkcOfDkms qkcOfOrr
  cases t.dkms dkmsId with
  | none => rfl
  | some d => cases found : t.orrs d.orrId <;> simp [found]

inductive Placed (t t' : Topology K) : Op K → Prop
  | kept {op} (orrs : t'.qkcOfOrr = t.qkcOfOrr) (orrByQkc : t'.orrByQkc = t.orrByQkc)
      (dkms : t'.qkcOfDkms = t.qkcOfDkms) (dkmsByQkc : t'.dkmsByQkc = t.dkmsByQkc) :
      Placed t t' op
  | orr (reg : OrrAnnounce) (free : ∀ other ∈ t.orrByQkc reg.qkcId, other = reg.id)
      (orrs : t'.qkcOfOrr = update t.qkcOfOrr reg.id (some reg.qkcId))
      (orrByQkc : t'.orrByQkc = moveIndex t.orrByQkc (t.qkcOfOrr reg.id) reg.qkcId reg.id)
      (dkms : ∀ d, t'.qkcOfDkms d = if (t.dkms d).map (·.orrId) = some reg.id
        then some reg.qkcId else t.qkcOfDkms d)
      (dkmsByQkc : t'.dkmsByQkc = t.dkmsByQkc) : Placed t t' (.announceOrr reg)
  | dkms (reg : DkmsAnnounce) (qkcId : String)
      (free : ∀ other ∈ t.dkmsByQkc qkcId, other = reg.id)
      (orrs : t'.qkcOfOrr = t.qkcOfOrr) (orrByQkc : t'.orrByQkc = t.orrByQkc)
      (dkms : t'.qkcOfDkms = update t.qkcOfDkms reg.id (some qkcId))
      (dkmsByQkc : t'.dkmsByQkc = moveIndex t.dkmsByQkc (t.qkcOfDkms reg.id) qkcId reg.id) :
      Placed t t' (.announceDkms reg)
  | qkcGone (id : String)
      (orrs : t'.qkcOfOrr = t.qkcOfOrr) (orrByQkc : t'.orrByQkc = update t.orrByQkc id none)
      (dkms : t'.qkcOfDkms = t.qkcOfDkms)
      (dkmsByQkc : t'.dkmsByQkc = update t.dkmsByQkc id none) :
      Placed t t' (.deleteQkc id)
  | orrGone (id : String) (orrs : t'.qkcOfOrr = update t.qkcOfOrr id none)
      (orrByQkc : t'.orrByQkc = leaveIndex t.orrByQkc (t.qkcOfOrr id) id)
      (dkms : ∀ d, t'.qkcOfDkms d = if (t.dkms d).map (·.orrId) = some id then none else t.qkcOfDkms d)
      (dkmsByQkc : t'.dkmsByQkc = t.dkmsByQkc) : Placed t t' (.deleteOrr id)
  | dkmsGone (id : String) (orrs : t'.qkcOfOrr = t.qkcOfOrr)
      (orrByQkc : t'.orrByQkc = t.orrByQkc)
      (dkms : t'.qkcOfDkms = update t.qkcOfDkms id none)
      (dkmsByQkc : t'.dkmsByQkc = leaveIndex t.dkmsByQkc (t.qkcOfDkms id) id) :
      Placed t t' (.deleteDkms id)

section Step

variable {t t' : Topology K}

variable {id : String} {orr : Option Orr}

theorem Topology.qkcOfOrr_update (orrs : t'.orrs = update t.orrs id orr) :
    t'.qkcOfOrr = update t.qkcOfOrr id (orr.map (·.qkcId)) := by
  funext o
  unfold qkcOfOrr
  rw [orrs, update_apply, update_apply]
  split <;> rfl

theorem Topology.qkcOfDkms_orr (t t' : Topology K)
    (orrs : t'.orrs = update t.orrs id orr) (dkms : t'.dkms = t.dkms) (d : String) :
    t'.qkcOfDkms d = if (t.dkms d).map (·.orrId) = some id then orr.map (·.qkcId)
      else t.qkcOfDkms d := by
  rw [qkcOfDkms_eq, qkcOfDkms_eq, dkms, qkcOfOrr_update orrs]
  cases t.dkms d with
  | none => simp
  | some node => simp [update_apply]

theorem Topology.qkcOfDkms_update (t t' : Topology K) {node : Option DkmsNode}
    (orrs : t'.orrs = t.orrs) (dkms : t'.dkms = update t.dkms id node) :
    t'.qkcOfDkms = update t.qkcOfDkms id (node.bind fun d => t.qkcOfOrr d.orrId) := by
  have places : t'.qkcOfOrr = t.qkcOfOrr := by
    unfold qkcOfOrr
    rw [orrs]
  funext d
  rw [qkcOfDkms_eq, dkms, places, update_apply, update_apply]
  split
  · rfl
  · exact (qkcOfDkms_eq t d).symm

theorem Topology.qkcOfDkms_same (orrs : t'.orrs = t.orrs) (dkms : t'.dkms = t.dkms) :
    t'.qkcOfDkms = t.qkcOfDkms := by
  unfold qkcOfDkms
  rw [orrs, dkms]

theorem Placed.same {op : Op K} (orrs : t'.orrs = t.orrs) (orrByQkc : t'.orrByQkc = t.orrByQkc)
    (dkms : t'.dkms = t.dkms) (dkmsByQkc : t'.dkmsByQkc = t.dkmsByQkc) : Placed t t' op := by
  refine .kept ?_ orrByQkc (qkcOfDkms_same orrs dkms) dkmsByQkc
  unfold qkcOfOrr
  rw [orrs]

variable [Field K] [LinearOrder K] (tenPow : K → K)

theorem TopologyStore.next_placed (store : TopologyStore K) (op : Op K) :
    Placed store.topology (store.next tenPow op).topology op := by
  cases op with
  | announceQkc reg =>
    change Placed store.topology (store.announceQkc tenPow reg).2.topology _
    let measured := (recordReports reg.id (reportsOf store.topology reg) store.measured).2
    have nodes := foldQkcAnnounce_sameNodes tenPow reg measured store.topology
    unfold announceQkc mutate
    dsimp only
    split
    · exact .same nodes.orrs nodes.orrByQkc nodes.dkms nodes.dkmsByQkc
    · exact .same rfl rfl rfl rfl
  | announceOrr reg =>
    change Placed store.topology (store.announceOrr reg).2.topology _
    rcases store.announceOrr_cases reg with same | ⟨free, placed⟩
    · rw [same]; exact .same rfl rfl rfl rfl
    generalize (store.announceOrr reg).2.topology = t' at placed ⊢
    have orrs : t'.orrs = update store.topology.orrs reg.id
        (some (store.topology.announcedOrr reg)) := by rw [placed]
    have dkms : t'.dkms = store.topology.dkms := by rw [placed]
    refine .orr reg free (qkcOfOrr_update orrs) ?_ (qkcOfDkms_orr _ _ orrs dkms) ?_
    · rw [placed]; rfl
    · rw [placed]
  | announceDkms reg =>
    change Placed store.topology (store.announceDkms reg).2.topology _
    rcases store.announceDkms_cases reg with same | ⟨orr, saes, found, free, -, placed⟩
    · rw [same]; exact .same rfl rfl rfl rfl
    generalize (store.announceDkms reg).2.topology = t' at placed ⊢
    have orrs : t'.orrs = store.topology.orrs := by rw [placed]
    have dkms : t'.dkms = update store.topology.dkms reg.id
        (some (store.topology.announcedDkms reg)) := by rw [placed]
    have place : store.topology.qkcOfOrr reg.orrId = some orr.qkcId := by
      unfold qkcOfOrr
      rw [found]; rfl
    have moved := qkcOfDkms_update _ _ orrs dkms
    change t'.qkcOfDkms = update store.topology.qkcOfDkms reg.id (store.topology.qkcOfOrr reg.orrId) at moved
    rw [place] at moved
    refine .dkms reg orr.qkcId free ?_ ?_ moved ?_
    · rw [placed]; rfl
    · rw [placed]
    · rw [placed]
  | deleteQkc id =>
    change Placed store.topology (store.deleteQkc id).2.topology _
    rcases store.deleteQkc_cases id with ⟨-, same⟩ | removed
    · rw [same]; exact .same rfl rfl rfl rfl
    · rw [removed]; exact .qkcGone id rfl rfl rfl rfl
  | deleteOrr id =>
    change Placed store.topology (store.deleteOrr id).2.topology _
    rcases store.deleteOrr_cases id with ⟨-, same⟩ | ⟨orr, found, removed⟩
    · rw [same]; exact .same rfl rfl rfl rfl
    generalize (store.deleteOrr id).2.topology = t' at removed ⊢
    have orrs : t'.orrs = update store.topology.orrs id none := by rw [removed]
    have dkms : t'.dkms = store.topology.dkms := by rw [removed]
    have place : store.topology.qkcOfOrr id = some orr.qkcId := by
      unfold qkcOfOrr
      rw [found]; rfl
    refine .orrGone id (qkcOfOrr_update orrs) ?_ (qkcOfDkms_orr _ _ orrs dkms) ?_
    · rw [removed, place]; rfl
    · rw [removed]
  | deleteDkms id =>
    change Placed store.topology (store.deleteDkms id).2.topology _
    rcases store.deleteDkms_cases id with ⟨-, same⟩ | ⟨dkms, saes, found, removed⟩
    · rw [same]; exact .same rfl rfl rfl rfl
    generalize (store.deleteDkms id).2.topology = t' at removed ⊢
    have orrs : t'.orrs = store.topology.orrs := by rw [removed]
    have gone : t'.dkms = update store.topology.dkms id none := by rw [removed]
    have place : store.topology.qkcOfDkms id = (store.topology.orrs dkms.orrId).map (·.qkcId) := by
      rw [qkcOfDkms_eq, found]; rfl
    refine .dkmsGone id ?_ ?_ (qkcOfDkms_update _ _ orrs gone) ?_
    · rw [removed]; rfl
    · rw [removed]
    · rw [removed, place]

end Step

def Topology.NoDkmsUnder (t : Topology K) (orrId : String) : Prop :=
  ∀ q ∈ t.qkcOfOrr orrId, ∀ d ∈ t.dkmsByQkc q, ∀ node ∈ t.dkms d, node.orrId ≠ orrId

instance (t : Topology K) (orrId : String) : Decidable (t.NoDkmsUnder orrId) := by
  unfold NoDkmsUnder
  infer_instance

def Op.LeavesBare (t : Topology K) : Op K → Prop
  | .announceOrr reg => t.qkcOfOrr reg.id = some reg.qkcId ∨ t.NoDkmsUnder reg.id
  | .deleteOrr id => t.NoDkmsUnder id
  | _ => True

instance (t : Topology K) (op : Op K) : Decidable (op.LeavesBare t) := by
  rcases op with _ | _ <;> dsimp only [Op.LeavesBare] <;> infer_instance

/-- A QKC is deleted only when no ORR is registered at it, and an ORR comes to a QKC only when
each DKMS that names it is the one indexed there. -/
def Op.KeepsPlaces (t : Topology K) : Op K → Prop
  | .deleteQkc id => ∀ o, t.qkcOfOrr o ≠ some id
  | .announceOrr reg =>
    ∀ d, ∀ node ∈ t.dkms d, node.orrId = reg.id → t.dkmsByQkc reg.qkcId = some d
  | _ => True

section Invariants

variable {t t' : Topology K} {op : Op K}

theorem Placed.orr_sound (placed : Placed t t' op) (sound : IndexSound t.qkcOfOrr t.orrByQkc) :
    IndexSound t'.qkcOfOrr t'.orrByQkc := by
  cases placed with
  | kept orrs orrByQkc | dkms _ _ _ orrs orrByQkc | dkmsGone _ orrs orrByQkc =>
    rw [orrs, orrByQkc]; exact sound
  | orr reg _ orrs orrByQkc => rw [orrs, orrByQkc]; exact sound.move reg.id reg.qkcId
  | qkcGone id orrs orrByQkc => rw [orrs, orrByQkc]; exact sound.clear id
  | orrGone id orrs orrByQkc => rw [orrs, orrByQkc]; exact sound.leave id

theorem Topology.qkcOfDkms_named {d orrId : String} (named : (t.dkms d).map (·.orrId) = some orrId) :
    ∃ node, t.dkms d = some node ∧ node.orrId = orrId ∧ t.qkcOfDkms d = t.qkcOfOrr orrId := by
  obtain ⟨node, found, here⟩ := Option.map_eq_some_iff.mp named
  refine ⟨node, found, here, ?_⟩
  rw [qkcOfDkms_eq, found, ← here]
  rfl

theorem Placed.dkms_sound (placed : Placed t t' op) (bare : op.LeavesBare t)
    (sound : IndexSound t.qkcOfDkms t.dkmsByQkc) : IndexSound t'.qkcOfDkms t'.dkmsByQkc := by
  cases placed with
  | kept _ _ dkms dkmsByQkc => rw [dkms, dkmsByQkc]; exact sound
  | orr reg _ _ _ dkms dkmsByQkc =>
    rw [dkmsByQkc]
    apply sound.under
    intro q d entry
    rw [dkms]
    split
    · rename_i named
      obtain ⟨node, found, here, place⟩ := qkcOfDkms_named named
      have placed := sound q d entry
      rw [place] at placed ⊢
      rcases bare with stays | free
      · exact stays.symm
      · exact absurd here (free q placed d entry node found)
    · rfl
  | dkms reg q _ _ _ dkms dkmsByQkc => rw [dkms, dkmsByQkc]; exact sound.move reg.id q
  | qkcGone id _ _ dkms dkmsByQkc => rw [dkms, dkmsByQkc]; exact sound.clear id
  | orrGone id _ _ dkms dkmsByQkc =>
    rw [dkmsByQkc]
    apply sound.under
    intro q d entry
    rw [dkms]
    split
    · rename_i named
      obtain ⟨node, found, here, place⟩ := qkcOfDkms_named named
      have placed := sound q d entry
      rw [place] at placed
      exact absurd here (bare q placed d entry node found)
    · rfl
  | dkmsGone id _ _ dkms dkmsByQkc => rw [dkms, dkmsByQkc]; exact sound.leave id

theorem Placed.complete (placed : Placed t t' op) (keeps : op.KeepsPlaces t)
    (orrs : IndexComplete t.qkcOfOrr t.orrByQkc) (dkms : IndexComplete t.qkcOfDkms t.dkmsByQkc) :
    IndexComplete t'.qkcOfOrr t'.orrByQkc ∧ IndexComplete t'.qkcOfDkms t'.dkmsByQkc := by
  cases placed with
  | kept orrs' orrByQkc dkms' dkmsByQkc =>
    rw [orrs', orrByQkc, dkms', dkmsByQkc]
    exact ⟨orrs, dkms⟩
  | orr reg free orrs' orrByQkc dkms' dkmsByQkc =>
    rw [orrs', orrByQkc, dkmsByQkc]
    refine ⟨orrs.move reg.id reg.qkcId free, dkms.under ?_⟩
    intro d q here
    rw [dkms'] at here
    split at here
    · rename_i named
      obtain ⟨node, found, name, -⟩ := qkcOfDkms_named named
      cases here
      exact .inr (keeps d node found name)
    · exact .inl here
  | dkms reg q free orrs' orrByQkc dkms' dkmsByQkc =>
    rw [orrs', orrByQkc, dkms', dkmsByQkc]
    exact ⟨orrs, dkms.move reg.id q free⟩
  | qkcGone id orrs' orrByQkc dkms' dkmsByQkc =>
    rw [orrs', orrByQkc, dkms', dkmsByQkc]
    refine ⟨orrs.clear keeps, dkms.clear ?_⟩
    intro d here
    rw [qkcOfDkms_eq] at here
    obtain ⟨node, -, place⟩ := Option.bind_eq_some_iff.mp here
    exact keeps node.orrId place
  | orrGone id orrs' orrByQkc dkms' dkmsByQkc =>
    rw [orrs', orrByQkc, dkmsByQkc]
    refine ⟨orrs.leave id, dkms.under ?_⟩
    intro d q here
    rw [dkms'] at here
    split at here
    · cases here
    · exact .inl here
  | dkmsGone id orrs' orrByQkc dkms' dkmsByQkc =>
    rw [orrs', orrByQkc, dkms', dkmsByQkc]
    exact ⟨orrs, dkms.leave id⟩

end Invariants

section Refusal

variable {t : Topology K} {store : TopologyStore K}

theorem Upsert.fromChanged_ne_rejected (changed : Bool) : Upsert.fromChanged changed ≠ .rejected := by
  cases changed <;> decide

theorem Topology.upsertOrr_rejected (orr : Orr) (known : t.registered orr.qkcId)
    (rejected : (t.upsertOrr orr).1 = .rejected) :
    ∃ other, t.orrByQkc orr.qkcId = some other ∧ other ≠ orr.id := by
  unfold upsertOrr at rejected
  rw [known, if_neg (by decide)] at rejected
  split at rejected
  · rename_i taken
    cases here : t.orrByQkc orr.qkcId with
    | none => simp [here] at taken
    | some other => exact ⟨other, rfl, by simpa [here] using taken⟩
  · exact absurd rejected (Upsert.fromChanged_ne_rejected _)

theorem Topology.upsertDkms_rejected (dkms : DkmsNode) (known : (t.orrs dkms.orrId).isSome)
    (rejected : (t.upsertDkms dkms).1 = .rejected) :
    ∃ orr other, t.orrs dkms.orrId = some orr ∧ t.dkmsByQkc orr.qkcId = some other ∧
      other ≠ dkms.id := by
  obtain ⟨orr, found⟩ := Option.isSome_iff_exists.mp known
  unfold upsertDkms at rejected
  rw [found] at rejected
  dsimp only at rejected
  split at rejected
  · rename_i taken
    cases here : t.dkmsByQkc orr.qkcId with
    | none => simp [here] at taken
    | some other => exact ⟨orr, other, found, here, by simpa [here] using taken⟩
  · exact absurd rejected (Upsert.fromChanged_ne_rejected _)

theorem TopologyStore.announceOrr_refused {reg : OrrAnnounce}
    (refused : (store.announceOrr reg).1.reason = some (orrTaken reg.qkcId)) :
    ∃ other, store.topology.orrByQkc reg.qkcId = some other ∧ other ≠ reg.id := by
  unfold announceOrr mutate at refused
  by_cases known : store.topology.registered reg.qkcId
  · simp only [known, Bool.not_true, Bool.false_eq_true, ↓reduceIte] at refused
    split at refused
    · rename_i result
      exact upsertOrr_rejected (store.topology.announcedOrr reg) known (by rw [result])
    · cases refused
    · cases refused
  · simp [known] at refused

theorem dkmsTaken_ne_tooMany (orrId : String) (n : Nat) :
    dkmsTaken orrId ≠ s!"announce with {n} saes; max {maxSaesPerDkms}" := by
  intro same
  have first := congrArg (fun text : String => text.toList.head?) same
  have taken : (toString "el QKC del ORR ").toList.head? = some 'e' := rfl
  have tooMany : (toString "announce with ").toList.head? = some 'a' := rfl
  simp [dkmsTaken, taken, tooMany] at first

theorem TopologyStore.announceDkms_refused {reg : DkmsAnnounce}
    (refused : (store.announceDkms reg).1.reason = some (dkmsTaken reg.orrId)) :
    ∃ orr other, store.topology.orrs reg.orrId = some orr ∧
      store.topology.dkmsByQkc orr.qkcId = some other ∧ other ≠ reg.id := by
  unfold announceDkms at refused
  split at refused
  · exact absurd (Option.some.inj refused).symm (dkmsTaken_ne_tooMany _ _)
  unfold mutate at refused
  by_cases known : (store.topology.orrs reg.orrId).isSome
  · have present : (store.topology.orrs reg.orrId).isNone = false := by
      simpa using known
    simp only [present, Bool.false_eq_true, ↓reduceIte] at refused
    split at refused
    · rename_i result
      exact upsertDkms_rejected (store.topology.announcedDkms reg) known (by rw [result])
    · split at refused <;> cases refused
  · have absent : (store.topology.orrs reg.orrId).isNone = true := by
      simpa using known
    simp [absent] at refused

end Refusal

section Run

variable [Field K] [LinearOrder K] (tenPow : K → K)

/-- While QKCs go only after their ORRs and no ORR takes its DKMS to a QKC where it is not the
indexed one, no two ORRs share a QKC and no two DKMSs resolve to one. -/
theorem one_orr_one_dkms_per_qkc (ops : List (Op K))
    (follows : Follows (TopologyStore.next tenPow) (fun store op => op.KeepsPlaces store.topology)
      .empty ops) :
    let t := (TopologyStore.run tenPow ops).topology
    (∀ o o' orr orr', t.orrs o = some orr → t.orrs o' = some orr' → orr.qkcId = orr'.qkcId →
      o = o') ∧
      ∀ d d' q, t.qkcOfDkms d = some q → t.qkcOfDkms d' = some q → d = d' := by
  have keeps : ∀ (store : TopologyStore K) (op : Op K),
      (IndexComplete store.topology.qkcOfOrr store.topology.orrByQkc ∧
        IndexComplete store.topology.qkcOfDkms store.topology.dkmsByQkc) →
      op.KeepsPlaces store.topology →
      IndexComplete (store.next tenPow op).topology.qkcOfOrr (store.next tenPow op).topology.orrByQkc ∧
        IndexComplete (store.next tenPow op).topology.qkcOfDkms
          (store.next tenPow op).topology.dkmsByQkc := by
    intro store op complete permitted
    exact (store.next_placed tenPow op).complete permitted complete.1 complete.2
  have complete := follows.invariant keeps (by constructor <;> intro x q here <;> cases here)
  intro t
  refine ⟨?_, ?_⟩
  · intro o o' orr orr' here there same
    apply complete.1.unique (q := orr.qkcId)
    · exact congrArg (Option.map (·.qkcId)) here
    · rw [same]
      exact congrArg (Option.map (·.qkcId)) there
  · intro d d' q here there
    exact complete.2.unique here there

theorem run_orr_sound (ops : List (Op K)) :
    IndexSound (run tenPow ops).topology.qkcOfOrr
      (run tenPow ops).topology.orrByQkc := by
  have keeps : ∀ (store : TopologyStore K) (op : Op K),
      IndexSound store.topology.qkcOfOrr store.topology.orrByQkc → True →
      IndexSound (store.next tenPow op).topology.qkcOfOrr
        (store.next tenPow op).topology.orrByQkc := by
    intro store op sound _
    exact (store.next_placed tenPow op).orr_sound sound
  exact (Follows.all .empty ops).invariant keeps (by intro q x entry; cases entry)

theorem run_dkms_sound {ops : List (Op K)}
    (follows : Follows (next tenPow) (fun store op => op.LeavesBare store.topology)
      .empty ops) : IndexSound (run tenPow ops).topology.qkcOfDkms
      (run tenPow ops).topology.dkmsByQkc := by
  have keeps : ∀ (store : TopologyStore K) (op : Op K),
      IndexSound store.topology.qkcOfDkms store.topology.dkmsByQkc →
      op.LeavesBare store.topology →
      IndexSound (store.next tenPow op).topology.qkcOfDkms
        (store.next tenPow op).topology.dkmsByQkc := by
    intro store op sound bare
    exact (store.next_placed tenPow op).dkms_sound bare sound
  exact follows.invariant keeps (by intro q x entry; cases entry)

/-- An ORR is refused as second at its QKC only if another one is registered there. The same
holds of DKMSs while ORRs leave a QKC only when no DKMS is indexed there through them. -/
theorem refused_only_if_taken (ops : List (Op K)) :
    let store := TopologyStore.run tenPow ops
    (∀ reg, (store.announceOrr reg).1.reason = some (orrTaken reg.qkcId) →
      ∃ o, o ≠ reg.id ∧ store.topology.qkcOfOrr o = some reg.qkcId) ∧
      (Follows (TopologyStore.next tenPow) (fun store op => op.LeavesBare store.topology) .empty
        ops →
        ∀ reg, (store.announceDkms reg).1.reason = some (dkmsTaken reg.orrId) →
          ∃ q d, store.topology.qkcOfOrr reg.orrId = some q ∧ d ≠ reg.id ∧
            store.topology.qkcOfDkms d = some q) := by
  intro store
  constructor
  · intro reg refused
    obtain ⟨other, entry, ne⟩ := store.announceOrr_refused refused
    exact ⟨other, ne, run_orr_sound tenPow ops _ _ entry⟩
  intro follows reg refused
  obtain ⟨orr, other, found, entry, ne⟩ := store.announceDkms_refused refused
  refine ⟨orr.qkcId, other, ?_, ne, run_dkms_sound tenPow follows _ _ entry⟩
  exact congrArg (Option.map (·.qkcId)) found

end Run

section Histories

def host : HostEndpoint := ⟨0, "10.0.0.7", 20001⟩

def qkcUp (id : String) : Op ℚ := .announceQkc ⟨id, host, none, []⟩

def orrUp (id qkcId : String) : Op ℚ := .announceOrr ⟨id, host, qkcId⟩

def dkmsUp (id orrId : String) : Op ℚ := .announceDkms ⟨id, host, none, orrId, []⟩

def wholeTenPow (x : ℚ) : ℚ := 10 ^ x.floor

def twoNodes : List (Op ℚ) :=
  [qkcUp "1", qkcUp "2", orrUp "orr-1" "1", orrUp "orr-2" "2", dkmsUp "dkms-1" "orr-1",
    dkmsUp "dkms-2" "orr-2"]

theorem one_orr_one_dkms_per_qkc_two_nodes :
    let t := (TopologyStore.run wholeTenPow twoNodes).topology
    (t.orrs "orr-1").isSome ∧ t.qkcOfDkms "dkms-2" = some "2" ∧
      ∀ d d' q, t.qkcOfDkms d = some q → t.qkcOfDkms d' = some q → d = d' := by
  have follows : Follows (next wholeTenPow)
      (fun store op => op.KeepsPlaces store.topology) .empty twoNodes := by
    refine ⟨trivial, trivial, ?_, ?_, trivial, trivial, trivial⟩
    · intro d node here; cases here
    · intro d node here; cases here
  exact ⟨by decide +kernel, by decide +kernel, (one_orr_one_dkms_per_qkc wholeTenPow twoNodes follows).2⟩

/-- A QKC expires and returns, and a second ORR takes the place of the one that is still
registered there. -/
def qkcReturns : List (Op ℚ) :=
  [qkcUp "1", orrUp "orr-1" "1", .deleteQkc "1", qkcUp "1", orrUp "orr-2" "1"]

/-- An ORR takes its DKMS to another QKC, and a second DKMS joins it there. -/
def orrMoves : List (Op ℚ) :=
  [qkcUp "1", qkcUp "2", orrUp "orr-1" "1", dkmsUp "dkms-1" "orr-1", orrUp "orr-1" "2",
    dkmsUp "dkms-2" "orr-1"]

theorem two_at_one_qkc :
    let returned := (TopologyStore.run wholeTenPow qkcReturns).topology
    let moved := (TopologyStore.run wholeTenPow orrMoves).topology
    (returned.qkcOfOrr "orr-1" = some "1" ∧ returned.qkcOfOrr "orr-2" = some "1") ∧
      moved.qkcOfDkms "dkms-1" = some "2" ∧ moved.qkcOfDkms "dkms-2" = some "2" := by
  decide +kernel

theorem refused_only_if_taken_two_nodes :
    let store := TopologyStore.run wholeTenPow twoNodes
    (store.announceDkms ⟨"dkms-3", host, none, "orr-2", []⟩).1.reason = some (dkmsTaken "orr-2") ∧
      ∃ q d, store.topology.qkcOfOrr "orr-2" = some q ∧ d ≠ "dkms-3" ∧
        store.topology.qkcOfDkms d = some q := by
  have follows : Follows (next wholeTenPow)
      (fun store op => op.LeavesBare store.topology) .empty twoNodes := by decide +kernel
  have refused : ((run wholeTenPow twoNodes).announceDkms
      ⟨"dkms-3", host, none, "orr-2", []⟩).1.reason = some (dkmsTaken "orr-2") := by decide +kernel
  exact ⟨refused, (refused_only_if_taken wholeTenPow twoNodes).2 follows _ refused⟩

/-- An ORR expires before its DKMS, and nobody is left at the QKC; the next DKMS is refused. -/
def orrExpiresFirst : List (Op ℚ) :=
  [qkcUp "1", orrUp "orr-1" "1", dkmsUp "dkms-1" "orr-1", .deleteOrr "orr-1",
    .deleteDkms "dkms-1", orrUp "orr-2" "1"]

theorem expired_dkms_locks_qkc :
    let store := TopologyStore.run wholeTenPow orrExpiresFirst
    (store.announceDkms ⟨"dkms-2", host, none, "orr-2", []⟩).1.reason = some (dkmsTaken "orr-2") ∧
      ∀ d, store.topology.dkms d = none := by
  constructor
  · decide +kernel
  intro d
  have shape : (run wholeTenPow orrExpiresFirst).topology.dkms =
      update (update (fun _ => none) "dkms-1"
        (some ⟨"dkms-1", host, none, none, "orr-1"⟩)) "dkms-1" none := by
    rfl
  rw [shape]
  by_cases gone : d = "dkms-1"
  · simp [gone]
  · simp [gone]

end Histories

end Dkms.Sdn
