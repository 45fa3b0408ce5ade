import Dkms.Core.Index
import Dkms.Sdn.Topology

namespace Dkms.Sdn

open Std (ExtTreeMap)
open Function Dkms.Core

inductive SdnError
  | unknownNode (id : String)
  | unknownDkms (id : String)
  | unknownSae (id : String)
  | saeAlreadyRegistered (id : String)
  | badRequest (text : String)
  | topology (text : String)
  deriving DecidableEq

inductive Upsert
  | rejected
  | unchanged
  | changed
  deriving DecidableEq

def Upsert.fromChanged (changed : Bool) : Upsert :=
  if changed then .changed else .unchanged

def maxSaesPerDkms : Nat := 4096

structure OrrAnnounce where
  id : String
  host : HostEndpoint
  qkcId : String

structure DkmsAnnounce where
  id : String
  host : HostEndpoint
  peerAddr : Option String
  orrId : String
  saes : List String

structure AnnounceOutcome where
  id : String
  accepted : Bool
  reason : Option String
  changed : Bool
  waitingFor : Option String
  saeConflicts : List String

def orrTaken (qkcId : String) : String :=
  s!"QKC {qkcId} ya tiene otro ORR anclado; el modelo es uno por QKC"

def dkmsTaken (orrId : String) : String :=
  s!"el QKC del ORR {orrId} ya tiene otro DKMS; el modelo es uno por QKC"

variable {K : Type*}

namespace Topology

variable (t : Topology K)

def qkcOfDkms (dkmsId : String) : Option String := do
  let d ← t.dkms dkmsId
  let o ← t.orrs d.orrId
  return o.qkcId

def upsertOrr (orr : Orr) : Upsert × Topology K :=
  if !t.registered orr.qkcId then (.rejected, t)
  else if (t.orrByQkc orr.qkcId).any (· ≠ orr.id) then (.rejected, t)
  else
    (Upsert.fromChanged (t.orrs orr.id ≠ some orr),
      { t with
        orrByQkc := moveIndex t.orrByQkc ((t.orrs orr.id).map (·.qkcId)) orr.qkcId orr.id
        orrs := update t.orrs orr.id (some orr) })

def upsertDkms (dkms : DkmsNode) : Upsert × Topology K :=
  match t.orrs dkms.orrId with
  | none => (.rejected, t)
  | some orr =>
    if (t.dkmsByQkc orr.qkcId).any (· ≠ dkms.id) then (.rejected, t)
    else
      (Upsert.fromChanged (t.dkms dkms.id ≠ some dkms),
        { t with
          dkmsByQkc := moveIndex t.dkmsByQkc (t.qkcOfDkms dkms.id) orr.qkcId dkms.id
          dkms := update t.dkms dkms.id (some dkms) })

def announcedQkc (reg : QkcAnnounce K) : Qkc :=
  ⟨reg.id, reg.host, reg.peerAddr, (t.qkcs reg.id).bind (·.kmeHost)⟩

def announcedOrr (reg : OrrAnnounce) : Orr :=
  ⟨reg.id, { reg.host with id := (t.orrs reg.id).elim reg.host.id (·.host.id) }, reg.qkcId⟩

def announcedDkms (reg : DkmsAnnounce) : DkmsNode :=
  let existing := t.dkms reg.id
  ⟨reg.id, { reg.host with id := existing.elim reg.host.id (·.host.id) }, reg.peerAddr,
    existing.bind (·.tlsId), reg.orrId⟩

/-- A QKC goes with its edges and what it declares. What others declare about it stays, and so
do the ORRs and DKMSs bound to it. -/
def removeQkc (qkcId : String) : Topology K :=
  { t with
    qkcs := update t.qkcs qkcId none
    graph := fun id => if id = qkcId then none else (t.graph id).map (·.erase qkcId)
    edges := fun key => if key.1 ≠ qkcId ∧ key.2 ≠ qkcId then t.edges key else none
    declared := t.declared.erase qkcId
    orrByQkc := update t.orrByQkc qkcId none
    dkmsByQkc := update t.dkmsByQkc qkcId none }

def saeCountFor (dkmsId : String) : Nat :=
  (t.saes.toList.filter (·.2.dkmsId = dkmsId)).length

def upsertSae (sae : Sae) : Bool × Topology K :=
  if (t.dkms sae.dkmsId).isNone then (false, t)
  else if !t.saes.contains sae.id ∧ maxSaesPerDkms ≤ t.saeCountFor sae.dkmsId then (false, t)
  else (t.saes[sae.id]? ≠ some sae, { t with saes := t.saes.insert sae.id sae })

def claimSaes (dkmsId : String) : List String → Topology K → Bool × List String × Topology K
  | [], t => (false, [], t)
  | saeId :: saes, t =>
    if (t.saes[saeId]?).any (·.dkmsId ≠ dkmsId) then
      let (changed, conflicts, t) := claimSaes dkmsId saes t
      (changed, saeId :: conflicts, t)
    else
      let (changed, t) := t.upsertSae ⟨saeId, dkmsId⟩
      let (later, conflicts, t) := claimSaes dkmsId saes t
      (changed || later, conflicts, t)

end Topology

structure TopologyStore (K : Type*) where
  topology : Topology K
  measured : MeasuredRates K

def TopologyStore.empty : TopologyStore K := ⟨.empty, .empty⟩

namespace TopologyStore

def mutate {α : Type*} (t : Topology K) (f : Topology K → Bool × Topology K × α) :
    Bool × Topology K × α :=
  let (changed, next, out) := f t
  if changed then (true, { next with version := next.version + 1 }, out) else (false, t, out)

def tryMutate (t : Topology K) (f : Topology K → Except SdnError (Topology K)) :
    Except SdnError Unit × Topology K :=
  match f t with
  | .ok next => (.ok (), { next with version := next.version + 1 })
  | .error e => (.error e, t)

def tryMutateIf {α : Type*} (t : Topology K)
    (f : Topology K → Except SdnError (α × Bool × Topology K)) : Except SdnError α × Topology K :=
  match f t with
  | .ok (value, changed, next) =>
    (.ok value, if changed then { next with version := next.version + 1 } else t)
  | .error e => (.error e, t)

section Announce

variable [Field K] [LinearOrder K] (tenPow : K → K) (store : TopologyStore K)

def reportsOf (known : Topology K) (reg : QkcAnnounce K) : List (String × K × Option String) :=
  (reg.links.filter fun l => l.neighborId ≠ reg.id ∧ known.registered l.neighborId).filterMap
    fun l => l.measuredRateKeysPerS.bind fun kps =>
      if kps < 0 then none else some (l.neighborId, kps, l.measuredQuality)

def recordReports (id : String) : List (String × K × Option String) → MeasuredRates K →
    MeasuredRates K × List (String × Option K)
  | [], rates => (rates, [])
  | (neighbor, kps, quality) :: reports, rates =>
    let (combined, rates) := rates.record id neighbor kps quality
    let (rates, measured) := recordReports id reports rates
    (rates, (neighbor, combined) :: measured)

def declaredLinks (reg : QkcAnnounce K) : ExtTreeMap String (EdgeMeta K) :=
  .ofList ((reg.links.filter (·.neighborId ≠ reg.id)).map fun l => (l.neighborId, l.edgeMeta))

def foldQkcAnnounce (reg : QkcAnnounce K) (measured : List (String × Option K))
    (t : Topology K) : Bool × Topology K × QkcAnnounceOutcome :=
  let out : QkcAnnounceOutcome := ⟨reg.id, false, [], [], [], []⟩
  let (changed, t) := t.upsertQkc (t.announcedQkc reg)
  let (declared, d) := (Draft.mk t out).applyDeclaredLinks reg.id (declaredLinks reg)
  let (closed, d) := d.closeDeclarationsPointingAt reg.id
  let (applied, t) := d.topology.applyMeasured tenPow reg.id measured
  (changed || declared || closed || applied, t, d.out)

def announceQkc (reg : QkcAnnounce K) : QkcAnnounceOutcome × TopologyStore K :=
  let (rates, measured) := recordReports reg.id (reportsOf store.topology reg) store.measured
  let (changed, topology, out) := mutate store.topology (foldQkcAnnounce tenPow reg measured)
  let rates := out.edgesRemoved.foldl (fun rates n => rates.forgetEdge reg.id n) rates
  ({ out with changed }, ⟨topology, rates⟩)

def announceOrr (reg : OrrAnnounce) : AnnounceOutcome × TopologyStore K :=
  let (changed, topology, accepted, occupied) := mutate store.topology fun t =>
    if !t.registered reg.qkcId then (false, t, false, false)
    else
      match t.upsertOrr (t.announcedOrr reg) with
      | (.rejected, t) => (false, t, false, true)
      | (.unchanged, t) => (false, t, true, false)
      | (.changed, t) => (true, t, true, false)
  let reason := if occupied then some (orrTaken reg.qkcId) else none
  (⟨reg.id, accepted, reason, changed, if accepted then none else some reg.qkcId, []⟩,
    { store with topology })

def announceDkms (reg : DkmsAnnounce) : AnnounceOutcome × TopologyStore K :=
  if maxSaesPerDkms < reg.saes.length then
    let reason := s!"announce with {reg.saes.length} saes; max {maxSaesPerDkms}"
    (⟨reg.id, false, some reason, false, none, []⟩, store)
  else
    let (changed, topology, accepted, occupied, conflicts) := mutate store.topology fun t =>
      if (t.orrs reg.orrId).isNone then (false, t, false, false, [])
      else
        match t.upsertDkms (t.announcedDkms reg) with
        | (.rejected, t) => (false, t, false, true, [])
        | (r, t) =>
          let (claimed, conflicts, t) := t.claimSaes reg.id reg.saes
          (r = .changed || claimed, t, true, false, conflicts)
    let reason := if occupied then some (dkmsTaken reg.orrId) else none
    (⟨reg.id, accepted, reason, changed, if accepted then none else some reg.orrId, conflicts⟩,
      { store with topology })

def deleteQkc (qkcId : String) : Except SdnError Unit × TopologyStore K :=
  let (r, topology) := tryMutate store.topology fun t =>
    if !t.registered qkcId then .error (.unknownNode qkcId) else .ok (t.removeQkc qkcId)
  (r, ⟨topology, store.measured.forgetReporter qkcId⟩)

def deleteOrr (orrId : String) : Except SdnError Unit × TopologyStore K :=
  let (r, topology) := tryMutate store.topology fun t =>
    match t.orrs orrId with
    | none => .error (.topology s!"ORR {orrId} not found")
    | some orr =>
      .ok { t with
        orrs := update t.orrs orrId none
        orrByQkc := unlink t.orrByQkc orr.qkcId orrId }
  (r, { store with topology })

def deleteDkms (dkmsId : String) : Except SdnError Unit × TopologyStore K :=
  let (r, topology) := tryMutate store.topology fun t =>
    match t.dkms dkmsId with
    | none => .error (.unknownDkms dkmsId)
    | some dkms =>
      .ok { t with
        dkms := update t.dkms dkmsId none
        saes := t.saes.filter fun _ s => s.dkmsId ≠ dkmsId
        dkmsByQkc := leaveIndex t.dkmsByQkc ((t.orrs dkms.orrId).map (·.qkcId)) dkmsId }
  (r, { store with topology })

end Announce

end TopologyStore

inductive Op (K : Type*)
  | announceQkc (reg : QkcAnnounce K)
  | announceOrr (reg : OrrAnnounce)
  | announceDkms (reg : DkmsAnnounce)
  | deleteQkc (id : String)
  | deleteOrr (id : String)
  | deleteDkms (id : String)

section Run

variable [Field K] [LinearOrder K] (tenPow : K → K)

def TopologyStore.next (store : TopologyStore K) : Op K → TopologyStore K
  | .announceQkc reg => (store.announceQkc tenPow reg).2
  | .announceOrr reg => (store.announceOrr reg).2
  | .announceDkms reg => (store.announceDkms reg).2
  | .deleteQkc id => (store.deleteQkc id).2
  | .deleteOrr id => (store.deleteOrr id).2
  | .deleteDkms id => (store.deleteDkms id).2

def TopologyStore.run (ops : List (Op K)) : TopologyStore K :=
  ops.foldl (TopologyStore.next tenPow) .empty

end Run

section Cases

variable (store : TopologyStore K)

theorem Topology.upsertOrr_cases (t : Topology K) (orr : Orr) : t.upsertOrr orr = (.rejected, t) ∨
      (∀ other ∈ t.orrByQkc orr.qkcId, other = orr.id) ∧
        (t.upsertOrr orr).2 = { t with
          orrByQkc := moveIndex t.orrByQkc ((t.orrs orr.id).map (·.qkcId)) orr.qkcId orr.id
          orrs := update t.orrs orr.id (some orr) } := by
  unfold upsertOrr
  split
  · exact .inl rfl
  split
  · exact .inl rfl
  rename_i free
  refine .inr ⟨?_, rfl⟩
  intro other here
  rw [here] at free
  simpa using free

theorem Topology.upsertDkms_cases (t : Topology K) (dkms : DkmsNode) :
    t.upsertDkms dkms = (.rejected, t) ∨
      ∃ orr, t.orrs dkms.orrId = some orr ∧ (∀ other ∈ t.dkmsByQkc orr.qkcId, other = dkms.id) ∧
        (t.upsertDkms dkms).2 = { t with
          dkmsByQkc := moveIndex t.dkmsByQkc (t.qkcOfDkms dkms.id) orr.qkcId dkms.id
          dkms := update t.dkms dkms.id (some dkms) } := by
  unfold upsertDkms
  split
  · exact .inl rfl
  rename_i orr found
  split
  · exact .inl rfl
  rename_i free
  refine .inr ⟨orr, found, ?_, rfl⟩
  intro other here
  rw [here] at free
  simpa using free

theorem Topology.claimSaes_saes (dkmsId : String) (saes : List String) (t : Topology K) :
    ∃ claimed, (claimSaes dkmsId saes t).2.2 = { t with saes := claimed } := by
  induction saes generalizing t with
  | nil => exact ⟨t.saes, rfl⟩
  | cons saeId saes ih =>
    unfold claimSaes
    split
    · exact ih t
    have one : ∃ claimed, (t.upsertSae ⟨saeId, dkmsId⟩).2 = { t with saes := claimed } := by
      unfold upsertSae
      split
      · exact ⟨t.saes, rfl⟩
      split
      · exact ⟨t.saes, rfl⟩
      · exact ⟨_, rfl⟩
    obtain ⟨first, upserted⟩ := one
    obtain ⟨claimed, rest⟩ := ih (t.upsertSae ⟨saeId, dkmsId⟩).2
    refine ⟨claimed, ?_⟩
    rw [rest, upserted]

theorem TopologyStore.announceOrr_cases (reg : OrrAnnounce) :
    (store.announceOrr reg).2.topology = store.topology ∨
      (∀ other ∈ store.topology.orrByQkc reg.qkcId, other = reg.id) ∧
        (store.announceOrr reg).2.topology = { store.topology with
          orrByQkc := moveIndex store.topology.orrByQkc
            ((store.topology.orrs reg.id).map (·.qkcId)) reg.qkcId reg.id
          orrs := update store.topology.orrs reg.id (some (store.topology.announcedOrr reg))
          version := store.topology.version + 1 } := by
  unfold announceOrr mutate
  by_cases known : store.topology.registered reg.qkcId
  · simp only [known, Bool.not_true, Bool.false_eq_true, ↓reduceIte]
    split
    · exact .inl rfl
    · exact .inl rfl
    rename_i t result
    have upserted := store.topology.upsertOrr_cases (store.topology.announcedOrr reg)
    simp only [result, Prod.mk.injEq, reduceCtorEq, false_and, false_or] at upserted
    obtain ⟨free, rfl⟩ := upserted
    exact .inr ⟨free, rfl⟩
  · simp [known]

theorem TopologyStore.announceDkms_cases (reg : DkmsAnnounce) :
    (store.announceDkms reg).2.topology = store.topology ∨
      ∃ orr saes, store.topology.orrs reg.orrId = some orr ∧
        (∀ other ∈ store.topology.dkmsByQkc orr.qkcId, other = reg.id) ∧
        (∃ t : Topology K, (t.saes = store.topology.saes ∧ t.dkms = update store.topology.dkms reg.id
          (some (store.topology.announcedDkms reg))) ∧ saes = (t.claimSaes reg.id reg.saes).2.2.saes) ∧
        (store.announceDkms reg).2.topology = { store.topology with
          dkmsByQkc := moveIndex store.topology.dkmsByQkc (store.topology.qkcOfDkms reg.id) orr.qkcId reg.id
          dkms := update store.topology.dkms reg.id (some (store.topology.announcedDkms reg))
          saes
          version := store.topology.version + 1 } := by
  unfold announceDkms
  split
  · exact .inl rfl
  unfold mutate
  by_cases known : (store.topology.orrs reg.orrId).isNone
  · simp [known]
  simp only [known, Bool.false_eq_true, ↓reduceIte]
  split
  · exact .inl rfl
  rename_i r t accepted result
  have upserted := store.topology.upsertDkms_cases (store.topology.announcedDkms reg)
  rw [result] at upserted
  obtain rejected | ⟨orr, found, free, rfl⟩ := upserted
  · exact absurd (congrArg Prod.fst rejected) accepted
  obtain ⟨claimed, saes⟩ := Topology.claimSaes_saes reg.id reg.saes { store.topology with
    dkmsByQkc := moveIndex store.topology.dkmsByQkc (store.topology.qkcOfDkms reg.id) orr.qkcId reg.id
    dkms := update store.topology.dkms reg.id (some (store.topology.announcedDkms reg)) }
  split
  · refine .inr ⟨orr, claimed, found, free, ⟨_, ?_, (congrArg Topology.saes saes).symm⟩, ?_⟩
    · exact ⟨rfl, rfl⟩
    exact congrArg (fun t : Topology K => { t with version := t.version + 1 }) saes
  · exact .inl rfl

theorem TopologyStore.deleteQkc_cases (qkcId : String) : store.topology.registered qkcId = false ∧
        (store.deleteQkc qkcId).2.topology = store.topology ∨
      (store.deleteQkc qkcId).2.topology =
        { store.topology.removeQkc qkcId with version := store.topology.version + 1 } := by
  unfold deleteQkc tryMutate
  cases known : store.topology.registered qkcId with
  | false => exact .inl ⟨rfl, by simp [known]⟩
  | true =>
    refine .inr ?_
    simp only [known]
    rfl

theorem TopologyStore.deleteOrr_cases (orrId : String) :
    store.topology.orrs orrId = none ∧ (store.deleteOrr orrId).2.topology = store.topology ∨
      ∃ orr, store.topology.orrs orrId = some orr ∧
        (store.deleteOrr orrId).2.topology = { store.topology with
          orrs := update store.topology.orrs orrId none
          orrByQkc := unlink store.topology.orrByQkc orr.qkcId orrId
          version := store.topology.version + 1 } := by
  unfold deleteOrr tryMutate
  cases found : store.topology.orrs orrId with
  | none => exact .inl ⟨rfl, by simp [found]⟩
  | some orr => exact .inr ⟨orr, rfl, by simp [found]⟩

theorem TopologyStore.deleteDkms_cases (dkmsId : String) :
    store.topology.dkms dkmsId = none ∧ (store.deleteDkms dkmsId).2.topology = store.topology ∨
      ∃ dkms saes, store.topology.dkms dkmsId = some dkms ∧
        (store.deleteDkms dkmsId).2.topology = { store.topology with
          dkms := update store.topology.dkms dkmsId none
          saes
          dkmsByQkc := leaveIndex store.topology.dkmsByQkc
            ((store.topology.orrs dkms.orrId).map (·.qkcId)) dkmsId
          version := store.topology.version + 1 } := by
  unfold deleteDkms tryMutate
  cases found : store.topology.dkms dkmsId with
  | none => exact .inl ⟨rfl, by simp [found]⟩
  | some dkms => exact .inr ⟨dkms, _, rfl, by simp [found]; rfl⟩

end Cases

end Dkms.Sdn
