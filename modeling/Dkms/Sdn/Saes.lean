import Dkms.Sdn.Anchors
import Dkms.Sdn.HttpApi

namespace Dkms.Sdn

open Std (ExtTreeMap)
open List Function Dkms.Core Option
open TopologyStore (recordReports reportsOf tryMutateIf)

variable {K : Type*}

structure SaeCreatePayload where
  id : String
  dkmsId : Option String
  dkmsTarget : Option (String × UInt16)

structure SaeUpdatePayload where
  dkmsId : Option String
  dkmsTarget : Option (String × UInt16)

inductive BulkSaeOutcome
  | ok (sae : Sae)
  | error (saeId code detail : String)

def mustSpecify : String := "must specify dkms_id or dkms_target"

def tooManySaes (dkmsId : String) : String := s!"dkms {dkmsId} already has {maxSaesPerDkms} saes"

namespace Topology

variable (t : Topology K)

-- `order` is the order in which the hash map of the DKMSs is walked
variable (order : List String)

def resolveDkms (id : Option String) (ipPort : Option (String × UInt16)) : Option DkmsNode :=
  match id.bind t.dkms with
  | some d => some d
  | none => ipPort.bind fun (ip, port) =>
      (order.filterMap t.dkms).find? fun d => d.host.ip = ip ∧ d.host.port = port

def askedDkms (id : Option String) (ipPort : Option (String × UInt16)) : String :=
  id.getD (ipPort.elim "" fun (ip, port) => s!"{ip}:{port}")

def saeOwner (saeId : String) : Option String := t.saes[saeId]?.map (·.dkmsId)

def bind (sae : Sae) : Topology K := { t with saes := t.saes.insert sae.id sae }

def registerSae (saeId : String) (dkmsId : Option String) (dkmsTarget : Option (String × UInt16)) :
    Except SdnError Sae × Topology K :=
  if dkmsId.isNone ∧ dkmsTarget.isNone then (.error (.badRequest mustSpecify), t)
  else tryMutateIf t fun t =>
    if t.saes.contains saeId then .error (.saeAlreadyRegistered saeId)
    else
      match t.resolveDkms order dkmsId dkmsTarget with
      | none => .error (.unknownDkms (askedDkms dkmsId dkmsTarget))
      | some dkms =>
        if maxSaesPerDkms ≤ t.saeCountFor dkms.id then .error (.badRequest (tooManySaes dkms.id))
        else
          let sae : Sae := ⟨saeId, dkms.id⟩
          .ok (sae, true, t.bind sae)

def bulkItem (item : SaeCreatePayload) : BulkSaeOutcome × Bool × Topology K :=
  if item.dkmsId.isNone ∧ item.dkmsTarget.isNone then
    (.error item.id "bad_request" mustSpecify, false, t)
  else if t.saes.contains item.id then
    (.error item.id "already_registered" s!"sae already registered: {item.id}", false, t)
  else
    match t.resolveDkms order item.dkmsId item.dkmsTarget with
    | none =>
      let key := askedDkms item.dkmsId item.dkmsTarget
      (.error item.id "unknown_dkms" s!"unknown dkms: {key}", false, t)
    | some dkms =>
      if maxSaesPerDkms ≤ t.saeCountFor dkms.id then
        (.error item.id "too_many_saes" (tooManySaes dkms.id), false, t)
      else
        let sae : Sae := ⟨item.id, dkms.id⟩
        (.ok sae, true, t.bind sae)

def bulkItems : List SaeCreatePayload → Topology K → List BulkSaeOutcome × Bool × Topology K
  | [], t => ([], false, t)
  | item :: items, t =>
    let (result, changed, t) := t.bulkItem order item
    let (results, anyChange, t) := bulkItems items t
    (result :: results, changed || anyChange, t)

def registerSaeBulk (items : List SaeCreatePayload) :
    Except SdnError (List BulkSaeOutcome) × Topology K :=
  if items.isEmpty then (.ok [], t)
  else tryMutateIf t fun t => .ok (bulkItems order items t)

def updateSae (saeId : String) (dkmsId : Option String) (dkmsTarget : Option (String × UInt16)) :
    Except SdnError Sae × Topology K :=
  if dkmsId.isNone ∧ dkmsTarget.isNone then (.error (.badRequest mustSpecify), t)
  else tryMutateIf t fun t =>
    if !t.saes.contains saeId then .error (.unknownSae saeId)
    else
      match t.resolveDkms order dkmsId dkmsTarget with
      | none => .error (.unknownDkms (askedDkms dkmsId dkmsTarget))
      | some dkms =>
        if t.saeOwner saeId ≠ some dkms.id ∧ maxSaesPerDkms ≤ t.saeCountFor dkms.id then
          .error (.badRequest (tooManySaes dkms.id))
        else
          let sae : Sae := ⟨saeId, dkms.id⟩
          .ok (sae, true, t.bind sae)

def deleteSae (saeId : String) : Except SdnError Unit × Topology K :=
  tryMutateIf t fun t =>
    if t.saes.contains saeId then .ok ((), true, { t with saes := t.saes.erase saeId })
    else .error (.unknownSae saeId)

end Topology

namespace Topology

variable {t : Topology K} {order : List String}

@[simp] theorem saeOwner_version {version : Int} :
    { t with version }.saeOwner = t.saeOwner := rfl

theorem saeOwner_none_iff {saeId : String} :
    t.saeOwner saeId = none ↔ t.saes.contains saeId = false := by
  unfold saeOwner
  rw [map_eq_none_iff, ExtTreeMap.contains_eq_isSome_getElem?, isSome_eq_false_iff,
    isNone_iff_eq_none]

theorem saeOwner_bind (sae : Sae) (saeId : String) :
    (t.bind sae).saeOwner saeId = if saeId = sae.id then some sae.dkmsId else t.saeOwner saeId := by
  unfold saeOwner bind
  simp only [ExtTreeMap.getElem?_insert]
  by_cases same : saeId = sae.id
  · simp [same]
  · simp [same, Ne.symm same]

def Placeable (t : Topology K) (order : List String) (item : SaeCreatePayload) (node : DkmsNode) :
    Prop :=
  t.saeOwner item.id = none ∧ t.resolveDkms order item.dkmsId item.dkmsTarget = some node ∧
    t.saeCountFor node.id < maxSaesPerDkms

theorem bulkItem_cases (t : Topology K) (order : List String) (item : SaeCreatePayload) :
    (∀ node, ¬ t.Placeable order item node) ∧ (t.bulkItem order item).2 = (false, t) ∨
      ∃ node, t.Placeable order item node ∧
        (t.bulkItem order item).2 = (true, t.bind ⟨item.id, node.id⟩) := by
  unfold bulkItem Placeable
  split
  · rename_i unnamed
    refine .inl ⟨?_, rfl⟩
    rintro node ⟨-, resolved, -⟩
    rw [isNone_iff_eq_none, isNone_iff_eq_none] at unnamed
    rw [unnamed.1, unnamed.2] at resolved
    cases resolved
  split
  · rename_i taken
    refine .inl ⟨?_, rfl⟩
    rintro node ⟨free, -⟩
    rw [saeOwner_none_iff, taken] at free
    cases free
  rename_i free
  rw [Bool.not_eq_true, ← saeOwner_none_iff] at free
  split
  · rename_i unknown
    refine .inl ⟨?_, rfl⟩
    rintro node ⟨-, resolved, -⟩
    rw [unknown] at resolved
    cases resolved
  rename_i dkms resolved
  split
  · refine .inl ⟨?_, rfl⟩
    rintro node ⟨-, found, room⟩
    rw [resolved] at found
    cases found
    omega
  · exact .inr ⟨dkms, ⟨free, resolved, by omega⟩, rfl⟩

theorem registerSae_topology (t : Topology K) (order : List String) (p : SaeCreatePayload) :
    (t.registerSae order p.id p.dkmsId p.dkmsTarget).2 = (t.registerSaeBulk order [p]).2 := by
  unfold registerSae registerSaeBulk tryMutateIf bulkItems bulkItem bulkItems
  simp only [isEmpty_cons, Bool.or_false]
  by_cases unnamed : p.dkmsId.isNone ∧ p.dkmsTarget.isNone
  · simp only [unnamed, and_self, ↓reduceIte, Bool.false_eq_true]
  simp only [unnamed]
  cases t.saes.contains p.id with
  | true => rfl
  | false =>
    simp only [Bool.false_eq_true, ↓reduceIte]
    cases t.resolveDkms order p.dkmsId p.dkmsTarget with
    | none => rfl
    | some dkms =>
      by_cases full : maxSaesPerDkms ≤ t.saeCountFor dkms.id
      · simp only [full, ↓reduceIte, Bool.false_eq_true]
      · simp only [full, ↓reduceIte]

variable {items : List SaeCreatePayload}

@[simp] theorem resolveDkms_bind (sae : Sae) : (t.bind sae).resolveDkms order = t.resolveDkms order := rfl

theorem bulkItems_idle (idle : ∀ item ∈ items, ∀ node, ¬ t.Placeable order item node) :
    (bulkItems order items t).2 = (false, t) := by
  induction items with
  | nil => rfl
  | cons item items ih =>
    obtain ⟨-, first⟩ | ⟨node, placeable, -⟩ := bulkItem_cases t order item
    · have rest := ih fun other member => idle other (mem_cons_of_mem _ member)
      simp only [bulkItems, first, rest, Bool.or_false]
    · exact absurd placeable (idle item mem_cons_self node)

variable {saeId owner : String}

theorem bulkItems_kept (items : List SaeCreatePayload) (t : Topology K)
    (bound : t.saeOwner saeId = some owner) :
    (bulkItems order items t).2.2.saeOwner saeId = some owner := by
  induction items generalizing t with
  | nil => exact bound
  | cons item items ih =>
    apply ih (t.bulkItem order item).2.2
    obtain ⟨-, first⟩ | ⟨node, ⟨free, -⟩, first⟩ := bulkItem_cases t order item
    · rw [first]
      exact bound
    rw [first, saeOwner_bind, if_neg]
    · exact bound
    rintro rfl
    rw [free] at bound
    cases bound

theorem bulkItems_new (items : List SaeCreatePayload) (t : Topology K)
    (unbound : t.saeOwner saeId = none)
    (bound : (bulkItems order items t).2.2.saeOwner saeId = some owner) :
    ∃ item ∈ items, ∃ node, t.resolveDkms order item.dkmsId item.dkmsTarget = some node ∧
      owner = node.id := by
  induction items generalizing t with
  | nil =>
    change t.saeOwner saeId = _ at bound
    rw [unbound] at bound
    cases bound
  | cons item items ih =>
    change (bulkItems order items (t.bulkItem order item).2.2).2.2.saeOwner saeId = _ at bound
    obtain ⟨-, first⟩ | ⟨node, ⟨-, resolved, -⟩, first⟩ := bulkItem_cases t order item
    · rw [first] at bound
      obtain ⟨other, member, found⟩ := ih t unbound bound
      exact ⟨other, mem_cons_of_mem _ member, found⟩
    rw [first] at bound
    have placed := saeOwner_bind (t := t) ⟨item.id, node.id⟩ saeId
    split at placed
    · rw [bulkItems_kept items _ placed] at bound
      cases bound
      exact ⟨item, mem_cons_self, node, resolved, rfl⟩
    · rw [unbound] at placed
      obtain ⟨other, member, found⟩ := ih _ placed bound
      exact ⟨other, mem_cons_of_mem _ member, found⟩

variable {node : DkmsNode}

theorem bulkItems_binds (t : Topology K) {item : SaeCreatePayload}
    (member : item ∈ items) (placeable : t.Placeable order item node) :
    (bulkItems order items t).2.1 ∧
      ∃ saeId owner, t.saeOwner saeId = none ∧
        (bulkItems order items t).2.2.saeOwner saeId = some owner := by
  induction items with
  | nil => cases member
  | cons first items ih =>
    obtain ⟨idle, result⟩ | ⟨node', ⟨free, -⟩, result⟩ := bulkItem_cases t order first
    · rcases mem_cons.mp member with rfl | later
      · exact absurd placeable (idle node)
      · simp only [bulkItems, result]
        exact ih later
    simp only [bulkItems, result, Bool.true_or, true_and]
    refine ⟨first.id, node'.id, free, ?_⟩
    apply bulkItems_kept
    rw [saeOwner_bind, if_pos rfl]

theorem registerSaeBulk_saeOwner (items : List SaeCreatePayload) :
    (t.registerSaeBulk order items).2.saeOwner = (bulkItems order items t).2.2.saeOwner := by
  unfold registerSaeBulk
  split
  · rename_i empty
    rw [isEmpty_iff.mp empty]
    rfl
  unfold tryMutateIf
  dsimp only
  by_cases idle : ∀ item ∈ items, ∀ node, ¬ t.Placeable order item node
  · simp only [bulkItems_idle idle, Bool.false_eq_true, ↓reduceIte]
  push Not at idle
  obtain ⟨item, member, node, placeable⟩ := idle
  rw [if_pos (bulkItems_binds t member placeable).1]
  rfl

def Named (t : Topology K) : Prop := ∀ id, ∀ node ∈ t.dkms id, node.id = id

variable {target : Option (String × UInt16)}

theorem resolveDkms_registered {id : Option String} (named : t.Named)
    (resolved : t.resolveDkms order id target = some node) : t.dkms node.id = some node := by
  have filed : ∀ id, t.dkms id = some node → t.dkms node.id = some node := by
    intro id found
    rw [named id node found]
    exact found
  unfold resolveDkms at resolved
  split at resolved
  · rename_i d found
    cases resolved
    obtain ⟨id, -, found⟩ := bind_eq_some_iff.mp found
    exact filed id found
  · obtain ⟨address, -, found⟩ := bind_eq_some_iff.mp resolved
    obtain ⟨id, -, found⟩ := mem_filterMap.mp (mem_of_find?_eq_some found)
    exact filed id found

theorem resolveDkms_known {id : String} (known : t.dkms id = some node)
    : t.resolveDkms order (some id) target = some node := by
  unfold resolveDkms
  rw [bind_some, known]

theorem resolveDkms_unknown {id : String} (unknown : t.dkms id = none) :
    t.resolveDkms order (some id) target = t.resolveDkms order none target := by
  unfold resolveDkms
  rw [bind_some, unknown, bind_none]

end Topology

inductive SaePost
  | one (p : SaeCreatePayload)
  | bulk (items : List SaeCreatePayload)

def SaePost.items : SaePost → List SaeCreatePayload
  | .one p => [p]
  | .bulk items => items

inductive SaeRequest
  | post (request : SaePost)
  | put (saeId : String) (p : SaeUpdatePayload)
  | delete (saeId : String)
  | announceDkms (reg : DkmsAnnounce)

inductive SaeResponse
  | sae (sae : Sae)
  | outcomes (results : List BulkSaeOutcome)
  | noContent
  | announced (out : AnnounceOutcome)

namespace SaeRequest

variable {R : Type*}

def authorize (rules : TextRules R) (identity : Option PeerCertIdentity) (t : Topology K) :
    SaeRequest → Except ErrorResponse Unit
  | .post (.one p) => requireSaeOwner identity p.dkmsId
  | .post (.bulk items) =>
    if identity.isSome then forM items fun item => requireSaeOwner identity item.dkmsId else .ok ()
  | .put saeId _ => saeMutationAuthorized identity (t.saeOwner saeId)
  | .delete saeId => saeMutationAuthorized identity (t.saeOwner saeId)
  | .announceDkms reg => do
    requireIdentity identity reg.id "dkms"
    (validateDkmsAnnounce rules reg).mapError fun text => errResponse (.badRequest text)

def commit (order : List String) (store : TopologyStore K) :
    SaeRequest → Except ErrorResponse SaeResponse × TopologyStore K
  | .post (.one p) =>
    let (r, topology) := store.topology.registerSae order p.id p.dkmsId p.dkmsTarget
    ((r.map .sae).mapError errResponse, { store with topology })
  | .post (.bulk items) =>
    let (r, topology) := store.topology.registerSaeBulk order items
    ((r.map .outcomes).mapError errResponse, { store with topology })
  | .put saeId p =>
    let (r, topology) := store.topology.updateSae order saeId p.dkmsId p.dkmsTarget
    ((r.map .sae).mapError errResponse, { store with topology })
  | .delete saeId =>
    let (r, topology) := store.topology.deleteSae saeId
    ((r.map fun _ => .noContent).mapError errResponse, { store with topology })
  | .announceDkms reg =>
    let (out, store) := store.announceDkms reg
    (.ok (.announced out), store)

def handle (rules : TextRules R) (identity : Option PeerCertIdentity) (order : List String)
    (store : TopologyStore K) (request : SaeRequest) :
    Except ErrorResponse SaeResponse × TopologyStore K :=
  match request.authorize rules identity store.topology with
  | .error refusal => (.error refusal, store)
  | .ok () => request.commit order store

end SaeRequest

section Posts

variable {R : Type*} (rules : TextRules R) {identity : PeerCertIdentity} {d : String}

theorem SaePost.authorize_ok_iff (authenticated : identity.nodeId = some d) (t : Topology K)
    (request : SaePost) : (SaeRequest.post request).authorize rules (some identity) t = .ok () ↔
      ∀ item ∈ request.items, item.dkmsId = some d := by
  cases request with
  | one p => simp [SaeRequest.authorize, SaePost.items, requireSaeOwner_ok_iff authenticated]
  | bulk items =>
    simp [SaeRequest.authorize, SaePost.items, forM_ok_iff, requireSaeOwner_ok_iff authenticated]

theorem SaePost.commit_saeOwner (order : List String) (store : TopologyStore K)
    (request : SaePost) : ((SaeRequest.post request).commit order store).2.topology.saeOwner =
      (Topology.bulkItems order request.items store.topology).2.2.saeOwner := by
  rw [← Topology.registerSaeBulk_saeOwner]
  cases request with
  | one p => exact congrArg _ (Topology.registerSae_topology store.topology order p)
  | bulk items => rfl

/-- The item names a DKMS `d` that is not registered, and the address of one that is, where
there is room for it. -/
def Topology.Strays (t : Topology K) (order : List String) (d : String) (item : SaeCreatePayload) :
    Prop :=
  t.dkms d = none ∧ t.saeOwner item.id = none ∧
    ∃ node, t.resolveDkms order none item.dkmsTarget = some node ∧ t.saeCountFor node.id < maxSaesPerDkms

/-- With mTLS a `POST` of the node `d` binds SAEs only to `d`, exactly when it is not one that
passes the check with an item that strays. -/
theorem posts_bind_to_sender (store : TopologyStore K) (named : store.topology.Named)
    (order : List String) (authenticated : identity.nodeId = some d) (request : SaePost) :
    (∀ saeId owner, store.topology.saeOwner saeId = none →
        ((SaeRequest.post request).handle rules (some identity) order store).2.topology.saeOwner
          saeId = some owner → owner = d) ↔
      ¬ ((∀ item ∈ request.items, item.dkmsId = some d) ∧
        ∃ item ∈ request.items, store.topology.Strays order d item) := by
  have allowed := SaePost.authorize_ok_iff rules authenticated store.topology request
  unfold SaeRequest.handle
  cases verdict : (SaeRequest.post request).authorize rules (some identity) store.topology with
  | error refusal =>
    rw [verdict] at allowed
    simp only [reduceCtorEq, false_iff] at allowed
    refine ⟨fun _ both => allowed both.1, ?_⟩
    intro _ saeId owner unbound bound
    rw [unbound] at bound
    cases bound
  | ok _ =>
    have mine := allowed.mp verdict
    simp only [SaePost.commit_saeOwner]
    constructor
    · rintro own ⟨-, item, member, unknown, free, node, resolved, room⟩
      have placeable : store.topology.Placeable order item node := by
        refine ⟨free, ?_, room⟩
        rw [mine item member, Topology.resolveDkms_unknown unknown]
        exact resolved
      obtain ⟨-, saeId, owner, unbound, bound⟩ := Topology.bulkItems_binds store.topology member placeable
      have here := own saeId owner unbound bound
      obtain ⟨_, _, node', resolved', there⟩ := Topology.bulkItems_new _ _ unbound bound
      have registered := Topology.resolveDkms_registered named resolved'
      rw [← there, here, unknown] at registered
      cases registered
    intro straight saeId owner unbound bound
    obtain ⟨item, member, node, resolved, rfl⟩ := Topology.bulkItems_new _ _ unbound bound
    rw [mine item member] at resolved
    cases known : store.topology.dkms d with
    | some own =>
      rw [Topology.resolveDkms_known known] at resolved
      cases resolved
      exact named d _ known
    | none =>
      -- something was bound, so some item had its place from the start, and that one strays
      exfalso
      by_cases idle : ∀ item ∈ request.items, ∀ node, ¬ store.topology.Placeable order item node
      · rw [Topology.bulkItems_idle idle, unbound] at bound
        cases bound
      push Not at idle
      obtain ⟨first, listed, node, free, found, room⟩ := idle
      rw [mine first listed, Topology.resolveDkms_unknown known] at found
      exact straight ⟨mine, first, listed, known, free, node, found, room⟩

end Posts

section Named

theorem Topology.Named.update {t t' : Topology K} (named : t.Named) {id : String}
    {node : Option DkmsNode} (here : ∀ n ∈ node, n.id = id)
    (dkms : t'.dkms = update t.dkms id node) : t'.Named := by
  intro other n found
  rw [dkms, update_apply] at found
  split at found
  · rename_i same
    rw [same]
    exact here n found
  · exact named other n found

variable {store : TopologyStore K}

theorem TopologyStore.announceDkms_named (named : store.topology.Named) (reg : DkmsAnnounce) :
    (store.announceDkms reg).2.topology.Named := by
  rcases store.announceDkms_cases reg with same | ⟨orr, saes, -, -, -, placed⟩
  · rw [same]; exact named
  have dkms : (store.announceDkms reg).2.topology.dkms = update store.topology.dkms
      reg.id (some (store.topology.announcedDkms reg)) := by rw [placed]
  apply named.update _ dkms
  intro n announced
  cases announced
  rfl

variable [Field K] [LinearOrder K] (tenPow : K → K)

theorem TopologyStore.next_nodes (store : TopologyStore K) (op : Op K) :
    (store.next tenPow op).topology.dkms = store.topology.dkms ∧
        (store.next tenPow op).topology.saes = store.topology.saes ∨
      (∃ reg, op = .announceDkms reg) ∨ ∃ id, op = .deleteDkms id := by
  unfold next
  cases op with
  | announceQkc reg =>
    left
    let measured := (recordReports reg.id (reportsOf store.topology reg) store.measured).2
    have nodes := foldQkcAnnounce_sameNodes tenPow reg measured store.topology
    unfold announceQkc mutate
    dsimp only
    split
    · exact ⟨nodes.dkms, nodes.saes⟩
    · exact ⟨rfl, rfl⟩
  | announceOrr reg =>
    left
    dsimp only
    rcases store.announceOrr_cases reg with kept | ⟨-, placed⟩
    · rw [kept]; exact ⟨rfl, rfl⟩
    · rw [placed]; exact ⟨rfl, rfl⟩
  | deleteQkc id =>
    left
    dsimp only
    rcases store.deleteQkc_cases id with ⟨-, kept⟩ | removed
    · rw [kept]; exact ⟨rfl, rfl⟩
    · rw [removed]; exact ⟨rfl, rfl⟩
  | deleteOrr id =>
    left
    dsimp only
    rcases store.deleteOrr_cases id with ⟨-, kept⟩ | ⟨orr, -, removed⟩
    · rw [kept]; exact ⟨rfl, rfl⟩
    · rw [removed]; exact ⟨rfl, rfl⟩
  | announceDkms reg => exact .inr (.inl ⟨reg, rfl⟩)
  | deleteDkms id => exact .inr (.inr ⟨id, rfl⟩)

theorem TopologyStore.next_named (named : store.topology.Named)
    (op : Op K) : (store.next tenPow op).topology.Named := by
  rcases store.next_nodes tenPow op with ⟨dkms, -⟩ | ⟨reg, rfl⟩ | ⟨id, rfl⟩
  · intro id node found
    rw [dkms] at found
    exact named id node found
  · exact announceDkms_named named reg
  change (store.deleteDkms id).2.topology.Named
  rcases store.deleteDkms_cases id with ⟨-, kept⟩ | ⟨dkms, saes, -, removed⟩
  · rw [kept]; exact named
  have gone : (store.deleteDkms id).2.topology.dkms = update store.topology.dkms id none := by rw [removed]
  exact named.update (by simp) gone

theorem TopologyStore.run_named (ops : List (Op K)) :
    (TopologyStore.run tenPow ops).topology.Named := by
  have keeps : ∀ (store : TopologyStore K) op, store.topology.Named → True →
      (store.next tenPow op).topology.Named := fun _ op named _ => next_named tenPow named op
  exact (Follows.all _ ops).invariant keeps (fun _ _ found => nomatch found)

end Named

def stranger : PeerCertIdentity := ⟨some "dkms://dkms-9"⟩

def strayPost : SaePost := .one ⟨"sae-x", some "dkms-9", some ("10.0.0.7", 20001)⟩

/-- A stranger binds a SAE to a DKMS that knows nothing of it. -/
theorem stranger_binds_elsewhere :
    let store := TopologyStore.run wholeTenPow twoNodes
    stranger.nodeId = some "dkms-9" ∧ store.topology.saeOwner "sae-x" = none ∧
      ((SaeRequest.post strayPost).handle plainRules (some stranger) ["dkms-1", "dkms-2"]
        store).2.topology.saeOwner "sae-x" = some "dkms-1" := by
  decide +kernel

def ownPost : SaePost := .bulk [⟨"sae-1", some "dkms-1", none⟩, ⟨"sae-2", some "dkms-1", none⟩]

theorem posts_bind_to_sender_two_nodes :
    let store := TopologyStore.run wholeTenPow twoNodes
    let identity : PeerCertIdentity := ⟨some "urn:dkms:node:dkms-1"⟩
    let after := ((SaeRequest.post ownPost).handle plainRules (some identity) ["dkms-2", "dkms-1"]
      store).2.topology
    after.saeOwner "sae-2" = some "dkms-1" ∧
      ∀ saeId owner, store.topology.saeOwner saeId = none → after.saeOwner saeId = some owner →
        owner = "dkms-1" := by
  refine ⟨by decide +kernel, ?_⟩
  refine (posts_bind_to_sender plainRules _ (TopologyStore.run_named wholeTenPow twoNodes) _
    (by decide +kernel) ownPost).mpr ?_
  rintro ⟨-, item, -, unknown, -⟩
  revert unknown
  decide +kernel

end Dkms.Sdn
