import Dkms.Sdn.Saes

namespace Dkms.Sdn

open Option Dkms.Core Dkms.Sdn.Topology
open Std (ExtTreeMap)
open TopologyStore (tryMutateIf)

variable {K : Type*}

section Elsewhere

variable {t : Topology K}

variable {saeId other : String}

theorem Topology.updateSae_elsewhere (order : List String)
    (dkmsId : Option String) (dkmsTarget : Option (String × UInt16)) (elsewhere : other ≠ saeId) :
    (t.updateSae order saeId dkmsId dkmsTarget).2.saeOwner other = t.saeOwner other := by
  unfold updateSae tryMutateIf
  split
  · rfl
  dsimp only
  split
  · rename_i value changed next result
    split at result
    · cases result
    split at result
    · cases result
    split at result
    · cases result
    · cases result
      rw [if_pos rfl, saeOwner_version, saeOwner_bind, if_neg elsewhere]
  · rfl

theorem Topology.deleteSae_elsewhere (elsewhere : other ≠ saeId) :
    (t.deleteSae saeId).2.saeOwner other = t.saeOwner other := by
  unfold deleteSae tryMutateIf
  by_cases found : t.saes.contains saeId
  · simp only [found]
    unfold saeOwner
    simp only [ExtTreeMap.getElem?_erase, Std.compare_eq_iff_eq, Ne.symm elsewhere, ↓reduceIte]
  · simp only [found, Bool.false_eq_true, ↓reduceIte]

variable {saeId owner : String}

theorem Topology.claimSaes_kept (dkmsId : String) (saes : List String) (t : Topology K)
    (bound : t.saeOwner saeId = some owner) :
    (claimSaes dkmsId saes t).2.2.saeOwner saeId = some owner := by
  induction saes generalizing t with
  | nil => exact bound
  | cons claimed saes ih =>
    unfold claimSaes
    split
    · exact ih t bound
    rename_i mine
    apply ih (t.upsertSae ⟨claimed, dkmsId⟩).2
    unfold upsertSae
    split
    · exact bound
    split
    · exact bound
    -- the SAE is claimed by its owner, or it is another one
    change (t.bind ⟨claimed, dkmsId⟩).saeOwner saeId = some owner
    rw [saeOwner_bind]
    split
    · rename_i same
      subst same
      obtain ⟨sae, found, rfl⟩ := map_eq_some_iff.mp bound
      rw [found] at mine
      have same : sae.dkmsId = dkmsId := by simpa using mine
      rw [same]
    · exact bound

theorem TopologyStore.announceDkms_kept {store : TopologyStore K} (reg : DkmsAnnounce)
    (bound : store.topology.saeOwner saeId = some owner) :
    (store.announceDkms reg).2.topology.saeOwner saeId = some owner := by
  rcases store.announceDkms_cases reg with same | ⟨orr, saes, -, -, ⟨t, before, rfl⟩, placed⟩
  · rw [same]
    exact bound
  have bound' : t.saeOwner saeId = some owner := by
    unfold saeOwner
    rw [before.1]
    exact bound
  have claimed := t.claimSaes_kept reg.id reg.saes bound'
  rw [placed]
  exact claimed

end Elsewhere

def SaeRequest.target : SaeRequest → Option String
  | .put saeId _ => some saeId
  | .delete saeId => some saeId
  | .post _ => none
  | .announceDkms _ => none

theorem SaeRequest.authorize_owner {R : Type*} (rules : TextRules R) {identity : PeerCertIdentity} {t : Topology K}
    {request : SaeRequest} (allowed : request.authorize rules (some identity) t = .ok ())
    {owner : String} (read : request.target.bind t.saeOwner = some owner) :
    identity.nodeId = some owner := by
  have checked : ∀ saeId, t.saeOwner saeId = some owner →
      saeMutationAuthorized (some identity) (t.saeOwner saeId) = .ok () →
      identity.nodeId = some owner := by
    intro saeId read allowed
    rw [read] at allowed
    exact requireIdentity_ok_iff.mp allowed
  cases request with
  | put saeId p => exact checked saeId read allowed
  | delete saeId => exact checked saeId read allowed
  | _ => cases read

theorem SaeRequest.commit_kept (order : List String) (store : TopologyStore K)
    (request : SaeRequest) {saeId owner : String} (elsewhere : request.target ≠ some saeId)
    (bound : store.topology.saeOwner saeId = some owner) :
    (request.commit order store).2.topology.saeOwner saeId = some owner := by
  cases request with
  | post request =>
    rw [SaePost.commit_saeOwner]
    exact bulkItems_kept _ _ bound
  | put target p =>
    have other : saeId ≠ target := fun same => elsewhere (congrArg some same.symm)
    exact (updateSae_elsewhere order p.dkmsId p.dkmsTarget other).trans bound
  | delete target =>
    have other : saeId ≠ target := fun same => elsewhere (congrArg some same.symm)
    exact (deleteSae_elsewhere other).trans bound
  | announceDkms reg => exact TopologyStore.announceDkms_kept reg bound

/-- A handler between its two halves. `owner` is what its snapshot said. -/
structure InFlight where
  identity : PeerCertIdentity
  request : SaeRequest
  owner : Option String

structure Server (K : Type*) where
  store : TopologyStore K
  inFlight : List InFlight

inductive Event (K : Type*)
  | arrive (identity : PeerCertIdentity) (request : SaeRequest)
  | commit (i : Nat) (order : List String)
  -- an expiry, or an announcement of a QKC or an ORR
  | other (op : Op K)

section Interleavings

variable [Field K] [LinearOrder K] (tenPow : K → K) (rules : TextRules K)

def Server.next (s : Server K) : Event K → Server K
  | .arrive identity request =>
    match request.authorize rules (some identity) s.store.topology with
    | .ok () =>
      { s with inFlight := s.inFlight ++
          [⟨identity, request, request.target.bind s.store.topology.saeOwner⟩] }
    | .error _ => s
  | .commit i order =>
    match s.inFlight[i]? with
    | some h => ⟨(h.request.commit order s.store).2, s.inFlight.eraseIdx i⟩
    | none => s
  | .other op => { s with store := s.store.next tenPow op }

/-- Whoever moves or removes a SAE still finds the owner that its check read. -/
def Event.Current (s : Server K) : Event K → Prop
  | .commit i _ => ∀ h ∈ s.inFlight[i]?, ∀ saeId ∈ h.request.target,
      s.store.topology.saeOwner saeId = none ∨ s.store.topology.saeOwner saeId = h.owner
  | _ => True

instance (s : Server K) (event : Event K) : Decidable (event.Current s) := by
  rcases event with _ | _ <;> dsimp only [Event.Current] <;> infer_instance

def Server.Checked (s : Server K) : Prop :=
  ∀ h ∈ s.inFlight, ∀ owner ∈ h.owner, h.identity.nodeId = some owner

theorem Server.Checked.next {s : Server K} (checked : s.Checked) (event : Event K) :
    (s.next tenPow rules event).Checked := by
  cases event with
  | arrive identity request =>
    unfold Server.next
    dsimp only
    split
    · rename_i allowed
      intro h member owner read
      rcases List.mem_append.mp member with member | last
      · exact checked h member owner read
      rw [List.mem_singleton] at last
      subst last
      exact SaeRequest.authorize_owner rules allowed read
    · exact checked
  | commit i order =>
    unfold Server.next
    dsimp only
    split
    · intro h member
      exact checked h (List.mem_of_mem_eraseIdx member)
    · exact checked
  | other op => exact checked

/-- With mTLS, in every interleaving where each move and removal still finds the owner that its
check read, a binding is changed or removed only by a request of its owner. -/
theorem only_owner_moves (start : TopologyStore K) (events : List (Event K))
    (current : Follows (Server.next tenPow rules) Event.Current ⟨start, []⟩ events) :
    ∀ before i order after, events = before ++ .commit i order :: after →
      let s := before.foldl (Server.next tenPow rules) ⟨start, []⟩
      ∀ h, s.inFlight[i]? = some h → ∀ saeId d, s.store.topology.saeOwner saeId = some d →
        (s.next tenPow rules (.commit i order)).store.topology.saeOwner saeId ≠ some d →
        h.identity.nodeId = some d := by
  intro before i order after split s h found saeId d bound changed
  have checked : s.Checked := by
    have keeps : ∀ (s : Server K) event, s.Checked → True → (s.next tenPow rules event).Checked :=
      fun _ event checked _ => checked.next tenPow rules event
    exact (Follows.all _ before).invariant keeps (fun _ member => nomatch member)
  have step := follows_iff_splits.mp current before (.commit i order) after split
  have next : s.next tenPow rules (.commit i order) =
      ⟨(h.request.commit order s.store).2, s.inFlight.eraseIdx i⟩ := by
    unfold Server.next
    dsimp only
    rw [found]
  rw [next] at changed
  by_cases target : h.request.target = some saeId
  · have read : h.owner = some d := by
      have still := step h found saeId target
      rw [bound] at still
      simpa [eq_comm] using still
    exact checked h (List.mem_of_getElem? found) d read
  · exact absurd (h.request.commit_kept order s.store target bound) changed

end Interleavings

section Table

variable {t t' : Topology K}

theorem saeCountFor_eq (d : String) :
    t.saeCountFor d = (t.saes.filter fun _ s => s.dkmsId = d).size := by
  rw [← ExtTreeMap.length_toList, ExtTreeMap.toList_filter]
  rfl

structure Topology.Housed (t : Topology K) : Prop where
  named : t.Named
  bound : ∀ (id : String) (sae : Sae), t.saes[id]? = some sae → (t.dkms sae.dkmsId).isSome
  few : ∀ d, t.saeCountFor d ≤ maxSaesPerDkms

namespace Topology.Housed

section

variable (housed : t.Housed)
include housed

theorem bind {sae : Sae} (known : (t.dkms sae.dkmsId).isSome)
    (room : t.saeOwner sae.id ≠ some sae.dkmsId → t.saeCountFor sae.dkmsId < maxSaesPerDkms) :
    (t.bind sae).Housed where
  named := housed.named
  bound := by
    intro id other found
    simp only [Topology.bind, ExtTreeMap.getElem?_insert] at found
    split at found
    · cases found
      exact known
    · exact housed.bound id other found
  few := by
    intro d
    have before := housed.few d
    rw [saeCountFor_eq] at before ⊢
    by_cases own : sae.dkmsId = d
    · have inserted : (t.bind sae).saes.filter (fun _ s => s.dkmsId = d) =
          (t.saes.filter fun _ s => s.dkmsId = d).insert sae.id sae := by
        apply ExtTreeMap.ext_getElem?
        intro id
        simp only [Topology.bind, ExtTreeMap.getElem?_filter', ExtTreeMap.getElem?_insert]
        split <;> simp [own]
      rw [inserted, ExtTreeMap.size_insert]
      split
      · exact before
      rename_i absent
      rw [own, saeCountFor_eq] at room
      refine room fun owner => absent ?_
      obtain ⟨s, found, owner⟩ := map_eq_some_iff.mp owner
      simp [ExtTreeMap.contains_eq_isSome_getElem?, found, owner]
    · have erased : (t.bind sae).saes.filter (fun _ s => s.dkmsId = d) =
          (t.saes.filter fun _ s => s.dkmsId = d).erase sae.id := by
        apply ExtTreeMap.ext_getElem?
        intro id
        simp only [Topology.bind, ExtTreeMap.getElem?_filter', ExtTreeMap.getElem?_insert,
          ExtTreeMap.getElem?_erase]
        split <;> simp [own]
      rw [erased]
      exact ExtTreeMap.size_erase_le.trans before

theorem same (dkms : t'.dkms = t.dkms) (saes : t'.saes = t.saes) : t'.Housed := by
  obtain ⟨named, bound, few⟩ := housed
  unfold Named at named
  unfold saeCountFor at few
  rw [← dkms] at named bound
  rw [← saes] at bound few
  exact ⟨named, bound, few⟩

theorem filter {kept : String → Sae → Bool} (named : t'.Named) (saes : t'.saes = t.saes.filter kept)
    (bound : ∀ id sae, kept id sae → (t.dkms sae.dkmsId).isSome → (t'.dkms sae.dkmsId).isSome) :
    t'.Housed where
  named := named
  bound := by
    intro id sae found
    rw [saes, ExtTreeMap.getElem?_filter', filter_eq_some_iff] at found
    exact bound id sae found.2 (housed.bound id sae found.1)
  few := by
    intro d
    have fewer : (t'.saes.filter fun _ s => s.dkmsId = d) =
        (t.saes.filter fun _ s => s.dkmsId = d).filter kept := by
      apply ExtTreeMap.ext_getElem?
      intro id
      simp only [saes, ExtTreeMap.getElem?_filter', filter_filter, Bool.and_comm]
    rw [saeCountFor_eq, fewer]
    exact ExtTreeMap.size_filter_le_size.trans (saeCountFor_eq (t := t) d ▸ housed.few d)

theorem bulkItems {order : List String} (items : List SaeCreatePayload) :
    (bulkItems order items t).2.2.Housed := by
  induction items generalizing t with
  | nil => exact housed
  | cons item items ih =>
    apply ih (t := (t.bulkItem order item).2.2)
    obtain ⟨-, first⟩ | ⟨node, ⟨-, resolved, room⟩, first⟩ := bulkItem_cases t order item
    · rw [first]
      exact housed
    · rw [first]
      exact housed.bind (isSome_of_mem (resolveDkms_registered housed.named resolved)) fun _ => room

theorem claimSaes {dkmsId : String} (known : (t.dkms dkmsId).isSome) (saes : List String) :
    (claimSaes dkmsId saes t).2.2.Housed := by
  induction saes generalizing t with
  | nil => exact housed
  | cons saeId saes ih =>
    unfold claimSaes
    split
    · exact ih housed known
    rename_i mine
    have upserted : (t.upsertSae ⟨saeId, dkmsId⟩).2.Housed ∧
        ((t.upsertSae ⟨saeId, dkmsId⟩).2.dkms dkmsId).isSome := by
      unfold upsertSae
      split
      · exact ⟨housed, known⟩
      split
      · exact ⟨housed, known⟩
      rename_i room
      have bound : (t.bind ⟨saeId, dkmsId⟩).Housed := by
        refine housed.bind known fun stranger => ?_
        by_contra full
        refine room ⟨?_, not_lt.mp full⟩
        cases found : t.saes[saeId]? with
        | none => simp [ExtTreeMap.contains_eq_isSome_getElem?, found]
        | some sae =>
          have own : sae.dkmsId = dkmsId := by simpa [found] using mine
          exact absurd (by simp [saeOwner, found, own]) stranger
      exact ⟨bound, known⟩
    exact ih upserted.1 upserted.2

end

end Topology.Housed

variable {store : TopologyStore K}

theorem TopologyStore.announceDkms_housed (housed : store.topology.Housed)
    (reg : DkmsAnnounce) : (store.announceDkms reg).2.topology.Housed := by
  have named := announceDkms_named housed.named reg
  rcases store.announceDkms_cases reg with same | ⟨orr, saes, -, -, ⟨t, ⟨before, dkms⟩, rfl⟩, placed⟩
  · rw [same]
    exact housed
  have known : (t.dkms reg.id).isSome := by simp [dkms]
  have start : t.Housed := by
    refine ⟨fun id => ?_, fun id sae found => ?_, fun d => ?_⟩
    · rw [placed] at named
      rw [dkms]
      exact named id
    · rw [before] at found
      rw [dkms, Function.update_apply]
      split
      · rfl
      · exact housed.bound id sae found
    · unfold saeCountFor
      rw [before]
      exact housed.few d
  obtain ⟨_, claimed⟩ := claimSaes_saes reg.id reg.saes t
  rw [placed]
  refine (start.claimSaes known reg.saes).same ?_ rfl
  rw [claimed]
  exact dkms.symm

theorem SaeRequest.commit_housed (housed : store.topology.Housed)
    (order : List String) (request : SaeRequest) : (request.commit order store).2.topology.Housed := by
  have bulk : ∀ items, (store.topology.registerSaeBulk order items).2.Housed := by
    intro items
    unfold registerSaeBulk tryMutateIf
    split
    · exact housed
    dsimp only
    split
    · exact (housed.bulkItems items).same rfl rfl
    · exact housed
  cases request with
  | post request =>
    cases request with
    | one p =>
      change (store.topology.registerSae order p.id p.dkmsId p.dkmsTarget).2.Housed
      rw [registerSae_topology]
      exact bulk [p]
    | bulk items => exact bulk items
  | put saeId p =>
    change (store.topology.updateSae order saeId p.dkmsId p.dkmsTarget).2.Housed
    unfold updateSae tryMutateIf
    split
    · exact housed
    dsimp only
    split
    · rename_i result
      split at result
      · cases result
      split at result
      · cases result
      rename_i resolved
      split at result
      · cases result
      rename_i room
      cases result
      rw [if_pos rfl]
      have known := isSome_of_mem (resolveDkms_registered housed.named resolved)
      refine Housed.same (housed.bind known fun stranger => ?_) rfl rfl
      by_contra full
      exact room ⟨stranger, not_lt.mp full⟩
    · exact housed
  | delete saeId =>
    change (store.topology.deleteSae saeId).2.Housed
    have gone : store.topology.saes.erase saeId = store.topology.saes.filter fun id _ => id ≠ saeId := by
      apply ExtTreeMap.ext_getElem?
      intro id
      by_cases here : id = saeId
      · simp [here]
      · have kept : store.topology.saes[id]?.filter (fun _ => true) = store.topology.saes[id]? := by
          cases store.topology.saes[id]? <;> rfl
        simpa [ExtTreeMap.getElem?_erase, here, Ne.symm here] using kept.symm
    unfold deleteSae tryMutateIf
    by_cases found : store.topology.saes.contains saeId
    · simp only [found]
      exact housed.filter housed.named gone fun _ _ _ known => known
    · simpa [found] using housed
  | announceDkms reg => exact TopologyStore.announceDkms_housed housed reg

variable [Field K] [LinearOrder K] (tenPow : K → K)

def TopologyStore.change (store : TopologyStore K) : Op K ⊕ List String × SaeRequest → TopologyStore K
  | .inl op => store.next tenPow op
  | .inr (order, request) => (request.commit order store).2

theorem saes_stay_housed (changes : List (Op K ⊕ List String × SaeRequest)) :
    let t := (changes.foldl (TopologyStore.change tenPow) .empty).topology
    (∀ (id : String) (sae : Sae), t.saes[id]? = some sae → (t.dkms sae.dkmsId).isSome) ∧
      ∀ dkmsId, t.saeCountFor dkmsId ≤ maxSaesPerDkms := by
  have keeps : ∀ (store : TopologyStore K) change, store.topology.Housed → True →
      (store.change tenPow change).topology.Housed := by
    rintro store (op | ⟨order, request⟩) housed -
    · rcases store.next_nodes tenPow op with ⟨dkms, saes⟩ | ⟨reg, rfl⟩ | ⟨id, rfl⟩
      · exact housed.same dkms saes
      · exact TopologyStore.announceDkms_housed housed reg
      have named := TopologyStore.next_named tenPow housed.named (.deleteDkms id)
      change (store.deleteDkms id).2.topology.Named at named
      change (store.deleteDkms id).2.topology.Housed
      unfold TopologyStore.deleteDkms TopologyStore.tryMutate at named ⊢
      cases found : store.topology.dkms id with
      | none => simpa [found] using housed
      | some node =>
        simp only [found] at named ⊢
        refine housed.filter named rfl fun saeId sae kept known => ?_
        dsimp only
        rwa [Function.update_of_ne (by simpa using kept)]
    · exact SaeRequest.commit_housed housed order request
  have empty : (TopologyStore.empty : TopologyStore K).topology.Housed :=
    ⟨fun _ _ found => (by cases found), by simp [TopologyStore.empty, Topology.empty],
      fun _ => Nat.zero_le _⟩
  have housed := (Follows.all _ changes).invariant keeps empty
  exact ⟨housed.bound, housed.few⟩

end Table

def asNode (id : String) : PeerCertIdentity := ⟨some s!"dkms://{id}"⟩

def earlyPut : List (Event ℚ) :=
  [.arrive (asNode "dkms-2") (.put "sae-x" ⟨some "dkms-2", none⟩),
    .arrive (asNode "dkms-1") (.post (.one ⟨"sae-x", some "dkms-1", none⟩)), .commit 1 []]

theorem early_put_takes_binding :
    let s := earlyPut.foldl (Server.next wholeTenPow plainRules) ⟨TopologyStore.run wholeTenPow twoNodes, []⟩
    s.store.topology.saeOwner "sae-x" = some "dkms-1" ∧
      s.inFlight[0]?.bind (·.identity.nodeId) = some "dkms-2" ∧
      (s.next wholeTenPow plainRules (.commit 0 [])).store.topology.saeOwner "sae-x" =
        some "dkms-2" := by
  decide +kernel

def handover : List (Event ℚ) :=
  [.arrive (asNode "dkms-1") (.post (.one ⟨"sae-x", some "dkms-1", none⟩)), .commit 0 [],
    .arrive (asNode "dkms-1") (.put "sae-x" ⟨some "dkms-2", none⟩)]

theorem only_owner_moves_handover :
    let next := Server.next wholeTenPow plainRules
    let s := handover.foldl next ⟨TopologyStore.run wholeTenPow twoNodes, []⟩
    (next s (.commit 0 [])).store.topology.saeOwner "sae-x" = some "dkms-2" ∧
      ∀ h, s.inFlight[0]? = some h → h.identity.nodeId = some "dkms-1" := by
  refine ⟨by decide +kernel, ?_⟩
  intro h found
  exact only_owner_moves wholeTenPow plainRules (TopologyStore.run wholeTenPow twoNodes)
    (handover ++ [.commit 0 []]) (by decide +kernel) handover 0 [] [] rfl h found "sae-x" "dkms-1"
    (by decide +kernel) (by decide +kernel)

end Dkms.Sdn
