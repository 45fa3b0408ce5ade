import Dkms.Core.Count
import Dkms.Node.Effects
import Dkms.Node.Footprint

namespace Dkms.Node

open List Std Dkms.Core Discipline

abbrev Held := NodeId × KeyId

def drawsOf (work : List (NodeId × Quota)) : List Held :=
  work.flatMap fun item => (range item.2.tokens).map fun i => (item.1, (item.2.draw i).keyId)

def Tag.draws (tag : Tag) : List Held :=
  match tag.call with
  | .tick work => drawsOf work.toList
  | _ => []

def Etsi020ExtKeyContainer.held (body : Etsi020ExtKeyContainer) (peer : NodeId) : List Held :=
  body.transportKeyIds.map (peer, ·)

/-- The transport keys in a handler's hands: taken out of a buffer or of `ack_pending`, and not
yet put back, sent or, for a fresh one, announced. -/
def handle (hand : List Held) : (op : Op) → op.Answer → List Held
  | .popOldest peer _, some key => (peer, key.id) :: hand
  | .ackTake peer keyId, .hit _ => (peer, keyId) :: hand
  | .pushFront peer _ key, _ | .tryPush peer _ key, _ => hand.erase (peer, key.id)
  | .ackInsert peer keyId _ _, _ => hand.erase (peer, keyId)
  | .sendExtKeys peer body, _ => hand.diff (body.held peer)
  | _, _ => hand

def Task.hand (t : Task) : List Held :=
  t.log.foldl (fun hand entry => handle hand entry.1 entry.2) t.tag.draws

def custody : Discipline Op.Answer (List Held) where
  may hand
    | .pushFront peer _ key | .tryPush peer _ key => (peer, key.id) ∈ hand
    | .ackInsert peer keyId _ _ => (peer, keyId) ∈ hand
    | .sendExtKeys peer body => (body.held peer).Subperm hand
    | _ => True
  learns _ _ _ := True
  after := handle

variable {hand : List Held}

variable {kinds : List OpKind}

theorem custody_of_touches {α : Type} {handler : Handler α}
    (touches : Touches kinds handler) (pushes : .encPush ∉ kinds) (puts : .ackPut ∉ kinds)
    (posts : .post ∉ kinds) : custody.Obeys (fun _ _ => True) hand handler := by
  apply Obeys.of_uses touches
  intro _ op member
  cases op <;> trivial

def handKinds : List OpKind := [.encPop, .encPush, .ackPut, .ackTake, .post]

theorem custody_same {α : Type} {handler : Handler α}
    (touches : Touches kinds handler) (apart : ∀ kind ∈ kinds, kind ∉ handKinds) :
    custody.Obeys (fun hand' _ => hand' = hand) hand handler := by
  apply Obeys.of_uses_same touches
  · intro _ op member
    have other := apart op.kind member
    cases op <;> first | trivial | exact absurd (by simp [Op.kind, handKinds]) other
  · intro _ op answer member
    have other := apart op.kind member
    cases op <;> first | rfl | exact absurd (by simp [Op.kind, handKinds]) other

theorem subperm_erase {α : Type} [BEq α] [LawfulBEq α] {x : α} {a b : List α}
    (within : (x :: a).Subperm b) : a.Subperm (b.erase x) := by
  have erased := Subperm.erase x within
  rwa [erase_cons_head] at erased

theorem subperm_diff {α : Type} [BEq α] [LawfulBEq α] {a b hand : List α}
    (within : (a ++ b).Subperm hand) : b.Subperm (hand.diff a) := by
  rw [subperm_ext_iff] at within ⊢
  intro x member
  have bound := within x (mem_append_right _ member)
  rw [count_append] at bound
  rw [count_diff]
  omega

theorem subperm_mem {α : Type} {x : α} {a b : List α} (within : (x :: a).Subperm b) : x ∈ b :=
  within.subset (mem_cons_self ..)

def Popped.held (p : Popped) : Held := (p.peer, p.key.id)

def Took (peer : NodeId) (hand hand' : List Held) : Option Popped → Prop
  | some p => p.peer = peer ∧ hand' = p.held :: hand
  | none => hand' = hand

theorem encPopPref_custody (peer : NodeId) (prefs : List KeyGrade) :
    custody.Obeys (Took peer hand) hand (encPopPref peer prefs) := by
  induction prefs with
  | nil => rfl
  | cons grade prefs ih =>
    apply Obeys.perform trivial
    intro key _
    cases key with
    | none => exact ih
    | some key => exact ⟨rfl, rfl⟩

theorem pushFrontAll_custody (popped : List Popped) (rest : List Held)
    (within : (popped.map Popped.held ++ rest).Subperm hand) :
    custody.Obeys (fun hand' _ => rest.Subperm hand') hand (pushFrontAll popped) := by
  induction popped generalizing hand with
  | nil => exact within
  | cons p popped ih =>
    apply Obeys.perform (subperm_mem within)
    intro _ _
    exact ih (subperm_erase within)

theorem giveBack_custody (popped : List Popped) (rest : List Held)
    (within : (rest ++ popped.map Popped.held).Subperm hand) :
    custody.Obeys (fun hand' _ => rest.Subperm hand') hand (giveBack popped) := by
  apply pushFrontAll_custody
  refine (Perm.subperm ?_).trans within
  rw [map_reverse]
  exact ((reverse_perm _).append_right rest).trans perm_append_comm

def transportIdsOf (keys : List Etsi020Key) : List KeyId :=
  keys.filterMap fun k => k.extension.bind (·.transportKeyId)

theorem wrapKey_transportId {sha : Bytes → Bytes} {k : SessionKey} {transport : TransportKey}
    {wrapped : Etsi020Key} (made : wrapKey sha k transport = .ok wrapped) :
    transportIdsOf [wrapped] = [transport.id] := by
  unfold wrapKey at made
  split at made
  · cases made
  · cases made
    rfl

def Prepared (peer : NodeId) (rest hand : List Held) :
    Except DkmsError (List Etsi020Key × List Popped) → Prop
  | .ok (keys, popped) => (rest ++ popped.map Popped.held).Subperm hand ∧
    (transportIdsOf keys).map (peer, ·) = popped.map Popped.held
  | .error _ => rest.Subperm hand

theorem wrapKeys_custody (sha : Bytes → Bytes) (group : Group) (sessionKeys : List SessionKey)
    (keys : List Etsi020Key) (popped : List Popped) (rest : List Held)
    (prepared : Prepared group.peer rest hand (.ok (keys, popped))) :
    custody.Obeys (Prepared group.peer rest) hand (wrapKeys sha group sessionKeys keys popped) := by
  induction sessionKeys generalizing hand keys popped with
  | nil => exact prepared
  | cons k sessionKeys ih =>
    obtain ⟨within, named⟩ := prepared
    apply Obeys.bind (encPopPref_custody group.peer group.prefs)
    intro hand' found took
    cases found with
    | none =>
      subst took
      exact (giveBack_custody popped rest within).bind fun _ _ back => back
    | some p =>
      obtain ⟨samePeer, rfl⟩ := took
      have kept : (rest ++ popped.map Popped.held).Subperm (p.held :: hand) :=
        within.trans (sublist_cons_self _ _).subperm
      dsimp only
      split
      · exact (giveBack_custody popped rest kept).bind fun _ _ back => back
      split
      · exact ((sublist_append_left _ _).subperm).trans kept
      rename_i wrapped made
      apply ih
      refine ⟨?_, ?_⟩
      · rw [map_append, ← append_assoc]
        refine (Perm.subperm ?_).trans ((subperm_cons p.held).mpr within)
        exact perm_append_singleton _ _
      have ids : transportIdsOf (keys ++ [wrapped]) =
          transportIdsOf keys ++ transportIdsOf [wrapped] := filterMap_append
      rw [ids, wrapKey_transportId made, map_append, named]
      simp [Popped.held, samePeer]

def Envelope.held (e : Envelope) : List Held := e.body.held e.peer

theorem buildEnvelopes_custody (sha : Bytes → Bytes) (cfg : DkmsConfig) (plan : EncPlan)
    (groups : List Group) (envelopes : List Envelope) (popped : List Popped)
    (within : (popped.map Popped.held).Subperm hand)
    (named : envelopes.flatMap Envelope.held = popped.map Popped.held) :
    custody.Obeys (fun hand' result => (result.1.map Popped.held).Subperm hand' ∧
        IfOk (fun built => built.flatMap Envelope.held = result.1.map Popped.held) result.2) hand
      (buildEnvelopes sha cfg plan groups envelopes popped) := by
  induction groups generalizing hand envelopes popped with
  | nil => exact ⟨within, named⟩
  | cons group groups ih =>
    have wrapped : custody.Obeys (fun hand' result =>
        match result with
        | .ok (body, keys) => (popped.map Popped.held ++ keys.map Popped.held).Subperm hand' ∧
          body.held group.peer = keys.map Popped.held
        | .error _ => (popped.map Popped.held).Subperm hand') hand
        (buildExtKeysEnvelope sha cfg plan group) := by
      apply Obeys.bind (wrapKeys_custody sha group plan.sessionKeys [] []
        (popped.map Popped.held) ⟨by simpa using within, rfl⟩)
      intro hand' result prepared
      cases result with
      | error error => exact prepared
      | ok pair => exact prepared
    apply Obeys.bind wrapped
    intro hand' result prepared
    cases result with
    | error error => exact ⟨prepared, trivial⟩
    | ok pair =>
      obtain ⟨body, keys⟩ := pair
      apply ih
      · rw [map_append]
        exact prepared.1
      rw [flatMap_append, named, map_append]
      have last : [Envelope.mk group.peer body].flatMap Envelope.held = keys.map Popped.held := by
        rw [flatMap_singleton]
        exact prepared.2
      rw [last]

theorem sendAll_custody (envelopes : List Envelope) (sent : List (NodeId × Nat))
    (within : (envelopes.flatMap Envelope.held).Subperm hand) :
    custody.Obeys (fun _ _ => True) hand (sendAll envelopes sent) := by
  induction envelopes generalizing hand sent with
  | nil => trivial
  | cons envelope envelopes ih =>
    have first : (envelope.body.held envelope.peer).Subperm hand :=
      (sublist_append_left _ _).subperm.trans within
    apply Obeys.perform first
    intro post _
    exact ih _ (subperm_diff within)

theorem rollback_custody (plan : EncPlan) (popped : List Popped) (error : DkmsError)
    (within : (popped.map Popped.held).Subperm hand) :
    custody.Obeys (fun _ _ => True) hand (rollback plan popped error) := by
  apply Obeys.bind (giveBack_custody popped [] within)
  intro _ _ _
  apply Obeys.bind
    (custody_of_touches (forceRemoveAll_touches _) (by decide) (by decide) (by decide))
  intro _ _ _
  trivial

theorem distribute_custody (plan : EncPlan) (envelopes : List Envelope)
    (within : (envelopes.flatMap Envelope.held).Subperm hand) :
    custody.Obeys (fun _ _ => True) hand (distribute plan envelopes) := by
  apply Obeys.bind (sendAll_custody envelopes [] within)
  intro _ sent _
  apply Obeys.bind (custody_of_touches (awaitAll_touches _ _) (by decide) (by decide) (by decide))
  intro _ failed _
  cases failed with
  | nil => trivial
  | cons first failed =>
    apply Obeys.bind
      (custody_of_touches (resyncTransportBuffers_touches _) (by decide) (by decide) (by decide))
    intro _ _ _
    apply Obeys.bind
      (custody_of_touches (forceRemoveAll_touches _) (by decide) (by decide) (by decide))
    intro _ _ _
    trivial

theorem handleEncKeys_custody (sha : Bytes → Bytes) (cfg : DkmsConfig) (self : NodeId)
    (r : KeyRequest) (env : Surroundings) :
    custody.Obeys (fun _ _ => True) hand (handleEncKeys sha cfg self r env) := by
  unfold handleEncKeys
  cases admitEncKeys cfg self r env with
  | error error => trivial
  | ok plan =>
    apply Obeys.bind
      (custody_of_touches (storeLocally_touches plan) (by decide) (by decide) (by decide))
    intro _ _ _
    apply Obeys.bind (buildEnvelopes_custody sha cfg plan plan.groups [] [] (nil_subperm) rfl)
    rintro hand' ⟨popped, result⟩ ⟨within, named⟩
    cases result with
    | error error => exact rollback_custody plan popped error within
    | ok envelopes =>
      have checked : custody.Obeys (fun hand'' _ => hand'' = hand') hand'
          (checkDestinations cfg envelopes) :=
        custody_same (checkDestinations_touches cfg envelopes) (by decide)
      apply Obeys.bind checked
      rintro _ result rfl
      cases result with
      | error error => exact rollback_custody plan popped error within
      | ok _ =>
        apply distribute_custody plan envelopes
        rw [named]
        exact within

theorem handleIncomingAck_custody (peer : NodeId) (keyIds : List KeyId) (matched : Nat) :
    custody.Obeys (fun _ _ => True) hand (handleIncomingAck peer keyIds matched) := by
  have acked : ∀ hand keyId, custody.Obeys (fun _ _ => True) hand (onAck peer keyId) := by
    intro hand keyId
    apply Obeys.perform trivial
    intro outcome _
    cases outcome with
    | hit entry =>
      apply Obeys.perform
      · exact mem_cons_self ..
      · exact fun _ _ => trivial
    | _ => trivial
  induction keyIds generalizing hand matched with
  | nil => trivial
  | cons keyId keyIds ih =>
    apply Obeys.bind (acked hand keyId)
    intro _ found _
    split <;> exact ih _

def Emission.held (e : Emission) : Held := (e.peer, e.draw.keyId)

theorem planTick_custody (cfg : DkmsConfig) (work : List (NodeId × Quota)) (plan : List Emission)
    (within : (plan.map Emission.held ++ drawsOf work).Subperm hand) :
    custody.Obeys (fun hand' planned => (planned.map Emission.held).Subperm hand') hand
      (planTick cfg work plan) := by
  induction work generalizing plan with
  | nil => simpa [drawsOf, planTick] using within
  | cons item work ih =>
    obtain ⟨peer, quota⟩ := item
    apply Obeys.perform trivial
    intro qkd _
    apply Obeys.perform trivial
    intro pqc _
    apply Obeys.perform trivial
    intro waiting _
    dsimp only
    split
    · apply ih
      refine Subperm.trans (Sublist.subperm ?_) within
      exact (sublist_append_right _ _).append_left _
    apply ih
    refine Subperm.trans (Sublist.subperm ?_) within
    rw [map_append, append_assoc]
    apply Sublist.append_left
    apply Sublist.append_right
    rw [map_map]
    exact (range_sublist.mpr (Nat.min_le_left _ _)).map _

theorem startEmission_custody (cfg : DkmsConfig) (self : NodeId) (incarnation : String)
    (e : Emission) (rest : List Held) (within : (e.held :: rest).Subperm hand) :
    custody.Obeys (fun hand' _ => rest.Subperm hand') hand
      (startEmission cfg self incarnation e) := by
  apply Obeys.perform trivial
  intro known _
  split
  · apply Obeys.perform (subperm_mem within)
    intro _ _
    have left := subperm_erase within
    apply Obeys.perform trivial
    intro sealed _
    cases sealed with
    | _ => exact ⟨trivial, fun _ _ => left⟩
  · exact (sublist_cons_self _ _).subperm.trans within

theorem emitAll_custody (cfg : DkmsConfig) (self : NodeId) (incarnation : String) (fuel : Nat)
    (plan inFlight : List Emission) (within : (plan.map Emission.held).Subperm hand) :
    custody.Obeys (fun _ _ => True) hand (emitAll cfg self incarnation fuel plan inFlight) := by
  have finishes : ∀ hand inFlight, custody.Obeys (fun hand' _ => hand' = hand) hand
      (finishEmission inFlight) := fun hand inFlight =>
    custody_same (finishEmission_touches inFlight) (by decide)
  induction fuel generalizing hand plan inFlight with
  | zero => trivial
  | succ fuel ih =>
    cases plan with
    | nil =>
      unfold emitAll
      split
      · trivial
      apply Obeys.bind (finishes hand inFlight)
      rintro _ inFlight' rfl
      exact ih _ _ within
    | cons e plan =>
      unfold emitAll
      split
      · apply Obeys.bind (startEmission_custody cfg self incarnation e _ within)
        intro hand' started left
        split <;> exact ih _ _ left
      · apply Obeys.bind (finishes hand inFlight)
        rintro _ inFlight' rfl
        exact ih _ _ within

theorem tickOnce_custody (cfg : DkmsConfig) (self : NodeId) (incarnation : String)
    (work : TreeMap NodeId Quota) :
    custody.Obeys (fun _ _ => True) (drawsOf work.toList) (tickOnce cfg self incarnation work) := by
  apply Obeys.bind (planTick_custody cfg work.toList [] (Subperm.refl _))
  intro hand' plan within
  exact emitAll_custody cfg self incarnation _ plan [] within

theorem program_custody (sha : Bytes → Bytes) (tag : Tag) (node : DkmsService) :
    custody.Obeys (fun _ _ => True) tag.draws (tag.call.program sha tag.node node) := by
  obtain ⟨self, call⟩ := tag
  cases call with
  | encKeys r env =>
    exact (handleEncKeys_custody sha node.cfg self r env).bind fun _ _ _ => trivial
  | decKeys requester master keyIds =>
    exact (custody_of_touches (handleDecKeys_touches node.cfg self requester master keyIds)
      (by decide) (by decide) (by decide)).bind fun _ _ _ => trivial
  | extKeys peer body =>
    exact (custody_of_touches (handleExtKeys_touches sha node.cfg self peer body)
      (by decide) (by decide) (by decide)).bind fun _ _ _ => trivial
  | receipts peer keyIds => exact (handleIncomingAck_custody peer keyIds 0).bind fun _ _ _ => trivial
  | delivery frame =>
    exact (custody_of_touches (handleOrrDeliveryBuffer_touches node.cfg frame)
      (by decide) (by decide) (by decide)).bind fun _ _ _ => trivial
  | tick work =>
    exact (tickOnce_custody node.cfg self node.incarnation work).bind fun _ _ _ => trivial
  | drain => exact ⟨trivial, fun _ _ => ⟨trivial, fun _ _ => trivial⟩⟩
  | _ => exact ⟨trivial, fun _ _ => trivial⟩

end Dkms.Node
