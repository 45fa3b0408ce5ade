import Dkms.Node.Cluster

namespace Dkms.Node

open Std Dkms.Core Prog Op

inductive OpKind where
  | encPop
  | encPush
  | encLen
  | encWipe
  | dec
  | pendingPut
  | pendingTake
  | pendingDrop
  | ackPut
  | ackTake
  | ackDrop
  | ackCount
  | note
  | registry
  | post
  | answer
  | e2e
  | orr
  | receipt
  deriving DecidableEq

def Op.kind : Op → OpKind
  | .popOldest _ _ => .encPop
  | .pushFront _ _ _ | .tryPush _ _ _ => .encPush
  | .encLen _ _ => .encLen
  | .encClear _ _ | .clearAll => .encWipe
  | .takeById _ _ | .tryPushCapped _ _ | .decClear _ => .dec
  | .pendingInsert _ _ _ _ | .insertFromPeer _ _ _ _ _ _ => .pendingPut
  | .takeForSae _ _ _ => .pendingTake
  | .forceRemove _ | .sweepExpired | .pendingClear => .pendingDrop
  | .ackInsert _ _ _ _ => .ackPut
  | .ackTake _ _ => .ackTake
  | .ackDiscard _ _ | .reapExpired | .dropPeer _ => .ackDrop
  | .pendingCount _ => .ackCount
  | .noteIncarnation _ _ => .note
  | .knownPeer _ => .registry
  | .sendExtKeys _ _ => .post
  | .extKeysAnswer _ => .answer
  | .e2eSeal _ _ | .e2eOpen _ => .e2e
  | .sendKey _ | .sendKeyDone _ => .orr
  | .enqueueAck _ _ => .receipt

def Touches {α : Type} (kinds : List OpKind) (handler : Handler α) : Prop :=
  handler.Uses fun op => op.kind ∈ kinds

def IfOk {α : Type} (p : α → Prop) : Except DkmsError α → Prop
  | .ok value => p value
  | .error _ => True

variable {α β : Type} {kinds kinds' : List OpKind}

theorem Touches.mono {handler : Handler α} (touches : Touches kinds handler)
    (more : kinds ⊆ kinds') : Touches kinds' handler :=
  Uses.mono touches fun _ member => more member

theorem Touches.bind {first : Handler α} {second : α → Handler β} (left : Touches kinds first)
    (right : ∀ result, Touches kinds (second result)) : Touches kinds (first >>= second) :=
  Uses.bind left right

theorem touches_pure (result : α) : Touches kinds (pure result) := trivial

theorem touches_perform {op : Op} (member : op.kind ∈ kinds) : Touches kinds (perform op) :=
  ⟨member, fun _ => trivial⟩

theorem encPopPref_touches (peer : NodeId) (prefs : List KeyGrade) :
    Touches [.encPop] (encPopPref peer prefs) := by
  induction prefs with
  | nil => exact touches_pure _
  | cons grade prefs ih =>
    apply Touches.bind (touches_perform (by simp [kind]))
    intro key
    cases key with
    | none => exact ih
    | some key => exact touches_pure _

theorem pushFrontAll_touches (popped : List Popped) : Touches [.encPush] (pushFrontAll popped) := by
  induction popped with
  | nil => exact touches_pure _
  | cons p popped ih => exact Touches.bind (touches_perform (by simp [kind])) fun _ => ih

theorem checkDestinations_touches (cfg : DkmsConfig) (envelopes : List Envelope) :
    Touches [.registry] (checkDestinations cfg envelopes) := by
  induction envelopes with
  | nil => exact touches_pure _
  | cons envelope envelopes ih =>
    unfold checkDestinations
    split
    · exact touches_pure _
    apply Touches.bind (touches_perform (by simp [kind]))
    intro known
    split
    · exact ih
    · exact touches_pure _

theorem awaitAll_touches (sent : List (NodeId × Nat)) (failed : List DkmsError) :
    Touches [.answer] (awaitAll sent failed) := by
  induction sent generalizing failed with
  | nil => exact touches_pure _
  | cons pair sent ih =>
    apply Touches.bind (touches_perform (by simp [kind]))
    intro answer
    cases answer with
    | ok _ => exact ih _
    | error _ => exact ih _

theorem forceRemoveAll_touches (keys : List SessionKey) :
    Touches [.pendingDrop] (forceRemoveAll keys) := by
  induction keys with
  | nil => exact touches_pure _
  | cons k keys ih => exact Touches.bind (touches_perform (by simp [kind])) fun _ => ih

theorem encClear_touches (peer : NodeId) : Touches [.encWipe] (encClear peer) :=
  Touches.bind (touches_perform (by simp [kind])) fun _ => touches_perform (by simp [kind])

theorem resyncTransportBuffers_touches (errors : List DkmsError) :
    Touches [.encWipe] (resyncTransportBuffers errors) := by
  induction errors with
  | nil => exact touches_pure _
  | cons error errors ih =>
    apply Touches.bind
    · unfold resyncTransportBufferIfStale
      split
      · exact encClear_touches _
      · exact touches_pure _
    · exact fun _ => ih

theorem pendingInsertAll_touches (master : SaeId) (authorized : List SaeId)
    (keys : List SessionKey) : Touches [.pendingPut] (pendingInsertAll master authorized keys) := by
  induction keys with
  | nil => exact touches_pure _
  | cons k keys ih => exact Touches.bind (touches_perform (by simp [kind])) fun _ => ih

theorem storeLocally_touches (plan : EncPlan) : Touches [.pendingPut] (storeLocally plan) := by
  unfold storeLocally
  split
  · exact touches_pure _
  · exact pendingInsertAll_touches _ _ _

def encKeysKinds : List OpKind :=
  [.encPop, .encPush, .encWipe, .pendingPut, .pendingDrop, .registry, .post, .answer]

theorem buildExtKeysEnvelope_touches (sha : Bytes → Bytes) (cfg : DkmsConfig) (plan : EncPlan)
    (group : Group) : Touches [.encPop, .encPush] (buildExtKeysEnvelope sha cfg plan group) := by
  have loop : ∀ rest keys popped,
      Touches [.encPop, .encPush] (wrapKeys sha group rest keys popped) := by
    intro rest
    induction rest with
    | nil => exact fun _ _ => touches_pure _
    | cons k rest ih =>
      intro keys popped
      have gaveBack : Touches [.encPop, .encPush] (giveBack popped) := (pushFrontAll_touches _).mono (by simp)
      apply Touches.bind ((encPopPref_touches _ _).mono (by simp))
      intro found
      cases found with
      | none => exact Touches.bind gaveBack fun _ => touches_pure _
      | some p =>
        dsimp only
        split
        · exact Touches.bind gaveBack fun _ => touches_pure _
        split
        · exact touches_pure _
        · exact ih _ _
  apply Touches.bind (loop ..)
  intro result
  cases result <;> exact touches_pure _

theorem buildEnvelopes_touches (sha : Bytes → Bytes) (cfg : DkmsConfig) (plan : EncPlan)
    (groups : List Group) (envelopes : List Envelope) (popped : List Popped) :
    Touches encKeysKinds (buildEnvelopes sha cfg plan groups envelopes popped) := by
  induction groups generalizing envelopes popped with
  | nil => exact touches_pure _
  | cons group groups ih =>
    apply Touches.bind ((buildExtKeysEnvelope_touches ..).mono (by simp [encKeysKinds]))
    intro result
    cases result with
    | error error => exact touches_pure _
    | ok pair => exact ih _ _

theorem sendAll_touches (envelopes : List Envelope) (sent : List (NodeId × Nat)) :
    Touches [.post] (sendAll envelopes sent) := by
  induction envelopes generalizing sent with
  | nil => exact touches_pure _
  | cons envelope envelopes ih =>
    exact Touches.bind (touches_perform (by simp [kind])) fun _ => ih _

theorem rollback_touches (plan : EncPlan) (popped : List Popped) (error : DkmsError) :
    Touches encKeysKinds (rollback plan popped error) := by
  apply Touches.bind ((pushFrontAll_touches _).mono (by simp [encKeysKinds]))
  intro _
  apply Touches.bind ((forceRemoveAll_touches _).mono (by simp [encKeysKinds]))
  exact fun _ => touches_pure _

theorem handleEncKeys_touches (sha : Bytes → Bytes) (cfg : DkmsConfig) (self : NodeId)
    (r : KeyRequest) (env : Surroundings) :
    Touches encKeysKinds (handleEncKeys sha cfg self r env) := by
  unfold handleEncKeys
  cases admitEncKeys cfg self r env with
  | error error => exact touches_pure _
  | ok plan =>
    apply Touches.bind ((storeLocally_touches plan).mono (by simp [encKeysKinds]))
    intro _
    apply Touches.bind (buildEnvelopes_touches ..)
    rintro ⟨popped, result⟩
    cases result with
    | error error => exact rollback_touches ..
    | ok envelopes =>
      apply Touches.bind ((checkDestinations_touches ..).mono (by simp [encKeysKinds]))
      intro checked
      cases checked with
      | error error => exact rollback_touches ..
      | ok _ =>
        apply Touches.bind ((sendAll_touches ..).mono (by simp [encKeysKinds]))
        intro sent
        apply Touches.bind ((awaitAll_touches ..).mono (by simp [encKeysKinds]))
        intro failed
        cases failed with
        | nil => exact touches_pure _
        | cons first failed =>
          apply Touches.bind ((resyncTransportBuffers_touches _).mono (by simp [encKeysKinds]))
          intro _
          apply Touches.bind ((forceRemoveAll_touches _).mono (by simp [encKeysKinds]))
          exact fun _ => touches_pure _

theorem takeKeys_touches (requester master : SaeId) (keyIds : List KeyId)
    (keys : List Etsi014Key) : Touches [.pendingTake] (takeKeys requester master keyIds keys) := by
  induction keyIds generalizing keys with
  | nil => exact touches_pure _
  | cons keyId keyIds ih =>
    apply Touches.bind (touches_perform (by simp [kind]))
    intro answer
    cases answer with
    | ok _ => exact ih _
    | error _ => exact touches_pure _

theorem receiveKeys_touches (sha : Bytes → Bytes) (d : Delivery) (keys : List Etsi020Key)
    (acked : List KeyId) : Touches [.dec, .pendingPut] (receiveKeys sha d keys acked) := by
  induction keys generalizing acked with
  | nil => exact touches_pure _
  | cons k keys ih =>
    unfold receiveKeys
    split
    · exact touches_pure _
    apply Touches.bind (touches_perform (by simp [kind]))
    intro taken
    split
    · exact touches_pure _
    split
    · exact touches_pure _
    split
    · exact ih _
    apply Touches.bind (touches_perform (by simp [kind]))
    intro stored
    split
    · exact ih _
    · exact ih _
    · exact touches_pure _

theorem handleDecKeys_touches (cfg : DkmsConfig) (self : NodeId) (requester master : SaeId)
    (keyIds : List KeyId) :
    Touches [.pendingTake] (handleDecKeys cfg self requester master keyIds) := by
  unfold handleDecKeys
  split
  · exact touches_pure _
  · exact takeKeys_touches _ _ _ _

theorem handleExtKeys_touches (sha : Bytes → Bytes) (cfg : DkmsConfig) (self peer : NodeId)
    (body : Etsi020ExtKeyContainer) :
    Touches [.registry, .dec, .pendingPut] (handleExtKeys sha cfg self peer body) := by
  apply Touches.bind (touches_perform (by simp [kind]))
  intro known
  split
  · unfold handleIncomingExtKeys
    split
    · exact touches_pure _
    apply Touches.bind ((receiveKeys_touches _ _ _ _).mono (by simp))
    intro result
    split <;> exact touches_pure _
  · exact touches_pure _

theorem handleIncomingAck_touches (peer : NodeId) (keyIds : List KeyId) (matched : Nat) :
    Touches [.ackTake, .encPush] (handleIncomingAck peer keyIds matched) := by
  induction keyIds generalizing matched with
  | nil => exact touches_pure _
  | cons keyId keyIds ih =>
    apply Touches.bind
    · apply Touches.bind (touches_perform (by simp [kind]))
      intro outcome
      split
      · exact touches_pure _
      · exact touches_pure _
      · exact Touches.bind (touches_perform (by simp [kind])) fun _ => touches_pure _
    · intro found
      split <;> exact ih _

theorem planTick_touches (cfg : DkmsConfig) (work : List (NodeId × Quota))
    (plan : List Emission) : Touches [.encLen, .ackCount] (planTick cfg work plan) := by
  induction work generalizing plan with
  | nil => exact touches_pure _
  | cons item work ih =>
    apply Touches.bind (touches_perform (by simp [kind]))
    intro qkd
    apply Touches.bind (touches_perform (by simp [kind]))
    intro pqc
    apply Touches.bind (touches_perform (by simp [kind]))
    intro waiting
    dsimp only
    split <;> exact ih _

theorem startEmission_touches (cfg : DkmsConfig) (self : NodeId) (incarnation : String)
    (e : Emission) :
    Touches [.registry, .ackPut, .ackDrop, .e2e, .orr] (startEmission cfg self incarnation e) := by
  apply Touches.bind (touches_perform (by simp [kind]))
  intro known
  split
  · apply Touches.bind (touches_perform (by simp [kind]))
    intro _
    apply Touches.bind (touches_perform (by simp [kind]))
    intro sealed
    split <;> exact Touches.bind (touches_perform (by simp [kind])) fun _ => touches_pure _
  · exact touches_pure _

theorem finishEmission_touches (inFlight : List Emission) :
    Touches [.ackDrop, .orr] (finishEmission inFlight) := by
  apply Touches.bind (touches_perform (by simp [kind]))
  intro ended
  dsimp only
  split
  · exact touches_pure _
  split
  · exact touches_pure _
  · exact Touches.bind (touches_perform (by simp [kind])) fun _ => touches_pure _

theorem emitAll_touches (cfg : DkmsConfig) (self : NodeId) (incarnation : String) (fuel : Nat)
    (plan inFlight : List Emission) : Touches [.registry, .ackPut, .ackDrop, .e2e, .orr]
      (emitAll cfg self incarnation fuel plan inFlight) := by
  have finishes : ∀ inFlight, Touches [.registry, .ackPut, .ackDrop, .e2e, .orr]
      (finishEmission inFlight) := fun inFlight => (finishEmission_touches inFlight).mono (by simp)
  induction fuel generalizing plan inFlight with
  | zero => exact touches_pure _
  | succ fuel ih =>
    cases plan with
    | nil =>
      unfold emitAll
      split
      · exact touches_pure _
      · exact Touches.bind (finishes _) fun _ => ih _ _
    | cons e plan =>
      unfold emitAll
      split
      · apply Touches.bind (startEmission_touches ..)
        intro started
        split <;> exact ih _ _
      · exact Touches.bind (finishes _) fun _ => ih _ _

theorem tickOnce_touches (cfg : DkmsConfig) (self : NodeId) (incarnation : String)
    (work : TreeMap NodeId Quota) :
    Touches [.encLen, .ackCount, .registry, .ackPut, .ackDrop, .e2e, .orr]
      (tickOnce cfg self incarnation work) :=
  Touches.bind ((planTick_touches ..).mono (by simp)) fun _ => (emitAll_touches ..).mono (by simp)

theorem notePeerIncarnation_touches (peer : NodeId) (incarnation : String) :
    Touches [.note, .encWipe, .dec, .ackDrop] (notePeerIncarnation peer incarnation) := by
  apply Touches.bind (touches_perform (by simp [kind]))
  intro previous
  split
  · apply Touches.bind ((encClear_touches _).mono (by simp))
    intro _
    exact Touches.bind (touches_perform (by simp [kind])) fun _ =>
      touches_perform (by simp [kind])
  · exact touches_pure _

theorem handleOrrDeliveryBuffer_touches (cfg : DkmsConfig) (frame : BufferFrame) :
    Touches [.registry, .e2e, .note, .encWipe, .dec, .ackDrop, .receipt]
      (handleOrrDeliveryBuffer cfg frame) := by
  unfold handleOrrDeliveryBuffer
  split
  · exact touches_pure _
  · exact touches_pure _
  apply Touches.bind (touches_perform (by simp [kind]))
  intro known
  split
  · exact touches_pure _
  split
  · exact touches_pure _
  apply Touches.bind (touches_perform (by simp [kind]))
  intro opened
  split
  · exact touches_pure _
  apply Touches.bind
  · unfold noteHeader
    split
    · exact (notePeerIncarnation_touches _ _).mono (by simp)
    · exact touches_pure _
  intro _
  apply Touches.bind (touches_perform (by simp [kind]))
  intro stored
  split
  · apply Touches.bind
    · unfold acknowledge
      split
      · exact touches_perform (by simp [kind])
      · exact touches_pure _
    · exact fun _ => touches_pure _
  · exact touches_pure _

end Dkms.Node
