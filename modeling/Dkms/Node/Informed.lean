import Dkms.Node.Effects
import Dkms.Node.Footprint

namespace Dkms.Node

open List Std Dkms.Core Discipline

/-- What a handler knows from its own calls: the transport keys it took out, the envelopes it
sent with the number of their post, the posts answered with success, and the session keys
it stored for a peer. -/
structure Known where
  taken : List (NodeId × TransportKey)
  sent : List (Nat × Envelope)
  confirmed : List Nat
  stored : List (KeyId × Bytes × List SaeId)

def Known.none : Known := ⟨[], [], [], []⟩

structure Known.Extends (k k' : Known) : Prop where
  taken : k.taken ⊆ k'.taken
  sent : k.sent ⊆ k'.sent
  confirmed : k.confirmed ⊆ k'.confirmed
  stored : k.stored ⊆ k'.stored

theorem Known.Extends.refl (k : Known) : k.Extends k :=
  ⟨Subset.refl _, Subset.refl _, Subset.refl _, Subset.refl _⟩

theorem Known.Extends.trans {k k' k'' : Known} (first : k.Extends k') (second : k'.Extends k'') :
    k.Extends k'' :=
  ⟨Subset.trans first.taken second.taken, Subset.trans first.sent second.sent,
    Subset.trans first.confirmed second.confirmed,
    Subset.trans first.stored second.stored⟩

def Known.learn (known : Known) : (op : Op) → op.Answer → Known
  | .popOldest peer _, some key => { known with taken := known.taken ++ [(peer, key)] }
  | .sendExtKeys peer body, post => { known with sent := known.sent ++ [(post, ⟨peer, body⟩)] }
  | .extKeysAnswer post, .ok () => { known with confirmed := known.confirmed ++ [post] }
  | .insertFromPeer keyId _ _ authorized material _, .ok () =>
    { known with stored := known.stored ++ [(keyId, material, authorized)] }
  | _, _ => known

def Task.known (t : Task) : Known :=
  t.log.foldl (fun known entry => known.learn entry.1 entry.2) .none

theorem Known.extends_learn (known : Known) (op : Op) (answer : op.Answer) :
    known.Extends (known.learn op answer) := by
  unfold learn
  split
  · exact ⟨subset_append_left _ _, Subset.refl _, Subset.refl _, Subset.refl _⟩
  · exact ⟨Subset.refl _, subset_append_left _ _, Subset.refl _, Subset.refl _⟩
  · exact ⟨Subset.refl _, Subset.refl _, subset_append_left _ _, Subset.refl _⟩
  · exact ⟨Subset.refl _, Subset.refl _, Subset.refl _, subset_append_left _ _⟩
  · exact .refl _

variable {sha : Bytes → Bytes} {gen : NodeId → SessionKey → Prop} {cfg : NodeId → DkmsConfig}
  {tag : Tag} {known : Known}

def Wrapped (sha : Bytes → Bytes) (gen : NodeId → SessionKey → Prop) (self : NodeId)
    (taken : List (NodeId × TransportKey)) (peer : NodeId) (k : Etsi020Key) : Prop :=
  ∃ bytes transport, gen self ⟨k.keyId, bytes⟩ ∧ (peer, transport) ∈ taken ∧
    wrapKey sha ⟨k.keyId, bytes⟩ transport = .ok k

def Opens (sha : Bytes → Bytes) (gen : NodeId → SessionKey → Prop) (peer : NodeId)
    (transport : TransportKey) (k : Etsi020Key) : Prop :=
  ∃ bytes, gen peer ⟨k.keyId, bytes⟩ ∧ unwrapSessionKey transport.bytes k.value = .ok bytes ∧
    digestMatches sha k bytes

/-- `gen n` are the session keys that requests at `n` generate. A handler stores, removes and
sends under ids of its own node, and stores what it received under ids of other nodes. In
return the twin of a transport key opens what was wrapped with it, and the id of a
received key is vacant. -/
def informed (sha : Bytes → Bytes) (gen : NodeId → SessionKey → Prop) (tag : Tag) :
    Discipline Op.Answer Known where
  may known
    | .pendingInsert keyId _ _ material => gen tag.node ⟨keyId, material⟩
    | .forceRemove keyId => ∃ bytes, gen tag.node ⟨keyId, bytes⟩
    | .insertFromPeer keyId _ _ _ material _ =>
      ∃ origin, origin ≠ tag.node ∧ gen origin ⟨keyId, material⟩
    | .sendExtKeys peer body =>
      peer ≠ tag.node ∧ ∀ k ∈ body.keys, Wrapped sha gen tag.node known.taken peer k
    | _ => True
  learns _
    | .takeById peer id, some transport =>
      ∀ body, tag.call = .extKeys peer body → peer ≠ tag.node ∧
        ∀ k ∈ body.keys, k.extension.bind (·.transportKeyId) = some id → Opens sha gen peer transport k
    | .insertFromPeer _ _ _ _ _ _, answer => answer ≠ .error .occupied
    | _, _ => True
  after := Known.learn

/-- What a handler that succeeded knows: a receiver stored every key of the container, and a
sender has a confirmed envelope with all keys for every remote group. -/
def Completed (gen : NodeId → SessionKey → Prop) (cfg : NodeId → DkmsConfig) (tag : Tag)
    (known : Known) : Outcome → Prop
  | .extKeys (.ok _) => ∀ peer body, tag.call = .extKeys peer body → ∀ k ∈ body.keys,
    ∃ bytes authorized, gen peer ⟨k.keyId, bytes⟩ ∧ (k.keyId, bytes, authorized) ∈ known.stored ∧
      ∀ sae ∈ body.targetSaeIds, sae ∈ authorized
  | .encKeys (.ok keys) => ∀ r env, tag.call = .encKeys r env →
    (∀ k ∈ keys, gen tag.node ⟨k.keyId, k.key⟩) ∧
      ∀ plan, admitEncKeys (cfg tag.node) tag.node r env = .ok plan → ∀ group ∈ plan.groups,
        ∃ post body, (post, ⟨group.peer, body⟩) ∈ known.sent ∧ post ∈ known.confirmed ∧
          body.targetSaeIds = group.saes ∧ ∀ k ∈ keys, ∃ k' ∈ body.keys, k'.keyId = k.keyId
  | _ => True

theorem informed_track {α : Type} {handler : Handler α} {post : Known → α → Prop}
    (obeys : (informed sha gen tag).Obeys post known handler) :
    (informed sha gen tag).Obeys (fun known' result => post known' result ∧ known.Extends known')
      known handler :=
  obeys.track .refl (fun _ _ _ => .trans) Known.extends_learn

theorem informed_of_touches {α : Type} {kinds : List OpKind} {handler : Handler α}
    (touches : Touches kinds handler) (puts : .pendingPut ∉ kinds) (drops : .pendingDrop ∉ kinds)
    (posts : .post ∉ kinds) : (informed sha gen tag).Obeys (fun _ _ => True) known handler := by
  apply Obeys.of_uses touches
  intro _ op member
  cases op <;> trivial

variable {taken taken' : List (NodeId × TransportKey)}

theorem Wrapped.mono {self peer : NodeId}
    {k : Etsi020Key} (wrapped : Wrapped sha gen self taken peer k) (more : taken ⊆ taken') :
    Wrapped sha gen self taken' peer k := by
  obtain ⟨bytes, transport, generated, listed, made⟩ := wrapped
  exact ⟨bytes, transport, generated, more listed, made⟩

theorem wrapKey_keyId {k : SessionKey} {transport : TransportKey} {wrapped : Etsi020Key}
    (made : wrapKey sha k transport = .ok wrapped) : wrapped.keyId = k.keyId := by
  unfold wrapKey at made
  split at made
  · cases made
  · cases made
    rfl

theorem encPopPref_informed (peer : NodeId) (prefs : List KeyGrade) : (informed sha gen tag).Obeys
      (fun known' found => ∀ p, found = some p → (peer, p.key) ∈ known'.taken) known
      (encPopPref peer prefs) := by
  induction prefs generalizing known with
  | nil =>
    intro p found
    cases found
  | cons grade prefs ih =>
    apply Obeys.perform trivial
    intro key _
    cases key with
    | none => exact ih
    | some key =>
      intro p found
      cases found
      exact mem_append_right _ (mem_singleton.mpr rfl)

theorem wrapKeys_informed (group : Group) (rest : List SessionKey) (keys : List Etsi020Key)
    (popped : List Popped) (generated : ∀ k ∈ rest, gen tag.node k)
    (wrapped : ∀ k ∈ keys, Wrapped sha gen tag.node known.taken group.peer k) :
    (informed sha gen tag).Obeys (fun known' => IfOk fun built =>
        (∀ k ∈ built.1, Wrapped sha gen tag.node known'.taken group.peer k) ∧
          built.1.map (·.keyId) = keys.map (·.keyId) ++ rest.map (·.keyId)) known
      (wrapKeys sha group rest keys popped) := by
  induction rest generalizing known keys popped with
  | nil => exact ⟨wrapped, (append_nil _).symm⟩
  | cons k rest ih =>
    have gaveBack : ∀ known, (informed sha gen tag).Obeys (fun _ _ => True) known
        (giveBack popped) := fun _ =>
      informed_of_touches (pushFrontAll_touches _) (by decide) (by decide) (by decide)
    apply Obeys.bind (informed_track (encPopPref_informed group.peer group.prefs))
    rintro known' found ⟨taken, extended⟩
    cases found with
    | none => exact (gaveBack _).bind fun _ _ _ => trivial
    | some p =>
      dsimp only
      split
      · exact (gaveBack _).bind fun _ _ _ => trivial
      split
      · trivial
      rename_i k' made
      have sameId := wrapKey_keyId made
      have added : Wrapped sha gen tag.node known'.taken group.peer k' := by
        refine ⟨k.bytes, p.key, ?_, taken p rfl, ?_⟩
        · rw [sameId]
          exact generated k (mem_cons_self ..)
        · rw [sameId]
          exact made
      apply (ih (keys ++ [k']) (popped ++ [p])
        (fun k member => generated k (mem_cons_of_mem _ member)) _).weaken
      · intro _ result built
        cases result with
        | error error => trivial
        | ok pair =>
          refine ⟨built.1, ?_⟩
          rw [built.2]
          simp [sameId]
      · intro k member
        rcases mem_append.mp member with old | new
        · exact (wrapped k old).mono extended.taken
        · rw [mem_singleton.mp new]
          exact added

def Ready (sha : Bytes → Bytes) (gen : NodeId → SessionKey → Prop) (self : NodeId)
    (taken : List (NodeId × TransportKey)) (envelope : Envelope) : Prop :=
  envelope.peer ≠ self ∧ ∀ k ∈ envelope.body.keys, Wrapped sha gen self taken envelope.peer k

def Serves (plan : EncPlan) (group : Group) (envelope : Envelope) : Prop :=
  envelope.peer = group.peer ∧ envelope.body.targetSaeIds = group.saes ∧
    envelope.body.keys.map (·.keyId) = plan.sessionKeys.map (·.keyId)

theorem Ready.mono {self : NodeId}
    {envelope : Envelope} (ready : Ready sha gen self taken envelope) (more : taken ⊆ taken') :
    Ready sha gen self taken' envelope :=
  ⟨ready.1, fun k member => (ready.2 k member).mono more⟩

theorem buildExtKeysEnvelope_informed (cfg : DkmsConfig) (plan : EncPlan) (group : Group)
    (generated : ∀ k ∈ plan.sessionKeys, gen tag.node k) (remote : group.peer ≠ tag.node) :
    (informed sha gen tag).Obeys (fun known' => IfOk fun built =>
        Ready sha gen tag.node known'.taken ⟨group.peer, built.1⟩ ∧
          Serves plan group ⟨group.peer, built.1⟩) known
      (buildExtKeysEnvelope sha cfg plan group) := by
  apply Obeys.bind (wrapKeys_informed group plan.sessionKeys [] [] generated
    (fun _ member => nomatch member))
  intro known' result built
  cases result with
  | error error => trivial
  | ok pair => exact ⟨⟨remote, built.1⟩, rfl, rfl, built.2⟩

theorem buildEnvelopes_informed (cfg : DkmsConfig) (plan : EncPlan) (groups : List Group)
    (envelopes : List Envelope) (popped : List Popped)
    (generated : ∀ k ∈ plan.sessionKeys, gen tag.node k)
    (remote : ∀ group ∈ groups, group.peer ≠ tag.node)
    (ready : ∀ envelope ∈ envelopes, Ready sha gen tag.node known.taken envelope) :
    (informed sha gen tag).Obeys (fun known' result => IfOk (fun built =>
        (∀ envelope ∈ built, Ready sha gen tag.node known'.taken envelope) ∧ envelopes ⊆ built ∧
          ∀ group ∈ groups, ∃ envelope ∈ built, Serves plan group envelope) result.2) known
      (buildEnvelopes sha cfg plan groups envelopes popped) := by
  induction groups generalizing known envelopes popped with
  | nil => exact ⟨ready, Subset.refl _, fun _ member => nomatch member⟩
  | cons group groups ih =>
    apply Obeys.bind (informed_track (buildExtKeysEnvelope_informed cfg plan group
      generated (remote group (mem_cons_self ..))))
    rintro known' result ⟨built, extended⟩
    cases result with
    | error error => trivial
    | ok pair =>
      obtain ⟨body, keys⟩ := pair
      have nextReady : ∀ envelope ∈ envelopes ++ [⟨group.peer, body⟩],
          Ready sha gen tag.node known'.taken envelope := by
        intro envelope member
        rcases mem_append.mp member with old | new
        · exact (ready envelope old).mono extended.taken
        · rw [mem_singleton.mp new]
          exact built.1
      apply (ih _ (popped ++ keys) (fun group member => remote group (mem_cons_of_mem _ member))
        nextReady).weaken
      rintro known'' ⟨popped', result⟩ all
      cases result with
      | error error => trivial
      | ok envelopes' =>
        obtain ⟨allReady, kept, served⟩ := all
        refine ⟨allReady, fun envelope member => kept (mem_append_left _ member), ?_⟩
        intro g member
        rcases mem_cons.mp member with rfl | later
        · exact ⟨_, kept (mem_append_right _ (mem_singleton.mpr rfl)), built.2⟩
        · exact served g later

theorem forceRemoveAll_informed (keys : List SessionKey) (generated : ∀ k ∈ keys, gen tag.node k) :
    (informed sha gen tag).Obeys (fun _ _ => True) known (forceRemoveAll keys) := by
  induction keys generalizing known with
  | nil => trivial
  | cons k keys ih =>
    have own : (informed sha gen tag).may known (.forceRemove k.keyId) :=
      ⟨k.bytes, generated k (mem_cons_self ..)⟩
    apply Obeys.perform own
    intro _ _
    exact ih fun k member => generated k (mem_cons_of_mem _ member)

theorem pendingInsertAll_informed (master : SaeId) (authorized : List SaeId)
    (keys : List SessionKey) (generated : ∀ k ∈ keys, gen tag.node k) :
    (informed sha gen tag).Obeys (fun _ _ => True) known
      (pendingInsertAll master authorized keys) := by
  induction keys generalizing known with
  | nil => trivial
  | cons k keys ih =>
    apply Obeys.perform (generated k (mem_cons_self ..))
    intro _ _
    exact ih fun k member => generated k (mem_cons_of_mem _ member)

theorem sendAll_informed (envelopes : List Envelope) (sent : List (NodeId × Nat))
    (ready : ∀ envelope ∈ envelopes, Ready sha gen tag.node known.taken envelope) :
    (informed sha gen tag).Obeys (fun known' result => sent ⊆ result ∧
        ∀ envelope ∈ envelopes, ∃ post, (post, envelope) ∈ known'.sent ∧ (envelope.peer, post) ∈ result) known
      (sendAll envelopes sent) := by
  induction envelopes generalizing known sent with
  | nil => exact ⟨Subset.refl _, fun _ member => nomatch member⟩
  | cons envelope envelopes ih =>
    apply Obeys.perform (ready envelope (mem_cons_self ..))
    intro post _
    apply (informed_track (ih (sent ++ [(envelope.peer, post)]) ?_)).weaken
    · rintro known' result ⟨⟨kept, all⟩, extended⟩
      refine ⟨fun pair member => kept (mem_append_left _ member), ?_⟩
      intro e member
      rcases mem_cons.mp member with rfl | later
      · exact ⟨post, extended.sent (mem_append_right _ (mem_singleton.mpr rfl)),
          kept (mem_append_right _ (mem_singleton.mpr rfl))⟩
      · exact all e later
    · exact fun envelope member => ready envelope (mem_cons_of_mem _ member)

theorem awaitAll_informed (sent : List (NodeId × Nat)) (failed : List DkmsError) :
    (informed sha gen tag).Obeys (fun known' result => result = [] →
        failed = [] ∧ ∀ pair ∈ sent, pair.2 ∈ known'.confirmed) known (awaitAll sent failed) := by
  induction sent generalizing known failed with
  | nil => exact fun none => ⟨none, fun _ member => nomatch member⟩
  | cons pair sent ih =>
    obtain ⟨peer, post⟩ := pair
    apply Obeys.perform trivial
    intro answer _
    cases answer with
    | error error =>
      apply (ih (failed ++ [error])).weaken
      intro known' result all none
      simpa using (all none).1
    | ok _ =>
      apply (informed_track (ih failed)).weaken
      rintro known' result ⟨all, extended⟩ none
      refine ⟨(all none).1, ?_⟩
      intro pair member
      rcases mem_cons.mp member with rfl | later
      · exact extended.confirmed (mem_append_right _ (mem_singleton.mpr rfl))
      · exact (all none).2 pair later

theorem rollback_informed (plan : EncPlan) (popped : List Popped) (error : DkmsError)
    {result : List Etsi014Key → Known → Prop} (generated : ∀ k ∈ plan.sessionKeys, gen tag.node k) :
    (informed sha gen tag).Obeys (fun known' => IfOk fun keys => result keys known') known
      (rollback plan popped error) := by
  apply Obeys.bind
    (informed_of_touches (pushFrontAll_touches _) (by decide) (by decide) (by decide))
  intro _ _ _
  apply Obeys.bind (forceRemoveAll_informed plan.sessionKeys generated)
  intro _ _ _
  trivial

theorem distribute_informed (plan : EncPlan) (envelopes : List Envelope)
    (generated : ∀ k ∈ plan.sessionKeys, gen tag.node k)
    (ready : ∀ envelope ∈ envelopes, Ready sha gen tag.node known.taken envelope) :
    (informed sha gen tag).Obeys (fun known' => IfOk fun keys =>
        keys = plan.sessionKeys.map (fun k => ⟨k.keyId, k.bytes⟩) ∧
          ∀ envelope ∈ envelopes, ∃ post, (post, envelope) ∈ known'.sent ∧ post ∈ known'.confirmed) known
      (distribute plan envelopes) := by
  apply Obeys.bind (sendAll_informed envelopes [] ready)
  rintro known' sent ⟨-, all⟩
  apply Obeys.bind (informed_track (awaitAll_informed sent []))
  rintro known'' failed ⟨answered, extended⟩
  cases failed with
  | nil =>
    refine ⟨rfl, ?_⟩
    intro envelope member
    obtain ⟨post, recorded, listed⟩ := all envelope member
    exact ⟨post, extended.sent recorded, (answered rfl).2 _ listed⟩
  | cons first failed =>
    apply Obeys.bind (informed_of_touches (resyncTransportBuffers_touches _)
      (by decide) (by decide) (by decide))
    intro _ _ _
    apply Obeys.bind (forceRemoveAll_informed plan.sessionKeys generated)
    intro _ _ _
    trivial

theorem handleEncKeys_informed (config : DkmsConfig) (r : KeyRequest) (env : Surroundings)
    (generated : ∀ k ∈ r.sessionKeys env, gen tag.node k) :
    (informed sha gen tag).Obeys (fun known' => IfOk fun keys =>
        (∀ k ∈ keys, gen tag.node ⟨k.keyId, k.key⟩) ∧
          ∀ plan, admitEncKeys config tag.node r env = .ok plan → ∀ group ∈ plan.groups,
            ∃ post body, (post, ⟨group.peer, body⟩) ∈ known'.sent ∧ post ∈ known'.confirmed ∧
              body.targetSaeIds = group.saes ∧
              ∀ k ∈ keys, ∃ k' ∈ body.keys, k'.keyId = k.keyId) known
      (handleEncKeys sha config tag.node r env) := by
  unfold handleEncKeys
  cases admitted : admitEncKeys config tag.node r env with
  | error error => trivial
  | ok plan =>
    obtain ⟨ownKeys, remote⟩ := admitEncKeys_ok admitted
    rw [← ownKeys] at generated
    have stored : (informed sha gen tag).Obeys (fun _ _ => True) known (storeLocally plan) := by
      unfold storeLocally
      split
      · trivial
      · exact pendingInsertAll_informed _ _ _ generated
    apply Obeys.bind stored
    intro _ _ _
    apply Obeys.bind (buildEnvelopes_informed config plan plan.groups [] [] generated
      remote (fun _ member => nomatch member))
    rintro known' ⟨popped, result⟩ built
    cases result with
    | error error => exact rollback_informed plan popped error generated
    | ok envelopes =>
      apply Obeys.bind (informed_track (informed_of_touches
        (checkDestinations_touches config envelopes) (by decide) (by decide) (by decide)))
      rintro known'' checked ⟨-, extended⟩
      cases checked with
      | error error => exact rollback_informed plan popped error generated
      | ok _ =>
        obtain ⟨ready, -, served⟩ := built
        apply (distribute_informed plan envelopes generated
          fun envelope member => (ready envelope member).mono extended.taken).weaken
        intro final result confirmed
        cases result with
        | error error => trivial
        | ok keys =>
          obtain ⟨rfl, confirmed⟩ := confirmed
          refine ⟨?_, ?_⟩
          · intro k member
            obtain ⟨k, listed, rfl⟩ := mem_map.mp member
            exact generated k listed
          intro plan' same group member
          cases same
          obtain ⟨envelope, listed, peer, saes, ids⟩ := served group member
          obtain ⟨post, sent, answered⟩ := confirmed envelope listed
          refine ⟨post, envelope.body, peer ▸ sent, answered, saes, ?_⟩
          intro key returned
          obtain ⟨k, own, rfl⟩ := mem_map.mp returned
          have carried : k.keyId ∈ envelope.body.keys.map (·.keyId) := by
            rw [ids]
            exact mem_map_of_mem own
          exact mem_map.mp carried

theorem receiveKeys_informed (d : Delivery) (body : Etsi020ExtKeyContainer)
    (serving : tag.call = .extKeys d.peer body) (keys : List Etsi020Key) (acked : List KeyId)
    (own : keys ⊆ body.keys) :
    (informed sha gen tag).Obeys (fun known' => IfOk fun _ => ∀ k ∈ keys, ∃ bytes,
        gen d.peer ⟨k.keyId, bytes⟩ ∧ (k.keyId, bytes, d.authorized) ∈ known'.stored) known
      (receiveKeys sha d keys acked) := by
  induction keys generalizing known acked with
  | nil => exact fun _ member => nomatch member
  | cons k keys ih =>
    unfold receiveKeys
    split
    · trivial
    rename_i id named
    apply Obeys.perform trivial
    intro taken learned
    cases taken with
    | none => trivial
    | some transport =>
      obtain ⟨remote, opened⟩ := learned body serving
      obtain ⟨bytes, generated, unwrapped, matching⟩ :=
        opened k (own (mem_cons_self ..)) (transportKeyIdOf_ok named)
      simp only [unwrapped, matching]
      have may : (informed sha gen tag).may known
          (.insertFromPeer k.keyId d.peer d.initiator d.authorized bytes d.ttl) :=
        ⟨d.peer, remote, generated⟩
      apply Obeys.perform may
      intro stored vacant
      cases stored with
      | error error =>
        cases error with
        | occupied => exact absurd rfl vacant
        | originFull => trivial
      | ok _ =>
        apply (informed_track (ih (acked ++ [k.keyId]) fun k member => own (mem_cons_of_mem _ member))).weaken
        rintro known' result ⟨rest, extended⟩
        cases result with
        | error error => trivial
        | ok _ =>
          intro k' member
          rcases mem_cons.mp member with rfl | later
          · exact ⟨bytes, generated,
              extended.stored (mem_append_right _ (mem_singleton.mpr rfl))⟩
          · exact rest k' later

theorem handleExtKeys_informed (config : DkmsConfig) (peer : NodeId)
    (body : Etsi020ExtKeyContainer) (serving : tag.call = .extKeys peer body) :
    (informed sha gen tag).Obeys (fun known' => IfOk fun _ => ∀ k ∈ body.keys,
        ∃ bytes authorized, gen peer ⟨k.keyId, bytes⟩ ∧
          (k.keyId, bytes, authorized) ∈ known'.stored ∧
          ∀ sae ∈ body.targetSaeIds, sae ∈ authorized) known
      (handleExtKeys sha config tag.node peer body) := by
  apply Obeys.perform trivial
  intro found _
  split
  · unfold handleIncomingExtKeys
    split
    · trivial
    rename_i d admitted
    obtain ⟨rfl, authorized⟩ := admitExtKeys_ok admitted
    apply Obeys.bind (receiveKeys_informed d body serving body.keys [] (Subset.refl _))
    intro known' result stored
    cases result with
    | error error => trivial
    | ok acked =>
      intro k member
      obtain ⟨bytes, generated, listed⟩ := stored k member
      exact ⟨bytes, d.authorized, generated, listed, authorized⟩
  · trivial

def Tag.Generates (gen : NodeId → SessionKey → Prop) (tag : Tag) : Prop :=
  match tag.call with
  | .encKeys r env => ∀ k ∈ r.sessionKeys env, gen tag.node k
  | _ => True

theorem program_informed (tag : Tag) (node : DkmsService) (config : node.cfg = cfg tag.node)
    (generates : tag.Generates gen) : (informed sha gen tag).Obeys (Completed gen cfg tag) .none
      (tag.call.program sha tag.node node) := by
  obtain ⟨self, call⟩ := tag
  cases call with
  | encKeys r env =>
    rw [Call.program, config]
    apply Obeys.bind (handleEncKeys_informed (cfg self) r env generates)
    intro known' result completed
    cases result with
    | error error => trivial
    | ok keys =>
      intro r' env' same
      cases same
      exact completed
  | decKeys requester master keyIds =>
    apply Obeys.bind (informed_of_touches
      (handleDecKeys_touches node.cfg self requester master keyIds)
      (by decide) (by decide) (by decide))
    exact fun _ _ _ => trivial
  | extKeys peer body =>
    apply Obeys.bind (handleExtKeys_informed node.cfg peer body rfl)
    intro known' result completed
    cases result with
    | error error => trivial
    | ok keys =>
      intro peer' body' same
      cases same
      exact completed
  | receipts peer keyIds =>
    apply Obeys.bind (informed_of_touches (handleIncomingAck_touches peer keyIds 0)
      (by decide) (by decide) (by decide))
    exact fun _ _ _ => trivial
  | delivery frame =>
    apply Obeys.bind (informed_of_touches
      (handleOrrDeliveryBuffer_touches node.cfg frame) (by decide) (by decide) (by decide))
    exact fun _ _ _ => trivial
  | tick work =>
    apply Obeys.bind (informed_of_touches
      (tickOnce_touches node.cfg self node.incarnation work) (by decide) (by decide) (by decide))
    exact fun _ _ _ => trivial
  | drain => exact ⟨trivial, fun _ _ => ⟨trivial, fun _ _ => trivial⟩⟩
  | _ => exact ⟨trivial, fun _ _ => trivial⟩

end Dkms.Node
