import Dkms.Node.Effects
import Dkms.Node.Footprint

namespace Dkms.Node

open List Function Std Dkms.Core Cluster Discipline

variable {sha : Bytes → Bytes} {gen : SessionKey → Prop}

def Genuine (sha : Bytes → Bytes) (gen : SessionKey → Prop) (keys : List Etsi020Key) : Prop :=
  ∀ k ∈ keys, ∃ bytes, gen ⟨k.keyId, bytes⟩ ∧
    k.extension.bind (·.sessionKeyDigest) = some (keyDigest sha k.keyId bytes)

def truthful (sha : Bytes → Bytes) (gen : SessionKey → Prop) : Discipline Op.Answer Unit where
  may _
    | .pendingInsert keyId _ _ material => gen ⟨keyId, material⟩
    | .insertFromPeer keyId _ _ _ material _ => gen ⟨keyId, material⟩
    | .sendExtKeys _ body => Genuine sha gen body.keys
    | _ => True
  learns _
    | .takeForSae keyId _ _, .ok (material, _) => gen ⟨keyId, material⟩
    | _, _ => True
  after _ _ _ := ()

def Handed (gen : SessionKey → Prop) : Outcome → Prop
  | .encKeys (.ok keys) | .decKeys (.ok keys) => ∀ k ∈ keys, gen ⟨k.keyId, k.key⟩
  | _ => True

theorem truthful_of_touches {α : Type} {kinds : List OpKind} {handler : Handler α}
    (touches : Touches kinds handler) (puts : .pendingPut ∉ kinds) (posts : .post ∉ kinds) :
    (truthful sha gen).Obeys (fun _ _ => True) () handler := by
  apply Obeys.of_uses touches
  intro _ op member
  cases op <;> trivial

theorem Genuine.append {keys keys' : List Etsi020Key} (left : Genuine sha gen keys)
    (right : Genuine sha gen keys') : Genuine sha gen (keys ++ keys') := by
  intro k member
  rcases mem_append.mp member with member | member
  · exact left k member
  · exact right k member

theorem wrapKey_genuine {k : SessionKey} {transport : TransportKey} {wrapped : Etsi020Key}
    (generated : gen k) (made : wrapKey sha k transport = .ok wrapped) :
    Genuine sha gen [wrapped] := by
  unfold wrapKey at made
  split at made
  · cases made
  cases made
  intro k' member
  rw [mem_singleton.mp member]
  exact ⟨k.bytes, generated, rfl⟩

theorem wrapKeys_truthful (group : Group) (rest : List SessionKey) (keys : List Etsi020Key)
    (popped : List Popped) (generated : ∀ k ∈ rest, gen k) (genuine : Genuine sha gen keys) :
    (truthful sha gen).Obeys (fun _ => IfOk fun built => Genuine sha gen built.1) ()
      (wrapKeys sha group rest keys popped) := by
  induction rest generalizing keys popped with
  | nil => exact genuine
  | cons k rest ih =>
    have gaveBack : (truthful sha gen).Obeys (fun _ _ => True) () (giveBack popped) :=
      truthful_of_touches (pushFrontAll_touches _) (by decide) (by decide)
    apply Obeys.bind (truthful_of_touches (encPopPref_touches _ _) (by decide) (by decide))
    intro _ found _
    cases found with
    | none => exact gaveBack.bind fun _ _ _ => trivial
    | some p =>
      dsimp only
      split
      · exact gaveBack.bind fun _ _ _ => trivial
      split
      · trivial
      rename_i wrapped made
      apply ih
      · exact fun k' member => generated k' (mem_cons_of_mem _ member)
      · exact genuine.append (wrapKey_genuine (generated k (mem_cons_self ..)) made)

theorem buildEnvelopes_truthful (cfg : DkmsConfig) (plan : EncPlan) (groups : List Group)
    (envelopes : List Envelope) (popped : List Popped) (generated : ∀ k ∈ plan.sessionKeys, gen k)
    (genuine : ∀ envelope ∈ envelopes, Genuine sha gen envelope.body.keys) :
    (truthful sha gen).Obeys (fun _ result =>
        IfOk (fun built => ∀ envelope ∈ built, Genuine sha gen envelope.body.keys) result.2) ()
      (buildEnvelopes sha cfg plan groups envelopes popped) := by
  induction groups generalizing envelopes popped with
  | nil => exact genuine
  | cons group groups ih =>
    have wrapped : (truthful sha gen).Obeys (fun _ => IfOk fun built => Genuine sha gen built.1.keys)
        () (buildExtKeysEnvelope sha cfg plan group) := by
      apply Obeys.bind (wrapKeys_truthful group plan.sessionKeys [] [] generated
        (fun _ member => nomatch member))
      intro _ result built
      cases result with
      | error _ => trivial
      | ok pair => exact built
    apply Obeys.bind wrapped
    intro _ result built
    cases result with
    | error _ => trivial
    | ok pair =>
      apply ih
      intro envelope member
      rcases mem_append.mp member with old | new
      · exact genuine envelope old
      · rw [mem_singleton.mp new]
        exact built

theorem sendAll_truthful (envelopes : List Envelope) (sent : List (NodeId × Nat))
    (genuine : ∀ envelope ∈ envelopes, Genuine sha gen envelope.body.keys) :
    (truthful sha gen).Obeys (fun _ _ => True) () (sendAll envelopes sent) := by
  induction envelopes generalizing sent with
  | nil => trivial
  | cons envelope envelopes ih =>
    apply Obeys.perform (genuine envelope (mem_cons_self ..))
    intro post _
    exact ih _ fun envelope member => genuine envelope (mem_cons_of_mem _ member)

theorem pendingInsertAll_truthful (master : SaeId) (authorized : List SaeId)
    (keys : List SessionKey) (generated : ∀ k ∈ keys, gen k) :
    (truthful sha gen).Obeys (fun _ _ => True) () (pendingInsertAll master authorized keys) := by
  induction keys with
  | nil => trivial
  | cons k keys ih =>
    apply Obeys.perform (generated k (mem_cons_self ..))
    intro _ _
    exact ih fun k member => generated k (mem_cons_of_mem _ member)

theorem rollback_truthful (plan : EncPlan) (popped : List Popped) (error : DkmsError) :
    (truthful sha gen).Obeys (fun _ => IfOk fun keys => ∀ k ∈ keys, gen ⟨k.keyId, k.key⟩) ()
      (rollback plan popped error) := by
  apply Obeys.bind (truthful_of_touches (pushFrontAll_touches _) (by decide) (by decide))
  intro _ _ _
  apply Obeys.bind (truthful_of_touches (forceRemoveAll_touches _) (by decide) (by decide))
  intro _ _ _
  trivial

theorem distribute_truthful (plan : EncPlan) (envelopes : List Envelope)
    (generated : ∀ k ∈ plan.sessionKeys, gen k)
    (genuine : ∀ envelope ∈ envelopes, Genuine sha gen envelope.body.keys) :
    (truthful sha gen).Obeys (fun _ => IfOk fun keys => ∀ k ∈ keys, gen ⟨k.keyId, k.key⟩) ()
      (distribute plan envelopes) := by
  apply Obeys.bind (sendAll_truthful envelopes [] genuine)
  intro _ sent _
  apply Obeys.bind (truthful_of_touches (awaitAll_touches _ _) (by decide) (by decide))
  intro _ failed _
  cases failed with
  | nil =>
    intro k member
    obtain ⟨k, listed, rfl⟩ := mem_map.mp member
    exact generated k listed
  | cons first failed =>
    apply Obeys.bind
      (truthful_of_touches (resyncTransportBuffers_touches _) (by decide) (by decide))
    intro _ _ _
    apply Obeys.bind (truthful_of_touches (forceRemoveAll_touches _) (by decide) (by decide))
    intro _ _ _
    trivial

theorem handleEncKeys_truthful (cfg : DkmsConfig) (self : NodeId) (r : KeyRequest)
    (env : Surroundings) (generated : ∀ k ∈ r.sessionKeys env, gen k) :
    (truthful sha gen).Obeys (fun _ => IfOk fun keys => ∀ k ∈ keys, gen ⟨k.keyId, k.key⟩) ()
      (handleEncKeys sha cfg self r env) := by
  unfold handleEncKeys
  cases admitted : admitEncKeys cfg self r env with
  | error error => trivial
  | ok plan =>
    rw [← (admitEncKeys_ok admitted).1] at generated
    have stored : (truthful sha gen).Obeys (fun _ _ => True) () (storeLocally plan) := by
      unfold storeLocally
      split
      · trivial
      · exact pendingInsertAll_truthful _ _ _ generated
    apply Obeys.bind stored
    intro _ _ _
    apply Obeys.bind (buildEnvelopes_truthful cfg plan plan.groups [] [] generated
      (fun _ member => nomatch member))
    intro _ result built
    obtain ⟨popped, result⟩ := result
    cases result with
    | error error => exact rollback_truthful _ _ _
    | ok envelopes =>
      apply Obeys.bind (truthful_of_touches (checkDestinations_touches _ _) (by decide) (by decide))
      intro _ checked _
      cases checked with
      | error error => exact rollback_truthful _ _ _
      | ok _ => exact distribute_truthful _ _ generated built

theorem handleDecKeys_truthful (cfg : DkmsConfig) (self : NodeId) (requester master : SaeId)
    (keyIds : List KeyId) :
    (truthful sha gen).Obeys (fun _ => IfOk fun keys => ∀ k ∈ keys, gen ⟨k.keyId, k.key⟩) ()
      (handleDecKeys cfg self requester master keyIds) := by
  have taken : ∀ keys : List Etsi014Key, (∀ k ∈ keys, gen ⟨k.keyId, k.key⟩) →
      (truthful sha gen).Obeys (fun _ => IfOk fun keys => ∀ k ∈ keys, gen ⟨k.keyId, k.key⟩) ()
        (takeKeys requester master keyIds keys) := by
    induction keyIds with
    | nil => exact fun keys generated => generated
    | cons keyId keyIds ih =>
      intro keys generated
      apply Obeys.perform trivial
      intro answer learned
      cases answer with
      | error error => trivial
      | ok pair =>
        apply ih
        intro k member
        rcases mem_append.mp member with old | new
        · exact generated k old
        · rw [mem_singleton.mp new]
          exact learned
  unfold handleDecKeys
  split
  · trivial
  · exact taken [] (fun _ member => nomatch member)

theorem receiveKeys_truthful (injective : Injective sha)
    (d : Delivery) (keys : List Etsi020Key) (acked : List KeyId) (genuine : Genuine sha gen keys) :
    (truthful sha gen).Obeys (fun _ _ => True) () (receiveKeys sha d keys acked) := by
  induction keys generalizing acked with
  | nil => trivial
  | cons k keys ih =>
    have rest : ∀ acked, (truthful sha gen).Obeys (fun _ _ => True) ()
        (receiveKeys sha d keys acked) :=
      fun acked => ih acked fun k member => genuine k (mem_cons_of_mem _ member)
    unfold receiveKeys
    split
    · trivial
    apply Obeys.perform trivial
    intro taken _
    split
    · trivial
    split
    · trivial
    rename_i plaintext unwrapped
    split
    · exact rest _
    rename_i passed
    obtain ⟨bytes, generated, announced⟩ := genuine k (mem_cons_self ..)
    have same : plaintext = bytes := by
      apply keyDigest_injective injective k.keyId
      simpa [digestMatches, announced] using passed
    apply Obeys.perform (same ▸ generated)
    intro stored _
    split
    · exact rest _
    · exact rest _
    · trivial

theorem handleExtKeys_truthful (injective : Injective sha) (cfg : DkmsConfig)
    (self peer : NodeId) (body : Etsi020ExtKeyContainer) (genuine : Genuine sha gen body.keys) :
    (truthful sha gen).Obeys (fun _ _ => True) () (handleExtKeys sha cfg self peer body) := by
  apply Obeys.perform trivial
  intro known _
  split
  · unfold handleIncomingExtKeys
    split
    · trivial
    apply Obeys.bind (receiveKeys_truthful injective _ _ _ genuine)
    intro _ result _
    cases result <;> trivial
  · trivial

/-- The calls that may be made: requests generate their own session keys, and containers come
from other nodes of the cluster. -/
def Call.Sourced (sha : Bytes → Bytes) (gen : SessionKey → Prop) : Call → Prop
  | .encKeys r env => ∀ k ∈ r.sessionKeys env, gen k
  | .extKeys _ body => Genuine sha gen body.keys
  | _ => True

theorem program_truthful (injective : Injective sha) (self : NodeId) (node : DkmsService)
    {call : Call} (sourced : call.Sourced sha gen) :
    (truthful sha gen).Obeys (fun _ => Handed gen) () (call.program sha self node) := by
  cases call with
  | encKeys r env =>
    apply Obeys.bind (handleEncKeys_truthful node.cfg self r env sourced)
    intro _ result handed
    cases result <;> exact handed
  | decKeys requester master keyIds =>
    apply Obeys.bind (handleDecKeys_truthful node.cfg self requester master keyIds)
    intro _ result handed
    cases result <;> exact handed
  | extKeys peer body =>
    apply Obeys.bind (handleExtKeys_truthful injective node.cfg self peer body sourced)
    exact fun _ _ _ => trivial
  | receipts peer keyIds =>
    apply Obeys.bind
      (truthful_of_touches (handleIncomingAck_touches peer keyIds 0) (by decide) (by decide))
    exact fun _ _ _ => trivial
  | delivery frame =>
    apply Obeys.bind
      (truthful_of_touches (handleOrrDeliveryBuffer_touches node.cfg frame) (by decide) (by decide))
    exact fun _ _ _ => trivial
  | tick work =>
    apply Obeys.bind
      (truthful_of_touches (tickOnce_touches node.cfg self node.incarnation work) (by decide) (by decide))
    exact fun _ _ _ => trivial
  | drain => exact ⟨trivial, fun _ _ => ⟨trivial, fun _ _ => trivial⟩⟩
  | _ => exact ⟨trivial, fun _ _ => trivial⟩

structure Faithful (sha : Bytes → Bytes) (gen : SessionKey → Prop) (c : Cluster) : Prop where
  stored : ∀ n id entry, (c.world.nodes n).pending.get id = some entry → gen ⟨id, entry.material⟩
  posted : ∀ post ∈ c.world.posts, Genuine sha gen post.body.keys
  obeyed : Pool.Obeyed (fun _ => truthful sha gen) (fun _ => ()) (fun _ _ => Handed gen) c.threads

theorem exec_truthful {self : NodeId} {op : Op} {hint : Hint} {w w' : World} {answer : op.Answer}
    (ran : exec self op hint w = some (answer, w'))
    (stored : ∀ n id entry, (w.nodes n).pending.get id = some entry → gen ⟨id, entry.material⟩) :
    (truthful sha gen).learns () op answer := by
  cases op with
  | takeForSae keyId sae master =>
    simp only [exec] at ran
    obtain ⟨rfl, -⟩ := ran
    rcases PendingStore.takeForSaeOfMaster_cases (w.nodes self).pending keyId sae (some master)
      w.now with ⟨⟨error, failed⟩, -⟩ | ⟨entry, found, -, -, -, -, given, -⟩
    · rw [failed]
      trivial
    · rw [given]
      exact stored self keyId entry found
  | _ => trivial

namespace Faithful

variable {c : Cluster}

section

variable (faithful : Faithful sha gen c)
include faithful

theorem step {i : Nat} {hint : Hint} {tag : Tag} {log : List ((op : Op) × op.Answer)} {op : Op}
    {rest : op.Answer → Handler Outcome} {answer : op.Answer} {world : World}
    (found : c.threads[i]? = some ⟨tag, log, .call op rest⟩)
    (ran : exec tag.node op hint c.world = some (answer, world)) :
    Faithful sha gen ⟨world, c.threads.set i ⟨tag, log ++ [⟨op, answer⟩], rest answer⟩⟩ := by
  have may := faithful.obeyed.may found
  refine ⟨?_, ?_, faithful.obeyed.advance found (exec_truthful ran faithful.stored)⟩
  · intro n id entry held
    by_cases here : n = tag.node
    · subst here
      rw [exec_pending ran] at held
      rcases Op.onPending_get held with ⟨old, before, same⟩ | ⟨_, _, rfl⟩ | ⟨_, _, _, _, rfl⟩
      · exact same ▸ faithful.stored _ _ _ before
      · exact may
      · exact may
    · rw [exec_elsewhere ran here] at held
      exact faithful.stored n id entry held
  · intro post member
    rcases exec_posts ran with same | ⟨peer, body, rfl, added⟩
    · rw [same] at member
      exact faithful.posted post member
    rw [added] at member
    rcases mem_append.mp member with old | new
    · exact faithful.posted post old
    · rw [mem_singleton.mp new]
      exact may

theorem start (injective : Injective sha) (node : NodeId) {call : Call}
    (sourced : call.Sourced sha gen) : Faithful sha gen (start sha c node call) :=
  ⟨faithful.stored, faithful.posted, faithful.obeyed.launch (program_truthful injective node _ sourced)⟩

theorem setPost {i : Nat} {post post' : Post} (found : c.world.posts[i]? = some post)
    (same : post'.body = post.body) : Faithful sha gen (setPost c i post') := by
  refine ⟨faithful.stored, ?_, faithful.obeyed⟩
  intro p member
  rcases mem_or_eq_of_mem_set member with old | rfl
  · exact faithful.posted p old
  · rw [same]
    exact faithful.posted post (mem_of_getElem? found)

theorem restart (node : NodeId) (incarnation : String) :
    Faithful sha gen (Cluster.restart c node incarnation) := by
  refine ⟨?_, faithful.posted, ?_⟩
  · intro n id entry held
    simp only [Cluster.restart, World.nodes_setNode] at held
    split at held
    · simp [DkmsService.boot, PendingStore.new, PendingStore.get] at held
    · exact faithful.stored n id entry held
  intro t member
  obtain ⟨old, listed, rfl⟩ := mem_map.mp member
  unfold Task.kill
  split
  · trivial
  · exact faithful.obeyed old listed

theorem next (injective : Injective sha) {act : Act} (generated : ∀ k ∈ act.sessionKeys, gen k) :
    Faithful sha gen (Cluster.next sha c act) := by
  have moves := next_moves sha c act
  generalize Cluster.next sha c act = c' at moves ⊢
  cases moves with
  | stays => exact faithful
  | advance ms => exact ⟨faithful.stored, faithful.posted, faithful.obeyed⟩
  | start _ tag launches =>
    apply faithful.start injective
    cases launches <;> first | exact generated | trivial
  | step i hint tag log op rest answer world found ran => exact faithful.step found ran
  | deliver i post found unserved =>
    apply Faithful.start _ injective
    · exact faithful.posted post (mem_of_getElem? found)
    · exact faithful.setPost found rfl
  | answer i h post outcome answer found => exact faithful.setPost found rfl
  | fail i unreachable post error found => exact faithful.setPost found rfl
  | setPeers node peers =>
    refine ⟨?_, faithful.posted, faithful.obeyed⟩
    intro n id entry held
    simp only [setPeers, World.nodes_setNode] at held
    split at held
    · rename_i here
      subst here
      exact faithful.stored n id entry held
    · exact faithful.stored n id entry held
  | restart node incarnation => exact faithful.restart node incarnation

theorem run (injective : Injective sha) (acts : List Act)
    (generated : ∀ act ∈ acts, ∀ k ∈ act.sessionKeys, gen k) :
    Faithful sha gen (run sha c acts) := by
  induction acts generalizing c with
  | nil => exact faithful
  | cons act acts ih =>
    apply ih
    · exact faithful.next injective (generated act (mem_cons_self ..))
    · exact fun act member => generated act (mem_cons_of_mem _ member)

theorem handed {i : Nat} {outcome : Outcome} (returned : c.outcome i = some outcome) :
    Handed gen outcome := by
  obtain ⟨t, found, result⟩ := Option.bind_eq_some_iff.mp returned
  have obeys := faithful.obeyed t (mem_of_getElem? found)
  cases prog : t.prog with
  | done value =>
    rw [prog] at obeys result
    cases result
    exact obeys
  | call op rest =>
    rw [prog] at result
    cases result

end

end Faithful

/-- Whatever the transport keys of the two ends are, an SAE that collects a session key gets the
one that the master was given under that id. -/
theorem decKeys_returns_encKeys (injective : Injective sha) (c : Cluster) (idle : c.Idle)
    (acts : List Act) (fresh : ((acts.flatMap Act.sessionKeys).map (·.keyId)).Nodup) (i j : Nat)
    (given collected : List Etsi014Key)
    (enc : (Cluster.run sha c acts).outcome i = some (.encKeys (.ok given)))
    (dec : (Cluster.run sha c acts).outcome j = some (.decKeys (.ok collected)))
    (keyId : KeyId) (key key' : Bytes) (first : ⟨keyId, key⟩ ∈ given)
    (second : ⟨keyId, key'⟩ ∈ collected) : key' = key := by
  have started : Faithful sha (· ∈ acts.flatMap Act.sessionKeys) c := by
    refine ⟨?_, ?_, ?_⟩
    · intro n id entry held
      rw [idle.pending n id] at held
      cases held
    · intro post member
      rw [idle.posts] at member
      cases member
    · intro t member
      rw [idle.threads] at member
      cases member
  have faithful := started.run injective acts fun act member k listed =>
    mem_flatMap.mpr ⟨act, member, listed⟩
  have generated := faithful.handed enc _ first
  have generated' := faithful.handed dec _ second
  have same := inj_on_of_nodup_map fresh generated' generated rfl
  exact congrArg SessionKey.bytes same

def collectedRun : List Act :=
  [requestKey "k1"] ++ steps 0 3 ++ [.deliverPost 0] ++ steps 1 3 ++ [.answerPost 0] ++ steps 0 1 ++
    [.decKeys "B" "s" "m" ["k1"]] ++ steps 2 1

theorem decKeys_returns_encKeys_twin :
    let twin := [⟨"t1", List.replicate 32 7⟩]
    ∃ key key', (Cluster.run id (twoNodes twin twin) collectedRun).outcome 0 =
        some (.encKeys (.ok [⟨"k1", key⟩])) ∧
      (Cluster.run id (twoNodes twin twin) collectedRun).outcome 2 =
        some (.decKeys (.ok [⟨"k1", key'⟩])) ∧ key' = key := by
  intro twin
  have enc : (run id (twoNodes twin twin) collectedRun).outcome 0 =
      some (.encKeys (.ok [⟨"k1", [0, 1, 2, 3, 4, 5, 6, 7]⟩])) := by decide +kernel
  have dec : (run id (twoNodes twin twin) collectedRun).outcome 2 =
      some (.decKeys (.ok [⟨"k1", [0, 1, 2, 3, 4, 5, 6, 7]⟩])) := by decide +kernel
  refine ⟨_, _, enc, dec, ?_⟩
  exact decKeys_returns_encKeys Function.injective_id _ (twoNodes_idle twin twin) collectedRun
    (by decide +kernel) 0 2 _ _ enc dec "k1" _ _ (mem_singleton.mpr rfl)
    (mem_singleton.mpr rfl)

end Dkms.Node
