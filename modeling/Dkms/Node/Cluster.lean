import Dkms.Core.Runs
import Dkms.Node.ExtKeys
import Dkms.Node.Generator

namespace Dkms.Node

open Std Dkms.Core

inductive Call where
  | encKeys (request : KeyRequest) (env : Surroundings)
  | decKeys (requester master : SaeId) (keyIds : List KeyId)
  | extKeys (peer : NodeId) (body : Etsi020ExtKeyContainer)
  | receipts (peer : NodeId) (keyIds : List KeyId)
  | delivery (frame : BufferFrame)
  | tick (work : TreeMap NodeId Quota)
  | reap
  | sweep
  | drain

inductive Outcome where
  | encKeys (result : Except DkmsError (List Etsi014Key))
  | decKeys (result : Except DkmsError (List Etsi014Key))
  | extKeys (result : Except DkmsError Etsi020ExtKeyAckContainer)
  | delivery (result : Except DkmsError Bool)
  | finished
  | killed
  deriving DecidableEq

def Call.program (sha : Bytes → Bytes) (self : NodeId) (node : DkmsService) : Call → Handler Outcome
  | encKeys request env => do return .encKeys (← handleEncKeys sha node.cfg self request env)
  | decKeys requester master keyIds => do
    return .decKeys (← handleDecKeys node.cfg self requester master keyIds)
  | extKeys peer body => do return .extKeys (← handleExtKeys sha node.cfg self peer body)
  | receipts peer keyIds => do
    let _ ← handleIncomingAck peer keyIds 0
    return .finished
  | delivery frame => do return .delivery (← handleOrrDeliveryBuffer node.cfg frame)
  | tick work => do
    let _ ← tickOnce node.cfg self node.incarnation work
    return .finished
  | reap => do
    perform .reapExpired
    return .finished
  | sweep => do
    perform .sweepExpired
    return .finished
  | drain => do
    perform .pendingClear
    perform .clearAll
    return .finished

structure Tag where
  node : NodeId
  call : Call

abbrev Task := Thread Op.Answer Tag Outcome

/-- DKMS processes, their handlers in execution and the messages between them. -/
abbrev Cluster := Pool World Op.Answer Tag Outcome

inductive Act where
  | advance (ms : Nat)
  | encKeys (node : NodeId) (request : KeyRequest) (env : Surroundings)
  | decKeys (node : NodeId) (requester master : SaeId) (keyIds : List KeyId)
  | tick (node : NodeId) (work : TreeMap NodeId Quota)
  | reap (node : NodeId)
  | sweep (node : NodeId)
  | drain (node : NodeId)
  | step (thread : Nat) (hint : Hint)
  | deliverPost (post : Nat)
  | answerPost (post : Nat)
  | failPost (post : Nat) (unreachable : Option String)
  | deliverReceipts (node source : NodeId) (picks : List Nat)
  | deliverFrame (frame : Nat)
  | setPeers (node : NodeId) (peers : List NodeId)
  | restart (node : NodeId) (incarnation : String)

def Act.sessionKeys : Act → List SessionKey
  | .encKeys _ request env => request.sessionKeys env
  | _ => []

namespace Task

def isTick (t : Task) : Bool :=
  match t.tag.call with
  | .tick _ => true
  | _ => false

def isDelivery (t : Task) : Bool :=
  match t.tag.call with
  | .delivery _ => true
  | _ => false

def kill (node : NodeId) (t : Task) : Task :=
  if t.tag.node = node && t.isRunning then { t with prog := .done .killed } else t

end Task

namespace Cluster

variable (sha : Bytes → Bytes)

def outcome (c : Cluster) (i : Nat) : Option Outcome := c.threads[i]?.bind (·.prog.result)

def isTicking (c : Cluster) (node : NodeId) : Bool :=
  c.threads.any fun (t : Task) => t.tag.node = node && t.isTick && t.isRunning

def isReceiving (c : Cluster) (node : NodeId) : Bool :=
  c.threads.any fun (t : Task) => t.tag.node = node && t.isDelivery && t.isRunning

def start (c : Cluster) (node : NodeId) (call : Call) : Cluster :=
  c.launch ⟨node, call⟩ (call.program sha node (c.world.nodes node))

def setPost (c : Cluster) (i : Nat) (post : Post) : Cluster :=
  { c with world := { c.world with posts := c.world.posts.set i post } }

def deliverPost (c : Cluster) (i : Nat) : Cluster :=
  match c.world.posts[i]? with
  | some post =>
    if post.handler.isNone then
      let c' := c.setPost i { post with handler := some c.threads.length }
      start sha c' post.dest (.extKeys post.source post.body)
    else c
  | none => c

def answerOf (dest : NodeId) : Outcome → Option (Except DkmsError Unit)
  | .extKeys (.ok _) => some (.ok ())
  | .extKeys (.error error) => some (.error (.peerRejected dest error.response.1 error.response.2))
  | _ => none

def answerPost (c : Cluster) (i : Nat) : Cluster :=
  match c.world.posts[i]? with
  | some post =>
    match post.answer, post.handler.bind c.outcome |>.bind (answerOf post.dest) with
    | none, some answer => c.setPost i { post with answer := some answer }
    | _, _ => c
  | none => c

def failPost (c : Cluster) (i : Nat) (unreachable : Option String) : Cluster :=
  match c.world.posts[i]? with
  | some post =>
    let error := match unreachable with
      | none => DkmsError.peerAckTimeout post.dest
      | some source => .peerUnreachable post.dest source
    if post.answer.isNone then c.setPost i { post with answer := some (.error error) } else c
  | none => c

def receiptsFor (c : Cluster) (node source : NodeId) (picks : List Nat) : List KeyId :=
  picks.filterMap fun i =>
    match c.world.receipts[i]? with
    | some r => if r.dest = node ∧ r.source = source then some r.keyId else none
    | none => none

def deliverFrame (c : Cluster) (i : Nat) : Cluster :=
  match c.world.frames[i]? with
  | some frame =>
    if isReceiving c frame.dest then c else start sha c frame.dest (.delivery frame)
  | none => c

def setPeers (c : Cluster) (node : NodeId) (peers : List NodeId) : Cluster :=
  { c with world := c.world.setNode node { c.world.nodes node with peers } }

def restart (c : Cluster) (node : NodeId) (incarnation : String) : Cluster :=
  let old := c.world.nodes node
  { c with
    world := c.world.setNode node (.boot old.cfg incarnation old.peers)
    threads := c.threads.map (Task.kill node) }

def next (c : Cluster) : Act → Cluster
  | .advance ms => { c with world := { c.world with now := c.world.now + ms } }
  | .encKeys node request env => start sha c node (.encKeys request env)
  | .decKeys node requester master keyIds => start sha c node (.decKeys requester master keyIds)
  | .tick node work => if isTicking c node then c else start sha c node (.tick work)
  | .reap node => start sha c node .reap
  | .sweep node => start sha c node .sweep
  | .drain node => start sha c node .drain
  | .step thread hint => c.step (fun tag => exec tag.node) thread hint
  | .deliverPost post => deliverPost sha c post
  | .answerPost post => answerPost c post
  | .failPost post unreachable => failPost c post unreachable
  | .deliverReceipts node source picks =>
    start sha c node (.receipts source (receiptsFor c node source picks))
  | .deliverFrame frame => deliverFrame sha c frame
  | .setPeers node peers => setPeers c node peers
  | .restart node incarnation => restart c node incarnation

def run (c : Cluster) (acts : List Act) : Cluster := acts.foldl (next sha) c

structure Idle (c : Cluster) : Prop where
  threads : c.threads = []
  posts : c.world.posts = []
  pending : ∀ n id, (c.world.nodes n).pending.get id = none

end Cluster

def plainConfig : DkmsConfig where
  capacityPerPeer := 1
  defaultTtlSecs := 300
  enforceAuthorization := false
  saeBindings := []
  hasPeerClient := true
  hasAckRoute := true
  maxConcurrentPeers := 4
  securityLevelFor _ := .qkdPrefer
  keySizeBytes := 32
  ackTimeoutMs := 5000
  maxTokensPerPeerPerTick := 4
  maxEmitsInFlight := 2

def twoNodes (enc dec : List TransportKey) : Cluster where
  world :=
    { now := 0
      nodes := fun id =>
        let node := DkmsService.boot plainConfig (id ++ "-1") ["A", "B"]
        if id = "A" then node.setEnc "B" .qkd ⟨1, enc⟩
        else if id = "B" then node.setDec "A" ⟨1, dec⟩
        else node
      posts := []
      frames := []
      receipts := [] }
  threads := []

def steps (thread number : Nat) : List Act :=
  List.replicate number (.step thread ⟨0, true⟩)

def oneKey : KeyRequest := ⟨"m", "s", 1, 64, [], .ok none⟩

def atB (keyId : KeyId) : Surroundings :=
  ⟨fun _ => some "B", fun _ => none, none, fun _ => keyId, fun _ i => .ofNat i⟩

def requestKey (keyId : KeyId) : Act := .encKeys "A" oneKey (atB keyId)

theorem twoNodes_idle (enc dec : List TransportKey) : (twoNodes enc dec).Idle := by
  refine ⟨rfl, rfl, fun n id => ?_⟩
  unfold twoNodes
  dsimp only
  split
  · rfl
  · split <;> rfl

end Dkms.Node
