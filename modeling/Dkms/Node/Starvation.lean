import Dkms.Node.OneTime

namespace Dkms.Node

open List Std Dkms.Core Cluster AckPendingStore DkmsService SecureKeyBuffer

def Act.isRestart : Act → Bool
  | .restart _ _ => true
  | _ => false

theorem AckPendingStore.pendingCount_eq_zero {s : AckPendingStore} {peer : NodeId}
    (empty : ∀ id : KeyId, (s.bucket peer)[id]? = none) : s.pendingCount peer = 0 := by
  rw [pendingCount, ← TreeMap.length_keys, length_eq_zero_iff, eq_nil_iff_forall_not_mem]
  intro id listed
  rw [TreeMap.mem_keys, TreeMap.mem_iff_isSome_getElem?, empty] at listed
  cases listed

theorem PeerIncarnations.noteAt_same {p : PeerIncarnations} {peer : NodeId} {incarnation : String}
    (same : ∀ previous ∈ p.seen[peer]?, previous = incarnation) (now cooldown : Nat) :
    p.noteAt peer incarnation now cooldown =
      (none, { p with seen := p.seen.insert peer incarnation }) := by
  unfold noteAt
  cases heard : p.seen[peer]? with
  | none => rfl
  | some previous =>
    have here := same previous heard
    simp [here]

theorem SecureKeyBuffer.tryPushCapped_of_lt {buffer : SecureKeyBuffer} {ceiling : Nat}
    (room : buffer.inner.length < ceiling) (key : TransportKey) :
    buffer.tryPushCapped key ceiling = (true, buffer.tryPush key) := by
  simp [tryPushCapped, room, tryPush]

@[simp]
theorem DkmsService.dec_hearing (n : DkmsService) (heard : PeerIncarnations) (peer : NodeId) :
    { n with peerIncarnations := heard }.dec peer = n.dec peer := rfl

@[simp]
theorem World.setNode_setNode (w : World) (id : NodeId) (first second : DkmsService) :
    (w.setNode id first).setNode id second = w.setNode id second := by
  simp [setNode]

namespace Cluster

variable {sha : Bytes → Bytes} {c : Cluster}

theorem run_steps (c : Cluster) (i n : Nat) : run sha c (steps i n) =
    (fun pool => Pool.step (fun tag : Tag => exec tag.node) pool i ⟨0, true⟩)^[n] c := by
  induction n generalizing c with
  | zero => rfl
  | succ n ih => exact ih _

def AtRest (c : Cluster) : Prop := ∀ t ∈ c.threads, t.isRunning = false

theorem AtRest.not_ticking (rest : c.AtRest) (node : NodeId) : c.isTicking node = false := by
  rw [isTicking, any_eq_false]
  intro t member
  simp [rest t member]

theorem AtRest.not_receiving (rest : c.AtRest) (node : NodeId) : c.isReceiving node = false := by
  rw [isReceiving, any_eq_false]
  intro t member
  simp [rest t member]

def Leads (sha : Bytes → Bytes) (c c' : Cluster) : Prop :=
  ∃ acts : List Act, (∀ act ∈ acts, act.isRestart = false) ∧ run sha c acts = c'

theorem Leads.refl (c : Cluster) : Leads sha c c := ⟨[], by simp, rfl⟩

theorem Leads.trans {c' c'' : Cluster} (first : Leads sha c c') (second : Leads sha c' c'') :
    Leads sha c c'' := by
  obtain ⟨acts, calm, rfl⟩ := first
  obtain ⟨acts', calm', rfl⟩ := second
  refine ⟨acts ++ acts', ?_, foldl_append ..⟩
  intro act member
  rcases mem_append.mp member with before | after
  · exact calm act before
  · exact calm' act after

theorem Leads.act {act : Act} (calm : act.isRestart = false) : Leads sha c (next sha c act) :=
  ⟨[act], by simpa using calm, rfl⟩

theorem AtRest.call (rest : c.AtRest) {act : Act} (calm : act.isRestart = false) {node : NodeId}
    {call : Call} (starts : next sha c act = c.start sha node call) {outcome : Outcome} {world : World}
    (ends : (call.program sha node (c.world.nodes node)).eval (fun op => exec node op ⟨0, true⟩)
      c.world = some (outcome, world)) : ∃ c', Leads sha c c' ∧ c'.AtRest ∧ c'.world = world := by
  have found : (c.start sha node call).threads[c.threads.length]? =
      some ⟨⟨node, call⟩, [], call.program sha node (c.world.nodes node)⟩ := by
    simp [start, Pool.launch, Thread.launch]
  obtain ⟨n, log, ended⟩ := Pool.steps_of_eval (fun tag : Tag => exec tag.node) ⟨0, true⟩ found ends
  rw [← starts, ← @run_steps sha] at ended
  have stepping : Leads sha (next sha c act) _ := ⟨steps c.threads.length n, by
    intro act member
    rw [eq_of_mem_replicate member]
    rfl, ended⟩
  refine ⟨_, (Leads.act calm).trans stepping, ?_, rfl⟩
  intro t member
  rw [starts] at member
  simp only [start, Pool.launch, set_append_right _ _ (Nat.le_refl _), Nat.sub_self,
    set_cons_zero, mem_append, mem_singleton] at member
  rcases member with old | rfl
  · exact rest t old
  · rfl

end Cluster

theorem oneFor_toList (b : NodeId) (d : Draw) : (oneFor b d).toList = [(b, ⟨1, fun _ => d⟩)] := rfl

section Emission

variable {w : World} {a b : NodeId} {d : Draw}

def emitted (w : World) (a b : NodeId) (d : Draw) : World :=
  let node := w.nodes a
  let grade := if d.qkd then KeyGrade.qkd else .pqc
  let entry := ⟨d.bytes, w.now + node.cfg.ackTimeoutMs, grade⟩
  let frame := frameOf node.cfg a node.incarnation ⟨b, d⟩
  { w.setNode a { node with ackPending := node.ackPending.insert b d.keyId entry } with
    frames := w.frames ++ [frame] }

theorem planTick_alone (enc : ∀ grade, ((w.nodes a).enc b grade).inner = [])
    (acks : ∀ id : KeyId, ((w.nodes a).ackPending.bucket b)[id]? = none)
    (room : 0 < (w.nodes a).cfg.capacityPerPeer)
    (emits : 0 < (w.nodes a).cfg.maxTokensPerPeerPerTick) :
    (planTick (w.nodes a).cfg [(b, ⟨1, fun _ => d⟩)] []).eval (fun op => exec a op ⟨0, true⟩) w =
      some ([⟨b, d⟩], w) := by
  have waiting := pendingCount_eq_zero acks
  have one : min 1 (min (w.nodes a).cfg.maxTokensPerPeerPerTick (w.nodes a).cfg.capacityPerPeer) =
      1 := by omega
  simp [planTick, exec, enc, waiting, len, room.ne', one]

theorem emitAll_alone (knows : b ∈ (w.nodes a).peers) :
    (emitAll (w.nodes a).cfg a (w.nodes a).incarnation 2 [⟨b, d⟩] []).eval
      (fun op => exec a op ⟨0, true⟩) w = some (([], []), emitted w a b d) := by
  simp [emitAll, startEmission, exec, knows]
  rfl

theorem tick_alone (sha : Bytes → Bytes) (knows : b ∈ (w.nodes a).peers)
    (enc : ∀ grade, ((w.nodes a).enc b grade).inner = [])
    (acks : ∀ id : KeyId, ((w.nodes a).ackPending.bucket b)[id]? = none)
    (room : 0 < (w.nodes a).cfg.capacityPerPeer)
    (emits : 0 < (w.nodes a).cfg.maxTokensPerPeerPerTick) :
    ((Call.tick (oneFor b d)).program sha a (w.nodes a)).eval (fun op => exec a op ⟨0, true⟩) w =
      some (.finished, emitted w a b d) := by
  simp only [Call.program, tickOnce, oneFor_toList, Prog.eval_bind,
    planTick_alone enc acks room emits, length_singleton, emitAll_alone knows, Prog.pure_eq_done,
    Prog.eval_done]

def received (w : World) (a b : NodeId) (incarnation : String) (key : TransportKey) : World :=
  let node := w.nodes b
  let heard := { node.peerIncarnations with
    seen := node.peerIncarnations.seen.insert a incarnation }
  let dec := (node.dec a).tryPush key
  let receipts := if node.cfg.hasAckRoute then [⟨b, a, key.id, node.incarnation⟩] else []
  { w.setNode b ({ node with peerIncarnations := heard }.setDec a dec) with
    receipts := w.receipts ++ receipts }

theorem delivery_alone (sha : Bytes → Bytes) {cfg : DkmsConfig} {incarnation : String}
    (valid : isValidId a) (known : a ∈ (w.nodes b).peers) (size : d.bytes.length = cfg.keySizeBytes)
    (heard : ∀ previous ∈ (w.nodes b).peerIncarnations.seen[a]?, previous = incarnation)
    (room : ((w.nodes b).dec a).inner.length < ((w.nodes b).dec a).capacity * decHardCeilingMult) :
    ((Call.delivery (frameOf cfg a incarnation ⟨b, d⟩)).program sha b (w.nodes b)).eval
        (fun op => exec b op ⟨0, true⟩) w =
      some (.delivery (.ok true), received w a b incarnation ⟨d.keyId, d.bytes⟩) := by
  have length : (cfg.keySizeBytes * 8 + 7) / 8 = cfg.keySizeBytes := by omega
  have note := PeerIncarnations.noteAt_same heard w.now incarnationWipeCooldown
  have taken := tryPushCapped_of_lt room ⟨d.keyId, d.bytes⟩
  cases route : (w.nodes b).cfg.hasAckRoute
  all_goals
    simp [Call.program, handleOrrDeliveryBuffer, frameOf, exec, valid, known, size, length,
      noteHeader, notePeerIncarnation, note, taken, acknowledge, received, route]
  · rfl
  · exact ⟨rfl, rfl⟩

def reaped (w : World) (a : NodeId) : World :=
  w.setNode a { w.nodes a with ackPending := (w.nodes a).ackPending.reapExpired w.now }

def givenUp (w : World) (a b : NodeId) (d : Draw) : World :=
  let node := w.nodes a
  let arrived := received (emitted w a b d) a b node.incarnation ⟨d.keyId, d.bytes⟩
  reaped { arrived with now := arrived.now + node.cfg.ackTimeoutMs } a

theorem givenUp_emitter (apart : a ≠ b) : (givenUp w a b d).nodes a = { w.nodes a with
    ackPending := ((w.nodes a).ackPending.insert b d.keyId
      ⟨d.bytes, w.now + (w.nodes a).cfg.ackTimeoutMs, if d.qkd then .qkd else .pqc⟩).reapExpired
        (w.now + (w.nodes a).cfg.ackTimeoutMs) } := by
  simp only [givenUp, reaped, received, emitted, World.nodes_setNode, if_neg apart]
  rfl

theorem givenUp_receiver (apart : a ≠ b) : (givenUp w a b d).nodes b = { w.nodes b with
    peerIncarnations := { (w.nodes b).peerIncarnations with
      seen := (w.nodes b).peerIncarnations.seen.insert a (w.nodes a).incarnation } }.setDec a
        (((w.nodes b).dec a).tryPush ⟨d.keyId, d.bytes⟩) := by
  simp only [givenUp, reaped, received, emitted, World.nodes_setNode, if_true, if_neg apart.symm]

end Emission

def Abandoned (w : World) (a b : NodeId) (id : KeyId) : Prop :=
  (∀ grade, ∀ key ∈ ((w.nodes a).enc b grade).inner, key.id ≠ id) ∧
    ((w.nodes a).ackPending.bucket b)[id]? = none

structure Drained (a b : NodeId) (cfg : DkmsConfig) (capacity : Nat) (keys : List TransportKey)
    (c : Cluster) : Prop where
  rest : c.AtRest
  config : (c.world.nodes a).cfg = cfg
  knows : b ∈ (c.world.nodes a).peers
  enc : ∀ grade, ((c.world.nodes a).enc b grade).inner = []
  acks : ∀ id : KeyId, ((c.world.nodes a).ackPending.bucket b)[id]? = none
  known : a ∈ (c.world.nodes b).peers
  heard : ∀ previous ∈ (c.world.nodes b).peerIncarnations.seen[a]?, previous = (c.world.nodes a).incarnation
  ceiling : ((c.world.nodes b).dec a).capacity = capacity
  dec : ((c.world.nodes b).dec a).inner = keys

namespace Drained

variable {a b : NodeId} {cfg : DkmsConfig} {capacity : Nat} {keys : List TransportKey} {c : Cluster}
  {sha : Bytes → Bytes} {d : Draw}

section

variable (drained : Drained a b cfg capacity keys c)
include drained

theorem leads_givenUp (apart : a ≠ b) (valid : isValidId a) (room : 0 < cfg.capacityPerPeer)
    (emits : 0 < cfg.maxTokensPerPeerPerTick) (size : d.bytes.length = cfg.keySizeBytes)
    (space : keys.length < capacity * decHardCeilingMult) :
    ∃ c', Cluster.Leads sha c c' ∧ c'.AtRest ∧ c'.world = givenUp c.world a b d := by
  obtain ⟨rest, rfl, knows, enc, acks, known, heard, rfl, rfl⟩ := drained
  have ticks : next sha c (.tick a (oneFor b d)) = c.start sha a (.tick (oneFor b d)) := by
    simp [Cluster.next, rest.not_ticking]
  obtain ⟨c₁, leads₁, rest₁, world₁⟩ := rest.call rfl ticks (tick_alone sha knows enc acks room emits)
  -- the other end has not moved meanwhile
  have still : c₁.world.nodes b = c.world.nodes b := by
    simp [world₁, emitted, apart.symm]
  have delivers : next sha c₁ (.deliverFrame c.world.frames.length) = c₁.start sha b
      (.delivery (frameOf (c.world.nodes a).cfg a (c.world.nodes a).incarnation ⟨b, d⟩)) := by
    simp [Cluster.next, Cluster.deliverFrame, world₁, emitted, rest₁.not_receiving, frameOf]
  obtain ⟨c₂, leads₂, rest₂, world₂⟩ := rest₁.call rfl delivers
    (delivery_alone sha valid (still ▸ known) size (still ▸ heard) (still ▸ space))
  let c₃ : Cluster := next sha c₂ (.advance (c.world.nodes a).cfg.ackTimeoutMs)
  have leads₃ : Cluster.Leads sha c₂ c₃ := .act rfl
  have rest₃ : c₃.AtRest := rest₂
  have reaps : (Call.reap.program sha a (c₃.world.nodes a)).eval (fun op => exec a op ⟨0, true⟩)
      c₃.world = some (.finished, reaped c₃.world a) := by
    simp [Call.program, exec, reaped]
  obtain ⟨c₄, leads₄, rest₄, world₄⟩ := rest₃.call rfl
    (show next sha c₃ (.reap a) = c₃.start sha a .reap from rfl) reaps
  refine ⟨c₄, ((leads₁.trans leads₂).trans leads₃).trans leads₄, rest₄, ?_⟩
  rw [world₄, givenUp, ← world₁, ← world₂]
  rfl

theorem givenUp (apart : a ≠ b) {c' : Cluster} (rest : c'.AtRest)
    (world : c'.world = givenUp c.world a b d) :
    Drained a b cfg capacity (keys ++ [⟨d.keyId, d.bytes⟩]) c' := by
  obtain ⟨-, rfl, knows, enc, acks, known, heard, rfl, rfl⟩ := drained
  have atA := @givenUp_emitter c.world a b d apart
  have atB := @givenUp_receiver c.world a b d apart
  rw [← world] at atA atB
  constructor
  case rest => exact rest
  case config => rw [atA]
  case knows =>
    rw [atA]
    exact knows
  case enc =>
    rw [atA]
    exact enc
  case acks =>
    intro id
    rw [atA, (bucket_reapExpired _ _ b).1, bucket_insert, if_pos rfl, TreeMap.getElem?_insert]
    split
    · simp [AckPendingEntry.isExpired]
    · rw [acks]
      rfl
  case known =>
    rw [atB]
    exact known
  case heard =>
    rw [atA, atB]
    simp [setDec]
  case ceiling | dec =>
    rw [atB, dec_setDec, if_pos rfl]
    rfl

theorem abandoned : ∀ key ∈ ((c.world.nodes b).dec a).inner, Abandoned c.world a b key.id := by
  intro key _
  refine ⟨fun grade other held => ?_, drained.acks key.id⟩
  rw [drained.enc] at held
  cases held

theorem refuses {ceiling : Nat} (full : ceiling ≤ keys.length) (key : TransportKey) :
    (((c.world.nodes b).dec a).tryPushCapped key ceiling).1 = false := by
  simp [tryPushCapped, drained.dec, full]

end

theorem fill (drained : Drained a b cfg capacity [] c) (apart : a ≠ b) (valid : isValidId a)
    (room : 0 < cfg.capacityPerPeer) (emits : 0 < cfg.maxTokensPerPeerPerTick) {draw : Nat → Draw}
    (sizes : ∀ i, (draw i).bytes.length = cfg.keySizeBytes) {n : Nat}
    (within : n ≤ capacity * decHardCeilingMult) :
    ∃ c', Leads sha c c' ∧ Drained a b cfg capacity
      ((List.range n).map fun i => ⟨(draw i).keyId, (draw i).bytes⟩) c' := by
  induction n with
  | zero => exact ⟨c, .refl c, drained⟩
  | succ n ih =>
    obtain ⟨c₁, leads₁, held⟩ := ih (Nat.le_of_succ_le within)
    have lost : ∃ c', Leads sha c₁ c' ∧ c'.AtRest ∧
        c'.world = Node.givenUp c₁.world a b (draw n) :=
      held.leads_givenUp apart valid room emits (sizes n) (by simpa using within)
    obtain ⟨c₂, leads₂, rest, world⟩ := lost
    refine ⟨c₂, leads₁.trans leads₂, ?_⟩
    rw [range_succ, map_append]
    exact held.givenUp apart rest world

end Drained

def Cluster.boot (cfg : NodeId → DkmsConfig) (incarnation : NodeId → String)
    (peers : NodeId → List NodeId) : Cluster where
  world :=
    { now := 0
      nodes := fun id => .boot (cfg id) (incarnation id) (peers id)
      posts := []
      frames := []
      receipts := [] }
  threads := []

section Boot

variable {cfg : NodeId → DkmsConfig} {incarnation : NodeId → String} {peers : NodeId → List NodeId}
  {a b : NodeId}

theorem boot_drained (knows : b ∈ peers a) (known : a ∈ peers b) :
    Drained a b (cfg a) (cfg b).capacityPerPeer [] (.boot cfg incarnation peers) := by
  constructor
  case rest => simp [Cluster.AtRest, Cluster.boot]
  case config | ceiling | dec => rfl
  case knows => exact knows
  case enc => exact fun grade => by cases grade <;> rfl
  case acks => exact fun id => rfl
  case known => exact known
  case heard => simp [Cluster.boot, DkmsService.boot, PeerIncarnations.new]

/-- Whatever the capacities, there is a run without restarts in which receipts are lost and at
whose end the receiver is full up to its hard ceiling of keys that the emitter has given up. It
then refuses every further key. -/
theorem abandoned_keys_fill_ceiling (sha : Bytes → Bytes) (apart : a ≠ b) (valid : isValidId a)
    (knows : b ∈ peers a) (known : a ∈ peers b) (room : 0 < (cfg a).capacityPerPeer)
    (emits : 0 < (cfg a).maxTokensPerPeerPerTick) (draw : Nat → Draw)
    (sizes : ∀ i, (draw i).bytes.length = (cfg a).keySizeBytes) :
    let ceiling := (cfg b).capacityPerPeer * decHardCeilingMult
    ∃ acts : List Act, (∀ act ∈ acts, act.isRestart = false) ∧
      let w := (Cluster.run sha (.boot cfg incarnation peers) acts).world
      ((w.nodes b).dec a).inner.map (·.id) = (List.range ceiling).map (fun i => (draw i).keyId) ∧
        (∀ key ∈ ((w.nodes b).dec a).inner, Abandoned w a b key.id) ∧
        ∀ key, (((w.nodes b).dec a).tryPushCapped key ceiling).1 = false := by
  intro ceiling
  have start : Drained a b (cfg a) (cfg b).capacityPerPeer [] (.boot cfg incarnation peers) :=
    boot_drained knows known
  have filled : ∃ c', Cluster.Leads sha (.boot cfg incarnation peers) c' ∧
      Drained a b (cfg a) (cfg b).capacityPerPeer
        ((List.range ceiling).map fun i => ⟨(draw i).keyId, (draw i).bytes⟩) c' :=
    start.fill apart valid room emits sizes (Nat.le_refl ceiling)
  obtain ⟨c, ⟨acts, calm, rfl⟩, full⟩ := filled
  refine ⟨acts, calm, ?_, full.abandoned, full.refuses (by simp [ceiling])⟩
  rw [full.dec, map_map]
  rfl

end Boot

def numbered (i : Nat) : Draw := ⟨s!"t{i}", List.replicate 32 7, true⟩

def pair (cfg : DkmsConfig) : Cluster := .boot (fun _ => cfg) (· ++ "-1") fun _ => ["A", "B"]

theorem abandoned_keys_fill_ceiling_default :
    let cfg := { plainConfig with capacityPerPeer := 4096, maxTokensPerPeerPerTick := 32 }
    isValidId "A" ∧ ∃ acts : List Act, (∀ act ∈ acts, act.isRestart = false) ∧
      let w := (Cluster.run id (pair cfg) acts).world
      ((w.nodes "B").dec "A").inner.map (·.id) = (List.range 262144).map (fun i => (numbered i).keyId) ∧
        (∀ key ∈ ((w.nodes "B").dec "A").inner, Abandoned w "A" "B" key.id) ∧
        ∀ key, (((w.nodes "B").dec "A").tryPushCapped key 262144).1 = false :=
  ⟨by decide, abandoned_keys_fill_ceiling id (by decide) (by decide) (by decide) (by decide)
    (by decide) (by decide) numbered (fun _ => rfl)⟩

/-- At capacity 1 it takes 64 keys, one after the other. -/
theorem lost_receipts_starve : ∃ acts : List Act, (∀ act ∈ acts, act.isRestart = false) ∧
    let w := (Cluster.run id (pair plainConfig) acts).world
    ((w.nodes "B").dec "A").len = 64 ∧
      (∀ key ∈ ((w.nodes "B").dec "A").inner, Abandoned w "A" "B" key.id) ∧
      ∀ key, (((w.nodes "B").dec "A").tryPushCapped key 64).1 = false := by
  have start : Drained "A" "B" plainConfig 1 [] (pair plainConfig) :=
    @boot_drained (fun _ => plainConfig) (· ++ "-1") (fun _ => ["A", "B"]) "A" "B" (by decide) (by decide)
  have filled : ∃ c', Cluster.Leads id (pair plainConfig) c' ∧ Drained "A" "B" plainConfig 1
      ((List.range 64).map fun i => ⟨(numbered i).keyId, (numbered i).bytes⟩) c' :=
    start.fill (by decide) (by decide) (by decide) (by decide) (fun _ => rfl) (by decide)
  obtain ⟨c, ⟨acts, calm, rfl⟩, full⟩ := filled
  refine ⟨acts, calm, ?_, full.abandoned, full.refuses (by simp)⟩
  rw [len, full.dec]
  simp

end Dkms.Node
