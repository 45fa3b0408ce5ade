import Dkms.Orr.Network

namespace Dkms.Orr

open Function Std Dkms.Core Dkms.Link Dkms.Replay PeerRegistry

variable {Header : Type} {suite : Suite Header} {net : Network Header} {act : Act Header}

def Act.Installs (x peer : String) (secret : Bytes) : Act Header → Prop
  | .setMaster y z _ new | .bootstrap y z new => y = x ∧ z = peer ∧ new = secret
  | _ => False

namespace Network

inductive Moves (suite : Suite Header) (net : Network Header) (act : Act Header) :
    Network Header → Prop
  | rekeyed (x : String) (orr : Establisher)
    (known : ∀ peer epochId secret, orr.peers.masterForEpoch peer epochId = some secret →
      (net.orr x).peers.masterForEpoch peer epochId = some secret ∨ act.Installs x peer secret) :
    Moves suite net act (net.setOrr x { net.orr x with toEstablisher := orr })
  | counted (x : String) (onionCounter : UInt64) :
    Moves suite net act (net.setOrr x { net.orr x with onionCounter })
  | launched (x : String) (onionCounter : UInt64) (path : List String) (payload : Bytes)
    (appHeader : Header) (frame : OrrFrame Header) (layers : List Layer)
    (sent : Launched (net.orr x) path payload frame layers)
    (bounded : path.length = 1 ∨ ∃ keyIds destOrr grade,
      act = .sendPath x keyIds destOrr path payload appHeader grade) :
    Moves suite net act { net.setOrr x { net.orr x with onionCounter } with
      built := net.built ++ [⟨x, path, frame.header.fresh, appHeader, payload, layers⟩]
      wire := net.wire ++ [frame] }
  | handled (x : String) (frame : OrrFrame Header) (readAt acceptAt : Nat)
    (result : Incoming Header × OrrService) (injected : act = .inject x frame readAt acceptAt)
    (effect : OrrService.Handled suite (net.orr x) frame readAt acceptAt result) :
    Moves suite net act (net.handled suite x frame result)
  | restarted (x : String) (session : UInt64) (again : act = .restart x session) :
    Moves suite net act (net.setOrr x (.new x (net.orr x).localQkcId session))

theorem sent_moves (x : String) {path : List String} {payload : Bytes} {appHeader : Header}
    {result : Except OrrError (OrrFrame Header × List Layer) × OrrService}
    (ok : ∀ frame layers, result.1 = .ok (frame, layers) → Launched (net.orr x) path payload frame layers)
    (after : (∃ onionCounter, result.2 = { net.orr x with onionCounter }) ∨
      (∃ e, result.1 = .error e) ∧ (net.orr x).Reregistered result.2)
    (bounded : path.length = 1 ∨ ∃ keyIds destOrr grade,
      act = .sendPath x keyIds destOrr path payload appHeader grade) :
    Moves suite net act (net.sent x path payload appHeader result) := by
  obtain ⟨outcome, s⟩ := result
  rcases after with ⟨onionCounter, after⟩ | ⟨⟨e, failed⟩, kept⟩
  · subst after
    cases outcome with
    | error e => exact .counted x onionCounter
    | ok pair =>
      obtain ⟨frame, layers⟩ := pair
      exact .launched x onionCounter path payload appHeader frame layers (ok frame layers rfl) bounded
  · dsimp only at failed kept
    subst failed
    rw [kept.same]
    exact .rekeyed x _ fun peer epochId secret found => .inl (kept.held peer epochId secret found)

theorem next_moves (suite : Suite Header) (net : Network Header) (act : Act Header) :
    Moves suite net act (net.next suite act) := by
  cases act with
  | sendE2e x keyIds destOrr payload appHeader grade now =>
    exact sent_moves x (fun frame layers => OrrService.sendOnionPath_ok ∘ OrrService.sendOnionE2e_path)
      (OrrService.sendOnionE2e_after suite _ keyIds destOrr payload appHeader grade now) (.inl rfl)
  | sendPath x keyIds destOrr fullPath payload appHeader grade =>
    exact sent_moves x (fun frame layers => OrrService.sendOnionPath_ok)
      (.inl (OrrService.sendOnionPath_after suite _ keyIds destOrr fullPath payload appHeader grade))
      (.inr ⟨keyIds, destOrr, grade, rfl⟩)
  | inject x frame readAt acceptAt =>
    exact .handled x frame readAt acceptAt _ rfl
      (OrrService.handleIncoming_handled suite (net.orr x) frame readAt acceptAt)
  | settle x peer failedAt =>
    cases failedAt <;> exact .rekeyed x _ fun _ _ _ found => .inl found
  | put x peer qkcId => exact .rekeyed x _ fun _ _ _ found => .inl found
  | setSendEpoch x peer epochId => exact .rekeyed x _ fun _ _ _ found => .inl found
  | putPubkey x peer pubkey => exact .rekeyed x _ fun _ _ _ found => .inl found
  | putGrpcAddr x peer url => exact .rekeyed x _ fun _ _ _ found => .inl found
  | setMaster x peer epochId secret =>
    refine .rekeyed x _ fun peer' epochId' secret' found => ?_
    rcases masterForEpoch_setMaster found with old | ⟨same, new⟩
    · exact .inl old
    · exact .inr ⟨rfl, same, new⟩
  | removeEpoch x peer epochId =>
    exact .rekeyed x _ fun _ _ _ found => .inl (masterForEpoch_removeEpoch found)
  | dropOldEpochs x peer keepLastN =>
    exact .rekeyed x _ fun _ _ _ found => .inl (masterForEpoch_dropOld found)
  | bootstrap x peer secret =>
    refine .rekeyed x _ fun peer' epochId' secret' found => ?_
    rcases masterForEpoch_bootstrap found with old | ⟨same, new⟩
    · exact .inl old
    · exact .inr ⟨rfl, same, new⟩
  | forget x peer =>
    exact .rekeyed x _ fun _ _ _ found => .inl (masterForEpoch_forget found)
  | restart x session => exact .restarted x session rfl

theorem handled_orr (suite : Suite Header) (net : Network Header) (x : String)
    (frame : OrrFrame Header) (result : Incoming Header × OrrService) :
    (net.handled suite x frame result).orr = update net.orr x result.2 ∧
      (net.handled suite x frame result).built = net.built := by
  obtain ⟨outcome, s⟩ := result
  cases outcome <;> exact ⟨rfl, rfl⟩

theorem handled_delivered (suite : Suite Header) (net : Network Header) (x : String)
    (frame : OrrFrame Header) (result : Incoming Header × OrrService) :
    (net.handled suite x frame result).delivered = net.delivered ∨
      ∃ m, result.1 = .delivered m ∧
        (net.handled suite x frame result).delivered = net.delivered ++
          [⟨x, frame, frame.header.keyId.bind fun _ =>
            (net.orr x).secretFor suite frame.header frame.epochId, m⟩] := by
  obtain ⟨outcome, s⟩ := result
  cases outcome with
  | ignored | noSecret | failed | replayed | forwarded => exact .inl rfl
  | delivered m => exact .inr ⟨m, rfl, rfl⟩

structure Keyed (owners : Bytes → Sym2 String) (net : Network Header) : Prop where
  held : ∀ x peer epochId secret, (net.orr x).peers.masterForEpoch peer epochId = some secret →
    x ≠ peer ∧ owners secret = s(x, peer)
  layers : ∀ m ∈ net.built, ∀ layer ∈ m.layers, owners layer.hop.masterSecret = s(m.origin, layer.hop.orrId)
  delivers : ∀ m ∈ net.built, ∀ layer ∈ m.layers, layer.maxHops ≤ 0 →
    layer.plaintext = m.body ∧ m.path.getLast? = some layer.hop.orrId

variable {owners : Bytes → Sym2 String}

theorem Keyed.update (keyed : net.Keyed owners) {after : Network Header} {x : String}
    {s : OrrService} (orr : after.orr = update net.orr x s) (built : after.built = net.built)
    (held : ∀ peer epochId secret, s.peers.masterForEpoch peer epochId = some secret →
      x ≠ peer ∧ owners secret = s(x, peer)) : after.Keyed owners := by
  refine ⟨?_, built ▸ keyed.layers, built ▸ keyed.delivers⟩
  intro y peer epochId secret found
  rw [orr] at found
  by_cases same : y = x
  · subst same
    rw [update_self] at found
    exact held peer epochId secret found
  · rw [update_of_ne same] at found
    exact keyed.held y peer epochId secret found

theorem unkeyed {orrId : String} {qkcId : UInt32} {session : UInt64} {peer : String}
    {epochId : UInt32} : (OrrService.new orrId qkcId session).peers.masterForEpoch peer epochId =
      none :=
  TreeMap.getElem?_emptyc

theorem keyed_new (owners : Bytes → Sym2 String) (qkcId : String → UInt32)
    (session : String → UInt64) : (new qkcId session : Network Header).Keyed owners := by
  refine ⟨?_, fun m member => (nomatch member), fun m member => (nomatch member)⟩
  intro x peer epochId secret found
  have none : (OrrService.new x (qkcId x) (session x)).peers.masterForEpoch peer epochId =
      some secret := found
  rw [unkeyed] at none
  cases none

theorem Keyed.next (keyed : net.Keyed owners) (assumed : act.Assumed suite owners net) :
    (net.next suite act).Keyed owners := by
  have moves := net.next_moves suite act
  generalize net.next suite act = after at moves
  cases moves with
  | rekeyed x orr known =>
    refine keyed.update rfl rfl ?_
    intro peer epochId secret found
    rcases known peer epochId secret found with old | installs
    · exact keyed.held x peer epochId secret old
    cases act with
    | setMaster y z _ new =>
      obtain ⟨rfl, rfl, rfl⟩ := installs
      exact assumed
    | bootstrap y z new =>
      obtain ⟨rfl, rfl, rfl⟩ := installs
      exact assumed
    | _ => cases installs
  | counted x onionCounter => exact keyed.update rfl rfl (keyed.held x)
  | launched x onionCounter path payload appHeader frame layers sent bounded =>
    have unsent : (net.setOrr x { net.orr x with onionCounter }).Keyed owners :=
      keyed.update rfl rfl (keyed.held x)
    have short : path.length < 2 ^ 31 := by
      rcases bounded with one | ⟨keyIds, destOrr, grade, rfl⟩
      · omega
      · exact assumed
    refine ⟨unsent.held, ?_, ?_⟩
    · intro m member layer listed
      rcases List.mem_append.mp member with old | new
      · exact keyed.layers m old layer listed
      rw [List.mem_singleton] at new
      subst new
      exact (keyed.held x _ _ _ (sent.held layer listed)).2
    intro m member layer listed last
    rcases List.mem_append.mp member with old | new
    · exact keyed.delivers m old layer listed last
    rw [List.mem_singleton] at new
    subst new
    exact sent.delivers short layer listed last
  | handled x frame readAt acceptAt result injected effect =>
    obtain ⟨orr, built⟩ := handled_orr suite net x frame result
    refine keyed.update orr built ?_
    cases effect with
    | dropped undelivered kept =>
      exact fun peer epochId secret found =>
        keyed.held x peer epochId secret (kept.held peer epochId secret found)
    | passed | peeled => exact keyed.held x
  | restarted x session again =>
    refine keyed.update rfl rfl ?_
    intro peer epochId secret found
    cases found

theorem Keyed.opened (unrelated : suite.Unrelated) (keyed : net.Keyed owners) {x : String}
    {frame : OrrFrame Header} {keyId : KeyId} {secret plaintext : Bytes}
    (assumed : net.OpensSealed suite x frame) (layer : frame.header.keyId = some keyId)
    (held : (net.orr x).secretFor suite frame.header frame.epochId = some secret)
    (opened : suite.openLayer secret keyId frame.payload frame.header.tag frame.epochId
      frame.header.maxHops frame.header.fresh (suite.encodeDkms frame.dkms) = some plaintext) :
    ∃ m ∈ net.built, ∃ layer ∈ m.layers, layer.keyId = keyId ∧ layer.plaintext = plaintext ∧
      layer.maxHops = frame.header.maxHops ∧ m.fresh = frame.header.fresh ∧
      m.header = frame.dkms ∧
      (m.origin = suite.toLowercase frame.header.fromOrr ∧ layer.hop.orrId = x ∨
        m.origin = x ∧ layer.hop.orrId = suite.toLowercase frame.header.fromOrr) := by
  unfold OpensSealed at assumed
  simp only [layer, held, opened] at assumed
  obtain ⟨m, built, layer', listed, key, -, aad, -, -, content⟩ := assumed
  obtain ⟨secrets, ids⟩ := unrelated.key _ _ _ _ key
  obtain ⟨-, -, hops, fresh, header⟩ := unrelated.layerAad_inj aad
  have theirs := keyed.layers m built layer' listed
  obtain ⟨-, ours⟩ := keyed.held x _ _ _ held
  rw [secrets, ours, Sym2.eq_iff] at theirs
  refine ⟨m, built, layer', listed, ids, content, hops, fresh, unrelated.header header, ?_⟩
  rcases theirs with ⟨own, other⟩ | ⟨other, own⟩
  · exact .inr ⟨own.symm, other.symm⟩
  · exact .inl ⟨own.symm, other.symm⟩

end Network

variable {Header : Type} {suite : Suite Header} {net : Network Header} {act : Act Header}

def Act.Unreflected (net : Network Header) : Act Header → Prop
  | .inject x frame _ _ => ∀ m ∈ net.built, m.origin = x → ∀ layer ∈ m.layers,
      frame.header.keyId ≠ some layer.keyId
  | _ => True

instance (net : Network Header) (act : Act Header) : Decidable (act.Unreflected net) := by
  rcases act with _ | _ <;> dsimp only [Act.Unreflected] <;> infer_instance

def Delivery.Vouched (suite : Suite Header) (built : List (Built Header)) (d : Delivery Header) :
    Prop :=
  d.message.pqcDecapsulated → ∀ y ∈ d.message.origin,
    ∃ m ∈ built, m.origin = suite.toLowercase y ∧ m.path.getLast? = some d.place ∧
      m.body = d.message.payload ∧ m.header = d.message.appHeader

instance [DecidableEq Header] (built : List (Built Header)) (d : Delivery Header) :
    Decidable (d.Vouched suite built) := by
  unfold Delivery.Vouched
  infer_instance

theorem Delivery.Vouched.mono {built built' : List (Built Header)} {d : Delivery Header}
    (vouched : d.Vouched suite built) (grows : built ⊆ built') : d.Vouched suite built' := by
  intro layered y named
  obtain ⟨m, member, rest⟩ := vouched layered y named
  exact ⟨m, grows member, rest⟩

namespace Network

variable {owners : Bytes → Sym2 String}

theorem Keyed.vouched (unrelated : suite.Unrelated) (keyed : net.Keyed owners) {x : String}
    {frame : OrrFrame Header} {readAt acceptAt : Nat} {message : DeliveredMessage Header}
    {s : OrrService} (assumed : net.OpensSealed suite x frame)
    (unreflected : ∀ m ∈ net.built, m.origin = x → ∀ layer ∈ m.layers, frame.header.keyId ≠ some layer.keyId)
    (effect : OrrService.Handled suite (net.orr x) frame readAt acceptAt (.delivered message, s))
    (secret : Option Bytes) : Delivery.Vouched suite net.built ⟨x, frame, secret, message⟩ := by
  intro layered y named
  generalize delivered : Incoming.delivered message = result at effect
  cases effect with
  | dropped undelivered => exact absurd delivered.symm (undelivered message)
  | passed clear =>
    cases delivered
    have plain : frame.header.keyId.isSome = true := layered
    rw [clear] at plain
    cases plain
  | peeled layer held opened delivers =>
    obtain ⟨last, rfl, -⟩ := delivers message delivered.symm
    obtain ⟨m, built, layer', listed, ids, content, hops, -, header, sides⟩ :=
      keyed.opened unrelated assumed layer held opened
    rcases sides with ⟨origin, hop⟩ | ⟨own, -⟩
    · have spelled : frame.header.fromOrr = y := by
        unfold OrrService.broadcastDelivery at named
        split at named
        · cases named
        · exact Option.some.inj named
      obtain ⟨body, final⟩ := keyed.delivers m built layer' listed (hops ▸ last)
      exact ⟨m, built, spelled ▸ origin, hop ▸ final, body ▸ content, header⟩
    · exact absurd (ids ▸ layer) (unreflected m built own layer' listed)

structure Honest (suite : Suite Header) (owners : Bytes → Sym2 String) (net : Network Header) :
    Prop where
  keyed : net.Keyed owners
  vouched : ∀ d ∈ net.delivered, d.Vouched suite net.built

theorem Honest.next (unrelated : suite.Unrelated) (honest : net.Honest suite owners)
    (assumed : act.Assumed suite owners net) (unreflected : act.Unreflected net) :
    (net.next suite act).Honest suite owners := by
  refine ⟨honest.keyed.next assumed, ?_⟩
  have moves := net.next_moves suite act
  generalize net.next suite act = after at moves
  cases moves with
  | rekeyed | counted | restarted => exact honest.vouched
  | launched =>
    intro d member
    exact (honest.vouched d member).mono (List.subset_append_left _ _)
  | handled x frame readAt acceptAt result injected effect =>
    subst injected
    rw [(handled_orr suite net x frame result).2]
    rcases handled_delivered suite net x frame result with same | ⟨message, delivered, new⟩
    · rw [same]
      exact honest.vouched
    rw [new]
    intro d member
    rcases List.mem_append.mp member with old | fresh
    · exact honest.vouched d old
    rw [List.mem_singleton] at fresh
    subst fresh
    obtain ⟨outcome, s⟩ := result
    cases delivered
    exact honest.keyed.vouched unrelated assumed unreflected effect _

/-- Whoever a delivery through a layer names as its origin built it for the ORR that delivers, in
every run in which no ORR is given a key id of its own. -/
theorem onion_authentic (suite : Suite Header) (unrelated : suite.Unrelated)
    (owners : Bytes → Sym2 String) (qkcId : String → UInt32) (session : String → UInt64)
    (acts : List (Act Header))
    (assumed : Follows (next suite) (Act.Assumed suite owners) (new qkcId session) acts)
    (unreflected : Follows (next suite) (fun net act => act.Unreflected net) (new qkcId session) acts) :
    ∀ d ∈ (run suite (new qkcId session) acts).delivered,
      d.Vouched suite (run suite (new qkcId session) acts).built := by
  have start : Honest suite owners (new qkcId session) :=
    ⟨keyed_new owners qkcId session, fun d member => (nomatch member)⟩
  exact (Follows.invariant (fun _ _ honest ok => honest.next unrelated ok.1 ok.2)
    (assumed.and unreflected) start).vouched

theorem onion_authentic_forwarded :
    ((trio.run plainSuite throughTwo).delivered.map fun d => (d.place, d.message)) =
        [("orr_3", ⟨some "orr_1", "orr_3", [42], [5], true⟩)] ∧
      ∀ d ∈ (trio.run plainSuite throughTwo).delivered,
        d.Vouched plainSuite (trio.run plainSuite throughTwo).built :=
  ⟨by decide +kernel,
    onion_authentic plainSuite plainSuite_unrelated trioOwners _ _ throughTwo (by decide +kernel)
      (by decide +kernel)⟩

def sentBack : List (Act Bytes) :=
  handOver (trioSetup ++ [.sendE2e "orr_1" (fun _ => 7) "orr_2" [42] [5] 0 0]) 0 "orr_1"
    fun frame => { frame with
      header := { frame.header with fromOrr := "orr_2", toOrr := "orr_1" } }

/-- The secret of a pair serves both directions, so the layer opens where it was sealed. -/
theorem sentBack_names_other :
    Follows (next plainSuite) (Act.Assumed plainSuite trioOwners) trio sentBack ∧
      ((trio.run plainSuite sentBack).delivered.map fun d => (d.place, d.message)) =
        [("orr_1", ⟨some "orr_2", "orr_1", [42], [5], true⟩)] ∧
      ((trio.run plainSuite sentBack).built.map fun m => m.origin) = ["orr_1"] ∧
      ∃ d ∈ (trio.run plainSuite sentBack).delivered,
        ¬ d.Vouched plainSuite (trio.run plainSuite sentBack).built := by
  decide +kernel

end Network

end Dkms.Orr
