import Dkms.Core.Results
import Dkms.Core.Runs
import Dkms.Orr.Service

namespace Dkms.Orr

open List Std Dkms.Core Dkms.Link Dkms.Replay

variable {Header : Type}

structure Built (Header : Type) where
  origin : String
  path : List String
  fresh : Freshness
  header : Header
  body : Bytes
  layers : List Layer
  deriving DecidableEq

/-- A message that the ORR `place` handed to its DKMS, with the frame it came in and the secret
that opened its layer. -/
structure Delivery (Header : Type) where
  place : String
  frame : OrrFrame Header
  secret : Option Bytes
  message : DeliveredMessage Header
  deriving DecidableEq

/-- The ORRs, under their names. The QKCs may do what they like with what is on the wire. -/
structure Network (Header : Type) where
  orr : String → OrrService
  built : List (Built Header)
  delivered : List (Delivery Header)
  wire : List (OrrFrame Header)

inductive Act (Header : Type) where
  | sendE2e (x : String) (keyIds : Nat → KeyId) (destOrr : String) (payload : Bytes)
      (appHeader : Header) (grade : UInt8) (now : Nat)
  | sendPath (x : String) (keyIds : Nat → KeyId) (destOrr : String) (fullPath : List String)
      (payload : Bytes) (appHeader : Header) (grade : UInt8)
  | inject (x : String) (frame : OrrFrame Header) (readAt acceptAt : Nat)
  | put (x peer : String) (qkcId : UInt32)
  | putPubkey (x peer : String) (pubkey : Bytes)
  | putGrpcAddr (x peer url : String)
  | settle (x peer : String) (failedAt : Option Nat)
  | setMaster (x peer : String) (epochId : UInt32) (secret : Bytes)
  | removeEpoch (x peer : String) (epochId : UInt32)
  | dropOldEpochs (x peer : String) (keepLastN : Nat)
  | setSendEpoch (x peer : String) (epochId : UInt32)
  | bootstrap (x peer : String) (secret : Bytes)
  | forget (x peer : String)
  | restart (x : String) (session : UInt64)

namespace Network

def new (qkcId : String → UInt32) (session : String → UInt64) : Network Header where
  orr x := .new x (qkcId x) (session x)
  built := []
  delivered := []
  wire := []

variable (suite : Suite Header) (net : Network Header)

def setOrr (x : String) (s : OrrService) : Network Header :=
  { net with orr := Function.update net.orr x s }

def setPeers (x : String) (change : PeerRegistry → PeerRegistry) : Network Header :=
  net.setOrr x { net.orr x with peers := change (net.orr x).peers }

def sent (x : String) (path : List String) (payload : Bytes) (appHeader : Header) :
    Except OrrError (OrrFrame Header × List Layer) × OrrService → Network Header
  | (.error _, s) => net.setOrr x s
  | (.ok (frame, layers), s) =>
    { net.setOrr x s with
      built := net.built ++ [⟨x, path, frame.header.fresh, appHeader, payload, layers⟩]
      wire := net.wire ++ [frame] }

def handled (x : String) (frame : OrrFrame Header) : Incoming Header × OrrService → Network Header
  | (.delivered message, s) =>
    let secret := frame.header.keyId.bind fun _ =>
      (net.orr x).secretFor suite frame.header frame.epochId
    { net.setOrr x s with delivered := net.delivered ++ [⟨x, frame, secret, message⟩] }
  | (.forwarded out, s) => { net.setOrr x s with wire := net.wire ++ [out] }
  | (_, s) => net.setOrr x s

def next : Act Header → Network Header
  | .sendE2e x keyIds destOrr payload appHeader grade now =>
    net.sent x [destOrr] payload appHeader
      ((net.orr x).sendOnionE2e suite keyIds destOrr payload appHeader grade now)
  | .sendPath x keyIds destOrr fullPath payload appHeader grade =>
    net.sent x fullPath payload appHeader
      ((net.orr x).sendOnionPath suite keyIds destOrr fullPath payload appHeader grade)
  | .inject x frame readAt acceptAt =>
    net.handled suite x frame ((net.orr x).handleIncoming suite frame readAt acceptAt)
  | .put x peer qkcId => net.setPeers x (·.put peer qkcId)
  | .putPubkey x peer pubkey => net.setPeers x (·.putPubkey peer pubkey)
  | .putGrpcAddr x peer url => net.setPeers x (·.putGrpcAddr peer url)
  | .settle x peer failedAt => net.setPeers x (·.settled peer failedAt)
  | .setMaster x peer epochId secret => net.setPeers x (·.setMasterForEpoch peer epochId secret)
  | .removeEpoch x peer epochId => net.setPeers x (·.removeMasterEpoch peer epochId)
  | .dropOldEpochs x peer keepLastN => net.setPeers x (·.dropOldEpochsFor peer keepLastN)
  | .setSendEpoch x peer epochId => net.setPeers x (·.setCurrentSendEpoch peer epochId)
  | .bootstrap x peer secret => net.setPeers x (·.resetForBootstrap peer secret)
  | .forget x peer => net.setPeers x (·.forget peer)
  | .restart x session => net.setOrr x (.new x (net.orr x).localQkcId session)

def run (acts : List (Act Header)) : Network Header := acts.foldl (next suite) net

/-- A layer opens only if it was sealed: the same key and nonce, the same AAD, ciphertext and
tag. -/
def OpensSealed (x : String) (frame : OrrFrame Header) : Prop :=
  match frame.header.keyId, (net.orr x).secretFor suite frame.header frame.epochId with
  | some keyId, some secret =>
    match suite.openLayer secret keyId frame.payload frame.header.tag frame.epochId
        frame.header.maxHops frame.header.fresh (suite.encodeDkms frame.dkms) with
    | some plaintext =>
      ∃ m ∈ net.built, ∃ layer ∈ m.layers,
        suite.layerKey layer.hop.masterSecret layer.keyId = suite.layerKey secret keyId ∧
        layerNonce layer.keyId = layerNonce keyId ∧
        suite.layerAad layer.keyId layer.hop.epochId layer.maxHops m.fresh
            (suite.encodeDkms m.header) =
          suite.layerAad keyId frame.epochId frame.header.maxHops frame.header.fresh
            (suite.encodeDkms frame.dkms) ∧
        layer.ciphertext = frame.payload ∧ layer.tag = frame.header.tag ∧
        layer.plaintext = plaintext
    | none => True
  | _, _ => True

instance (x : String) (frame : OrrFrame Header) : Decidable (net.OpensSealed suite x frame) := by
  unfold OpensSealed
  rcases frame.header.keyId with _ | _ <;>
    rcases (net.orr x).secretFor suite frame.header frame.epochId with _ | _
  case some.some keyId secret =>
    dsimp only
    rcases suite.openLayer secret keyId frame.payload frame.header.tag frame.epochId
      frame.header.maxHops frame.header.fresh (suite.encodeDkms frame.dkms) with _ | _ <;>
      infer_instance
  all_goals infer_instance

end Network

/-- What is assumed of the keys and the cryptography: a secret is installed only at the two ORRs
that it belongs to, and only sealed layers open. A path has fewer hops than an `i32` counts. -/
def Act.Assumed (suite : Suite Header) (owners : Bytes → Sym2 String) (net : Network Header) :
    Act Header → Prop
  | .setMaster x peer _ secret | .bootstrap x peer secret => x ≠ peer ∧ owners secret = s(x, peer)
  | .inject x frame _ _ => net.OpensSealed suite x frame
  | .sendPath _ _ _ fullPath _ _ _ => fullPath.length < 2 ^ 31
  | _ => True

instance (suite : Suite Header) (owners : Bytes → Sym2 String) (net : Network Header)
    (act : Act Header) : Decidable (act.Assumed suite owners net) := by
  rcases act with _ | _ <;> dsimp only [Act.Assumed] <;> infer_instance

def Layer.inner (layer : Layer) : InnerLayer :=
  ⟨layer.hop.orrId, layer.hop.epochId, layer.keyId, layer.ciphertext, layer.tag⟩

section

variable {suite : Suite Header} {fresh : Freshness} {dkmsHdr body : Bytes}

variable {hop : PathHopSecret} {keyId : KeyId} {plaintext : Bytes}

theorem sealLayer_eq {maxHops : Int32}
    {layer : Layer} (made : suite.sealLayer hop keyId plaintext maxHops fresh dkmsHdr = .ok layer) :
    ∃ ciphertext tag, suite.sealDetached (suite.layerKey hop.masterSecret keyId) (layerNonce keyId)
        plaintext (suite.layerAad keyId hop.epochId maxHops fresh dkmsHdr) = some (ciphertext, tag) ∧
      layer = ⟨hop, keyId, maxHops, plaintext, ciphertext, tag⟩ := by
  unfold Suite.sealLayer at made
  split at made
  · cases made
  rename_i sealed
  cases made
  exact ⟨_, _, sealed, rfl⟩

variable {outer : Layer} {inside : List Layer}

theorem layers_cons {next : PathHopSecret × KeyId} {rest : List (PathHopSecret × KeyId)}
    (made : suite.layers fresh dkmsHdr body ((hop, keyId) :: next :: rest) = .ok (outer, inside)) :
    ∃ current further, suite.layers fresh dkmsHdr body (next :: rest) = .ok (current, further) ∧
      inside = current :: further ∧ suite.sealLayer hop keyId (suite.encodeInner current.inner) (.ofNat (rest.length + 1)) fresh
        dkmsHdr = .ok outer := by
  unfold Suite.layers at made
  cases within : suite.layers fresh dkmsHdr body (next :: rest) with
  | error e =>
    rw [within] at made
    cases made
  | ok pair =>
    obtain ⟨current, further⟩ := pair
    rw [within] at made
    obtain ⟨layer, signed, same⟩ := ok_of_map made
    cases same
    exact ⟨current, further, rfl, rfl, signed⟩

theorem layers_spec {path : List (PathHopSecret × KeyId)}
    (made : suite.layers fresh dkmsHdr body path = .ok (outer, inside)) :
    ∀ layer ∈ outer :: inside, layer.hop ∈ path.map Prod.fst ∧
      (path.length < 2 ^ 31 → layer.maxHops ≤ 0 → layer.plaintext = body ∧
        (path.map Prod.fst).getLast? = some layer.hop) := by
  induction path generalizing outer inside with
  | nil => cases made
  | cons first rest ih =>
    obtain ⟨hop, keyId⟩ := first
    cases rest with
    | nil =>
      obtain ⟨layer, signed, same⟩ := ok_of_map made
      cases same
      obtain ⟨_, _, -, rfl⟩ := sealLayer_eq signed
      intro layer' member
      rw [mem_singleton] at member
      subst member
      exact ⟨mem_singleton.mpr rfl, fun _ _ => ⟨rfl, rfl⟩⟩
    | cons next rest =>
      obtain ⟨current, further, within, rfl, signed⟩ := layers_cons made
      obtain ⟨_, _, -, rfl⟩ := sealLayer_eq signed
      intro layer' member
      rw [length_cons]
      rcases mem_cons.mp member with rfl | deeper
      · -- a layer around another has hops left
        refine ⟨mem_cons_self, fun short last => ?_⟩
        rw [length_cons] at short
        rw [Int32.le_iff_toInt_le, Int32.toInt_ofNat_of_lt (by omega)] at last
        have zero : (0 : Int32).toInt = 0 := rfl
        omega
      obtain ⟨listed, delivers⟩ := ih within layer' deeper
      refine ⟨mem_cons_of_mem _ listed, fun short last => ?_⟩
      obtain ⟨content, final⟩ := delivers (by omega) last
      refine ⟨content, ?_⟩
      rw [map_cons, List.getLast?_cons, final]
      rfl

end

structure Launched (s : OrrService) (path : List String) (payload : Bytes)
    (frame : OrrFrame Header) (layers : List Layer) : Prop where
  session : frame.header.fresh.session = s.onionSession
  held : ∀ layer ∈ layers, s.peers.masterForEpoch layer.hop.orrId layer.hop.epochId =
    some layer.hop.masterSecret
  delivers : path.length < 2 ^ 31 → ∀ layer ∈ layers, layer.maxHops ≤ 0 →
    layer.plaintext = payload ∧ path.getLast? = some layer.hop.orrId

namespace OrrService

variable {suite : Suite Header} {s : OrrService}

theorem draw_fst (hops : List PathHopSecret) (keyIds : Nat → KeyId) :
    (draw hops keyIds).map Prod.fst = hops := by
  unfold draw
  rw [map_map]
  exact zipIdx_map_fst 0 hops

theorem pathHopSecret_ok {orrId : String} {hop : PathHopSecret}
    (found : s.pathHopSecret orrId = .ok hop) : hop.orrId = orrId ∧
      s.peers.masterForEpoch hop.orrId hop.epochId = some hop.masterSecret := by
  unfold pathHopSecret at found
  split at found
  · cases found
  split at found
  · cases found
  split at found
  · cases found
  rename_i held
  cases found
  exact ⟨rfl, held⟩

variable {path : List String} {hops : List PathHopSecret}

theorem pathHopSecrets_ok (resolved : path.mapM s.pathHopSecret = .ok hops) :
    hops.map (·.orrId) = path ∧
      ∀ hop ∈ hops, s.peers.masterForEpoch hop.orrId hop.epochId = some hop.masterSecret := by
  have each := forall₂_of_mapM resolved
  clear resolved
  induction each with
  | nil => exact ⟨rfl, fun hop member => nomatch member⟩
  | cons first _ ih =>
    obtain ⟨same, held⟩ := pathHopSecret_ok first
    refine ⟨by rw [map_cons, same, ih.1], ?_⟩
    intro hop member
    rcases mem_cons.mp member with rfl | later
    · exact held
    · exact ih.2 hop later

variable {keyIds : Nat → KeyId} {frame : OrrFrame Header}

variable {layers : List Layer}

variable {payload dkmsHdr : Bytes}

theorem launched {onion : OnionWire} (named : hops.map (·.orrId) = path)
    (known : ∀ hop ∈ hops, s.peers.masterForEpoch hop.orrId hop.epochId = some hop.masterSecret)
    (made : suite.buildOnion (draw hops keyIds) payload s.nextOnionFreshness.1 dkmsHdr =
      .ok (onion, layers)) (carried : frame.header.fresh = onion.fresh) :
    Launched s path payload frame layers := by
  obtain ⟨⟨outer, inside⟩, sealed, same⟩ := ok_of_map made
  cases same
  have spec := layers_spec sealed
  rw [draw_fst] at spec
  have long : (draw hops keyIds).length = path.length := by
    unfold draw
    rw [← named, length_map, length_zipIdx, length_map]
  constructor
  · rw [carried]
    rfl
  · intro layer member
    exact known _ (spec layer member).1
  intro short layer member last
  rw [← long] at short
  obtain ⟨content, final⟩ := (spec layer member).2 short last
  refine ⟨content, ?_⟩
  rw [← named, List.getLast?_map, final]
  rfl

variable {destOrr : String} {appHeader : Header}

variable {grade : UInt8}

theorem sendOnionPath_eq {fullPath : List String}
    (ok : (s.sendOnionPath suite keyIds destOrr fullPath payload appHeader grade).1 = .ok (frame, layers)) :
    ∃ hops onion qkc, fullPath.mapM s.pathHopSecret = .ok hops ∧
      suite.buildOnion (draw hops keyIds) payload s.nextOnionFreshness.1
        (suite.encodeDkms appHeader) = .ok (onion, layers) ∧
      s.qkcId onion.firstHopOrr = some qkc ∧ frame = s.onionFrame destOrr qkc onion appHeader grade := by
  unfold sendOnionPath at ok
  split at ok
  · cases ok
  rename_i resolved
  dsimp only at ok
  split at ok
  · cases ok
  rename_i made
  split at ok
  · cases ok
  rename_i placed
  cases ok
  exact ⟨_, _, _, resolved, made, placed, rfl⟩

theorem sendOnionPath_ok {fullPath : List String}
    (ok : (s.sendOnionPath suite keyIds destOrr fullPath payload appHeader grade).1 = .ok (frame, layers)) :
    Launched s fullPath payload frame layers := by
  obtain ⟨hops, onion, qkc, resolved, made, -, rfl⟩ := sendOnionPath_eq ok
  obtain ⟨named, known⟩ := pathHopSecrets_ok resolved
  exact launched named known made rfl

/-- One layer for the destination is the onion of the path that has only the destination. -/
theorem sendOnionE2e_path {now : Nat}
    (ok : (s.sendOnionE2e suite keyIds destOrr payload appHeader grade now).1 = .ok (frame, layers)) :
    (s.sendOnionPath suite keyIds destOrr [destOrr] payload appHeader grade).1 = .ok (frame, layers) := by
  unfold sendOnionE2e at ok
  split at ok
  · cases ok
  rename_i placed
  split at ok
  · cases ok
  rename_i epochId sends
  split at ok
  · cases ok
  rename_i secret held
  dsimp only at ok
  split at ok
  · cases ok
  rename_i onion _ made
  cases ok
  have hops : [destOrr].mapM s.pathHopSecret = .ok [⟨destOrr, secret, epochId⟩] := by
    simp only [mapM_cons, mapM_nil, pathHopSecret, placed, sends, held]
    rfl
  have first : onion.firstHopOrr = destOrr := by
    obtain ⟨outer, sealed, same⟩ := ok_of_map made
    obtain ⟨layer, signed, rfl⟩ := ok_of_map sealed
    obtain ⟨ciphertext, tag, -, rfl⟩ := sealLayer_eq signed
    cases same
    rfl
  have there : s.nextOnionFreshness.2.qkcId onion.firstHopOrr = some _ := first ▸ placed
  unfold sendOnionPath
  simp only [hops, made, there]

structure Reregistered (s s' : OrrService) : Prop where
  same : s' = { s with toEstablisher := s'.toEstablisher }
  held : ∀ peer epochId secret, s'.peers.masterForEpoch peer epochId = some secret →
    s.peers.masterForEpoch peer epochId = some secret

theorem Reregistered.refl (s : OrrService) : s.Reregistered s := ⟨rfl, fun _ _ _ held => held⟩

theorem trigger_reregistered (s : OrrService) (peerId : String) (now : Nat) :
    s.Reregistered (s.triggerPassiveRebootstrap peerId now) := by
  unfold triggerPassiveRebootstrap
  rcases s.toEstablisher.trigger_cases peerId now with ⟨-, same⟩ | ⟨-, started⟩
  · rw [same]
    exact .refl s
  · rw [started]
    exact ⟨rfl, fun _ _ _ held => PeerRegistry.masterForEpoch_clear held⟩

theorem sendOnionE2e_after (suite : Suite Header) (s : OrrService) (keyIds : Nat → KeyId)
    (destOrr : String) (payload : Bytes) (appHeader : Header) (grade : UInt8) (now : Nat) :
    (∃ onionCounter, (s.sendOnionE2e suite keyIds destOrr payload appHeader grade now).2 =
      { s with onionCounter }) ∨
    (∃ e, (s.sendOnionE2e suite keyIds destOrr payload appHeader grade now).1 = .error e) ∧
      s.Reregistered (s.sendOnionE2e suite keyIds destOrr payload appHeader grade now).2 := by
  unfold sendOnionE2e
  split
  · exact .inl ⟨_, rfl⟩
  split
  · exact .inr ⟨⟨_, rfl⟩, trigger_reregistered s destOrr now⟩
  split
  · exact .inl ⟨_, rfl⟩
  · dsimp only
    split <;> exact .inl ⟨_, rfl⟩

theorem sendOnionPath_after (suite : Suite Header) (s : OrrService) (keyIds : Nat → KeyId)
    (destOrr : String) (fullPath : List String) (payload : Bytes) (appHeader : Header)
    (grade : UInt8) : ∃ onionCounter,
      (s.sendOnionPath suite keyIds destOrr fullPath payload appHeader grade).2 =
        { s with onionCounter } := by
  unfold sendOnionPath
  split
  · exact ⟨_, rfl⟩
  dsimp only
  split
  · exact ⟨_, rfl⟩
  · split <;> exact ⟨_, rfl⟩

theorem peel_ok {secret xorCt tag : Bytes} {keyId : KeyId} {maxHops : Int32}
    {epochId : UInt32} {fresh : Freshness} {what : Peeled}
    (peeled : suite.peel secret keyId xorCt tag maxHops epochId fresh dkmsHdr = .ok what) :
    ∃ plaintext,
      suite.openLayer secret keyId xorCt tag epochId maxHops fresh dkmsHdr = some plaintext ∧
        ∀ body, what = .deliver body → maxHops ≤ 0 ∧ body = plaintext := by
  unfold Suite.peel at peeled
  split at peeled
  · cases peeled
  rename_i plaintext opened
  refine ⟨plaintext, opened, ?_⟩
  split at peeled
  · rename_i last
    cases peeled
    rintro body same
    cases same
    exact ⟨last, rfl⟩
  · split at peeled
    · cases peeled
    cases peeled
    intro body same
    cases same

/-- What `handle_incoming` can do: drop the frame, hand over a passthrough, or peel a layer and
ask the window of its origin. -/
inductive Handled (suite : Suite Header) (s : OrrService) (frame : OrrFrame Header)
    (readAt acceptAt : Nat) : Incoming Header × OrrService → Prop
  | dropped {result : Incoming Header} {s' : OrrService}
    (undelivered : ∀ m, result ≠ .delivered m) (kept : s.Reregistered s') :
    Handled suite s frame readAt acceptAt (result, s')
  | passed (clear : frame.header.keyId = none) :
    Handled suite s frame readAt acceptAt
      (.delivered (s.broadcastDelivery frame.header frame.dkms frame.payload), s)
  | peeled {keyId : KeyId} {secret plaintext : Bytes} {result : Incoming Header}
    (layer : frame.header.keyId = some keyId)
    (held : s.secretFor suite frame.header frame.epochId = some secret)
    (opened : suite.openLayer secret keyId frame.payload frame.header.tag frame.epochId
      frame.header.maxHops frame.header.fresh (suite.encodeDkms frame.dkms) = some plaintext)
    (delivers : ∀ m, result = .delivered m →
      frame.header.maxHops ≤ 0 ∧ m = s.broadcastDelivery frame.header frame.dkms plaintext ∧
        (s.checkReplay frame.header.fromOrr ⟨frame.header.fresh.session.toNat,
          frame.header.fresh.counter.toNat, readAt, acceptAt⟩).1 = .ok ()) :
    Handled suite s frame readAt acceptAt
      (result, (s.checkReplay frame.header.fromOrr ⟨frame.header.fresh.session.toNat,
        frame.header.fresh.counter.toNat, readAt, acceptAt⟩).2)

theorem handleIncoming_handled (suite : Suite Header) (s : OrrService) (frame : OrrFrame Header)
    (readAt acceptAt : Nat) :
    Handled suite s frame readAt acceptAt (s.handleIncoming suite frame readAt acceptAt) := by
  unfold handleIncoming
  split
  · exact .dropped (fun m same => nomatch same) (.refl s)
  split
  · rename_i clear
    exact .passed clear
  rename_i keyId layer
  unfold handleOnionIn
  split
  · exact .dropped (fun m same => nomatch same) (trigger_reregistered s _ readAt)
  rename_i secret held
  cases peeled : suite.peel secret keyId frame.payload frame.header.tag frame.header.maxHops
      frame.epochId frame.header.fresh (suite.encodeDkms frame.dkms) with
  | error e => exact .dropped (fun m same => nomatch same) (.refl s)
  | ok what =>
    obtain ⟨plaintext, opened, body⟩ := peel_ok peeled
    cases checked : s.checkReplay frame.header.fromOrr ⟨frame.header.fresh.session.toNat,
        frame.header.fresh.counter.toNat, readAt, acceptAt⟩ with
    | mk verdict after =>
      have kept : after = (s.checkReplay frame.header.fromOrr
          ⟨frame.header.fresh.session.toNat, frame.header.fresh.counter.toNat, readAt,
            acceptAt⟩).2 := by rw [checked]
      cases verdict with
      | error e =>
        rw [kept]
        exact .peeled layer held opened fun m same => nomatch same
      | ok _ =>
        have delivers : ∀ m, after.handlePeeled frame.header frame.dkms what = .delivered m →
            frame.header.maxHops ≤ 0 ∧
              m = s.broadcastDelivery frame.header frame.dkms plaintext := by
          intro m delivered
          cases what with
          | deliver text =>
            obtain ⟨last, rfl⟩ := body text rfl
            cases delivered
            rw [kept]
            exact ⟨last, rfl⟩
          | forward inner =>
            unfold handlePeeled at delivered
            dsimp only at delivered
            split at delivered
            · cases delivered
            · split at delivered <;> cases delivered
        rw [kept] at delivers ⊢
        refine .peeled layer held opened fun m same => ?_
        obtain ⟨last, content⟩ := delivers m same
        exact ⟨last, content, by rw [checked]⟩

end OrrService

def plainSuite : Suite Bytes where
  hkdf _ ikm info _ := ikm ++ info
  sha256 := id
  sealDetached key nonce plaintext aad := some (plaintext, key ++ nonce ++ aad)
  openDetached key nonce ciphertext tag aad := if tag = key ++ nonce ++ aad then some ciphertext else none
  encodeInner inner :=
    beBytes 1 inner.nextOrrId.length ++ textBytes inner.nextOrrId ++ beBytes 4 inner.epochId.toNat ++
      beBytes 16 inner.keyId.toNat ++ beBytes 1 inner.xorCt.length ++ inner.xorCt ++ inner.tag
  decodeInner bytes :=
    let named := beNumber (bytes.take 1)
    let rest := bytes.drop (1 + named)
    let length := beNumber ((rest.drop 20).take 1)
    (textOf ((bytes.drop 1).take named)).map fun nextOrrId =>
      { nextOrrId
        epochId := .ofNat (beNumber (rest.take 4))
        keyId := .ofNat 128 (beNumber ((rest.drop 4).take 16))
        xorCt := (rest.drop 21).take length
        tag := rest.drop (21 + length) }
  encodeDkms := id
  toLowercase text := String.ofList (text.toList.map Char.toLower)

theorem plainSuite_unrelated : plainSuite.Unrelated where
  key secret keyId secret' keyId' same := by
    have lengths : (beBytes 16 keyId.toNat ++ aadV3).length =
        (beBytes 16 keyId'.toNat ++ aadV3).length := by
      rw [length_append, length_append, beBytes_length, beBytes_length]
    obtain ⟨secrets, infos⟩ := append_inj' same lengths
    have ids := append_cancel_right infos
    have small : ∀ id : KeyId, id.toNat < 256 ^ 16 := fun id => lt_of_lt_of_eq id.isLt (by norm_num)
    exact ⟨secrets, BitVec.eq_of_toNat_eq (Suite.beBytes_inj (small _) (small _) ids)⟩
  digest := Function.injective_id
  header := Function.injective_id

def trio : Network Bytes := .new (fun _ => 0) fun
  | "orr_1" => 1001
  | "orr_2" => 1002
  | _ => 1003

def trioOwners : Bytes → Sym2 String
  | 12 :: _ => s("orr_1", "orr_2")
  | 13 :: _ => s("orr_1", "orr_3")
  | _ => s("orr_2", "orr_3")

def trioSetup : List (Act Bytes) :=
  [.put "orr_1" "orr_2" 2, .put "orr_1" "orr_3" 3, .put "orr_2" "orr_3" 3,
    .bootstrap "orr_1" "orr_2" [12], .bootstrap "orr_2" "orr_1" [12],
    .bootstrap "orr_1" "orr_3" [13], .bootstrap "orr_3" "orr_1" [13]]

def handOver (acts : List (Act Bytes)) (i : Nat) (x : String)
    (change : OrrFrame Bytes → OrrFrame Bytes) : List (Act Bytes) :=
  acts ++ ((trio.run plainSuite acts).wire[i]?.map fun frame => .inject x (change frame) 0 0).toList

def throughTwo : List (Act Bytes) :=
  let sent := trioSetup ++
    [.sendPath "orr_1" (fun i => .ofNat 128 (7 + i)) "orr_3" ["orr_2", "orr_3"] [42] [5] 0]
  handOver (handOver sent 0 "orr_2" id) 1 "orr_3" id

end Dkms.Orr
