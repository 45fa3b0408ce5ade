import Dkms.Core.Results
import Dkms.Link.FrameMac
import Dkms.Orr.Peers

namespace Dkms.Orr

open Function Std Dkms.Core Dkms.Link

structure Kem where
  keygen : Nat → Except String (Bytes × Bytes)
  encap : (pubkey : Bytes) → Nat → Except String (Bytes × Bytes)
  decap : (secret ciphertext : Bytes) → Except String Bytes

def Kem.Correct (kem : Kem) : Prop :=
  ∀ seed pubkey secret coins ciphertext shared, kem.keygen seed = .ok (pubkey, secret) →
    kem.encap pubkey coins = .ok (ciphertext, shared) → kem.decap secret ciphertext = .ok shared

def padded (bytes : Bytes) : Bytes := bytes ++ List.replicate (32 - bytes.length) 0

def byteKem : Kem where
  keygen seed := .ok ([UInt8.ofNat seed], [UInt8.ofNat seed])
  encap pubkey coins := .ok (pubkey ++ [UInt8.ofNat coins], padded (pubkey ++ [UInt8.ofNat coins]))
  decap secret ciphertext :=
    .ok (padded (if ciphertext.take 1 = secret then ciphertext else 0xFF :: ciphertext))

theorem byteKem_correct : byteKem.Correct := by
  intro seed pubkey secret coins ciphertext shared generated made
  cases generated
  cases made
  simp [byteKem]

structure RotationCrates where
  hmac : (key message : Bytes) → Bytes
  kemFor : (suite : String) → Except String Kem
  toLowercase : String → String

def byteCrates : RotationCrates where
  hmac key message := key ++ message
  kemFor _ := .ok byteKem
  toLowercase text := text

inductive RotationError where
  | noBootstrap (peerId : String)
  | rpc
  | remote (text : String)
  | mac
  | pqc (text : String)
  | badSecretLen (length : Nat)

structure RequestEphemeralKey where
  fromOrr : String
  peer : String
  epochId : UInt32
  mac : Bytes

structure EstablishEphemeralSecret where
  fromOrr : String
  peer : String
  epochId : UInt32
  ciphertext : Bytes
  mac : Bytes
  deriving DecidableEq

namespace RotationCrates

section

variable (crates : RotationCrates) (bootstrap : Bytes) (epochId : UInt32) (fromOrr peer : String)

def macReq : Bytes :=
  crates.hmac bootstrap (textBytes "REQ" ++ beBytes 4 epochId.toNat ++ lp16 (textBytes fromOrr) ++
    lp16 (textBytes peer))

def macResp (ephemeralPubkey : Bytes) : Bytes :=
  crates.hmac bootstrap (textBytes "RESP" ++ beBytes 4 epochId.toNat ++ lp16 (textBytes fromOrr) ++
    lp16 (textBytes peer) ++ lp16 ephemeralPubkey)

def macFin (ciphertext : Bytes) : Bytes :=
  crates.hmac bootstrap (textBytes "FIN" ++ beBytes 4 epochId.toNat ++ lp16 (textBytes fromOrr) ++
    lp16 (textBytes peer) ++ lp16 ciphertext)

end

variable (crates : RotationCrates)

def handleRequestEphemeralKey (peers : PeerRegistry) (localOrrId suite : String) (seed : Nat)
    (m : RequestEphemeralKey) : Except String (Bytes × Bytes) × PeerRegistry :=
  let fromOrr := crates.toLowercase m.fromOrr
  let peer := crates.toLowercase m.peer
  if fromOrr = "" ∨ peer = "" then (.error "from/peer required", peers)
  else if peer ≠ localOrrId then
    (.error s!"peer mismatch: expected {localOrrId}, got {peer}", peers)
  else
    match peers.bootstrapSecrets fromOrr with
    | none =>
      (.error s!"no bootstrap_secret for {fromOrr} (initial bootstrap not complete)", peers)
    | some bootstrap =>
      if m.mac ≠ crates.macReq bootstrap m.epochId fromOrr peer then
        (.error "mac_req invalid: invalid MAC", peers)
      else
        match crates.kemFor suite with
        | .error e => (.error s!"kem suite {suite}: {e}", peers)
        | .ok kem =>
          match kem.keygen seed with
          | .error e => (.error s!"keygen: {e}", peers)
          | .ok (pubkey, secret) =>
            (.ok (pubkey, crates.macResp bootstrap m.epochId fromOrr peer pubkey),
              peers.storeEphemeralSk fromOrr m.epochId secret)

/-- The responder's side of the second call. The ephemeral key is gone whatever comes of it. -/
def handleEstablishEphemeralSecret (peers : PeerRegistry) (localOrrId suite : String)
    (epochHistoryKeep : Nat) (m : EstablishEphemeralSecret) : Except String Unit × PeerRegistry :=
  let fromOrr := crates.toLowercase m.fromOrr
  let peer := crates.toLowercase m.peer
  if fromOrr = "" ∨ peer = "" then (.error "from/peer required", peers)
  else if peer ≠ localOrrId then
    (.error s!"peer mismatch: expected {localOrrId}, got {peer}", peers)
  else
    match peers.bootstrapSecrets fromOrr with
    | none =>
      (.error s!"no bootstrap_secret for {fromOrr} (initial bootstrap not complete)", peers)
    | some bootstrap =>
      if m.mac ≠ crates.macFin bootstrap m.epochId fromOrr peer m.ciphertext then
        (.error "mac_fin invalid: invalid MAC", peers)
      else
        match peers.takeEphemeralSk fromOrr m.epochId with
        | (none, peers) =>
          let epochId := m.epochId
          (.error s!"no ephemeral_sk for ({fromOrr}, epoch={epochId}) — out-of-order FIN?", peers)
        | (some esk, peers) =>
          match crates.kemFor suite with
          | .error e => (.error s!"kem suite {suite}: {e}", peers)
          | .ok kem =>
            match kem.decap esk m.ciphertext with
            | .error e => (.error s!"decap: {e}", peers)
            | .ok secret =>
              let length := secret.length
              if length ≠ 32 then (.error s!"shared_secret unexpected len {length}", peers)
              else
                (.ok (), (peers.setMasterForEpoch fromOrr m.epochId secret).dropOldEpochsFor
                  fromOrr epochHistoryKeep)

section

variable (crates : RotationCrates) (peers : PeerRegistry) (localOrrId suite : String)

theorem handleRequest_cases (seed : Nat) (m : RequestEphemeralKey) :
    (∃ text, crates.handleRequestEphemeralKey peers localOrrId suite seed m =
        (.error text, peers)) ∨
      ∃ kem pubkey secret mac, crates.kemFor suite = .ok kem ∧
        kem.keygen seed = .ok (pubkey, secret) ∧
        crates.handleRequestEphemeralKey peers localOrrId suite seed m = (.ok (pubkey, mac),
            peers.storeEphemeralSk (crates.toLowercase m.fromOrr) m.epochId secret) := by
  unfold handleRequestEphemeralKey
  dsimp only
  split
  · exact .inl ⟨_, rfl⟩
  split
  · exact .inl ⟨_, rfl⟩
  split
  · exact .inl ⟨_, rfl⟩
  split
  · exact .inl ⟨_, rfl⟩
  split
  · exact .inl ⟨_, rfl⟩
  rename_i kem suited
  split
  · exact .inl ⟨_, rfl⟩
  rename_i pubkey secret made
  exact .inr ⟨kem, pubkey, secret, _, suited, made, rfl⟩

/-- A FIN is refused with the master secrets as they were and no ephemeral key more than before,
or what it decapsulates to with the stored key becomes the secret of its epoch. -/
theorem handleEstablish_cases (epochHistoryKeep : Nat) (m : EstablishEphemeralSecret) :
    (∃ text, crates.handleEstablishEphemeralSecret peers localOrrId suite epochHistoryKeep m =
        (.error text, peers)) ∨
      (∃ text, crates.handleEstablishEphemeralSecret peers localOrrId suite epochHistoryKeep m =
        (.error text, (peers.takeEphemeralSk (crates.toLowercase m.fromOrr) m.epochId).2)) ∨
      ∃ kem esk secret, crates.kemFor suite = .ok kem ∧
        (peers.ephemeralSks (crates.toLowercase m.fromOrr))[m.epochId]? = some esk ∧
        kem.decap esk m.ciphertext = .ok secret ∧
        crates.handleEstablishEphemeralSecret peers localOrrId suite epochHistoryKeep m =
          (.ok (), ((peers.takeEphemeralSk (crates.toLowercase m.fromOrr) m.epochId).2
            |>.setMasterForEpoch (crates.toLowercase m.fromOrr) m.epochId secret
            |>.dropOldEpochsFor (crates.toLowercase m.fromOrr) epochHistoryKeep)) := by
  unfold handleEstablishEphemeralSecret
  dsimp only
  split
  · exact .inl ⟨_, rfl⟩
  split
  · exact .inl ⟨_, rfl⟩
  split
  · exact .inl ⟨_, rfl⟩
  split
  · exact .inl ⟨_, rfl⟩
  split
  · rename_i took
    rw [took]
    exact .inr (.inl ⟨_, rfl⟩)
  rename_i esk peers' took
  have stored := congrArg Prod.fst took
  rw [took]
  split
  · exact .inr (.inl ⟨_, rfl⟩)
  rename_i kem suited
  split
  · exact .inr (.inl ⟨_, rfl⟩)
  rename_i secret opened
  split
  · exact .inr (.inl ⟨_, rfl⟩)
  exact .inr (.inr ⟨kem, esk, secret, suited, stored, opened, rfl⟩)

end

end RotationCrates

inductive RotationMac where
  | req (epochId : UInt32) (fromOrr peer : String)
  | resp (epochId : UInt32) (fromOrr peer : String) (ephemeralPubkey : Bytes)
  | fin (epochId : UInt32) (fromOrr peer : String) (ciphertext : Bytes)

namespace RotationMac

def mac (crates : RotationCrates) (bootstrap : Bytes) : RotationMac → Bytes
  | .req epochId fromOrr peer => crates.macReq bootstrap epochId fromOrr peer
  | .resp epochId fromOrr peer pubkey => crates.macResp bootstrap epochId fromOrr peer pubkey
  | .fin epochId fromOrr peer ciphertext => crates.macFin bootstrap epochId fromOrr peer ciphertext

/-- What HMAC is fed with, as one that returns its message shows it. -/
def authenticated (crates : RotationCrates) (m : RotationMac) : Bytes :=
  m.mac { crates with hmac := fun _ message => message } []

def Short : RotationMac → Prop
  | .req _ fromOrr peer => (textBytes fromOrr).length ≤ 65535 ∧ (textBytes peer).length ≤ 65535
  | .resp _ fromOrr peer blob | .fin _ fromOrr peer blob =>
    (textBytes fromOrr).length ≤ 65535 ∧ (textBytes peer).length ≤ 65535 ∧ blob.length ≤ 65535

theorem parties_determined {epochId epochId' : UInt32} {x x' y y' : String} {r s : Bytes}
    (shortX : (textBytes x).length ≤ 65535) (shortX' : (textBytes x').length ≤ 65535)
    (shortY : (textBytes y).length ≤ 65535) (shortY' : (textBytes y').length ≤ 65535)
    (same : beBytes 4 epochId.toNat ++ (lp16 (textBytes x) ++ (lp16 (textBytes y) ++ r)) =
      beBytes 4 epochId'.toNat ++ (lp16 (textBytes x') ++ (lp16 (textBytes y') ++ s))) :
    epochId = epochId' ∧ x = x' ∧ y = y' ∧ r = s := by
  obtain ⟨epoch, same⟩ := delimited_beBytes 4 _ _ _ _ epochId.toNat_lt epochId'.toNat_lt same
  obtain ⟨first, same⟩ := lp16_delimited _ _ _ _ shortX shortX' same
  obtain ⟨second, same⟩ := lp16_delimited _ _ _ _ shortY shortY' same
  exact ⟨UInt32.toNat_inj.mp epoch, textBytes_injective first, textBytes_injective second, same⟩

/-- The three tags are no prefixes of each other, and behind a tag every field shows its end. -/
theorem rotation_macs_unambiguous (crates : RotationCrates) (bootstrap : Bytes) (m m' : RotationMac)
    (short : m.Short) (short' : m'.Short) :
    m.mac crates bootstrap = crates.hmac bootstrap (m.authenticated crates) ∧
      (m.authenticated crates = m'.authenticated crates → m = m') := by
  refine ⟨by cases m <;> rfl, fun same => ?_⟩
  have blobs : ∀ {blob blob' : Bytes}, blob.length ≤ 65535 → blob'.length ≤ 65535 →
      lp16 blob = lp16 blob' → blob = blob' := by
    intro blob blob' short short' same
    exact (lp16_delimited blob blob' [] [] short short' (by rw [same])).1
  have req : textBytes "REQ" = [82, 69, 81] := by decide
  have resp : textBytes "RESP" = [82, 69, 83, 80] := by decide
  have fin : textBytes "FIN" = [70, 73, 78] := by decide
  cases m <;> cases m' <;>
    simp only [authenticated, mac, RotationCrates.macReq, RotationCrates.macResp,
      RotationCrates.macFin, req, resp, fin, List.cons_append, List.nil_append, List.append_assoc,
      List.cons.injEq, true_and] at same
  case req.req epochId x y epochId' x' y' =>
    rw [← List.append_nil (lp16 (textBytes y)), ← List.append_nil (lp16 (textBytes y'))] at same
    obtain ⟨rfl, rfl, rfl, -⟩ := parties_determined short.1 short'.1 short.2 short'.2 same
    rfl
  case resp.resp =>
    obtain ⟨rfl, rfl, rfl, blob⟩ := parties_determined short.1 short'.1 short.2.1 short'.2.1 same
    rw [blobs short.2.2 short'.2.2 blob]
  case fin.fin =>
    obtain ⟨rfl, rfl, rfl, blob⟩ := parties_determined short.1 short'.1 short.2.1 short'.2.1 same
    rw [blobs short.2.2 short'.2.2 blob]
  all_goals simp at same

theorem rotation_macs_unambiguous_names :
    (req 1 "a" "bb").authenticated byteCrates ≠ (req 1 "ab" "b").authenticated byteCrates := by
  intro same
  have equal := (rotation_macs_unambiguous byteCrates [] (.req 1 "a" "bb") (.req 1 "ab" "b")
    ⟨by decide, by decide⟩ ⟨by decide, by decide⟩).2 same
  simp at equal

end RotationMac

def nextEpoch (epochId : UInt32) : UInt32 := if epochId = 0xFFFFFFFF then epochId else epochId + 1

theorem lt_nextEpoch {epochId : UInt32} (room : epochId ≠ 0xFFFFFFFF) :
    epochId < nextEpoch epochId := by
  have room' : epochId.toNat ≠ 4294967295 := by
    intro full
    exact room (UInt32.toNat_inj.mp full)
  have bound := epochId.toNat_lt
  rw [nextEpoch, if_neg room, UInt32.lt_iff_toNat_lt, UInt32.toNat_add, UInt32.toNat_one]
  omega

section

variable (crates : RotationCrates) (suite : String) (peers : PeerRegistry)
  (localOrrId peerId : String)

def startRotation : Except RotationError (Bytes × RequestEphemeralKey) :=
  match peers.bootstrapSecrets peerId with
  | none => .error (.noBootstrap peerId)
  | some bootstrap =>
    let epochId := nextEpoch ((peers.currentSendEpochs peerId).getD 0)
    .ok (bootstrap, ⟨localOrrId, peerId, epochId, crates.macReq bootstrap epochId localOrrId peerId⟩)

/-- From the answer of the first call up to the second: the new secret is in the registry before
the peer can have it. -/
def installRotation (bootstrap : Bytes) (epochId : UInt32)
    (reply : Except String (Bytes × Bytes)) (coins : Nat) :
    Except RotationError (EstablishEphemeralSecret × PeerRegistry) :=
  match reply with
  | .error text => .error (.remote text)
  | .ok (pubkey, mac) =>
    if mac ≠ crates.macResp bootstrap epochId localOrrId peerId pubkey then .error .mac
    else
      match crates.kemFor suite with
      | .error text => .error (.pqc text)
      | .ok kem =>
        match kem.encap pubkey coins with
        | .error text => .error (.pqc text)
        | .ok (ciphertext, secret) =>
          if secret.length ≠ 32 then .error (.badSecretLen secret.length)
          else
            .ok (⟨localOrrId, peerId, epochId, ciphertext,
                crates.macFin bootstrap epochId localOrrId peerId ciphertext⟩,
              peers.setMasterForEpoch peerId epochId secret)

def finishRotation (epochId : UInt32) (reply : Option (Except String Unit)) :
    Except RotationError UInt32 × PeerRegistry :=
  match reply with
  | none => (.error .rpc, peers.removeMasterEpoch peerId epochId)
  | some (.error text) => (.error (.remote text), peers.removeMasterEpoch peerId epochId)
  | some (.ok ()) => (.ok epochId, peers.setCurrentSendEpoch peerId epochId)

end

inductive Phase where
  | idle
  | requested (attempt : Nat) (bootstrap : Bytes) (epochId : UInt32)
  | installed (attempt : Nat) (epochId : UInt32) (fin : EstablishEphemeralSecret)
  | finishing (attempt : Nat) (epochId : UInt32)
  deriving DecidableEq

/-- An initiator and a responder, with all that was sent between them. A call that was answered is
answered once; the answer may never arrive. -/
structure Rotating where
  initiator : PeerRegistry
  responder : PeerRegistry
  phase : Phase
  attempts : Nat
  requests : Nat → Option RequestEphemeralKey
  requestReplies : Nat → Option (Except String (Bytes × Bytes))
  fins : Nat → Option EstablishEphemeralSecret
  finReplies : Nat → Option (Except String Unit)

namespace Rotating

inductive Act where
  | start
  | deliverRequest (attempt seed : Nat)
  | install (coins : Nat)
  | sendFin
  | deliverFin (attempt : Nat)
  | finish
  | giveUp
  | pruneInitiator (keepLastN : Nat)
  | pruneResponder (keepLastN : Nat)
  | replayRequest (attempt seed : Nat)
  | replayFin (attempt : Nat)

def new (initiator responder : PeerRegistry) : Rotating where
  initiator
  responder
  phase := .idle
  attempts := 0
  requests _ := none
  requestReplies _ := none
  fins _ := none
  finReplies _ := none

variable (crates : RotationCrates) (suite a b : String) (epochHistoryKeep : Nat) (st : Rotating)

def next : Act → Rotating
  | .start =>
    match st.phase with
    | .idle =>
      match startRotation crates st.initiator a b with
      | .error _ => st
      | .ok (bootstrap, request) =>
        { st with
          phase := .requested st.attempts bootstrap request.epochId
          attempts := st.attempts + 1
          requests := update st.requests st.attempts (some request) }
    | _ => st
  | .deliverRequest attempt seed =>
    match st.requests attempt, st.requestReplies attempt with
    | some request, none =>
      let (reply, responder) := crates.handleRequestEphemeralKey st.responder b suite seed request
      { st with
        responder
        requestReplies := update st.requestReplies attempt (some reply) }
    | _, _ => st
  | .install coins =>
    match st.phase with
    | .requested attempt bootstrap epochId =>
      match st.requestReplies attempt with
      | none => st
      | some reply =>
        match installRotation crates suite st.initiator a b bootstrap epochId reply coins with
        | .error _ => { st with phase := .idle }
        | .ok (fin, initiator) => { st with initiator, phase := .installed attempt epochId fin }
    | _ => st
  | .sendFin =>
    match st.phase with
    | .installed attempt epochId fin =>
      { st with
        phase := .finishing attempt epochId
        fins := update st.fins attempt (some fin) }
    | _ => st
  | .deliverFin attempt =>
    match st.fins attempt, st.finReplies attempt with
    | some fin, none =>
      let (reply, responder) :=
        crates.handleEstablishEphemeralSecret st.responder b suite epochHistoryKeep fin
      { st with
        responder
        finReplies := update st.finReplies attempt (some reply) }
    | _, _ => st
  | .finish =>
    match st.phase with
    | .finishing attempt epochId =>
      match st.finReplies attempt with
      | none => st
      | some reply =>
        { st with
          initiator := (finishRotation st.initiator b epochId (some reply)).2
          phase := .idle }
    | _ => st
  | .giveUp =>
    match st.phase with
    | .requested _ _ _ => { st with phase := .idle }
    | .finishing _ epochId =>
      { st with
        initiator := (finishRotation st.initiator b epochId none).2
        phase := .idle }
    | _ => st
  | .pruneInitiator keepLastN => { st with initiator := st.initiator.dropOldEpochsFor b keepLastN }
  | .pruneResponder keepLastN => { st with responder := st.responder.dropOldEpochsFor a keepLastN }
  | .replayRequest attempt seed =>
    match st.requests attempt with
    | none => st
    | some request =>
      { st with
        responder := (crates.handleRequestEphemeralKey st.responder b suite seed request).2 }
  | .replayFin attempt =>
    match st.fins attempt with
    | none => st
    | some fin =>
      { st with
        responder := (crates.handleEstablishEphemeralSecret st.responder b suite epochHistoryKeep fin).2 }

def run (acts : List Act) : Rotating := acts.foldl (next crates suite a b epochHistoryKeep) st

inductive Step : Act → Rotating → Prop
  | stays (act : Act) : Step act st
  | started {bootstrap : Bytes} {request : RequestEphemeralKey} (idle : st.phase = .idle)
      (sender : request.fromOrr = a)
      (epoch : request.epochId = nextEpoch ((st.initiator.currentSendEpochs b).getD 0)) :
      Step .start
        { st with
          phase := .requested st.attempts bootstrap request.epochId
          attempts := st.attempts + 1
          requests := update st.requests st.attempts (some request) }
  | requestHandled {n seed : Nat} {request : RequestEphemeralKey}
      {reply : Except String (Bytes × Bytes)} {responder : PeerRegistry}
      (sent : st.requests n = some request) (first : st.requestReplies n = none)
      (handled : crates.handleRequestEphemeralKey st.responder b suite seed request = (reply, responder)) :
      Step (.deliverRequest n seed)
        { st with
          responder
          requestReplies := update st.requestReplies n (some reply) }
  | notInstalled {n : Nat} {bootstrap : Bytes} {epochId : UInt32} (coins : Nat)
      (waiting : st.phase = .requested n bootstrap epochId) :
      Step (.install coins) { st with phase := .idle }
  | installed {n : Nat} {bootstrap : Bytes} {epochId : UInt32} {coins : Nat}
      {pubkey mac secret : Bytes} {kem : Kem} {fin : EstablishEphemeralSecret}
      (waiting : st.phase = .requested n bootstrap epochId)
      (answered : st.requestReplies n = some (.ok (pubkey, mac)))
      (suited : crates.kemFor suite = .ok kem)
      (made : kem.encap pubkey coins = .ok (fin.ciphertext, secret))
      (sender : fin.fromOrr = a) (epoch : fin.epochId = epochId) :
      Step (.install coins)
        { st with
          initiator := st.initiator.setMasterForEpoch b epochId secret
          phase := .installed n epochId fin }
  | finSent {n : Nat} {epochId : UInt32} {fin : EstablishEphemeralSecret}
      (ready : st.phase = .installed n epochId fin) :
      Step .sendFin
        { st with
          phase := .finishing n epochId
          fins := update st.fins n (some fin) }
  | finHandled {n : Nat} {fin : EstablishEphemeralSecret} {reply : Except String Unit}
      {responder : PeerRegistry} (sent : st.fins n = some fin) (first : st.finReplies n = none)
      (handled : crates.handleEstablishEphemeralSecret st.responder b suite epochHistoryKeep fin =
        (reply, responder)) :
      Step (.deliverFin n)
        { st with
          responder
          finReplies := update st.finReplies n (some reply) }
  | committed {n : Nat} {epochId : UInt32} (waiting : st.phase = .finishing n epochId)
      (accepted : st.finReplies n = some (.ok ())) :
      Step .finish
        { st with
          initiator := st.initiator.setCurrentSendEpoch b epochId
          phase := .idle }
  | rolledBack {n : Nat} {epochId : UInt32} {text : String}
      (waiting : st.phase = .finishing n epochId)
      (refused : st.finReplies n = some (.error text)) :
      Step .finish
        { st with
          initiator := st.initiator.removeMasterEpoch b epochId
          phase := .idle }
  | requestGivenUp {n : Nat} {bootstrap : Bytes} {epochId : UInt32}
      (waiting : st.phase = .requested n bootstrap epochId) :
      Step .giveUp { st with phase := .idle }
  | finGivenUp {n : Nat} {epochId : UInt32} (waiting : st.phase = .finishing n epochId) :
      Step .giveUp
        { st with
          initiator := st.initiator.removeMasterEpoch b epochId
          phase := .idle }
  | initiatorPruned (keepLastN : Nat) :
      Step (.pruneInitiator keepLastN)
        { st with initiator := st.initiator.dropOldEpochsFor b keepLastN }
  | responderPruned (keepLastN : Nat) :
      Step (.pruneResponder keepLastN)
        { st with responder := st.responder.dropOldEpochsFor a keepLastN }
  | requestReplayed {n seed : Nat} {request : RequestEphemeralKey}
      {reply : Except String (Bytes × Bytes)} {responder : PeerRegistry}
      (sent : st.requests n = some request)
      (handled : crates.handleRequestEphemeralKey st.responder b suite seed request = (reply, responder)) :
      Step (.replayRequest n seed) { st with responder }
  | finReplayed {n : Nat} {fin : EstablishEphemeralSecret} {reply : Except String Unit}
      {responder : PeerRegistry} (sent : st.fins n = some fin)
      (handled : crates.handleEstablishEphemeralSecret st.responder b suite epochHistoryKeep fin =
        (reply, responder)) :
      Step (.replayFin n) { st with responder }

variable {crates suite a b epochHistoryKeep st}

theorem startRotation_ok {bootstrap : Bytes} {request : RequestEphemeralKey}
    (ok : startRotation crates st.initiator a b = .ok (bootstrap, request)) : request.fromOrr = a ∧
      request.epochId = nextEpoch ((st.initiator.currentSendEpochs b).getD 0) := by
  unfold startRotation at ok
  split at ok
  · cases ok
  · cases ok
    exact ⟨rfl, rfl⟩

theorem installRotation_ok {peers initiator : PeerRegistry} {bootstrap : Bytes} {epochId : UInt32}
    {reply : Except String (Bytes × Bytes)} {coins : Nat} {fin : EstablishEphemeralSecret}
    (ok : installRotation crates suite peers a b bootstrap epochId reply coins = .ok (fin, initiator)) :
    ∃ pubkey mac kem secret, reply = .ok (pubkey, mac) ∧ crates.kemFor suite = .ok kem ∧
      kem.encap pubkey coins = .ok (fin.ciphertext, secret) ∧ fin.fromOrr = a ∧
      fin.epochId = epochId ∧ initiator = peers.setMasterForEpoch b epochId secret := by
  unfold installRotation at ok
  split at ok
  · cases ok
  rename_i pubkey mac
  split at ok
  · cases ok
  split at ok
  · cases ok
  rename_i kem suited
  split at ok
  · cases ok
  rename_i ciphertext secret made
  split at ok
  · cases ok
  cases ok
  exact ⟨pubkey, mac, kem, secret, rfl, suited, made, rfl, rfl, rfl⟩

theorem next_step (act : Act) : Step crates suite a b epochHistoryKeep st act
      (next crates suite a b epochHistoryKeep st act) := by
  cases act with
  | start =>
    simp only [next]
    split
    · rename_i idle
      split
      · exact .stays _
      rename_i started
      obtain ⟨sender, epoch⟩ := startRotation_ok started
      exact .started idle sender epoch
    · exact .stays _
  | deliverRequest n seed =>
    simp only [next]
    split
    · rename_i sent first
      exact .requestHandled sent first rfl
    · exact .stays _
  | install coins =>
    simp only [next]
    split
    · rename_i waiting
      split
      · exact .stays _
      rename_i answered
      split
      · exact .notInstalled coins waiting
      rename_i done
      obtain ⟨pubkey, mac, kem, secret, rfl, suited, made, sender, epoch, rfl⟩ := installRotation_ok done
      exact .installed waiting answered suited made sender epoch
    · exact .stays _
  | sendFin =>
    simp only [next]
    split
    · rename_i ready
      exact .finSent ready
    · exact .stays _
  | deliverFin n =>
    simp only [next]
    split
    · rename_i sent first
      exact .finHandled sent first rfl
    · exact .stays _
  | finish =>
    simp only [next]
    split
    · rename_i waiting
      split
      · exact .stays _
      rename_i reply replied
      cases reply with
      | error text => exact .rolledBack waiting replied
      | ok => exact .committed waiting replied
    · exact .stays _
  | giveUp =>
    simp only [next]
    split
    · rename_i waiting
      exact .requestGivenUp waiting
    · rename_i waiting
      exact .finGivenUp waiting
    · exact .stays _
  | pruneInitiator keepLastN => exact .initiatorPruned keepLastN
  | pruneResponder keepLastN => exact .responderPruned keepLastN
  | replayRequest n seed =>
    simp only [next]
    split
    · exact .stays _
    · rename_i sent
      exact .requestReplayed sent rfl
  | replayFin n =>
    simp only [next]
    split
    · exact .stays _
    · rename_i sent
      exact .finReplayed sent rfl

structure Numbered (a b : String) (st : Rotating) : Prop where
  request : ∀ n request, st.requests n = some request → n < st.attempts ∧ request.fromOrr = a
  requestReply : ∀ n reply, st.requestReplies n = some reply → n < st.attempts
  fin : ∀ n fin, st.fins n = some fin → n < st.attempts ∧ fin.fromOrr = a
  finReply : ∀ n reply, st.finReplies n = some reply → ∃ fin, st.fins n = some fin
  requested : ∀ n bootstrap epochId, st.phase = .requested n bootstrap epochId →
    n < st.attempts ∧ st.fins n = none ∧
      epochId = nextEpoch ((st.initiator.currentSendEpochs b).getD 0) ∧
      ∀ request, st.requests n = some request → request.epochId = epochId
  installed : ∀ n epochId fin, st.phase = .installed n epochId fin →
    n < st.attempts ∧ st.fins n = none ∧
      epochId = nextEpoch ((st.initiator.currentSendEpochs b).getD 0) ∧
      fin.fromOrr = a ∧ fin.epochId = epochId
  finishing : ∀ n epochId, st.phase = .finishing n epochId →
    epochId = nextEpoch ((st.initiator.currentSendEpochs b).getD 0) ∧
      ∃ fin, st.fins n = some fin ∧ fin.epochId = epochId

theorem new_numbered (initiator responder : PeerRegistry) :
    Numbered a b (new initiator responder) where
  request _ _ sent := nomatch sent
  requestReply _ _ answered := nomatch answered
  fin _ _ sent := nomatch sent
  finReply _ _ answered := nomatch answered
  requested _ _ _ waiting := nomatch waiting
  installed _ _ _ ready := nomatch ready
  finishing _ _ waiting := nomatch waiting

theorem Numbered.step {st' : Rotating} {act : Act} (numbered : Numbered a b st)
    (step : Step crates suite a b epochHistoryKeep st act st') : Numbered a b st' := by
  obtain ⟨request, requestReply, fin, finReply, requested, installed, finishing⟩ := numbered
  cases step with
  | @started bootstrap asked idle sender epoch =>
    have unused : st.fins st.attempts = none := by
      cases held : st.fins st.attempts with
      | none => rfl
      | some early =>
        have := (fin _ _ held).1
        omega
    refine ⟨?_, ?_, ?_, finReply, ?_, nofun, nofun⟩
    · intro n found sent
      rcases update_cases sent with ⟨rfl, rfl⟩ | ⟨-, sent⟩
      · exact ⟨Nat.lt_succ_self _, sender⟩
      · have := request n found sent
        exact ⟨Nat.lt_succ_of_lt this.1, this.2⟩
    · intro n reply answered
      exact Nat.lt_succ_of_lt (requestReply n reply answered)
    · intro n found sent
      have := fin n found sent
      exact ⟨Nat.lt_succ_of_lt this.1, this.2⟩
    rintro n bootstrap' epochId ⟨⟩
    refine ⟨Nat.lt_succ_self _, unused, epoch, ?_⟩
    intro found sent
    rcases update_cases sent with ⟨-, rfl⟩ | ⟨other, -⟩
    · rfl
    · exact absurd rfl other
  | @requestHandled n seed asked reply responder sent first handled =>
    refine ⟨request, ?_, fin, finReply, requested, installed, finishing⟩
    intro k found answered
    rcases update_cases answered with ⟨rfl, -⟩ | ⟨-, answered⟩
    · exact (request _ _ sent).1
    · exact requestReply k found answered
  | notInstalled => exact ⟨request, requestReply, fin, finReply, nofun, nofun, nofun⟩
  | @installed n bootstrap epochId coins pubkey mac secret kem fin' waiting answered suited made
      sender epoch =>
    obtain ⟨early, unsent, next, -⟩ := requested n bootstrap epochId waiting
    refine ⟨request, requestReply, fin, finReply, nofun, ?_, nofun⟩
    rintro k epochId' fin'' ⟨⟩
    exact ⟨early, unsent, next, sender, epoch⟩
  | @finSent n epochId fin' ready =>
    obtain ⟨early, unsent, next, sender, epoch⟩ := installed n epochId fin' ready
    refine ⟨request, requestReply, ?_, ?_, nofun, nofun, ?_⟩
    · intro k found sent
      rcases update_cases sent with ⟨rfl, rfl⟩ | ⟨-, sent⟩
      · exact ⟨early, sender⟩
      · exact fin k found sent
    · intro k reply answered
      by_cases same : k = n
      · exact ⟨fin', by rw [same]; exact update_self ..⟩
      · obtain ⟨found, sent⟩ := finReply k reply answered
        exact ⟨found, by rw [← sent]; exact update_of_ne same ..⟩
    · rintro k epochId' ⟨⟩
      exact ⟨next, fin', update_self .., epoch⟩
  | @finHandled n fin' reply responder sent first handled =>
    refine ⟨request, requestReply, fin, ?_, requested, installed, finishing⟩
    intro k found answered
    rcases update_cases answered with ⟨rfl, -⟩ | ⟨-, answered⟩
    · exact ⟨fin', sent⟩
    · exact finReply k found answered
  | committed => exact ⟨request, requestReply, fin, finReply, nofun, nofun, nofun⟩
  | rolledBack => exact ⟨request, requestReply, fin, finReply, nofun, nofun, nofun⟩
  | requestGivenUp => exact ⟨request, requestReply, fin, finReply, nofun, nofun, nofun⟩
  | finGivenUp => exact ⟨request, requestReply, fin, finReply, nofun, nofun, nofun⟩
  | _ => exact ⟨request, requestReply, fin, finReply, requested, installed, finishing⟩

end Rotating

end Dkms.Orr
