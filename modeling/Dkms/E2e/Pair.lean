import Dkms.Core.Runs
import Dkms.E2e.PeerState

namespace Dkms.E2e

open Function Std Dkms.Core Dkms.Link Dkms.Replay

inductive Side where
  | a
  | b
  deriving DecidableEq

def Side.other : Side → Side
  | .a => .b
  | .b => .a

structure Setup where
  name : Side → String
  cfg : Side → TransportE2eCfg

/-- How far an HTTP request has got. An answer is recorded with the secret it encapsulates and
the incarnation that gave it. -/
inductive Phase where
  | posted
  | admitted
  | refused
  | answered (response : KemResponse) (secret : Bytes) (run : String)
  | lost

structure Exchange where
  asker : Side
  run : String
  request : KemRequest
  phase : Phase

/-- How far the task of `request_agreement` has got. -/
inductive Asking where
  | idle
  | asked
  | waiting (exchange : Nat)
  | taken (exchange : Nat) (response : KemResponse) (esk ct : Bytes)
  | done (ok : Bool)

structure SealedFrame where
  source : Side
  run : String
  secret : Bytes
  keyId : String
  header : Header
  payload : Bytes

/-- What a delivery brings. The text of the tag is not part of what the tag covers. -/
structure Content where
  header : Header
  keyId : String
  payload : Bytes

def Content.of (header : Header) (keyId : String) (payload : Bytes) : Content :=
  ⟨header.erase hdrE2eTag, keyId, payload⟩

structure Pair (setup : Setup) where
  now : Nat
  incarnation : Side → String
  st : (x : Side) → PeerState (setup.cfg x).replayWindow
  asking : Side → Asking
  opening : Side → Option (Content × Opened)
  exchanges : List Exchange
  frames : List SealedFrame
  opened : Side → List (Content × Opened)

inductive Act (Seed : Type) where
  | advance (ms : Nat)
  | requestAgreement (x : Side)
  | beginRequest (x : Side) (seed : Seed)
  | respondAdmit (exchange : Nat)
  | respondStore (exchange : Nat) (seed : Seed) (draws : List Nat)
  | completeTake (x : Side)
  | completeStore (x : Side)
  | lose (x : Side)
  | settle (x : Side)
  | sealFrame (x : Side) (keyId : String) (header : Header) (plaintext : Bytes)
  | openVerify (x : Side) (header : Header) (keyId : String) (payload : Bytes)
  | openCheck (x : Side)
  | restart (x : Side) (incarnation : String)

namespace Pair

variable {Seed : Type} (crypto : Crypto Seed) {setup : Setup}

def new (setup : Setup) (incarnation : Side → String) : Pair setup where
  now := 0
  incarnation
  st _ := .new _
  asking _ := .idle
  opening _ := none
  exchanges := []
  frames := []
  opened _ := []

variable (p : Pair setup)

def setSt (x : Side) (st : PeerState (setup.cfg x).replayWindow) : Pair setup :=
  { p with st := update p.st x st }

def setAsking (x : Side) (asking : Asking) : Pair setup :=
  { p with asking := update p.asking x asking }

def setPhase (i : Nat) (phase : Phase) : Pair setup :=
  { p with exchanges := p.exchanges.modify i fun ex => { ex with phase } }

def requestAgreement (x : Side) : Pair setup :=
  match (p.st x).requestAgreement p.now with
  | (true, st) => (p.setSt x st).setAsking x .asked
  | (false, _) => p

def beginRequest (x : Side) (seed : Seed) : Pair setup :=
  match p.asking x with
  | .asked =>
    match (p.st x).beginRequest crypto (setup.cfg x) seed p.now with
    | (.error _, _) => p.setAsking x (.done false)
    | (.ok request, st) =>
      let p' := (p.setSt x st).setAsking x (.waiting p.exchanges.length)
      { p' with exchanges := p'.exchanges ++ [⟨x, p.incarnation x, request, .posted⟩] }
  | _ => p

def respondAdmit (i : Nat) : Pair setup :=
  match p.exchanges[i]? with
  | some ⟨asker, _, _, .posted⟩ =>
    match (p.st asker.other).respondAdmit (setup.cfg asker.other) p.now with
    | (.error _, st) => (p.setSt asker.other st).setPhase i .refused
    | (.ok (), st) => (p.setSt asker.other st).setPhase i .admitted
  | _ => p

/-- The second half of `respond`; with no number left to draw it is still drawing. -/
def respondStore (i : Nat) (seed : Seed) (draws : List Nat) : Pair setup :=
  match p.exchanges[i]? with
  | some ⟨asker, _, request, .admitted⟩ =>
    let x := asker.other
    match PeerState.respondEncap crypto (setup.cfg x) request seed with
    | .error _ => p.setPhase i .refused
    | .ok (ct, ss) =>
      match (p.st x).freshEpoch draws with
      | none => p
      | some epoch =>
        match (p.st x).respondStore crypto (setup.cfg x) request ct ss epoch p.now with
        | (.error _, _) => p.setPhase i .refused
        | (.ok response, st) =>
          (p.setSt x st).setPhase i (.answered response ss (p.incarnation x))
  | _ => p

def completeTake (x : Side) : Pair setup :=
  match p.asking x with
  | .waiting i =>
    match p.exchanges[i]? with
    | some ⟨_, _, _, .answered response _ _⟩ =>
      match (p.st x).completeTake crypto (setup.cfg x) response p.now with
      | (.error _, st) => (p.setSt x st).setAsking x (.done false)
      | (.ok (esk, ct), st) => (p.setSt x st).setAsking x (.taken i response esk ct)
    | some ⟨_, _, _, .refused⟩ => p.setAsking x (.done false)
    | _ => p
  | _ => p

def completeStore (x : Side) : Pair setup :=
  match p.asking x with
  | .taken _ response esk ct =>
    match (p.st x).completeStore crypto (setup.cfg x) response esk ct p.now with
    | (.error _, _) => p.setAsking x (.done false)
    | (.ok _, st) => (p.setSt x st).setAsking x (.done true)
  | _ => p

def lose (x : Side) : Pair setup :=
  match p.asking x with
  | .waiting _ => p.setAsking x (.done false)
  | _ => p

def settle (x : Side) : Pair setup :=
  match p.asking x with
  | .done ok => (p.setSt x ((p.st x).settle ok)).setAsking x .idle
  | _ => p

/-- The generator writes its incarnation into the header before it seals. -/
def sealFrame (x : Side) (keyId : String) (header : Header) (plaintext : Bytes) : Pair setup :=
  let header := header.insert hdrIncarnation (p.incarnation x)
  match (p.st x).sealFrame crypto (setup.name x) (setup.name x.other) keyId header plaintext with
  | (.error _, st) => p.setSt x st
  | (.ok (header, payload), st) =>
    let secret := ((p.st x).sendEpoch.bind (p.st x).secret).getD []
    let frame := ⟨x, p.incarnation x, secret, keyId, header, payload⟩
    { p.setSt x st with frames := p.frames ++ [frame] }

def openVerify (x : Side) (header : Header) (keyId : String) (payload : Bytes) : Pair setup :=
  match p.opening x with
  | some _ => p
  | none =>
    match (p.st x).openVerify crypto (setup.name x) (setup.name x.other) header keyId payload with
    | .error _ => p
    | .ok opened =>
      { p with
        opening := update p.opening x (some (.of header keyId payload, opened)) }

def openCheck (x : Side) : Pair setup :=
  match p.opening x with
  | none => p
  | some (content, opened) =>
    let p' := { p with opening := update p.opening x none }
    match (p.st x).openCheck opened p.now with
    | (.error _, st) => p'.setSt x st
    | (.ok _, st) =>
      { p'.setSt x st with
        opened := update p.opened x ((content, opened) :: p.opened x) }

def restart (x : Side) (incarnation : String) : Pair setup where
  now := p.now
  incarnation := update p.incarnation x incarnation
  st := update p.st x (.new _)
  asking := update p.asking x .idle
  opening := update p.opening x none
  exchanges := p.exchanges.map fun ex =>
    match ex.phase with
    | .posted | .admitted => if ex.asker = x then ex else { ex with phase := .lost }
    | _ => ex
  frames := p.frames
  opened := p.opened

def next : Act Seed → Pair setup
  | .advance ms => { p with now := p.now + ms }
  | .requestAgreement x => p.requestAgreement x
  | .beginRequest x seed => p.beginRequest crypto x seed
  | .respondAdmit i => p.respondAdmit i
  | .respondStore i seed draws => p.respondStore crypto i seed draws
  | .completeTake x => p.completeTake crypto x
  | .completeStore x => p.completeStore crypto x
  | .lose x => p.lose x
  | .settle x => p.settle x
  | .sealFrame x keyId header plaintext => p.sealFrame crypto x keyId header plaintext
  | .openVerify x header keyId payload => p.openVerify crypto x header keyId payload
  | .openCheck x => p.openCheck x
  | .restart x incarnation => p.restart x incarnation

def run (p : Pair setup) (acts : List (Act Seed)) : Pair setup := acts.foldl (next crypto) p

end Pair

/-- Stand-ins to run the definitions with: the secret repeats the seed of the answer and ends with
the key of the request, and every tag is sixteen zeros. -/
def plainKem : KemSuite UInt8 where
  keygen seed := some ⟨[seed], [seed]⟩
  encap seed pk := some ([seed], List.replicate 31 seed ++ [pk.headD 0])
  decap sk ct := some (List.replicate 31 (ct.headD 0) ++ [sk.headD 0])
  publicKeyLen := 1

def plainCrypto : Crypto UInt8 where
  kemFor _ := some plainKem
  base64 bytes := String.ofList (bytes.map fun byte => Char.ofNat byte.toNat)
  unbase64 text := some (text.toList.map fun c => UInt8.ofNat c.toNat)
  hkdf _ ikm info length := (ikm ++ info).take length
  sealDetached _ _ plaintext _ := some (plaintext, List.replicate 16 0)
  openDetached _ _ ciphertext tag _ := if tag = List.replicate 16 0 then some ciphertext else none

theorem plainCrypto_lawful : plainCrypto.Lawful := by
  constructor
  · intro suite kem found
    cases found
    constructor
    · intro s pair r ct ss made encap
      cases made
      cases encap
      rfl
    · intro r pk ct ss encap
      cases encap
      simp
  · intro bytes
    have byte : ∀ byte : UInt8, UInt8.ofNat (Char.ofNat byte.toNat).toNat = byte := by decide +kernel
    simp [plainCrypto, Function.comp_def, byte]

def plainSetup (keep : Nat) : Setup where
  name
    | .a => "dkms-a"
    | .b => "dkms-b"
  cfg _ := ⟨"ml-kem-768", keep, 64, 64⟩

def agreement (x : Side) (i : Nat) (seed : UInt8) (epoch : Nat) : List (Act UInt8) :=
  [.advance agreementMinInterval, .requestAgreement x, .beginRequest x seed, .respondAdmit i,
    .respondStore i seed [epoch], .completeTake x, .completeStore x, .settle x]

end Dkms.E2e
