import Dkms.E2e.Pair

namespace Dkms.E2e

open Function Std Dkms.Core Dkms.Link Dkms.Replay TreeMap PeerState

variable {Seed : Type} {crypto : Crypto Seed} {setup : Setup}

structure PeerState.Keeps {window : Nat} (st old : PeerState window) : Prop where
  epochs : st.epochs = old.epochs
  pendingEsk : st.pendingEsk = old.pendingEsk
  inflight : st.inflight = old.inflight
  replay : st.replay = old.replay

def KeyedBy (crypto : Crypto Seed) (esk : Bytes) (request : KemRequest) : Prop :=
  ∃ kem seed pair, crypto.kemFor request.suite = some kem ∧ kem.keygen seed = some pair ∧
    pair.secretKey = esk ∧ request.epk = crypto.base64 pair.publicKey

def Encapsulates (crypto : Crypto Seed) (request : KemRequest) (response : KemResponse)
    (secret : Bytes) : Prop :=
  ∃ kem seed pk ct, crypto.kemFor request.suite = some kem ∧
    crypto.unbase64 request.epk = some pk ∧ kem.encap seed pk = some (ct, secret) ∧
    response.suite = request.suite ∧ response.ct = crypto.base64 ct

theorem decap_of_encapsulates (lawful : crypto.Lawful) {esk ct secret : Bytes}
    {request : KemRequest} {response : KemResponse} (keyed : KeyedBy crypto esk request)
    (made : Encapsulates crypto request response secret)
    (sent : crypto.unbase64 response.ct = some ct) :
    (crypto.kemFor response.suite).bind (·.decap esk ct) = some secret := by
  obtain ⟨kem, seed, pair, suite, keygen, rfl, epk⟩ := keyed
  obtain ⟨kem', seed', pk, ct', suite', decoded, encap, sameSuite, cipher⟩ := made
  rw [suite] at suite'
  cases suite'
  rw [epk, lawful.base64] at decoded
  cases decoded
  rw [cipher, lawful.base64] at sent
  cases sent
  rw [sameSuite, suite]
  exact (lawful.kem _ kem suite).shared seed pair seed' ct secret keygen encap

namespace PeerState

variable {window : Nat} {st st' : PeerState window}

variable {ss plaintext : Bytes}

theorem store_ok {epoch keep now : Nat} (stored : st.store epoch ss keep now = .ok st') :
    st'.epochs = pushEpoch st.epochs epoch ss keep ∧ st'.pendingEsk = st.pendingEsk ∧
      st'.inflight = st.inflight ∧ st'.replay = st.replay := by
  unfold store at stored
  split at stored
  · cases stored
  · cases stored
    exact ⟨rfl, rfl, rfl, rfl⟩

theorem mem_pushEpoch {epochs : List (Nat × Bytes)} {epoch keep : Nat}
    {entry : Nat × Bytes} (member : entry ∈ pushEpoch epochs epoch ss keep) :
    entry = (epoch, ss) ∨ entry ∈ epochs := by
  unfold pushEpoch at member
  have listed := List.mem_of_mem_drop member
  rcases List.mem_append.mp listed with old | new
  · exact .inr (List.mem_of_mem_filter old)
  · exact .inl (List.mem_singleton.mp new)

theorem secret_mem {epoch : Nat} {s : Bytes} (held : st.secret epoch = some s) :
    (epoch, s) ∈ st.epochs := by
  unfold secret at held
  obtain ⟨entry, found, rfl⟩ := Option.map_eq_some_iff.mp held
  have number : entry.1 = epoch := by simpa using List.find?_some found
  exact number ▸ List.mem_of_find?_eq_some found

theorem freshEpoch_not_mem {draws : List Nat} {epoch : Nat}
    (drawn : st.freshEpoch draws = some epoch) : epoch ∉ st.epochs.map (·.1) := by
  have fresh := List.find?_some drawn
  rw [Bool.and_eq_true, Bool.not_eq_true', List.any_eq_false] at fresh
  intro member
  obtain ⟨entry, listed, same⟩ := List.mem_map.mp member
  exact fresh.2 entry listed (decide_eq_true same)

theorem respondAdmit_keeps (cfg : TransportE2eCfg) (st : PeerState window) (now : Nat) :
    (st.respondAdmit cfg now).2.Keeps st := by
  unfold respondAdmit
  split
  · split <;> exact ⟨rfl, rfl, rfl, rfl⟩
  · exact ⟨rfl, rfl, rfl, rfl⟩

variable {peer keyId : String}

theorem sealMaterial_keeps : (st.sealMaterial peer keyId).2.Keeps st := by
  unfold sealMaterial
  split
  · exact ⟨rfl, rfl, rfl, rfl⟩
  split
  · exact ⟨rfl, rfl, rfl, rfl⟩
  · split <;> exact ⟨rfl, rfl, rfl, rfl⟩

theorem sealMaterial_ok {epoch : Nat} {secret : Bytes}
    (used : (st.sealMaterial peer keyId).1 = .ok (epoch, secret)) :
    st.sendEpoch = some epoch ∧ st.secret epoch = some secret := by
  unfold sealMaterial at used
  split at used
  · cases used
  rename_i e named
  split at used
  · cases used
  rename_i s held
  split at used
  · cases used
  · cases used
    exact ⟨named, held⟩

variable {self peer keyId : String}

theorem sealFrame_ok {header header' : Header} {payload : Bytes}
    (ok : (st.sealFrame crypto self peer keyId header plaintext).1 = .ok (header', payload)) :
    ∃ epoch secret tag counter, st.sendEpoch = some epoch ∧ st.secret epoch = some secret ∧
      header' = (sealHeader header epoch counter).insert hdrE2eTag tag := by
  unfold sealFrame at ok
  have used := @sealMaterial_ok window st peer keyId
  split at ok
  · cases ok
  rename_i epoch secret after made
  rw [made] at used
  dsimp only at ok
  split at ok
  · cases ok
  rename_i ct tag _
  cases ok
  obtain ⟨named, held⟩ := used rfl
  exact ⟨epoch, secret, hexEncode tag, after.counter, named, held, rfl⟩

theorem sealHeader_incarnation (header : Header) (epoch counter : Nat) (tag : String) :
    ((sealHeader header epoch counter).insert hdrE2eTag tag)[hdrIncarnation]? =
      header[hdrIncarnation]? := by
  have other : ∀ name, name = hdrE2eTag ∨ name = hdrE2eCtr ∨ name = hdrE2eEpoch →
      compare name hdrIncarnation ≠ .eq := by
    rintro name (rfl | rfl | rfl) same <;>
      exact absurd (Std.LawfulEqCmp.compare_eq_iff_eq.mp same) (by decide)
  unfold sealHeader
  rw [getElem?_insert, if_neg (other _ (.inl rfl)), getElem?_erase,
    if_neg (other _ (.inl rfl)), getElem?_insert, if_neg (other _ (.inr (.inl rfl))),
    getElem?_insert, if_neg (other _ (.inr (.inr rfl)))]

theorem sealFrame_keeps {header : Header} :
    (st.sealFrame crypto self peer keyId header plaintext).2.Keeps st := by
  have keeps := @sealMaterial_keeps window st peer keyId
  unfold sealFrame
  split
  · rename_i made
    rw [made] at keeps
    exact keeps
  rename_i made
  rw [made] at keeps
  dsimp only
  split <;> exact keeps

end PeerState

namespace Pair

inductive Moves (crypto : Crypto Seed) (p : Pair setup) : Act Seed → Pair setup → Prop
  | stays (act : Act Seed) : Moves crypto p act p
  | advance (ms : Nat) : Moves crypto p (.advance ms) { p with now := p.now + ms }
  | asked (x : Side) (st : PeerState (setup.cfg x).replayWindow)
      (free : (p.st x).inflight = false) (busy : st.inflight = true)
      (epochs : st.epochs = (p.st x).epochs) (replay : st.replay = (p.st x).replay) :
    Moves crypto p (.requestAgreement x) ((p.setSt x st).setAsking x .asked)
  | began (x : Side) (seed : Seed) (request : KemRequest) (esk : Bytes)
      (asked : p.asking x = .asked) (keyed : KeyedBy crypto esk request) :
    Moves crypto p (.beginRequest x seed)
      { (p.setSt x { p.st x with pendingEsk := some (esk, p.now) }).setAsking x
          (.waiting p.exchanges.length) with
        exchanges := p.exchanges ++ [⟨x, p.incarnation x, request, .posted⟩] }
  | gaveUp (act : Act Seed) (x : Side) (st : PeerState (setup.cfg x).replayWindow)
      (busy : p.asking x ≠ .idle) (epochs : st.epochs = (p.st x).epochs)
      (inflight : st.inflight = (p.st x).inflight) (replay : st.replay = (p.st x).replay) :
    Moves crypto p act ((p.setSt x st).setAsking x (.done false))
  | ruled (act : Act Seed) (i : Nat) (ex : Exchange)
      (st : PeerState (setup.cfg ex.asker.other).replayWindow) (phase : Phase)
      (found : p.exchanges[i]? = some ex) (unanswered : ex.phase = .posted ∨ ex.phase = .admitted)
      (verdict : phase = .refused ∨ phase = .admitted) (keeps : st.Keeps (p.st ex.asker.other)) :
    Moves crypto p act ((p.setSt ex.asker.other st).setPhase i phase)
  | answered (i : Nat) (seed : Seed) (draws : List Nat) (ex : Exchange)
      (st : PeerState (setup.cfg ex.asker.other).replayWindow) (response : KemResponse)
      (ct secret : Bytes) (found : p.exchanges[i]? = some ex) (admitted : ex.phase = .admitted)
      (encap : respondEncap crypto (setup.cfg ex.asker.other) ex.request seed = .ok (ct, secret))
      (made : Encapsulates crypto ex.request response secret)
      (drawn : (p.st ex.asker.other).freshEpoch draws = some response.epoch)
      (epochs : st.epochs = pushEpoch (p.st ex.asker.other).epochs response.epoch secret
        (setup.cfg ex.asker.other).epochHistoryKeep)
      (pending : st.pendingEsk = (p.st ex.asker.other).pendingEsk)
      (inflight : st.inflight = (p.st ex.asker.other).inflight)
      (replay : st.replay = (p.st ex.asker.other).replay) :
    Moves crypto p (.respondStore i seed draws) ((p.setSt ex.asker.other st).setPhase i
      (.answered response secret (p.incarnation ex.asker.other)))
  | took (x : Side) (i : Nat) (ex : Exchange) (response : KemResponse) (secret : Bytes)
      (run : String) (esk : Bytes) (since : Nat) (ct : Bytes) (waiting : p.asking x = .waiting i)
      (found : p.exchanges[i]? = some ex) (answer : ex.phase = .answered response secret run)
      (pending : (p.st x).pendingEsk = some (esk, since))
      (sent : crypto.unbase64 response.ct = some ct) :
    Moves crypto p (.completeTake x) ((p.setSt x { p.st x with pendingEsk := none }).setAsking x
      (.taken i response esk ct))
  | adopted (x : Side) (i : Nat) (response : KemResponse) (esk ct ss : Bytes)
      (st : PeerState (setup.cfg x).replayWindow)
      (taken : p.asking x = .taken i response esk ct)
      (got : (crypto.kemFor response.suite).bind (·.decap esk ct) = some ss)
      (epochs : st.epochs = pushEpoch (p.st x).epochs response.epoch ss
        (setup.cfg x).epochHistoryKeep)
      (inflight : st.inflight = (p.st x).inflight) (replay : st.replay = (p.st x).replay) :
    Moves crypto p (.completeStore x) ((p.setSt x st).setAsking x (.done true))
  | settled (x : Side) (st : PeerState (setup.cfg x).replayWindow) (ok : Bool)
      (done : p.asking x = .done ok) (epochs : st.epochs = (p.st x).epochs)
      (replay : st.replay = (p.st x).replay) :
    Moves crypto p (.settle x) ((p.setSt x st).setAsking x .idle)
  | unsealed (act : Act Seed) (x : Side) (st : PeerState (setup.cfg x).replayWindow)
      (keeps : st.Keeps (p.st x)) : Moves crypto p act (p.setSt x st)
  | sealed (act : Act Seed) (x : Side) (st : PeerState (setup.cfg x).replayWindow)
      (epoch : Nat) (secret : Bytes) (keyId : String) (header : Header) (payload : Bytes)
      (held : (epoch, secret) ∈ (p.st x).epochs)
      (named : header[hdrIncarnation]? = some (p.incarnation x)) (keeps : st.Keeps (p.st x)) :
    Moves crypto p act { p.setSt x st with
      frames := p.frames ++ [⟨x, p.incarnation x, secret, keyId, header, payload⟩] }
  | verified (x : Side) (header : Header) (keyId : String) (payload : Bytes) (opened : Opened)
      (free : p.opening x = none)
      (ok : (p.st x).openVerify crypto (setup.name x) (setup.name x.other) header keyId payload =
        .ok opened) :
    Moves crypto p (.openVerify x header keyId payload)
      { p with opening := update p.opening x (some (.of header keyId payload, opened)) }
  | rejected (x : Side) (content : Content) (opened : Opened) (error : ReplayError)
      (replay : ReplayWindow (max (setup.cfg x).replayWindow 64))
      (opening : p.opening x = some (content, opened))
      (checked : (p.st x).replay.checkAndSet ⟨opened.session, opened.counter, p.now, p.now⟩ =
        (.error error, replay)) :
    Moves crypto p (.openCheck x) ({ p with opening := update p.opening x none }.setSt x
      { p.st x with replay })
  | accepted (x : Side) (content : Content) (opened : Opened)
      (replay : ReplayWindow (max (setup.cfg x).replayWindow 64))
      (opening : p.opening x = some (content, opened))
      (checked : (p.st x).replay.checkAndSet ⟨opened.session, opened.counter, p.now, p.now⟩ =
        (.ok (), replay)) :
    Moves crypto p (.openCheck x)
      { { p with opening := update p.opening x none }.setSt x { p.st x with replay } with
        opened := update p.opened x ((content, opened) :: p.opened x) }
  | restarted (x : Side) (incarnation : String) :
    Moves crypto p (.restart x incarnation) (p.restart x incarnation)

theorem setSt_self (p : Pair setup) (x : Side) : p.setSt x (p.st x) = p := by
  unfold setSt
  rw [update_eq_self]

variable (p : Pair setup)

theorem failed_moves (act : Act Seed) (x : Side) (busy : p.asking x ≠ .idle) :
    Moves crypto p act (p.setAsking x (.done false)) := by
  have failed : Moves crypto p act ((p.setSt x (p.st x)).setAsking x (.done false)) :=
    .gaveUp act x (p.st x) busy rfl rfl rfl
  rwa [setSt_self] at failed

theorem requestAgreement_moves (x : Side) :
    Moves crypto p (.requestAgreement x) (p.requestAgreement x) := by
  unfold requestAgreement PeerState.requestAgreement
  by_cases free : (p.st x).inflight
  · rw [if_pos free]
    exact .stays _
  rw [if_neg free]
  split
  · rename_i st made
    split at made
    · cases made
    · cases made
      exact .asked x _ (Bool.eq_false_of_not_eq_true free) rfl rfl rfl
  · exact .stays _

theorem beginRequest_moves (x : Side) (seed : Seed) :
    Moves crypto p (.beginRequest x seed) (p.beginRequest crypto x seed) := by
  unfold beginRequest
  split
  · rename_i asked
    unfold PeerState.beginRequest
    have busy : p.asking x ≠ .idle := by simp [asked]
    cases suite : crypto.kemFor (setup.cfg x).suite with
    | none => exact failed_moves p _ x busy
    | some kem =>
      dsimp only
      cases made : kem.keygen seed with
      | none => exact failed_moves p _ x busy
      | some pair => exact .began x seed _ _ asked ⟨kem, seed, pair, suite, made, rfl, rfl⟩
  · exact .stays _

theorem respondAdmit_moves (i : Nat) : Moves crypto p (.respondAdmit i) (p.respondAdmit i) := by
  unfold respondAdmit
  split
  · rename_i asker run request found
    have keeps := respondAdmit_keeps (setup.cfg asker.other) (p.st asker.other) p.now
    split
    · rename_i e st ruled
      rw [ruled] at keeps
      exact .ruled _ i _ st .refused found (.inl rfl) (.inl rfl) keeps
    · rename_i st ruled
      rw [ruled] at keeps
      exact .ruled _ i _ st .admitted found (.inl rfl) (.inr rfl) keeps
  · exact .stays _

theorem refused_moves {act : Act Seed} {i : Nat} {ex : Exchange} (found : p.exchanges[i]? = some ex)
    (admitted : ex.phase = .admitted) : Moves crypto p act (p.setPhase i .refused) := by
  have refused : Moves crypto p act
      ((p.setSt ex.asker.other (p.st ex.asker.other)).setPhase i .refused) :=
    .ruled act i ex (p.st ex.asker.other) .refused found (.inr admitted) (.inl rfl) ⟨rfl, rfl, rfl, rfl⟩
  rwa [setSt_self] at refused

theorem respondEncap_ok {cfg : TransportE2eCfg} {request : KemRequest} {seed : Seed}
    {ct secret : Bytes} (made : respondEncap crypto cfg request seed = .ok (ct, secret))
    (epoch : Nat) :
    Encapsulates crypto request ⟨request.suite, epoch, crypto.base64 ct⟩ secret := by
  unfold respondEncap at made
  split at made
  · cases made
  split at made
  · cases made
  rename_i kem suite
  split at made
  · cases made
  rename_i epk decoded
  split at made
  · cases made
  split at made
  · cases made
  rename_i answer encap
  cases made
  exact ⟨kem, seed, epk, ct, suite, decoded, encap, rfl, rfl⟩

theorem respondStore_moves (i : Nat) (seed : Seed) (draws : List Nat) :
    Moves crypto p (.respondStore i seed draws) (p.respondStore crypto i seed draws) := by
  unfold respondStore
  split
  · rename_i asker run request found
    dsimp only
    split
    · exact refused_moves p found rfl
    rename_i ct ss encap
    split
    · exact .stays _
    rename_i epoch drawn
    unfold PeerState.respondStore
    cases stored : (p.st asker.other).store epoch ss (setup.cfg asker.other).epochHistoryKeep
      p.now with
    | error e => exact refused_moves p found rfl
    | ok st =>
      obtain ⟨epochs, pending, inflight, replay⟩ := store_ok stored
      exact .answered i seed draws _ st _ ct ss found rfl encap (respondEncap_ok encap epoch)
        drawn epochs pending inflight replay
  · exact .stays _

theorem completeTake_moves (x : Side) :
    Moves crypto p (.completeTake x) (p.completeTake crypto x) := by
  unfold completeTake
  split
  · rename_i i waiting
    have busy : p.asking x ≠ .idle := by simp [waiting]
    split
    · rename_i asker run request response secret answerer found
      split
      · rename_i e st failed
        have same : st.epochs = (p.st x).epochs ∧ st.inflight = (p.st x).inflight ∧
            st.replay = (p.st x).replay := by
          unfold PeerState.completeTake at failed
          (repeat' split at failed) <;> cases failed <;> exact ⟨rfl, rfl, rfl⟩
        exact .gaveUp _ x st busy same.1 same.2.1 same.2.2
      rename_i esk ct st took
      unfold PeerState.completeTake at took
      split at took
      · cases took
      split at took
      · cases took
      split at took
      · cases took
      split at took
      · cases took
      rename_i sent
      split at took
      · cases took
      rename_i since pending
      split at took
      · cases took
      cases took
      exact .took x i _ response secret answerer esk since ct waiting found rfl pending sent
    · exact failed_moves p _ x busy
    · exact .stays _
  · exact .stays _

theorem completeStore_moves (x : Side) :
    Moves crypto p (.completeStore x) (p.completeStore crypto x) := by
  unfold completeStore
  split
  · rename_i i response esk ct taken
    have busy : p.asking x ≠ .idle := by simp [taken]
    unfold PeerState.completeStore
    cases got : (crypto.kemFor response.suite).bind (·.decap esk ct) with
    | none => exact failed_moves p _ x busy
    | some ss =>
      dsimp only
      cases stored : (p.st x).store response.epoch ss (setup.cfg x).epochHistoryKeep p.now with
      | error e => exact failed_moves p _ x busy
      | ok st =>
        obtain ⟨epochs, -, inflight, replay⟩ := store_ok stored
        exact .adopted x i response esk ct ss st taken got epochs inflight replay
  · exact .stays _

theorem sealFrame_moves (x : Side) (keyId : String) (header : Header) (plaintext : Bytes) :
    Moves crypto p (.sealFrame x keyId header plaintext)
      (p.sealFrame crypto x keyId header plaintext) := by
  unfold sealFrame
  dsimp only
  have keeps : ((p.st x).sealFrame crypto (setup.name x) (setup.name x.other) keyId
    (header.insert hdrIncarnation (p.incarnation x)) plaintext).2.Keeps (p.st x) :=
    sealFrame_keeps
  split
  · rename_i e st failed
    rw [failed] at keeps
    exact .unsealed _ x st keeps
  rename_i header' payload st made
  rw [made] at keeps
  obtain ⟨epoch, secret, tag, counter, named, held, same⟩ := sealFrame_ok (congrArg Prod.fst made)
  have used : ((p.st x).sendEpoch.bind (p.st x).secret).getD [] = secret := by
    rw [named, Option.bind_some, held, Option.getD_some]
  rw [used]
  apply Moves.sealed _ x st epoch secret keyId header' payload (secret_mem held) _ keeps
  rw [same, sealHeader_incarnation]
  exact getElem?_insert_self

theorem openVerify_moves (x : Side) (header : Header) (keyId : String) (payload : Bytes) :
    Moves crypto p (.openVerify x header keyId payload)
      (p.openVerify crypto x header keyId payload) := by
  unfold openVerify
  split
  · exact .stays _
  rename_i free
  split
  · exact .stays _
  · rename_i opened ok
    exact .verified x header keyId payload opened free ok

theorem openCheck_moves (x : Side) : Moves crypto p (.openCheck x) (p.openCheck x) := by
  unfold openCheck
  split
  · exact .stays _
  rename_i content opened opening
  unfold PeerState.openCheck
  cases checked : (p.st x).replay.checkAndSet ⟨opened.session, opened.counter, p.now, p.now⟩ with
  | mk result replay =>
    cases result with
    | error e => exact .rejected x content opened e replay opening checked
    | ok _ => exact .accepted x content opened replay opening checked

theorem next_moves (crypto : Crypto Seed) (act : Act Seed) : Moves crypto p act (p.next crypto act) := by
  cases act with
  | advance ms => exact .advance ms
  | requestAgreement x => exact requestAgreement_moves p x
  | beginRequest x seed => exact beginRequest_moves p x seed
  | respondAdmit i => exact respondAdmit_moves p i
  | respondStore i seed draws => exact respondStore_moves p i seed draws
  | completeTake x => exact completeTake_moves p x
  | completeStore x => exact completeStore_moves p x
  | lose x =>
    show Moves crypto p _ (p.lose x)
    unfold lose
    split
    · rename_i waiting
      exact failed_moves p _ x (by simp [waiting])
    · exact .stays _
  | settle x =>
    show Moves crypto p _ (p.settle x)
    unfold settle
    split
    · rename_i ok done
      exact .settled x _ ok done rfl rfl
    · exact .stays _
  | sealFrame x keyId header plaintext => exact sealFrame_moves p x keyId header plaintext
  | openVerify x header keyId payload => exact openVerify_moves p x header keyId payload
  | openCheck x => exact openCheck_moves p x
  | restart x incarnation => exact .restarted x incarnation

end Pair

end Dkms.E2e
