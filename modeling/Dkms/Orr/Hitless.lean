import Dkms.Core.Runs
import Dkms.Orr.Rotation

namespace Dkms.Orr.Rotating

open Function Std Dkms.Core Dkms.Link PeerRegistry Option UInt32

def provisional : Phase → Option UInt32
  | .idle => none
  | .requested _ _ _ => none
  | .installed _ epochId _ => some epochId
  | .finishing _ epochId => some epochId

/-- The attempt under way has the responder's public key of the epoch and the responder has yet to
use its secret half. -/
def awaitsKey (st : Rotating) (epochId : UInt32) : Prop :=
  match st.phase with
  | .idle => False
  | .requested n _ current => (st.requestReplies n).isSome ∧ current = epochId
  | .installed _ current _ => current = epochId
  | .finishing n current => (st.finReplies n).isNone ∧ current = epochId

instance (st : Rotating) (epochId : UInt32) : Decidable (st.awaitsKey epochId) := by
  unfold awaitsKey
  rcases st.phase with _ | _ <;> infer_instance

def Calm (a b : String) (st : Rotating) : Act → Prop
  | .install _ =>
    match st.initiator.currentSendEpochs b with
    | none => False
    | some current => current ≠ 0xFFFFFFFF
  | .deliverRequest n _ =>
    match st.requests n, st.requestReplies n with
    | some request, none => ¬ st.awaitsKey request.epochId
    | _, _ => True
  | .deliverFin n =>
    match st.fins n, st.finReplies n with
    | some fin, none =>
      st.phase = .finishing n fin.epochId ∨ (st.responder.ephemeralSks a)[fin.epochId]? = none
    | _, _ => True
  | .giveUp =>
    match st.phase with
    | .finishing n _ => st.finReplies n ≠ some (.ok ())
    | _ => True
  | .replayRequest _ _ => False
  | .replayFin _ => False
  | _ => True

instance (a b : String) (st : Rotating) : ∀ act, Decidable (Calm a b st act) := by
  intro act
  rcases act with _ | _ <;> dsimp only [Calm]
  case install => rcases st.initiator.currentSendEpochs b with _ | _ <;> infer_instance
  case deliverRequest n seed =>
    rcases st.requests n with _ | _ <;>
      rcases st.requestReplies n with _ | _ <;> infer_instance
  case deliverFin n =>
    rcases st.fins n with _ | _ <;> rcases st.finReplies n with _ | _ <;> infer_instance
  case giveUp => rcases st.phase with _ | _ <;> infer_instance
  all_goals infer_instance

def Hitless (a b : String) (st : Rotating) : Prop :=
  (∀ epochId, st.initiator.sendEpochFor b = some epochId →
    ∃ secret, st.initiator.masterForEpoch b epochId = some secret ∧
      st.responder.masterForEpoch a epochId = some secret) ∧
  ∀ epochId, st.responder.sendEpochFor a = some epochId →
    ∃ secret, st.responder.masterForEpoch a epochId = some secret ∧
      st.initiator.masterForEpoch b epochId = some secret

structure InStep (a b : String) (current : UInt32) (initiator responder : PeerRegistry) : Prop where
  shared : ∃ secret, initiator.masterForEpoch b current = some secret ∧
    responder.masterForEpoch a current = some secret
  sends : initiator.currentSendEpochs b = some current ∨ initiator.currentSendEpochs b = none
  answers : responder.currentSendEpochs a = none
  initiatorHolds : ∀ epochId secret, initiator.masterForEpoch b epochId = some secret → epochId ≤ current
  responderHolds : ∀ epochId secret, responder.masterForEpoch a epochId = some secret → epochId ≤ current

section

variable (crates : RotationCrates) (suite a b : String)

def Opens (st : Rotating) (fin : EstablishEphemeralSecret) : Prop :=
  ∃ secret, st.initiator.masterForEpoch b fin.epochId = some secret ∧
    ∀ kem esk, crates.kemFor suite = .ok kem →
      (st.responder.ephemeralSks a)[fin.epochId]? = some esk → kem.decap esk fin.ciphertext = .ok secret

structure Steady (current : UInt32) (st : Rotating) : Prop where
  shared : ∃ secret, st.initiator.masterForEpoch b current = some secret ∧
    st.responder.masterForEpoch a current = some secret
  sends : st.initiator.currentSendEpochs b = some current ∨ st.initiator.currentSendEpochs b = none
  answers : st.responder.currentSendEpochs a = none
  initiatorHolds : ∀ epochId secret, st.initiator.masterForEpoch b epochId = some secret →
    epochId ≤ current ∨ provisional st.phase = some epochId
  responderHolds : ∀ epochId secret, st.responder.masterForEpoch a epochId = some secret →
    epochId ≤ current ∨ ∃ n, st.phase = .finishing n epochId ∧ st.finReplies n = some (.ok ())
  ahead : ∀ epochId, provisional st.phase = some epochId →
    st.initiator.currentSendEpochs b = some current ∧ current < epochId
  offered : ∀ n bootstrap epochId pubkey mac, st.phase = .requested n bootstrap epochId →
    st.requestReplies n = some (.ok (pubkey, mac)) → ∀ kem, crates.kemFor suite = .ok kem →
      ∃ seed secret, kem.keygen seed = .ok (pubkey, secret) ∧
        ∀ esk, (st.responder.ephemeralSks a)[epochId]? = some esk → esk = secret
  ready : ∀ n epochId fin, st.phase = .installed n epochId fin → Opens crates suite a b st fin
  sent : ∀ n epochId fin, st.phase = .finishing n epochId → st.fins n = some fin →
    st.finReplies n = none → Opens crates suite a b st fin
  accepted : ∀ n epochId, st.phase = .finishing n epochId → st.finReplies n = some (.ok ()) →
    ∃ secret, st.initiator.masterForEpoch b epochId = some secret ∧
      st.responder.masterForEpoch a epochId = some secret

end

variable {crates : RotationCrates} {suite a b : String} {epochHistoryKeep : Nat}
  {current : UInt32} {st st' : Rotating}

variable {fin : EstablishEphemeralSecret}

theorem Opens.mono (opens : Opens crates suite a b st fin)
    (ours : st'.initiator.masterForEpoch b fin.epochId = st.initiator.masterForEpoch b fin.epochId)
    (fewer : ∀ esk, (st'.responder.ephemeralSks a)[fin.epochId]? = some esk →
      (st.responder.ephemeralSks a)[fin.epochId]? = some esk) : Opens crates suite a b st' fin := by
  obtain ⟨secret, held, opens⟩ := opens
  refine ⟨secret, ours.trans held, ?_⟩
  intro kem esk suited stored
  exact opens kem esk suited (fewer esk stored)

theorem InStep.steady {initiator responder : PeerRegistry}
    (inStep : InStep a b current initiator responder) :
    Steady crates suite a b current (new initiator responder) where
  shared := inStep.shared
  sends := inStep.sends
  answers := inStep.answers
  initiatorHolds epochId secret held := .inl (inStep.initiatorHolds epochId secret held)
  responderHolds epochId secret held := .inl (inStep.responderHolds epochId secret held)
  ahead := nofun
  offered := nofun
  ready := nofun
  sent := nofun
  accepted := nofun

theorem Steady.hitless (steady : Steady crates suite a b current st) : Hitless a b st := by
  obtain ⟨secret, ours, theirs⟩ := steady.shared
  constructor
  · intro epochId sends
    have same : epochId = current := by
      unfold sendEpochFor at sends
      rcases steady.sends with set | unset
      · rw [set] at sends
        exact (some.inj sends).symm
      rw [unset] at sends
      obtain ⟨⟨top, held⟩, highest⟩ := latestEpochFor_eq_some.mp sends
      have over_current := highest current secret ours
      rcases steady.initiatorHolds epochId top held with under | pending
      · exact le_antisymm under over_current
      have := (steady.ahead epochId pending).1
      rw [unset] at this
      cases this
    subst same
    exact ⟨secret, ours, theirs⟩
  · intro epochId sends
    unfold sendEpochFor at sends
    rw [steady.answers] at sends
    obtain ⟨⟨top, held⟩, highest⟩ := latestEpochFor_eq_some.mp sends
    rcases steady.responderHolds epochId top held with under | ⟨n, waiting, replied⟩
    · have same := le_antisymm under (highest current secret theirs)
      subst same
      exact ⟨secret, theirs, ours⟩
    · obtain ⟨fresh, ours, theirs⟩ := steady.accepted n epochId waiting replied
      exact ⟨fresh, theirs, ours⟩

variable {responder : PeerRegistry}

theorem Steady.requestHandled (lower : crates.toLowercase a = a) {n seed : Nat} {request : RequestEphemeralKey}
    {reply : Except String (Bytes × Bytes)}
    (steady : Steady crates suite a b current st) (numbered : Numbered a b st)
    (sent : st.requests n = some request) (first : st.requestReplies n = none)
    (calm : ¬ st.awaitsKey request.epochId)
    (handled : crates.handleRequestEphemeralKey st.responder b suite seed request = (reply, responder)) :
    Steady crates suite a b current
      { st with responder, requestReplies := update st.requestReplies n (some reply) } := by
  have sender := (numbered.request n request sent).2
  rcases crates.handleRequest_cases st.responder b suite seed request with
    ⟨text, refused⟩ | ⟨kem, pubkey, secret, mac, suited, made, answered⟩
  · rw [refused] at handled
    cases handled
    refine { steady with offered := ?_ }
    intro k bootstrap epochId pubkey mac waiting replied
    rcases update_cases replied with ⟨-, ⟨⟩⟩ | ⟨-, replied⟩
    exact steady.offered k bootstrap epochId pubkey mac waiting replied
  rw [answered, sender, lower] at handled
  cases handled
  have others : ∀ epochId esk, st.awaitsKey epochId →
      ((st.responder.storeEphemeralSk a request.epochId secret).ephemeralSks a)[epochId]? =
        some esk → (st.responder.ephemeralSks a)[epochId]? = some esk := by
    intro epochId esk awaited stored
    have other : request.epochId ≠ epochId := by
      intro same
      exact calm (same ▸ awaited)
    exact ephemeralSk_store other stored
  refine { steady with offered := ?_, ready := ?_, sent := ?_ }
  · intro k bootstrap epochId pubkey' mac' waiting replied kem' suited'
    rcases update_cases replied with ⟨rfl, same⟩ | ⟨-, replied⟩
    · cases same
      rw [suited] at suited'
      cases suited'
      refine ⟨seed, secret, made, ?_⟩
      intro esk stored
      obtain ⟨-, -, -, epoch⟩ := numbered.requested k bootstrap epochId waiting
      rw [← epoch request sent] at stored
      exact ephemeralSk_store_self stored
    obtain ⟨seed', secret', made', only⟩ :=
      steady.offered k bootstrap epochId pubkey' mac' waiting replied kem' suited'
    refine ⟨seed', secret', made', ?_⟩
    intro esk stored
    have awaited : st.awaitsKey epochId := by
      unfold awaitsKey
      rw [waiting]
      exact ⟨by rw [replied]; rfl, rfl⟩
    exact only esk (others epochId esk awaited stored)
  · intro k epochId fin waiting
    refine (steady.ready k epochId fin waiting).mono rfl ?_
    intro esk stored
    have awaited : st.awaitsKey fin.epochId := by
      unfold awaitsKey
      rw [waiting]
      exact (numbered.installed k epochId fin waiting).2.2.2.2.symm
    exact others fin.epochId esk awaited stored
  intro k epochId fin waiting held unanswered
  refine (steady.sent k epochId fin waiting held unanswered).mono rfl ?_
  intro esk stored
  have awaited : st.awaitsKey fin.epochId := by
    unfold awaitsKey
    rw [waiting]
    obtain ⟨-, fin', held', epoch⟩ := numbered.finishing k epochId waiting
    rw [held] at held'
    cases held'
    exact ⟨by rw [unanswered]; rfl, epoch.symm⟩
  exact others fin.epochId esk awaited stored

theorem Steady.installed (correct : ∀ kem, crates.kemFor suite = .ok kem → kem.Correct)
    {n coins : Nat} {bootstrap pubkey mac secret : Bytes} {epochId : UInt32} {kem : Kem}
    (steady : Steady crates suite a b current st)
    (numbered : Numbered a b st) (waiting : st.phase = .requested n bootstrap epochId)
    (answered : st.requestReplies n = some (.ok (pubkey, mac)))
    (suited : crates.kemFor suite = .ok kem)
    (made : kem.encap pubkey coins = .ok (fin.ciphertext, secret)) (epoch : fin.epochId = epochId)
    (calm : Calm a b st (.install coins)) :
    Steady crates suite a b current
      { st with
        initiator := st.initiator.setMasterForEpoch b epochId secret
        phase := .installed n epochId fin } := by
  have set : st.initiator.currentSendEpochs b = some current ∧ current ≠ 0xFFFFFFFF := by
    simp only [Calm] at calm
    rcases steady.sends with set | unset
    · rw [set] at calm
      exact ⟨set, calm⟩
    · rw [unset] at calm
      exact calm.elim
  have after : current < epochId := by
    obtain ⟨-, -, next, -⟩ := numbered.requested n bootstrap epochId waiting
    rw [next, set.1]
    exact lt_nextEpoch set.2
  have other : epochId ≠ current := by
    rintro rfl
    exact absurd after (UInt32.lt_irrefl _)
  have idle : provisional st.phase = none := by
    rw [waiting]
    rfl
  obtain ⟨shared, ours, theirs⟩ := steady.shared
  refine ⟨⟨shared, ?_, theirs⟩, steady.sends, steady.answers, ?_, ?_, ?_, nofun, ?_, nofun, nofun⟩
  · rw [masterForEpoch_setMaster_self, if_neg other]
    exact ours
  · intro held secret' found
    rw [masterForEpoch_setMaster_self] at found
    split at found
    · rename_i same
      exact .inr (congrArg some same)
    rcases steady.initiatorHolds held secret' found with under | pending
    · exact .inl under
    · rw [idle] at pending
      cases pending
  · intro held secret' found
    rcases steady.responderHolds held secret' found with under | ⟨k, finishing, -⟩
    · exact .inl under
    · rw [waiting] at finishing
      cases finishing
  · rintro held ⟨⟩
    exact ⟨set.1, after⟩
  rintro k held fin' ⟨⟩
  refine ⟨secret, ?_, ?_⟩
  · rw [masterForEpoch_setMaster_self, if_pos epoch.symm]
  intro kem' esk suited' stored
  rw [suited] at suited'
  cases suited'
  obtain ⟨seed, esk', generated, only⟩ :=
    steady.offered n bootstrap epochId pubkey mac waiting answered kem suited
  rw [epoch] at stored
  rw [only esk stored]
  exact correct kem suited seed pubkey esk' coins fin.ciphertext secret generated made

variable {n : Nat}

theorem Steady.finRefused {text : String}
    (steady : Steady crates suite a b current st) (first : st.finReplies n = none)
    (masters : responder.masterSecrets = st.responder.masterSecrets)
    (answers : responder.currentSendEpochs = st.responder.currentSendEpochs)
    (fewer : ∀ (epochId : UInt32) esk, (responder.ephemeralSks a)[epochId]? = some esk →
      (st.responder.ephemeralSks a)[epochId]? = some esk) :
    Steady crates suite a b current
      { st with
        responder
        finReplies := update st.finReplies n (some (.error text)) } := by
  have masters : ∀ epochId,
      responder.masterForEpoch a epochId = st.responder.masterForEpoch a epochId := by
    intro epochId
    rw [masterForEpoch, masters, masterForEpoch]
  refine
    { shared := ?_, sends := steady.sends, answers := ?_, initiatorHolds := steady.initiatorHolds,
      responderHolds := ?_, ahead := steady.ahead, offered := ?_, ready := ?_, sent := ?_,
      accepted := ?_ }
  · rw [masters]
    exact steady.shared
  · rw [answers]
    exact steady.answers
  · intro epochId secret held
    rw [masters] at held
    rcases steady.responderHolds epochId secret held with under | ⟨k, finishing, replied⟩
    · exact .inl under
    have other : k ≠ n := by
      rintro rfl
      rw [first] at replied
      cases replied
    refine .inr ⟨k, finishing, ?_⟩
    exact (update_of_ne other ..).trans replied
  · intro k bootstrap epochId pubkey mac waiting replied kem suited
    obtain ⟨seed, secret, made, only⟩ :=
      steady.offered k bootstrap epochId pubkey mac waiting replied kem suited
    refine ⟨seed, secret, made, ?_⟩
    intro esk stored
    exact only esk (fewer epochId esk stored)
  · intro k epochId fin waiting
    exact (steady.ready k epochId fin waiting).mono rfl (fewer fin.epochId)
  · intro k epochId fin waiting held unanswered
    by_cases same : k = n
    · subst same
      dsimp only at unanswered
      rw [update_self] at unanswered
      cases unanswered
    · dsimp only at unanswered
      rw [update_of_ne same] at unanswered
      exact (steady.sent k epochId fin waiting held unanswered).mono rfl (fewer fin.epochId)
  · intro k epochId waiting replied
    rcases update_cases replied with ⟨-, ⟨⟩⟩ | ⟨-, replied⟩
    rw [masters]
    exact steady.accepted k epochId waiting replied

theorem Steady.finAccepted {kem : Kem}
    {esk secret : Bytes} (steady : Steady crates suite a b current st)
    (sent : st.fins n = some fin) (first : st.finReplies n = none)
    (waiting : st.phase = .finishing n fin.epochId) (suited : crates.kemFor suite = .ok kem)
    (stored : (st.responder.ephemeralSks a)[fin.epochId]? = some esk)
    (opened : kem.decap esk fin.ciphertext = .ok secret) :
    Steady crates suite a b current
      { st with
        responder := (st.responder.takeEphemeralSk a fin.epochId).2
          |>.setMasterForEpoch a fin.epochId secret |>.dropOldEpochsFor a epochHistoryKeep
        finReplies := update st.finReplies n (some (.ok ())) } := by
  obtain ⟨-, after⟩ := steady.ahead fin.epochId (by rw [waiting]; rfl)
  have other : fin.epochId ≠ current := by
    intro same
    rw [same] at after
    exact absurd after (UInt32.lt_irrefl _)
  have ours : st.initiator.masterForEpoch b fin.epochId = some secret := by
    obtain ⟨secret', held, opens⟩ := steady.sent n fin.epochId fin waiting sent first
    have same := opens kem esk suited stored
    rw [opened] at same
    rw [held, Except.ok.inj same]
  have replied : update st.finReplies n (some (.ok ())) n = some (.ok ()) := update_self ..
  generalize made : (st.responder.takeEphemeralSk a fin.epochId).2.setMasterForEpoch a fin.epochId
    secret = taken
  have lookup : ∀ epochId, taken.masterForEpoch a epochId =
      if fin.epochId = epochId then some secret else st.responder.masterForEpoch a epochId := by
    intro epochId
    rw [← made, masterForEpoch_setMaster_self]
    rfl
  have keys : ∀ epochId secret', taken.masterForEpoch a epochId = some secret' →
      epochId ≤ current ∨ epochId = fin.epochId := by
    intro epochId secret' held
    rw [lookup] at held
    split at held
    · rename_i same
      exact .inr same.symm
    rcases steady.responderHolds epochId secret' held with under | ⟨k, finishing, -⟩
    · exact .inl under
    rw [waiting] at finishing
    cases finishing
    exact .inr rfl
  refine
    { shared := ?_, sends := steady.sends, answers := ?_, initiatorHolds := steady.initiatorHolds,
      responderHolds := ?_, ahead := steady.ahead, offered := ?_, ready := ?_, sent := ?_,
      accepted := ?_ }
  · obtain ⟨shared, held, theirs⟩ := steady.shared
    refine ⟨shared, held, ?_⟩
    rw [masterForEpoch_dropOld_self fin.epochId keys, lookup, if_neg other]
    exact theirs
  · rw [← made]
    exact steady.answers
  · intro epochId secret' held
    rcases keys epochId secret' (masterForEpoch_dropOld held) with under | same
    · exact .inl under
    · rw [same]
      exact .inr ⟨n, waiting, replied⟩
  · intro k bootstrap epochId pubkey mac requested
    rw [waiting] at requested
    cases requested
  · intro k epochId fin' installed
    rw [waiting] at installed
    cases installed
  · intro k epochId fin' finishing held unanswered
    rw [waiting] at finishing
    cases finishing
    cases unanswered.symm.trans replied
  intro k epochId finishing answered
  rw [waiting] at finishing
  cases finishing
  refine ⟨secret, ours, ?_⟩
  have top : ∀ epochId secret', taken.masterForEpoch a epochId = some secret' →
      epochId ≤ fin.epochId ∨ epochId = fin.epochId := by
    intro epochId secret' held
    rcases keys epochId secret' held with under | same
    · exact .inl (UInt32.le_of_lt (UInt32.lt_of_le_of_lt under after))
    · exact .inr same
  rw [masterForEpoch_dropOld_self fin.epochId top, lookup, if_pos rfl]

theorem Steady.finHandled (lower : crates.toLowercase a = a) {reply : Except String Unit}
    (steady : Steady crates suite a b current st) (numbered : Numbered a b st)
    (sent : st.fins n = some fin) (first : st.finReplies n = none)
    (calm : st.phase = .finishing n fin.epochId ∨ (st.responder.ephemeralSks a)[fin.epochId]? = none)
    (handled : crates.handleEstablishEphemeralSecret st.responder b suite epochHistoryKeep fin =
      (reply, responder)) : Steady crates suite a b current
      { st with responder, finReplies := update st.finReplies n (some reply) } := by
  have sender := (numbered.fin n fin sent).2
  have cases := crates.handleEstablish_cases st.responder b suite epochHistoryKeep fin
  rw [handled, sender, lower] at cases
  rcases cases with ⟨text, refused⟩ | ⟨text, refused⟩ | ⟨kem, esk, secret, suited, stored, opened, done⟩
  · cases refused
    exact steady.finRefused first rfl rfl fun _ _ stored => stored
  · cases refused
    exact steady.finRefused first rfl rfl fun _ _ stored => ephemeralSk_take stored
  cases done
  rcases calm with waiting | gone
  · exact steady.finAccepted sent first waiting suited stored opened
  · rw [gone] at stored
    cases stored

section

variable (steady : Steady crates suite a b current st)
include steady

variable {n : Nat} {epochId : UInt32}

theorem Steady.removed (waiting : st.phase = .finishing n epochId)
    (unaccepted : st.finReplies n ≠ some (.ok ())) :
    Steady crates suite a b current
      { st with
        initiator := st.initiator.removeMasterEpoch b epochId
        phase := .idle } := by
  obtain ⟨-, after⟩ := steady.ahead epochId (by rw [waiting]; rfl)
  have other : epochId ≠ current := by
    intro same
    rw [same] at after
    exact absurd after (UInt32.lt_irrefl _)
  obtain ⟨shared, ours, theirs⟩ := steady.shared
  refine ⟨⟨shared, ?_, theirs⟩, steady.sends, steady.answers, ?_, ?_, nofun, nofun, nofun, nofun, nofun⟩
  · rw [masterForEpoch_removeEpoch_self, if_neg other]
    exact ours
  · intro held secret found
    rw [masterForEpoch_removeEpoch_self] at found
    split at found
    · cases found
    rename_i different
    rcases steady.initiatorHolds held secret found with under | pending
    · exact .inl under
    · rw [waiting] at pending
      exact absurd (some.inj pending) different
  · intro held secret found
    rcases steady.responderHolds held secret found with under | ⟨k, finishing, replied⟩
    · exact .inl under
    rw [waiting] at finishing
    cases finishing
    exact absurd replied unaccepted

theorem Steady.committed (waiting : st.phase = .finishing n epochId)
    (accepted : st.finReplies n = some (.ok ())) :
    Steady crates suite a b epochId
      { st with
        initiator := st.initiator.setCurrentSendEpoch b epochId
        phase := .idle } := by
  obtain ⟨-, after⟩ := steady.ahead epochId (by rw [waiting]; rfl)
  refine ⟨steady.accepted n epochId waiting accepted, .inl (update_self ..), steady.answers,
    ?_, ?_, nofun, nofun, nofun, nofun, nofun⟩
  · intro held secret found
    rcases steady.initiatorHolds held secret found with under | pending
    · exact .inl (le_of_lt (lt_of_le_of_lt under after))
    rw [waiting] at pending
    cases pending
    exact .inl (le_refl _)
  intro held secret found
  rcases steady.responderHolds held secret found with under | ⟨k, finishing, -⟩
  · exact .inl (le_of_lt (lt_of_le_of_lt under after))
  rw [waiting] at finishing
  cases finishing
  exact .inl (le_refl _)

variable {bootstrap : Bytes}

theorem Steady.started {request : RequestEphemeralKey}
    (numbered : Numbered a b st) (idle : st.phase = .idle) :
    Steady crates suite a b current
      { st with
        phase := .requested st.attempts bootstrap request.epochId
        attempts := st.attempts + 1
        requests := update st.requests st.attempts (some request) } := by
  refine ⟨steady.shared, steady.sends, steady.answers, ?_, ?_, nofun, ?_, nofun, nofun, nofun⟩
  · intro held secret found
    rcases steady.initiatorHolds held secret found with under | pending
    · exact .inl under
    · rw [idle] at pending
      cases pending
  · intro held secret found
    rcases steady.responderHolds held secret found with under | ⟨k, finishing, -⟩
    · exact .inl under
    · rw [idle] at finishing
      cases finishing
  · rintro n bootstrap' epochId pubkey mac ⟨⟩ replied
    have early := numbered.requestReply st.attempts _ replied
    omega

theorem Steady.dropped (waiting : st.phase = .requested n bootstrap epochId) :
    Steady crates suite a b current { st with phase := .idle } := by
  refine ⟨steady.shared, steady.sends, steady.answers, ?_, ?_, nofun, nofun, nofun, nofun, nofun⟩
  · intro held secret found
    rcases steady.initiatorHolds held secret found with under | pending
    · exact .inl under
    · rw [waiting] at pending
      cases pending
  · intro held secret found
    rcases steady.responderHolds held secret found with under | ⟨k, finishing, -⟩
    · exact .inl under
    · rw [waiting] at finishing
      cases finishing

theorem Steady.finSent {fin : EstablishEphemeralSecret}
    (numbered : Numbered a b st) (installed : st.phase = .installed n epochId fin) :
    Steady crates suite a b current
      { st with
        phase := .finishing n epochId
        fins := update st.fins n (some fin) } := by
  have unanswered : st.finReplies n = none := by
    obtain ⟨-, unsent, -⟩ := numbered.installed n epochId fin installed
    cases replied : st.finReplies n with
    | none => rfl
    | some reply =>
      obtain ⟨fin', sent⟩ := numbered.finReply n reply replied
      rw [unsent] at sent
      cases sent
  have holds := steady.initiatorHolds
  have ahead := steady.ahead
  rw [installed] at holds ahead
  refine ⟨steady.shared, steady.sends, steady.answers, holds, ?_, ahead, nofun, nofun, ?_, ?_⟩
  · intro held secret found
    rcases steady.responderHolds held secret found with under | ⟨k, finishing, -⟩
    · exact .inl under
    · rw [installed] at finishing
      cases finishing
  · rintro k epochId' fin' ⟨⟩ sent -
    rcases update_cases sent with ⟨-, rfl⟩ | ⟨other, -⟩
    · exact (steady.ready n epochId fin' installed).mono rfl fun _ stored => stored
    · exact absurd rfl other
  · rintro k epochId' ⟨⟩ replied
    cases unanswered.symm.trans replied

end

theorem Steady.initiatorPruned (keepLastN : Nat) (steady : Steady crates suite a b current st)
    (numbered : Numbered a b st) : Steady crates suite a b current
      { st with initiator := st.initiator.dropOldEpochsFor b keepLastN } := by
  have keeps : ∀ epochId, epochId = current ∨ provisional st.phase = some epochId →
      (st.initiator.dropOldEpochsFor b keepLastN).masterForEpoch b epochId =
        st.initiator.masterForEpoch b epochId := by
    rintro epochId (rfl | pending)
    · apply masterForEpoch_dropOld_self ((provisional st.phase).getD 0)
      intro held secret found
      rcases steady.initiatorHolds held secret found with under | pending
      · exact .inl under
      · rw [pending]
        exact .inr rfl
    apply masterForEpoch_dropOld_self epochId
    intro held secret found
    rcases steady.initiatorHolds held secret found with under | pending'
    · exact .inl (le_of_lt (lt_of_le_of_lt under (steady.ahead epochId pending).2))
    · rw [pending] at pending'
      exact .inr (some.inj pending').symm
  obtain ⟨shared, ours, theirs⟩ := steady.shared
  refine
    { steady with
      shared := ⟨shared, (keeps current (.inl rfl)).trans ours, theirs⟩
      initiatorHolds := ?_, ready := ?_, sent := ?_, accepted := ?_ }
  · intro held secret found
    exact steady.initiatorHolds held secret (masterForEpoch_dropOld found)
  · intro n epochId fin installed
    have epoch := (numbered.installed n epochId fin installed).2.2.2.2
    refine (steady.ready n epochId fin installed).mono ?_ fun _ stored => stored
    apply keeps fin.epochId
    rw [installed, epoch]
    exact .inr rfl
  · intro n epochId fin waiting sent unanswered
    obtain ⟨-, fin', sent', epoch⟩ := numbered.finishing n epochId waiting
    cases sent.symm.trans sent'
    refine (steady.sent n epochId fin waiting sent unanswered).mono ?_ fun _ stored => stored
    apply keeps fin.epochId
    rw [waiting, epoch]
    exact .inr rfl
  · intro n epochId waiting replied
    obtain ⟨secret, ours, theirs⟩ := steady.accepted n epochId waiting replied
    exact ⟨secret, (keeps epochId (.inr (by rw [waiting]; rfl))).trans ours, theirs⟩

theorem Steady.responderPruned (keepLastN : Nat) (steady : Steady crates suite a b current st) :
    Steady crates suite a b current
      { st with responder := st.responder.dropOldEpochsFor a keepLastN } := by
  have accepted_above : ∀ n epochId, st.phase = .finishing n epochId → current < epochId := by
    intro n epochId waiting
    exact (steady.ahead epochId (by rw [waiting]; rfl)).2
  obtain ⟨shared, ours, theirs⟩ := steady.shared
  refine
    { steady with
      shared := ⟨shared, ours, ?_⟩
      responderHolds := ?_, offered := ?_, ready := ?_, sent := ?_, accepted := ?_ }
  · rw [← theirs]
    apply masterForEpoch_dropOld_self ((provisional st.phase).getD 0)
    intro held secret found
    rcases steady.responderHolds held secret found with under | ⟨n, waiting, -⟩
    · exact .inl under
    · rw [waiting]
      exact .inr rfl
  · intro held secret found
    exact steady.responderHolds held secret (masterForEpoch_dropOld found)
  · intro n bootstrap epochId pubkey mac waiting replied kem suited
    obtain ⟨seed, secret, made, only⟩ :=
      steady.offered n bootstrap epochId pubkey mac waiting replied kem suited
    refine ⟨seed, secret, made, ?_⟩
    intro esk stored
    exact only esk (ephemeralSk_dropOld stored)
  · intro n epochId fin installed
    refine (steady.ready n epochId fin installed).mono rfl ?_
    intro esk stored
    exact ephemeralSk_dropOld stored
  · intro n epochId fin waiting sent unanswered
    refine (steady.sent n epochId fin waiting sent unanswered).mono rfl ?_
    intro esk stored
    exact ephemeralSk_dropOld stored
  intro n epochId waiting replied
  obtain ⟨secret, ours, theirs⟩ := steady.accepted n epochId waiting replied
  refine ⟨secret, ours, ?_⟩
  rw [← theirs]
  apply masterForEpoch_dropOld_self epochId
  intro held secret' found
  rcases steady.responderHolds held secret' found with under | ⟨k, waiting', -⟩
  · exact .inl (le_of_lt (lt_of_le_of_lt under (accepted_above n epochId waiting)))
  rw [waiting] at waiting'
  cases waiting'
  exact .inr rfl

theorem Steady.step (lower : crates.toLowercase a = a)
    (correct : ∀ kem, crates.kemFor suite = .ok kem → kem.Correct) {act : Act}
    (steady : Steady crates suite a b current st) (numbered : Numbered a b st)
    (calm : Calm a b st act) (step : Step crates suite a b epochHistoryKeep st act st') :
    ∃ current', Steady crates suite a b current' st' := by
  cases step with
  | stays => exact ⟨current, steady⟩
  | started idle => exact ⟨current, steady.started numbered idle⟩
  | requestHandled sent first handled =>
    simp only [Calm, sent, first] at calm
    exact ⟨current, steady.requestHandled lower numbered sent first calm handled⟩
  | notInstalled coins waiting => exact ⟨current, steady.dropped waiting⟩
  | installed waiting answered suited made sender epoch =>
    exact ⟨current, steady.installed correct numbered waiting answered suited made epoch calm⟩
  | finSent ready => exact ⟨current, steady.finSent numbered ready⟩
  | finHandled sent first handled =>
    simp only [Calm, sent, first] at calm
    exact ⟨current, steady.finHandled lower numbered sent first calm handled⟩
  | committed waiting accepted => exact ⟨_, steady.committed waiting accepted⟩
  | rolledBack waiting refused =>
    refine ⟨current, steady.removed waiting ?_⟩
    rw [refused]
    nofun
  | requestGivenUp waiting => exact ⟨current, steady.dropped waiting⟩
  | finGivenUp waiting =>
    simp only [Calm, waiting] at calm
    exact ⟨current, steady.removed waiting calm⟩
  | initiatorPruned keepLastN => exact ⟨current, steady.initiatorPruned keepLastN numbered⟩
  | responderPruned keepLastN => exact ⟨current, steady.responderPruned keepLastN⟩
  | _ => exact calm.elim

/-- In every run of calm steps the epoch that either end sends with is held by both, with one
secret. -/
theorem send_epoch_shared (crates : RotationCrates) (suite a b : String) (epochHistoryKeep : Nat)
    (lower : crates.toLowercase a = a)
    (correct : ∀ kem, crates.kemFor suite = .ok kem → kem.Correct)
    (current : UInt32) (initiator responder : PeerRegistry)
    (inStep : InStep a b current initiator responder) (acts : List Act)
    (calm : Follows (next crates suite a b epochHistoryKeep) (Calm a b) (new initiator responder) acts) :
    Hitless a b (run crates suite a b epochHistoryKeep (new initiator responder) acts) := by
  have keeps : ∀ st act, (∃ current', Steady crates suite a b current' st ∧ Numbered a b st) →
      Calm a b st act →
        ∃ current', Steady crates suite a b current' (next crates suite a b epochHistoryKeep st act) ∧
          Numbered a b (next crates suite a b epochHistoryKeep st act) := by
    rintro st act ⟨current', steady, numbered⟩ calm
    obtain ⟨current'', steady'⟩ := steady.step lower correct numbered calm (next_step act)
    exact ⟨current'', steady', numbered.step (next_step act)⟩
  obtain ⟨current', steady, -⟩ :=
    calm.invariant keeps ⟨current, inStep.steady, new_numbered initiator responder⟩
  exact steady.hitless

def rotatedOnce (peer : String) : PeerRegistry :=
  (PeerRegistry.new.resetForBootstrap peer (padded [1])).setMasterForEpoch peer 1 (padded [2])

theorem rotatedOnce_inStep : InStep "a" "b" 1 ((rotatedOnce "b").setCurrentSendEpoch "b" 1)
    (rotatedOnce "a") := by
  have keys : ∀ peer epochId secret, (rotatedOnce peer).masterForEpoch peer epochId = some secret →
      epochId ≤ 1 := by
    intro peer epochId secret held
    unfold rotatedOnce at held
    rw [masterForEpoch_setMaster_self] at held
    split at held
    · rename_i same
      subst same
      decide
    unfold masterForEpoch resetForBootstrap at held
    dsimp only at held
    rw [update_self, TreeMap.getElem?_insert] at held
    split at held
    · rename_i same
      rw [← LawfulEqOrd.eq_of_compare same]
      decide
    · cases held
  refine ⟨⟨padded [2], ?_, ?_⟩, .inl rfl, rfl, keys "b", keys "a"⟩
  · decide +kernel
  · decide +kernel

def wholeRotation : List Act :=
  [.start, .deliverRequest 0 7, .install 9, .pruneInitiator 2, .sendFin, .deliverFin 0, .finish]

theorem send_epoch_shared_second_rotation : Hitless "a" "b" (run byteCrates "ML-KEM-768" "a" "b" 2
      (new ((rotatedOnce "b").setCurrentSendEpoch "b" 1) (rotatedOnce "a")) wholeRotation) ∧
      (run byteCrates "ML-KEM-768" "a" "b" 2
        (new ((rotatedOnce "b").setCurrentSendEpoch "b" 1) (rotatedOnce "a"))
        wholeRotation).initiator.sendEpochFor "b" = some 2 := by
  constructor
  · apply send_epoch_shared byteCrates "ML-KEM-768" "a" "b" 2 rfl ?_ 1 _ _ rotatedOnce_inStep
    · decide +kernel
    · rintro kem ⟨⟩
      exact byteKem_correct
  · decide +kernel

/-- The first rotation after a bootstrap is sent with before the responder has it; a FIN whose
reply is lost, or that comes late, leaves the responder alone with the new epoch; a late request
leaves the two ends with different secrets for it. -/
theorem send_epoch_not_shared : ¬ Hitless "a" "b" (run byteCrates "ML-KEM-768" "a" "b" 2
        (new (PeerRegistry.new.resetForBootstrap "b" (padded [1]))
          (PeerRegistry.new.resetForBootstrap "a" (padded [1])))
        [.start, .deliverRequest 0 7, .install 9]) ∧
      ¬ Hitless "a" "b" (run byteCrates "ML-KEM-768" "a" "b" 2
        (new ((rotatedOnce "b").setCurrentSendEpoch "b" 1) (rotatedOnce "a"))
        [.start, .deliverRequest 0 7, .install 9, .sendFin, .deliverFin 0, .giveUp]) ∧
      ¬ Hitless "a" "b" (run byteCrates "ML-KEM-768" "a" "b" 2
        (new ((rotatedOnce "b").setCurrentSendEpoch "b" 1) (rotatedOnce "a"))
        [.start, .deliverRequest 0 7, .install 9, .sendFin, .giveUp, .deliverFin 0]) ∧
      ¬ Hitless "a" "b" (run byteCrates "ML-KEM-768" "a" "b" 2
        (new ((rotatedOnce "b").setCurrentSendEpoch "b" 1) (rotatedOnce "a"))
        [.start, .giveUp, .start, .deliverRequest 1 7, .deliverRequest 0 8, .install 9, .sendFin,
          .deliverFin 1, .finish]) := by
  refine ⟨?_, ?_, ?_, ?_⟩
  · rintro ⟨sends, -⟩
    obtain ⟨secret, -, held⟩ := sends 1 (by decide +kernel)
    revert held
    rw [show masterForEpoch _ "a" 1 = none by decide +kernel]
    nofun
  · rintro ⟨-, answers⟩
    obtain ⟨secret, -, held⟩ := answers 2 (by decide +kernel)
    revert held
    nofun
  · rintro ⟨-, answers⟩
    obtain ⟨secret, -, held⟩ := answers 2 (by decide +kernel)
    revert held
    nofun
  · rintro ⟨sends, -⟩
    obtain ⟨secret, ours, theirs⟩ := sends 2 (by decide +kernel)
    have same := ours.trans theirs.symm
    revert same
    decide +kernel

end Dkms.Orr.Rotating
