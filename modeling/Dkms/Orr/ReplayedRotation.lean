import Dkms.Core.Runs
import Dkms.Orr.Rotation

namespace Dkms.Orr.Rotating

open Std Dkms.Core Dkms.Link PeerRegistry

def Act.isReplay : Act → Bool
  | .replayRequest _ _ => true
  | .replayFin _ => true
  | _ => false

/-- A FIN finds an ephemeral key of its epoch only if it is the one the initiator is waiting on, for
an epoch not yet in use. -/
def Spent (a b : String) (st : Rotating) : Act → Prop
  | .deliverFin n =>
    match st.fins n, st.finReplies n with
    | some fin, none =>
      (st.phase = .finishing n fin.epochId ∧
        st.initiator.currentSendEpochs b ≠ some fin.epochId) ∨
        (st.responder.ephemeralSks a)[fin.epochId]? = none
    | _, _ => True
  | .replayFin n =>
    match st.fins n with
    | some fin => (st.responder.ephemeralSks a)[fin.epochId]? = none
    | none => True
  | _ => True

instance (a b : String) (st : Rotating) : ∀ act, Decidable (Spent a b st act) := by
  intro act
  rcases act with _ | _ <;> dsimp only [Spent]
  case deliverFin n =>
    rcases st.fins n with _ | _ <;> rcases st.finReplies n with _ | _ <;> infer_instance
  case replayFin n => rcases st.fins n with _ | _ <;> infer_instance
  all_goals infer_instance

variable {crates : RotationCrates} {suite a b : String} {epochHistoryKeep : Nat}
  {st st' : Rotating}

variable {peers responder : PeerRegistry}

theorem request_keeps_masters {seed : Nat} {request : RequestEphemeralKey}
    {reply : Except String (Bytes × Bytes)}
    (handled : crates.handleRequestEphemeralKey peers b suite seed request = (reply, responder)) :
    responder.masterSecrets = peers.masterSecrets := by
  rcases crates.handleRequest_cases peers b suite seed request with
    ⟨text, refused⟩ | ⟨kem, pubkey, secret, mac, -, -, answered⟩
  · rw [refused] at handled
    cases handled
    rfl
  · rw [answered] at handled
    cases handled
    rfl

theorem keyless_fin_keeps_masters (lower : crates.toLowercase a = a)
    {fin : EstablishEphemeralSecret} {reply : Except String Unit}
    (sender : fin.fromOrr = a) (keyless : (peers.ephemeralSks a)[fin.epochId]? = none)
    (handled : crates.handleEstablishEphemeralSecret peers b suite epochHistoryKeep fin =
      (reply, responder)) : responder.masterSecrets = peers.masterSecrets := by
  have outcome := crates.handleEstablish_cases peers b suite epochHistoryKeep fin
  rw [handled, sender, lower] at outcome
  rcases outcome with ⟨text, refused⟩ | ⟨text, refused⟩ | ⟨kem, esk, secret, -, stored, -, -⟩
  · cases refused
    rfl
  · cases refused
    rfl
  · cases keyless.symm.trans stored

theorem replay_keeps_masters (lower : crates.toLowercase a = a) {act : Act}
    (numbered : Numbered a b st) (spent : Spent a b st act) (replayed : act.isReplay)
    (step : Step crates suite a b epochHistoryKeep st act st') :
    st'.responder.masterSecrets = st.responder.masterSecrets := by
  cases step with
  | stays => rfl
  | requestReplayed sent handled => exact request_keeps_masters handled
  | @finReplayed n fin reply responder sent handled =>
    simp only [Spent, sent] at spent
    exact keyless_fin_keeps_masters lower (numbered.fin n fin sent).2 spent handled
  | _ => cases replayed

structure Settled (a b : String) (epochId : UInt32) (secret : Bytes) (st : Rotating) : Prop where
  numbered : Numbered a b st
  committed : ∃ current, st.initiator.currentSendEpochs b = some current ∧ epochId ≤ current
  held : st.responder.masterForEpoch a epochId = some secret ∨ st.responder.masterForEpoch a epochId = none

section

variable {epochId : UInt32} {secret : Bytes}

variable {peers peers' : PeerRegistry}

theorem held_of_fewer (fewer : ∀ secret', peers'.masterForEpoch a epochId = some secret' →
      peers.masterForEpoch a epochId = some secret')
    (held : peers.masterForEpoch a epochId = some secret ∨ peers.masterForEpoch a epochId = none) :
    peers'.masterForEpoch a epochId = some secret ∨ peers'.masterForEpoch a epochId = none := by
  cases found : peers'.masterForEpoch a epochId with
  | none => exact .inr rfl
  | some secret' =>
    have before := fewer secret' found
    rcases held with held | held
    · exact .inl (before.symm.trans held)
    · cases before.symm.trans held

theorem held_of_masters (masters : peers'.masterSecrets = peers.masterSecrets)
    (held : peers.masterForEpoch a epochId = some secret ∨ peers.masterForEpoch a epochId = none) :
    peers'.masterForEpoch a epochId = some secret ∨ peers'.masterForEpoch a epochId = none := by
  unfold masterForEpoch at held ⊢
  rwa [masters]

theorem Settled.finHandled (lower : crates.toLowercase a = a) {n : Nat}
    {fin : EstablishEphemeralSecret} {reply : Except String Unit} {responder : PeerRegistry}
    (settled : Settled a b epochId secret st) (sent : st.fins n = some fin)
    (spent : (st.phase = .finishing n fin.epochId ∧
        st.initiator.currentSendEpochs b ≠ some fin.epochId) ∨
      (st.responder.ephemeralSks a)[fin.epochId]? = none)
    (handled : crates.handleEstablishEphemeralSecret st.responder b suite epochHistoryKeep fin =
      (reply, responder)) : responder.masterForEpoch a epochId = some secret ∨
      responder.masterForEpoch a epochId = none := by
  obtain ⟨numbered, ⟨current, set, reached⟩, held⟩ := settled
  have sender := (numbered.fin n fin sent).2
  rcases spent with ⟨waiting, unused⟩ | keyless
  · have after : epochId < fin.epochId := by
      obtain ⟨epoch, -⟩ := numbered.finishing n fin.epochId waiting
      rw [set, Option.getD_some] at epoch
      rw [set] at unused
      have room : current ≠ 0xFFFFFFFF := by
        intro full
        apply unused
        rw [epoch, nextEpoch, if_pos full]
      rw [epoch]
      exact UInt32.lt_of_le_of_lt reached (lt_nextEpoch room)
    have other : fin.epochId ≠ epochId := by
      intro same
      rw [same] at after
      exact absurd after (UInt32.lt_irrefl _)
    have outcome := crates.handleEstablish_cases st.responder b suite epochHistoryKeep fin
    rw [handled, sender, lower] at outcome
    rcases outcome with ⟨text, refused⟩ | ⟨text, refused⟩ | ⟨kem, esk, fresh, -, -, -, done⟩
    · cases refused
      exact held
    · cases refused
      exact held_of_masters rfl held
    cases done
    refine held_of_fewer ?_ held
    intro secret' found
    have written := masterForEpoch_dropOld found
    rw [masterForEpoch_setMaster_self, if_neg other] at written
    exact written
  · exact held_of_masters (keyless_fin_keeps_masters lower sender keyless handled) held

theorem Settled.step (lower : crates.toLowercase a = a) {act : Act}
    (settled : Settled a b epochId secret st) (spent : Spent a b st act)
    (step : Step crates suite a b epochHistoryKeep st act st') :
    Settled a b epochId secret st' := by
  have numbered := settled.numbered.step step
  cases step with
  | @finHandled n fin reply responder sent first handled =>
    simp only [Spent, sent, first] at spent
    exact ⟨numbered, settled.committed, settled.finHandled lower sent spent handled⟩
  | requestHandled sent first handled =>
    exact ⟨numbered, settled.committed, held_of_masters (request_keeps_masters handled) settled.held⟩
  | requestReplayed sent handled =>
    exact ⟨numbered, settled.committed, held_of_masters (request_keeps_masters handled) settled.held⟩
  | @finReplayed n fin reply responder sent handled =>
    simp only [Spent, sent] at spent
    have sender := (settled.numbered.fin n fin sent).2
    exact ⟨numbered, settled.committed,
      held_of_masters (keyless_fin_keeps_masters lower sender spent handled) settled.held⟩
  | @committed n next waiting accepted =>
    obtain ⟨current, set, reached⟩ := settled.committed
    obtain ⟨epoch, -⟩ := settled.numbered.finishing n next waiting
    rw [set, Option.getD_some] at epoch
    refine ⟨numbered, ⟨next, Function.update_self .., ?_⟩, settled.held⟩
    by_cases full : current = 0xFFFFFFFF
    · rw [epoch, nextEpoch, if_pos full]
      exact reached
    · rw [epoch]
      exact UInt32.le_of_lt (UInt32.lt_of_le_of_lt reached (lt_nextEpoch full))
  | responderPruned keepLastN =>
    refine ⟨numbered, settled.committed, held_of_fewer ?_ settled.held⟩
    intro secret' found
    exact masterForEpoch_dropOld found
  | _ => exact ⟨numbered, settled.committed, settled.held⟩

end

theorem run_numbered (crates : RotationCrates) (suite a b : String) (epochHistoryKeep : Nat)
    (initiator responder : PeerRegistry) (acts : List Act) :
    Numbered a b (run crates suite a b epochHistoryKeep (new initiator responder) acts) := by
  have follows : Follows (next crates suite a b epochHistoryKeep) (fun _ _ => True)
      (new initiator responder) acts := Follows.all _ acts
  exact follows.invariant (fun st act numbered _ => numbered.step (next_step act))
    (new_numbered initiator responder)

/-- In every run in which a FIN finds an ephemeral key only while it is waited for, no replayed
message touches the responder's master secrets, and the secret of an epoch in use is never
replaced. -/
theorem replays_change_no_secret (crates : RotationCrates) (suite a b : String)
    (epochHistoryKeep : Nat) (lower : crates.toLowercase a = a)
    (initiator responder : PeerRegistry) (acts : List Act)
    (spent : Follows (next crates suite a b epochHistoryKeep) (Spent a b) (new initiator responder) acts) :
    (∀ before replay after, acts = before ++ replay :: after → replay.isReplay →
      (run crates suite a b epochHistoryKeep (new initiator responder)
          (before ++ [replay])).responder.masterSecrets =
        (run crates suite a b epochHistoryKeep (new initiator responder) before).responder.masterSecrets ∧
      (run crates suite a b epochHistoryKeep (new initiator responder)
          (before ++ [replay])).responder.latestEpochFor a =
        (run crates suite a b epochHistoryKeep (new initiator responder) before).responder.latestEpochFor a) ∧
    ∀ before after, acts = before ++ after → ∀ current epochId secret,
      (run crates suite a b epochHistoryKeep (new initiator responder)
        before).initiator.currentSendEpochs b = some current → epochId ≤ current →
      (run crates suite a b epochHistoryKeep (new initiator responder)
        before).responder.masterForEpoch a epochId = some secret →
      (run crates suite a b epochHistoryKeep (new initiator responder)
          acts).responder.masterForEpoch a epochId = some secret ∨
        (run crates suite a b epochHistoryKeep (new initiator responder)
          acts).responder.masterForEpoch a epochId = none := by
  constructor
  · intro before replay after split replayed
    have allowed := follows_iff_splits.mp spent before replay after split
    have numbered := run_numbered crates suite a b epochHistoryKeep initiator responder before
    have last : run crates suite a b epochHistoryKeep (new initiator responder)
        (before ++ [replay]) = next crates suite a b epochHistoryKeep
          (run crates suite a b epochHistoryKeep (new initiator responder) before) replay := by
      simp only [run, List.foldl_append, List.foldl_cons, List.foldl_nil]
    rw [last]
    have masters : (next crates suite a b epochHistoryKeep (run crates suite a b epochHistoryKeep
        (new initiator responder) before) replay).responder.masterSecrets = _ :=
      replay_keeps_masters lower numbered allowed replayed (next_step replay)
    refine ⟨masters, ?_⟩
    rw [latestEpochFor, masters, latestEpochFor]
  · intro before after split current epochId secret set reached held
    have numbered := run_numbered crates suite a b epochHistoryKeep initiator responder before
    subst split
    have later := (follows_append.mp spent).2
    have settled := later.invariant
      (fun st act settled allowed => Settled.step lower settled allowed (next_step act))
      (⟨numbered, ⟨current, set, reached⟩, .inl held⟩ : Settled a b epochId secret _)
    have whole := settled.held
    rw [← List.foldl_append] at whole
    exact whole

def replayedLate : List Act :=
  [.start, .deliverRequest 0 7, .install 9, .sendFin, .deliverFin 0, .replayFin 0, .finish,
    .replayRequest 0 8]

theorem replays_change_no_secret_after_rotation : (run byteCrates "ML-KEM-768" "a" "b" 2
        (new (PeerRegistry.new.resetForBootstrap "b" (padded [1]))
          (PeerRegistry.new.resetForBootstrap "a" (padded [1])))
        (replayedLate.take 7)).responder.masterForEpoch "a" 1 = some (padded [7, 9]) ∧
      ((run byteCrates "ML-KEM-768" "a" "b" 2
          (new (PeerRegistry.new.resetForBootstrap "b" (padded [1]))
            (PeerRegistry.new.resetForBootstrap "a" (padded [1])))
          replayedLate).responder.masterForEpoch "a" 1 = some (padded [7, 9]) ∨
        (run byteCrates "ML-KEM-768" "a" "b" 2
          (new (PeerRegistry.new.resetForBootstrap "b" (padded [1]))
            (PeerRegistry.new.resetForBootstrap "a" (padded [1])))
          replayedLate).responder.masterForEpoch "a" 1 = none) := by
  refine ⟨by decide +kernel, ?_⟩
  apply (replays_change_no_secret byteCrates "ML-KEM-768" "a" "b" 2 rfl _ _ replayedLate
    (by decide +kernel)).2 (replayedLate.take 7) [.replayRequest 0 8] rfl 1
  · decide +kernel
  · decide
  · decide +kernel

/-- After a completed rotation its request and its FIN, sent again, give the responder another
secret for the epoch; a FIN given up on, sent again, gives it an epoch the initiator lacks. -/
theorem replayed_rotation_changes_secret :
    (let start := new (PeerRegistry.new.resetForBootstrap "b" (padded [1]))
        (PeerRegistry.new.resetForBootstrap "a" (padded [1]))
      let rotated := run byteCrates "ML-KEM-768" "a" "b" 2 start
        [.start, .deliverRequest 0 7, .install 9, .sendFin, .deliverFin 0, .finish]
      let replayed := run byteCrates "ML-KEM-768" "a" "b" 2 rotated [.replayRequest 0 8, .replayFin 0]
      rotated.initiator.currentSendEpochs "b" = some 1 ∧
        rotated.responder.masterForEpoch "a" 1 = some (padded [7, 9]) ∧
        rotated.initiator.masterForEpoch "b" 1 = some (padded [7, 9]) ∧
        replayed.responder.masterForEpoch "a" 1 = some (padded [0xFF, 7, 9])) ∧
      let start := new (PeerRegistry.new.resetForBootstrap "b" (padded [1]))
        (PeerRegistry.new.resetForBootstrap "a" (padded [1]))
      let givenUp := run byteCrates "ML-KEM-768" "a" "b" 2 start
        [.start, .deliverRequest 0 7, .install 9, .sendFin, .giveUp]
      let replayed := run byteCrates "ML-KEM-768" "a" "b" 2 givenUp [.replayFin 0]
      givenUp.responder.latestEpochFor "a" = some 0 ∧
        replayed.responder.latestEpochFor "a" = some 1 := by
  decide +kernel

end Dkms.Orr.Rotating
