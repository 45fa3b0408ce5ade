import Dkms.Orr.Network

namespace Dkms.Orr

open Function Std Dkms.Core Dkms.Link Dkms.Replay PeerRegistry

variable {Header : Type} (suite : Suite Header)

namespace PeerRegistry

def material (peers : PeerRegistry) (peer : String) :
    Option Bytes × TreeMap UInt32 Bytes × Option UInt32 :=
  (peers.bootstrapSecrets peer, peers.masterSecrets peer, peers.currentSendEpochs peer)

def Opens (peers : PeerRegistry) (frame : OrrFrame Header) : Prop :=
  ∃ secret ∈ peers.masterForEpoch (suite.toLowercase frame.header.fromOrr) frame.epochId,
    frame.header.keyId.any fun keyId =>
      (suite.openLayer secret keyId frame.payload frame.header.tag frame.epochId
        frame.header.maxHops frame.header.fresh (suite.encodeDkms frame.dkms)).isSome

instance (peers : PeerRegistry) (frame : OrrFrame Header) : Decidable (peers.Opens suite frame) :=
  inferInstanceAs (Decidable (∃ secret ∈ peers.masterForEpoch _ _, _))

end PeerRegistry

/-- What reaches an ORR: a frame, what lets one of its tasks go on, or a peer to bootstrap with. -/
inductive Input (Header : Type) where
  | frame (frame : OrrFrame Header) (readAt acceptAt : Nat)
  | task (n : Nat) (event : Event)
  | peer (orrId addr : String)

namespace OrrService

def receive (crates : RotationCrates) (kem : String) (s : OrrService) : Input Header → OrrService
  | .frame frame readAt acceptAt => (s.handleIncoming suite frame readAt acceptAt).2
  | .task n event => { s with toEstablisher := s.toEstablisher.advance crates kem s.orrId n event }
  | .peer orrId addr => { s with toEstablisher := s.toEstablisher.spawnOne orrId addr }

/-- The frame does not open; a task takes any step but the one that stores the secret of an RPC. -/
def Unopened (s : OrrService) : Input Header → Prop
  | .frame frame _ _ => ¬ s.peers.Opens suite frame
  | .task _ event => event ≠ .store
  | .peer _ _ => True

/-- The frame names `peer` with an epoch that is not held, and nothing holds back a re-bootstrap. -/
def Erases (peer : String) (s : OrrService) : Input Header → Prop
  | .frame frame readAt _ =>
    (frame.header.kind = "" ∨ frame.header.kind = headerType) ∧ frame.header.keyId.isSome ∧
      suite.toLowercase frame.header.fromOrr = peer ∧
      s.peers.masterForEpoch peer frame.epochId = none ∧ s.Renews peer readAt
  | .task _ _ | .peer _ _ => False

instance (s : OrrService) : ∀ input, Decidable (s.Unopened suite input)
  | .frame frame _ _ => inferInstanceAs (Decidable (¬ s.peers.Opens suite frame))
  | .task _ event => inferInstanceAs (Decidable (event ≠ .store))
  | .peer _ _ => .isTrue trivial

instance (peer : String) (s : OrrService) : ∀ input, Decidable (Erases suite peer s input)
  | .frame _ _ _ => inferInstanceAs (Decidable (_ ∧ _))
  | .task _ _ | .peer _ _ => .isFalse id

variable {suite} {crates : RotationCrates} {kem : String} {s : OrrService}

theorem goes_material {peers : PeerRegistry} {own : String} {kind : TaskKind} {stage : Stage}
    {event : Event} {moved : Moved} (goes : Task.Goes crates kem peers own kind stage event moved)
    (unstored : event ≠ .store) (peer : String) : moved.peers.material peer = peers.material peer := by
  cases goes with
  | storedLate => exact absurd rfl unstored
  | stored => exact absurd rfl unstored
  | refused later pubkey secret now registered => rcases registered with rfl | rfl <;> rfl
  | _ => rfl

theorem trigger_material (s : OrrService) (own peer : String) (now : Nat) :
    (s.triggerPassiveRebootstrap own now).peers.material peer =
      if own = peer ∧ s.Renews own now then (none, ∅, none) else s.peers.material peer := by
  unfold triggerPassiveRebootstrap
  rcases s.toEstablisher.trigger_cases own now with ⟨held, same⟩ | ⟨renews, started⟩
  · rw [same, if_neg (fun both => held both.2)]
  rw [started]
  unfold material clearPeerSecrets
  by_cases apart : own = peer
  · subst apart
    simp [renews]
  · simp [update_of_ne (Ne.symm apart), apart]

theorem material_receive (crates : RotationCrates) (kem : String) {input : Input Header}
    (unopened : s.Unopened suite input) (peer : String) :
    (s.receive suite crates kem input).peers.material peer =
      if Erases suite peer s input then (none, ∅, none) else s.peers.material peer := by
  cases input with
  | task n event =>
    rw [if_neg (show ¬ Erases suite peer s (.task n event) from id)]
    show (s.toEstablisher.advance crates kem s.orrId n event).peers.material peer = _
    rcases s.toEstablisher.advance_cases n event with same | ⟨task, moved, -, -, goes, moves⟩
    · rw [same]
    · rw [moves]
      exact goes_material goes unopened peer
  | peer orrId addr => exact (if_neg id).symm
  | frame frame readAt acceptAt =>
    unfold receive handleIncoming
    dsimp only
    split
    · rename_i foreign
      refine (if_neg ?_).symm
      rintro ⟨ours, -⟩
      exact ours.elim foreign.1 foreign.2
    rename_i kind
    split
    · rename_i clear
      refine (if_neg ?_).symm
      rintro ⟨-, layered, -⟩
      rw [clear] at layered
      cases layered
    rename_i keyId layered
    unfold handleOnionIn
    split
    · rename_i unheld
      rw [trigger_material]
      refine if_congr ⟨?_, ?_⟩ rfl rfl
      · rintro ⟨rfl, renews⟩
        have ours : frame.header.kind = "" ∨ frame.header.kind = headerType := by
          simpa only [not_and_or, ne_eq, not_not] using kind
        exact ⟨ours, Option.isSome_of_mem layered, rfl, unheld, renews⟩
      · rintro ⟨-, -, rfl, -, renews⟩
        exact ⟨rfl, renews⟩
    rename_i secret held
    have peeled : suite.peel secret keyId frame.payload frame.header.tag frame.header.maxHops
        frame.epochId frame.header.fresh (suite.encodeDkms frame.dkms) = .error .aead := by
      have fails : suite.openLayer secret keyId frame.payload frame.header.tag frame.epochId
          frame.header.maxHops frame.header.fresh (suite.encodeDkms frame.dkms) = none := by
        rw [← Option.not_isSome_iff_eq_none]
        exact fun opens => unopened ⟨secret, held, by rw [layered]; exact opens⟩
      unfold Suite.peel
      rw [fails]
    rw [peeled]
    refine (if_neg ?_).symm
    rintro ⟨-, -, rfl, unheld, -⟩
    cases held.symm.trans unheld

def bootstrapped : OrrService :=
  { OrrService.new "orr_1" 1 1001 with
    peers := (((PeerRegistry.new.put "orr_2" 2).putPubkey "orr_2" [9]).putGrpcAddr "orr_2"
      "http://10.0.0.2:50052").resetForBootstrap "orr_2" [12] }

def forged (epochId : UInt32) : OrrFrame Bytes :=
  ⟨0, 1, epochId, .onion "orr_2" "orr_1" "orr_1" 7 0 ⟨1002, 1⟩ [], [5], [42]⟩

end OrrService

end Dkms.Orr
