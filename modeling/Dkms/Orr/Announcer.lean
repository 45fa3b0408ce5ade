import Dkms.Core.Bytes
import Dkms.Core.Runs
import Dkms.Node.Messages
import Dkms.Orr.Tasks

namespace Dkms.Orr

open List Dkms.Core Dkms.Link
open Dkms.Node (isValidId)

def maxPeersFromSdn : Nat := 1024

structure OrrPeerWire where
  orrId : String
  qkcId : String
  grpcUrl : String

/-- What `apply_peers` takes from the standard library and from the configuration. -/
structure WireRules where
  blankOrControl : Char → Bool
  peerUrl : String → String

structure Announced where
  orr : Establisher
  spawned : List String
  localPeers : List String

namespace Announced

section

variable (rules : WireRules) (st : Announced)

def applyPeer (p : OrrPeerWire) : Announced :=
  if !isValidId p.orrId || 256 < (textBytes p.grpcUrl).length ||
      p.grpcUrl.toList.any rules.blankOrControl then st
  else if p.orrId ∉ st.spawned ∧ maxPeersFromSdn ≤ st.spawned.length then st
  else
    match parseU32 p.qkcId with
    | none => st
    | some qkcId =>
      let url := rules.peerUrl p.grpcUrl
      let peers := st.orr.peers.put p.orrId qkcId
      let peers := if p.orrId ∈ st.localPeers then peers else peers.putGrpcAddr p.orrId url
      if p.orrId ∈ st.spawned then { st with orr := { st.orr with peers } }
      else
        { st with
          orr := Establisher.spawnOne { st.orr with peers } p.orrId url
          spawned := st.spawned ++ [p.orrId] }

def withdraw (id : String) : Announced :=
  { st with
    orr := { st.orr with peers := st.orr.peers.forget id }
    spawned := st.spawned.filter (· ≠ id) }

def gone (wanted : List String) : List String :=
  st.spawned.filter fun id => id ∉ wanted ∧ id ∉ st.localPeers

def applyPeers (peers : List OrrPeerWire) : Announced :=
  let st := peers.foldl (applyPeer rules) st
  (st.gone (peers.map (·.orrId))).foldl withdraw st

end

inductive Act where
  | applyPeers (peers : List OrrPeerWire)
  | trigger (peer : String) (now : Nat)
  | advance (task : Nat) (event : Event)

def new (peers : PeerRegistry) (peerGrpcAddrs : List (String × String)) : Announced where
  orr := peerGrpcAddrs.foldl (fun orr entry => orr.spawnOne entry.1 entry.2) ⟨peers, []⟩
  spawned := peerGrpcAddrs.map (·.1)
  localPeers := peerGrpcAddrs.map (·.1)

section

variable (rules : WireRules) (crates : RotationCrates) (suite localOrrId : String)

def next (st : Announced) : Act → Announced
  | .applyPeers peers => st.applyPeers rules peers
  | .trigger peer now => { st with orr := st.orr.triggerPassiveRebootstrap peer now }
  | .advance task event =>
    { st with orr := st.orr.advance crates suite localOrrId task event }

def run (st : Announced) (acts : List Act) : Announced :=
  acts.foldl (next rules crates suite localOrrId) st

end

/-- A peer is taken up again only when nothing of its last stay is left, and withdrawn only between
two establishments. -/
def Untangled (st : Announced) : Act → Prop
  | .applyPeers peers =>
    (∀ p ∈ peers, p.orrId ∉ st.spawned → ∀ task ∈ st.orr.tasks, task.rotatesWith p.orrId = false) ∧
    ∀ id ∈ st.spawned, id ∉ peers.map (·.orrId) → id ∉ st.localPeers →
      ∀ task ∈ st.orr.tasks, task.inFlightWith id = false
  | _ => True

instance (st : Announced) : ∀ act, Decidable (Untangled st act) := by
  intro act
  rcases act with _ | _ <;> dsimp only [Untangled] <;> infer_instance

structure Single (orr : Establisher) : Prop where
  flagged : orr.Flagged
  rotates : ∀ peer, orr.tasks.countP (Task.rotatesWith peer) ≤ 1

end Announced

open Announced

variable {crates : RotationCrates} {suite localOrrId : String}

variable {orr : Establisher}

theorem Establisher.single_advance (single : Single orr) (n : Nat)
    (event : Event) : Single (orr.advance crates suite localOrrId n event) := by
  refine ⟨single.flagged.advance n event, ?_⟩
  have moves : orr.advance crates suite localOrrId n event = _ ∨ _ := orr.advance_cases n event
  rcases moves with same | ⟨task, moved, held, -, goes, moves⟩
  · rw [same]
    exact single.rotates
  rw [moves]
  intro peer
  have before := single.rotates peer
  have balance := goes.rotates_balance peer
  have replaced := countP_set (p := Task.rotatesWith peer) held ⟨task.kind, task.peer, moved.stage⟩
  obtain ⟨kind, own, stage⟩ := task
  dsimp only at balance replaced ⊢
  rw [countP_append]
  omega

theorem Establisher.single_trigger (single : Single orr) (own : String)
    (now : Nat) : Single (orr.triggerPassiveRebootstrap own now) := by
  refine ⟨single.flagged.trigger own now, ?_⟩
  rcases orr.trigger_cases own now with ⟨-, same⟩ | ⟨-, started⟩
  · rw [same]
    exact single.rotates
  rw [started]
  intro peer
  have idle : Task.rotatesWith peer ⟨.passive, own, .refreshing⟩ = false := by
    simp [Task.rotatesWith, Task.rotates]
  rw [countP_append, countP_singleton, idle]
  simpa using single.rotates peer

theorem Establisher.single_spawnOne (single : Single orr) (own addr : String)
    (free : ∀ task ∈ orr.tasks, task.rotatesWith own = false) : Single (orr.spawnOne own addr) := by
  refine ⟨single.flagged.spawnOne own addr, ?_⟩
  unfold Establisher.spawnOne
  intro peer
  rw [countP_append, countP_singleton]
  by_cases same : own = peer
  · subst same
    have none_yet : orr.tasks.countP (Task.rotatesWith own) = 0 := by
      rw [countP_eq_zero]
      intro task member
      simp [free task member]
    rw [none_yet, Nat.zero_add]
    exact ite_le_one le_rfl (Nat.zero_le 1)
  · have apart : ∀ stage, Task.rotatesWith peer ⟨.bootstrap, own, stage⟩ = false := by
      intro stage
      simp [Task.rotatesWith, same]
    rw [apart]
    simpa using single.rotates peer

theorem Announced.single_of_peers {peers : PeerRegistry} (single : Single orr)
    (flags : ∀ peer, (orr.tasks.countP (Task.inFlightWith peer) = 0) ∨
      peers.rebootstrapInflight peer = orr.peers.rebootstrapInflight peer) :
    Single { orr with peers } := by
  refine ⟨?_, single.rotates⟩
  intro peer
  rcases flags peer with none_held | same
  · rw [none_held]
    exact Nat.zero_le _
  · rw [same]
    exact single.flagged peer

namespace Announced

variable {rules : WireRules} {st : Announced}

structure Admitting (wanted : List String) (rest : List OrrPeerWire) (st : Announced) : Prop where
  single : Single st.orr
  free : ∀ p ∈ rest, p.orrId ∉ st.spawned → ∀ task ∈ st.orr.tasks, task.rotatesWith p.orrId = false
  idle : ∀ id ∈ st.spawned, id ∉ wanted → id ∉ st.localPeers →
    ∀ task ∈ st.orr.tasks, task.inFlightWith id = false

variable {wanted : List String} {rest : List OrrPeerWire}

theorem Admitting.one {p : OrrPeerWire}
    (admitting : Admitting wanted (p :: rest) st) (isWanted : p.orrId ∈ wanted) :
    Admitting wanted rest (st.applyPeer rules p) := by
  have free' : ∀ q ∈ rest, q.orrId ∉ st.spawned →
      ∀ task ∈ st.orr.tasks, task.rotatesWith q.orrId = false :=
    fun q member => admitting.free q (mem_cons_of_mem _ member)
  unfold Announced.applyPeer
  split
  · exact ⟨admitting.single, free', admitting.idle⟩
  split
  · exact ⟨admitting.single, free', admitting.idle⟩
  split
  · exact ⟨admitting.single, free', admitting.idle⟩
  rename_i qkcId _
  have single : Single { st.orr with
      peers := if p.orrId ∈ st.localPeers then st.orr.peers.put p.orrId qkcId
        else (st.orr.peers.put p.orrId qkcId).putGrpcAddr p.orrId (rules.peerUrl p.grpcUrl) } := by
    apply single_of_peers admitting.single
    intro peer
    split <;> exact .inr rfl
  dsimp only
  split
  · exact ⟨single, free', admitting.idle⟩
  rename_i fresh
  have none_left := admitting.free p mem_cons_self fresh
  refine ⟨Establisher.single_spawnOne single p.orrId _ none_left, ?_, ?_⟩
  · intro q member absent task held
    rw [mem_append, mem_singleton, not_or] at absent
    rcases Establisher.mem_spawnOne held with held | ⟨own, -⟩
    · exact free' q member absent.1 task held
    · simp [Task.rotatesWith, own, Ne.symm absent.2]
  intro id member unwanted foreign task held
  rcases Establisher.mem_spawnOne held with held | ⟨-, idle⟩
  · rcases mem_append.mp member with member | member
    · exact admitting.idle id member unwanted foreign task held
    · rw [mem_singleton.mp member] at unwanted
      exact absurd isWanted unwanted
  · exact idle id

theorem Admitting.all
    (admitting : Admitting wanted rest st) (allWanted : ∀ p ∈ rest, p.orrId ∈ wanted) :
    Admitting wanted [] (rest.foldl (Announced.applyPeer rules) st) := by
  induction rest generalizing st with
  | nil => exact admitting
  | cons p rest ih =>
    exact ih (admitting.one (allWanted p mem_cons_self))
      fun q member => allWanted q (mem_cons_of_mem _ member)

theorem single_withdraw {ids : List String} (single : Single st.orr)
    (idle : ∀ id ∈ ids, ∀ task ∈ st.orr.tasks, task.inFlightWith id = false) :
    Single (ids.foldl withdraw st).orr := by
  induction ids generalizing st with
  | nil => exact single
  | cons id ids ih =>
    apply ih
    · apply single_of_peers single
      intro peer
      by_cases same : peer = id
      · subst same
        left
        rw [countP_eq_zero]
        intro task held
        simp [idle peer mem_cons_self task held]
      · exact .inr (Function.update_of_ne same ..)
    · intro id' member task held
      exact idle id' (mem_cons_of_mem _ member) task held

theorem single_applyPeers {peers : List OrrPeerWire} (single : Single st.orr)
    (untangled : Untangled st (.applyPeers peers)) : Single (st.applyPeers rules peers).orr := by
  have admitting : Admitting (peers.map (·.orrId)) peers st := ⟨single, untangled.1, untangled.2⟩
  have admitted : Admitting (peers.map (·.orrId)) [] (peers.foldl (Announced.applyPeer rules) st) :=
    admitting.all fun p member => mem_map.mpr ⟨p, member, rfl⟩
  apply single_withdraw admitted.single
  intro id member
  have ⟨known, left⟩ := mem_filter.mp member
  have ⟨unwanted, foreign⟩ := of_decide_eq_true left
  exact admitted.idle id known unwanted foreign

theorem single_new (peers : PeerRegistry) {peerGrpcAddrs : List (String × String)}
    (distinct : (peerGrpcAddrs.map (·.1)).Nodup) : Single (new peers peerGrpcAddrs).orr := by
  have general : ∀ (entries : List (String × String)) (orr : Establisher), Single orr →
      (entries.map (·.1)).Nodup →
      (∀ entry ∈ entries, ∀ task ∈ orr.tasks, task.rotatesWith entry.1 = false) →
      Single (entries.foldl (fun orr entry => orr.spawnOne entry.1 entry.2) orr) := by
    intro entries
    induction entries with
    | nil => exact fun orr single _ _ => single
    | cons entry entries ih =>
      intro orr single distinct free
      rw [map_cons, nodup_cons] at distinct
      apply ih
      · exact Establisher.single_spawnOne single _ _ (free entry mem_cons_self)
      · exact distinct.2
      intro later member task held
      rcases Establisher.mem_spawnOne held with held | ⟨own, -⟩
      · exact free later (mem_cons_of_mem _ member) task held
      have other : entry.1 ≠ later.1 := by
        intro same
        exact distinct.1 (same ▸ mem_map.mpr ⟨later, member, rfl⟩)
      simp [Task.rotatesWith, own, other]
  exact general peerGrpcAddrs ⟨peers, []⟩ ⟨fun _ => Nat.zero_le _, fun _ => Nat.zero_le _⟩ distinct (by simp)

def rotationOf (peer : String) (task : Task) : Bool :=
  task.peer = peer && task.kind = .rotation && task.alive

/-- In every run in which no peer comes back to what it left behind, and none is withdrawn in the
middle of an establishment, each peer has at most one rotation loop and one establishment. -/
theorem one_rotation_one_establishment (rules : WireRules) (crates : RotationCrates)
    (suite localOrrId : String) (peers : PeerRegistry) (peerGrpcAddrs : List (String × String))
    (distinct : (peerGrpcAddrs.map (·.1)).Nodup) (acts : List Act)
    (untangled : Follows (next rules crates suite localOrrId) Untangled (new peers peerGrpcAddrs)
      acts) (peer : String) :
    let st := run rules crates suite localOrrId (new peers peerGrpcAddrs) acts
    st.orr.tasks.countP (rotationOf peer) ≤ 1 ∧
      st.orr.tasks.countP (Task.inFlightWith peer) ≤ 1 := by
  have keeps : ∀ st act, Single st.orr → Untangled st act →
      Single (next rules crates suite localOrrId st act).orr := by
    intro st act single untangled
    cases act with
    | applyPeers peers => exact single_applyPeers single untangled
    | trigger peer now => exact Establisher.single_trigger single peer now
    | advance n event => exact Establisher.single_advance single n event
  have single : Single (run rules crates suite localOrrId (new peers peerGrpcAddrs) acts).orr :=
    untangled.invariant keeps (single_new peers distinct)
  constructor
  · refine le_trans (countP_mono_left ?_) (single.rotates peer)
    intro task _ loops
    simp only [rotationOf, Bool.and_eq_true, decide_eq_true_eq] at loops
    simp [Task.rotatesWith, Task.rotates, loops.1.1, loops.1.2, loops.2]
  · exact le_trans (single.flagged peer) (Bool.toNat_le _)

def plainRules : WireRules where
  blankOrControl c := c.toNat ≤ 32
  peerUrl url := url

def orrB : OrrPeerWire := ⟨"orr_b", "2", "http://b"⟩
def orrC : OrrPeerWire := ⟨"orr_c", "3", "http://c"⟩

def bootstraps (task : Nat) : List Act :=
  [.advance task (.fetched (some [7]) 0), .advance task .enter, .advance task .check,
    .advance task (.mark 9), .advance task (.answer true), .advance task (.reply 0),
    .advance task .store, .advance task .spawnRotation]

theorem one_rotation_one_establishment_of_two_peers :
    let st := run plainRules byteCrates "ML-KEM-768" "orr_a" (new PeerRegistry.new [])
      (.applyPeers [orrB, orrC] :: bootstraps 0 ++
        [.advance 1 (.fetched (some [8]) 0), .applyPeers [orrB], .trigger "orr_b" 3])
    st.orr.tasks.countP (rotationOf "orr_b") ≤ 1 ∧ st.orr.tasks.countP (Task.inFlightWith "orr_b") ≤ 1 :=
  one_rotation_one_establishment plainRules byteCrates "ML-KEM-768" "orr_a" PeerRegistry.new []
    nodup_nil _ (by decide +kernel) "orr_b"

/-- A peer that leaves the list and comes back gets a second rotation loop next to the first; one
that does so during a bootstrap gets a second establishment next to the first. -/
theorem returning_peer_rotates_twice :
    (run plainRules byteCrates "ML-KEM-768" "orr_a" (new PeerRegistry.new [])
        ([.applyPeers [orrB]] ++ bootstraps 0 ++ [.applyPeers [], .applyPeers [orrB]] ++
          bootstraps 2)).orr.tasks.countP (rotationOf "orr_b") = 2 ∧
      (run plainRules byteCrates "ML-KEM-768" "orr_a" (new PeerRegistry.new [])
        ([.applyPeers [orrB]] ++ (bootstraps 0).take 4 ++ [.applyPeers [], .applyPeers [orrB]] ++
          (bootstraps 1).take 4)).orr.tasks.countP (Task.inFlightWith "orr_b") = 2 := by
  decide +kernel

end Announced

end Dkms.Orr
