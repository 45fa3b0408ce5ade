import Dkms.Link.Agreement
import Dkms.Link.Resync

namespace Dkms.Link

open List Std Dkms.Core TreeMap SecretStore PqcHandshake

namespace Peers

variable {Seed : Type} {kem : Kem Seed} {l : Peers}

theorem next_responder (kem : Kem Seed) (l : Peers) (act : Act Seed) :
    (l.next kem act).responder = l.responder ∨ act = .restartResponder ∨
      ∃ epoch pubkey seed, (l.next kem act).responder =
        (l.responder.handleInit kem epoch pubkey seed).1 := by
  cases act with
  | start epoch seed =>
    left
    show (l.start kem epoch seed).responder = l.responder
    unfold start
    split <;> rfl
  | sendInit =>
    left
    show l.sendInit.responder = l.responder
    unfold sendInit
    split
    · split <;> rfl
    · rfl
  | finish =>
    left
    show l.finish.responder = l.responder
    unfold finish
    split
    · split <;> rfl
    · rfl
  | prune base =>
    left
    simp only [next]
    split <;> rfl
  | deliverInit epoch pubkey seed =>
    by_cases arrived : .init epoch pubkey ∈ l.sent
    · exact .inr (.inr ⟨epoch, pubkey, seed, by simp [next, deliverInit, arrived]⟩)
    · exact .inl (by simp [next, deliverInit, arrived])
  | deliverResp epoch ciphertext =>
    left
    show (l.deliverResp kem epoch ciphertext).responder = l.responder
    unfold deliverResp
    split <;> rfl
  | restartResponder => exact .inr (.inl rfl)
  | _ => exact .inl rfl

variable {epoch n : Nat}

theorem handleInit_respCache (kem : Kem Seed) (h : PqcHandshake) (e : Nat) (pubkey : Bytes) (seed : Seed)
    (cached : epoch ∈ h.respCache) :
    epoch ∈ (h.handleInit kem e pubkey seed).1.respCache := by
  have encapsulated : ∀ stale, epoch ∈ (h.encapsulate kem e pubkey seed stale).1.respCache := by
    intro stale
    unfold encapsulate
    split
    · exact cached
    apply mem_insert.mpr
    right
    unfold publishReplacing publish
    split <;> rw [publishInner_respCache] <;> exact cached
  unfold handleInit
  split
  · split
    · exact cached
    · exact encapsulated true
  · exact encapsulated false

theorem respCache_kept (later : List (Act Seed)) (alive : .restartResponder ∉ later)
    (cached : epoch ∈ l.responder.respCache) : epoch ∈ (l.run kem later).responder.respCache := by
  induction later generalizing l with
  | nil => exact cached
  | cons act later ih =>
    rw [mem_cons, not_or] at alive
    apply ih alive.2
    rcases next_responder kem l act with same | restart | ⟨e, pubkey, seed, moved⟩
    · rw [same]
      exact cached
    · exact absurd restart.symm alive.1
    · rw [moved]
      exact handleInit_respCache kem _ e pubkey seed cached

structure Rotated (n : Nat) (l : Peers) : Prop where
  idle : l.establishing = none
  room : 0 < l.initiator.store.keep
  held : ∀ e s, l.initiator.store.get e = some s → e < n
  fresh : ∀ e, n ≤ e → l.initiator.pendingSk[e]? = none
  cached : ∀ e, e ∈ l.responder.respCache ↔ e < n

structure Draw (kem : Kem Seed) where
  seed : Seed
  pair : KemKeypair
  encapSeed : Seed
  ciphertext : Bytes
  secret : Bytes
  keygen : kem.keygen seed = some pair
  encap : kem.encap encapSeed pair.publicKey = some (ciphertext, secret)

def rotation (epoch : Nat) (draw : Draw kem) : List (Act Seed) :=
  [.start epoch draw.seed, .sendInit, .deliverInit epoch draw.pair.publicKey draw.encapSeed,
    .deliverResp epoch draw.ciphertext, .finish]

theorem Rotated.rotation (rotated : Rotated n l) (lawful : kem.Lawful) (draw : Draw kem) :
    Rotated (n + 1) (l.run kem (rotation n draw)) := by
  obtain ⟨seed, pair, encapSeed, ct, ss, keygen, encap⟩ := draw
  have absent : l.initiator.store.contains n = false := by
    rw [contains_iff]
    cases held : l.initiator.store.get n with
    | none => rfl
    | some s => exact absurd (rotated.held n s held) (Nat.lt_irrefl n)
  have unpended : l.initiator.pendingSk.contains n = false := by
    rw [TreeMap.contains_eq_isSome_getElem?, rotated.fresh n le_rfl]
    rfl
  have uncached : l.responder.respCache[n]? = none := by
    apply TreeMap.getElem?_eq_none
    rw [rotated.cached]
    exact Nat.lt_irrefl n
  have length := lawful.length encapSeed pair.publicKey ct ss encap
  have decap := lawful.shared seed pair encapSeed ct ss keygen encap
  -- the states after the five acts
  let keyed : PqcHandshake :=
    { l.initiator with
      pendingSk := l.initiator.pendingSk.insert n pair.secretKey
      pendingPk := l.initiator.pendingPk.insert n pair.publicKey }
  let answered : PqcHandshake :=
    { l.responder.publish n ss with
      respCache := (l.responder.publish n ss).respCache.insert n (pair.publicKey, ct) }
  have started : l.next kem (.start n seed) =
      { l with initiator := keyed, establishing := some (n, pair.publicKey) } := by
    simp [next, start, rotated.idle, absent, PqcHandshake.establishKey, unpended, keygen, keyed]
  have asked : Peers.next kem
      { l with initiator := keyed, establishing := some (n, pair.publicKey) } .sendInit =
      { l with
        initiator := keyed
        establishing := some (n, pair.publicKey)
        sent := .init n pair.publicKey :: l.sent } := by
    simp [next, sendInit, keyed, absent]
  have replied : Peers.next kem
      { l with
        initiator := keyed
        establishing := some (n, pair.publicKey)
        sent := .init n pair.publicKey :: l.sent } (.deliverInit n pair.publicKey encapSeed) =
      { l with
        initiator := keyed
        responder := answered
        establishing := some (n, pair.publicKey)
        sent := .resp n ct :: .init n pair.publicKey :: l.sent } := by
    simp [next, deliverInit, PqcHandshake.handleInit, uncached, PqcHandshake.encapsulate, encap, answered]
  have stored : Peers.next kem
      { l with
        initiator := keyed
        responder := answered
        establishing := some (n, pair.publicKey)
        sent := .resp n ct :: .init n pair.publicKey :: l.sent } (.deliverResp n ct) =
      { l with
        initiator := { keyed with store := l.initiator.store.insert n ss }
        responder := answered
        establishing := some (n, pair.publicKey)
        sent := .resp n ct :: .init n pair.publicKey :: l.sent } := by
    simp [next, deliverResp, PqcHandshake.handleResp, keyed, absent, decap, PqcHandshake.publish,
      PqcHandshake.publishInner, length]
  have top : (l.initiator.store.insert n ss).highest = some n :=
    highest_insert_above rotated.room rotated.held
  obtain ⟨present, highest⟩ := highest_eq_some.mp top
  rw [← contains_iff] at present
  have finished : Peers.next kem
      { l with
        initiator := { keyed with store := l.initiator.store.insert n ss }
        responder := answered
        establishing := some (n, pair.publicKey)
        sent := .resp n ct :: .init n pair.publicKey :: l.sent } .finish =
      { initiator := PqcHandshake.establishDone { keyed with store := l.initiator.store.insert n ss } n
        responder := answered
        establishing := none
        sent := .resp n ct :: .init n pair.publicKey :: l.sent } := by
    simp [next, finish, present]
  simp only [run, Peers.rotation, foldl_cons, foldl_nil, started, asked, replied, stored, finished]
  refine ⟨rfl, ?_, ?_, ?_, ?_⟩
  · show 0 < (l.initiator.store.insert n ss).keep
    rw [insert_keep]
    exact rotated.room
  · intro e s held
    exact Nat.lt_succ_of_le (highest e s held)
  · intro e later
    have apart : n ≠ e := by omega
    show ((l.initiator.pendingSk.insert n pair.secretKey).erase n)[e]? = none
    simp [TreeMap.getElem?_erase, TreeMap.getElem?_insert, apart, rotated.fresh e (by omega)]
  intro e
  rw [TreeMap.mem_insert, Nat.compare_eq_eq, PqcHandshake.publish,
    PqcHandshake.publishInner_respCache, rotated.cached]
  omega

def rotations (draw : Nat → Draw kem) (n : Nat) : List (Act Seed) :=
  (List.range n).flatMap fun epoch => rotation epoch (draw epoch)

theorem new_rotated (keepInitiator keepResponder : Nat) (room : 0 < keepInitiator) :
    Rotated 0 (new keepInitiator keepResponder) where
  idle := rfl
  room := room
  held e s held := absurd held (new_store_get keepInitiator e s)
  fresh e _ := by simp [new, PqcHandshake.new]
  cached e := by simp [new, PqcHandshake.new]

theorem rotations_rotated (lawful : kem.Lawful) (draw : Nat → Draw kem)
    {keepInitiator : Nat} (keepResponder : Nat) (room : 0 < keepInitiator) (n : Nat) :
    Rotated n ((new keepInitiator keepResponder).run kem (rotations draw n)) := by
  induction n with
  | zero => exact new_rotated keepInitiator keepResponder room
  | succ n ih =>
    have split : rotations draw (n + 1) = rotations draw n ++ rotation n (draw n) := by
      simp [rotations, range_succ]
    rw [split, run, foldl_append]
    exact ih.rotation lawful (draw n)

theorem le_size_of_mem {ν : Type} {m : TreeMap Nat ν} (all : ∀ k < n, k ∈ m) : n ≤ m.size := by
  have inside : List.range n ⊆ m.keys := by
    intro k member
    rw [TreeMap.mem_keys]
    exact all k (mem_range.mp member)
  have shorter := (nodup_range.subperm inside).length_le
  rwa [length_range, length_keys] at shorter

/-- Whatever the window and whatever constant is allowed on top of it, rotations alone take the
responder's cache above them, and nothing but a restart of the responder takes it down. -/
theorem resp_cache_unbounded (lawful : kem.Lawful) (draw : Nat → Draw kem)
    (keepInitiator keepResponder constant : Nat) (room : 0 < keepInitiator)
    (epochs : keepResponder + constant < 2 ^ 32) :
    ∃ n ≤ 2 ^ 32, ∀ later : List (Act Seed), .restartResponder ∉ later →
      keepResponder + constant < ((new keepInitiator keepResponder).run kem
        (rotations draw n ++ later)).responder.respCache.size := by
  refine ⟨keepResponder + constant + 1, epochs, ?_⟩
  intro later alive
  have rotated := rotations_rotated lawful draw keepResponder room (keepResponder + constant + 1)
  apply Nat.lt_of_succ_le
  apply le_size_of_mem
  intro epoch small
  rw [run, foldl_append]
  exact respCache_kept later alive ((rotated.cached epoch).mpr small)

def toyDraw (epoch : Nat) : Draw toyKem where
  seed := UInt8.ofNat epoch
  pair := ⟨[UInt8.ofNat epoch], [UInt8.ofNat epoch]⟩
  encapSeed := 7
  ciphertext := [UInt8.ofNat epoch, 7]
  secret := toySecret 7 (UInt8.ofNat epoch)
  keygen := rfl
  encap := rfl

theorem resp_cache_unbounded_toy :
    ∃ n ≤ 2 ^ 32, ∀ later : List (Act UInt8), .restartResponder ∉ later →
      3 + 100 < ((new 3 3).run toyKem (rotations toyDraw n ++ later)).responder.respCache.size :=
  resp_cache_unbounded toyKem_lawful toyDraw 3 3 100 (by decide) (by decide)

/-- With a window of two epochs, eight rotations: the store keeps two, the cache all eight. -/
theorem evicted_epochs_cached :
    let l := (new 2 2).run toyKem (rotations toyDraw 8)
    l.responder.store.inner.size = 2 ∧ l.responder.respCache.size = 8 := by
  decide +kernel

end Peers

end Dkms.Link
