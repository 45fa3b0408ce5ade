import Dkms.Link.Agreement
import Dkms.Link.Resync

namespace Dkms.Link

open Std Dkms.Core SecretStore Option

variable {Seed : Type} (kem : Kem Seed)

namespace SecretStore

variable (lookahead : Nat) (st : SecretStore)

def activeEpoch (highest : Nat) : Nat :=
  let target := highest - lookahead
  match st.lowest with
  | some lo => if lo > target then lo else target
  | none => target

def encSecret : Option (Nat × Bytes) :=
  st.highest.bind fun highest =>
    let epoch := st.activeEpoch lookahead highest
    (st.get epoch).map (epoch, ·)

def adjoins (epoch : Nat) : Bool :=
  st.highest.all fun h => st.contains epoch || epoch = h + 1 || st.lowest.any (· = epoch + 1)

variable {lookahead st}

theorem encSecret_isSome (gapless : SlidingMap.Gapless st.inner) {highest : Nat}
    (top : st.highest = some highest) : (st.encSecret lookahead).isSome := by
  have member := (SlidingMap.highest_eq_some.mp top).1
  obtain ⟨lo, held, low⟩ := lowest_isSome member
  have least := (SlidingMap.lowest_eq_some.mp low).2 highest member
  rw [Nat.isLE_compare] at least
  have present : st.activeEpoch lookahead highest ∈ st.inner := by
    unfold activeEpoch
    rw [low]
    dsimp only
    split
    · exact held
    · exact gapless lo held highest member _ (by omega) (by omega)
  unfold encSecret
  rw [top, bind_some, isSome_map]
  rw [TreeMap.mem_iff_isSome_getElem?] at present
  exact present

theorem gapless_put (gapless : SlidingMap.Gapless st.inner) {epoch : Nat}
    (adjoins : st.adjoins epoch) (secret : Bytes) :
    SlidingMap.Gapless (st.put epoch secret).inner := by
  apply SlidingMap.Gapless.evict
  apply gapless.insert
  intro k held
  obtain ⟨h, top, highest⟩ := highest_isSome held
  obtain ⟨lo, bottom, lowest⟩ := lowest_isSome held
  unfold SecretStore.adjoins at adjoins
  rw [highest, lowest] at adjoins
  simp only [all_some, any_some, Bool.or_eq_true, decide_eq_true_eq] at adjoins
  rcases adjoins with (same | above) | below
  · exact .inl (TreeMap.contains_iff_mem.mp same)
  · exact .inr (.inl ⟨h, top, above⟩)
  · exact .inr (.inr ⟨lo, bottom, below.symm⟩)

end SecretStore

/-- A delivery that stores a secret stores it next to the epochs that its end holds. -/
def Adjoining (l : Peers) : Act Seed → Prop
  | .deliverInit epoch pubkey _ =>
    l.responder.respCache[epoch]?.map Prod.fst = some pubkey ∨ l.responder.store.adjoins epoch
  | .deliverResp epoch _ =>
    l.initiator.pendingSk[epoch]? = none ∨ l.initiator.store.adjoins epoch
  | _ => True

instance (l : Peers) (act : Act Seed) : Decidable (Adjoining l act) := by
  rcases act with _ | _ <;> dsimp only [Adjoining] <;> infer_instance

namespace PqcHandshake

variable {kem} {h : PqcHandshake} {epoch : Nat}

section

variable (gapless : SlidingMap.Gapless h.store.inner)
include gapless

theorem gapless_publishInner (adjoins : h.store.adjoins epoch) (ss : Bytes) (replace : Bool) :
    SlidingMap.Gapless (h.publishInner epoch ss replace).store.inner := by
  unfold publishInner
  split
  · exact gapless
  split
  · exact gapless_put gapless adjoins ss
  unfold SecretStore.insert
  split
  · exact gapless
  · exact gapless_put gapless adjoins ss

theorem gapless_handleInit {pubkey : Bytes}
    (adjoining : h.respCache[epoch]?.map Prod.fst = some pubkey ∨ h.store.adjoins epoch)
    (seed : Seed) : SlidingMap.Gapless (h.handleInit kem epoch pubkey seed).1.store.inner := by
  have encapsulated : h.store.adjoins epoch → ∀ stale,
      SlidingMap.Gapless (h.encapsulate kem epoch pubkey seed stale).1.store.inner := by
    intro adjoins stale
    unfold encapsulate
    split
    · exact gapless
    · cases stale <;> exact gapless_publishInner gapless adjoins _ _
  unfold handleInit
  split
  · rename_i pk ct cached
    split
    · exact gapless
    rename_i other
    rw [cached] at adjoining
    exact encapsulated (adjoining.resolve_left (by simpa using other)) true
  · rename_i uncached
    rw [uncached] at adjoining
    exact encapsulated (adjoining.resolve_left (by simp)) false

theorem gapless_handleResp (adjoining : h.pendingSk[epoch]? = none ∨ h.store.adjoins epoch)
    (ciphertext : Bytes) : SlidingMap.Gapless (h.handleResp kem epoch ciphertext).store.inner := by
  unfold handleResp
  split
  · exact gapless
  split
  · exact gapless
  rename_i sk waiting
  split
  · exact gapless_publishInner gapless (adjoining.resolve_left (by simp [waiting])) _ _
  · exact gapless

end

end PqcHandshake

structure Peers.Gapless (l : Peers) : Prop where
  initiator : SlidingMap.Gapless l.initiator.store.inner
  responder : SlidingMap.Gapless l.responder.store.inner

theorem gapless_new (keep : Nat) : SlidingMap.Gapless (PqcHandshake.new keep).store.inner := by
  intro a held
  simp [PqcHandshake.new, empty] at held

theorem Peers.Gapless.next {l : Peers} (gapless : l.Gapless) {act : Act Seed}
    (adjoining : Adjoining l act) : (l.next kem act).Gapless := by
  obtain ⟨initiator, responder⟩ := gapless
  cases act with
  | start epoch seed =>
    change (l.start kem epoch seed).Gapless
    unfold Peers.start
    split
    · exact ⟨initiator, responder⟩
    · have store := establishKey_store kem l.initiator epoch seed
      exact ⟨by dsimp only; rwa [store], responder⟩
  | sendInit =>
    change l.sendInit.Gapless
    unfold Peers.sendInit
    split
    · split <;> exact ⟨initiator, responder⟩
    · exact ⟨initiator, responder⟩
  | finish =>
    change l.finish.Gapless
    unfold Peers.finish
    split
    · split <;> exact ⟨initiator, responder⟩
    · exact ⟨initiator, responder⟩
  | timeout => exact ⟨initiator, responder⟩
  | prune base =>
    simp only [Peers.next]
    split
    · exact ⟨initiator, responder⟩
    · exact ⟨initiator.dropBelow base, responder⟩
  | deliverInit epoch pubkey seed =>
    change (l.deliverInit kem epoch pubkey seed).Gapless
    unfold Peers.deliverInit
    split
    · exact ⟨initiator, PqcHandshake.gapless_handleInit responder adjoining seed⟩
    · exact ⟨initiator, responder⟩
  | deliverResp epoch ciphertext =>
    change (l.deliverResp kem epoch ciphertext).Gapless
    unfold Peers.deliverResp
    split
    · exact ⟨PqcHandshake.gapless_handleResp initiator adjoining ciphertext, responder⟩
    · exact ⟨initiator, responder⟩
  | restartInitiator => exact ⟨gapless_new _, responder⟩
  | restartResponder => exact ⟨initiator, gapless_new _⟩

/-- In every run where each secret is stored next to those already held, an end that holds any
epoch holds the one it encrypts with, whatever its lookahead. -/
theorem encryption_never_waits (keepInitiator keepResponder : Nat) (acts : List (Act Seed))
    (adjoining : Follows (Peers.next kem) Adjoining (Peers.new keepInitiator keepResponder) acts) :
    let l := (Peers.new keepInitiator keepResponder).run kem acts
    ∀ lookahead, (l.initiator.store.highest.isSome → (l.initiator.store.encSecret lookahead).isSome) ∧
      (l.responder.store.highest.isSome → (l.responder.store.encSecret lookahead).isSome) := by
  intro l lookahead
  have keeps : ∀ (l : Peers) (act : Act Seed), l.Gapless → Adjoining l act →
      (l.next kem act).Gapless := fun _ _ gapless adjoining => gapless.next kem adjoining
  have gapless : l.Gapless := adjoining.invariant keeps ⟨gapless_new _, gapless_new _⟩
  constructor
  · intro started
    obtain ⟨h, top⟩ := isSome_iff_exists.mp started
    exact encSecret_isSome gapless.initiator top
  · intro started
    obtain ⟨h, top⟩ := isSome_iff_exists.mp started
    exact encSecret_isSome gapless.responder top

def establishes (epoch : Nat) (seed : UInt8) : List (Act UInt8) :=
  [.start epoch seed, .sendInit, .deliverInit epoch [seed] seed, .deliverResp epoch [seed, seed], .finish]

def firstBlock : List (Act UInt8) := establishes 0 1 ++ establishes 1 2 ++ establishes 2 3

/-- A re-link towards a peer at epoch 500 negotiates 501 first, and until it has got further the
active epoch 499 is missing at both ends. -/
theorem relink_leaves_hole :
    let l := (Peers.new 4 4).run toyKem (firstBlock ++ establishes 501 4)
    relinkRange (some 2) 500 2 = some (501, 503) ∧
      l.initiator.store.highest = some 501 ∧ l.initiator.store.activeEpoch 2 501 = 499 ∧
      l.initiator.store.encSecret 2 = none ∧ l.responder.store.highest = some 501 ∧
      l.responder.store.encSecret 2 = none := by
  decide +kernel

theorem encryption_never_waits_rotation :
    let l := (Peers.new 4 4).run toyKem (firstBlock ++ establishes 3 4 ++ [.prune 2])
    l.initiator.store.highest = some 3 ∧ (l.initiator.store.encSecret 2).isSome ∧
      (l.responder.store.encSecret 2).isSome := by
  have ready := encryption_never_waits toyKem 4 4 (firstBlock ++ establishes 3 4 ++ [.prune 2])
    (by decide +kernel) 2
  exact ⟨by decide +kernel, ready.1 (by decide +kernel), ready.2 (by decide +kernel)⟩

end Dkms.Link
