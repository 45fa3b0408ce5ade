import Dkms.Core.Runs
import Dkms.Link.Handshake

namespace Dkms.Link

open Std Dkms.Core SecretStore PqcHandshake

variable {Seed : Type} {kem : Kem Seed}

def Agree (l : Peers) : Prop :=
  ∀ epoch s s', l.initiator.store.get epoch = some s → l.responder.store.get epoch = some s' → s = s'

/-- A message belongs to the exchange in progress: an INIT repeats the public key the
responder answered last or finds the initiator without that epoch, and a RESP the
initiator can act on answers its pending public key if the responder holds the epoch. -/
def Timely (l : Peers) : Act Seed → Prop
  | .deliverInit epoch pubkey _ =>
    l.responder.respCache[epoch]?.map Prod.fst = some pubkey ∨ l.initiator.store.get epoch = none
  | .deliverResp epoch ciphertext =>
    l.initiator.store.get epoch = none → l.initiator.pendingSk[epoch]?.isSome →
      l.responder.store.get epoch = none ∨
        l.responder.respCache[epoch]? = l.initiator.pendingPk[epoch]?.map (·, ciphertext)
  | _ => True

instance (l : Peers) (act : Act Seed) : Decidable (Timely l act) := by
  rcases act with _ | _ <;> dsimp only [Timely] <;> infer_instance

namespace PqcHandshake

variable {h : PqcHandshake}

variable {epoch k : Nat} {ss s : Bytes}

theorem get_publish (held : (h.publish epoch ss).store.get k = some s) :
    (k = epoch ∧ s = ss ∧ h.store.get epoch = none) ∨ h.store.get k = some s := by
  unfold publish publishInner at held
  split at held
  · exact .inr held
  · exact get_insert held

theorem get_publishReplacing (length : ss.length = 32)
    (held : (h.publishReplacing epoch ss).store.get k = some s) :
    (k = epoch ∧ s = ss) ∨ (k ≠ epoch ∧ h.store.get k = some s) := by
  unfold publishReplacing publishInner at held
  rw [if_neg (not_not.mpr length)] at held
  exact get_put held

@[simp]
theorem publishInner_respCache (h : PqcHandshake) (epoch : Nat) (ss : Bytes) (replace : Bool) :
    (h.publishInner epoch ss replace).respCache = h.respCache := by
  unfold publishInner
  split
  · rfl
  · split <;> rfl

@[simp]
theorem publishInner_pending (h : PqcHandshake) (epoch : Nat) (ss : Bytes) (replace : Bool) :
    (h.publishInner epoch ss replace).pendingSk = h.pendingSk ∧
      (h.publishInner epoch ss replace).pendingPk = h.pendingPk := by
  unfold publishInner
  split
  · exact ⟨rfl, rfl⟩
  · split <;> exact ⟨rfl, rfl⟩

def Answered (kem : Kem Seed) (h : PqcHandshake) : Prop :=
  ∀ epoch s, h.store.get epoch = some s →
    ∃ pk ct r, h.respCache[epoch]? = some (pk, ct) ∧ kem.encap r pk = some (ct, s)

def Paired (kem : Kem Seed) (h : PqcHandshake) : Prop :=
  ∀ (epoch : Nat) sk, h.pendingSk[epoch]? = some sk →
    ∃ seed pair, kem.keygen seed = some pair ∧ pair.secretKey = sk ∧ h.pendingPk[epoch]? = some pair.publicKey

theorem handleInit_effect (lawful : kem.Lawful) (answered : h.Answered kem) (epoch : Nat)
    (pubkey : Bytes) (seed : Seed) : (h.handleInit kem epoch pubkey seed).1 = h ∨
      (h.respCache[epoch]?.map Prod.fst ≠ some pubkey ∧
        ∃ ct ss, kem.encap seed pubkey = some (ct, ss) ∧
          (h.handleInit kem epoch pubkey seed).1.respCache = h.respCache.insert epoch (pubkey, ct) ∧
          ∀ k s, (h.handleInit kem epoch pubkey seed).1.store.get k = some s →
            (k = epoch ∧ s = ss) ∨ (k ≠ epoch ∧ h.store.get k = some s)) := by
  unfold handleInit encapsulate
  cases made : kem.encap seed pubkey with
  | none =>
    left
    cases h.respCache[epoch]? with
    | none => rfl
    | some entry => dsimp only; split <;> rfl
  | some answer =>
    obtain ⟨ct, ss⟩ := answer
    cases cached : h.respCache[epoch]? with
    | none =>
      have absent : h.store.get epoch = none := by
        cases held : h.store.get epoch with
        | none => rfl
        | some s =>
          obtain ⟨pk, ct, r, found, -⟩ := answered epoch s held
          rw [cached] at found
          cases found
      refine .inr ⟨by simp, ct, ss, rfl, by simp [publish], ?_⟩
      intro k s held
      rcases get_publish held with ⟨same, written, -⟩ | old
      · exact .inl ⟨same, written⟩
      refine .inr ⟨?_, old⟩
      intro same
      rw [same, absent] at old
      cases old
    | some entry =>
      obtain ⟨pk, old⟩ := entry
      by_cases repeated : pk = pubkey
      · left
        simp [repeated]
      refine .inr ⟨by simpa using repeated, ct, ss, rfl, ?_, ?_⟩
      · simp [repeated, publishReplacing]
      intro k s held
      simp only [repeated] at held
      exact get_publishReplacing (lawful.length _ _ _ _ made) held

theorem handleResp_effect (h : PqcHandshake) (epoch : Nat) (ciphertext : Bytes) :
    (h.handleResp kem epoch ciphertext).pendingSk = h.pendingSk ∧
      (h.handleResp kem epoch ciphertext).pendingPk = h.pendingPk ∧
      ∀ k s, (h.handleResp kem epoch ciphertext).store.get k = some s →
        h.store.get k = some s ∨ (k = epoch ∧ h.store.get epoch = none ∧
          ∃ sk, h.pendingSk[epoch]? = some sk ∧ kem.decap sk ciphertext = some s) := by
  unfold handleResp
  split
  · exact ⟨rfl, rfl, fun _ _ => .inl⟩
  cases waiting : h.pendingSk[epoch]? with
  | none => exact ⟨rfl, rfl, fun _ _ => .inl⟩
  | some sk =>
    dsimp only
    cases opened : kem.decap sk ciphertext with
    | none => exact ⟨rfl, rfl, fun _ _ => .inl⟩
    | some ss =>
      obtain ⟨sks, pks⟩ := publishInner_pending h epoch ss false
      refine ⟨sks, pks, ?_⟩
      intro k s held
      rcases get_publish held with ⟨same, written, absent⟩ | old
      · exact .inr ⟨same, absent, sk, rfl, by rw [written, opened]⟩
      · exact .inl old

theorem Paired.establishKey (paired : h.Paired kem) (epoch : Nat) (seed : Seed)
    : (h.establishKey kem epoch seed).1.Paired kem := by
  unfold PqcHandshake.establishKey
  dsimp only
  split
  · exact paired
  split
  · exact paired
  rename_i pair made
  intro k sk waiting
  rw [TreeMap.getElem?_insert] at waiting
  rw [TreeMap.getElem?_insert]
  by_cases same : compare epoch k = .eq
  · rw [if_pos same] at waiting ⊢
    cases waiting
    exact ⟨seed, pair, made, rfl, rfl⟩
  · rw [if_neg same] at waiting ⊢
    exact paired k sk waiting

theorem Paired.establishDone (paired : h.Paired kem) (epoch : Nat) :
    (h.establishDone epoch).Paired kem := by
  intro k sk waiting
  simp only [PqcHandshake.establishDone, TreeMap.getElem?_erase] at waiting ⊢
  by_cases same : compare epoch k = .eq
  · rw [if_pos same] at waiting
    cases waiting
  · rw [if_neg same] at waiting ⊢
    exact paired k sk waiting

theorem Paired.pruneBelow (paired : h.Paired kem) (base : Nat) :
    (h.pruneBelow base).Paired kem := by
  intro k sk waiting
  simp only [PqcHandshake.pruneBelow, SlidingMap.getElem?_dropBelow] at waiting ⊢
  by_cases reaches : (compare base k).isLE
  · rw [if_pos reaches] at waiting ⊢
    exact paired k sk waiting
  · rw [if_neg reaches] at waiting
    cases waiting

end PqcHandshake

structure Sound (kem : Kem Seed) (l : Peers) : Prop where
  agree : Agree l
  answered : l.responder.Answered kem
  paired : l.initiator.Paired kem

variable {l : Peers}

theorem Sound.deliverInit (lawful : kem.Lawful) (sound : Sound kem l) (epoch : Nat)
    (pubkey : Bytes) (seed : Seed) (timely : Timely l (.deliverInit epoch pubkey seed)) :
    Sound kem (l.deliverInit kem epoch pubkey seed) := by
  unfold Peers.deliverInit
  split
  · rcases handleInit_effect lawful sound.answered epoch pubkey seed with
      same | ⟨other, ct, ss, made, cache, stored⟩
    · refine ⟨?_, ?_, sound.paired⟩
      · intro k s s' first second
        exact sound.agree k s s' first (by simpa only [same] using second)
      · simpa only [same] using sound.answered
    have missing : l.initiator.store.get epoch = none := timely.resolve_left other
    refine ⟨?_, ?_, sound.paired⟩
    · intro k s s' first second
      rcases stored k s' second with ⟨same, -⟩ | ⟨-, old⟩
      · rw [same] at first
        rw [missing] at first
        cases first
      · exact sound.agree k s s' first old
    intro k s held
    rw [cache, TreeMap.getElem?_insert]
    rcases stored k s held with ⟨same, written⟩ | ⟨apart, old⟩
    · rw [same, written, if_pos compare_self]
      exact ⟨pubkey, ct, seed, rfl, made⟩
    · rw [if_neg (fun equal => apart (LawfulEqOrd.eq_of_compare equal).symm)]
      exact sound.answered k s old
  · exact sound

theorem Sound.deliverResp (lawful : kem.Lawful) (sound : Sound kem l) (epoch : Nat)
    (ciphertext : Bytes) (timely : Timely l (.deliverResp epoch ciphertext : Act Seed)) :
    Sound kem (l.deliverResp kem epoch ciphertext) := by
  unfold Peers.deliverResp
  split
  · obtain ⟨sks, pks, stored⟩ := l.initiator.handleResp_effect epoch ciphertext
    refine ⟨?_, sound.answered, ?_⟩
    · intro k s s' first second
      rcases stored k s first with old | ⟨same, absent, sk, waiting, opened⟩
      · exact sound.agree k s s' old second
      rw [same] at second
      -- both hold the epoch only if the answer is the one for the pending key
      have answer := (timely absent (Option.isSome_of_eq_some waiting)).resolve_left (by rw [second]; simp)
      obtain ⟨pk, ct, r, cached, made⟩ := sound.answered epoch s' second
      obtain ⟨g, pair, generated, secret, asked⟩ := sound.paired epoch sk waiting
      rw [cached, asked] at answer
      cases answer
      have shared := lawful.shared g pair r ciphertext s' generated made
      rw [secret, opened] at shared
      cases shared
      rfl
    · intro k sk waiting
      rw [pks]
      apply sound.paired k sk
      rw [← sks]
      exact waiting
  · exact sound

theorem Sound.initiator (sound : Sound kem l) {h : PqcHandshake}
    (subset : ∀ k s, h.store.get k = some s → l.initiator.store.get k = some s)
    (paired : h.Paired kem) (establishing : Option (Nat × Bytes)) (sent : List HsMsg) :
    Sound kem { l with initiator := h, establishing, sent } :=
  ⟨fun k s s' first second => sound.agree k s s' (subset k s first) second, sound.answered, paired⟩

theorem establishKey_store (kem : Kem Seed) (h : PqcHandshake) (epoch : Nat) (seed : Seed) :
    (h.establishKey kem epoch seed).1.store = h.store := by
  unfold establishKey
  dsimp only
  split
  · rfl
  · split <;> rfl

theorem new_store_get (keep k : Nat) (s : Bytes) : (PqcHandshake.new keep).store.get k ≠ some s := by
  simp [PqcHandshake.new, SecretStore.get_empty]

theorem new_paired (keep : Nat) : (PqcHandshake.new keep).Paired kem := by
  intro k sk waiting
  simp [PqcHandshake.new] at waiting

theorem Sound.next (lawful : kem.Lawful) (l : Peers) (act : Act Seed) (sound : Sound kem l)
    (timely : Timely l act) : Sound kem (l.next kem act) := by
  cases act with
  | start epoch seed =>
    show Sound kem (l.start kem epoch seed)
    unfold Peers.start
    split
    · exact sound
    have store := establishKey_store kem l.initiator epoch seed
    exact sound.initiator (h := (l.initiator.establishKey kem epoch seed).1)
      (fun k s held => by rwa [store] at held) (sound.paired.establishKey epoch seed) _ _
  | sendInit =>
    show Sound kem l.sendInit
    unfold Peers.sendInit
    split
    · split
      · exact sound
      · exact sound.initiator (fun _ _ held => held) sound.paired _ _
    · exact sound
  | finish =>
    show Sound kem l.finish
    unfold Peers.finish
    split
    · split
      · exact sound.initiator (h := l.initiator.establishDone _) (fun _ _ held => held)
          (sound.paired.establishDone _) _ _
      · exact sound
    · exact sound
  | timeout => exact sound.initiator (fun _ _ held => held) sound.paired _ _
  | prune base =>
    simp only [Peers.next]
    split
    · exact sound
    apply sound.initiator
    · intro k s held
      exact get_pruneBelow held
    · exact sound.paired.pruneBelow base
  | deliverInit epoch pubkey seed => exact sound.deliverInit lawful epoch pubkey seed timely
  | deliverResp epoch ciphertext => exact sound.deliverResp lawful epoch ciphertext timely
  | restartInitiator =>
    apply sound.initiator
    · intro k s held
      exact absurd held (new_store_get _ k s)
    · exact new_paired _
  | restartResponder =>
    refine ⟨?_, ?_, sound.paired⟩
    · intro k s s' _ held
      exact absurd held (new_store_get _ k s')
    · intro k s held
      exact absurd held (new_store_get _ k s)

theorem new_sound (keepInitiator keepResponder : Nat) :
    Sound kem (Peers.new keepInitiator keepResponder) := by
  refine ⟨?_, ?_, new_paired _⟩
  · intro k s s' held
    exact absurd held (new_store_get _ k s)
  · intro k s held
    exact absurd held (new_store_get _ k s)

/-- In every run that delivers only timely messages, with any losses, repetitions and
restarts, the two ends agree on every epoch both hold. -/
theorem timely_run_agrees (lawful : kem.Lawful) (keepInitiator keepResponder : Nat)
    (acts : List (Act Seed))
    (timely : Follows (Peers.next kem) Timely (Peers.new keepInitiator keepResponder) acts) :
    Agree ((Peers.new keepInitiator keepResponder).run kem acts) := by
  have sound := timely.invariant (Sound.next lawful) (new_sound keepInitiator keepResponder)
  exact sound.agree

/-- Implicit rejection: a ciphertext made for another key decapsulates without an error to
an unrelated secret. -/
def Kem.Rejects (kem : Kem Seed) : Prop :=
  ∀ s pair r pk ct ss, kem.keygen s = some pair → pk ≠ pair.publicKey →
    kem.encap r pk = some (ct, ss) → ∃ ss', kem.decap pair.secretKey ct = some ss' ∧ ss' ≠ ss

def toySecret (r key : UInt8) : Bytes := r :: key :: List.replicate 30 0

def toyKem : Kem UInt8 where
  keygen s := some ⟨[s], [s]⟩
  encap r pk := some (pk ++ [r], toySecret r (pk.headD 0))
  decap sk ct :=
    if ct.dropLast = sk then some (toySecret (ct.getLastD 0) (sk.headD 0))
    else some (0 :: sk.headD 0 :: List.replicate 30 1)

theorem toyKem_lawful : toyKem.Lawful := by
  constructor
  · intro s pair r ct ss made answered
    cases made
    cases answered
    simp [toyKem]
  · intro r pk ct ss answered
    cases answered
    simp [toySecret]

theorem toyKem_rejects : toyKem.Rejects := by
  intro s pair r pk ct ss made other answered
  cases made
  cases answered
  have foreign : (pk ++ [r]).dropLast ≠ [s] := by simpa using other
  refine ⟨0 :: s :: List.replicate 30 1, ?_, ?_⟩
  · simp only [toyKem]
    rw [if_neg foreign]
    rfl
  · simp [toySecret]

def renegotiated : List (Act UInt8) :=
  [.start 0 1, .sendInit, .deliverInit 0 [1] 10, .deliverResp 0 [1, 10], .finish,
    .restartInitiator, .start 0 2, .sendInit, .deliverInit 0 [2] 20, .deliverResp 0 [2, 20], .finish]

theorem timely_run_agrees_renegotiated :
    ((Peers.new 4 4).run toyKem renegotiated).initiator.store.get 0 = some (toySecret 20 2) ∧
      ((Peers.new 4 4).run toyKem renegotiated).responder.store.get 0 = some (toySecret 20 2) ∧
      Agree ((Peers.new 4 4).run toyKem renegotiated) :=
  ⟨by decide +kernel, by decide +kernel, timely_run_agrees toyKem_lawful 4 4 renegotiated (by decide +kernel)⟩

/-- A copy of the first INIT that arrives after the renegotiation makes the responder
encapsulate again and replace a secret the initiator keeps. -/
theorem late_init_disagrees : toyKem.Lawful ∧ toyKem.Rejects ∧
      ¬ Agree ((Peers.new 4 4).run toyKem (renegotiated ++ [.deliverInit 0 [1] 30])) := by
  refine ⟨toyKem_lawful, toyKem_rejects, ?_⟩
  intro agree
  have equal := agree 0 (toySecret 20 2) (toySecret 30 1) (by decide +kernel) (by decide +kernel)
  revert equal
  decide

end Dkms.Link
