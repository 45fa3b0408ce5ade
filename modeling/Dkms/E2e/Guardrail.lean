import Dkms.E2e.Pair

namespace Dkms.E2e

open List Dkms.Core Dkms.Link

variable {Seed : Type} (crypto : Crypto Seed) (peer : String) {window : Nat}

theorem RecentKeyIds.makeRoom_spec {r : RecentKeyIds} (seen : r.seen = r.order.toFinset)
    (once : r.order.Nodup) (short : r.order.length ≤ guardrailWindow) :
    r.makeRoom.order = r.order.drop (r.order.length + 1 - guardrailWindow) ∧
      r.makeRoom.seen = r.makeRoom.order.toFinset := by
  unfold makeRoom
  split
  · rename_i full
    split
    · rename_i old order eq
      rw [eq] at once seen short full ⊢
      rw [length_cons] at short full
      have one : (old :: order).length + 1 - guardrailWindow = 1 := by rw [length_cons]; omega
      rw [one]
      simp [seen, (nodup_cons.mp once).1]
    · rename_i eq
      exact absurd full (by rw [eq]; decide)
  · rw [show r.order.length + 1 - guardrailWindow = 0 by omega]
    exact ⟨rfl, seen⟩

theorem PeerState.sealFrame_cases (st : PeerState window) (self keyId : String) (header : Header)
    (plaintext : Bytes) :
    (∃ e, st.sealFrame crypto self peer keyId header plaintext = (.error e, st)) ∨
      keyId ∉ st.recentKeyIds.seen ∧
        (st.sealFrame crypto self peer keyId header plaintext).1 ≠ .error (.keyIdReuse peer keyId) ∧
        (st.sealFrame crypto self peer keyId header plaintext).2 = { st with
          recentKeyIds := ⟨insert keyId st.recentKeyIds.makeRoom.seen, st.recentKeyIds.makeRoom.order ++ [keyId]⟩
          counter := st.counter + 1
          epochSends := st.epochSends + 1 } := by
  unfold sealFrame sealMaterial
  cases sending : st.sendEpoch with
  | none => exact .inl ⟨_, rfl⟩
  | some epoch =>
    cases held : st.secret epoch with
    | none => exact .inl ⟨.noEpoch peer, by simp only [held]⟩
    | some secret =>
      unfold RecentKeyIds.insert
      by_cases seen : keyId ∈ st.recentKeyIds.seen
      · exact .inl ⟨.keyIdReuse peer keyId, by simp only [held, seen, if_true]⟩
      · right
        simp only [held, seen, not_false_eq_true, if_false, true_and]
        split <;> simp

inductive SealAct where
  | sealFrame (self keyId : String) (header : Header) (plaintext : Bytes)
  | store (epoch : Nat) (ss : Bytes) (keep now : Nat)

/-- The state for one peer, and the ids it counted since the last rotation. -/
structure Sealing (window : Nat) where
  st : PeerState window
  sealed : List String

namespace Sealing

def next (s : Sealing window) : SealAct → Sealing window
  | .sealFrame self keyId header plaintext =>
    let st := (s.st.sealFrame crypto self peer keyId header plaintext).2
    ⟨st, if s.st.counter < st.counter then s.sealed ++ [keyId] else s.sealed⟩
  | .store epoch ss keep now =>
    match s.st.store epoch ss keep now with
    | .ok st => ⟨st, []⟩
    | .error _ => s

/-- The queue holds the last ids, and an id comes back only after it has left the queue. -/
structure Guarded (s : Sealing window) : Prop where
  seen : s.st.recentKeyIds.seen = s.st.recentKeyIds.order.toFinset
  order : s.st.recentKeyIds.order = s.sealed.drop (s.sealed.length - guardrailWindow)
  apart : ∀ i j id, i < j → s.sealed[i]? = some id → s.sealed[j]? = some id → guardrailWindow < j - i

namespace Guarded

variable {s : Sealing window} (guarded : s.Guarded)
include guarded

theorem nodup : s.st.recentKeyIds.order.Nodup := by
  rw [guarded.order, nodup_iff_getElem?_ne_getElem?]
  intro i j before bound same
  rw [length_drop] at bound
  rw [getElem?_drop, getElem?_drop] at same
  have listed := getElem?_eq_getElem (show s.sealed.length - guardrailWindow + j < s.sealed.length by omega)
  have := guarded.apart _ _ _ (by omega) (same.trans listed) listed
  omega

theorem length_le : s.st.recentKeyIds.order.length ≤ guardrailWindow := by
  rw [guarded.order, length_drop]
  omega

theorem next (act : SealAct) : (s.next crypto peer act).Guarded := by
  cases act with
  | store epoch ss keep now =>
    by_cases wrong : ss.length ≠ 32
    · simp only [Sealing.next, PeerState.store, wrong, ne_eq, not_false_eq_true, if_true]
      exact guarded
    · simp only [Sealing.next, PeerState.store, wrong, if_false]
      exact ⟨rfl, drop_nil.symm, by simp⟩
  | sealFrame self keyId header plaintext =>
    unfold Sealing.next
    obtain ⟨e, refused⟩ | ⟨new, -, counted⟩ :=
      s.st.sealFrame_cases crypto peer self keyId header plaintext
    · simp only [refused, lt_irrefl, if_false]
      exact guarded
    · obtain ⟨order, seen⟩ := RecentKeyIds.makeRoom_spec guarded.seen guarded.nodup guarded.length_le
      simp only [counted, Nat.lt_succ_self, if_true]
      rw [guarded.seen, mem_toFinset, guarded.order] at new
      constructor
      · simp [seen]
      · simp only [order, guarded.order, length_drop, drop_drop, length_append, length_singleton]
        have window : 0 < guardrailWindow := by decide
        have kept : s.sealed.length + 1 - guardrailWindow =
            s.sealed.length - guardrailWindow +
              (s.sealed.length - (s.sealed.length - guardrailWindow) + 1 - guardrailWindow) := by omega
        rw [drop_append_of_le_length (by omega), kept]
      · intro i j id before first second
        have bound := (List.getElem?_eq_some_iff.mp second).1
        rw [length_append, length_singleton] at bound
        rw [getElem?_append_left (by omega)] at first
        rcases Nat.lt_or_ge j s.sealed.length with old | last
        · rw [getElem?_append_left old] at second
          exact guarded.apart i j id before first second
        · rw [getElem?_append_right last, show j - s.sealed.length = 0 by omega] at second
          cases second
          by_contra near
          refine new (mem_of_getElem? (i := i - (s.sealed.length - guardrailWindow)) ?_)
          rw [getElem?_drop, Nat.add_sub_cancel' (by omega), first]

end Guarded

def start (window : Nat) : Sealing window := ⟨.new window, []⟩

theorem guarded_run (acts : List SealAct) : (acts.foldl (next crypto peer) (start window)).Guarded :=
  (Follows.all _ acts).invariant (fun _ act guarded _ => guarded.next crypto peer act)
    ⟨rfl, drop_nil.symm, by simp [start]⟩

theorem key_ids_apart (acts : List SealAct) :
    let s := acts.foldl (next crypto peer) (start window)
    (s.st.recentKeyIds.seen = s.st.recentKeyIds.order.toFinset ∧ s.st.recentKeyIds.order.Nodup ∧
      s.st.recentKeyIds.order.length ≤ guardrailWindow) ∧
    (∀ i j id, i < j → s.sealed[i]? = some id → s.sealed[j]? = some id → guardrailWindow ≤ j - i - 1) ∧
    ∀ self keyId header plaintext,
      let called := s.st.sealFrame crypto self peer keyId header plaintext
      ((∃ sent, called.1 = .ok sent) →
        (s.next crypto peer (.sealFrame self keyId header plaintext)).sealed = s.sealed ++ [keyId]) ∧
      (called.1 = .error (.keyIdReuse peer keyId) → called.2 = s.st) := by
  intro s
  have guarded : s.Guarded := guarded_run crypto peer acts
  refine ⟨⟨guarded.seen, guarded.nodup, guarded.length_le⟩, ?_, ?_⟩
  · intro i j id before first second
    have := guarded.apart i j id before first second
    omega
  · intro self keyId header plaintext
    obtain ⟨e, refused⟩ | ⟨-, fresh, counted⟩ :=
      s.st.sealFrame_cases crypto peer self keyId header plaintext
    · simp [refused]
    · simp [fresh, next, counted]

/-- Two rotations that install the same number, with two secrets. -/
theorem epoch_number_repeats :
    let rotated (s : Sealing 0) (byte : UInt8) := s.next plainCrypto "dkms-b" (.store 7 (replicate 32 byte) 1 0)
    let sent (s : Sealing 0) :=
      (s.st.sealFrame plainCrypto "dkms-a" "dkms-b" "k" ∅ []).1.toOption.map (·.1[hdrE2eEpoch]?)
    let first := rotated (start 0) 1
    let second := rotated (first.next plainCrypto "dkms-b" (.sealFrame "dkms-a" "k" ∅ [])) 2
    sent first = some (some "7") ∧ sent second = some (some "7") := by
  decide +kernel

end Sealing

end Dkms.E2e
