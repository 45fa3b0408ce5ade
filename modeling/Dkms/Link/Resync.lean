import Dkms.Link.SecretStore
import Dkms.Core.Mailbox

namespace Dkms.Link

open Option Std Dkms.Core List Nat UInt32

def maxResyncJump : UInt32 := 1024

def saturatingAdd (a b : UInt32) : UInt32 := .ofNat (min (a.toNat + b.toNat) (2 ^ 32 - 1))

def resyncBase (highest : Option UInt32) (peerEpoch lookahead : UInt32) : UInt32 × UInt32 :=
  let mine := (highest.map (saturatingAdd · 1)).getD 0
  let ceiling := saturatingAdd mine maxResyncJump
  let base := min (max mine (saturatingAdd peerEpoch 1)) ceiling
  (base, saturatingAdd base lookahead)

def relinkRange (highest : Option UInt32) (peerEpoch lookahead : UInt32) :
    Option (UInt32 × UInt32) :=
  let (base, aim) := resyncBase highest peerEpoch lookahead
  if aim.toNat = 2 ^ 32 - 1 then none else some (base, aim)

namespace SecretStore

def relinked (st : SecretStore) (secret : Nat → Bytes) (base aim : Nat) : SecretStore :=
  ((range' base (aim + 1 - base)).foldl (fun st epoch => st.insert epoch (secret epoch))
    st).pruneBelow base

def relink (peerEpoch lookahead : UInt32) (secret : Nat → Bytes) (st : SecretStore) : SecretStore :=
  match relinkRange (st.highest.map ofNat) peerEpoch lookahead with
  | some (base, aim) => st.relinked secret base.toNat aim.toNat
  | none => st

def relinks (peerEpoch lookahead : UInt32) :
    (secrets : Nat → Nat → Bytes) → (n : Nat) → SecretStore → SecretStore
  | _, 0, st => st
  | secrets, n + 1, st =>
    relinks peerEpoch lookahead (fun i => secrets (i + 1)) n (st.relink peerEpoch lookahead (secrets 0))

end SecretStore

section Numbers

variable (a b : UInt32)

@[simp] theorem saturatingAdd_toNat :
    (saturatingAdd a b).toNat = min (a.toNat + b.toNat) (2 ^ 32 - 1) := by
  exact mod_eq_of_lt (by omega)

def firstFree (highest : Option UInt32) : Nat := (highest.map (·.toNat + 1)).getD 0

theorem relinkRange_spec {highest : Option UInt32} {peerEpoch lookahead base aim : UInt32}
    (found : relinkRange highest peerEpoch lookahead = some (base, aim)) :
    base.toNat = min (max (firstFree highest) (peerEpoch.toNat + 1)) (firstFree highest + 1024) ∧
      aim.toNat = base.toNat + lookahead.toNat ∧ aim.toNat < 2 ^ 32 - 1 := by
  have mine : ((highest.map (saturatingAdd · 1)).getD 0).toNat =
      min (firstFree highest) (2 ^ 32 - 1) := by
    cases highest with
    | none => rfl
    | some h => simp [firstFree]
  unfold relinkRange resyncBase at found
  dsimp only at found
  split at found
  · cases found
  rename_i left
  cases found
  have jump : maxResyncJump.toNat = 1024 := rfl
  have one : (1 : UInt32).toNat = 1 := rfl
  have small : peerEpoch.toNat ≤ 2 ^ 32 - 1 := le_sub_one_of_lt peerEpoch.toNat_lt
  rw [saturatingAdd_toNat, toNat_min, toNat_max, saturatingAdd_toNat,
    saturatingAdd_toNat, mine, jump, one] at left ⊢
  generalize 2 ^ 32 - 1 = top at left small ⊢
  omega

end Numbers

namespace SecretStore

variable {st : SecretStore}

variable {epoch : Nat} {secret : Bytes}

theorem highest_insert_above (room : 0 < st.keep)
    (above : ∀ k s, st.get k = some s → k < epoch) : (st.insert epoch secret).highest = some epoch := by
  have absent : st.contains epoch = false := by
    rw [contains_iff]
    cases held : st.get epoch with
    | none => rfl
    | some s => exact absurd (above epoch s held) (Nat.lt_irrefl _)
  unfold insert
  rw [absent, if_neg Bool.false_ne_true, highest_eq_some]
  constructor
  · unfold get put
    rw [SlidingMap.getElem?_evict_of_few_above (show ([] : List Nat).length < st.keep from room)]
    · simp
    intro j held
    left
    rw [Nat.isLE_compare]
    rcases TreeMap.mem_insert.mp held with same | old
    · rw [LawfulEqOrd.eq_of_compare same]
    rw [TreeMap.mem_iff_isSome_getElem?] at old
    obtain ⟨s, old⟩ := isSome_iff_exists.mp old
    exact (above j s old).le
  · intro k s held
    rcases get_put held with ⟨rfl, -⟩ | ⟨-, old⟩
    · exact Nat.le_refl _
    · exact (above k s old).le

theorem insert_keep : (st.insert epoch secret).keep = st.keep := by
  unfold insert
  split <;> rfl

theorem highest_established (secret : Nat → Bytes) (base n : Nat) (room : 0 < st.keep)
    (above : ∀ k s, st.get k = some s → k < base) :
    ((range' base (n + 1)).foldl (fun st epoch => st.insert epoch (secret epoch))
      st).highest = some (base + n) := by
  induction n generalizing st base with
  | zero => exact highest_insert_above room above
  | succ n ih =>
    rw [range'_succ, foldl_cons]
    have top : (st.insert base (secret base)).highest = some base := highest_insert_above room above
    rw [ih (base + 1) (by rw [insert_keep]; exact room)]
    · congr 1
      omega
    intro k s held
    have := (highest_eq_some.mp top).2 k s held
    omega

theorem highest_relinked (secret : Nat → Bytes) {base aim : Nat} (order : base ≤ aim)
    (room : 0 < st.keep) (above : ∀ h ∈ st.highest, h < base) :
    (st.relinked secret base aim).highest = some aim ∧
      (st.relinked secret base aim).keep = st.keep := by
  have beyond : ∀ k s, st.get k = some s → k < base := by
    intro k s held
    have member : k ∈ st.inner := by
      rw [TreeMap.mem_iff_isSome_getElem?]
      exact isSome_of_eq_some held
    obtain ⟨h, -, top⟩ := highest_isSome member
    exact Nat.lt_of_le_of_lt ((highest_eq_some.mp top).2 k s held) (above h top)
  obtain ⟨n, rfl⟩ := Nat.exists_eq_add_of_le order
  have size : base + n + 1 - base = n + 1 := by omega
  have top := highest_established secret base n room beyond
  unfold relinked
  rw [size]
  constructor
  · obtain ⟨held, all⟩ := highest_eq_some.mp top
    rw [highest_eq_some]
    constructor
    · unfold get pruneBelow
      rw [SlidingMap.getElem?_dropBelow, if_pos (by rw [Nat.isLE_compare]; omega)]
      exact held
    · exact fun k s found => all k s (get_pruneBelow found)
  have keeps : ∀ epochs : List Nat, ∀ st : SecretStore,
      (epochs.foldl (fun st epoch => st.insert epoch (secret epoch)) st).keep = st.keep := by
    intro epochs
    induction epochs with
    | nil => exact fun _ => rfl
    | cons epoch epochs ih =>
      intro st
      rw [foldl_cons, ih, insert_keep]
  exact keeps _ st

end SecretStore

variable {st : SecretStore} {highest : Option UInt32}

theorem ofNat_highest
    (same : st.highest = highest.map toNat) : st.highest.map ofNat = highest := by
  rw [same]
  cases highest <;> simp

variable {peerEpoch lookahead : UInt32}

theorem relink_highest {base aim : UInt32} (secret : Nat → Bytes) (room : 0 < st.keep)
    (same : st.highest = highest.map toNat)
    (found : relinkRange highest peerEpoch lookahead = some (base, aim)) :
    (st.relink peerEpoch lookahead secret).highest = (some aim).map toNat ∧
      (st.relink peerEpoch lookahead secret).keep = st.keep := by
  obtain ⟨start, finish, -⟩ := relinkRange_spec found
  unfold SecretStore.relink
  rw [ofNat_highest same, found]
  apply SecretStore.highest_relinked secret (by omega) room
  intro h top
  rw [same] at top
  obtain ⟨h', rfl, rfl⟩ := map_eq_some_iff.mp top
  unfold firstFree at start
  simp only [map_some, getD_some] at start
  omega

theorem relinks_converge (highest : Option UInt32)
    (st : SecretStore) (secrets : Nat → Nat → Bytes) (room : 0 < st.keep)
    (same : st.highest = highest.map toNat) :
    ∃ n, let own := (st.relinks peerEpoch lookahead secrets n).highest.map ofNat
      relinkRange own peerEpoch lookahead = none ∨
        ∃ base aim, relinkRange own peerEpoch lookahead = some (base, aim) ∧ peerEpoch < base := by
  induction gap : peerEpoch.toNat + 1 - firstFree highest using Nat.strong_induction_on
    generalizing highest st secrets with
  | _ gap ih =>
    have here : (st.relinks peerEpoch lookahead secrets 0).highest.map ofNat = highest :=
      ofNat_highest same
    cases found : relinkRange highest peerEpoch lookahead with
    | none => exact ⟨0, .inl (by rw [here]; exact found)⟩
    | some range =>
      obtain ⟨base, aim⟩ := range
      by_cases reached : peerEpoch < base
      · exact ⟨0, .inr ⟨base, aim, by rw [here]; exact found, reached⟩⟩
      obtain ⟨start, finish, -⟩ := relinkRange_spec found
      rw [lt_iff_toNat_lt] at reached
      obtain ⟨top, keep⟩ := relink_highest (secrets 0) room same found
      have closer : firstFree (some aim) = aim.toNat + 1 := rfl
      obtain ⟨n, later⟩ := ih (peerEpoch.toNat + 1 - firstFree (some aim)) (by omega) (some aim)
        (st.relink peerEpoch lookahead (secrets 0)) (fun i => secrets (i + 1))
        (by rw [keep]; exact room) top rfl
      exact ⟨n + 1, later⟩

/-- The numbers of a re-link: what it negotiates lies above the own window and not far above it,
it lies above the peer's epoch when that is near, and completed re-links for one and the same
epoch of the peer get there unless the numbers run out. -/
theorem resync_numbering (highest : Option UInt32) (peerEpoch lookahead : UInt32) :
    (∀ base aim, relinkRange highest peerEpoch lookahead = some (base, aim) →
      (∀ epoch : Nat, base.toNat ≤ epoch → epoch ≤ aim.toNat → ∀ h ∈ highest, h.toNat < epoch) ∧
      (∀ h ∈ highest, (saturatingAdd h 1).toNat = h.toNat + 1) ∧
      aim.toNat = base.toNat + lookahead.toNat ∧
      (∀ h ∈ highest, base.toNat ≤ h.toNat + (maxResyncJump.toNat + 1)) ∧
      (highest = none → base ≤ maxResyncJump) ∧
      (∀ h ∈ highest, peerEpoch.toNat ≤ h.toNat + maxResyncJump.toNat → peerEpoch < base) ∧
      (highest = none → peerEpoch < maxResyncJump → peerEpoch < base)) ∧
    ∀ (st : SecretStore) (secrets : Nat → Nat → Bytes), 0 < st.keep →
      st.highest = highest.map UInt32.toNat →
      ∃ n, let own := (st.relinks peerEpoch lookahead secrets n).highest.map UInt32.ofNat
        relinkRange own peerEpoch lookahead = none ∨
          ∃ base aim, relinkRange own peerEpoch lookahead = some (base, aim) ∧ peerEpoch < base := by
  refine ⟨?_, fun st secrets room same => relinks_converge highest st secrets room same⟩
  intro base aim found
  obtain ⟨start, finish, room⟩ := relinkRange_spec found
  have jump : maxResyncJump.toNat = 1024 := rfl
  have one : (1 : UInt32).toNat = 1 := rfl
  cases highest with
  | none =>
    have free : firstFree none = 0 := rfl
    simp only [mem_def, reduceCtorEq, false_implies, implies_true, true_and, UInt32.le_iff_toNat_le,
      UInt32.lt_iff_toNat_lt]
    omega
  | some h =>
    have free : firstFree (some h) = h.toNat + 1 := rfl
    simp only [mem_def, Option.some.injEq, forall_eq', reduceCtorEq, false_implies, and_true,
      true_and, UInt32.lt_iff_toNat_lt, saturatingAdd_toNat]
    refine ⟨?_, ?_, finish, ?_, ?_⟩ <;> omega

theorem resync_numbering_far_peer :
    let st := (SecretStore.empty 6).insert 2 []
    relinkRange (some 2) 5000 2 = some (1027, 1029) ∧
      (∀ epoch : Nat, 1027 ≤ epoch → epoch ≤ 1029 → ∀ h ∈ some (2 : UInt32), h.toNat < epoch) ∧
      ∃ n, let own := (st.relinks 5000 2 (fun _ _ => []) n).highest.map UInt32.ofNat
        relinkRange own 5000 2 = none ∨ ∃ base aim, relinkRange own 5000 2 = some (base, aim) ∧ 5000 < base :=
  ⟨by decide, ((resync_numbering (some 2) 5000 2).1 1027 1029 (by decide)).1,
    (resync_numbering (some 2) 5000 2).2 _ _ (by decide) (by decide)⟩

/-- Who calls `request_resync`: `open` for a session whose epoch it lacks, `dec_keys` for the
epochs that timed out, `handle_resync_request` for the peer's own window. -/
inductive ResyncCaller where
  | frameAuth (session : UInt64)
  | decKeys (dead : UInt32) (others : List UInt32)
  | resyncRequest (peerEpoch : UInt32)

def ResyncCaller.epoch : ResyncCaller → Nat
  | .frameAuth session => min session.toNat (2 ^ 32 - 1)
  | .decKeys dead others => (others.map toNat).foldl max dead.toNat
  | .resyncRequest peerEpoch => max peerEpoch.toNat 1

/-- The resync part of a `SecretStore`: the epoch asked for, the permit of its `Notify`, the task
that polls it, the callers between `fetch_max` and `notify_one`, the epochs asked for since the
last poll that returned, and what the polls returned. -/
structure ResyncPoll where
  store : SecretStore
  permit : Bool
  poller : Reader
  notifying : Nat
  asked : List Nat
  answers : List Nat

namespace ResyncPoll

inductive Act where
  | fetchMax (caller : ResyncCaller)
  | notifyOne
  | resyncRequested
  | swap
  | notified
  | resumed
  /-- Another arm of the `select!` is taken and the poll is dropped where it waits. -/
  | dropped

def new (keep : Nat) : ResyncPoll := ⟨.empty keep, false, .idle, 0, [], []⟩

def next (p : ResyncPoll) : Act → ResyncPoll
  | .fetchMax caller =>
    { p with
      store := p.store.requestResync caller.epoch
      notifying := p.notifying + 1
      asked := caller.epoch :: p.asked }
  | .notifyOne =>
    if p.notifying = 0 then p
    else if p.poller = .waiting then { p with notifying := p.notifying - 1, poller := .woken }
    else { p with notifying := p.notifying - 1, permit := true }
  | .resyncRequested => if p.poller = .idle then { p with poller := .polling } else p
  | .swap =>
    if p.poller = .polling then
      let pending := p.store.resyncEpoch
      if pending > 0 then
        { p with
          store := { p.store with resyncEpoch := 0 }
          poller := .idle
          asked := []
          answers := pending :: p.answers }
      else { p with poller := .checked }
    else p
  | .notified =>
    if p.poller = .checked then
      if p.permit then { p with permit := false, poller := .polling }
      else { p with poller := .waiting }
    else p
  | .resumed => if p.poller = .woken then { p with poller := .polling } else p
  | .dropped =>
    if p.poller = .waiting then { p with poller := .idle }
    else if p.poller = .woken then { p with poller := .idle, permit := true }
    else p

def advance (p : ResyncPoll) : ResyncPoll :=
  match p.poller with
  | .idle => p.next .resyncRequested
  | .polling => p.next .swap
  | .checked => p.next .notified
  | .waiting => p
  | .woken => p.next .resumed

def toMailbox (p : ResyncPoll) : Mailbox Nat :=
  ⟨p.store.resyncEpoch, p.permit, p.poller, p.notifying, p.asked, p.answers⟩

def Act.toMailbox : Act → Mailbox.Act Nat
  | .fetchMax caller => .put caller.epoch
  | .notifyOne => .notify
  | .resyncRequested => .start
  | .swap => .take
  | .notified => .wait
  | .resumed => .resume
  | .dropped => .cancel

theorem toMailbox_next (p : ResyncPoll) (act : Act) :
    (p.next act).toMailbox = p.toMailbox.next act.toMailbox := by
  cases act with
  | fetchMax caller => rfl
  | notifyOne =>
    by_cases quiet : p.notifying = 0
    · simp [next, Act.toMailbox, Mailbox.next, toMailbox, quiet]
    · by_cases waiting : p.poller = .waiting <;>
        simp [next, Act.toMailbox, Mailbox.next, toMailbox, quiet, waiting]
  | resyncRequested =>
    by_cases idle : p.poller = .idle <;> simp [next, Act.toMailbox, Mailbox.next, toMailbox, idle]
  | swap =>
    by_cases polling : p.poller = .polling
    · by_cases nothing : p.store.resyncEpoch = 0
      · simp [next, Act.toMailbox, Mailbox.next, toMailbox, polling, nothing]
      · simp [next, Act.toMailbox, Mailbox.next, toMailbox, polling, nothing, pos_of_ne_zero nothing]
    · simp [next, Act.toMailbox, Mailbox.next, toMailbox, polling]
  | notified =>
    by_cases checked : p.poller = .checked
    · cases permitted : p.permit <;>
        simp [next, Act.toMailbox, Mailbox.next, toMailbox, checked, permitted]
    · simp [next, Act.toMailbox, Mailbox.next, toMailbox, checked]
  | resumed =>
    by_cases woken : p.poller = .woken <;> simp [next, Act.toMailbox, Mailbox.next, toMailbox, woken]
  | dropped =>
    by_cases waiting : p.poller = .waiting
    · simp [next, Act.toMailbox, Mailbox.next, toMailbox, waiting]
    · by_cases woken : p.poller = .woken <;>
        simp [next, Act.toMailbox, Mailbox.next, toMailbox, waiting, woken]

theorem toMailbox_advance (p : ResyncPoll) : p.advance.toMailbox = p.toMailbox.advance := by
  unfold advance Mailbox.advance
  show _ = match p.poller with
    | .idle => p.toMailbox.next .start
    | .polling => p.toMailbox.next .take
    | .checked => p.toMailbox.next .wait
    | .waiting => p.toMailbox
    | .woken => p.toMailbox.next .resume
  cases p.poller with
  | idle => exact toMailbox_next p .resyncRequested
  | polling => exact toMailbox_next p .swap
  | checked => exact toMailbox_next p .notified
  | waiting => rfl
  | woken => exact toMailbox_next p .resumed

theorem toMailbox_run (p : ResyncPoll) (acts : List Act) :
    (acts.foldl next p).toMailbox = (acts.map Act.toMailbox).foldl Mailbox.next p.toMailbox := by
  induction acts generalizing p with
  | nil => rfl
  | cons act acts ih => rw [foldl_cons, ih, toMailbox_next, map_cons, foldl_cons]

theorem toMailbox_iterate (p : ResyncPoll) (n : Nat) :
    (advance^[n] p).toMailbox = Mailbox.advance^[n] p.toMailbox := by
  induction n generalizing p with
  | zero => rfl
  | succ n ih => rw [Function.iterate_succ_apply, ih, toMailbox_advance, ← Function.iterate_succ_apply]

theorem run_sound (keep : Nat) (acts : List Act) : (acts.foldl next (new keep)).toMailbox.Sound := by
  rw [toMailbox_run]
  exact Mailbox.run_sound _

theorem join_ne_zero {asked : List Nat} : Mailbox.join asked ≠ 0 ↔ ∃ e ∈ asked, e ≠ 0 := by
  induction asked with
  | nil => simp [Mailbox.join]
  | cons e asked ih =>
    have split : Mailbox.join (e :: asked) = max e (Mailbox.join asked) := rfl
    rw [exists_mem_cons_iff, ← ih]
    omega

/-- In every interleaving of callers and polls, a poll that returns gives the highest epoch asked
for since the last one; and once the callers are done, the next poll returns that epoch exactly
when one of them asked for another epoch than 0. -/
theorem resync_requests_answered (keep : Nat) (acts : List Act) :
    let p := acts.foldl next (new keep)
    (∀ act, (p.next act).answers = p.answers ∨ (p.next act).answers = p.asked.foldr max 0 :: p.answers) ∧
    (p.notifying = 0 →
      ((∃ n, (advance^[n] p).answers = p.asked.foldr max 0 :: p.answers) ↔
        ∃ epoch ∈ p.asked, epoch ≠ 0)) := by
  intro p
  have sound := run_sound keep acts
  constructor
  · intro act
    have step := sound.answers act.toMailbox
    rw [← toMailbox_next] at step
    exact step.imp_right And.left
  intro quiet
  have answered := sound.answers_iff quiet
  simp only [← toMailbox_iterate] at answered
  exact answered.trans join_ne_zero

theorem resync_requests_answered_two :
    ∃ n, (advance^[n] ([.fetchMax (.frameAuth 0), .resyncRequested, .swap, .fetchMax (.decKeys 7 [3]),
      .notifyOne, .notified, .notifyOne].foldl next (new 4))).answers = [7] := by
  have answered := (resync_requests_answered 4 [.fetchMax (.frameAuth 0), .resyncRequested, .swap,
    .fetchMax (.decKeys 7 [3]), .notifyOne, .notified, .notifyOne]).2 (by decide)
  exact answered.mpr ⟨7, by decide, by decide⟩

/-- A frame of session 0 whose epoch is gone asks for a resync that no poll ever sees. -/
theorem epoch_zero_lost :
    let p := [.fetchMax (.frameAuth 0), .notifyOne].foldl next (new 4)
    p.asked = [0] ∧ p.notifying = 0 ∧ ∀ n, (advance^[n] p).answers = [] := by
  intro p
  refine ⟨by decide, by decide, fun n => ?_⟩
  have silent := Mailbox.silent (m := p.toMailbox) (by decide) n
  rw [← toMailbox_iterate] at silent
  exact silent

end ResyncPoll

end Dkms.Link
