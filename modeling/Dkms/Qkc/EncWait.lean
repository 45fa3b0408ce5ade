import Dkms.Core.Count
import Dkms.Qkc.EncRing

namespace Dkms.Qkc

open List Dkms.Core

/-- Where a call of `wait_enc_batch` stands. In `taking left seq` it runs `take_enc_batch` with
`left` pops to go: its first one, or the retry after it has read `seq`. -/
inductive WaitPhase where
  | taking (left : Nat) (seq : Option Nat)
  | looping
  | checking (seq : Nat)
  | enrolling (seq : Nat)
  | asleep
  | served
  | timedOut (missing : Nat)
  deriving DecidableEq

structure EncCall where
  n : Nat
  deadline : Nat
  out : List OtpKey
  phase : WaitPhase
  deriving DecidableEq

def EncCall.isTimedOut (c : EncCall) : Bool :=
  match c.phase with
  | .timedOut _ => true
  | _ => false

/-- The ENC side of a `KeyStore` with its callers. `entered` are the keys that were put in the
ring so far. -/
structure EncWaits where
  ring : EncRing
  insertedSeq : Nat
  now : Nat
  calls : List EncCall
  entered : List OtpKey

/-- `worker` is a step of the refill or of the bank; a sleeping caller can wake up at any time,
and its sleep ends at the deadline. -/
inductive WaitAct where
  | worker (act : EncAct)
  | advance (ms : Nat)
  | call (n timeout : Nat)
  | step (i : Nat)
  | wake (i : Nat)
  | expire (i : Nat)

namespace EncWaits

def new : EncWaits := ⟨.new, 0, 0, [], []⟩

variable (s : EncWaits)

def absorbs : EncAct → Bool
  | .refill => s.ring.refill = .absorbing []
  | .bank =>
    match s.ring.bank with
    | .absorbing _ _ _ [] => true
    | _ => false
  | _ => false

def work : EncAct → EncWaits
  | .take => s
  | act =>
    let ring := s.ring.next act
    { s with
      ring
      insertedSeq := if s.absorbs act then s.insertedSeq + 1 else s.insertedSeq
      entered := s.entered ++ ring.enc.drop s.ring.enc.length }

def setCall (i : Nat) (c : EncCall) : EncWaits := { s with calls := s.calls.set i c }

def timeOut (i : Nat) (c : EncCall) : EncWaits :=
  s.setCall i { c with phase := .timedOut (c.n - c.out.length) }

def taken (i : Nat) (c : EncCall) : Option Nat → EncWaits
  | none => s.setCall i { c with phase := .looping }
  | some seq =>
    if c.out.length = c.n then s.setCall i { c with phase := .served }
    else s.setCall i { c with phase := .checking seq }

def callStep (i : Nat) : EncWaits :=
  match s.calls[i]? with
  | none => s
  | some c =>
    match c.phase with
    | .taking 0 seq => s.taken i c seq
    | .taking (left + 1) seq =>
      match s.ring.enc with
      | [] => s.taken i c seq
      | key :: _ =>
        { s with ring := s.ring.next .take }.setCall i
          { c with out := c.out ++ [key], phase := .taking left seq }
    | .looping =>
      if c.out.length < c.n then
        s.setCall i { c with phase := .taking (c.n - c.out.length) (some s.insertedSeq) }
      else s.setCall i { c with phase := .served }
    | .checking seq =>
      if c.deadline ≤ s.now then s.timeOut i c
      else s.setCall i { c with phase := .enrolling seq }
    | .enrolling seq =>
      if s.insertedSeq = seq then s.setCall i { c with phase := .asleep }
      else s.setCall i { c with phase := .looping }
    | .asleep | .served | .timedOut _ => s

def wake (i : Nat) : EncWaits :=
  match s.calls[i]? with
  | none => s
  | some c => if c.phase = .asleep then s.setCall i { c with phase := .looping } else s

def expire (i : Nat) : EncWaits :=
  match s.calls[i]? with
  | none => s
  | some c => if c.phase = .asleep ∧ c.deadline ≤ s.now then s.timeOut i c else s

def next : WaitAct → EncWaits
  | .worker act => s.work act
  | .advance ms => { s with now := s.now + ms }
  | .call n timeout => { s with calls := s.calls ++ [⟨n, s.now + timeout, [], .taking n none⟩] }
  | .step i => s.callStep i
  | .wake i => s.wake i
  | .expire i => s.expire i

def run (acts : List WaitAct) : EncWaits := acts.foldl next s

def Conserved : Prop :=
  s.entered.Perm (s.ring.enc ++ (s.calls.filter (!·.isTimedOut)).flatMap (·.out))

end EncWaits

/-- What a call has in hand. One that goes to sleep or runs out of time lacks a key. -/
def EncCall.Fits (c : EncCall) : Prop :=
  match c.phase with
  | .taking left _ => c.out.length + left ≤ c.n
  | .looping | .served => c.out.length ≤ c.n
  | .checking _ | .enrolling _ | .asleep | .timedOut _ => c.out.length < c.n

namespace EncWaits

variable {s : EncWaits}

/-- All that an act can do to the ring and the callers. -/
inductive Moved (s : EncWaits) (act : WaitAct) (s' : EncWaits) : Prop
  | enter (keys : List OtpKey) (enc : s'.ring.enc = s.ring.enc ++ keys)
      (entered : s'.entered = s.entered ++ keys) (calls : s'.calls = s.calls)
  | begin (n timeout : Nat) (asked : act = .call n timeout) (enc : s'.ring.enc = s.ring.enc)
      (entered : s'.entered = s.entered)
      (calls : s'.calls = s.calls ++ [⟨n, s.now + timeout, [], .taking n none⟩])
  | phase (i : Nat) (c : EncCall) (p : WaitPhase) (found : s.calls[i]? = some c)
      (enc : s'.ring.enc = s.ring.enc) (entered : s'.entered = s.entered)
      (calls : s'.calls = s.calls.set i { c with phase := p })
      (fits : c.Fits → { c with phase := p : EncCall }.Fits)
  | pop (i : Nat) (c : EncCall) (left : Nat) (seq : Option Nat) (key : OtpKey)
      (found : s.calls[i]? = some c) (enc : s.ring.enc = key :: s'.ring.enc)
      (entered : s'.entered = s.entered)
      (calls : s'.calls = s.calls.set i { c with out := c.out ++ [key], phase := .taking left seq })
      (takes : c.phase = .taking (left + 1) seq)

variable {act : WaitAct}

theorem Moved.same (s : EncWaits) (act : WaitAct) : s.Moved act s :=
  .enter [] (by simp) (by simp) rfl

theorem moved_phase {i : Nat} {c : EncCall} (found : s.calls[i]? = some c) (p : WaitPhase)
    (fits : c.Fits → { c with phase := p : EncCall }.Fits) :
    s.Moved act (s.setCall i { c with phase := p }) :=
  .phase i c p found rfl rfl rfl fits

theorem moved_taken {i : Nat} {c : EncCall} (found : s.calls[i]? = some c) {left : Nat}
    {seq : Option Nat} (phase : c.phase = .taking left seq) : s.Moved act (s.taken i c seq) := by
  have most : c.Fits → c.out.length ≤ c.n := by
    simp only [EncCall.Fits, phase]
    omega
  unfold taken
  split
  · exact moved_phase found _ most
  split
  · exact moved_phase found _ most
  · rename_i lacks
    exact moved_phase found _ fun fits => Nat.lt_of_le_of_ne (most fits) lacks

theorem moved_callStep (s : EncWaits) (i : Nat) : s.Moved act (s.callStep i) := by
  unfold callStep
  split
  · exact .same s act
  rename_i c found
  split
  · rename_i phase
    exact moved_taken found phase
  · rename_i left seq phase
    split
    · exact moved_taken found phase
    rename_i key rest held
    have popped : s.ring.enc = key :: (s.ring.next .take).enc := by simp [EncRing.next, held]
    exact .pop i c left seq key found popped rfl rfl phase
  · rename_i phase
    split
    · refine moved_phase found _ ?_
      simp only [EncCall.Fits, phase]
      omega
    · exact moved_phase found _ (by simp [EncCall.Fits, phase])
  · rename_i seq phase
    split <;> exact moved_phase found _ (by simp [EncCall.Fits, phase])
  · rename_i seq phase
    split
    · exact moved_phase found _ (by simp [EncCall.Fits, phase])
    · refine moved_phase found _ ?_
      simp only [EncCall.Fits, phase]
      omega
  · exact .same s act
  · exact .same s act
  · exact .same s act

theorem work_other (s : EncWaits) {act : EncAct} (other : act ≠ .take) :
    (s.work act).ring.enc = (s.ring.next act).enc ∧
      (s.work act).entered = s.entered ++ (s.ring.next act).enc.drop s.ring.enc.length ∧
      (s.work act).calls = s.calls := by
  cases act with
  | take => exact absurd rfl other
  | _ => exact ⟨rfl, rfl, rfl⟩

theorem next_moved (s : EncWaits) (act : WaitAct) : s.Moved act (s.next act) := by
  cases act with
  | worker act =>
    show s.Moved _ (s.work act)
    by_cases pops : act = .take
    · subst pops
      exact .same s _
    obtain ⟨keys, grown⟩ := s.ring.next_grows act pops
    obtain ⟨enc, entered, calls⟩ := s.work_other pops
    rw [← grown] at enc entered
    rw [drop_left] at entered
    exact .enter keys enc entered calls
  | advance ms => exact .enter [] (by simp [next]) (by simp [next]) rfl
  | call n timeout => exact .begin n timeout rfl rfl rfl rfl
  | step i => exact moved_callStep s i
  | wake i =>
    show s.Moved _ (s.wake i)
    unfold wake
    split
    · exact .same s _
    rename_i c found
    split
    · rename_i asleep
      refine moved_phase found _ ?_
      simp only [EncCall.Fits, asleep]
      omega
    · exact .same s _
  | expire i =>
    show s.Moved _ (s.expire i)
    unfold expire
    split
    · exact .same s _
    rename_i c found
    split
    · rename_i ends
      exact moved_phase found _ (by simp [EncCall.Fits, ends.1])
    · exact .same s _

def Kept (s : EncWaits) : Prop := s.entered.Perm (s.ring.enc ++ s.calls.flatMap (·.out))

def NothingBurned (s : EncWaits) : Prop := ∀ c ∈ s.calls, c.isTimedOut → c.out = []

def Within (most : Nat) (s : EncWaits) : Prop := ∀ c ∈ s.calls, c.n ≤ most ∧ c.Fits

variable {s' : EncWaits}

theorem Kept.moved (kept : s.Kept) (moved : s.Moved act s') : s'.Kept := by
  unfold Kept at kept ⊢
  cases moved with
  | enter keys enc entered calls =>
    rw [enc, entered, calls, append_assoc]
    have added := kept.append_right keys
    rw [append_assoc] at added
    exact added.trans (perm_append_comm.append_left _)
  | begin n timeout asked enc entered calls =>
    rw [enc, entered, calls]
    simpa using kept
  | phase i c p found enc entered calls =>
    rw [enc, entered, calls]
    have same : ((s.calls.set i { c with phase := p }).flatMap (·.out)).Perm
        (s.calls.flatMap (·.out)) := by
      have moved := flatMap_set_perm (f := EncCall.out) found { c with phase := p }
      exact (perm_append_right_iff _).mp moved
    exact kept.trans (same.symm.append_left _)
  | pop i c left seq key found enc entered calls =>
    rw [entered, calls]
    rw [enc] at kept
    have more : ((s.calls.set i { c with out := c.out ++ [key], phase := .taking left seq }).flatMap
        (·.out)).Perm (key :: s.calls.flatMap (·.out)) := by
      have moved := flatMap_set_perm (f := EncCall.out) found
        { c with out := c.out ++ [key], phase := .taking left seq }
      rw [← append_assoc] at moved
      exact (perm_append_right_iff _).mp (moved.trans (perm_append_singleton _ _))
    exact kept.trans ((perm_middle.symm).trans (more.symm.append_left _))

theorem Within.moved {most : Nat} (within : s.Within most) (moved : s.Moved act s')
    (few : ∀ n timeout, act = .call n timeout → n ≤ most) : s'.Within most := by
  unfold Within at within ⊢
  cases moved with
  | enter keys enc entered calls => rwa [calls]
  | begin n timeout asked enc entered calls =>
    rw [calls]
    intro c member
    rcases mem_append.mp member with old | new
    · exact within c old
    rw [mem_singleton.mp new]
    exact ⟨few n timeout asked, by simp [EncCall.Fits]⟩
  | phase i c p found enc entered calls fits =>
    rw [calls]
    intro c' member
    rcases mem_or_eq_of_mem_set member with old | rfl
    · exact within c' old
    obtain ⟨bound, before⟩ := within c (mem_of_getElem? found)
    exact ⟨bound, fits before⟩
  | pop i c left seq key found enc entered calls takes =>
    rw [calls]
    intro c' member
    rcases mem_or_eq_of_mem_set member with old | rfl
    · exact within c' old
    obtain ⟨bound, before⟩ := within c (mem_of_getElem? found)
    refine ⟨bound, ?_⟩
    simp only [EncCall.Fits, takes] at before
    simp only [EncCall.Fits, length_append, length_singleton]
    omega

theorem Within.nothingBurned (within : s.Within 1) : s.NothingBurned := by
  intro c member ended
  obtain ⟨bound, fits⟩ := within c member
  unfold EncCall.isTimedOut at ended
  split at ended
  · rename_i missing phase
    simp only [EncCall.Fits, phase] at fits
    exact eq_nil_of_length_eq_zero (by omega)
  · cases ended

theorem Kept.conserved (kept : s.Kept) (none : s.NothingBurned) : s.Conserved := by
  have parts : (s.calls.flatMap (·.out)).Perm ((s.calls.filter (!·.isTimedOut)).flatMap (·.out) ++
      (s.calls.filter (·.isTimedOut)).flatMap (·.out)) := by
    rw [← flatMap_append]
    exact ((filter_append_perm _ _).symm.trans perm_append_comm).flatMap_right _
  have burned : (s.calls.filter (·.isTimedOut)).flatMap (·.out) = [] := by
    simpa [NothingBurned] using none
  rw [burned, append_nil] at parts
  exact kept.trans (parts.append_left _)

theorem run_keeps {most : Nat} (acts : List WaitAct)
    (few : ∀ n timeout, .call n timeout ∈ acts → n ≤ most) :
    (new.run acts).Kept ∧ (new.run acts).Within most := by
  have each : ∀ act ∈ acts, ∀ n timeout, act = .call n timeout → n ≤ most := by
    rintro act member n timeout rfl
    exact few n timeout member
  have keeps : ∀ (s : EncWaits) (act : WaitAct), s.Kept ∧ s.Within most →
      (∀ n timeout, act = .call n timeout → n ≤ most) →
      (s.next act).Kept ∧ (s.next act).Within most := by
    rintro s act ⟨kept, within⟩ asked
    exact ⟨kept.moved (s.next_moved act), within.moved (s.next_moved act) asked⟩
  exact (follows_of_forall each).invariant keeps ⟨List.Perm.nil, forall_mem_nil _⟩

def halfServed : List WaitAct :=
  [.call 2 5, .worker .wake, .worker .refill, .worker .refill,
    .worker (.refillAnswer (some [⟨1, [7]⟩])), .worker .refill, .step 0, .step 0, .step 0, .step 0,
    .advance 5, .step 0]

theorem halfServed_ends :
    let s := new.run halfServed
    s.entered = [⟨1, [7]⟩] ∧ s.ring.enc = [] ∧ s.calls = [⟨2, 5, [⟨1, [7]⟩], .timedOut 1⟩] := by
  decide +kernel

/-- In every interleaving of callers, workers and deadlines keys are conserved, and a call that
times out leaves those it found, as long as no call asks for more than one key; with two keys
in a call this fails. -/
theorem enc_wait_conserves (most : Nat) :
    (∀ acts : List WaitAct, (∀ n timeout, .call n timeout ∈ acts → n ≤ most) →
      (new.run acts).Conserved ∧ ∀ c ∈ (new.run acts).calls, c.isTimedOut → c.out = []) ↔
    most ≤ 1 := by
  constructor
  · intro property
    by_contra more
    have asked : ∀ n timeout, .call n timeout ∈ halfServed → n ≤ most := by
      simp only [halfServed, mem_cons, WaitAct.call.injEq, reduceCtorEq, not_mem_nil, or_false]
      omega
    have burned := (property halfServed asked).2 ⟨2, 5, [⟨1, [7]⟩], .timedOut 1⟩
    rw [halfServed_ends.2.2] at burned
    cases burned mem_cons_self rfl
  · intro few acts asked
    obtain ⟨kept, within⟩ := run_keeps acts fun n timeout member => (asked n timeout member).trans few
    exact ⟨kept.conserved within.nothingBurned, within.nothingBurned⟩

theorem half_served_burns :
    let s := new.run halfServed
    s.entered = [⟨1, [7]⟩] ∧ s.ring.enc = [] ∧ s.calls = [⟨2, 5, [⟨1, [7]⟩], .timedOut 1⟩] ∧
      ¬ s.Conserved := by
  obtain ⟨entered, ring, calls⟩ := halfServed_ends
  refine ⟨entered, ring, calls, fun conserved => ?_⟩
  unfold Conserved at conserved
  rw [entered, ring, calls] at conserved
  cases conserved.length_eq

end EncWaits

end Dkms.Qkc
