import Dkms.Core.Runs

namespace Dkms.Core

inductive Reader where
  | idle
  | polling
  | checked
  | waiting
  | woken
  deriving DecidableEq

/-- A value that writers join into and that one reader takes. A writer first joins and then
notifies; a notification wakes the waiting reader or leaves a permit for its next wait.
`asked` holds what was joined since the reader last answered. -/
structure Mailbox (α : Type*) where
  value : α
  permit : Bool
  reader : Reader
  notifying : Nat
  asked : List α
  answers : List α

namespace Mailbox

variable {α : Type*} [SemilatticeSup α] [OrderBot α] [DecidableEq α]

inductive Act (α : Type*) where
  | put (a : α)
  | notify
  | start
  | take
  | wait
  | resume
  | cancel

def empty : Mailbox α := ⟨⊥, false, .idle, 0, [], []⟩

def next (m : Mailbox α) : Act α → Mailbox α
  | .put a =>
    { m with value := m.value ⊔ a, notifying := m.notifying + 1, asked := a :: m.asked }
  | .notify =>
    if m.notifying = 0 then m
    else if m.reader = .waiting then { m with notifying := m.notifying - 1, reader := .woken }
    else { m with notifying := m.notifying - 1, permit := true }
  | .start => if m.reader = .idle then { m with reader := .polling } else m
  | .take =>
    if m.reader = .polling then
      if m.value = ⊥ then { m with reader := .checked }
      else { m with value := ⊥, reader := .idle, asked := [], answers := m.value :: m.answers }
    else m
  | .wait =>
    if m.reader = .checked then
      if m.permit then { m with permit := false, reader := .polling }
      else { m with reader := .waiting }
    else m
  | .resume => if m.reader = .woken then { m with reader := .polling } else m
  | .cancel =>
    if m.reader = .waiting then { m with reader := .idle }
    -- a notification that was not acted on is handed back
    else if m.reader = .woken then { m with reader := .idle, permit := true }
    else m

def advance (m : Mailbox α) : Mailbox α :=
  match m.reader with
  | .idle => m.next .start
  | .polling => m.next .take
  | .checked => m.next .wait
  | .waiting => m
  | .woken => m.next .resume

def join (asked : List α) : α := asked.foldr (· ⊔ ·) ⊥

structure Sound (m : Mailbox α) : Prop where
  value : m.value = join m.asked
  wakes : m.value ≠ ⊥ → m.notifying = 0 → m.reader ≠ .waiting ∧ (m.reader = .checked → m.permit)

omit [DecidableEq α] in
theorem empty_sound : (empty : Mailbox α).Sound := ⟨rfl, fun nothing => absurd rfl nothing⟩

variable {m : Mailbox α}

theorem Sound.next (sound : m.Sound) (act : Act α) : (m.next act).Sound := by
  obtain ⟨value, wakes⟩ := sound
  cases act with
  | put a =>
    refine ⟨?_, ?_⟩
    · show m.value ⊔ a = a ⊔ join m.asked
      rw [value, sup_comm]
    · intro _ none
      simp [Mailbox.next] at none
  | notify =>
    simp only [Mailbox.next]
    split
    · exact ⟨value, wakes⟩
    split
    · exact ⟨value, by simp⟩
    · rename_i awake
      exact ⟨value, fun _ _ => ⟨awake, fun _ => rfl⟩⟩
  | take =>
    simp only [Mailbox.next]
    split
    · split
      · rename_i nothing
        exact ⟨value, fun something => absurd nothing something⟩
      · exact ⟨rfl, fun something => absurd rfl something⟩
    · exact ⟨value, wakes⟩
  | wait =>
    simp only [Mailbox.next]
    split
    · rename_i checked
      split
      · exact ⟨value, by simp⟩
      rename_i unpermitted
      refine ⟨value, fun something quiet => ?_⟩
      exact absurd ((wakes something quiet).2 checked) unpermitted
    · exact ⟨value, wakes⟩
  | cancel =>
    simp only [Mailbox.next]
    split
    · exact ⟨value, by simp⟩
    split
    · exact ⟨value, by simp⟩
    · exact ⟨value, wakes⟩
  | _ =>
    simp only [Mailbox.next]
    split
    · exact ⟨value, by simp⟩
    · exact ⟨value, wakes⟩

theorem run_sound (acts : List (Act α)) : (acts.foldl Mailbox.next empty).Sound :=
  (Follows.all empty acts).invariant (fun _ act sound _ => sound.next act) empty_sound

theorem Sound.answers (sound : m.Sound) (act : Act α) : (m.next act).answers = m.answers ∨
      (m.next act).answers = join m.asked :: m.answers ∧ join m.asked ≠ ⊥ := by
  cases act with
  | put a => exact .inl rfl
  | start =>
    left
    simp only [Mailbox.next]
    split <;> rfl
  | take =>
    simp only [Mailbox.next]
    split
    · split
      · exact .inl rfl
      rename_i something
      rw [sound.value] at something ⊢
      exact .inr ⟨rfl, something⟩
    · exact .inl rfl
  | wait =>
    left
    simp only [Mailbox.next]
    split
    · split <;> rfl
    · rfl
  | resume =>
    left
    simp only [Mailbox.next]
    split <;> rfl
  | _ =>
    left
    simp only [Mailbox.next]
    split
    · rfl
    · split <;> rfl

theorem advance_silent (nothing : m.value = ⊥) :
    m.advance.value = ⊥ ∧ m.advance.answers = m.answers := by
  unfold advance
  cases place : m.reader with
  | checked =>
    cases permitted : m.permit <;> simp [Mailbox.next, place, permitted, nothing]
  | waiting => simp [nothing]
  | _ => simp [Mailbox.next, place, nothing]

theorem silent (nothing : m.value = ⊥) (n : Nat) : (advance^[n] m).answers = m.answers := by
  induction n generalizing m with
  | zero => rfl
  | succ n ih =>
    obtain ⟨still, same⟩ := advance_silent nothing
    rw [Function.iterate_succ_apply, ih still, same]

theorem Sound.answers_iff (sound : m.Sound) (quiet : m.notifying = 0) :
    (∃ n, (advance^[n] m).answers = join m.asked :: m.answers) ↔ join m.asked ≠ ⊥ := by
  constructor
  · intro ⟨n, answered⟩ nothing
    rw [← sound.value] at nothing
    rw [silent nothing n] at answered
    have length := congrArg List.length answered
    simp at length
  intro something
  have value := sound.value
  rw [← value] at something
  obtain ⟨awake, permitted⟩ := sound.wakes something quiet
  rw [← value]
  cases place : m.reader with
  | polling => exact ⟨1, by simp [Mailbox.next, advance, place, something]⟩
  | checked => exact ⟨2, by simp [Mailbox.next, advance, place, permitted place, something]⟩
  | waiting => exact absurd place awake
  | _ => exact ⟨2, by simp [Mailbox.next, advance, place, something]⟩

end Mailbox

end Dkms.Core
