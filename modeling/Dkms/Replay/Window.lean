import Dkms.Core.WordBits

namespace Dkms.Replay

open List Dkms.Core

def moveWord (words : Nat) (bits : List W64) (i : Nat) : List W64 :=
  bits.set i (if words ≤ i then bits.getD (i - words) 0 else 0)

/-- The descending loop of `shift_bits`: a word is read before it is overwritten. -/
def moveWords (words : Nat) (bits : List W64) : List W64 :=
  (range bits.length).reverse.foldl (moveWord words) bits

def carryWords (rem : Nat) : W64 → List W64 → List W64
  | _, [] => []
  | carry, w :: ws => (w <<< rem ||| carry) :: carryWords rem (w >>> (64 - rem)) ws

def shiftBits (bits : List W64) (amount : Nat) : List W64 :=
  let words := amount / 64
  let rem := amount % 64
  let moved := if words > 0 then moveWords words bits else bits
  if rem > 0 then carryWords rem 0 moved else moved

theorem moveWords_prefix_succ (words k : Nat) (bits : List W64) :
    (range (k + 1)).reverse.foldl (moveWord words) bits =
      (range k).reverse.foldl (moveWord words) (moveWord words bits k) := by
  rw [range_succ, reverse_append, reverse_singleton, singleton_append, foldl_cons]

theorem moveWords_prefix_length (words k : Nat) (bits : List W64) :
    ((range k).reverse.foldl (moveWord words) bits).length = bits.length := by
  induction k generalizing bits with
  | zero => rfl
  | succ k ih => rw [moveWords_prefix_succ, ih, moveWord, length_set]

theorem moveWords_length (words : Nat) (bits : List W64) :
    (moveWords words bits).length = bits.length :=
  moveWords_prefix_length words bits.length bits

theorem carryWords_length (rem : Nat) (carry : W64) (bits : List W64) :
    (carryWords rem carry bits).length = bits.length := by
  induction bits generalizing carry with
  | nil => rfl
  | cons w ws ih => simp [carryWords, ih]

theorem shiftBits_length (bits : List W64) (amount : Nat) :
    (shiftBits bits amount).length = bits.length := by
  unfold shiftBits
  dsimp only
  split <;> split <;> simp only [carryWords_length, moveWords_length]

theorem moveWords_prefix (words k : Nat) (bits : List W64) (positive : 0 < words)
    (bound : k ≤ bits.length) (i : Nat) :
    ((range k).reverse.foldl (moveWord words) bits).getD i 0 =
      if i < k then (if words ≤ i then bits.getD (i - words) 0 else 0) else bits.getD i 0 := by
  induction k generalizing bits with
  | zero => simp
  | succ k ih =>
    have inside : k < bits.length := bound
    rw [moveWords_prefix_succ, ih _ (by rw [moveWord, length_set]; omega)]
    have source : ∀ j, j ≠ k → (moveWord words bits k).getD j 0 = bits.getD j 0 := by
      intro j apart
      simp [moveWord, getD_eq_getElem?_getD, getElem?_set_ne (Ne.symm apart)]
    by_cases below : i < k
    · have early : i < k + 1 := by omega
      simp only [below, early, if_true]
      rw [source (i - words) (by omega)]
    by_cases here : i = k
    · subst here
      simp [moveWord, inside]
    have late : ¬ i < k + 1 := by omega
    simp only [below, late]
    exact source i here

theorem moveWords_test (words : Nat) (bits : List W64) (positive : 0 < words) (i : Nat)
    (bound : i < 64 * bits.length) : wordTest (moveWords words bits) i =
      if 64 * words ≤ i then wordTest bits (i - 64 * words) else false := by
  have moved := moveWords_prefix words bits.length bits positive (Nat.le_refl _) (i / 64)
  have inside : i / 64 < bits.length := by omega
  have quotient : (i - 64 * words) / 64 = i / 64 - words := by omega
  unfold wordTest moveWords
  rw [moved]
  by_cases far : 64 * words ≤ i
  · have remainder : (i - 64 * words) % 64 = i % 64 := by omega
    have word : words ≤ i / 64 := by omega
    simp only [inside, word, far, if_true, quotient, remainder]
  · have word : ¬ words ≤ i / 64 := by omega
    simp [inside, word, far]

theorem carryWords_test (rem : Nat) (positive : 0 < rem) (small : rem < 64) (carry : W64)
    (low : ∀ j, rem ≤ j → carry.getLsbD j = false) (bits : List W64) (i : Nat)
    (bound : i < 64 * bits.length) : wordTest (carryWords rem carry bits) i =
      if i < rem then carry.getLsbD i else wordTest bits (i - rem) := by
  induction bits generalizing carry i with
  | nil => simp at bound
  | cons w ws ih =>
    rw [carryWords, wordTest_cons]
    by_cases first : i < 64
    · simp only [first, BitVec.getLsbD_or, BitVec.getLsbD_shiftLeft]
      by_cases carried : i < rem
      · simp [carried]
      · have inWord : i - rem < 64 := by omega
        simp [carried, low i (by omega), wordTest_cons, inWord]
    have next : ∀ j, rem ≤ j → (w >>> (64 - rem)).getLsbD j = false := by
      intro j far
      rw [BitVec.getLsbD_ushiftRight]
      exact BitVec.getLsbD_of_ge _ _ (by omega)
    have inside : i - 64 < 64 * ws.length := by simp only [length_cons] at bound; omega
    have notCarried : ¬ i < rem := by omega
    rw [if_neg first, ih _ next _ inside, if_neg notCarried, wordTest_cons]
    by_cases straddles : i - 64 < rem
    · have position : 64 - rem + (i - 64) = i - rem := by omega
      have inWord : i - rem < 64 := by omega
      simp [straddles, inWord, position]
    · have inTail : ¬ i - rem < 64 := by omega
      have position : i - 64 - rem = i - rem - 64 := by omega
      simp [straddles, inTail, position]

theorem shiftBits_test (bits : List W64) (amount i : Nat) (bound : i < 64 * bits.length) :
    wordTest (shiftBits bits amount) i =
      if amount ≤ i then wordTest bits (i - amount) else false := by
  have moved : ∀ j, j < 64 * bits.length →
      wordTest (if amount / 64 > 0 then moveWords (amount / 64) bits else bits) j =
        if 64 * (amount / 64) ≤ j then wordTest bits (j - 64 * (amount / 64)) else false := by
    intro j inside
    by_cases positive : amount / 64 > 0
    · simp only [positive]
      exact moveWords_test _ _ positive _ inside
    · have none : amount / 64 = 0 := by omega
      simp [none]
  have length : (if amount / 64 > 0 then moveWords (amount / 64) bits else bits).length =
      bits.length := by
    split
    · exact moveWords_length _ _
    · rfl
  unfold shiftBits
  by_cases positive : amount % 64 > 0
  · rw [if_pos positive, carryWords_test _ positive (by omega) _ (by simp) _ _ (by omega)]
    by_cases carried : i < amount % 64
    · have early : ¬ amount ≤ i := by omega
      simp [carried, early]
    rw [if_neg carried, moved _ (by omega)]
    by_cases reached : amount ≤ i
    · have past : 64 * (amount / 64) ≤ i - amount % 64 := by omega
      have position : i - amount % 64 - 64 * (amount / 64) = i - amount := by omega
      rw [if_pos past, if_pos reached, position]
    · have short : ¬ 64 * (amount / 64) ≤ i - amount % 64 := by omega
      rw [if_neg short, if_neg reached]
  · have whole : 64 * (amount / 64) = amount := by omega
    rw [if_neg positive, moved _ bound, whole]

inductive ReplayError where
  | replayed (session counter : Nat)
  | tooOld (session counter floor : Nat)
  | retiredSession (session : Nat)
  | zeroCounter
  deriving DecidableEq, Repr

inductive SessionAdopt where
  | any
  | monotonic
  | afterQuiet
  deriving DecidableEq, Repr

def defaultWindow : Nat := 1024
def retiredKept : Nat := 8

def adoptAfterQuiet : Nat := 10 * 10 ^ 9

def wordCount (width : Nat) : Nat := (width + 63) / 64

/-- The pair `(highest, bits)` kept for one session: bit `i` stands for `highest - i`. -/
structure Track (width : Nat) where
  highest : Nat
  bits : WordBits (wordCount width)

namespace Track

variable {width : Nat}

def empty (width : Nat) : Track width := ⟨0, .zero _⟩

def shift (track : Track width) (amount : Nat) : WordBits (wordCount width) :=
  if amount ≥ width then .zero _
  else track.bits.map (shiftBits · amount) (fun bits => shiftBits_length bits amount)

def check (track : Track width) (session counter : Nat) : Except ReplayError (Track width) :=
  if counter > track.highest then
    .ok ⟨counter, (track.shift (counter - track.highest)).set 0⟩
  else
    let back := track.highest - counter
    if back ≥ width then .error (.tooOld session counter (track.highest - (width - 1)))
    else if track.bits.test back then .error (.replayed session counter)
    else .ok ⟨track.highest, track.bits.set back⟩

end Track

structure ReplayWindow (width : Nat) where
  session : Option Nat
  current : Track width
  retired : List Nat
  prev : Option (Nat × Track width)
  adopt : SessionAdopt
  lastAccept : Option Nat
  quiet : Nat

/-- One call of `check_and_set`, with the two clock readings it makes. -/
structure Call where
  session : Nat
  counter : Nat
  readAt : Nat
  acceptAt : Nat

namespace ReplayWindow

variable {width : Nat}

def new (width : Nat) : ReplayWindow (max width 64) where
  session := none
  current := .empty _
  retired := []
  prev := none
  adopt := .any
  lastAccept := none
  quiet := adoptAfterQuiet

def setQuiet (w : ReplayWindow width) (quiet : Nat) : ReplayWindow width := { w with quiet }

def newMonotonic (width : Nat) : ReplayWindow (max width 64) :=
  { new width with adopt := .monotonic }

def newQuietGated (width : Nat) : ReplayWindow (max width 64) :=
  { new width with adopt := .afterQuiet }

/-- `reset_to` retires the session that was in `prev` and forgets the oldest
retired one beyond `retiredKept`. -/
def retire (w : ReplayWindow width) : List Nat :=
  match w.prev with
  | some (p, _) =>
    let retired := w.retired ++ [p]
    if retired.length > retiredKept then retired.tail else retired
  | none => w.retired

def resetTo (w : ReplayWindow width) (session : Nat) : ReplayWindow width :=
  let kept : ReplayWindow width :=
    match w.session with
    | some old =>
      if old ≠ session then { w with retired := w.retire, prev := some (old, w.current) } else w
    | none => w
  { kept with session := some session, current := .empty _ }

def checkAndSetPrev (w : ReplayWindow width) (session counter : Nat) :
    Except ReplayError Unit × ReplayWindow width :=
  match w.prev with
  | none => (.error (.retiredSession session), w)
  | some (p, track) =>
    match track.check session counter with
    | .ok track => (.ok (), { w with prev := some (p, track) })
    | .error e => (.error e, w)

def adopts (w : ReplayWindow width) (current : Nat) (call : Call) : Bool :=
  match w.adopt with
  | .any => true
  | .monotonic => call.session > current
  | .afterQuiet => w.lastAccept.all (fun t => call.readAt - t ≥ w.quiet)

/-- The acceptance time is recorded before the counter is looked at. -/
def checkCurrent (w : ReplayWindow width) (call : Call) :
    Except ReplayError Unit × ReplayWindow width :=
  let stamped := { w with lastAccept := some call.acceptAt }
  match w.current.check call.session call.counter with
  | .ok track => (.ok (), { stamped with current := track })
  | .error e => (.error e, stamped)

def checkAndSet (w : ReplayWindow width) (call : Call) :
    Except ReplayError Unit × ReplayWindow width :=
  if call.counter = 0 then (.error .zeroCounter, w)
  else if w.retired.contains call.session then (.error (.retiredSession call.session), w)
  else if w.prev.any (fun p => p.1 == call.session) then
    w.checkAndSetPrev call.session call.counter
  else
    match w.session with
    | some current =>
      if current ≠ call.session then
        if w.adopts current call then (w.resetTo call.session).checkCurrent call
        else (.error (.retiredSession call.session), w)
      else w.checkCurrent call
    | none => (w.resetTo call.session).checkCurrent call

def next (w : ReplayWindow width) (call : Call) : ReplayWindow width := (w.checkAndSet call).2

def accepts (w : ReplayWindow width) (call : Call) : Prop := (w.checkAndSet call).1 = .ok ()

instance (w : ReplayWindow width) (call : Call) : Decidable (w.accepts call) :=
  inferInstanceAs (Decidable (_ = Except.ok ()))

def run (w : ReplayWindow width) (calls : List Call) : ReplayWindow width := calls.foldl next w

end ReplayWindow

variable {width : Nat}

theorem width_fits (width : Nat) : width ≤ 64 * wordCount width := by
  unfold wordCount
  omega

theorem Track.shift_test (track : Track width) (amount back : Nat) (inside : back < width) :
    (track.shift amount).test back =
      if amount ≤ back then track.bits.test (back - amount) else false := by
  unfold Track.shift
  by_cases far : amount ≥ width
  · have early : ¬ amount ≤ back := by omega
    simp [far, early]
  have bound : back < 64 * track.bits.words.length := by
    rw [track.bits.size]
    exact Nat.lt_of_lt_of_le inside (width_fits width)
  simp only [far]
  exact shiftBits_test track.bits.words amount back bound

/-- The counters accepted in one session, as the bitmap remembers them: every
one is at most `highest`, and within `width` the bits are exactly theirs. -/
structure Track.Represents (track : Track width) (seen : Set Nat) : Prop where
  bounded : ∀ c ∈ seen, c ≤ track.highest
  marked : ∀ back < width, track.bits.test back = true ↔ ∃ c ∈ seen, c + back = track.highest

theorem Track.empty_represents (width : Nat) : (Track.empty width).Represents ∅ where
  bounded := by simp
  marked := by simp [Track.empty]

variable {track : Track width} {seen : Set Nat}

theorem Track.Represents.advance
    (rep : track.Represents seen) (counter : Nat) (above : track.highest < counter) :
    Track.Represents ⟨counter, (track.shift (counter - track.highest)).set 0⟩
      (insert counter seen) where
  bounded := by
    intro c member
    rcases Set.mem_insert_iff.mp member with rfl | old
    · exact Nat.le_refl _
    have := rep.bounded c old
    dsimp only
    omega
  marked := by
    intro back inside
    have room : 0 / 64 < wordCount width := by
      have := width_fits width
      omega
    dsimp only
    rw [WordBits.test_set _ 0 back room, track.shift_test _ back inside]
    by_cases first : back = 0
    · subst first
      simp
    by_cases reached : counter - track.highest ≤ back
    · -- an older counter keeps its distance to the new top
      rw [if_pos reached, decide_eq_false first, Bool.false_or,
        rep.marked (back - (counter - track.highest)) (by omega)]
      constructor
      · rintro ⟨c, member, place⟩
        exact ⟨c, Set.mem_insert_of_mem _ member, by omega⟩
      rintro ⟨c, member, place⟩
      rcases Set.mem_insert_iff.mp member with rfl | old
      · omega
      · exact ⟨c, old, by omega⟩
    · simp only [first, reached, if_false, decide_false, Bool.or_self, Bool.false_eq_true, false_iff]
      rintro ⟨c, member, place⟩
      rcases Set.mem_insert_iff.mp member with rfl | old
      · omega
      · have := rep.bounded c old
        omega

theorem Track.Represents.fill
    (rep : track.Represents seen) (counter : Nat) (below : counter ≤ track.highest)
    (inside : track.highest - counter < width) :
    Track.Represents ⟨track.highest, track.bits.set (track.highest - counter)⟩
      (insert counter seen) where
  bounded := by
    intro c member
    rcases Set.mem_insert_iff.mp member with rfl | old
    · exact below
    · exact rep.bounded c old
  marked := by
    intro back bound
    have room : (track.highest - counter) / 64 < wordCount width := by
      have := width_fits width
      omega
    rw [WordBits.test_set _ _ back room, Bool.or_eq_true, decide_eq_true_eq, rep.marked back bound]
    constructor
    · rintro (rfl | ⟨c, member, place⟩)
      · exact ⟨counter, Set.mem_insert _ _, by dsimp only; omega⟩
      · exact ⟨c, Set.mem_insert_of_mem _ member, place⟩
    rintro ⟨c, member, place⟩
    dsimp only at place
    rcases Set.mem_insert_iff.mp member with rfl | old
    · left; omega
    · right; exact ⟨c, old, place⟩

theorem Track.check_ok {track after : Track width} {session counter : Nat}
    (rep : track.Represents seen) (accepted : track.check session counter = .ok after) :
    counter ∉ seen ∧ after.Represents (insert counter seen) := by
  unfold Track.check at accepted
  dsimp only at accepted
  split at accepted
  · rename_i above
    cases accepted
    refine ⟨fun member => ?_, rep.advance counter above⟩
    have := rep.bounded counter member
    omega
  split at accepted
  · cases accepted
  split at accepted
  · cases accepted
  rename_i clear
  cases accepted
  refine ⟨fun member => clear ?_, rep.fill counter (by omega) (by omega)⟩
  exact (rep.marked _ (by omega)).mpr ⟨counter, member, by omega⟩

end Dkms.Replay
