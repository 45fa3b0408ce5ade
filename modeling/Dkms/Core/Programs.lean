import Mathlib

namespace Dkms.Core

open List

/-- A sequential program over atomic operations: `Answer op` is what `op` returns to it. -/
inductive Prog {Op : Type} (Answer : Op → Type) (α : Type) where
  | done (result : α)
  | call (op : Op) (rest : Answer op → Prog Answer α)

variable {Op : Type} {Answer : Op → Type} {α β : Type}

namespace Prog

def bind : Prog Answer α → (α → Prog Answer β) → Prog Answer β
  | .done result, next => next result
  | .call op rest, next => .call op fun answer => (rest answer).bind next

instance : Monad (Prog Answer) where
  pure := .done
  bind := bind

def perform (op : Op) : Prog Answer (Answer op) := .call op .done

def result : Prog Answer α → Option α
  | .done result => some result
  | .call _ _ => none

def nextOp : Prog Answer α → Option Op
  | .done _ => none
  | .call op _ => some op

@[simp]
theorem pure_eq_done (result : α) : (pure result : Prog Answer α) = .done result := rfl

@[simp]
theorem done_bind (result : α) (next : α → Prog Answer β) : (.done result >>= next) = next result :=
  rfl

@[simp]
theorem call_bind (op : Op) (rest : Answer op → Prog Answer α) (next : α → Prog Answer β) :
    (.call op rest >>= next) = .call op fun answer => rest answer >>= next := rfl

@[simp]
theorem perform_bind (op : Op) (next : Answer op → Prog Answer β) :
    (perform op >>= next) = .call op next := rfl

def Uses (allowed : Op → Prop) : Prog Answer α → Prop
  | .done _ => True
  | .call op rest => allowed op ∧ ∀ answer, (rest answer).Uses allowed

variable {allowed : Op → Prop}

variable {prog : Prog Answer α}

theorem Uses.mono {allowed' : Op → Prop} (uses : prog.Uses allowed)
    (more : ∀ op, allowed op → allowed' op) : prog.Uses allowed' := by
  induction prog with
  | done result => trivial
  | call op rest ih => exact ⟨more op uses.1, fun answer => ih answer (uses.2 answer)⟩

theorem Uses.bind {next : α → Prog Answer β} (first : prog.Uses allowed)
    (second : ∀ result, (next result).Uses allowed) : (prog >>= next).Uses allowed := by
  induction prog with
  | done result => exact second result
  | call op rest ih => exact ⟨first.1, fun answer => ih answer (first.2 answer)⟩

end Prog

/-- What a program promises about the operations it calls and what it may rely on in their
answers, in terms of a ledger it keeps of the calls made so far. -/
structure Discipline (Answer : Op → Type) (Ledger : Type) where
  may : Ledger → Op → Prop
  learns : Ledger → (op : Op) → Answer op → Prop
  after : Ledger → (op : Op) → Answer op → Ledger

namespace Discipline

variable {Ledger : Type} (d : Discipline Answer Ledger)

def Obeys (post : Ledger → α → Prop) : Ledger → Prog Answer α → Prop
  | ledger, .done result => post ledger result
  | ledger, .call op rest =>
    d.may ledger op ∧
      ∀ answer, d.learns ledger op answer → Obeys post (d.after ledger op answer) (rest answer)

variable {d} {post : Ledger → α → Prop} {ledger : Ledger}

@[simp]
theorem obeys_done {result : α} : d.Obeys post ledger (.done result) ↔ post ledger result := Iff.rfl

variable {prog : Prog Answer α}

theorem Obeys.weaken {post' : Ledger → α → Prop} (obeys : d.Obeys post ledger prog)
    (weaker : ∀ ledger result, post ledger result →
      post' ledger result) : d.Obeys post' ledger prog := by
  induction prog generalizing ledger with
  | done result => exact weaker _ _ obeys
  | call op rest ih => exact ⟨obeys.1, fun answer learned => ih answer (obeys.2 answer learned)⟩

variable {allowed : Op → Prop}

theorem Obeys.of_uses (uses : prog.Uses allowed)
    (harmless : ∀ ledger op, allowed op → d.may ledger op) :
    d.Obeys (fun _ _ => True) ledger prog := by
  induction prog generalizing ledger with
  | done result => trivial
  | call op rest ih => exact ⟨harmless _ _ uses.1, fun answer _ => ih answer (uses.2 answer)⟩

theorem Obeys.of_uses_same (uses : prog.Uses allowed)
    (harmless : ∀ ledger op, allowed op → d.may ledger op)
    (same : ∀ ledger op answer, allowed op → d.after ledger op answer = ledger) :
    d.Obeys (fun ledger' _ => ledger' = ledger) ledger prog := by
  induction prog with
  | done result => rfl
  | call op rest ih =>
    refine ⟨harmless _ _ uses.1, fun answer _ => ?_⟩
    rw [same ledger op answer uses.1]
    exact ih answer (uses.2 answer)

theorem Obeys.track {related : Ledger → Ledger → Prop} (obeys : d.Obeys post ledger prog)
    (refl : ∀ ledger, related ledger ledger)
    (trans : ∀ first second third, related first second → related second third →
      related first third) (keeps : ∀ ledger op answer, related ledger (d.after ledger op answer)) :
    d.Obeys (fun ledger' result => post ledger' result ∧ related ledger ledger') ledger prog := by
  induction prog generalizing ledger with
  | done result => exact ⟨obeys, refl ledger⟩
  | call op rest ih =>
    refine ⟨obeys.1, fun answer learned => ?_⟩
    apply (ih answer (obeys.2 answer learned)).weaken
    rintro ledger' result ⟨holds, later⟩
    exact ⟨holds, trans _ _ _ (keeps ledger op answer) later⟩

theorem Obeys.bind {middle : Ledger → β → Prop} {prog : Prog Answer β} {next : β → Prog Answer α}
    (first : d.Obeys middle ledger prog)
    (second : ∀ ledger result, middle ledger result → d.Obeys post ledger (next result)) :
    d.Obeys post ledger (prog >>= next) := by
  induction prog generalizing ledger with
  | done result => exact second _ _ first
  | call op rest ih => exact ⟨first.1, fun answer learned => ih answer (first.2 answer learned)⟩

theorem Obeys.perform {op : Op} {next : Answer op → Prog Answer α} (may : d.may ledger op)
    (rest : ∀ answer, d.learns ledger op answer → d.Obeys post (d.after ledger op answer) (next answer)) :
    d.Obeys post ledger (Prog.perform op >>= next) :=
  ⟨may, rest⟩

end Discipline

structure Thread (Answer : Op → Type) (Tag Result : Type) where
  tag : Tag
  log : List ((op : Op) × Answer op)
  prog : Prog Answer Result

namespace Thread

variable {Tag Result Ledger : Type}

def launch (tag : Tag) (prog : Prog Answer Result) : Thread Answer Tag Result := ⟨tag, [], prog⟩

def isRunning (t : Thread Answer Tag Result) : Bool := t.prog.result.isNone

def ledger (t : Thread Answer Tag Result) (d : Discipline Answer Ledger) (start : Ledger) : Ledger :=
  t.log.foldl (fun ledger entry => d.after ledger entry.1 entry.2) start

end Thread

structure Pool (World : Type) (Answer : Op → Type) (Tag Result : Type) where
  world : World
  threads : List (Thread Answer Tag Result)

namespace Pool

variable {World Tag Result Hint Ledger : Type}
  (exec : Tag → (op : Op) → Hint → World → Option (Answer op × World))

/-- The next operation of a thread, in one indivisible step. A thread that has returned, or
whose operation cannot proceed yet, stays where it is. -/
def step (pool : Pool World Answer Tag Result) (i : Nat) (hint : Hint) :
    Pool World Answer Tag Result :=
  match pool.threads[i]? with
  | some ⟨tag, log, .call op rest⟩ =>
    match exec tag op hint pool.world with
    | some (answer, world) =>
      ⟨world, pool.threads.set i ⟨tag, log ++ [⟨op, answer⟩], rest answer⟩⟩
    | none => pool
  | _ => pool

def launch (pool : Pool World Answer Tag Result) (tag : Tag) (prog : Prog Answer Result) :
    Pool World Answer Tag Result :=
  { pool with threads := pool.threads ++ [.launch tag prog] }

theorem step_cases (pool : Pool World Answer Tag Result) (i : Nat) (hint : Hint) :
    pool.step exec i hint = pool ∨
      ∃ tag log op rest answer world, pool.threads[i]? = some ⟨tag, log, .call op rest⟩ ∧
        exec tag op hint pool.world = some (answer, world) ∧
        pool.step exec i hint =
          ⟨world, pool.threads.set i ⟨tag, log ++ [⟨op, answer⟩], rest answer⟩⟩ := by
  unfold step
  split
  · rename_i tag log op rest found
    split
    · rename_i answer world ran
      exact .inr ⟨tag, log, op, rest, answer, world, found, ran, rfl⟩
    · exact .inl rfl
  · exact .inl rfl

variable {tag : Tag} {prog : Prog Answer Result} {i : Nat}

theorem getElem?_launch {pool : Pool World Answer Tag Result}
    {t : Thread Answer Tag Result} (found : (pool.launch tag prog).threads[i]? = some t) :
    pool.threads[i]? = some t ∨ (i = pool.threads.length ∧ t = .launch tag prog) := by
  unfold launch at found
  rcases Nat.lt_or_ge i pool.threads.length with old | new
  · rw [getElem?_append_left old] at found
    exact .inl found
  rw [getElem?_append_right new, getElem?_singleton] at found
  split at found
  · cases found
    exact .inr ⟨by omega, rfl⟩
  · cases found

def Obeyed (d : Tag → Discipline Answer Ledger) (start : Tag → Ledger)
    (post : Tag → Ledger → Result → Prop) (threads : List (Thread Answer Tag Result)) : Prop :=
  ∀ t ∈ threads, (d t.tag).Obeys (post t.tag) (t.ledger (d t.tag) (start t.tag)) t.prog

variable {d : Tag → Discipline Answer Ledger} {start : Tag → Ledger}
  {post : Tag → Ledger → Result → Prop} {threads : List (Thread Answer Tag Result)}

theorem Obeyed.launch (obeyed : Obeyed d start post threads)
    (obeys : (d tag).Obeys (post tag) (start tag) prog) :
    Obeyed d start post (threads ++ [.launch tag prog]) := by
  intro t member
  rcases mem_append.mp member with old | new
  · exact obeyed t old
  · rw [mem_singleton.mp new]
    exact obeys

variable {log : List ((op : Op) × Answer op)}

theorem Obeyed.may (obeyed : Obeyed d start post threads)
    {op : Op} {rest : Answer op → Prog Answer Result}
    (found : threads[i]? = some ⟨tag, log, .call op rest⟩) :
    (d tag).may (Thread.ledger ⟨tag, log, .call op rest⟩ (d tag) (start tag)) op :=
  (obeyed _ (mem_of_getElem? found)).1

theorem Obeyed.advance (obeyed : Obeyed d start post threads)
    {op : Op} {rest : Answer op → Prog Answer Result}
    {answer : Answer op} (found : threads[i]? = some ⟨tag, log, .call op rest⟩)
    (learned : (d tag).learns (Thread.ledger ⟨tag, log, .call op rest⟩ (d tag) (start tag)) op answer) :
    Obeyed d start post (threads.set i ⟨tag, log ++ [⟨op, answer⟩], rest answer⟩) := by
  intro t member
  rcases mem_or_eq_of_mem_set member with old | rfl
  · exact obeyed t old
  · have next := (obeyed _ (mem_of_getElem? found)).2 answer learned
    simpa only [Thread.ledger, foldl_append, foldl_cons, foldl_nil] using next

end Pool

variable {Op : Type} {Answer : Op → Type} {World α β : Type}

namespace Prog

variable (exec : (op : Op) → World → Option (Answer op × World))

/-- The program on its own, from start to end; `none` if one of its operations has to wait. -/
def eval : Prog Answer α → World → Option (α × World)
  | .done result, world => some (result, world)
  | .call op rest, world =>
    match exec op world with
    | some (answer, world) => (rest answer).eval world
    | none => none

@[simp]
theorem eval_done (result : α) (world : World) :
    (.done result : Prog Answer α).eval exec world = some (result, world) := rfl

@[simp]
theorem eval_call (op : Op) (rest : Answer op → Prog Answer α) (world : World) :
    (Prog.call op rest).eval exec world =
      match exec op world with
      | some (answer, world) => (rest answer).eval exec world
      | none => none := by
  rw [eval]

theorem eval_bind (prog : Prog Answer β) (next : β → Prog Answer α) (world : World) :
    (prog >>= next).eval exec world =
      match prog.eval exec world with
      | some (result, world) => (next result).eval exec world
      | none => none := by
  induction prog generalizing world with
  | done result => rfl
  | call op rest ih =>
    simp only [call_bind, eval_call]
    cases exec op world with
    | none => rfl
    | some ran => exact ih _ _

def Ensures (prog : Prog Answer α) (world : World) (post : α → World → Prop) : Prop :=
  ∀ result world', prog.eval exec world = some (result, world') → post result world'

variable {exec} {prog : Prog Answer α} {world : World} {post post' : α → World → Prop}

@[simp]
theorem ensures_done {result : α} : Ensures exec (.done result) world post ↔ post result world := by
  simp [Ensures]

@[simp]
theorem ensures_call {op : Op} {rest : Answer op → Prog Answer α} :
    Ensures exec (.call op rest) world post ↔
      ∀ answer world', exec op world = some (answer, world') →
        Ensures exec (rest answer) world' post := by
  unfold Ensures
  rw [eval]
  cases exec op world with
  | none => simp
  | some ran =>
    obtain ⟨answer, world'⟩ := ran
    simp

theorem Ensures.perform {op : Op} {next : Answer op → Prog Answer α}
    (rest : ∀ answer world', exec op world = some (answer, world') →
      Ensures exec (next answer) world' post) : Ensures exec (perform op >>= next) world post :=
  ensures_call.mpr rest

theorem Ensures.weaken (ensures : Ensures exec prog world post)
    (weaker : ∀ result world', post result world' → post' result world') :
    Ensures exec prog world post' :=
  fun result world' ends => weaker result world' (ensures result world' ends)

theorem Ensures.bind {first : Prog Answer β} {next : β → Prog Answer α}
    {middle : β → World → Prop} (ensures : Ensures exec first world middle)
    (then_ : ∀ result world', middle result world' → Ensures exec (next result) world' post) :
    Ensures exec (first >>= next) world post := by
  intro result world' ends
  rw [eval_bind] at ends
  split at ends
  · rename_i between reached ran
    exact then_ between reached (ensures between reached ran) result world' ends
  · cases ends

variable {allowed : Op → Prop}

theorem Uses.ensures (uses : prog.Uses allowed) (kept : World → World → Prop)
    (refl : ∀ world, kept world world)
    (step : ∀ op world answer world' world'', allowed op → exec op world = some (answer, world') →
      kept world' world'' → kept world world'') :
    Ensures exec prog world fun _ world' => kept world world' := by
  induction prog generalizing world with
  | done result => simpa using refl world
  | call op rest ih =>
    rw [ensures_call]
    intro answer world' ran
    refine Ensures.weaken (ih answer (uses.2 answer)) ?_
    exact fun _ world'' => step op world answer world' world'' uses.1 ran

theorem Uses.ends (uses : prog.Uses allowed)
    (runs : ∀ op world, allowed op → (exec op world).isSome) : (prog.eval exec world).isSome := by
  induction prog generalizing world with
  | done result => rfl
  | call op rest ih =>
    obtain ⟨ran, called⟩ := Option.isSome_iff_exists.mp (runs op world uses.1)
    rw [eval_call, called]
    exact ih _ (uses.2 _)

end Prog

namespace Pool

variable {Tag Result Hint : Type} (exec : Tag → (op : Op) → Hint → World → Option (Answer op × World))

theorem steps_of_eval (hint : Hint) {pool : Pool World Answer Tag Result} {i : Nat} {tag : Tag}
    {log : List ((op : Op) × Answer op)} {prog : Prog Answer Result} {result : Result} {world : World}
    (found : pool.threads[i]? = some ⟨tag, log, prog⟩)
    (ends : prog.eval (fun op => exec tag op hint) pool.world = some (result, world)) :
    ∃ n log', (fun pool => step exec pool i hint)^[n] pool =
      ⟨world, pool.threads.set i ⟨tag, log', .done result⟩⟩ := by
  induction prog generalizing pool log with
  | done result' =>
    cases ends
    refine ⟨0, log, ?_⟩
    have bound := (List.getElem?_eq_some_iff.mp found).1
    have here := (List.getElem?_eq_some_iff.mp found).2
    simp [← here]
  | call op rest ih =>
    simp only [Prog.eval_call] at ends
    split at ends
    · rename_i answer world' ran
      have stepped : step exec pool i hint =
          ⟨world', pool.threads.set i ⟨tag, log ++ [⟨op, answer⟩], rest answer⟩⟩ := by
        simp [step, found, ran]
      have bound := (List.getElem?_eq_some_iff.mp found).1
      have here : (pool.threads.set i ⟨tag, log ++ [⟨op, answer⟩], rest answer⟩)[i]? =
          some ⟨tag, log ++ [⟨op, answer⟩], rest answer⟩ := by
        simp [bound]
      obtain ⟨n, log', ended⟩ := @ih answer ⟨world', _⟩ _ here ends
      refine ⟨n + 1, log', ?_⟩
      rw [Function.iterate_succ_apply, stepped, ended, List.set_set]
    · cases ends

end Pool

end Dkms.Core
