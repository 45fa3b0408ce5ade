import Dkms.Replay.AntiReplay

namespace Dkms.Replay

open Dkms.Core ReplayWindow

variable {width : Nat}

theorem retire_pushes (w : ReplayWindow width) (s : Nat) (track : Track width)
    (here : w.prev = some (s, track)) : ∃ older, w.retire = older ++ [s] := by
  simp only [retire, here]
  split
  · rename_i full
    cases list : w.retired with
    | nil => simp [list, retiredKept] at full
    | cons a older => exact ⟨older, by simp⟩
  · exact ⟨w.retired, rfl⟩

theorem retire_keeps (w : ReplayWindow width) (s : Nat) (older newer : List Nat)
    (here : w.retired = older ++ s :: newer) (room : newer.length + 1 < retiredKept) :
    ∃ older' newer', w.retire = older' ++ s :: newer' ∧ newer'.length ≤ newer.length + 1 := by
  unfold retire
  cases previous : w.prev with
  | none => exact ⟨older, newer, here, by omega⟩
  | some p =>
    dsimp only
    split
    · rename_i full
      cases older with
      | nil => simp [here] at full; omega
      | cons a older => exact ⟨older, newer ++ [p.1], by simp [here], by simp⟩
    · exact ⟨older, newer ++ [p.1], by simp [here], by simp⟩

/-- Where the window still remembers that counter `c` of session `s` was accepted,
`n` adoptions after `s` was last current. -/
inductive Place (w : ReplayWindow width) (s c n : Nat) : Prop where
  | current (seen : Set Nat) (here : w.session = some s) (rep : w.current.Represents seen)
      (member : c ∈ seen) (count : n = 0)
  | previous (track : Track width) (seen : Set Nat) (here : w.prev = some (s, track))
      (rep : track.Represents seen) (member : c ∈ seen) (count : n = 1)
  | retired (older newer : List Nat) (here : w.retired = older ++ s :: newer)
      (count : newer.length + 2 ≤ n) (recent : n ≤ 9)
  | forgotten (count : 10 ≤ n)

variable {s c n : Nat}

theorem Place.same {w w' : ReplayWindow width} (place : Place w s c n)
    (session : w'.session = w.session) (current : w.session = some s → w'.current = w.current)
    (prev : ∀ track, w.prev = some (s, track) → w'.prev = w.prev) (retired : w'.retired = w.retired) :
    Place w' s c n := by
  cases place with
  | current seen here rep member count =>
    exact .current seen (session.trans here) (current here ▸ rep) member count
  | previous track seen here rep member count =>
    exact .previous track seen ((prev track here).trans here) rep member count
  | retired older newer here count recent => exact .retired older newer (retired.trans here) count recent
  | forgotten count => exact .forgotten count

structure Counted (s : Nat) (w : ReplayWindow width) (n : Nat) : Prop where
  current : w.session = some s → n = 0
  previous : ∀ track, w.prev = some (s, track) → n = 1

def Behind (s : Nat) (w : ReplayWindow width) (n : Nat) : Prop :=
  w.adopt = .monotonic → n ≠ 0 → ∃ cur, w.session = some cur ∧ s < cur

variable {s n : Nat} {w : ReplayWindow width} {policy : SessionAdopt}
  {state : ReplayWindow width × Nat}

variable {call : Call}

theorem watch_same (counted : Counted s w n)
    (same : (w.next call).session = w.session) : watch s (w, n) call = (w.next call, n) := by
  unfold watch
  by_cases here : w.session = some s
  · simp [same, counted.current here]
  · simp [same, here]

theorem watch_adopted (session : (w.next call).session = some call.session)
    (changed : w.session ≠ some call.session) :
    watch s (w, n) call = (w.next call, if call.session = s then 0 else n + 1) := by
  have moved : ¬ some call.session = w.session := fun same => changed same.symm
  simp [watch, session, moved]

theorem Counted.step (counted : Counted s w n) (sound : Sound w) (call : Call) :
    Counted s (watch s (w, n) call).1 (watch s (w, n) call).2 := by
  obtain ⟨result, after, moved, -, effect⟩ := next_effect w call
  cases effect with
  | late track after old checked =>
    rw [watch_same counted (by rw [moved]), moved]
    refine ⟨counted.current, ?_⟩
    intro track' here
    cases here
    exact counted.previous _ old
  | adopted after changed unseen notPrevious ordered checked =>
    obtain ⟨session, -, rest⟩ := resetTo_adopting w call.session changed
    rw [watch_adopted (by rw [moved]; exact session) changed, moved]
    refine ⟨?_, ?_⟩
    · intro here
      have : call.session = s := by simpa [session] using here
      simp [this]
    intro track here
    cases current : w.session with
    | none =>
      rw [current] at rest
      obtain ⟨cur, here, _⟩ := sound.distinct s track (by simpa [rest.2] using here)
      simp [current] at here
    | some old =>
      rw [current] at rest
      have name : old = s := by
        simp only [rest.2, Option.some.injEq, Prod.mk.injEq] at here
        exact here.1
      have zero : n = 0 := counted.current (by rw [current, name])
      have apart : call.session ≠ s := fun same => changed (by rw [current, name, same])
      simp [apart, zero]
  | _ =>
    rw [watch_same counted (by rw [moved]), moved]
    exact ⟨counted.current, counted.previous⟩

theorem Place.step (place : Place w s c n) (behind : Behind s w n) (sound : Sound w)
    (counted : Counted s w n) (call : Call)
    (guard : call.session = s → w.adopt ≠ .monotonic → n ≤ 9) :
    Place (watch s (w, n) call).1 s c (watch s (w, n) call).2 ∧
      Behind s (watch s (w, n) call).1 (watch s (w, n) call).2 ∧
      (call.session = s → call.counter = c → ¬ w.accepts call) := by
  obtain ⟨result, after, moved, accepts, effect⟩ := next_effect w call
  cases effect with
  | rejected e stamp =>
    rw [watch_same counted (by rw [moved]), moved]
    exact ⟨place.same rfl (fun _ => rfl) (fun _ _ => rfl) rfl, behind,
      fun _ _ accepted => by simpa using accepts.mp accepted⟩
  | late track after old checked =>
    rw [watch_same counted (by rw [moved]), moved]
    by_cases mine : call.session = s
    · have one : n = 1 := counted.previous track (mine ▸ old)
      cases place with
      | previous track' seen here rep member count =>
        rw [old] at here
        cases here
        obtain ⟨new, rep'⟩ := Track.check_ok rep checked
        refine ⟨.previous after _ (by rw [mine]) rep' (Set.mem_insert_of_mem _ member) count,
          behind, fun _ same _ => new (same ▸ member)⟩
      | _ => omega
    · refine ⟨place.same rfl (fun _ => rfl) (fun track here => ?_) rfl, behind, fun same => absurd same mine⟩
      rw [old] at here
      cases here
      exact absurd rfl mine
  | current after same checked =>
    rw [watch_same counted (by rw [moved]), moved]
    by_cases mine : call.session = s
    · have zero : n = 0 := counted.current (mine ▸ same)
      cases place with
      | current seen here rep member count =>
        obtain ⟨new, rep'⟩ := Track.check_ok rep checked
        exact ⟨.current _ here rep' (Set.mem_insert_of_mem _ member) count,
          behind, fun _ same _ => new (same ▸ member)⟩
      | _ => omega
    · refine ⟨place.same rfl (fun here => ?_) (fun _ _ => rfl) rfl, behind, fun same => absurd same mine⟩
      rw [same] at here
      exact absurd (Option.some.inj here) mine
  | adopted after changed unseen notPrevious ordered checked =>
    obtain ⟨session, policy, rest⟩ := resetTo_adopting w call.session changed
    rw [watch_adopted (by rw [moved]; exact session) changed, moved]
    by_cases mine : call.session = s
    · -- a remembered session is never adopted again
      exfalso
      cases place with
      | current seen here rep member count => exact changed (mine ▸ here)
      | previous track' seen here rep member count => exact notPrevious _ _ here mine.symm
      | retired older newer here count recent => exact unseen (by rw [here, mine]; simp)
      | forgotten count =>
        by_cases mono : w.adopt = .monotonic
        · obtain ⟨cur, here, below⟩ := behind mono (by omega)
          have := ordered mono cur here
          omega
        · have := guard mine mono
          omega
    rw [if_neg mine]
    refine ⟨?_, ?_, fun same => absurd same mine⟩
    · cases place with
      | current seen here rep member count =>
        rw [here] at rest
        exact .previous _ seen rest.2 rep member (by omega)
      | previous track' seen here rep member count =>
        obtain ⟨cur, current, _⟩ := sound.distinct s track' here
        rw [current] at rest
        obtain ⟨older, pushed⟩ := retire_pushes w s track' here
        exact .retired older [] (by rw [← pushed]; exact rest.1)
          (by simp only [List.length_nil]; omega) (by omega)
      | retired older newer here count recent =>
        by_cases last : n = 9
        · exact .forgotten (by omega)
        cases current : w.session with
        | none =>
          rw [current] at rest
          exact .retired older newer (by rw [← here]; exact rest.1) (by omega) (by omega)
        | some old =>
          rw [current] at rest
          obtain ⟨older', newer', kept, longer⟩ := retire_keeps w s older newer here
            (by simp only [retiredKept]; omega)
          exact .retired older' newer' (by rw [← kept]; exact rest.1) (by omega) (by omega)
      | forgotten count => exact .forgotten (by omega)
    · intro mono _
      have mono' : w.adopt = .monotonic := policy ▸ mono
      refine ⟨call.session, session, ?_⟩
      cases place with
      | current seen here rep member count => exact ordered mono' s here
      | _ =>
        obtain ⟨cur, here, below⟩ := behind mono' (by omega)
        exact below.trans (ordered mono' cur here)

theorem create_sound (policy : SessionAdopt) (width quiet : Nat) :
    Sound ((create policy width).setQuiet quiet) ∧
      ((create policy width).setQuiet quiet).adopt = policy := by
  have noPrev : ((create policy width).setQuiet quiet).prev = none := by
    cases policy <;> rfl
  refine ⟨⟨?_, ?_, ?_, ?_⟩, ?_⟩
  · refine ⟨∅, ?_⟩
    cases policy <;> exact Track.empty_represents _
  · intro p track here
    cases noPrev.symm.trans here
  · intro p track here
    cases noPrev.symm.trans here
  · cases policy <;> exact Nat.zero_le _
  · cases policy <;> rfl

theorem create_counted (s : Nat) (policy : SessionAdopt) (width quiet : Nat) :
    Counted s ((create policy width).setQuiet quiet) 0 := by
  refine ⟨fun _ => rfl, ?_⟩
  intro track here
  cases policy <;> cases here

structure Watched (policy : SessionAdopt) (s : Nat) (state : ReplayWindow width × Nat) : Prop where
  sound : Sound state.1
  counted : Counted s state.1 state.2
  adopt : state.1.adopt = policy

theorem Watched.next (watched : Watched policy s state) (call : Call)
    : Watched policy s (watch s state call) := by
  obtain ⟨sound, adopt⟩ := watched.sound.next call
  exact ⟨sound, watched.counted.step watched.sound call, adopt.trans watched.adopt⟩

theorem Watched.run (watched : Watched policy s state) (calls : List Call) :
    Watched policy s (calls.foldl (watch s) state) := by
  apply (Follows.all state calls).invariant _ watched
  intro state call held _
  exact held.next call

theorem first_place (call : Call) (watched : Watched policy call.session state)
    (accepted : state.1.accepts call) :
    Place (watch call.session state call).1 call.session call.counter
        (watch call.session state call).2 ∧
      Behind call.session (watch call.session state call).1 (watch call.session state call).2 := by
  obtain ⟨w, n⟩ := state
  obtain ⟨sound, counted, -⟩ := watched
  obtain ⟨result, after, moved, accepts, effect⟩ := next_effect w call
  cases effect with
  | rejected e stamp => simpa using accepts.mp accepted
  | late track after old checked =>
    rw [watch_same counted (by rw [moved]), moved]
    obtain ⟨seen, rep⟩ := sound.previous _ _ old
    refine ⟨.previous after _ rfl (Track.check_ok rep checked).2 (Set.mem_insert _ _)
      (counted.previous _ old), ?_⟩
    intro mono _
    obtain ⟨cur, here, -, below⟩ := sound.distinct _ _ old
    exact ⟨cur, here, below mono⟩
  | current after same checked =>
    rw [watch_same counted (by rw [moved]), moved]
    obtain ⟨seen, rep⟩ := sound.current
    refine ⟨.current _ same (Track.check_ok rep checked).2 (Set.mem_insert _ _) (counted.current same), ?_⟩
    intro _ away
    exact absurd (counted.current same) away
  | adopted after changed unseen notPrevious ordered checked =>
    obtain ⟨session, -, -⟩ := resetTo_adopting w call.session changed
    rw [watch_adopted (by rw [moved]; exact session) changed, moved, if_pos rfl]
    refine ⟨.current _ session (Track.check_ok (Track.empty_represents width) checked).2
      (Set.mem_insert _ _) rfl, ?_⟩
    intro _ away
    exact absurd rfl away

/-- No `(session, counter)` pair is accepted twice: unconditionally with monotonic
sessions, and otherwise as long as, at each further call for that session, at
most nine sessions were adopted since it was last the current one. -/
theorem pair_accepted_once (policy : SessionAdopt) (width quiet : Nat)
    (before between : List Call) (first second : Call)
    (session : second.session = first.session) (counter : second.counter = first.counter)
    (accepted : (((ReplayWindow.create policy width).setQuiet quiet).run before).accepts first)
    (recent : policy ≠ .monotonic → ∀ mid call rest, between ++ [second] = mid ++ call :: rest →
      call.session = first.session →
      adoptedSince first.session ((ReplayWindow.create policy width).setQuiet quiet)
        (before ++ first :: mid) ≤ 9) : ¬ (((ReplayWindow.create policy width).setQuiet quiet).run
        (before ++ first :: between)).accepts second := by
  let start := (create policy width).setQuiet quiet
  let s := first.session
  have initial : Watched policy s (start, 0) :=
    ⟨(create_sound policy width quiet).1, create_counted s policy width quiet,
      (create_sound policy width quiet).2⟩
  let reached := before.foldl (watch s) (start, 0)
  let entered := watch s reached first
  have running : Watched policy s reached := initial.run before
  have placed := first_place first running (by
    rw [show reached.1 = start.run before from watch_run s start 0 before]
    exact accepted)
  let permitted := fun (state : ReplayWindow (max width 64) × Nat) (call : Call) =>
    call.session = s → policy ≠ .monotonic → state.2 ≤ 9
  have follows : Follows (watch s) permitted entered (between ++ [second]) := by
    rw [follows_iff_splits]
    intro mid call rest split mine loose
    have bound := recent loose mid call rest split mine
    simpa [adoptedSince, List.foldl_append, List.foldl_cons] using bound
  obtain ⟨middle, last, -⟩ := follows_append.mp follows
  have kept : ∀ state call, (Watched policy s state ∧
      Place state.1 s first.counter state.2 ∧ Behind s state.1 state.2) → permitted state call →
      Watched policy s (watch s state call) ∧
        Place (watch s state call).1 s first.counter (watch s state call).2 ∧
        Behind s (watch s state call).1 (watch s state call).2 := by
    rintro state call ⟨held, place, behind⟩ guard
    obtain ⟨place', behind', -⟩ := place.step behind held.sound held.counted call
      (fun mine loose => guard mine (held.adopt ▸ loose))
    exact ⟨held.next call, place', behind'⟩
  obtain ⟨held, place, behind⟩ := middle.invariant kept ⟨running.next first, placed⟩
  obtain ⟨-, -, refused⟩ := place.step behind held.sound held.counted second
    (fun mine loose => last mine (held.adopt ▸ loose))
  have final : (between.foldl (watch s) entered).1 = start.run (before ++ first :: between) := by
    rw [← watch_run s start 0, List.foldl_append, List.foldl_cons]
  rw [final] at refused
  exact refused session counter

theorem pair_accepted_once_previous :
    (((ReplayWindow.create .any 64).setQuiet 0).run []).accepts ⟨1, 5, 0, 0⟩ ∧
      ¬ (((ReplayWindow.create .any 64).setQuiet 0).run
        ([] ++ ⟨1, 5, 0, 0⟩ :: [⟨2, 1, 0, 0⟩])).accepts ⟨1, 5, 0, 0⟩ := by
  have first : (((create .any 64).setQuiet 0).run []).accepts ⟨1, 5, 0, 0⟩ := by
    decide
  refine ⟨first, pair_accepted_once .any 64 0 [] [⟨2, 1, 0, 0⟩] ⟨1, 5, 0, 0⟩ ⟨1, 5, 0, 0⟩
    rfl rfl first ?_⟩
  intro _ mid call rest split mine
  rcases mid with _ | ⟨a, _ | ⟨b, mid⟩⟩
  · cases split
    cases mine
  · cases split
    decide
  · simp at split

/-- The tenth adoption drops session 0 from `retired`. A new frame of it then makes it current
again with an empty track, so that no session was adopted since when the old pair comes back. -/
theorem forgotten_session_returns :
    let w := (create .any 64).setQuiet 0
    let later := (List.range 10).map (fun s => ⟨s + 1, 1, 0, 0⟩) ++ [⟨0, 2, 0, 0⟩]
    (w.run []).accepts ⟨0, 1, 0, 0⟩ ∧ adoptedSince 0 w (⟨0, 1, 0, 0⟩ :: later) = 0 ∧
      (w.run (⟨0, 1, 0, 0⟩ :: later)).accepts ⟨0, 1, 0, 0⟩ := by
  decide

open List Option

variable {width : Nat}

def ReplayWindow.memory (w : ReplayWindow width) : List Nat :=
  w.session.toList ++ ((w.prev.map (·.1)).toList ++ w.retired.reverse)

theorem retire_reverse (w : ReplayWindow width) (short : w.retired.length ≤ retiredKept) :
    w.retire.reverse = ((w.prev.map (·.1)).toList ++ w.retired.reverse).take retiredKept := by
  unfold retire
  cases w.prev with
  | none =>
    rw [map_none, toList_none, nil_append, take_of_length_le (by simpa)]
  | some p =>
    dsimp only
    rw [map_some, toList_some, singleton_append]
    have whole : (w.retired ++ [p.1]).reverse = p.1 :: w.retired.reverse := by simp
    split
    · rename_i full
      have length : w.retired.length = retiredKept := by
        rw [length_append, length_singleton] at full
        omega
      rw [← dropLast_reverse, dropLast_eq_take]
      congr 1
      rw [length_reverse, length_append, length]
      rfl
    · rename_i room
      rw [length_append, length_singleton] at room
      rw [whole, take_of_length_le]
      rw [length_cons, length_reverse]
      omega

theorem memory_resetTo (w : ReplayWindow width) (session : Nat)
    (changed : w.session ≠ some session) (short : w.retired.length ≤ retiredKept) :
    (w.resetTo session).memory = (session :: w.memory).take 10 := by
  obtain ⟨current, -, rest⟩ := resetTo_adopting w session changed
  unfold memory
  rw [current]
  cases old : w.session with
  | none =>
    rw [old] at rest
    rw [rest.1, rest.2, toList_some, singleton_append, toList_none, nil_append, take_of_length_le]
    simp only [length_cons, length_append, length_reverse]
    have one : ((w.prev.map (·.1)).toList).length ≤ 1 := by cases w.prev <;> simp
    unfold retiredKept at short
    omega
  | some old =>
    rw [old] at rest
    rw [rest.1, rest.2, retire_reverse w short]
    rfl

variable {w : ReplayWindow width}

theorem not_mem_memory {session : Nat} (changed : w.session ≠ some session)
    (unseen : session ∉ w.retired) (notPrevious : ∀ p track, w.prev = some (p, track) → p ≠ session)
    : session ∉ w.memory := by
  intro member
  rcases mem_append.mp member with current | older
  · exact changed (mem_toList.mp current)
  rcases mem_append.mp older with previous | retired
  · obtain ⟨⟨p, track⟩, here, same⟩ := map_eq_some_iff.mp (mem_toList.mp previous)
    exact notPrevious p track here same
  · exact unseen (mem_reverse.mp retired)

theorem Place.mem_memory (place : Place w s c n) (recent : n ≤ 9) : s ∈ w.memory := by
  unfold memory
  cases place with
  | current seen here => simp [here]
  | previous track seen here => simp [here]
  | retired older newer here => simp [here]
  | forgotten count => omega

/-- Counter `c` of session `s` was accepted, and the sessions `since` were adopted after that. -/
structure Retained (w : ReplayWindow width) (s c : Nat) (since : List Nat) : Prop where
  placed : ∃ n, Place w s c n ∧ Counted s w n ∧ n ≤ since.length + 1
  recent : since <+: w.memory
  distinct : since.Nodup

theorem Retained.of_accepts (sound : Sound w) (accepts : w.accepts call)
    : Retained (w.next call) call.session call.counter [] := by
  -- the count is 0 unless the session is the previous one
  obtain ⟨n, few, counted⟩ : ∃ n, n ≤ 1 ∧ Counted call.session w n := by
    by_cases previous : ∃ track, w.prev = some (call.session, track)
    · obtain ⟨track, here⟩ := previous
      obtain ⟨cur, current, apart, -⟩ := sound.distinct _ _ here
      refine ⟨1, Nat.le_refl 1, ?_, fun _ _ => rfl⟩
      intro same
      rw [current] at same
      exact absurd (some.inj same) apart
    · exact ⟨0, Nat.zero_le 1, fun _ => rfl, fun track here => absurd ⟨track, here⟩ previous⟩
  have watched : Watched w.adopt call.session (w, n) := ⟨sound, counted, rfl⟩
  obtain ⟨place, -⟩ := first_place call watched accepts
  have after := watched.next call
  refine ⟨⟨_, place, after.counted, ?_⟩, nil_prefix, nodup_nil⟩
  unfold watch
  dsimp only
  split
  · exact Nat.zero_le _
  rename_i away
  split
  · exact few
  rename_i moved
  -- a session that is adopted is current
  obtain ⟨result, after, same, accepted, effect⟩ := next_effect w call
  rw [same] at away moved
  cases effect with
  | adopted after changed unseen notPrevious ordered checked =>
    exact absurd (resetTo_adopting w call.session changed).1 away
  | _ => exact absurd rfl moved

theorem Retained.next {since : List Nat} (sound : Sound w) (policy : w.adopt = .any)
    (retained : Retained w s c since) (few : since.length ≤ 8) (call : Call) :
    (call.session = s → call.counter = c → ¬ w.accepts call) ∧
      (Retained (w.next call) s c since ∨ w.accepts call ∧ call.session ≠ s ∧
        call.session ∉ since ∧ Retained (w.next call) s c (call.session :: since)) := by
  obtain ⟨⟨n, place, counted, bound⟩, recent, distinct⟩ := retained
  have watched : Watched .any s (w, n) := ⟨sound, counted, policy⟩
  have behind : Behind s w n := by
    intro mono
    rw [policy] at mono
    cases mono
  obtain ⟨place', -, refused⟩ := place.step behind sound counted call fun _ _ => by omega
  have after := (watched.next call).counted
  refine ⟨refused, ?_⟩
  obtain ⟨result, after', moved, accepts, effect⟩ := next_effect w call
  cases effect with
  | late track after' old checked =>
    left
    rw [watch_same counted (by rw [moved]), moved] at place' after
    rw [moved]
    refine ⟨⟨n, place', after, bound⟩, ?_, distinct⟩
    unfold memory at recent ⊢
    rw [old] at recent
    exact recent
  | adopted after' changed unseen notPrevious ordered checked =>
    right
    have new : call.session ∉ w.memory := not_mem_memory changed unseen notPrevious
    have other : call.session ≠ s := by
      rintro rfl
      exact new (place.mem_memory (by omega))
    obtain ⟨session, -, -⟩ := resetTo_adopting w call.session changed
    rw [watch_adopted (by rw [moved]; exact session) changed, moved, if_neg other] at place' after
    rw [moved]
    have fresh : call.session ∉ since := fun member => new (recent.subset member)
    refine ⟨accepts.mpr rfl, other, fresh, ⟨n + 1, place', after, ?_⟩, ?_, nodup_cons.mpr ⟨fresh, distinct⟩⟩
    · rw [length_cons]
      omega
    obtain ⟨older, whole⟩ := recent
    have remembered : memory { w.resetTo call.session with
        lastAccept := some call.acceptAt, current := after' } =
        (call.session :: w.memory).take 10 := memory_resetTo w call.session changed sound.short
    rw [remembered, ← whole, prefix_take_iff]
    refine ⟨prefix_append _ _, ?_⟩
    rw [length_cons]
    omega
  | _ =>
    left
    rw [watch_same counted (by rw [moved]), moved] at place' after
    rw [moved]
    exact ⟨⟨n, place', after, bound⟩, recent, distinct⟩

end Dkms.Replay
