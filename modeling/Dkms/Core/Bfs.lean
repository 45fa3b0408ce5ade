import Mathlib

namespace Dkms.Core

open List Function SimpleGraph

/-- A breadth-first search: what each discovered node is marked with, the discovered nodes that
wait to be expanded, and all of them in the order of their discovery. -/
structure Search (α β : Type*) where
  mark : α → Option β
  queue : List α
  order : List α

namespace Search

section Loop

variable {α β : Type*} [DecidableEq α]

def start (root : α) (value : β) : Search α β where
  mark := update (fun _ => none) root (some value)
  queue := [root]
  order := [root]

def discover (s : Search α β) (node : α) (value : β) : Search α β where
  mark := update s.mark node (some value)
  queue := s.queue ++ [node]
  order := s.order ++ [node]

/-- Marks the nodes that are new; returns right after the first one that `halt` accepts. -/
def visit (halt : α → Bool) (value : β) : List α → Search α β → Search α β × Bool
  | [], s => (s, false)
  | node :: rest, s =>
    if (s.mark node).isSome then visit halt value rest s
    else if halt node then (s.discover node value, true)
    else visit halt value rest (s.discover node value)

def run (next : α → List α) (extend : α → β → β) (halt : α → Bool) :
    Nat → Search α β → Search α β × Bool
  | 0, s => (s, false)
  | fuel + 1, s =>
    match s.queue with
    | [] => (s, false)
    | node :: queue =>
      match s.mark node with
      | none => (s, false)
      | some value =>
        match visit halt (extend node value) (next node) { s with queue := queue } with
        | (s, true) => (s, true)
        | (s, false) => run next extend halt fuel s

def ancestors (prev : α → Option (Option α)) : Nat → α → List α
  | 0, _ => []
  | fuel + 1, node =>
    match prev node with
    | some (some parent) => parent :: ancestors prev fuel parent
    | _ => []

end Loop

section Layers

variable {α β : Type*} {G : SimpleGraph α} {root v w : α}

theorem dist_le_succ (reached : G.Reachable root v) (adj : G.Adj v w) :
    G.dist root w ≤ G.dist root v + 1 := by
  have step : G.dist v w = 1 := dist_eq_one_iff_adj.mpr adj
  have triangle := reached.dist_triangle_left w
  omega

theorem exists_closer (reached : G.Reachable root w) (distinct : root ≠ w) :
    ∃ p, G.Adj p w ∧ G.Reachable root p ∧ G.dist root w = G.dist root p + 1 := by
  obtain ⟨walk, shortest⟩ := reached.symm.exists_walk_length_eq_dist
  cases walk with
  | nil => exact absurd rfl distinct
  | @cons _ p _ adj rest =>
    have reachesP : G.Reachable root p := rest.reachable.symm
    have below : G.dist root p ≤ rest.length := by
      rw [dist_comm]
      exact dist_le rest
    have above := dist_le_succ reachesP adj.symm
    rw [Walk.length_cons, dist_comm] at shortest
    exact ⟨p, adj.symm, reachesP, by omega⟩

variable [DecidableEq α] (G root) (value : β) (extend : α → β → β)

/-- What holds at every moment of a search from `root`. Everything marked is at most one layer
past `level`, what waits is at `level` or beyond it, and only the nodes of `busy` and of the
queue may have neighbours that are still to be discovered. -/
structure Layered (busy : α → Prop) (level : ℕ) (s : Search α β) : Prop where
  atRoot : s.mark root = some value
  origin : ∀ v b, s.mark v = some b → v ≠ root → ∃ p c, s.mark p = some c ∧ G.Adj p v ∧
    G.dist root v = G.dist root p + 1 ∧ b = extend p c
  reached : ∀ v, (s.mark v).isSome → G.Reachable root v
  queued : ∀ v ∈ s.queue, (s.mark v).isSome
  ordered : ∀ v, v ∈ s.order ↔ (s.mark v).isSome
  first : s.order.head? = some root
  sorted : s.queue.Pairwise fun v w => G.dist root v ≤ G.dist root w
  rising : s.order.Pairwise fun v w => G.dist root v ≤ G.dist root w
  low : ∀ v ∈ s.queue, level ≤ G.dist root v
  high : ∀ v, (s.mark v).isSome → G.dist root v ≤ level + 1
  expanded : ∀ v, (s.mark v).isSome → v ∉ s.queue → ¬busy v → ∀ w, G.Adj v w → (s.mark w).isSome

variable {G root value extend} {busy : α → Prop} {level : ℕ} {s : Search α β}

theorem layered_start : Layered G root value extend (fun _ => False) 0 (start root value) := by
  have only : ∀ v, ((start root value).mark v).isSome → v = root := by
    intro v marked
    by_contra other
    simp [start, update_of_ne other] at marked
  exact {
    atRoot := by simp [start]
    origin := by
      intro v b marked other
      exact absurd (only v (by rw [marked]; rfl)) other
    reached := by
      intro v marked
      rw [only v marked]
    queued := by simp [start]
    ordered := by
      intro v
      constructor
      · intro member
        obtain rfl : v = root := by simpa [start] using member
        simp [start]
      · intro marked
        simp [start, only v marked]
    first := rfl
    sorted := by simp [start]
    rising := by simp [start]
    low := by simp [start]
    high := by
      intro v marked
      rw [only v marked, dist_self]
      omega
    expanded := by
      intro v marked waits
      simp [start, only v marked] at waits }

omit [DecidableEq α] in
theorem Layered.closer (h : Layered G root value extend (fun _ => False) level s) {d : ℕ}
    (waiting : ∀ v ∈ s.queue, d ≤ G.dist root v) (reached : G.Reachable root w)
    (near : G.dist root w ≤ d) : (s.mark w).isSome := by
  induction k : G.dist root w generalizing w with
  | zero =>
    rw [reached.dist_eq_zero_iff] at k
    rw [← k, h.atRoot]
    rfl
  | succ k ih =>
    have distinct : root ≠ w := by
      rintro rfl
      rw [dist_self] at k
      omega
    obtain ⟨p, adj, reachesP, layer⟩ := exists_closer reached distinct
    have marked := ih reachesP (by omega) (by omega)
    have left : p ∉ s.queue := by
      intro waits
      have := waiting p waits
      omega
    exact h.expanded p marked left not_false w adj

omit [DecidableEq α] in
theorem Layered.pop (h : Layered G root value extend (fun _ => False) level s) {queue : List α}
    (head : s.queue = v :: queue) :
    Layered G root value extend (· = v) (G.dist root v) { s with queue := queue } := by
  have low := h.low
  have sorted := h.sorted
  rw [head] at low sorted
  obtain ⟨first, sorted⟩ := pairwise_cons.mp sorted
  have atV := low v mem_cons_self
  exact { h with
    queued := fun w member => h.queued w (head ▸ mem_cons_of_mem v member)
    sorted := sorted
    low := first
    high := fun w marked => by
      have := h.high w marked
      omega
    expanded := by
      intro w marked left other
      apply h.expanded w marked _ not_false
      rw [head]
      exact fun member => (mem_cons.mp member).elim other left }

theorem discover_mark_isSome (node : α) (b : β) :
    ((s.discover node b).mark w).isSome ↔ w = node ∨ (s.mark w).isSome := by
  unfold discover
  by_cases same : w = node
  · simp [same]
  · simp [same]

variable {node : α} {c : β}

theorem discover_keeps {b : β} (new : s.mark node = none)
    (marked : s.mark w = some c) : (s.discover node b).mark w = some c := by
  have other : w ≠ node := by
    rintro rfl
    rw [new] at marked
    cases marked
  simpa [discover, update_of_ne other] using marked

theorem Layered.discover
    (h : Layered G root value extend (· = v) (G.dist root v) s) (marked : s.mark v = some c)
    (new : s.mark node = none) (adj : G.Adj v node) (far : G.dist root v < G.dist root node) :
    Layered G root value extend (· = v) (G.dist root v) (s.discover node (extend v c)) := by
  have reachedV := h.reached v (by rw [marked]; rfl)
  have layer : G.dist root node = G.dist root v + 1 := by
    have := dist_le_succ reachedV adj
    omega
  have keeps : ∀ w d, s.mark w = some d → (s.discover node (extend v c)).mark w = some d :=
    fun w d => discover_keeps new
  exact {
    atRoot := keeps _ _ h.atRoot
    origin := by
      intro w b found other
      by_cases same : w = node
      · subst same
        obtain rfl : extend v c = b := by simpa [Search.discover] using found
        exact ⟨v, c, keeps _ _ marked, adj, layer, rfl⟩
      have before : s.mark w = some b := by
        simpa [Search.discover, update_of_ne same] using found
      obtain ⟨p, d, markedP, rest⟩ := h.origin w b before other
      exact ⟨p, d, keeps _ _ markedP, rest⟩
    reached := by
      intro w found
      rcases (discover_mark_isSome node _).mp found with rfl | before
      · exact reachedV.trans adj.reachable
      · exact h.reached w before
    queued := by
      intro w member
      apply (discover_mark_isSome node _).mpr
      rcases mem_append.mp member with before | last
      · exact .inr (h.queued w before)
      · exact .inl (mem_singleton.mp last)
    ordered := by
      intro w
      rw [discover_mark_isSome, ← h.ordered]
      simp [Search.discover, or_comm]
    first := by
      unfold Search.discover
      rw [List.head?_append, h.first]
      rfl
    sorted := by
      apply pairwise_append.mpr
      refine ⟨h.sorted, pairwise_singleton _ _, ?_⟩
      intro w member last isLast
      rw [mem_singleton.mp isLast, layer]
      exact h.high w (h.queued w member)
    rising := by
      apply pairwise_append.mpr
      refine ⟨h.rising, pairwise_singleton _ _, ?_⟩
      intro w member last isLast
      rw [mem_singleton.mp isLast, layer]
      exact h.high w ((h.ordered w).mp member)
    low := by
      intro w member
      rcases mem_append.mp member with before | last
      · exact h.low w before
      · rw [mem_singleton.mp last]
        omega
    high := by
      intro w found
      rcases (discover_mark_isSome node _).mp found with rfl | before
      · exact layer.le
      · exact h.high w before
    expanded := by
      intro w found left other x next
      apply (discover_mark_isSome node _).mpr
      have outside : w ∉ s.queue ∧ w ≠ node := by simpa [Search.discover] using left
      rcases (discover_mark_isSome node _).mp found with same | before
      · exact absurd same outside.2
      · exact .inr (h.expanded w before outside.1 other x next) }

def Grows (s s' : Search α β) : Prop := ∀ w b, s.mark w = some b → s'.mark w = some b

omit [DecidableEq α] in
theorem Grows.isSome {s' : Search α β} (grows : Grows s s') (marked : (s.mark w).isSome) :
    (s'.mark w).isSome := by
  obtain ⟨b, found⟩ := Option.isSome_iff_exists.mp marked
  rw [grows w b found]
  rfl

theorem visit_layered (halt : α → Bool) (nodes : List α)
    (h : Layered G root value extend (· = v) (G.dist root v) s) (marked : s.mark v = some c)
    (near : ∀ w ∈ nodes, w ≠ v → G.Adj v w)
    (closer : ∀ w, G.Reachable root w → G.dist root w ≤ G.dist root v → (s.mark w).isSome) :
    let r := visit halt (extend v c) nodes s
    Layered G root value extend (· = v) (G.dist root v) r.1 ∧ Grows s r.1 ∧
      (r.2 = false → ∀ w ∈ nodes, (r.1.mark w).isSome) ∧
      (r.2 = true → ∃ w, halt w ∧ (r.1.mark w).isSome) := by
  induction nodes generalizing s with
  | nil => exact ⟨h, fun _ _ found => found, by simp [visit], by simp [visit]⟩
  | cons node rest ih =>
    have nearRest : ∀ w ∈ rest, w ≠ v → G.Adj v w := fun w member => near w (mem_cons_of_mem node member)
    by_cases known : (s.mark node).isSome
    · obtain ⟨layered, grows, all, halted⟩ := ih h marked nearRest closer
      simp only [visit, if_pos known]
      refine ⟨layered, grows, fun goes w member => ?_, halted⟩
      rcases mem_cons.mp member with rfl | later
      · exact grows.isSome known
      · exact all goes w later
    have new : s.mark node = none := by simpa using known
    have adj : G.Adj v node := by
      apply near node mem_cons_self
      rintro rfl
      rw [new] at marked
      cases marked
    have far : G.dist root v < G.dist root node := by
      by_contra close
      have reachedV := h.reached v (by rw [marked]; rfl)
      exact known (closer node (reachedV.trans adj.reachable) (not_lt.mp close))
    have found := h.discover marked new adj far
    have grown : Grows s (s.discover node (extend v c)) := fun w b => discover_keeps new
    have here : ((s.discover node (extend v c)).mark node).isSome :=
      (discover_mark_isSome node _).mpr (.inl rfl)
    simp only [visit, if_neg known]
    split
    · rename_i stops
      exact ⟨found, grown, by simp, fun _ => ⟨node, stops, here⟩⟩
    obtain ⟨layered, grows, all, halted⟩ := ih found (grown v c marked) nearRest
      fun w reachedW close => grown.isSome (closer w reachedW close)
    refine ⟨layered, fun w b before => grows w b (grown w b before), fun goes w member => ?_, halted⟩
    rcases mem_cons.mp member with rfl | later
    · exact grows.isSome here
    · exact all goes w later

end Layers

section Fuel

variable {α β : Type*} [DecidableEq α] {s : Search α β} (nodes : Finset α)

def left (s : Search α β) : ℕ := (nodes.filter fun v => (s.mark v).isNone).card + s.queue.length

theorem left_discover {node : α} (b : β) (new : s.mark node = none) (member : node ∈ nodes) :
    left nodes (s.discover node b) = left nodes s := by
  have fewer : (nodes.filter fun v => ((s.discover node b).mark v).isNone) =
      (nodes.filter fun v => (s.mark v).isNone).erase node := by
    ext v
    by_cases same : v = node
    · simp [same, discover]
    · simp [same, discover]
  have inside : node ∈ nodes.filter fun v => (s.mark v).isNone := by simp [member, new]
  have some_left := Finset.card_pos.mpr ⟨node, inside⟩
  unfold left
  rw [fewer, Finset.card_erase_of_mem inside]
  simp only [discover, length_append, length_singleton]
  omega

theorem left_visit (halt : α → Bool) (b : β) (next : List α)
    (inside : ∀ v ∈ next, s.mark v = none → v ∈ nodes) :
    left nodes (visit halt b next s).1 = left nodes s := by
  induction next generalizing s with
  | nil => rfl
  | cons node rest ih =>
    have insideRest : ∀ v ∈ rest, s.mark v = none → v ∈ nodes :=
      fun v member => inside v (mem_cons_of_mem _ member)
    unfold visit
    split
    · exact ih insideRest
    rename_i known
    have new : s.mark node = none := by simpa using known
    have same := left_discover nodes b new (inside node mem_cons_self new)
    split
    · exact same
    rw [ih _, same]
    intro v member unmarked
    apply insideRest v member
    by_contra marked
    obtain ⟨c, found⟩ := Option.ne_none_iff_exists'.mp marked
    rw [discover_keeps new found] at unmarked
    cases unmarked

end Fuel

section Run

variable {α β : Type*} [DecidableEq α] {G : SimpleGraph α} {root v w : α} {value : β}
  {extend : α → β → β} {next : α → List α} (halt : α → Bool) (nodes : Finset α)

/-- `next` lists the neighbours of every node, all of them in `nodes`; a node may list itself. -/
structure Lists (G : SimpleGraph α) (nodes : Finset α) (next : α → List α) : Prop where
  adj : ∀ v w, w ∈ next v → w ≠ v → G.Adj v w
  all : ∀ v w, G.Adj v w → w ∈ next v
  inside : ∀ v, ∀ w ∈ next v, w ≠ v → w ∈ nodes

variable {nodes} {level fuel : ℕ} {s : Search α β}

theorem run_nil (empty : s.queue = []) : run next extend halt fuel s = (s, false) := by
  cases fuel with
  | zero => rfl
  | succ fuel => simp only [run, empty]

theorem run_succ {c : β} {queue : List α} {r : Search α β × Bool} (head : s.queue = v :: queue)
    (marked : s.mark v = some c)
    (visited : visit halt (extend v c) (next v) { s with queue := queue } = r) :
    run next extend halt (fuel + 1) s = if r.2 then r else run next extend halt fuel r.1 := by
  obtain ⟨s', halted⟩ := r
  cases halted <;> simp only [run, head, marked, visited] <;> rfl

theorem run_layered (lists : Lists G nodes next)
    (h : Layered G root value extend (fun _ => False) level s) (enough : left nodes s ≤ fuel) :
    let r := run next extend halt fuel s
    ∃ busy level, Layered G root value extend busy level r.1 ∧
      (r.2 = false → r.1.queue = [] ∧ ∀ v, ¬busy v) ∧
      (r.2 = true → ∃ w, halt w ∧ (r.1.mark w).isSome) := by
  induction fuel generalizing s level with
  | zero =>
    have empty : s.queue = [] := by
      unfold left at enough
      exact length_eq_zero_iff.mp (by omega)
    exact ⟨_, _, h, fun _ => ⟨empty, fun _ => not_false⟩, by simp [run]⟩
  | succ fuel ih =>
    cases head : s.queue with
    | nil =>
      rw [run_nil halt head]
      exact ⟨_, _, h, fun _ => ⟨head, fun _ => not_false⟩, by simp⟩
    | cons node queue =>
      obtain ⟨c, marked⟩ := Option.isSome_iff_exists.mp (h.queued node (head ▸ mem_cons_self))
      have waiting : ∀ v ∈ s.queue, G.dist root node ≤ G.dist root v := by
        have sorted := h.sorted
        rw [head] at sorted ⊢
        intro v member
        rcases mem_cons.mp member with rfl | later
        · exact le_rfl
        · exact (pairwise_cons.mp sorted).1 v later
      have spec := visit_layered halt (next node) (h.pop head) marked (lists.adj node)
        fun w reached close => h.closer waiting reached close
      have less : left nodes (visit halt (extend node c) (next node) { s with queue := queue }).1 <
          left nodes s := by
        rw [left_visit nodes halt _ _ fun w member new => lists.inside node w member (by
          rintro rfl
          rw [marked] at new
          cases new)]
        unfold left
        rw [head]
        exact Nat.lt_succ_self _
      generalize visited : visit halt (extend node c) (next node) { s with queue := queue } = r at spec less
      rw [run_succ halt head marked visited]
      obtain ⟨s', halted⟩ := r
      obtain ⟨layered, -, all, stops⟩ := spec
      cases halted with
      | true => exact ⟨_, _, layered, by simp, fun _ => stops rfl⟩
      | false =>
        have resting : Layered G root value extend (fun _ => False) (G.dist root node) s' :=
          { layered with
            expanded := by
              intro v found left _ w adj
              by_cases same : v = node
              · subst same
                exact all rfl w (lists.all v w adj)
              · exact layered.expanded v found left same w adj }
        have fewer : left nodes s' ≤ fuel := Nat.le_of_lt_succ (lt_of_lt_of_le less enough)
        exact ih resting fewer

theorem visit_unhalted {b : β} {list : List α} (ends : (visit halt b list s).2 = false) {w : α}
    (halts : halt w) (marked : ((visit halt b list s).1.mark w).isSome) : (s.mark w).isSome := by
  induction list generalizing s with
  | nil => exact marked
  | cons node rest ih =>
    unfold visit at ends marked
    split at ends
    · rename_i known
      rw [if_pos known] at marked
      exact ih ends marked
    rename_i new
    rw [if_neg new] at marked
    split at ends
    · cases ends
    rename_i goes
    rw [if_neg goes] at marked
    have before := ih ends marked
    have other : w ≠ node := fun same => goes (same ▸ halts)
    simpa [discover, update_of_ne other] using before

theorem run_unhalted (ends : (run next extend halt fuel s).2 = false) {w : α} (halts : halt w)
    (marked : ((run next extend halt fuel s).1.mark w).isSome) : (s.mark w).isSome := by
  induction fuel generalizing s with
  | zero => exact marked
  | succ fuel ih =>
    cases head : s.queue with
    | nil => rwa [run_nil halt head] at marked
    | cons v queue =>
      cases known : s.mark v with
      | none => simpa only [run, head, known] using marked
      | some c =>
        rw [run_succ halt head known rfl] at ends marked
        split at ends
        · rename_i stops
          rw [stops] at ends
          cases ends
        rename_i goes
        rw [if_neg goes] at marked
        exact visit_unhalted (s := { s with queue := queue }) halt (by simpa using goes) halts
          (ih ends marked)

def shadow (before : α → Option β) (s : Search α β) : Search α β :=
  { s with mark := fun v => (s.mark v).or (before v) }

variable {before : α → Option β}

theorem visit_shadow {b : β} {list : List α} (fresh : ∀ w ∈ list, before w = none) :
    visit halt b list (s.shadow before) =
        ((visit halt b list s).1.shadow before, (visit halt b list s).2) ∧
      ∀ w ∈ (visit halt b list s).1.queue, w ∈ s.queue ∨ w ∈ list := by
  induction list generalizing s with
  | nil => exact ⟨rfl, fun _ => .inl⟩
  | cons node rest ih =>
    have freshRest : ∀ w ∈ rest, before w = none := fun w => fresh w ∘ mem_cons_of_mem node
    have found : ((s.shadow before).mark node).isSome = (s.mark node).isSome := by
      simp [shadow, fresh node mem_cons_self]
    have step : (s.shadow before).discover node b = (s.discover node b).shadow before := by
      simp only [shadow, discover, mk.injEq, and_true]
      funext v
      by_cases same : v = node <;> simp [same]
    unfold visit
    rw [found, step]
    split
    · exact ⟨(ih freshRest).1, fun w member => ((ih freshRest).2 w member).imp_right (.tail _)⟩
    have queued : ∀ w ∈ (s.discover node b).queue, w ∈ s.queue ∨ w ∈ node :: rest := by
      intro w member
      rcases mem_append.mp member with old | new
      · exact .inl old
      · exact .inr (mem_singleton.mp new ▸ mem_cons_self)
    split
    · exact ⟨rfl, queued⟩
    refine ⟨(ih freshRest).1, fun w member => ?_⟩
    rcases (ih freshRest).2 w member with old | new
    · exact queued w old
    · exact .inr (.tail _ new)

theorem run_shadow {near : α → Prop}
    (closed : ∀ v, near v → ∀ w ∈ next v, near w) (fresh : ∀ v, near v → before v = none)
    (queued : ∀ v ∈ s.queue, near v) : run next extend halt fuel (s.shadow before) =
      ((run next extend halt fuel s).1.shadow before, (run next extend halt fuel s).2) := by
  induction fuel generalizing s with
  | zero => rfl
  | succ fuel ih =>
    cases head : s.queue with
    | nil => rw [run_nil halt head, run_nil halt (s := s.shadow before) head]
    | cons v queue =>
      have here := queued v (head ▸ mem_cons_self)
      have mark : (s.shadow before).mark v = s.mark v := by simp [shadow, fresh v here]
      cases marked : s.mark v with
      | none => simp [run, shadow, head, marked, fresh v here]
      | some c =>
        obtain ⟨visited, queue'⟩ := @visit_shadow _ _ _ halt { s with queue := queue } before
          (extend v c) (next v) fun w member => fresh w (closed v here w member)
        rw [run_succ halt (s := s.shadow before) head (mark.trans marked) visited,
          run_succ halt head marked rfl]
        split
        · rfl
        apply ih
        intro w member
        rcases queue' w member with old | new
        · exact queued w (head ▸ mem_cons_of_mem _ old)
        · exact closed v here w new

theorem left_start : left nodes (start root value) ≤ nodes.card + 1 := by
  unfold left
  have := Finset.card_filter_le nodes fun v => ((start root value).mark v).isNone
  simp only [start, length_singleton] at this ⊢
  omega

theorem search_layered (lists : Lists G nodes next) (root : α) (value : β) (extend : α → β → β)
    (enough : nodes.card < fuel) :
    let r := run next extend halt fuel (start root value)
    ∃ busy level, Layered G root value extend busy level r.1 ∧
      (r.2 = false → ∀ w, G.Reachable root w → (r.1.mark w).isSome) ∧
      (r.2 = true → ∃ w, halt w ∧ (r.1.mark w).isSome) := by
  have initial : Layered G root value extend (fun _ => False) 0 (start root value) := layered_start
  obtain ⟨busy, level, layered, ends, halted⟩ := run_layered halt lists initial (left_start.trans enough)
  refine ⟨busy, level, layered, fun goes w reached => ?_, halted⟩
  obtain ⟨empty, idle⟩ := ends goes
  have resting : Layered G root value extend (fun _ => False) level
      (run next extend halt fuel (start root value)).1 :=
    { layered with expanded := fun v found left _ => layered.expanded v found left (idle v) }
  exact resting.closer (d := G.dist root w) (by simp [empty]) reached le_rfl

end Run

section Results

variable {α : Type*} {G : SimpleGraph α} {root v : α} {busy : α → Prop} {level : ℕ}

theorem Layered.mark_eq_dist {s : Search α ℕ}
    (h : Layered G root 0 (fun _ hops => hops + 1) busy level s) {k : ℕ} (marked : s.mark v = some k) :
    k = G.dist root v := by
  induction d : G.dist root v generalizing v k with
  | zero =>
    have reached := h.reached v (by rw [marked]; rfl)
    rw [reached.dist_eq_zero_iff] at d
    rw [← d, h.atRoot] at marked
    exact (Option.some.inj marked).symm
  | succ d ih =>
    have other : v ≠ root := by
      rintro rfl
      rw [dist_self] at d
      omega
    obtain ⟨p, c, markedP, -, layer, rfl⟩ := h.origin v k marked other
    rw [ih markedP (by omega)]

theorem Layered.mark_eq_value {β : Type*} {s : Search α β} {value : β}
    (h : Layered G root value (fun _ b => b) busy level s) {b : β} (marked : s.mark v = some b) :
    b = value := by
  induction d : G.dist root v generalizing v b with
  | zero =>
    have reached := h.reached v (by rw [marked]; rfl)
    rw [reached.dist_eq_zero_iff] at d
    rw [← d, h.atRoot] at marked
    exact (Option.some.inj marked).symm
  | succ d ih =>
    have other : v ≠ root := by
      rintro rfl
      simp at d
    obtain ⟨p, c, found, -, layer, rfl⟩ := h.origin v b marked other
    exact ih found (by omega)

theorem Layered.dist_lt_order {β : Type*} {s : Search α β} {value : β} {extend : α → β → β}
    (h : Layered G root value extend busy level s) (marked : (s.mark v).isSome) :
    G.dist root v < s.order.length := by
  have layers : ∀ d ≤ G.dist root v, ∃ w ∈ s.order, G.dist root w = d := by
    intro d below
    induction gap : G.dist root v - d generalizing v with
    | zero => exact ⟨v, (h.ordered v).mpr marked, by omega⟩
    | succ gap ih =>
      have other : v ≠ root := by
        rintro rfl
        rw [dist_self] at gap
        omega
      obtain ⟨b, found⟩ := Option.isSome_iff_exists.mp marked
      obtain ⟨p, c, markedP, -, layer, -⟩ := h.origin v b found other
      exact ih (by rw [markedP]; rfl) (by omega) (by omega)
  have subset : Finset.range (G.dist root v + 1) ⊆ (s.order.map (G.dist root)).toFinset := by
    intro d member
    obtain ⟨w, inside, rfl⟩ := layers d (by simpa [Nat.lt_succ_iff] using member)
    simp only [mem_toFinset, mem_map]
    exact ⟨w, inside, rfl⟩
  have few := (Finset.card_le_card subset).trans (toFinset_card_le _)
  rw [Finset.card_range, length_map] at few
  omega

theorem Layered.walk {s : Search α (Option α)}
    (h : Layered G root none (fun parent _ => some parent) busy level s) {fuel : ℕ}
    (marked : (s.mark v).isSome) (enough : G.dist root v < fuel) :
    ∃ walk : G.Walk root v, walk.support = (v :: ancestors s.mark fuel v).reverse ∧
      walk.length = G.dist root v := by
  induction d : G.dist root v generalizing v fuel with
  | zero =>
    rw [(h.reached v marked).dist_eq_zero_iff] at d
    subst d
    refine ⟨.nil, ?_, rfl⟩
    cases fuel <;> simp [ancestors, h.atRoot]
  | succ d ih =>
    obtain ⟨fuel, rfl⟩ := Nat.exists_eq_succ_of_ne_zero (Nat.ne_zero_of_lt enough)
    obtain ⟨b, found⟩ := Option.isSome_iff_exists.mp marked
    have other : v ≠ root := by
      rintro rfl
      simp at d
    obtain ⟨p, c, markedP, adj, layer, rfl⟩ := h.origin v b found other
    have closer : G.dist root p < fuel := by omega
    obtain ⟨walk, support, length⟩ := ih (Option.isSome_of_mem markedP) closer (by omega)
    refine ⟨walk.concat adj, ?_, by rw [Walk.length_concat, length]⟩
    simp [Walk.support_concat, support, ancestors, found]

end Results

end Search

end Dkms.Core
