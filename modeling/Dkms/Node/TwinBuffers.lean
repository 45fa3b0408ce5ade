import Dkms.Node.Outdated

namespace Dkms.Node

open List Std Dkms.Core Cluster

namespace Cluster

/-- Between a restart of `b` and its consequences at `a`: nothing outdated is there; or `a` has
yet to hear of the run that is going on; or a handler is throwing away what is outdated. -/
inductive Phase (a b : NodeId) (c : Cluster) : Prop
  | clean (clean : c.CleanBut a b [])
  | unheard (previous : String) (heard : c.heard a b = some previous)
      (changed : previous ≠ (c.world.nodes b).incarnation)
      (unnoted : ∀ (i : Nat) (t : Task), c.threads[i]? = some t → ¬ c.Noted a b t)
  | forgets (i : Nat) (t : Task) (found : c.threads[i]? = some t) (here : t.tag.node = a)
      (running : t.isRunning) (delivers : t.tag.isDelivery) (todo : t.memory.todo <:+ forgetOps b)
      (busy : t.memory.todo ≠ []) (clean : c.CleanBut a b (t.memory.todo.filterMap Op.sweeps))
      (unnoted : ∀ (j : Nat) (t' : Task), c.threads[j]? = some t' → j ≠ i → ¬ c.Noted a b t')

/-- What holds between `a` and `b` in every state: handlers keep their disciplines, one delivery
is handled at a time, and a key in a `buffer_enc` or in hand has a receipt. -/
structure Twin (a b : NodeId) (c : Cluster) : Prop where
  kept : Pool.Obeyed (fun _ => custody) Tag.draws (fun _ _ _ => True) c.threads
  obeyed : ∀ t ∈ c.threads, t.prog.result = some .killed ∨
    (mindful t.tag).Obeys (Mindful t.tag) (Task.memory t) t.prog
  single : ∀ (i j : Nat) (t t' : Task), c.threads[i]? = some t → c.threads[j]? = some t' →
    t.isRunning → t'.isRunning → t.tag.isDelivery → t'.tag.isDelivery → t.tag.node = t'.tag.node →
    i = j
  received : ∀ t ∈ c.threads, t.tag.node = a → ∀ keyIds, t.tag.call = .receipts b keyIds →
    ∀ id ∈ keyIds, c.receiptsOf a b id ≠ []
  backed : ∀ spot id, spot ≠ .acks → c.Has a b spot id → c.receiptsOf a b id ≠ []
  phase : c.Phase a b

end Cluster

/-- A wipe is due and can be made: the last was long enough ago, and no handler of `a` has a key
for `b` in its hands that would come back after it. -/
def Cluster.CanForget (a b : NodeId) (c : Cluster) : Prop :=
  (c.world.nodes a).peerIncarnations.lastWipe[b]?.any
      (c.world.now - · < incarnationWipeCooldown) = false ∧
    ∀ t ∈ c.threads, t.tag.node = a → t.isRunning → t.tag.isTick = false → ∀ held ∈ Task.hand t, held.1 ≠ b

def Cluster.NotForgetting (a b : NodeId) (c : Cluster) : Prop :=
  ∀ t ∈ c.threads, t.tag.node = a → t.isRunning → (Task.memory t).forgetting ≠ some b

def Op.Heedful (a b : NodeId) (c : Cluster) : Op → Prop
  | .noteIncarnation peer incarnation =>
    peer = b → incarnation = (c.world.nodes b).incarnation →
      ∀ previous ∈ c.heard a b, previous ≠ incarnation → c.CanForget a b
  | .popOldest peer _ | .ackTake peer _ => peer = b → c.NotForgetting a b
  | .ackInsert peer keyId _ _ => peer = b → c.receiptsOf a b keyId = []
  | _ => True

/-- What an act needs so that a restart of `b` leaves nothing behind at `a`: `a` knows the run of
`b` that ends, wipes are not held back, nothing escapes them, and keys get new ids. -/
def Act.Heedful (a b : NodeId) (c : Cluster) : Act → Prop
  | .step i _ => ∀ t ∈ c.threads[i]?, t.tag.node = a → ∀ op ∈ t.prog.nextOp, op.Heedful a b c
  | .restart node incarnation => node = b → (∃ previous ∈ c.heard a b, previous ≠ incarnation) ∧
    ∀ t ∈ c.threads, t.tag.node = a → (b, incarnation) ∉ (Task.memory t).noted
  | _ => True

instance (a b : NodeId) (c : Cluster) : Decidable (c.CanForget a b) := by
  unfold CanForget
  infer_instance

instance (a b : NodeId) (c : Cluster) : Decidable (c.NotForgetting a b) := by
  unfold NotForgetting
  infer_instance

instance (a b : NodeId) (c : Cluster) (op : Op) : Decidable (op.Heedful a b c) := by
  rcases op with _ | _ <;> dsimp only [Op.Heedful] <;> infer_instance

instance (a b : NodeId) (c : Cluster) (act : Act) : Decidable (act.Heedful a b c) := by
  rcases act with _ | _ <;> dsimp only [Act.Heedful] <;> infer_instance

theorem running_of_todo {tag : Tag} {m : Memory} {prog : Handler Outcome}
    (obeys : (mindful tag).Obeys (Mindful tag) m prog) (busy : m.todo ≠ []) :
    prog.result.isNone := by
  cases prog with
  | done outcome => exact absurd obeys.1 busy
  | call op rest => rfl

theorem forgetting_of_suffix {m : Memory} {peer : NodeId} (todo : m.todo <:+ forgetOps peer)
    (busy : m.todo ≠ []) : m.forgetting = some peer := by
  simp only [forgetOps, suffix_cons_iff, suffix_nil] at todo
  unfold Memory.forgetting
  rcases todo with todo | todo | todo | todo | todo
  · rw [todo]
    rfl
  · rw [todo]
    rfl
  · rw [todo]
    rfl
  · rw [todo]
    rfl
  · exact absurd todo busy

theorem sweeps_forgetOps (peer : NodeId) :
    (forgetOps peer).filterMap Op.sweeps = [.enc .qkd, .enc .pqc, .acks] := rfl

theorem hand_not_swept (todo : List Op) : .hand ∉ todo.filterMap Op.sweeps := by
  intro swept
  obtain ⟨op, -, hand⟩ := mem_filterMap.mp swept
  cases op <;> cases hand

namespace Cluster.Twin

variable {sha : Bytes → Bytes} {a b : NodeId} {c : Cluster}

section Step

variable {i : Nat} {hint : Hint} {tag : Tag} {log : List ((op : Op) × op.Answer)} {op : Op}
  {rest : op.Answer → Handler Outcome} {answer : op.Answer} {world : World}

section

variable (twin : c.Twin a b)
include twin

theorem obeys (found : c.threads[i]? = some ⟨tag, log, .call op rest⟩) :
    (mindful tag).Obeys (Mindful tag) (Task.memory ⟨tag, log, .call op rest⟩) (.call op rest) := by
  rcases twin.obeyed _ (mem_of_getElem? found) with killed | obeys
  · cases killed
  · exact obeys

theorem obeys_next (found : c.threads[i]? = some ⟨tag, log, .call op rest⟩) (answer : op.Answer) :
    (mindful tag).Obeys (Mindful tag)
      (Task.memory ⟨tag, log ++ [⟨op, answer⟩], rest answer⟩) (rest answer) := by
  rw [memory_step tag log op answer (.call op rest)]
  exact (twin.obeys found).2 answer trivial

theorem clean_step {spots : List Spot} (clean : c.CleanBut a b spots)
    (found : c.threads[i]? = some ⟨tag, log, .call op rest⟩)
    (ran : exec tag.node op hint c.world = some (answer, world))
    (heedful : tag.node = a → op.Heedful a b c) (hand : .hand ∉ spots)
    (apart : tag.node = a → c.NotForgetting a b → spots = []) :
    CleanBut a b spots ⟨world, c.threads.set i ⟨tag, log ++ [⟨op, answer⟩], rest answer⟩⟩ := by
  apply clean.step found ran (twin.kept.may found) (twin.obeys found).1 hand
  · rintro grade here rfl
    simp [apart here (heedful here rfl)]
  · rintro id here rfl
    simp [apart here (heedful here rfl)]
  · rintro id bytes grade here rfl
    exact heedful here rfl

theorem sighted {previous : String} (known : c.heard a b = some previous)
    (changed : previous ≠ (c.world.nodes b).incarnation)
    (unnoted : ∀ (j : Nat) (t : Task), c.threads[j]? = some t → ¬ c.Noted a b t)
    (found : c.threads[i]? = some ⟨tag, log, .call op rest⟩)
    (ran : exec tag.node op hint c.world = some (answer, world)) (here : tag.node = a)
    (sights : op = .noteIncarnation b (c.world.nodes b).incarnation) (heedful : op.Heedful a b c) :
    Phase a b ⟨world, c.threads.set i ⟨tag, log ++ [⟨op, answer⟩], rest answer⟩⟩ := by
  have bound := (List.getElem?_eq_some_iff.mp found).1
  have obeys := twin.obeys_next found answer
  have delivers : tag.isDelivery := by
    have may := (twin.obeys found).1.2
    rw [sights] at may
    exact may
  have forget : (Task.memory ⟨tag, log ++ [⟨op, answer⟩], rest answer⟩).todo = forgetOps b := by
    subst sights here
    have calm := (heedful rfl rfl previous known changed).1
    have due := PeerIncarnations.noteAt_restart known changed calm
    simp only [exec, Option.some.injEq, Prod.mk.injEq] at ran
    rw [due] at ran
    rw [memory_step tag log _ answer (.call _ rest), ← ran.1]
    rfl
  have empty : ∀ id, ¬ c.Has a b .hand id := by
    rintro id ⟨t, listed, node, running, other, held⟩
    subst sights
    exact (heedful rfl rfl previous known changed).2 t listed node running other _ held rfl
  have busy : (Task.memory ⟨tag, log ++ [⟨op, answer⟩], rest answer⟩).todo ≠ [] := by
    rw [forget]
    exact cons_ne_nil _ _
  apply Phase.forgets i _ (List.getElem?_set_self bound) here (running_of_todo obeys busy) delivers
    (by rw [forget]) busy
  · intro spot outside id held
    rw [forget, sweeps_forgetOps] at outside
    cases spot with
    | enc grade => cases grade <;> exact absurd (by decide) outside
    | acks => exact absurd (by decide) outside
    | hand =>
      rcases has_step found ran (twin.kept.may found) (twin.obeys found).1 held with
        before | ⟨-, ⟨grade, pops, -⟩ | ⟨takes, -⟩⟩
      · exact absurd before (empty id)
      · cases sights.symm.trans pops
      · cases sights.symm.trans takes
  · intro j t held other noted
    rcases noted_step found ran held noted with ⟨old, before, noted⟩ | ⟨same, -⟩
    · exact unnoted j old before noted
    · exact other same

section

variable (found : c.threads[i]? = some ⟨tag, log, .call op rest⟩)
include found

section

variable (ran : exec tag.node op hint c.world = some (answer, world))
include ran

theorem swept (here : tag.node = a) (delivers : tag.isDelivery)
    (todo : (Task.memory ⟨tag, log, .call op rest⟩).todo <:+ forgetOps b)
    (busy : (Task.memory ⟨tag, log, .call op rest⟩).todo ≠ [])
    (clean : c.CleanBut a b ((Task.memory ⟨tag, log, .call op rest⟩).todo.filterMap Op.sweeps))
    (unnoted : ∀ (j : Nat) (t : Task), c.threads[j]? = some t → j ≠ i → ¬ c.Noted a b t) :
    Phase a b ⟨world, c.threads.set i ⟨tag, log ++ [⟨op, answer⟩], rest answer⟩⟩ := by
  have bound := (List.getElem?_eq_some_iff.mp found).1
  have obeys := twin.obeys_next found answer
  obtain ⟨first, left, split⟩ := exists_cons_of_ne_nil busy
  have next : op = first := (twin.obeys found).1.1 first (by rw [split]; rfl)
  subst next
  rw [split] at todo clean
  have listed : op ∈ forgetOps b := todo.subset mem_cons_self
  have quiet : ∀ {op'}, op' ∉ forgetOps b → op ≠ op' := by
    rintro _ unlisted rfl
    exact unlisted listed
  have moved := clean.step found ran (twin.kept.may found) (twin.obeys found).1 (hand_not_swept _)
    (fun grade _ pops => absurd pops (quiet (by simp [forgetOps])))
    (fun id _ takes => absurd takes (quiet (by simp [forgetOps])))
    (fun id bytes grade _ inserts => absurd inserts (quiet (by simp [forgetOps])))
  have emptied : CleanBut a b (left.filterMap Op.sweeps)
      ⟨world, c.threads.set i ⟨tag, log ++ [⟨op, answer⟩], rest answer⟩⟩ := by
    rw [filterMap_cons] at moved
    split at moved
    · exact moved
    · rename_i spot sweeps
      exact moved.swept fun id => not_has_sweep ran here listed sweeps
  have rest : (Task.memory ⟨tag, log ++ [⟨op, answer⟩], rest answer⟩).todo = left := by
    rw [memory_step tag log op answer (.call op rest)]
    rw [todo_note _ fun peer incarnation => quiet (by simp [forgetOps]), split]
    rfl
  by_cases last : left = []
  · subst last
    exact .clean emptied
  rw [← rest] at last emptied
  apply Phase.forgets i _ (List.getElem?_set_self bound) here (running_of_todo obeys last)
    delivers _ last emptied
  · intro j t held other noted
    rcases noted_step found ran held noted with ⟨old, before, noted⟩ | ⟨same, -⟩
    · exact unnoted j old before other noted
    · exact other same
  · rw [rest]
    exact (suffix_cons _ _).trans todo

theorem phase_step (heedful : tag.node = a → op.Heedful a b c) :
    Phase a b ⟨world, c.threads.set i ⟨tag, log ++ [⟨op, answer⟩], rest answer⟩⟩ := by
  cases twin.phase with
  | clean clean => exact .clean (twin.clean_step clean found ran heedful (by simp) fun _ _ => rfl)
  | unheard previous known changed unnoted =>
    by_cases sights : tag.node = a ∧ op = .noteIncarnation b (c.world.nodes b).incarnation
    · exact twin.sighted known changed unnoted found ran sights.1 sights.2 (heedful sights.1)
    have unnoted' : ∀ (j : Nat) (t : Task),
        (c.threads.set i ⟨tag, log ++ [⟨op, answer⟩], rest answer⟩)[j]? = some t →
        ¬ Noted a b ⟨world, c.threads.set i ⟨tag, log ++ [⟨op, answer⟩], rest answer⟩⟩ t := by
      intro j t held noted
      rcases noted_step found ran held noted with ⟨old, before, noted⟩ | ⟨-, now⟩
      · exact unnoted j old before noted
      · exact sights now
    have current := ((exec_config ran).2 b).2
    rcases heard_step ran (c.threads.set i ⟨tag, log ++ [⟨op, answer⟩], rest answer⟩) with
      same | ⟨incarnation, here, notes, now⟩
    · exact .unheard previous (same.trans known) (by rwa [current]) unnoted'
    · refine .unheard incarnation now (fun same => sights ⟨here, ?_⟩) unnoted'
      rw [notes, same, current]
  | forgets j t held here running delivers todo busy clean unnoted =>
    by_cases same : j = i
    · subst same
      cases held.symm.trans found
      exact twin.swept found ran here delivers todo busy clean unnoted
    have settles : tag.node = a → c.NotForgetting a b → t.memory.todo.filterMap Op.sweeps = [] :=
      fun _ calm => absurd (forgetting_of_suffix todo busy) (calm t (mem_of_getElem? held) here running)
    apply Phase.forgets j t ((getElem?_set_ne (Ne.symm same)).trans held) here running
      delivers todo busy (twin.clean_step clean found ran heedful (hand_not_swept _) settles)
    intro k t' held' other noted
    rcases noted_step found ran held' noted with ⟨old, before, noted⟩ | ⟨-, node, sights⟩
    · exact unnoted k old before other noted
    -- two deliveries would be going on at once
    have may := (twin.obeys found).1.2
    rw [sights] at may
    exact same (twin.single j i t _ held found running rfl delivers may (here.trans node.symm))

theorem backed_step {spot : Spot} {id : KeyId} (other : spot ≠ .acks)
    (held : Has a b ⟨world, c.threads.set i ⟨tag, log ++ [⟨op, answer⟩], rest answer⟩⟩ spot id) :
    c.receiptsOf a b id ≠ [] := by
  have may := (twin.obeys found).1
  rcases has_step found ran (twin.kept.may found) may held with before | brought
  · exact twin.backed spot id other before
  cases spot with
  | enc grade => exact twin.backed .hand id (by simp) brought.2
  | acks => exact absurd rfl other
  | hand =>
    obtain ⟨here, ⟨grade, pops, before⟩ | ⟨rfl, before⟩⟩ := brought
    · exact twin.backed (.enc grade) id (by simp) before
    · obtain ⟨keyIds, call, listed⟩ := may.2
      exact twin.received _ (mem_of_getElem? found) here keyIds call id listed

theorem step (heedful : tag.node = a → op.Heedful a b c) :
    Twin a b ⟨world, c.threads.set i ⟨tag, log ++ [⟨op, answer⟩], rest answer⟩⟩ := by
  have bound := (List.getElem?_eq_some_iff.mp found).1
  have past : ∀ (j : Nat) (t : Task),
      (c.threads.set i ⟨tag, log ++ [⟨op, answer⟩], rest answer⟩)[j]? = some t →
      ∃ old, c.threads[j]? = some old ∧ old.tag = t.tag ∧ (t.isRunning → old.isRunning) := by
    intro j t held
    by_cases same : i = j
    · subst same
      rw [List.getElem?_set_self bound] at held
      cases held
      exact ⟨_, found, rfl, fun _ => rfl⟩
    · rw [List.getElem?_set_ne same] at held
      exact ⟨t, held, rfl, id⟩
  have grow : ∀ {id}, c.receiptsOf a b id ≠ [] → receiptsOf a b
      ⟨world, c.threads.set i ⟨tag, log ++ [⟨op, answer⟩], rest answer⟩⟩ id ≠ [] := by
    intro id some none
    exact some (subset_nil.mp (none ▸ receiptsOf_step ran _ id))
  constructor
  case kept => exact twin.kept.advance found trivial
  case obeyed =>
    intro t member
    rcases mem_or_eq_of_mem_set member with old | rfl
    · exact twin.obeyed t old
    · exact .inr (twin.obeys_next found answer)
  case single =>
    intro j k t t' held held' running running' delivers delivers' node
    obtain ⟨old, before, same, ran⟩ := past j t held
    obtain ⟨old', before', same', ran'⟩ := past k t' held'
    exact twin.single j k old old' before before' (ran running) (ran' running') (same ▸ delivers)
      (same' ▸ delivers') (by rw [same, same', node])
  case received =>
    intro t member here keyIds call id listed
    obtain ⟨j, held⟩ := List.getElem?_of_mem member
    obtain ⟨old, before, same, -⟩ := past j t held
    exact grow (twin.received old (mem_of_getElem? before) (same ▸ here) keyIds (same ▸ call) id listed)
  case backed => exact fun spot id other held => grow (twin.backed_step found ran other held)
  case phase => exact twin.phase_step found ran heedful

end

end

end

end Step

theorem alike {c' : Cluster} (twin : c.Twin a b) (threads : c'.threads = c.threads)
    (receipts : c'.world.receipts = c.world.receipts)
    (node : (c'.world.nodes a).pool = (c.world.nodes a).pool ∧
      (c'.world.nodes a).ackPending = (c.world.nodes a).ackPending ∧
      (c'.world.nodes a).peerIncarnations = (c.world.nodes a).peerIncarnations)
    (current : (c'.world.nodes b).incarnation = (c.world.nodes b).incarnation) : c'.Twin a b := by
  have has : c'.Has a b = c.Has a b := by
    funext spot id
    cases spot <;> simp only [Has, DkmsService.enc, node.1, node.2.1, threads]
  have confirmed : c'.receiptsOf a b = c.receiptsOf a b := by
    funext id
    simp only [receiptsOf, receipts]
  have outdated : c'.Outdated a b = c.Outdated a b := by
    funext id
    simp only [Outdated, confirmed, current]
  have noted : c'.Noted a b = c.Noted a b := by
    funext t
    simp only [Noted, current]
  have clean : ∀ spots, c.CleanBut a b spots → c'.CleanBut a b spots := by
    unfold CleanBut
    rw [has, outdated]
    exact fun spots clean => clean
  constructor
  case kept => exact threads ▸ twin.kept
  case obeyed => exact threads ▸ twin.obeyed
  case single => exact threads ▸ twin.single
  case received =>
    rw [threads, confirmed]
    exact twin.received
  case backed =>
    rw [has, confirmed]
    exact twin.backed
  case phase =>
    cases twin.phase with
    | clean all => exact .clean (clean [] all)
    | unheard previous known changed unnoted =>
      refine .unheard previous ?_ (current ▸ changed) (by rwa [threads, noted])
      rwa [heard, node.2.2]
    | forgets i t found here running delivers todo busy left unnoted =>
      exact .forgets i t (threads ▸ found) here running delivers todo busy (clean _ left)
        (by rwa [threads, noted])

theorem start (twin : c.Twin a b) (tag : Tag)
    (free : tag.isDelivery → c.isReceiving tag.node = false)
    (received : tag.node = a → ∀ keyIds, tag.call = .receipts b keyIds →
      ∀ id ∈ keyIds, c.receiptsOf a b id ≠ []) : (c.start sha tag.node tag.call).Twin a b := by
  have alone : ∀ t ∈ c.threads, tag.isDelivery → t.isRunning → t.tag.isDelivery →
      t.tag.node ≠ tag.node := by
    intro t member delivers running delivers' node
    have none := any_eq_false.mp (free delivers) t member
    have delivery : Task.isDelivery t := delivers'
    simp [node, running, delivery] at none
  have has : ∀ {spot id}, (c.start sha tag.node tag.call).Has a b spot id → c.Has a b spot id := by
    intro spot id held
    cases spot with
    | hand =>
      obtain ⟨t, member, node, running, other, inHand⟩ := held
      rcases mem_append.mp member with old | new
      · exact ⟨t, old, node, running, other, inHand⟩
      rw [mem_singleton.mp new] at other inHand
      have none : Task.hand (.launch tag
          (tag.call.program sha tag.node (c.world.nodes tag.node))) = [] :=
        Tag.draws_of_not_tick other
      rw [none] at inHand
      cases inHand
    | _ => exact held
  have noted : ∀ {i : Nat} {t : Task}, (c.start sha tag.node tag.call).threads[i]? = some t →
      (c.start sha tag.node tag.call).Noted a b t → c.threads[i]? = some t ∧ c.Noted a b t := by
    intro i t held noted
    rcases Pool.getElem?_launch held with old | ⟨-, rfl⟩
    · exact ⟨old, noted⟩
    · cases noted.2
  have clean : ∀ {spots}, c.CleanBut a b spots →
      (c.start sha tag.node tag.call).CleanBut a b spots :=
    fun clean spot outside id held => clean spot outside id (has held)
  constructor
  case kept => exact twin.kept.launch (program_custody sha tag _)
  case obeyed =>
    intro t member
    rcases mem_append.mp member with old | new
    · exact twin.obeyed t old
    · rw [mem_singleton.mp new]
      exact .inr (program_mindful sha tag _)
  case single =>
    intro j k t t' held held' running running' delivers delivers' node
    rcases Pool.getElem?_launch held, Pool.getElem?_launch held' with
      ⟨old | ⟨here, rfl⟩, old' | ⟨here', rfl⟩⟩
    · exact twin.single j k t t' old old' running running' delivers delivers' node
    · exact absurd node (alone t (mem_of_getElem? old) delivers' running delivers)
    · exact absurd node.symm (alone t' (mem_of_getElem? old') delivers running' delivers')
    · rw [here, here']
  case received =>
    intro t member
    rcases mem_append.mp member with old | new
    · exact twin.received t old
    · rw [mem_singleton.mp new]
      exact received
  case backed => exact fun spot id other held => twin.backed spot id other (has held)
  case phase =>
    cases twin.phase with
    | clean all => exact .clean (clean all)
    | unheard previous known changed unnoted =>
      exact .unheard previous known changed fun i t held now =>
        unnoted i t (noted held now).1 (noted held now).2
    | forgets i t found here running delivers todo busy left unnoted =>
      have bound := (List.getElem?_eq_some_iff.mp found).1
      exact .forgets i t ((List.getElem?_append_left bound).trans found) here running delivers todo
        busy (clean left) fun j t' held other now =>
          unnoted j t' (noted held now).1 other (noted held now).2

theorem has_restart {node : NodeId} {incarnation : String} {spot : Spot} {id : KeyId}
    (held : (c.restart node incarnation).Has a b spot id) : a ≠ node ∧ c.Has a b spot id := by
  cases spot with
  | enc grade =>
    simp only [Has, restart, World.nodes_setNode] at held
    split at held
    · cases grade <;> cases held
    · rename_i other
      exact ⟨other, held⟩
  | acks =>
    simp only [Has, restart, World.nodes_setNode] at held
    split at held
    · simp [DkmsService.boot, AckPendingStore.new, AckPendingStore.bucket] at held
    · rename_i other
      exact ⟨other, held⟩
  | hand =>
    obtain ⟨t, member, here, running, other, inHand⟩ := held
    obtain ⟨old, listed, rfl⟩ := mem_map.mp member
    obtain ⟨same, away⟩ := Task.kill_running running
    rw [same] at here running other inHand
    exact ⟨here ▸ away, old, listed, here, running, other, inHand⟩

theorem phase_restart (twin : c.Twin a b) (node : NodeId) (incarnation : String)
    (heedful : Act.Heedful a b c (.restart node incarnation)) :
    (c.restart node incarnation).Phase a b := by
  by_cases gone : a = node
  · exact .clean fun spot _ id held => absurd gone (has_restart held).1
  have memory : (c.restart node incarnation).world.nodes a = c.world.nodes a := by
    simp only [restart, World.nodes_setNode, if_neg gone]
  have threads : ∀ {i : Nat} {t : Task}, (c.restart node incarnation).threads[i]? = some t →
      ∃ old, c.threads[i]? = some old ∧ t.tag = old.tag ∧ Task.memory t = Task.memory old := by
    intro i t held
    obtain ⟨old, before, rfl⟩ := Option.map_eq_some_iff.mp ((getElem?_map ..).symm.trans held)
    exact ⟨old, before, by simp, by simp [Task.memory, Thread.ledger]⟩
  by_cases anew : b = node
  · subst anew
    obtain ⟨⟨previous, known, changed⟩, unheard⟩ := heedful rfl
    have current : ((c.restart b incarnation).world.nodes b).incarnation = incarnation := by
      simp [restart, DkmsService.boot]
    refine .unheard previous (by rwa [heard, memory]) (by rwa [current]) ?_
    rintro i t held ⟨here, noted⟩
    obtain ⟨old, before, tag, same⟩ := threads held
    rw [current, same] at noted
    exact unheard old (mem_of_getElem? before) (tag ▸ here) noted
  have current : (c.restart node incarnation).world.nodes b = c.world.nodes b := by
    simp only [restart, World.nodes_setNode, if_neg anew]
  have noted : ∀ {i : Nat} {t : Task}, (c.restart node incarnation).threads[i]? = some t →
      (c.restart node incarnation).Noted a b t →
      ∃ old, c.threads[i]? = some old ∧ c.Noted a b old := by
    rintro i t held ⟨here, noted⟩
    obtain ⟨old, before, tag, same⟩ := threads held
    rw [current, same] at noted
    exact ⟨old, before, tag ▸ here, noted⟩
  have clean : ∀ {spots}, c.CleanBut a b spots →
      (c.restart node incarnation).CleanBut a b spots := by
    rintro spots clean spot outside id held ⟨r, listed, earlier⟩
    rw [current] at earlier
    exact clean spot outside id (has_restart held).2 ⟨r, listed, earlier⟩
  cases twin.phase with
  | clean all => exact .clean (clean all)
  | unheard previous known changed unnoted =>
    refine .unheard previous (by rwa [heard, memory]) (by rwa [current]) ?_
    intro i t held now
    obtain ⟨old, before, now⟩ := noted held now
    exact unnoted i old before now
  | forgets i t found here running delivers todo busy left unnoted =>
    have alive : (c.restart node incarnation).threads[i]? = some t := by
      simp [restart, found, Task.kill_elsewhere (here.trans_ne gone)]
    apply Phase.forgets i t alive here running delivers todo busy (clean left)
    intro j t' held other now
    obtain ⟨old, before, now⟩ := noted held now
    exact unnoted j old before other now

theorem restart (twin : c.Twin a b) (node : NodeId) (incarnation : String)
    (heedful : Act.Heedful a b c (.restart node incarnation)) :
    (c.restart node incarnation).Twin a b := by
  have past : ∀ (i : Nat) (t : Task), (c.restart node incarnation).threads[i]? = some t →
      t.isRunning → c.threads[i]? = some t := by
    intro i t held running
    obtain ⟨old, before, rfl⟩ := Option.map_eq_some_iff.mp ((getElem?_map ..).symm.trans held)
    rw [(Task.kill_running running).1]
    exact before
  constructor
  case kept => exact Task.kill_obeyed twin.kept (fun _ _ => trivial) node
  case obeyed =>
    intro t member
    obtain ⟨old, listed, rfl⟩ := mem_map.mp member
    unfold Task.kill
    split
    · exact .inl rfl
    · exact twin.obeyed old listed
  case single =>
    intro i j t t' held held' running running'
    exact twin.single i j t t' (past i t held running) (past j t' held' running') running running'
  case received =>
    intro t member here keyIds call
    obtain ⟨old, listed, rfl⟩ := mem_map.mp member
    rw [Task.kill_tag] at here call
    exact twin.received old listed here keyIds call
  case backed => exact fun spot id other held => twin.backed spot id other (has_restart held).2
  case phase => exact twin.phase_restart node incarnation heedful

theorem launched (twin : c.Twin a b) {act : Act} {tag : Tag} (launches : Launches c act tag) :
    (c.start sha tag.node tag.call).Twin a b := by
  apply twin.start tag
  · intro delivers
    cases launches with
    | delivery i frame found free => exact free
    | _ => cases delivers
  intro here keyIds call id listed
  cases launches with
  | receipts node source picks =>
    cases call
    cases here
    obtain ⟨i, -, picked⟩ := mem_filterMap.mp listed
    split at picked
    · rename_i r found
      split at picked
      · rename_i mine
        cases picked
        apply ne_nil_of_mem
        exact mem_filter.mpr ⟨mem_of_getElem? found, by simp [mine]⟩
      · cases picked
    · cases picked
  | _ => cases call

theorem next {act : Act} (twin : c.Twin a b) (heedful : act.Heedful a b c) :
    (Cluster.next sha c act).Twin a b := by
  have moves := Cluster.next_moves sha c act
  generalize Cluster.next sha c act = c' at moves ⊢
  cases moves with
  | stays => exact twin
  | start _ tag launches => exact twin.launched launches
  | step i hint tag log op rest answer world found ran =>
    exact twin.step found ran fun here => heedful _ found here op rfl
  | deliver i post found unserved =>
    have sent : (c.setPost i { post with handler := some c.threads.length }).Twin a b :=
      twin.alike rfl rfl ⟨rfl, rfl, rfl⟩ rfl
    exact sent.start ⟨post.dest, .extKeys post.source post.body⟩ nofun nofun
  | setPeers node peers =>
    have same : ∀ n, ∃ peers', (c.setPeers node peers).world.nodes n =
        { c.world.nodes n with peers := peers' } := by
      intro n
      simp only [Cluster.setPeers, World.nodes_setNode]
      split
      · rename_i here
        exact ⟨peers, by rw [here]⟩
      · exact ⟨(c.world.nodes n).peers, rfl⟩
    obtain ⟨others, first⟩ := same a
    obtain ⟨others', second⟩ := same b
    exact twin.alike rfl rfl (by simp [first]) (by simp [second])
  | restart node incarnation => exact twin.restart node incarnation heedful
  | _ => exact twin.alike rfl rfl ⟨rfl, rfl, rfl⟩ rfl

theorem of_booted (booted : c.Booted) : c.Twin a b := by
  have nobody : ∀ (i : Nat) (t : Task), c.threads[i]? ≠ some t := by simp [booted.threads]
  have nothing : ∀ spot id, ¬ c.Has a b spot id := by
    intro spot id
    cases spot <;> simp [Has, booted.threads, booted.buffers, booted.acks]
  constructor
  case kept => simp [Pool.Obeyed, booted.threads]
  case obeyed | received => simp [booted.threads]
  case single => exact fun i _ t _ held => absurd held (nobody i t)
  case backed => exact fun spot id _ held => absurd held (nothing spot id)
  case phase => exact .clean fun spot _ id held => absurd held (nothing spot id)

end Cluster.Twin

def Tag.header (tag : Tag) : Option (Option NodeId × Option String) :=
  match tag.call with
  | .delivery frame => some (frame.saeOrigin, frame.incarnation)
  | _ => none

def Cluster.Opened (a b : NodeId) (c : Cluster) : Prop :=
  ∃ t ∈ c.threads, t.tag.node = a ∧ t.prog.result = some (.delivery (.ok true)) ∧
    t.tag.header = some (some b, some (c.world.nodes b).incarnation)

instance (a b : NodeId) (c : Cluster) : Decidable (c.Opened a b) := by
  unfold Opened
  infer_instance

theorem Cluster.Twin.clean_of_opened {a b : NodeId} {c : Cluster} (twin : c.Twin a b)
    (opened : c.Opened a b) : c.CleanBut a b [] := by
  obtain ⟨t, member, here, ended, header⟩ := opened
  obtain ⟨frame, call, source, incarnation⟩ : ∃ frame, t.tag.call = .delivery frame ∧
      frame.saeOrigin = some b ∧ frame.incarnation = some (c.world.nodes b).incarnation := by
    unfold Tag.header at header
    split at header
    · rename_i frame call
      simp only [Option.some.injEq, Prod.mk.injEq] at header
      exact ⟨frame, call, header.1, header.2⟩
    · cases header
  have noted : c.Noted a b t := by
    rcases twin.obeyed t member with killed | obeys
    · cases ended.symm.trans killed
    obtain ⟨tag, log, prog⟩ := t
    cases prog with
    | done outcome =>
      cases ended
      exact ⟨here, obeys.2 frame call rfl b source _ incarnation⟩
    | call op rest => cases ended
  obtain ⟨i, held⟩ := getElem?_of_mem member
  cases twin.phase with
  | clean clean => exact clean
  | unheard previous known changed unnoted => exact absurd noted (unnoted i t held)
  | forgets j t' found there running =>
    rename_i unnoted
    refine absurd noted (unnoted i t held ?_)
    rintro rfl
    cases held.symm.trans found
    rw [Thread.isRunning, ended] at running
    cases running

/-- Where wipes are not held back and nothing escapes them, `a` has in its `buffer_enc` only keys
that the run of `b` that is going on has confirmed, once it has opened a frame of it. -/
theorem twin_buffers_current (sha : Bytes → Bytes) (a b : NodeId) (c : Cluster) (booted : c.Booted)
    (acts : List Act)
    (heedful : Follows (Cluster.next sha) (fun c act => act.Heedful a b c) c acts) :
    let c' := Cluster.run sha c acts
    c'.Opened a b → ∀ grade, ∀ key ∈ ((c'.world.nodes a).enc b grade).inner,
      (∃ r ∈ c'.receiptsOf a b key.id, r.incarnation = (c'.world.nodes b).incarnation) ∧
        ∀ r ∈ c'.receiptsOf a b key.id, r.incarnation = (c'.world.nodes b).incarnation := by
  intro c' opened grade key held
  have twin : c'.Twin a b := by
    apply heedful.invariant _ (.of_booted booted)
    exact fun c act twin heedful => twin.next heedful
  have has : c'.Has a b (.enc grade) key.id := mem_map_of_mem held
  have current : ∀ r ∈ c'.receiptsOf a b key.id,
      r.incarnation = (c'.world.nodes b).incarnation := by
    intro r listed
    by_contra earlier
    exact twin.clean_of_opened opened _ (not_mem_nil) key.id has ⟨r, listed, earlier⟩
  obtain ⟨r, listed⟩ := exists_mem_of_ne_nil _ (twin.backed _ key.id (by simp) has)
  exact ⟨⟨r, listed, current r listed⟩, current⟩

def exchange (source dest : NodeId) (keyId : KeyId) (calls frames : Nat) : List Act :=
  [.tick source (oneFor dest ⟨keyId, replicate 32 7, true⟩)] ++ steps calls 8 ++
    [.deliverFrame frames] ++ steps (calls + 1) 9

def restarts (wait : Nat) : List Act :=
  exchange "B" "A" "b1" 0 0 ++ [.restart "B" "B-2"] ++ exchange "B" "A" "b2" 2 1 ++
    exchange "A" "B" "a1" 4 2 ++ [.deliverReceipts "A" "B" [2]] ++ steps 6 2 ++ [.advance wait] ++
    [.restart "B" "B-3"] ++ exchange "B" "A" "b3" 7 3

def waitedRun : List Act :=
  restarts incarnationWipeCooldown ++ exchange "A" "B" "a2" 9 4 ++
    [.deliverReceipts "A" "B" [4]] ++ steps 11 2

theorem twin_buffers_current_waited :
    let c := Cluster.run id (twoNodes [] []) waitedRun
    c.Opened "A" "B" ∧ ((c.world.nodes "A").enc "B" .qkd).inner.map (·.id) = ["a2"] ∧
      ∀ grade, ∀ key ∈ ((c.world.nodes "A").enc "B" grade).inner,
        (∃ r ∈ c.receiptsOf "A" "B" key.id, r.incarnation = (c.world.nodes "B").incarnation) ∧
          ∀ r ∈ c.receiptsOf "A" "B" key.id, r.incarnation = (c.world.nodes "B").incarnation := by
  have opened : (run id (twoNodes [] []) waitedRun).Opened "A" "B" := by decide +kernel
  have held : (((run id (twoNodes [] []) waitedRun).world.nodes "A").enc "B" .qkd).inner.map
      (·.id) = ["a2"] := by decide +kernel
  exact ⟨opened, held, twin_buffers_current id "A" "B" _ twoNodes_booted waitedRun (by decide +kernel) opened⟩

/-- Two restarts within the cooldown: `A` has opened a frame of the third run of `B`, and still has
the key that the second run confirmed. -/
theorem hasty_restart_missed :
    let c := Cluster.run id (twoNodes [] []) (restarts 0)
    c.Opened "A" "B" ∧ (c.world.nodes "B").incarnation = "B-3" ∧
      ((c.world.nodes "A").enc "B" .qkd).inner.map (·.id) = ["a1"] ∧
      (c.receiptsOf "A" "B" "a1").map (·.incarnation) = ["B-2"] := by
  have opened : (run id (twoNodes [] []) (restarts 0)).Opened "A" "B" := by decide +kernel
  exact ⟨opened, by decide +kernel, by decide +kernel, by decide +kernel⟩

end Dkms.Node
