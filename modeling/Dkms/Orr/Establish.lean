import Dkms.Core.Runs
import Dkms.Orr.Tasks

namespace Dkms.Orr

open List Function Std Dkms.Core Dkms.Link PeerRegistry Bool

inductive End where
  | lower
  | upper
  deriving DecidableEq

def End.other : End → End
  | .lower => .upper
  | .upper => .lower

theorem End.other_other (e : End) : e.other.other = e := by cases e <;> rfl

theorem End.other_ne (e : End) : e.other ≠ e := by cases e <;> nofun

theorem End.forall {p : End → Prop} (e : End) (here : p e) (there : p e.other) (e' : End) : p e' := by
  cases e <;> cases e' <;> assumption

def establishSecret (crates : RotationCrates) (suite : String) (secretKey : Bytes)
    (peers : PeerRegistry) (sender : String) (ciphertext : Bytes) :
    Except String Unit × PeerRegistry :=
  let fromOrr := crates.toLowercase sender
  if fromOrr = "" then (.error "from field required", peers)
  else if (peers.byOrr fromOrr).isNone then
    (.error s!"{fromOrr} is not a known ORR peer of this node", peers)
  else
    match crates.kemFor suite with
    | .error e => (.error s!"decap: {e}", peers)
    | .ok kem =>
      match kem.decap secretKey ciphertext with
      | .error e => (.error s!"decap: {e}", peers)
      | .ok secret =>
        let length := secret.length
        if length ≠ 32 then (.error s!"shared_secret unexpected len {length}", peers)
        else (.ok (), peers.resetForBootstrap fromOrr secret)

def Stage.ciphertext : Stage → Option Bytes
  | .calling _ ciphertext _ => some ciphertext
  | _ => none

def Task.window (task : Task) : Option Bytes :=
  match task.stage with
  | .answered _ secret true => some secret
  | .storing secret => some secret
  | _ => none

def Task.opens (task : Task) : Bool := task.window.isSome

def Task.pending (task : Task) : Bool :=
  task.kind = .passive &&
    match task.stage with
    | .refreshing | .calling _ _ _ | .answered _ _ true | .storing _ => true
    | _ => false

structure Couple where
  crates : RotationCrates
  suite : String
  orrId : End → String
  identity : End → Bytes × Bytes
  ordered : orrId .lower < orrId .upper

structure Bootstrapping where
  orr : End → Establisher
  completed : Nat

namespace Couple

inductive Act where
  | bootstrap (e : End) (addr : String)
  | passive (e : End) (now : Nat)
  | fetch (e : End) (task : Nat) (accepted : Bool) (coins : Nat)
  | goOn (e : End) (task : Nat) (event : Event)
  | handle (e : End) (task : Nat)
  | fail (e : End) (task : Nat)

variable (c : Couple)

def advance (st : Bootstrapping) (e : End) (task : Nat) (event : Event) : Bootstrapping :=
  { st with
    orr := update st.orr e ((st.orr e).advance c.crates c.suite (c.orrId e) task event) }

def next (st : Bootstrapping) : Act → Bootstrapping
  | .bootstrap e addr =>
    { st with orr := update st.orr e ((st.orr e).spawnOne (c.orrId e.other) addr) }
  | .passive e now =>
    { st with
      orr := update st.orr e ((st.orr e).triggerPassiveRebootstrap (c.orrId e.other) now) }
  | .fetch e task accepted coins =>
    -- without restarts the peer's key is the one it has
    c.advance st e task (.fetched (if accepted then some (c.identity e.other).1 else none) coins)
  | .goOn e task event =>
    match event with
    | .fetched _ _ => st
    | .answer _ => st
    | .store =>
      match (st.orr e).tasks[task]? with
      | some ⟨_, _, .storing _⟩ =>
        { c.advance st e task .store with completed := st.completed + 1 }
      | _ => st
    | event => c.advance st e task event
  | .handle e task =>
    match (st.orr e).tasks[task]? with
    | some ⟨_, _, .calling _ ciphertext _⟩ =>
      let (reply, peers) := establishSecret c.crates c.suite (c.identity e.other).2
        (st.orr e.other).peers (c.orrId e) ciphertext
      let st := { st with
        orr := update st.orr e.other { st.orr e.other with peers } }
      c.advance st e task (.answer reply.isOk)
    | _ => st
  | .fail e task => c.advance st e task (.answer false)

def run (st : Bootstrapping) (acts : List Act) : Bootstrapping := acts.foldl c.next st

def Holds (st : Bootstrapping) (e : End) (secret : Bytes) : Prop :=
  (st.orr e).peers.bootstrapSecrets (c.orrId e.other) = some secret ∧
    (st.orr e).peers.masterForEpoch (c.orrId e.other) 0 = some secret

def Quiescent (st : Bootstrapping) : Prop :=
  ∀ e, ∀ task ∈ (st.orr e).tasks, task.inFlight = false ∧ task.opens = false

def Apart (st : Bootstrapping) : Act → Prop
  | .fetch e n accepted coins =>
    ∀ task ∈ (st.orr e).tasks[n]?, task.kind = .passive → task.stage = .refreshing →
      accepted ∧ (attemptEstablish c.crates c.suite (c.identity e.other).1 coins).ciphertext.isSome
  | .handle e n =>
    (∀ task ∈ (st.orr e.other).tasks, task.opens = false) ∧
      (∀ task ∈ (st.orr e).tasks, task.kind = .bootstrap → task.opens = true → task.inFlight = true) ∧
      ∀ task ∈ (st.orr e).tasks[n]?, task.kind = .passive →
        ∀ ciphertext ∈ task.stage.ciphertext,
          (establishSecret c.crates c.suite (c.identity e.other).2 (st.orr e.other).peers
            (c.orrId e) ciphertext).1.isOk
  | .fail e n =>
    ∀ task ∈ (st.orr e).tasks[n]?, task.kind = .passive → task.stage.ciphertext = none
  | _ => True

instance (st : Bootstrapping) : ∀ act, Decidable (c.Apart st act) := by
  intro act
  rcases act with _ | _ <;> dsimp only [Apart] <;> infer_instance

def Genuine (peer : End) : Stage → Prop
  | .atHead pubkey | .checked pubkey | .answered pubkey _ _ => pubkey = (c.identity peer).1
  | .calling pubkey ciphertext secret =>
    pubkey = (c.identity peer).1 ∧ ∀ kem, c.crates.kemFor c.suite = .ok kem →
      kem.decap (c.identity peer).2 ciphertext = .ok secret
  | _ => True

def Pending (orr : Establisher) : Prop := ∃ task ∈ orr.tasks, task.pending

structure Kept (e : End) (orr : Establisher) : Prop where
  flagged : orr.Flagged
  peer : ∀ task ∈ orr.tasks, task.peer = c.orrId e.other
  key : ∀ pubkey, orr.peers.pubkeys (c.orrId e.other) = some pubkey → pubkey = (c.identity e.other).1
  genuine : ∀ task ∈ orr.tasks, c.Genuine e.other task.stage

structure Sound (st : Bootstrapping) : Prop where
  kept : ∀ e, c.Kept e (st.orr e)
  one : (st.orr .lower).tasks.countP Task.opens + (st.orr .upper).tasks.countP Task.opens ≤ 1
  opened : ∀ e, ∀ task ∈ (st.orr e).tasks, ∀ secret, task.window = some secret →
    c.Holds st e.other secret ∨ Pending (st.orr e.other)
  closed : (∀ e, ∀ task ∈ (st.orr e).tasks, task.window = none) →
    st.completed = 0 ∨ (∃ secret, ∀ e, c.Holds st e secret) ∨ ∃ e, Pending (st.orr e)

variable {c} {st : Bootstrapping}

theorem Sound.agreed (sound : c.Sound st) (quiet : Quiescent st) (some_done : 0 < st.completed) :
    ∃ secret, ∀ e, c.Holds st e secret := by
  have shut : ∀ e, ∀ task ∈ (st.orr e).tasks, task.window = none := by
    intro e task member
    have := (quiet e task member).2
    simpa [Task.opens] using this
  rcases sound.closed shut with nothing | agreed | ⟨e, task, member, pending⟩
  · omega
  · exact agreed
  -- a passive re-bootstrap that is to store something is in flight
  have idle := (quiet e task member).1
  obtain ⟨kind, peer, stage⟩ := task
  simp only [Task.pending, and_eq_true, decide_eq_true_eq] at pending
  obtain ⟨rfl, pending⟩ := pending
  revert pending idle
  cases stage with
  | answered pubkey secret ok => cases ok <;> simp [Task.inFlight]
  | _ => simp [Task.inFlight]

theorem countP_opens_eq_zero {tasks : List Task} :
    tasks.countP Task.opens = 0 ↔ ∀ task ∈ tasks, task.window = none := by
  simp [Task.opens]

theorem Sound.both (sound : c.Sound st) (e : End) :
    (st.orr e).tasks.countP Task.opens + (st.orr e.other).tasks.countP Task.opens ≤ 1 := by
  have one := sound.one
  cases e with
  | lower => exact one
  | upper => rwa [Nat.add_comm] at one

theorem Sound.of_ends {e : End} {orr peer : Establisher} (here : st.orr e = orr)
    (there : st.orr e.other = peer) (kept : c.Kept e orr) (keptPeer : c.Kept e.other peer)
    (one : orr.tasks.countP Task.opens + peer.tasks.countP Task.opens ≤ 1)
    (opened : ∀ task ∈ orr.tasks, ∀ secret, task.window = some secret →
      c.Holds st e.other secret ∨ Pending peer)
    (openedPeer : ∀ task ∈ peer.tasks, ∀ secret, task.window = some secret →
      c.Holds st e secret ∨ Pending orr)
    (closed : (∀ task ∈ orr.tasks, task.window = none) → (∀ task ∈ peer.tasks, task.window = none) →
      st.completed = 0 ∨ (∃ secret, ∀ e, c.Holds st e secret) ∨ ∃ e, Pending (st.orr e)) :
    c.Sound st := by
  subst here there
  refine ⟨e.forall kept keptPeer, ?_, e.forall opened ?_, fun shut => closed (shut e) (shut e.other)⟩
  · cases e with
    | lower => exact one
    | upper => rwa [Nat.add_comm] at one
  · rwa [End.other_other]

theorem Sound.quiet {e : End} {orr : Establisher} (sound : c.Sound st) (kept : c.Kept e orr)
    (count : orr.tasks.countP Task.opens = (st.orr e).tasks.countP Task.opens)
    (windows : ∀ task ∈ orr.tasks, ∀ secret, task.window = some secret →
      ∃ task' ∈ (st.orr e).tasks, task'.window = some secret)
    (pending : Pending (st.orr e) → Pending orr)
    (bootstraps : orr.peers.bootstrapSecrets = (st.orr e).peers.bootstrapSecrets)
    (masters : orr.peers.masterSecrets = (st.orr e).peers.masterSecrets) :
    c.Sound { st with orr := update st.orr e orr } := by
  generalize reached : ({ st with orr := update st.orr e orr } : Bootstrapping) = st'
  have here : st'.orr e = orr := reached ▸ update_self ..
  have there : st'.orr e.other = st.orr e.other := reached ▸ update_of_ne e.other_ne ..
  have holds : ∀ e' secret, c.Holds st e' secret → c.Holds st' e' secret := by
    unfold Holds masterForEpoch
    refine e.forall ?_ ?_
    · rw [here, bootstraps, masters]
      exact fun _ => id
    · rw [there]
      exact fun _ => id
  refine Sound.of_ends here there kept (sound.kept e.other) (count ▸ sound.both e) ?_ ?_ ?_
  · intro task member secret window
    obtain ⟨task', member', window'⟩ := windows task member secret window
    exact (sound.opened e task' member' secret window').imp_left (holds _ _)
  · intro task member secret window
    have before := sound.opened e.other task member secret window
    rw [End.other_other] at before
    exact before.imp (holds _ _) pending
  intro shut shutPeer
  rw [← countP_opens_eq_zero, count, countP_opens_eq_zero] at shut
  rcases sound.closed (e.forall shut shutPeer) with nothing | ⟨secret, agreed⟩ | ⟨e', held⟩
  · exact .inl (reached ▸ nothing)
  · exact .inr (.inl ⟨secret, fun e' => holds e' secret (agreed e')⟩)
  · refine .inr (.inr ⟨e', ?_⟩)
    revert held
    refine End.forall (p := fun e' => Pending (st.orr e') → Pending (st'.orr e')) e ?_ ?_ e'
    · rw [here]
      exact pending
    · rw [there]
      exact id

section

variable (correct : ∀ kem, c.crates.kemFor c.suite = .ok kem → kem.Correct)
  (keyed : ∀ e, ∃ seed, ∀ kem, c.crates.kemFor c.suite = .ok kem → kem.keygen seed = .ok (c.identity e))

include correct keyed in
theorem attemptEstablish_genuine (peer : End) (coins : Nat) :
    c.Genuine peer (attemptEstablish c.crates c.suite (c.identity peer).1 coins) := by
  unfold attemptEstablish
  split
  · rfl
  rename_i kem suited
  split
  · rfl
  rename_i ciphertext secret made
  split
  · rfl
  refine ⟨rfl, ?_⟩
  intro kem' suited'
  cases suited.symm.trans suited'
  obtain ⟨seed, generated⟩ := keyed peer
  exact correct kem suited seed _ _ coins ciphertext secret (generated kem suited) made

def Honest (peer : End) (event : Event) : Prop :=
  ∀ pubkey coins, event = .fetched (some pubkey) coins → pubkey = (c.identity peer).1

variable {peers : PeerRegistry} {stage : Stage} {moved : Moved}

variable {kind : TaskKind} {event : Event}

include correct keyed in
theorem Goes.genuine {peer : End}
    (goes : Task.Goes c.crates c.suite peers (c.orrId peer) kind stage event moved)
    (key : ∀ pubkey, peers.pubkeys (c.orrId peer) = some pubkey → pubkey = (c.identity peer).1)
    (genuine : c.Genuine peer stage) (honest : c.Honest peer event) : c.Genuine peer moved.stage ∧
      ∀ pubkey, moved.peers.pubkeys (c.orrId peer) = some pubkey → pubkey = (c.identity peer).1 := by
  have put : ∀ fresh pubkey, fresh = (c.identity peer).1 →
      (peers.putPubkey (c.orrId peer) fresh).pubkeys (c.orrId peer) = some pubkey →
      pubkey = (c.identity peer).1 := by
    intro fresh pubkey own found
    unfold putPubkey at found
    dsimp only at found
    rw [update_self] at found
    rw [← own, Option.some.inj found]
  cases goes with
  | stays => exact ⟨genuine, key⟩
  | keyFetched pubkey coins => exact ⟨trivial, fun _ => put _ _ (honest pubkey coins rfl)⟩
  | entered known => exact ⟨key _ known, key⟩
  | foundMissing => exact ⟨genuine, key⟩
  | busy => exact ⟨genuine, key⟩
  | marked pubkey coins =>
    obtain rfl : pubkey = (c.identity peer).1 := genuine
    exact ⟨attemptEstablish_genuine correct keyed peer coins, key⟩
  | handedBack pubkey secret ok =>
    cases ok
    · exact ⟨genuine, key⟩
    · exact ⟨trivial, key⟩
  | rotated rebootstrap => cases rebootstrap <;> exact ⟨trivial, key⟩
  | refreshed later pubkey coins =>
    have own := honest pubkey coins rfl
    refine ⟨?_, fun _ => put _ _ own⟩
    rw [own]
    exact attemptEstablish_genuine correct keyed peer coins
  | callEnded => exact ⟨genuine.1, key⟩
  | refused later pubkey secret now registered =>
    rcases registered with rfl | rfl <;> exact ⟨trivial, key⟩
  | stored later secret registered =>
    rcases registered with rfl | rfl <;> exact ⟨trivial, key⟩
  | released later rest => rcases rest with rfl | rfl <;> exact ⟨trivial, key⟩
  | _ => exact ⟨trivial, key⟩

variable {own : String} {kind : TaskKind} {event : Event} {orr : Establisher}
  {pubkey ciphertext secret : Bytes}

variable {task : Task}

theorem Goes.spawned_eq (goes : Task.Goes c.crates c.suite peers own kind stage event moved)
    (member : task ∈ moved.spawned) : task = ⟨.rotation, own, .sleeping⟩ := by
  cases goes with
  | spawned few =>
    rcases few with rfl | rfl
    · cases member
    · exact mem_singleton.mp member
  | _ => cases member

variable {e : End}

include correct keyed in
theorem Kept.advance {orr : Establisher} (kept : c.Kept e orr) (n : Nat) (event : Event)
    (honest : c.Honest e.other event) :
    c.Kept e (orr.advance c.crates c.suite (c.orrId e) n event) := by
  have flagged : (orr.advance c.crates c.suite (c.orrId e) n event).Flagged := kept.flagged.advance n event
  have moves : orr.advance c.crates c.suite (c.orrId e) n event = _ ∨ _ := orr.advance_cases n event
  rcases moves with same | ⟨task, moved, held, -, goes, moves⟩
  · rw [same]
    exact kept
  have member := mem_of_getElem? held
  have own := kept.peer task member
  rw [own] at goes
  obtain ⟨genuine, key⟩ := Goes.genuine correct keyed goes kept.key (kept.genuine task member) honest
  rw [moves] at flagged ⊢
  have each : ∀ task' ∈ orr.tasks.set n ⟨task.kind, task.peer, moved.stage⟩ ++ moved.spawned,
      task'.peer = c.orrId e.other ∧ c.Genuine e.other task'.stage := by
    intro task' member'
    rcases mem_append.mp member' with changed | new
    · rcases mem_or_eq_of_mem_set changed with old | same
      · exact ⟨kept.peer task' old, kept.genuine task' old⟩
      · rw [same]
        exact ⟨own, genuine⟩
    · rw [Goes.spawned_eq goes new]
      exact ⟨rfl, trivial⟩
  exact ⟨flagged, fun task' member' => (each task' member').1, key,
    fun task' member' => (each task' member').2⟩

theorem attemptEstablish_window (kind : TaskKind) (own : String) (pubkey : Bytes) (coins : Nat) :
    Task.window ⟨kind, own, attemptEstablish c.crates c.suite pubkey coins⟩ = none := by
  unfold attemptEstablish
  split
  · rfl
  split
  · rfl
  · split <;> rfl

theorem Goes.window (goes : Task.Goes c.crates c.suite peers own kind stage event moved)
    (unanswered : event ≠ .answer true) (unstored : event ≠ .store) :
    Task.window ⟨kind, own, moved.stage⟩ = Task.window ⟨kind, own, stage⟩ := by
  cases goes with
  | marked pubkey coins => exact attemptEstablish_window _ own pubkey coins
  | refreshed later pubkey coins => exact attemptEstablish_window _ own pubkey coins
  | handedBack pubkey secret ok => cases ok <;> rfl
  | rotated rebootstrap => cases rebootstrap <;> rfl
  | callEnded kind pubkey ciphertext secret ok =>
    cases ok
    · rfl
    · exact absurd rfl unanswered
  | storedLate => exact absurd rfl unstored
  | stored => exact absurd rfl unstored
  | released later rest => rcases rest with rfl | rfl <;> rfl
  | _ => rfl

theorem Goes.secrets
    (goes : Task.Goes c.crates c.suite peers own kind stage event moved) (unstored : event ≠ .store) :
    moved.peers.bootstrapSecrets = peers.bootstrapSecrets ∧
      moved.peers.masterSecrets = peers.masterSecrets := by
  cases goes with
  | storedLate => exact absurd rfl unstored
  | stored => exact absurd rfl unstored
  | refused later pubkey secret now registered => rcases registered with rfl | rfl <;> exact ⟨rfl, rfl⟩
  | _ => exact ⟨rfl, rfl⟩

variable {n : Nat}

include correct keyed in
theorem Sound.advance (sound : c.Sound st) (event : Event)
    (honest : c.Honest e.other event) (unanswered : event ≠ .answer true)
    (unstored : event ≠ .store) (pending : ∀ task, (st.orr e).tasks[n]? = some task → task.pending →
      Task.pending { task with
        stage := (task.next c.crates c.suite (c.orrId e) (st.orr e).peers event).stage }) :
    c.Sound (c.advance st e n event) := by
  have kept := (sound.kept e).advance correct keyed n event honest
  unfold Couple.advance
  have moves : (st.orr e).advance c.crates c.suite (c.orrId e) n event = _ ∨ _ :=
    (st.orr e).advance_cases n event
  rcases moves with same | ⟨task, moved, held, next, goes, moves⟩
  · rw [same, update_eq_self]
    exact sound
  rw [moves] at kept ⊢
  have same := Goes.window goes unanswered unstored
  obtain ⟨bootstraps, masters⟩ := Goes.secrets goes unstored
  refine sound.quiet kept ?_ ?_ ?_ bootstraps masters
  · have replaced := countP_set (p := Task.opens) held ⟨task.kind, task.peer, moved.stage⟩
    have opens : Task.opens ⟨task.kind, task.peer, moved.stage⟩ = task.opens := congrArg Option.isSome same
    have none_new : moved.spawned.countP Task.opens = 0 := by
      rw [countP_opens_eq_zero]
      intro task' member
      rw [Goes.spawned_eq goes member]
      rfl
    rw [countP_append, none_new]
    rw [opens] at replaced
    omega
  · intro task' member secret window
    rcases mem_append.mp member with changed | new
    · rcases mem_or_eq_of_mem_set changed with old | replaced
      · exact ⟨task', old, window⟩
      · rw [replaced] at window
        exact ⟨task, mem_of_getElem? held, same.symm.trans window⟩
    · rw [Goes.spawned_eq goes new] at window
      cases window
  rintro ⟨waiting, member, waits⟩
  rcases eq_or_mem_set held member ⟨task.kind, task.peer, moved.stage⟩ with rfl | still
  · refine ⟨_, mem_append_left _ (mem_set_self held _), ?_⟩
    rw [next]
    exact pending waiting held waits
  · exact ⟨waiting, mem_append_left _ still, waits⟩

theorem Sound.spawnOne (sound : c.Sound st) (e : End) (addr : String) :
    c.Sound { st with
      orr := update st.orr e ((st.orr e).spawnOne (c.orrId e.other) addr) } := by
  have kept := sound.kept e
  have started : ∀ task ∈ ((st.orr e).spawnOne (c.orrId e.other) addr).tasks, task ∈ (st.orr e).tasks ∨
      task.peer = c.orrId e.other ∧ c.Genuine e.other task.stage ∧ task.window = none := by
    intro task member
    rcases mem_append.mp member with old | new
    · exact .inl old
    rw [mem_singleton.mp new]
    refine .inr ⟨rfl, ?_⟩
    split <;> exact ⟨trivial, rfl⟩
  refine sound.quiet ⟨kept.flagged.spawnOne _ addr, ?_, kept.key, ?_⟩ ?_ ?_ ?_ rfl rfl
  · intro task member
    rcases started task member with old | ⟨own, -, -⟩
    · exact kept.peer task old
    · exact own
  · intro task member
    rcases started task member with old | ⟨-, genuine, -⟩
    · exact kept.genuine task old
    · exact genuine
  · unfold Establisher.spawnOne
    have shut : Task.opens ⟨.bootstrap, c.orrId e.other,
        if ((st.orr e).peers.pubkeys (c.orrId e.other)).isNone then .fetchingKey
        else .entering⟩ = false := by
      split <;> rfl
    rw [countP_append, countP_singleton, shut]
    rfl
  · intro task member secret window
    rcases started task member with old | ⟨-, -, shut⟩
    · exact ⟨task, old, window⟩
    · cases window.symm.trans shut
  · rintro ⟨task, member, waits⟩
    exact ⟨task, mem_append_left _ member, waits⟩

theorem Sound.trigger (sound : c.Sound st) (e : End) (now : Nat) :
    c.Sound { st with
      orr := update st.orr e
        ((st.orr e).triggerPassiveRebootstrap (c.orrId e.other) now) } := by
  have kept := sound.kept e
  have flagged := kept.flagged.trigger (c.orrId e.other) now
  rcases (st.orr e).trigger_cases (c.orrId e.other) now with ⟨-, stays⟩ | ⟨-, started⟩
  · rw [stays, update_eq_self]
    exact sound
  rw [started] at flagged ⊢
  generalize renewed : (⟨_, (st.orr e).tasks ++ [⟨.passive, c.orrId e.other, .refreshing⟩]⟩ :
    Establisher) = orr at flagged ⊢
  have tasks : orr.tasks = (st.orr e).tasks ++ [⟨.passive, c.orrId e.other, .refreshing⟩] := by
    rw [← renewed]
  have key : orr.peers.pubkeys = (st.orr e).peers.pubkeys := by
    rw [← renewed]
    rfl
  have pending : Pending orr := by
    refine ⟨⟨.passive, c.orrId e.other, .refreshing⟩, ?_, rfl⟩
    rw [tasks]
    exact mem_append_right _ (mem_singleton.mpr rfl)
  have count : orr.tasks.countP Task.opens = (st.orr e).tasks.countP Task.opens := by
    rw [tasks, countP_append]
    rfl
  have member_cases : ∀ task ∈ orr.tasks, task ∈ (st.orr e).tasks ∨
      task = ⟨.passive, c.orrId e.other, .refreshing⟩ := by
    intro task member
    rw [tasks] at member
    rcases mem_append.mp member with old | new
    · exact .inl old
    · exact .inr (mem_singleton.mp new)
  refine Sound.of_ends (update_self ..) (update_of_ne e.other_ne ..) ⟨flagged, ?_, key ▸ kept.key, ?_⟩
    (sound.kept e.other) (count ▸ sound.both e) ?_ (fun _ _ _ _ => .inr pending)
    fun _ _ => .inr (.inr ⟨e, (congrArg Pending (update_self ..)).mpr pending⟩)
  · intro task member
    rcases member_cases task member with old | rfl
    · exact kept.peer task old
    · rfl
  · intro task member
    rcases member_cases task member with old | rfl
    · exact kept.genuine task old
    · trivial
  intro task member secret window
  -- a window of the end itself: what the other end holds has not changed
  have before : c.Holds st e.other secret ∨ Pending (st.orr e.other) := by
    rcases member_cases task member with old | rfl
    · exact sound.opened e task old secret window
    · cases window
  unfold Holds at before ⊢
  dsimp only
  rw [update_of_ne e.other_ne]
  exact before

theorem establishSecret_cases (crates : RotationCrates) (suite : String) (secretKey : Bytes)
    (peers : PeerRegistry) (sender : String) (ciphertext : Bytes) :
    (∃ text, establishSecret crates suite secretKey peers sender ciphertext = (.error text, peers)) ∨
      ∃ kem secret, crates.kemFor suite = .ok kem ∧
        kem.decap secretKey ciphertext = .ok secret ∧
        establishSecret crates suite secretKey peers sender ciphertext =
          (.ok (), peers.resetForBootstrap (crates.toLowercase sender) secret) := by
  unfold establishSecret
  dsimp only
  split
  · exact .inl ⟨_, rfl⟩
  split
  · exact .inl ⟨_, rfl⟩
  split
  · exact .inl ⟨_, rfl⟩
  rename_i kem suited
  split
  · exact .inl ⟨_, rfl⟩
  rename_i secret opened
  split
  · exact .inl ⟨_, rfl⟩
  exact .inr ⟨kem, secret, suited, opened, rfl⟩

theorem Kept.shut (kept : c.Kept e orr)
    (held : orr.tasks[n]? = some ⟨kind, own, .calling pubkey ciphertext secret⟩)
    (bootstraps : ∀ task ∈ orr.tasks, task.kind = .bootstrap → task.opens = true → task.inFlight = true) :
    ∀ task ∈ orr.tasks, task.window = none := by
  intro task member
  by_contra opened
  have opens : task.opens = true := by
    exact Option.isSome_iff_ne_none.mpr opened
  have flies : task.inFlight = true := by
    by_cases boot : task.kind = .bootstrap
    · exact bootstraps task member boot opens
    obtain ⟨kind', own', stage⟩ := task
    revert opened
    cases kind' with
    | bootstrap => exact absurd rfl boot
    | _ => cases stage <;> simp [Task.window, Task.inFlight]
  have calls : Task.inFlightWith (c.orrId e.other) ⟨kind, own, .calling pubkey ciphertext secret⟩ := by
    have := kept.peer _ (mem_of_getElem? held)
    dsimp only at this
    cases kind <;> simp [Task.inFlightWith, Task.inFlight, this]
  have flies' : task.inFlightWith (c.orrId e.other) := by
    simp [Task.inFlightWith, kept.peer task member, flies]
  obtain ⟨i, found⟩ := mem_iff_getElem?.mp member
  have single := Nat.le_trans (kept.flagged (c.orrId e.other)) (toNat_le _)
  have same := index_unique single found held flies' calls
  subst same
  cases found.symm.trans held
  exact opened rfl

theorem advance_answer {localOrrId : String}
    (held : orr.tasks[n]? = some ⟨kind, own, .calling pubkey ciphertext secret⟩) (ok : Bool) :
    orr.advance c.crates c.suite localOrrId n (.answer ok) =
      ⟨orr.peers, orr.tasks.set n ⟨kind, own, .answered pubkey secret ok⟩⟩ := by
  unfold Establisher.advance
  rw [held]
  cases kind <;> simp [Task.next]

theorem Sound.taken (sound : c.Sound st)
    (held : (st.orr e).tasks[n]? = some ⟨kind, own, .calling pubkey ciphertext secret⟩)
    (others : ∀ task ∈ (st.orr e.other).tasks, task.window = none)
    (ours : ∀ task ∈ (st.orr e).tasks, task.window = none) (kept : c.Kept e orr)
    (tasks : orr.tasks = (st.orr e).tasks.set n ⟨kind, own, .answered pubkey secret true⟩) :
    c.Sound { st with
      orr := update
        (update st.orr e.other { st.orr e.other with
          peers := (st.orr e.other).peers.resetForBootstrap (c.orrId e) secret }) e orr } := by
  generalize stored : ({ st.orr e.other with
    peers := (st.orr e.other).peers.resetForBootstrap (c.orrId e) secret } : Establisher) = peer
  have peerTasks : peer.tasks = (st.orr e.other).tasks := by rw [← stored]
  have here : update (update st.orr e.other peer) e orr e = orr := update_self ..
  have there : update (update st.orr e.other peer) e orr e.other = peer := by
    rw [update_of_ne e.other_ne, update_self]
  have count : orr.tasks.countP Task.opens = 1 := by
    have before := countP_opens_eq_zero.mpr ours
    have replaced := countP_set (p := Task.opens) held ⟨kind, own, .answered pubkey secret true⟩
    have opens : Task.opens ⟨kind, own, .answered pubkey secret true⟩ = true := rfl
    have shut : Task.opens ⟨kind, own, .calling pubkey ciphertext secret⟩ = false := rfl
    rw [before] at replaced
    rw [tasks]
    exact replaced
  have peerCount : peer.tasks.countP Task.opens = 0 := by
    rw [peerTasks]
    exact countP_opens_eq_zero.mpr others
  have keptPeer : c.Kept e.other peer := by
    have before := sound.kept e.other
    rw [← stored]
    exact ⟨before.flagged, before.peer, before.key, before.genuine⟩
  refine Sound.of_ends here there kept keptPeer (by rw [count, peerCount]) ?_ ?_ ?_
  · intro task member secret' window
    left
    rw [tasks] at member
    have same : secret' = secret := by
      rcases mem_or_eq_of_mem_set member with old | rfl
      · cases window.symm.trans (ours task old)
      · exact (Option.some.inj window).symm
    unfold Holds
    dsimp only
    rw [there, End.other_other, same, ← stored]
    constructor
    · exact update_self ..
    unfold masterForEpoch resetForBootstrap
    dsimp only
    rw [update_self, TreeMap.getElem?_insert_self]
  · intro task member secret' window
    rw [peerTasks] at member
    cases window.symm.trans (others task member)
  · intro shut
    have := countP_opens_eq_zero.mpr shut
    omega

include correct keyed in
theorem Sound.handle (lower : ∀ e, c.crates.toLowercase (c.orrId e) = c.orrId e)
    (sound : c.Sound st) (apart : c.Apart st (.handle e n)) :
    c.Sound (c.next st (.handle e n)) := by
  simp only [next]
  split
  swap
  · exact sound
  rename_i kind own pubkey ciphertext secret held
  obtain ⟨others, bootstraps, succeeds⟩ := apart
  rcases establishSecret_cases c.crates c.suite (c.identity e.other).2 (st.orr e.other).peers
    (c.orrId e) ciphertext with ⟨text, refused⟩ | ⟨kem, secret', suited, opened, taken⟩
  · rw [refused]
    dsimp only
    rw [update_eq_self]
    refine sound.advance correct keyed (.answer false) nofun nofun nofun ?_
    intro task held' waits
    cases held.symm.trans held'
    simp only [Task.pending, and_eq_true, decide_eq_true_eq] at waits
    have := succeeds _ held waits.1 ciphertext rfl
    rw [refused] at this
    cases this
  have kept := sound.kept e
  have same : secret' = secret := by
    have genuine := (kept.genuine _ (mem_of_getElem? held)).2 kem suited
    exact Except.ok.inj (opened.symm.trans genuine)
  have answer := kept.advance correct keyed n (.answer true) nofun
  have unchanged : update st.orr e.other { st.orr e.other with
      peers := (st.orr e.other).peers.resetForBootstrap (c.orrId e) secret } e = st.orr e :=
    update_of_ne e.other_ne.symm ..
  rw [taken, lower, same]
  unfold Couple.advance
  dsimp only
  rw [unchanged]
  apply sound.taken held _ (kept.shut held bootstraps) answer
  · exact congrArg Establisher.tasks (advance_answer held true)
  intro task member
  have := others task member
  simpa [Task.opens] using this

theorem advance_store (localOrrId : String)
    (held : orr.tasks[n]? = some ⟨kind, own, .storing secret⟩) :
    ∃ stage, Task.window ⟨kind, own, stage⟩ = none ∧
      (orr.advance c.crates c.suite localOrrId n .store).tasks = orr.tasks.set n ⟨kind, own, stage⟩ ∧
      (orr.advance c.crates c.suite localOrrId n .store).peers.bootstrapSecrets own = some secret ∧
      (orr.advance c.crates c.suite localOrrId n .store).peers.masterForEpoch own 0 =
        some secret := by
  unfold Establisher.advance
  rw [held]
  cases kind with
  | bootstrap =>
    refine ⟨.spawning, rfl, ?_⟩
    simp [Task.next, resetForBootstrap, masterForEpoch]
  | rotation =>
    refine ⟨.releasing, rfl, ?_⟩
    simp [Task.next, resetForBootstrap, masterForEpoch]
  | passive =>
    refine ⟨.releasing, rfl, ?_⟩
    simp [Task.next, resetForBootstrap, masterForEpoch, clearRebootstrapFailure]

include correct keyed in
theorem Sound.store {own : String} {secret : Bytes}
    (sound : c.Sound st) (held : (st.orr e).tasks[n]? = some ⟨kind, own, .storing secret⟩) :
    c.Sound { c.advance st e n .store with completed := st.completed + 1 } := by
  have kept := sound.kept e
  have after := kept.advance correct keyed n .store nofun
  have member := mem_of_getElem? held
  have peerId : own = c.orrId e.other := kept.peer _ member
  subst peerId
  obtain ⟨stage, shut, tasks, bootstrap, master⟩ := advance_store (c := c) (c.orrId e) held
  unfold Couple.advance
  dsimp only
  generalize (st.orr e).advance c.crates c.suite (c.orrId e) n .store = orr at *
  have here : update st.orr e orr e = orr := update_self ..
  have there : update st.orr e orr e.other = st.orr e.other := update_of_ne e.other_ne ..
  -- the window that closes was the only one
  have replaced := countP_set (p := Task.opens) held ⟨kind, c.orrId e.other, stage⟩
  have opened : Task.opens ⟨kind, c.orrId e.other, .storing secret⟩ = true := rfl
  have closed : Task.opens ⟨kind, c.orrId e.other, stage⟩ = false := by
    unfold Task.opens
    rw [shut]
    rfl
  rw [opened, closed, ← tasks] at replaced
  have before := sound.both e
  simp only [toNat_true, toNat_false] at replaced
  have shutHere : orr.tasks.countP Task.opens = 0 := by omega
  have shutThere : (st.orr e.other).tasks.countP Task.opens = 0 := by omega
  refine Sound.of_ends here there after (sound.kept e.other) (by rw [shutHere, shutThere]; decide) ?_ ?_ ?_
  · intro task member' secret' window
    cases window.symm.trans (countP_opens_eq_zero.mp shutHere task member')
  · intro task member' secret' window
    cases window.symm.trans (countP_opens_eq_zero.mp shutThere task member')
  intro _ _
  right
  rcases sound.opened e _ member secret rfl with agreed | renews
  · refine .inl ⟨secret, ?_⟩
    unfold Holds at agreed ⊢
    refine e.forall ?_ ?_
    · dsimp only
      rw [here]
      exact ⟨bootstrap, master⟩
    · dsimp only
      rw [there]
      exact agreed
  · exact .inr ⟨e.other, (congrArg Pending there).mpr renews⟩

theorem pending_next (crates : RotationCrates) (suite localOrrId : String) (peers : PeerRegistry)
    (waits : task.pending) (unfetched : ∀ pubkey coins, event ≠ .fetched pubkey coins)
    (unanswered : ∀ ok, event ≠ .answer ok) (unstored : event ≠ .store) :
    Task.pending { task with stage := (task.next crates suite localOrrId peers event).stage } := by
  obtain ⟨kind, own, stage⟩ := task
  simp only [Task.pending, and_eq_true, decide_eq_true_eq] at waits
  obtain ⟨rfl, waits⟩ := waits
  cases event with
  | fetched pubkey coins => exact absurd rfl (unfetched pubkey coins)
  | answer ok => exact absurd rfl (unanswered ok)
  | store => exact absurd rfl unstored
  | _ =>
    cases stage with
    | answered pubkey secret ok =>
      cases ok with
      | true => rfl
      | false => cases waits
    | _ => first | rfl | cases waits

include correct keyed in
theorem Sound.fetch {accepted : Bool} {coins : Nat} (sound : c.Sound st)
    (apart : c.Apart st (.fetch e n accepted coins)) :
    c.Sound (c.next st (.fetch e n accepted coins)) := by
  simp only [next]
  refine sound.advance correct keyed _ ?_ nofun nofun ?_
  · intro pubkey coins' same
    cases accepted
    · cases same
    · exact (Option.some.inj (Event.fetched.inj same).1).symm
  intro task held waits
  obtain ⟨kind, own, stage⟩ := task
  simp only [Task.pending, Bool.and_eq_true, decide_eq_true_eq] at waits
  obtain ⟨rfl, waits⟩ := waits
  cases stage with
  | refreshing =>
    obtain ⟨rfl, calls⟩ := apart _ held rfl rfl
    revert calls
    simp only [if_true, Task.next, Task.pending, decide_true, Bool.true_and]
    cases attemptEstablish c.crates c.suite (c.identity e.other).1 coins <;>
      simp [Stage.ciphertext]
  | answered pubkey secret ok =>
    cases ok with
    | true => cases accepted <;> rfl
    | false => cases waits
  | _ => first | (cases accepted <;> rfl) | cases waits

include correct keyed in
theorem Sound.fail (sound : c.Sound st) (apart : c.Apart st (.fail e n)) :
    c.Sound (c.next st (.fail e n)) := by
  simp only [next]
  refine sound.advance correct keyed _ nofun nofun nofun ?_
  intro task held waits
  obtain ⟨kind, own, stage⟩ := task
  simp only [Task.pending, and_eq_true, decide_eq_true_eq] at waits
  obtain ⟨rfl, waits⟩ := waits
  cases stage with
  | calling pubkey ciphertext secret => cases apart _ held rfl
  | answered pubkey secret ok =>
    cases ok with
    | true => rfl
    | false => cases waits
  | _ => first | rfl | cases waits

include correct keyed in
theorem Sound.goOn (sound : c.Sound st) :
    c.Sound (c.next st (.goOn e n event)) := by
  have quiet : (∀ pubkey coins, event ≠ .fetched pubkey coins) → (∀ ok, event ≠ .answer ok) →
      event ≠ .store → c.Sound (c.advance st e n event) := by
    intro unfetched unanswered unstored
    refine sound.advance correct keyed event ?_ (unanswered true) unstored ?_
    · intro pubkey coins same
      exact absurd same (unfetched _ _)
    · intro task _ waits
      exact pending_next _ _ _ _ waits unfetched unanswered unstored
  cases event with
  | fetched pubkey coins => exact sound
  | answer ok => exact sound
  | store =>
    simp only [next]
    split
    · rename_i held
      exact sound.store correct keyed held
    · exact sound
  | _ => exact quiet nofun nofun nofun

end

def start (peers : End → PeerRegistry) : Bootstrapping := ⟨fun e => ⟨peers e, []⟩, 0⟩

theorem start_sound {peers : End → PeerRegistry}
    (keys : ∀ e pubkey, (peers e).pubkeys (c.orrId e.other) = some pubkey →
      pubkey = (c.identity e.other).1) : c.Sound (start peers) where
  kept e := ⟨fun _ => Nat.zero_le _, nofun, keys e, nofun⟩
  one := Nat.zero_le 1
  opened := nofun
  closed _ := .inl rfl

/-- In every run in which the attempts of the two ends stay apart and no passive one fails, once
nothing is in flight and something was completed both ends hold one secret. -/
theorem bootstrap_agreed (c : Couple) (lower : ∀ e, c.crates.toLowercase (c.orrId e) = c.orrId e)
    (correct : ∀ kem, c.crates.kemFor c.suite = .ok kem → kem.Correct)
    (keyed : ∀ e, ∃ seed, ∀ kem, c.crates.kemFor c.suite = .ok kem → kem.keygen seed = .ok (c.identity e))
    (peers : End → PeerRegistry)
    (keys : ∀ e pubkey, (peers e).pubkeys (c.orrId e.other) = some pubkey → pubkey = (c.identity e.other).1)
    (acts : List Act) (apart : Follows c.next c.Apart (start peers) acts)
    (quiet : Quiescent (c.run (start peers) acts)) (done : 0 < (c.run (start peers) acts).completed) :
    ∃ secret, ∀ e, c.Holds (c.run (start peers) acts) e secret := by
  have keeps : ∀ st act, c.Sound st → c.Apart st act → c.Sound (c.next st act) := by
    intro st act sound apart
    cases act with
    | bootstrap e addr => exact sound.spawnOne e addr
    | passive e now => exact sound.trigger e now
    | fetch e n accepted coins => exact sound.fetch correct keyed apart
    | goOn e n event => exact sound.goOn correct keyed
    | handle e n => exact sound.handle correct keyed lower apart
    | fail e n => exact sound.fail correct keyed apart
  have sound : c.Sound (c.run (start peers) acts) := apart.invariant keeps (start_sound keys)
  exact sound.agreed quiet done

def byteCouple : Couple where
  crates := byteCrates
  suite := "ML-KEM-768"
  orrId
    | .lower => "orr_a"
    | .upper => "orr_b"
  identity
    | .lower => ([1], [1])
    | .upper => ([2], [2])
  ordered := by decide

def acquainted : End → PeerRegistry
  | .lower => new.put "orr_b" 2
  | .upper => new.put "orr_a" 1

def bothStarted : List Act :=
  [.bootstrap .lower "http://b", .bootstrap .upper "http://a", .fetch .lower 0 true 0,
    .fetch .upper 0 true 0, .goOn .lower 0 .enter, .goOn .upper 0 .enter, .goOn .lower 0 .check,
    .goOn .lower 0 (.mark 9)]

def lowerFinishes : List Act := [.goOn .lower 0 (.reply 0), .goOn .lower 0 .store]

def upperRenews : List Act :=
  [.passive .upper 0, .fetch .upper 1 true 5, .handle .upper 1]

def upperFinishes : List Act :=
  [.goOn .upper 1 (.reply 0), .goOn .upper 1 .store, .goOn .upper 1 .release]

theorem quiescent_iff (st : Bootstrapping) :
    Quiescent st ↔ (∀ task ∈ (st.orr .lower).tasks, task.inFlight = false ∧ task.opens = false) ∧
      ∀ task ∈ (st.orr .upper).tasks, task.inFlight = false ∧ task.opens = false := by
  constructor
  · exact fun quiet => ⟨quiet .lower, quiet .upper⟩
  rintro ⟨first, second⟩ (_ | _)
  · exact first
  · exact second

theorem bootstrap_agreed_one_after_the_other :
    ∃ secret, ∀ e, byteCouple.Holds (byteCouple.run (start acquainted)
      (bothStarted ++ [.handle .lower 0] ++ lowerFinishes ++ upperRenews ++ upperFinishes)) e
        secret := by
  apply bootstrap_agreed byteCouple (fun _ => rfl)
  · rintro kem ⟨⟩
    exact byteKem_correct
  · rintro (_ | _)
    · exact ⟨1, by rintro kem ⟨⟩; rfl⟩
    · exact ⟨2, by rintro kem ⟨⟩; rfl⟩
  · rintro (_ | _) pubkey ⟨⟩
  · decide +kernel
  · rw [quiescent_iff]
    decide +kernel
  · decide +kernel

/-- The peer takes the secret of the lower end's bootstrap and renews before the lower end has
stored it: each end is left with the secret that it made itself. -/
theorem crossed_attempts_disagree :
    let st := byteCouple.run (start acquainted)
      (bothStarted ++ [.handle .lower 0] ++ upperRenews ++ lowerFinishes ++ upperFinishes)
    Quiescent st ∧ st.completed = 2 ∧
      (st.orr .lower).peers.bootstrapSecrets "orr_b" = some (padded [2, 9]) ∧
      (st.orr .upper).peers.bootstrapSecrets "orr_a" = some (padded [1, 5]) := by
  dsimp only
  rw [quiescent_iff]
  decide +kernel

end Couple

end Dkms.Orr
