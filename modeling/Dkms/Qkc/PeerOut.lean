import Dkms.Core.Runs
import Dkms.Wire.Frame

namespace Dkms.Qkc

open List Function Dkms.Core Dkms.Wire

def queueCapacity : Nat := 32768

/-- A frame that was handed to `PeerOut::send`, with the address of the link to that neighbour
that was installed at that moment. -/
structure SentFrame where
  frame : Frame
  installed : Option String
  deriving DecidableEq

/-- `PeerSlot`: the writer connects to the address that the slot was created with. -/
structure PeerSlot where
  addr : String
  queue : List SentFrame
  connected : Bool

structure Written where
  sent : SentFrame
  addr : String
  deriving DecidableEq

/-- The links of a `QkcService` and its `PeerOut`. `mounted` are the neighbour and address of all
links that were built, since their workers and their handshake go on after `remove_link`. -/
structure Outgoing where
  links : UInt32 → Option String
  slots : UInt32 → Option PeerSlot
  mounted : List (UInt32 × String)
  written : List Written

/-- `addLink` is told whether `build_link` succeeds and whether the link's `spawn_rotation` asks
for the reconnect signal; `linkSend` is a NOTIFY or handshake frame of a link that was
mounted; the last three are the writer of a slot. -/
inductive OutAct where
  | addLink (neighbor : UInt32) (addr : String) (built rotates : Bool)
  | removeLink (neighbor : UInt32)
  | sendFrame (neighbor : UInt32) (frame : Frame)
  | linkSend (link : Nat) (frame : Frame)
  | connect (neighbor : UInt32)
  | hangUp (neighbor : UInt32)
  | write (neighbor : UInt32) (ok : Bool)

namespace Outgoing

def new : Outgoing := ⟨fun _ => none, fun _ => none, [], []⟩

variable (o : Outgoing)

/-- A slot that exists is used as it is, whatever address is given. -/
def getOrCreate (peer : UInt32) (addr : String) : PeerSlot :=
  (o.slots peer).getD ⟨addr, [], false⟩

def setSlot (peer : UInt32) (slot : PeerSlot) : Outgoing :=
  { o with slots := update o.slots peer (some slot) }

def send (peer : UInt32) (addr : String) (frame : Frame) : Outgoing :=
  let slot := o.getOrCreate peer addr
  if slot.queue.length < queueCapacity then
    o.setSlot peer { slot with queue := slot.queue ++ [⟨frame, o.links peer⟩] }
  else o.setSlot peer slot

def addLink (neighbor : UInt32) (addr : String) (built rotates : Bool) : Outgoing :=
  match o.links neighbor with
  | some _ => o
  | none =>
    if built then
      let o := { o with
        links := update o.links neighbor (some addr)
        mounted := o.mounted ++ [(neighbor, addr)] }
      if rotates then o.setSlot neighbor (o.getOrCreate neighbor addr) else o
    else o

def write (peer : UInt32) (ok : Bool) : Outgoing :=
  match o.slots peer with
  | some ⟨addr, sent :: queue, true⟩ =>
    if ok then { o.setSlot peer ⟨addr, queue, true⟩ with written := o.written ++ [⟨sent, addr⟩] }
    else o.setSlot peer ⟨addr, queue, false⟩
  | _ => o

def next : OutAct → Outgoing
  | .addLink neighbor addr built rotates => o.addLink neighbor addr built rotates
  | .removeLink neighbor => { o with links := update o.links neighbor none }
  | .sendFrame neighbor frame =>
    match o.links neighbor with
    | none => o
    | some addr => o.send neighbor addr frame
  | .linkSend link frame =>
    match o.mounted[link]? with
    | none => o
    | some (neighbor, addr) => o.send neighbor addr frame
  | .connect peer =>
    match o.slots peer with
    | none => o
    | some slot => o.setSlot peer { slot with connected := true }
  | .hangUp peer =>
    match o.slots peer with
    | none => o
    | some slot => o.setSlot peer { slot with connected := false }
  | .write peer ok => o.write peer ok

def run (acts : List OutAct) : Outgoing := acts.foldl next o

end Outgoing

/-- A link is mounted with the address that every earlier link to that neighbour had. -/
def OutAct.Steady (o : Outgoing) : OutAct → Prop
  | .addLink neighbor addr built _ => o.links neighbor = none → built = true →
    ∀ link ∈ o.mounted, link.1 = neighbor → link.2 = addr
  | _ => True

instance (o : Outgoing) (act : OutAct) : Decidable (act.Steady o) := by
  rcases act with _ | _ <;> dsimp only [OutAct.Steady] <;> infer_instance

namespace Outgoing

structure Aligned (o : Outgoing) : Prop where
  same : ∀ link ∈ o.mounted, ∀ link' ∈ o.mounted, link.1 = link'.1 → link.2 = link'.2
  links : ∀ n addr, o.links n = some addr → (n, addr) ∈ o.mounted
  slots : ∀ n slot, o.slots n = some slot → (n, slot.addr) ∈ o.mounted
  queued : ∀ n slot, o.slots n = some slot → ∀ sent ∈ slot.queue, ∀ addr,
    sent.installed = some addr → slot.addr = addr
  written : ∀ w ∈ o.written, ∀ addr, w.sent.installed = some addr → w.addr = addr

theorem new_aligned : new.Aligned := by
  refine ⟨?_, ?_, ?_, ?_, ?_⟩
  · exact fun link member => absurd member not_mem_nil
  · exact fun n addr here => nomatch here
  · exact fun n slot here => nomatch here
  · exact fun n slot here => nomatch here
  · exact fun w member => absurd member not_mem_nil

namespace Aligned

variable {o : Outgoing}

section

variable (aligned : o.Aligned)
include aligned

variable {peer : UInt32}

theorem setSlot (slot : PeerSlot) (known : (peer, slot.addr) ∈ o.mounted)
    (queued : ∀ sent ∈ slot.queue, ∀ addr, sent.installed = some addr → slot.addr = addr) :
    (o.setSlot peer slot).Aligned := by
  have either : ∀ n found, (o.setSlot peer slot).slots n = some found →
      n = peer ∧ found = slot ∨ o.slots n = some found := by
    intro n found here
    dsimp only [Outgoing.setSlot] at here
    by_cases mine : n = peer
    · subst mine
      rw [update_self] at here
      exact .inl ⟨rfl, (Option.some.inj here).symm⟩
    · rw [update_of_ne mine] at here
      exact .inr here
  refine ⟨aligned.same, aligned.links, ?_, ?_, aligned.written⟩
  · intro n found here
    rcases either n found here with ⟨rfl, rfl⟩ | old
    · exact known
    · exact aligned.slots n found old
  intro n found here
  rcases either n found here with ⟨rfl, rfl⟩ | old
  · exact queued
  · exact aligned.queued n found old

variable {addr : String}

theorem getOrCreate (known : (peer, addr) ∈ o.mounted) :
    (peer, (o.getOrCreate peer addr).addr) ∈ o.mounted ∧
      ∀ sent ∈ (o.getOrCreate peer addr).queue, ∀ installed, sent.installed = some installed →
        (o.getOrCreate peer addr).addr = installed := by
  unfold Outgoing.getOrCreate
  cases found : o.slots peer with
  | none => exact ⟨known, fun sent member => absurd member not_mem_nil⟩
  | some slot => exact ⟨aligned.slots peer slot found, aligned.queued peer slot found⟩

theorem send (frame : Frame) (known : (peer, addr) ∈ o.mounted) :
    (o.send peer addr frame).Aligned := by
  obtain ⟨mounted, queued⟩ := aligned.getOrCreate known
  unfold Outgoing.send
  dsimp only
  generalize o.getOrCreate peer addr = slot at mounted queued ⊢
  split
  · apply aligned.setSlot { slot with queue := slot.queue ++ [⟨frame, o.links peer⟩] } mounted
    intro sent member installed here
    rcases mem_append.mp member with old | new
    · exact queued sent old installed here
    rw [mem_singleton] at new
    subst new
    exact aligned.same _ mounted _ (aligned.links peer installed here) rfl
  · exact aligned.setSlot _ mounted queued

theorem addLink {neighbor : UInt32} {built rotates : Bool}
    (steady : OutAct.Steady o (.addLink neighbor addr built rotates)) :
    (o.addLink neighbor addr built rotates).Aligned := by
  unfold Outgoing.addLink
  split
  · exact aligned
  rename_i absent
  split
  · rename_i builds
    have only := steady absent builds
    have mounted : Aligned { o with
        links := update o.links neighbor (some addr)
        mounted := o.mounted ++ [(neighbor, addr)] } := by
      refine ⟨?_, ?_, ?_, aligned.queued, aligned.written⟩
      · intro link member link' member' there
        rcases mem_append.mp member with old | new
        · rcases mem_append.mp member' with old' | new'
          · exact aligned.same link old link' old' there
          · rw [mem_singleton.mp new'] at there ⊢
            exact only link old there
        rw [mem_singleton.mp new] at there ⊢
        rcases mem_append.mp member' with old' | new'
        · exact (only link' old' there.symm).symm
        · rw [mem_singleton.mp new']
      · intro n installed here
        dsimp only at here
        by_cases mine : n = neighbor
        · subst mine
          rw [update_self] at here
          cases here
          exact mem_append_right _ mem_cons_self
        · rw [update_of_ne mine] at here
          exact mem_append_left _ (aligned.links n installed here)
      · exact fun n slot here => mem_append_left _ (aligned.slots n slot here)
    split
    · obtain ⟨known, queued⟩ := mounted.getOrCreate (mem_append_right _ mem_cons_self)
      exact mounted.setSlot _ known queued
    · exact mounted
  · exact aligned

theorem write (peer : UInt32) (ok : Bool) : (o.write peer ok).Aligned := by
  unfold Outgoing.write
  split
  · rename_i addr sent queue found
    have known := aligned.slots peer _ found
    have queued := aligned.queued peer _ found
    have rest : ∀ later ∈ queue, ∀ installed, later.installed = some installed →
        addr = installed :=
      fun later member => queued later (mem_cons_of_mem _ member)
    split
    · have popped := aligned.setSlot ⟨addr, queue, true⟩ known rest
      refine ⟨popped.same, popped.links, popped.slots, popped.queued, ?_⟩
      intro w member
      rcases mem_append.mp member with old | new
      · exact aligned.written w old
      rw [mem_singleton] at new
      subst new
      exact queued sent mem_cons_self
    · exact aligned.setSlot ⟨addr, queue, false⟩ known rest
  · exact aligned

theorem next {act : OutAct} (steady : act.Steady o) : (o.next act).Aligned := by
  cases act with
  | addLink neighbor addr built rotates => exact aligned.addLink steady
  | removeLink neighbor =>
    refine ⟨aligned.same, ?_, aligned.slots, aligned.queued, aligned.written⟩
    intro n addr here
    by_cases mine : n = neighbor
    · subst mine
      dsimp only [Outgoing.next] at here
      rw [update_self] at here
      cases here
    · dsimp only [Outgoing.next] at here
      rw [update_of_ne mine] at here
      exact aligned.links n addr here
  | sendFrame neighbor frame =>
    dsimp only [Outgoing.next]
    split
    · exact aligned
    · rename_i addr installed
      exact aligned.send frame (aligned.links neighbor addr installed)
  | linkSend link frame =>
    dsimp only [Outgoing.next]
    split
    · exact aligned
    · rename_i neighbor addr found
      exact aligned.send frame (mem_of_getElem? found)
  | connect peer =>
    dsimp only [Outgoing.next]
    split
    · exact aligned
    rename_i slot found
    exact aligned.setSlot { slot with connected := true } (aligned.slots peer slot found)
      (aligned.queued peer slot found)
  | hangUp peer =>
    dsimp only [Outgoing.next]
    split
    · exact aligned
    rename_i slot found
    exact aligned.setSlot { slot with connected := false } (aligned.slots peer slot found)
      (aligned.queued peer slot found)
  | write peer ok => exact aligned.write peer ok

end

end Aligned

/-- While a neighbour keeps its address, every frame is written to a connection opened to the
address of the link that was installed when it was sent. -/
theorem frames_follow_link (acts : List OutAct)
    (steady : Follows Outgoing.next (fun o act => act.Steady o) new acts) (w : Written)
    (member : w ∈ (new.run acts).written) (addr : String) (installed : w.sent.installed = some addr) :
    w.addr = addr := by
  have reached : (new.run acts).Aligned :=
    steady.invariant (fun _ _ aligned ok => aligned.next ok) new_aligned
  exact reached.written w member addr installed

def remounted (addr : String) : List OutAct :=
  [.addLink 2 "10.0.0.2:20000" true false, .sendFrame 2 (.empty 1), .removeLink 2,
    .addLink 2 addr true false, .sendFrame 2 (.empty 2), .connect 2, .write 2 true, .write 2 true]

theorem frames_follow_link_remounted : ∃ w ∈ (new.run (remounted "10.0.0.2:20000")).written,
      w.sent = ⟨.empty 2, some "10.0.0.2:20000"⟩ ∧ w.addr = "10.0.0.2:20000" :=
  ⟨⟨⟨.empty 2, some "10.0.0.2:20000"⟩, "10.0.0.2:20000"⟩, by decide +kernel, rfl,
    frames_follow_link (remounted "10.0.0.2:20000") (by decide +kernel) _ (by decide +kernel) _
      rfl⟩

/-- After the neighbour has moved, its frames still go to the old address. -/
theorem moved_link_keeps_old_address : ∃ w ∈ (new.run (remounted "10.0.0.3:20000")).written,
      w.sent.installed = some "10.0.0.3:20000" ∧ w.addr = "10.0.0.2:20000" := by
  decide +kernel

end Outgoing

end Dkms.Qkc
