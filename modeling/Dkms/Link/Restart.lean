import Dkms.Link.Agreement
import Dkms.Link.Coherence

namespace Dkms.Link

open Option Dkms.Core Dkms.Wire Dkms.Replay LinkFrameAuth ReplayWindow SecretStore

structure AuthedLink where
  peers : Peers
  initiator : LinkFrameAuth
  responder : LinkFrameAuth

structure Delivery where
  toResponder : Bool
  times : OpenTimes
  frame : Frame

namespace AuthedLink

variable (mac : MacSuite)

def deliver (l : AuthedLink) (d : Delivery) : Except FrameAuthError Frame × AuthedLink :=
  if d.toResponder then
    let (sealed, initiator) := l.initiator.sealFrame mac l.peers.initiator.store d.frame
    let (result, responder, store) := l.responder.openFrame mac l.peers.responder.store d.times sealed
    (result, { peers := { l.peers with responder := { l.peers.responder with store } },
               initiator, responder })
  else
    let (sealed, responder) := l.responder.sealFrame mac l.peers.responder.store d.frame
    let (result, initiator, store) := l.initiator.openFrame mac l.peers.initiator.store d.times sealed
    (result, { peers := { l.peers with initiator := { l.peers.initiator with store } },
               initiator, responder })

def exchange (l : AuthedLink) (ds : List Delivery) : AuthedLink :=
  ds.foldl (fun l d => (l.deliver mac d).2) l

def Sealed (l : AuthedLink) (d : Delivery) : Prop :=
  (authKindFor d.frame.kind).isSome ∧ (if d.toResponder then l.initiator else l.responder).seals d.frame.kind

def Shares (lookahead : Nat) (p : Peers) : Prop :=
  (∀ e, p.initiator.store.get e = p.responder.store.get e) ∧
    ∀ e, (p.initiator.store.get e).isSome ↔ e ≤ lookahead

def Usable (l : AuthedLink) : Prop :=
  ∀ toResponder (sent : List (OpenTimes × Frame)),
    (∀ s ∈ sent, l.Sealed ⟨toResponder, s.1, s.2⟩) →
      ∀ before s after, sent = before ++ s :: after →
        ((l.exchange mac (before.map fun s => ⟨toResponder, s.1, s.2⟩)).deliver mac
          ⟨toResponder, s.1, s.2⟩).1.isOk

def restartInitiator {Seed : Type} (kem : Kem Seed) (l : AuthedLink) : AuthedLink :=
  { l with
    peers := l.peers.next kem .restartInitiator
    initiator := .perEpoch l.initiator.mode }

def negotiate {Seed : Type} (kem : Kem Seed) (l : AuthedLink) (acts : List (Act Seed)) :
    AuthedLink :=
  { l with peers := l.peers.run kem acts }

def established (peers : Peers) (modes : FrameAuth × FrameAuth) : AuthedLink :=
  ⟨peers, .perEpoch modes.1, .perEpoch modes.2⟩

def restarted {Seed : Type} (kem : Kem Seed) (peers : Peers) (modes : FrameAuth × FrameAuth)
    (ds : List Delivery) (acts : List (Act Seed)) : AuthedLink :=
  (((established peers modes).exchange mac ds).restartInitiator kem).negotiate kem acts

end AuthedLink

structure Tracks (w : ReplayWindow (max defaultWindow 64)) (session : Nat) (seen : Set Nat) :
    Prop where
  current : w.session = some session
  alone : w.prev = none
  unretired : w.retired = []
  counters : w.current.Represents seen

theorem Tracks.check {w : ReplayWindow (max defaultWindow 64)} {session : Nat} {seen : Set Nat}
    (tracks : Tracks w session seen) (call : Call) (same : call.session = session) :
    (∃ seen', seen ⊆ seen' ∧ Tracks (w.checkAndSet call).2 session seen') ∧
      (call.counter ∈ seen → (w.checkAndSet call).1 ≠ .ok ()) := by
  have stays : ∀ stamp, Tracks { w with lastAccept := stamp } session seen :=
    fun _ => ⟨tracks.current, tracks.alone, tracks.unretired, tracks.counters⟩
  have unfolded : w.checkAndSet call =
      if call.counter = 0 then (.error .zeroCounter, w) else w.checkCurrent call := by
    simp [checkAndSet, tracks.unretired, tracks.alone, tracks.current, same]
  rw [unfolded]
  split
  · exact ⟨⟨seen, subset_rfl, tracks⟩, fun _ accepted => by cases accepted⟩
  unfold checkCurrent
  cases checked : w.current.check call.session call.counter with
  | error e => exact ⟨⟨seen, subset_rfl, stays _⟩, fun _ accepted => by cases accepted⟩
  | ok track =>
    obtain ⟨unseen, counters⟩ := Track.check_ok tracks.counters checked
    exact ⟨⟨insert call.counter seen, Set.subset_insert _ _, tracks.current, tracks.alone,
      tracks.unretired, counters⟩, fun member => absurd member unseen⟩

theorem first_check (session readAt acceptAt : Nat) :
    ∃ w, (ReplayWindow.newMonotonic defaultWindow).checkAndSet ⟨session, 1, readAt, acceptAt⟩ =
        (.ok (), w) ∧ Tracks w session {1} := by
  have checked : ∃ track, (Track.empty (max defaultWindow 64)).check session 1 = .ok track :=
    ⟨_, if_pos Nat.zero_lt_one⟩
  obtain ⟨track, checked⟩ := checked
  obtain ⟨-, counters⟩ := Track.check_ok (Track.empty_represents _) checked
  rw [insert_empty_eq] at counters
  let w := { (newMonotonic defaultWindow).resetTo session with
    lastAccept := some acceptAt, current := track }
  refine ⟨w, ?_, ⟨rfl, rfl, rfl, counters⟩⟩
  simp [w, ReplayWindow.checkAndSet, ReplayWindow.newMonotonic, ReplayWindow.new,
      resetTo, checkCurrent, checked]

namespace LinkFrameAuth

variable {mac : MacSuite} {a : LinkFrameAuth} {store : SecretStore}

def keyAt (mac : MacSuite) (cache : Option (Nat × Bytes)) (epoch : Nat) (secret : Bytes) : Bytes :=
  match cache with
  | some (e, k) => if e = epoch then k else mac.deriveKey secret epoch
  | none => mac.deriveKey secret epoch

variable {cache : Option (Nat × Bytes)} {secret : Bytes} {session : Nat}

variable {epoch counter : Nat}

theorem sendMaterial_top (mac : MacSuite) (root : a.src = .perEpoch cache)
    (top : store.highest = some epoch) (held : store.get epoch = some secret) :
    a.sendMaterial mac store = (some (epoch, keyAt mac cache epoch secret),
      { a with src := .perEpoch (some (epoch, keyAt mac cache epoch secret)) }) := by
  unfold sendMaterial
  rw [root, top]
  cases cache with
  | none => simp [deriveSend, held, keyAt]
  | some entry =>
    obtain ⟨e, k⟩ := entry
    by_cases same : e = epoch
    · subst same
      simp [keyAt, ← root]
    · simp [same, deriveSend, held, keyAt]

theorem sealFrame_top {authKind : UInt8} {frame : Frame}
    (root : a.src = .perEpoch cache) (top : store.highest = some epoch)
    (held : store.get epoch = some secret) (kind : authKindFor frame.kind = some authKind)
    (signed : a.seals frame.kind) : a.sealFrame mac store frame =
      (sealWith mac authKind epoch (keyAt mac cache epoch secret) ((a.counter + 1) % 2 ^ 64) frame,
        { a with
          src := .perEpoch (some (epoch, keyAt mac cache epoch secret))
          counter := (a.counter + 1) % 2 ^ 64 }) := by
  unfold sealFrame
  rw [kind]
  simp only [signed, if_true, sendMaterial_top mac root top held]

theorem peerKey_window (mac : MacSuite) (a : LinkFrameAuth) (store : SecretStore) (session : Nat) :
    (a.peerKey mac store session).2.window = a.recv.window := by
  rcases peerKey_effect mac a store session with ⟨-, none⟩ | ⟨_, -, hit⟩ | ⟨_, -, -, miss⟩
  · rw [none]
  · rw [hit]
  · rw [miss]

theorem openFrame_sealWith (authKind : UInt8) (session counter : Nat) (key : Bytes)
    (times : OpenTimes) (frame : Frame) (sessionBound : session < 2 ^ 64)
    (counterBound : counter < 2 ^ 64) :
    a.openFrame mac store times (sealWith mac authKind session key counter frame) =
      match a.peerKey mac store session with
      | (none, recv) => (.error .badMac, { a with recv }, a.askResync store session times.lookupAt)
      | (some key', recv) =>
        if mac.tag key' (aadOf authKind session counter frame frame.payload) =
            mac.tag key (aadOf authKind session counter frame frame.payload) then
          match recv.window.checkAndSet ⟨session, counter, times.readAt, times.acceptAt⟩ with
          | (.error e, window) => (.error (.replay e), { a with recv := { recv with window } }, store)
          | (.ok (), window) =>
            (.ok { sealWith mac authKind session key counter frame with
                kind := baseKindOf authKind
                payload := (sealWith mac authKind session key counter frame).payload.take
                  ((sealWith mac authKind session key counter frame).payload.length - authTrailerLen) },
              { a with recv := { recv with window, lastVerified := some times.verifiedAt } }, store)
        else (.error .badMac, { a with recv }, store) := by
  have trailer : splitAuthTrailer (sealWith mac authKind session key counter frame).payload =
      .ok ⟨frame.payload, session, counter,
        mac.tag key (aadOf authKind session counter frame frame.payload)⟩ :=
    splitAuthTrailer_append _ _ _ _ (mac.hmac_length _ _) sessionBound counterBound
  unfold openFrame
  rw [trailer]
  simp only [MacSuite.verify, decide_eq_true_eq]
  rfl

theorem openFrame_tracks {seen : Set Nat}
    (tracks : Tracks a.recv.window session seen) (authKind : UInt8) (key : Bytes)
    (times : OpenTimes) (frame : Frame) (sessionBound : session < 2 ^ 64)
    (counterBound : counter < 2 ^ 64) :
    let opened := a.openFrame mac store times (sealWith mac authKind session key counter frame)
    (∃ seen', seen ⊆ seen' ∧ Tracks opened.2.1.recv.window session seen') ∧
      (counter ∈ seen → ¬ opened.1.isOk) := by
  have window := peerKey_window mac a store session
  rw [openFrame_sealWith authKind session counter key times frame sessionBound counterBound]
  cases made : a.peerKey mac store session with
  | mk key' recv =>
    rw [made] at window
    have checked := (window ▸ tracks).check ⟨session, counter, times.readAt, times.acceptAt⟩ rfl
    have stays : ∃ seen', seen ⊆ seen' ∧ Tracks recv.window session seen' :=
      ⟨seen, subset_rfl, window ▸ tracks⟩
    cases key' with
    | none => exact ⟨stays, fun _ ok => by simp [Except.toBool] at ok⟩
    | some key' =>
      dsimp only
      split
      · cases result : recv.window.checkAndSet ⟨session, counter, times.readAt, times.acceptAt⟩ with
        | mk verdict after =>
          rw [result] at checked
          cases verdict with
          | error e => exact ⟨checked.1, fun _ ok => by simp [Except.toBool] at ok⟩
          | ok _ => exact ⟨checked.1, fun member => absurd rfl (checked.2 member)⟩
      · exact ⟨stays, fun _ ok => by simp [Except.toBool] at ok⟩

theorem peerKey_derives (mac : MacSuite) (root : a.src = .perEpoch cache)
    (uncached : a.recv.cached = none) (held : store.get (session % 2 ^ 32) = some secret) :
    a.peerKey mac store session = (some (mac.deriveKey secret session),
      { a.recv with cached := some (session, mac.deriveKey secret session) }) := by
  simp only [peerKey, root, uncached, held, map_some]

theorem openFrame_first (root : a.src = .perEpoch cache) (uncached : a.recv.cached = none)
    (fresh : a.recv.window = .newMonotonic defaultWindow)
    (held : store.get (session % 2 ^ 32) = some secret) (sessionBound : session < 2 ^ 64)
    (authKind : UInt8) (times : OpenTimes) (frame : Frame) :
    Tracks (a.openFrame mac store times (sealWith mac authKind session
      (mac.deriveKey secret session) 1 frame)).2.1.recv.window session {1} := by
  rw [openFrame_sealWith authKind session 1 _ times frame sessionBound (by decide)]
  obtain ⟨w, accepted, tracks⟩ := first_check session times.readAt times.acceptAt
  rw [peerKey_derives mac root uncached held]
  simp only [fresh, accepted]
  exact tracks

theorem openFrame_keeps (mac : MacSuite) (a : LinkFrameAuth) (store : SecretStore)
    (times : OpenTimes) (frame : Frame) :
    (a.openFrame mac store times frame).2.1.counter = a.counter ∧
      (a.openFrame mac store times frame).2.1.mode = a.mode := by
  unfold openFrame
  split
  · exact ⟨rfl, rfl⟩
  split
  · exact ⟨rfl, rfl⟩
  split
  · split <;> exact ⟨rfl, rfl⟩
  · exact ⟨rfl, rfl⟩

theorem openFrame_foreign {key : Bytes} (root : a.src = .perEpoch cache)
    (uncached : a.recv.cached = none) (held : store.get (session % 2 ^ 32) = some secret)
    (sessionBound : session < 2 ^ 64) (counterBound : counter < 2 ^ 64)
    (differs : ∀ message, mac.hmac key message ≠ mac.hmac (mac.deriveKey secret session) message)
    (authKind : UInt8) (times : OpenTimes) (frame : Frame) :
    (a.openFrame mac store times (sealWith mac authKind session key counter frame)).1 =
      .error .badMac := by
  rw [openFrame_sealWith authKind session counter key times frame sessionBound counterBound]
  rw [peerKey_derives mac root uncached held]
  dsimp only
  rw [if_neg (fun same => differs _ same.symm)]

end LinkFrameAuth

namespace AuthedLink

variable {mac : MacSuite} {lookahead : UInt32} {secret : Bytes} {signs : FrameAuth × FrameAuth}

structure Topped (lookahead : UInt32) (secret : Bytes) (store : SecretStore) : Prop where
  top : store.highest = some lookahead.toNat
  held : store.get lookahead.toNat = some secret

theorem Topped.of_inner {store store' : SecretStore} (topped : Topped lookahead secret store)
    (inner : store'.inner = store.inner) : Topped lookahead secret store' where
  top := by
    rw [← topped.top]
    simp only [highest, inner]
  held := by
    rw [← topped.held]
    simp only [SecretStore.get, inner]

theorem Topped.truncated {store : SecretStore} (topped : Topped lookahead secret store) :
    store.get (lookahead.toNat % 2 ^ 32) = some secret := by
  rw [Nat.mod_eq_of_lt lookahead.toNat_lt]
  exact topped.held

variable {p : Peers}

theorem Shares.topped (shares : Shares lookahead.toNat p) :
    ∃ secret, Topped lookahead secret p.initiator.store ∧
      Topped lookahead secret p.responder.store := by
  obtain ⟨same, exactly⟩ := shares
  obtain ⟨secret, held⟩ := isSome_iff_exists.mp ((exactly lookahead.toNat).mpr le_rfl)
  have bound : ∀ k s, p.initiator.store.get k = some s → k ≤ lookahead.toNat :=
    fun k s found => (exactly k).mp (isSome_of_eq_some found)
  refine ⟨secret, ⟨?_, held⟩, ?_, by rw [← same]; exact held⟩
  · exact highest_eq_some.mpr ⟨isSome_of_eq_some held, bound⟩
  apply highest_eq_some.mpr
  refine ⟨by rw [← same]; exact isSome_of_eq_some held, ?_⟩
  intro k s found
  exact bound k s (by rw [same]; exact found)

structure Untouched (l : AuthedLink) : Prop where
  source : l.initiator.src = .perEpoch none
  counter : l.initiator.counter = 0
  window : l.responder.recv.window = .newMonotonic defaultWindow
  uncached : l.responder.recv.cached = none

def Opened (lookahead : UInt32) (responder : LinkFrameAuth) : Prop :=
  ∃ seen, 1 ∈ seen ∧ Tracks responder.recv.window lookahead.toNat seen

def Answered (mac : MacSuite) (lookahead : UInt32) (secret : Bytes) (responder : LinkFrameAuth) :
    Prop :=
  responder.src = .perEpoch (some (lookahead.toNat, mac.deriveKey secret lookahead.toNat))

structure Ready (mac : MacSuite) (lookahead : UInt32) (secret : Bytes)
    (signs : FrameAuth × FrameAuth) (l : AuthedLink) : Prop where
  initiator : Topped lookahead secret l.peers.initiator.store
  responder : Topped lookahead secret l.peers.responder.store
  modes : l.initiator.mode = signs.1 ∧ l.responder.mode = signs.2
  rooted : ∃ cache, l.initiator.src = .perEpoch cache
  forward : l.Untouched ∨ Opened lookahead l.responder
  backward : l.responder.src = .perEpoch none ∨ Answered mac lookahead secret l.responder

variable {l : AuthedLink}

section

variable (ready : Ready mac lookahead secret signs l)
include ready

theorem Ready.rootedResponder : ∃ cache, l.responder.src = .perEpoch cache ∧
      LinkFrameAuth.keyAt mac cache lookahead.toNat secret =
        mac.deriveKey secret lookahead.toNat := by
  rcases ready.backward with unset | answered
  · exact ⟨none, unset, rfl⟩
  · exact ⟨_, answered, if_pos rfl⟩

variable {times : OpenTimes} {frame : Frame}

theorem Ready.toResponder (sealed : l.Sealed ⟨true, times, frame⟩) :
    Ready mac lookahead secret signs (l.deliver mac ⟨true, times, frame⟩).2 ∧
      Opened lookahead (l.deliver mac ⟨true, times, frame⟩).2.responder := by
  obtain ⟨kind, signed⟩ := sealed
  obtain ⟨authKind, kind⟩ := isSome_iff_exists.mp kind
  obtain ⟨cache, root⟩ := ready.rooted
  obtain ⟨rcache, rroot, -⟩ := ready.rootedResponder
  have bound : lookahead.toNat < 2 ^ 64 := Nat.lt_trans lookahead.toNat_lt (by decide)
  have small : (l.initiator.counter + 1) % 2 ^ 64 < 2 ^ 64 := Nat.mod_lt _ (by decide)
  have made : l.initiator.sealFrame mac l.peers.initiator.store frame = _ :=
    sealFrame_top root ready.initiator.top ready.initiator.held kind signed
  obtain ⟨src, inner, -⟩ := openFrame_state mac l.responder l.peers.responder.store
    times (l.initiator.sealFrame mac l.peers.initiator.store frame).1
  obtain ⟨-, mode⟩ := openFrame_keeps mac l.responder l.peers.responder.store
    times (l.initiator.sealFrame mac l.peers.initiator.store frame).1
  have opened : Opened lookahead (l.deliver mac ⟨true, times, frame⟩).2.responder := by
    show ∃ seen, 1 ∈ seen ∧ Tracks (l.responder.openFrame mac l.peers.responder.store times
      (l.initiator.sealFrame mac l.peers.initiator.store frame).1).2.1.recv.window _ seen
    rw [made]
    rcases ready.forward with untouched | ⟨seen, one, tracks⟩
    · have unset : cache = none := by
        have source := root.symm.trans untouched.source
        cases source
        rfl
      rw [unset, untouched.counter]
      exact ⟨{1}, rfl, openFrame_first rroot untouched.uncached untouched.window
        ready.responder.truncated bound authKind times frame⟩
    · obtain ⟨⟨seen', grown, tracks'⟩, -⟩ :=
        openFrame_tracks tracks authKind _ times frame bound small
      exact ⟨seen', grown one, tracks'⟩
  refine ⟨⟨ready.initiator, ready.responder.of_inner inner, ?_, ?_, .inr opened, ?_⟩, opened⟩
  · refine ⟨?_, mode.trans ready.modes.2⟩
    show (l.initiator.sealFrame mac l.peers.initiator.store frame).2.mode = signs.1
    rw [made]
    exact ready.modes.1
  · show ∃ cache, (l.initiator.sealFrame mac l.peers.initiator.store frame).2.src = .perEpoch cache
    rw [made]
    exact ⟨_, rfl⟩
  · exact ready.backward.imp src.trans src.trans

theorem Ready.toInitiator (sealed : l.Sealed ⟨false, times, frame⟩) :
    Ready mac lookahead secret signs (l.deliver mac ⟨false, times, frame⟩).2 ∧
      Answered mac lookahead secret (l.deliver mac ⟨false, times, frame⟩).2.responder := by
  obtain ⟨kind, signed⟩ := sealed
  obtain ⟨authKind, kind⟩ := isSome_iff_exists.mp kind
  obtain ⟨cache, root⟩ := ready.rooted
  obtain ⟨rcache, rroot, current⟩ := ready.rootedResponder
  have made : l.responder.sealFrame mac l.peers.responder.store frame = _ :=
    sealFrame_top rroot ready.responder.top ready.responder.held kind signed
  obtain ⟨src, inner, -⟩ := openFrame_state mac l.initiator l.peers.initiator.store
    times (l.responder.sealFrame mac l.peers.responder.store frame).1
  obtain ⟨counter, mode⟩ := openFrame_keeps mac l.initiator
    l.peers.initiator.store times (l.responder.sealFrame mac l.peers.responder.store frame).1
  have recv : (l.responder.sealFrame mac l.peers.responder.store frame).2.recv =
      l.responder.recv := by
    rw [made]
  have answered : Answered mac lookahead secret (l.deliver mac ⟨false, times, frame⟩).2.responder := by
    show (l.responder.sealFrame mac l.peers.responder.store frame).2.src = _
    rw [made, current]
  refine ⟨⟨ready.initiator.of_inner inner, ready.responder, ?_, ⟨cache, src.trans root⟩, ?_,
    .inr answered⟩, answered⟩
  · refine ⟨mode.trans ready.modes.1, ?_⟩
    show (l.responder.sealFrame mac l.peers.responder.store frame).2.mode = signs.2
    rw [made]
    exact ready.modes.2
  rcases ready.forward with untouched | ⟨seen, one, tracks⟩
  · refine .inl ⟨src.trans untouched.source, counter.trans untouched.counter, ?_, ?_⟩
    · exact (congrArg RecvState.window recv).trans untouched.window
    · exact (congrArg RecvState.cached recv).trans untouched.uncached
  refine .inr ⟨seen, one, ?_⟩
  show Tracks (l.responder.sealFrame mac l.peers.responder.store frame).2.recv.window _ _
  rw [recv]
  exact tracks

theorem Ready.deliver {d : Delivery} (sealed : l.Sealed d) :
    Ready mac lookahead secret signs (l.deliver mac d).2 ∧
      (Opened lookahead (l.deliver mac d).2.responder ∨
        Answered mac lookahead secret (l.deliver mac d).2.responder) := by
  obtain ⟨toResponder, times, frame⟩ := d
  cases toResponder with
  | true => exact (ready.toResponder sealed).imp_right .inl
  | false => exact (ready.toInitiator sealed).imp_right .inr

theorem Ready.sealed_iff {l' : AuthedLink} (ready' : Ready mac lookahead secret signs l')
    (d : Delivery) : l.Sealed d ↔ l'.Sealed d := by
  have first : l.initiator.mode = l'.initiator.mode := ready.modes.1.trans ready'.modes.1.symm
  have second : l.responder.mode = l'.responder.mode := ready.modes.2.trans ready'.modes.2.symm
  unfold Sealed
  cases d.toResponder <;> simp [seals, first, second]

theorem Ready.exchange (ds : List Delivery) (sealed : ∀ d ∈ ds, l.Sealed d) (started : ds ≠ []) :
    Ready mac lookahead secret signs (l.exchange mac ds) ∧
      (Opened lookahead (l.exchange mac ds).responder ∨
        Answered mac lookahead secret (l.exchange mac ds).responder) := by
  induction ds generalizing l with
  | nil => exact absurd rfl started
  | cons d ds ih =>
    have next := ready.deliver (sealed d (by simp))
    cases ds with
    | nil => exact next
    | cons e ds =>
      apply ih next.1
      · intro f member
        exact (ready.sealed_iff next.1 f).mp (sealed f (List.mem_cons_of_mem _ member))
      · simp

end

def notifyFrame : Frame := Frame.empty frameKeyIdsNotify

theorem notify_sealed (l : AuthedLink) (toResponder : Bool) (times : OpenTimes) :
    l.Sealed ⟨toResponder, times, notifyFrame⟩ := by
  constructor
  · rfl
  · cases toResponder <;> rfl

theorem established_ready (mac : MacSuite) {peers : Peers} (modes : FrameAuth × FrameAuth)
    (initiator : Topped lookahead secret peers.initiator.store)
    (responder : Topped lookahead secret peers.responder.store) :
    Ready mac lookahead secret modes (established peers modes) where
  initiator := initiator
  responder := responder
  modes := ⟨rfl, rfl⟩
  rooted := ⟨none, rfl⟩
  forward := .inl ⟨rfl, rfl, rfl, rfl⟩
  backward := .inl rfl

variable {mode : FrameAuth}

theorem Opened.rejects (opened : Opened lookahead l.responder)
    (fresh : l.initiator = .perEpoch mode)
    (topped : Topped lookahead secret l.peers.initiator.store)
    (rooted : ∃ cache, l.responder.src = .perEpoch cache) (times : OpenTimes) :
    ¬ (l.deliver mac ⟨true, times, notifyFrame⟩).1.isOk := by
  obtain ⟨seen, one, tracks⟩ := opened
  obtain ⟨cache, root⟩ := rooted
  have bound : lookahead.toNat < 2 ^ 64 := Nat.lt_trans lookahead.toNat_lt (by decide)
  -- the counter starts again at 1, which this session has already used
  have made : (l.initiator.sealFrame mac l.peers.initiator.store notifyFrame).1 =
      sealWith mac frameKeyIdsNotifyAuth lookahead.toNat
        (mac.deriveKey secret lookahead.toNat) 1 notifyFrame := by
    have root' : l.initiator.src = .perEpoch none := by rw [fresh]; rfl
    have start : l.initiator.counter = 0 := by rw [fresh]; rfl
    rw [sealFrame_top root' topped.top topped.held rfl rfl, start]
    rfl
  show ¬ (l.responder.openFrame mac l.peers.responder.store times
    (l.initiator.sealFrame mac l.peers.initiator.store notifyFrame).1).1.isOk
  rw [made]
  exact (openFrame_tracks tracks _ _ times notifyFrame bound (by decide)).2 one

theorem Answered.rejects {old : Bytes} (answered : Answered mac lookahead old l.responder)
    (fresh : l.initiator = .perEpoch mode)
    (initiator : Topped lookahead secret l.peers.initiator.store)
    (responder : Topped lookahead secret l.peers.responder.store)
    (differs : ∀ message, mac.hmac (mac.deriveKey old lookahead.toNat) message ≠
      mac.hmac (mac.deriveKey secret lookahead.toNat) message) (times : OpenTimes) :
    ¬ (l.deliver mac ⟨false, times, notifyFrame⟩).1.isOk := by
  have bound : lookahead.toNat < 2 ^ 64 := Nat.lt_trans lookahead.toNat_lt (by decide)
  have cached : keyAt mac
      (some (lookahead.toNat, mac.deriveKey old lookahead.toNat)) lookahead.toNat secret =
        mac.deriveKey old lookahead.toNat := if_pos rfl
  have made : (l.responder.sealFrame mac l.peers.responder.store notifyFrame).1 =
      sealWith mac frameKeyIdsNotifyAuth lookahead.toNat
        (mac.deriveKey old lookahead.toNat) ((l.responder.counter + 1) % 2 ^ 64) notifyFrame := by
    rw [sealFrame_top answered responder.top responder.held rfl rfl, cached]
  have root : l.initiator.src = .perEpoch none := by rw [fresh]; rfl
  have uncached : l.initiator.recv.cached = none := by rw [fresh]; rfl
  show ¬ (l.initiator.openFrame mac l.peers.initiator.store times
    (l.responder.sealFrame mac l.peers.responder.store notifyFrame).1).1.isOk
  rw [made, openFrame_foreign root uncached initiator.truncated bound
    (Nat.mod_lt _ (by decide)) differs]
  decide

theorem restarted_ends {Seed : Type} (mac : MacSuite) (kem : Kem Seed) (peers : Peers)
    (modes : FrameAuth × FrameAuth) (ds : List Delivery) (acts : List (Act Seed)) :
    (restarted mac kem peers modes ds acts).responder =
        ((established peers modes).exchange mac ds).responder ∧
      (restarted mac kem peers modes ds acts).initiator =
        .perEpoch ((established peers modes).exchange mac ds).initiator.mode := ⟨rfl, rfl⟩

/-- After at least one sealed frame in either direction, an initiator that restarts and
shares the epochs up to `lookahead` anew has a link that rejects frames: its own first
one is a replay to the responder, or the responder still seals under the old key. -/
theorem restarted_link_unusable {Seed : Type} (kem : Kem Seed) (mac : MacSuite)
    (lookahead : UInt32) (peers : Peers) (modes : FrameAuth × FrameAuth) (ds : List Delivery)
    (acts : List (Act Seed)) (shared : Shares lookahead.toNat peers) (exchanged : ds ≠ [])
    (sealed : ∀ d ∈ ds, (established peers modes).Sealed d)
    (reshared : Shares lookahead.toNat (restarted mac kem peers modes ds acts).peers)
    (renewed : ∀ old new, peers.initiator.store.get lookahead.toNat = some old →
      (restarted mac kem peers modes ds acts).peers.initiator.store.get lookahead.toNat = some new →
      ∀ message, mac.hmac (mac.deriveKey old lookahead.toNat) message ≠
        mac.hmac (mac.deriveKey new lookahead.toNat) message) :
    ¬ (restarted mac kem peers modes ds acts).Usable mac := by
  obtain ⟨old, initiator, responder⟩ := Shares.topped shared
  obtain ⟨new, initiator', responder'⟩ := Shares.topped reshared
  have differs := renewed old new initiator.held initiator'.held
  obtain ⟨ready, marked⟩ := (established_ready mac modes initiator responder).exchange ds sealed exchanged
  obtain ⟨cache, root, -⟩ := ready.rootedResponder
  obtain ⟨survived, fresh⟩ := restarted_ends mac kem peers modes ds acts
  rw [← survived] at marked root
  let times : OpenTimes := ⟨0, 0, 0, 0⟩
  intro usable
  have accepted : ∀ toResponder, ((restarted mac kem peers modes ds acts).deliver mac
      ⟨toResponder, times, notifyFrame⟩).1.isOk := by
    intro toResponder
    exact usable toResponder [(times, notifyFrame)] (by simp [notify_sealed]) [] (times, notifyFrame) [] rfl
  rcases marked with opened | answered
  · exact opened.rejects fresh initiator' ⟨cache, root⟩ times (accepted true)
  · exact answered.rejects fresh initiator' responder' differs times (accepted false)

theorem shares_of_lists {lookahead : Nat}
    (same : p.initiator.store.inner.toList = p.responder.store.inner.toList)
    (keys : p.initiator.store.inner.keys = List.range (lookahead + 1)) : Shares lookahead p := by
  constructor
  · intro e
    have equiv := Std.TreeMap.equiv_iff_toList_eq.mpr same
    exact equiv.getElem?_eq
  intro e
  have member : e ∈ p.initiator.store.inner.keys ↔ e ≤ lookahead := by
    rw [keys, List.mem_range]
    omega
  rw [← member, Std.TreeMap.mem_keys, Std.TreeMap.mem_iff_isSome_getElem?]
  rfl

def establishAct (epoch : Nat) (key r : UInt8) : List (Act UInt8) :=
  [.start epoch key, .sendInit, .deliverInit epoch [key] r, .deliverResp epoch [key, r], .finish]

def toyPeers : Peers := (Peers.new 4 4).run toyKem (establishAct 0 1 10 ++ establishAct 1 2 11)

def toyRenewal : List (Act UInt8) := establishAct 0 3 20 ++ establishAct 1 4 21

theorem toyPeers_shares : Shares 1 toyPeers :=
  shares_of_lists (by decide +kernel) (by decide +kernel)

theorem toyMac_separates (r r' key key' : UInt8) (apart : r ≠ r') (session : Nat) (message : Bytes) :
    Keyed.toyMac.hmac (Keyed.toyMac.deriveKey (toySecret r key) session) message ≠
      Keyed.toyMac.hmac (Keyed.toyMac.deriveKey (toySecret r' key') session) message := by
  intro same
  exact apart (List.cons.inj same).1

theorem restarted_link_unusable_answered :
    ¬ (restarted Keyed.toyMac toyKem toyPeers (.require, .require)
      [⟨false, ⟨0, 0, 0, 0⟩, Keyed.toyFrame⟩] toyRenewal).Usable Keyed.toyMac := by
  apply restarted_link_unusable toyKem Keyed.toyMac 1 toyPeers (.require, .require)
    [⟨false, ⟨0, 0, 0, 0⟩, Keyed.toyFrame⟩] toyRenewal toyPeers_shares
  · simp
  · intro d member
    rw [List.mem_singleton.mp member]
    constructor <;> rfl
  · exact shares_of_lists (by decide +kernel) (by decide +kernel)
  intro old new before after
  have first : some old = some (toySecret 11 2) := before.symm.trans (by decide +kernel)
  have second : some new = some (toySecret 21 4) := after.symm.trans (by decide +kernel)
  cases first
  cases second
  exact toyMac_separates 11 21 2 4 (by decide) 1

/-- The initiator sealed one frame before the restart; its first one after it is rejected. -/
theorem restart_rejects_first_frame : Shares 1 toyPeers ∧
      Shares 1 (restarted Keyed.toyMac toyKem toyPeers (.require, .require)
        [⟨true, ⟨0, 0, 0, 0⟩, Keyed.toyFrame⟩] toyRenewal).peers ∧
      ¬ (restarted Keyed.toyMac toyKem toyPeers (.require, .require)
        [⟨true, ⟨0, 0, 0, 0⟩, Keyed.toyFrame⟩] toyRenewal).Usable Keyed.toyMac := by
  refine ⟨toyPeers_shares, shares_of_lists (by decide +kernel) (by decide +kernel), ?_⟩
  intro usable
  have accepted := usable true [(⟨0, 0, 0, 0⟩, notifyFrame)] (by simp [notify_sealed]) []
    (⟨0, 0, 0, 0⟩, notifyFrame) [] rfl
  revert accepted
  decide +kernel

end AuthedLink

end Dkms.Link
