import Dkms.Link.Restart
import Dkms.Replay.SetWindow

namespace Dkms.Link

open Dkms.Core Dkms.Wire Dkms.Replay LinkFrameAuth SecretStore

/-- What one call of `open` may write to: the caller's frame, the link's state and, for the resync
request, the store. -/
structure OpenState where
  frame : Frame
  auth : LinkFrameAuth
  store : SecretStore

namespace LinkFrameAuth

/-- `open` with its early returns; the frame is written to in the last two steps only. -/
def openInPlace (mac : MacSuite) (times : OpenTimes) : EStateM FrameAuthError OpenState Unit := do
  let start ← get
  match splitAuthTrailer start.frame.payload with
  | .error _ => throw .truncated
  | .ok ⟨body, session, counter, tag⟩ =>
    let (key, recv) := start.auth.peerKey mac start.store session
    modify fun s => { s with auth := { s.auth with recv } }
    match key with
    | none =>
      modify fun s => { s with store := start.auth.askResync s.store session times.lookupAt }
      throw .badMac
    | some key =>
      if mac.verify key (aadOf start.frame.kind session counter start.frame body) tag then
        let (verdict, window) := recv.window.checkAndSet ⟨session, counter, times.readAt, times.acceptAt⟩
        modify fun s => { s with auth := { s.auth with recv := { s.auth.recv with window } } }
        match verdict with
        | .error e => throw (.replay e)
        | .ok () =>
          modify fun s => { s with
            auth := { s.auth with
              recv := { s.auth.recv with lastVerified := some times.verifiedAt } } }
          modify fun s => { s with
            frame := { s.frame with
              payload := s.frame.payload.take (s.frame.payload.length - authTrailerLen) } }
          modify fun s => { s with frame := { s.frame with kind := baseKindOf s.frame.kind } }
      else throw .badMac

theorem openInPlace_run (mac : MacSuite) (times : OpenTimes) (s : OpenState) :
    (openInPlace mac times).run s =
      match s.auth.openFrame mac s.store times s.frame with
      | (.ok frame, auth, store) => .ok () ⟨frame, auth, store⟩
      | (.error e, auth, store) => .error e ⟨s.frame, auth, store⟩ := by
  unfold openInPlace openFrame
  simp only [EStateM.run_bind, EStateM.run_get]
  cases splitAuthTrailer s.frame.payload with
  | error e => rfl
  | ok trailer =>
    obtain ⟨body, session, counter, tag⟩ := trailer
    dsimp only
    cases s.auth.peerKey mac s.store session with
    | mk key recv =>
      cases key with
      | none => rfl
      | some key =>
        dsimp only
        cases mac.verify key (aadOf s.frame.kind session counter s.frame body) tag with
        | false => rfl
        | true =>
          cases recv.window.checkAndSet ⟨session, counter, times.readAt, times.acceptAt⟩ with
          | mk verdict window => cases verdict <;> rfl

variable {times : OpenTimes}

theorem openInPlace_error {mac : MacSuite} {s after : OpenState}
    {e : FrameAuthError} (refused : (openInPlace mac times).run s = .error e after) :
    after.frame = s.frame := by
  rw [openInPlace_run] at refused
  split at refused
  · cases refused
  · cases refused
    rfl

variable {mac : MacSuite} {a : LinkFrameAuth} {store : SecretStore}

theorem sendMaterial_counter (mac : MacSuite) (a : LinkFrameAuth) (store : SecretStore) :
    (a.sendMaterial mac store).2.counter = a.counter := by
  have derived : ∀ epoch, (a.deriveSend mac store epoch).2.counter = a.counter := by
    intro epoch
    unfold deriveSend
    split <;> rfl
  unfold sendMaterial
  split
  · rfl
  split
  · rfl
  split
  · split
    · rfl
    · exact derived _
  · exact derived _

theorem sendMaterial_recv (mac : MacSuite) (a : LinkFrameAuth) (store : SecretStore)
    (recv : RecvState) :
    (sendMaterial mac { a with recv } store).1 = (a.sendMaterial mac store).1 := by
  have derived : ∀ epoch, (deriveSend mac { a with recv } store epoch).1 =
      (a.deriveSend mac store epoch).1 := by
    intro epoch
    unfold deriveSend
    cases store.get epoch <;> rfl
  unfold sendMaterial
  dsimp only
  split
  · rfl
  split
  · rfl
  split
  · split
    · rfl
    · exact derived _
  · exact derived _

variable {authKind : UInt8}

theorem strip_sealWith (mac : MacSuite) (session counter : Nat) (key : Bytes)
    (frame : Frame) (base : baseKindOf authKind = frame.kind) :
    let signed := sealWith mac authKind session key counter frame
    ¬ signed.payload.length < authTrailerLen ∧
      { signed with
        kind := baseKindOf authKind
        payload := signed.payload.take (signed.payload.length - authTrailerLen) } = frame := by
  intro signed
  let tag := mac.tag key (aadOf authKind session counter frame frame.payload)
  have trailer : (leBytes 8 session ++ (leBytes 8 counter ++ tag)).length = authTrailerLen := by
    have tagged : tag.length = 32 := mac.hmac_length _ _
    simp [authTrailerLen, tagged]
  have whole : signed.payload = frame.payload ++ (leBytes 8 session ++ (leBytes 8 counter ++ tag)) := rfl
  have length : signed.payload.length = frame.payload.length + authTrailerLen := by
    rw [whole, List.length_append, trailer]
  have stripped : signed.payload.take (signed.payload.length - authTrailerLen) = frame.payload := by
    rw [length, Nat.add_sub_cancel, whole, List.take_left]
  refine ⟨by omega, ?_⟩
  rw [stripped, base]
  rfl

def hasFixedRoot (a : LinkFrameAuth) : Bool :=
  match a.src with
  | .fixed _ _ _ => true
  | .perEpoch _ => false

variable {session : Nat}

variable {root key : Bytes}

theorem peerKey_root (rooted : a.rootIn store session = some root) :
    (a.peerKey mac store session).1 = some (keyAt mac a.recv.cached session root) := by
  rcases peerKey_effect mac a store session with
    ⟨unrooted, -⟩ | ⟨key, cached, hit⟩ | ⟨found, here, uncached, miss⟩
  · rw [rooted] at unrooted
    cases unrooted
  · rw [hit, cached]
    simp [keyAt]
  rw [rooted] at here
  cases here
  rw [miss]
  unfold keyAt
  split
  · rename_i other key cached
    rw [if_neg (by rintro rfl; exact uncached key cached)]
  · rfl

theorem sendMaterial_root (material : (a.sendMaterial mac store).1 = some (session, key))
    (rooted : a.rootIn store session = some root)
    (small : ∀ epoch s, store.get epoch = some s → epoch < 2 ^ 32)
    (fixed : ∀ r s k, a.src = .fixed r s k → s < 2 ^ 64 ∧ k = mac.deriveKey r s) :
    session < 2 ^ 64 ∧ key = keyAt mac a.sendCache session root := by
  cases source : a.src with
  | fixed r s k =>
    obtain ⟨bound, derived⟩ := fixed r s k source
    simp only [sendMaterial, source] at material
    simp only [rootIn, source, Option.some.injEq] at rooted
    obtain ⟨rfl, rfl⟩ := material
    refine ⟨bound, ?_⟩
    rw [derived, rooted]
    simp [sendCache, source, keyAt]
  | perEpoch cache =>
    obtain ⟨top, origin⟩ := sendMaterial_key source material
    obtain ⟨held, -⟩ := highest_eq_some.mp top
    obtain ⟨s, held⟩ := Option.isSome_iff_exists.mp held
    have bound := small session s held
    rw [rootIn_perEpoch source, Nat.mod_eq_of_lt bound, held] at rooted
    cases rooted
    rw [sendMaterial_top mac source top held] at material
    cases material
    refine ⟨by omega, ?_⟩
    simp only [sendCache, source]

variable {frame : Frame}

theorem sealFrame_fst
    (kind : authKindFor frame.kind = some authKind) (signed : a.seals frame.kind = true)
    (material : (a.sendMaterial mac store).1 = some (session, key)) :
    (a.sealFrame mac store frame).1 =
      sealWith mac authKind session key ((a.counter + 1) % 2 ^ 64) frame := by
  have counted := sendMaterial_counter mac a store
  unfold sealFrame
  rw [kind]
  simp only [signed, if_true]
  cases made : a.sendMaterial mac store with
  | mk pair after =>
    rw [made] at counted material
    dsimp only at counted material
    rw [material]
    dsimp only
    rw [counted]

theorem openFrame_takes {session counter : Nat} {expected : Bytes}
    (base : baseKindOf authKind = frame.kind)
    (sessionBound : session < 2 ^ 64) (counterBound : counter < 2 ^ 64)
    (knows : (a.peerKey mac store session).1 = some expected)
    (separates : key ≠ expected → ∀ message, mac.hmac key message ≠ mac.hmac expected message) :
    (a.openFrame mac store times (sealWith mac authKind session key counter frame)).1 = .ok frame ↔
      key = expected ∧
        a.recv.window.accepts ⟨session, counter, times.readAt, times.acceptAt⟩ := by
  rw [openFrame_sealWith authKind session counter key times frame sessionBound counterBound]
  have window := peerKey_window mac a store session
  cases made : a.peerKey mac store session with
  | mk found recv =>
    rw [made] at knows window
    subst knows
    dsimp only
    by_cases same : key = expected
    · subst same
      obtain ⟨-, restored⟩ := strip_sealWith mac session counter key frame base
      rw [← window]
      unfold ReplayWindow.accepts
      cases checked : recv.window.checkAndSet ⟨session, counter, times.readAt, times.acceptAt⟩ with
      | mk verdict after =>
        cases verdict with
        | error e => simp
        | ok => simp only [if_true, restored, true_and]
    · have apart := separates same (aadOf authKind session counter frame frame.payload).message
      rw [if_neg (fun equal => apart equal.symm)]
      simp [same]

theorem sealFrame_keeps (mac : MacSuite) (a : LinkFrameAuth) (store : SecretStore) (frame : Frame) :
    (a.sealFrame mac store frame).2.recv = a.recv ∧
      ((a.sealFrame mac store frame).2.src = a.src ∨
        ∃ cache cache', a.src = .perEpoch cache ∧
          (a.sealFrame mac store frame).2.src = .perEpoch cache') := by
  obtain ⟨counter, kept | moved⟩ := sealFrame_state mac a store frame
  · rw [kept]
    exact ⟨rfl, .inl rfl⟩
  rw [moved]
  cases source : a.src with
  | fixed root session key => simp [sendMaterial, source]
  | perEpoch cache =>
    rcases sendMaterial_state mac store source with same | ⟨epoch, s, -, derived⟩
    · rw [same]
      exact ⟨rfl, .inl source⟩
    · rw [derived]
      exact ⟨rfl, .inr ⟨cache, _, rfl, rfl⟩⟩

theorem openFrame_window (mac : MacSuite) (a : LinkFrameAuth) (store : SecretStore)
    (times : OpenTimes) (frame : Frame) :
    (a.openFrame mac store times frame).2.1.recv.window = a.recv.window ∨
      ∃ call, (a.openFrame mac store times frame).2.1.recv.window = a.recv.window.next call := by
  unfold openFrame
  split
  · exact .inl rfl
  rename_i body session counter tag _
  have window := peerKey_window mac a store session
  split
  · rename_i unmade
    rw [unmade] at window
    exact .inl window
  rename_i made
  rw [made] at window
  split
  · right
    refine ⟨⟨session, counter, times.readAt, times.acceptAt⟩, ?_⟩
    rw [← window]
    unfold ReplayWindow.next
    split
    · rename_i checked
      rw [checked]
    · rename_i checked
      rw [checked]
  · exact .inl window

end LinkFrameAuth

namespace Keyed

variable (mac : MacSuite)

def Starts (k : Keyed) : Prop :=
  (∃ keep, k.store = .empty keep) ∧
    ((∃ mode root random, random < 2 ^ 64 ∧ LinkFrameAuth.new mac mode root random = some k.auth) ∨
      ∃ mode, k.auth = .perEpoch mode)

def Reached (k : Keyed) : Prop :=
  ∃ (start : Keyed) (acts : List Act), start.Starts mac ∧ acts.foldl (next mac) start = k

/-- What no history breaks; with per-epoch roots it says nothing about the cached keys. -/
structure Rooted (k : Keyed) : Prop where
  small : ∀ epoch s, k.store.get epoch = some s → epoch < 2 ^ 32
  sending : ∀ root session key, k.auth.src = .fixed root session key →
    session < 2 ^ 64 ∧ key = mac.deriveKey root session
  receiving : ∀ root session key, k.auth.src = .fixed root session key →
    ∀ s key, k.auth.recv.cached = some (s, key) → key = mac.deriveKey root s
  window : ∃ ledger, Agrees k.auth.recv.window ledger

variable {mac} {k : Keyed}

theorem Starts.rooted (starts : k.Starts mac) : k.Rooted mac := by
  obtain ⟨⟨keep, stored⟩, ⟨mode, root, random, bound, made⟩ | ⟨mode, made⟩⟩ := starts
  · obtain ⟨r, -, built⟩ := Option.map_eq_some_iff.mp made
    refine ⟨?_, ?_, ?_, ?_⟩
    · simp [stored, get_empty]
    · intro root session key source
      rw [← built] at source
      cases source
      exact ⟨by omega, rfl⟩
    · intro root session key _ s key' cached
      rw [← built] at cached
      cases cached
    · rw [← built]
      exact ⟨_, created_agrees .afterQuiet defaultWindow adoptAfterQuiet⟩
  · refine ⟨?_, ?_, ?_, ?_⟩
    · simp [stored, get_empty]
    · intro root session key source
      rw [made] at source
      cases source
    · intro root session key source
      rw [made] at source
      cases source
    · rw [made]
      exact ⟨_, created_agrees .monotonic defaultWindow adoptAfterQuiet⟩

theorem Rooted.put (rooted : k.Rooted mac) (epoch : UInt32) (secret : Bytes) :
    Rooted mac { k with store := k.store.put epoch.toNat secret } := by
  refine ⟨?_, rooted.sending, rooted.receiving, rooted.window⟩
  intro e s held
  rcases get_put held with ⟨same, -⟩ | ⟨-, old⟩
  · rw [same]
    exact epoch.toNat_lt
  · exact rooted.small e s old

theorem Rooted.sealFrame (rooted : k.Rooted mac) (frame : Frame) :
    (k.next mac (.sealFrame frame)).Rooted mac := by
  obtain ⟨recv, source⟩ := sealFrame_keeps mac k.auth k.store frame
  have fixed : ∀ root session key, (k.next mac (.sealFrame frame)).auth.src =
      .fixed root session key → k.auth.src = .fixed root session key := by
    intro root session key here
    rcases source with same | ⟨_, _, -, perEpoch⟩
    · exact same ▸ here
    · rw [show (k.next mac (.sealFrame frame)).auth.src = _ from perEpoch] at here
      cases here
  refine ⟨rooted.small, ?_, ?_, ?_⟩
  · intro root session key here
    exact rooted.sending root session key (fixed root session key here)
  · intro root session key here s key' cached
    exact rooted.receiving root session key (fixed root session key here) s key' (recv ▸ cached)
  show ∃ ledger, Agrees (k.auth.sealFrame mac k.store frame).2.recv.window ledger
  rw [recv]
  exact rooted.window

theorem Rooted.openFrame (rooted : k.Rooted mac) (times : OpenTimes) (frame : Frame) :
    (k.next mac (.openFrame times frame)).Rooted mac := by
  obtain ⟨source, inner, cache⟩ := openFrame_state mac k.auth k.store times frame
  have fixed : ∀ root session key, (k.next mac (.openFrame times frame)).auth.src =
      .fixed root session key → k.auth.src = .fixed root session key :=
    fun _ _ _ here => source ▸ here
  refine ⟨?_, ?_, ?_, ?_⟩
  · intro epoch s held
    apply rooted.small epoch s
    rw [← held]
    simp only [SecretStore.get, next, inner]
  · intro root session key here
    exact rooted.sending root session key (fixed root session key here)
  · intro root session key here s key' cached
    have before := fixed root session key here
    have old := rooted.receiving root session key before s key'
    rcases cache with kept | ⟨opened, moved⟩
    · exact old (kept ▸ cached)
    have now : (k.auth.peerKey mac k.store opened).2.cached = some (s, key') := moved ▸ cached
    rcases peerKey_effect mac k.auth k.store opened with
      ⟨-, none⟩ | ⟨_, -, hit⟩ | ⟨r, found, -, miss⟩
    · exact old (by rw [none] at now; exact now)
    · exact old (by rw [hit] at now; exact now)
    rw [miss] at now
    cases now
    simp only [rootIn, before, Option.some.injEq] at found
    rw [found]
  · obtain ⟨ledger, agrees⟩ := rooted.window
    show ∃ ledger, Agrees (k.auth.openFrame mac k.store times frame).2.1.recv.window ledger
    rcases openFrame_window mac k.auth k.store times frame with kept | ⟨call, moved⟩
    · rw [kept]
      exact ⟨ledger, agrees⟩
    · rw [moved]
      exact ⟨_, agrees.next call⟩

theorem Rooted.next (k : Keyed) (act : Act) (rooted : k.Rooted mac) : (k.next mac act).Rooted mac := by
  cases act with
  | insert epoch secret =>
    show Rooted mac { k with store := k.store.insert epoch.toNat secret }
    unfold SecretStore.insert
    split
    · exact rooted
    · exact rooted.put epoch secret
  | replace epoch secret => exact rooted.put epoch secret
  | pruneBelow base =>
    refine ⟨?_, rooted.sending, rooted.receiving, rooted.window⟩
    exact fun e s held => rooted.small e s (get_pruneBelow held)
  | sealFrame frame => exact rooted.sealFrame frame
  | openFrame times frame => exact rooted.openFrame times frame

theorem Reached.rooted (reached : k.Reached mac) : k.Rooted mac := by
  obtain ⟨start, acts, starts, rfl⟩ := reached
  exact (Follows.all start acts).invariant (fun k act rooted _ => rooted.next k act) starts.rooted

theorem fixed_sending (a : LinkFrameAuth) (fixed : a.hasFixedRoot) (session : Nat) (root : Bytes) :
    keyAt mac a.sendCache session root = mac.deriveKey root session := by
  unfold hasFixedRoot at fixed
  unfold sendCache
  split at fixed
  · rename_i source
    rw [source]
    rfl
  · cases fixed

theorem Rooted.fixed_receiving (rooted : k.Rooted mac) (fixed : k.auth.hasFixedRoot)
    {session : Nat} {root : Bytes} (here : k.auth.rootIn k.store session = some root) :
    keyAt mac k.auth.recv.cached session root = mac.deriveKey root session := by
  unfold hasFixedRoot at fixed
  split at fixed
  · rename_i r s key source
    simp only [rootIn, source, Option.some.injEq] at here
    subst here
    unfold keyAt
    split
    · rename_i s' key' cached
      split
      · rename_i same
        subst same
        exact rooted.receiving r s key source s' key' cached
      · rfl
    · rfl
  · cases fixed

def RoundTrips (mac : MacSuite) (a b : Keyed) (times : OpenTimes) (frame : Frame) : Prop :=
  ∃ after, (openInPlace mac times).run
      ⟨(a.auth.sealFrame mac a.store frame).1, b.auth, b.store⟩ = .ok () after ∧
    after.frame = frame

def Separates (mac : MacSuite) (key key' : Bytes) : Prop :=
  key ≠ key' → ∀ message, mac.hmac key message ≠ mac.hmac key' message

theorem roundTrips_iff {a b : Keyed} {times : OpenTimes} {frame : Frame} :
    RoundTrips mac a b times frame ↔
      (b.auth.openFrame mac b.store times (a.auth.sealFrame mac a.store frame).1).1 = .ok frame := by
  unfold RoundTrips
  rw [openInPlace_run]
  split
  · rename_i result
    rw [result]
    constructor
    · rintro ⟨after, same, rfl⟩
      cases same
      rfl
    · rintro same
      cases same
      exact ⟨_, rfl, rfl⟩
  · rename_i result
    rw [result]
    simp

/-- Between two ends with the same root for the session, whatever happened to them before, a frame
with an unseen counter comes back in every field exactly when both work with the same key and the
receiver's window admits the session; with a fixed root they work with the same key. A frame that
`open` refuses is left as it was. -/
theorem seal_open_round_trip (mac : MacSuite) {a b : Keyed} (reachedA : a.Reached mac)
    (reachedB : b.Reached mac) : (∃ ledger, Agrees b.auth.recv.window ledger ∧
      ∀ (frame : Frame) (times : OpenTimes) authKind session key root,
        authKindFor frame.kind = some authKind → a.auth.seals frame.kind = true →
        (a.auth.sendMaterial mac a.store).1 = some (session, key) →
        a.auth.rootIn a.store session = some root → b.auth.rootIn b.store session = some root →
        let call := ⟨session, (a.auth.counter + 1) % 2 ^ 64, times.readAt, times.acceptAt⟩
        Unseen b.auth.recv.window ledger call →
        let sent := LinkFrameAuth.keyAt mac a.auth.sendCache session root
        let expected := LinkFrameAuth.keyAt mac b.auth.recv.cached session root
        Separates mac sent expected →
        (RoundTrips mac a b times frame ↔ sent = expected ∧ b.auth.recv.window.Admits call) ∧
          (a.auth.hasFixedRoot → b.auth.hasFixedRoot → sent = expected)) ∧
    ∀ (s after : OpenState) (times : OpenTimes) (e : FrameAuthError),
      (LinkFrameAuth.openInPlace mac times).run s = .error e after → after.frame = s.frame := by
  have rootedA := reachedA.rooted
  have rootedB := reachedB.rooted
  obtain ⟨ledger, agrees⟩ := rootedB.window
  refine ⟨⟨ledger, agrees, ?_⟩, fun s after times e => openInPlace_error⟩
  intro frame times authKind session key root kind signed material rootA rootB call unseen sent
    expected separates
  obtain ⟨bound, sealing⟩ := sendMaterial_root material rootA rootedA.small rootedA.sending
  subst sealing
  have made := sealFrame_fst kind signed material
  constructor
  · rw [roundTrips_iff, made, ← agrees.accepts_iff_admits unseen]
    exact openFrame_takes (baseKindOf_of_authKindFor kind) bound (Nat.mod_lt _ (by decide))
      (peerKey_root rootB) separates
  · intro fixedA fixedB
    exact (fixed_sending a.auth fixedA session root).trans (rootedB.fixed_receiving fixedB rootB).symm

def pskEnd (random : Nat) : Keyed where
  store := .empty 4
  auth := .withSource .prefer
    (.fixed (toyRoot 5) (max random 1) (toyMac.deriveKey (toyRoot 5) (max random 1)))

theorem pskEnd_reached (random : Nat) (bound : random < 2 ^ 64) : (pskEnd random).Reached toyMac :=
  ⟨pskEnd random, [], ⟨⟨4, rfl⟩, .inl ⟨.prefer, some (toyRoot 5), random, bound, rfl⟩⟩, rfl⟩

theorem seal_open_round_trip_psk : RoundTrips toyMac (pskEnd 9) (pskEnd 12) ⟨0, 0, 0, 0⟩ toyFrame := by
  obtain ⟨⟨ledger, -, trips⟩, -⟩ := seal_open_round_trip toyMac
    (pskEnd_reached 9 (by decide)) (pskEnd_reached 12 (by decide))
  have trip := trips toyFrame ⟨0, 0, 0, 0⟩ frameRelayAuth 9 _ (toyRoot 5) rfl rfl rfl rfl rfl
    ⟨by decide, nofun, nofun⟩ (fun apart => absurd rfl apart)
  exact trip.1.mpr ⟨trip.2 rfl rfl, List.not_mem_nil, nofun⟩

def renewedSender : Keyed :=
  [.insert 0 (toyRoot 1), .sealFrame toyFrame, .replace 0 (toyRoot 2)].foldl (next toyMac) (new .prefer 4)

def renewedReceiver : Keyed := [.insert 0 (toyRoot 2)].foldl (next toyMac) (new .prefer 4)

/-- Both ends hold the same secret for the epoch and the receiver has opened nothing yet; the
sender signs with the key it cached before the secret was replaced. -/
theorem renewed_secret_not_opened : renewedSender.Reached toyMac ∧ renewedReceiver.Reached toyMac ∧
      renewedSender.auth.rootIn renewedSender.store 0 = some (toyRoot 2) ∧
      renewedReceiver.auth.rootIn renewedReceiver.store 0 = some (toyRoot 2) ∧
      renewedReceiver.auth.recv.window.session = none ∧
      ∃ after, (LinkFrameAuth.openInPlace toyMac ⟨0, 0, 0, 0⟩).run
        ⟨(renewedSender.auth.sealFrame toyMac renewedSender.store toyFrame).1, renewedReceiver.auth,
          renewedReceiver.store⟩ = .error .badMac after := by
  have begun : (new .prefer 4).Starts toyMac := ⟨⟨4, rfl⟩, .inr ⟨.prefer, rfl⟩⟩
  refine ⟨⟨_, _, begun, rfl⟩, ⟨_, _, begun, rfl⟩, by decide +kernel, by decide +kernel, rfl, ?_⟩
  have refused : (renewedReceiver.auth.openFrame toyMac renewedReceiver.store ⟨0, 0, 0, 0⟩
      (renewedSender.auth.sealFrame toyMac renewedSender.store toyFrame).1).1 = .error .badMac := by
    decide +kernel
  rw [openInPlace_run]
  split
  · rename_i result
    rw [result] at refused
    cases refused
  rename_i result
  rw [result] at refused
  cases refused
  exact ⟨_, rfl⟩

end Keyed

end Dkms.Link
