import Dkms.Core.Runs
import Dkms.Link.FrameAuth

namespace Dkms.Link

open Dkms.Core Dkms.Wire Dkms.Replay LinkFrameAuth SecretStore

structure Keyed where
  store : SecretStore
  auth : LinkFrameAuth

def frameSession (frame : Frame) : Option Nat :=
  (splitAuthTrailer frame.payload).toOption.map AuthTrailer.session

def LinkFrameAuth.sendCache (a : LinkFrameAuth) : Option (Nat × Bytes) :=
  match a.src with
  | .perEpoch sendCache => sendCache
  | .fixed _ _ _ => none

namespace Keyed

inductive Act where
  | insert (epoch : UInt32) (secret : Bytes)
  | replace (epoch : UInt32) (secret : Bytes)
  | pruneBelow (base : UInt32)
  | sealFrame (frame : Frame)
  | openFrame (times : OpenTimes) (frame : Frame)

variable (mac : MacSuite)

def new (mode : FrameAuth) (keep : Nat) : Keyed := ⟨.empty keep, .perEpoch mode⟩

def next (k : Keyed) : Act → Keyed
  | .insert epoch secret => { k with store := k.store.insert epoch.toNat secret }
  | .replace epoch secret => { k with store := k.store.replace epoch.toNat secret }
  | .pruneBelow base => { k with store := k.store.pruneBelow base.toNat }
  | .sealFrame frame => { k with auth := (k.auth.sealFrame mac k.store frame).2 }
  | .openFrame times frame =>
    let (_, auth, store) := k.auth.openFrame mac k.store times frame
    ⟨store, auth⟩

def usedKey (k : Keyed) : Act → Option (Nat × Bytes)
  | .sealFrame frame =>
    if (authKindFor frame.kind).isSome && k.auth.seals frame.kind then
      (k.auth.sendMaterial mac k.store).1
    else none
  | .openFrame _ frame =>
    (frameSession frame).bind fun session =>
      (k.auth.peerKey mac k.store session).1.map (session, ·)
  | _ => none

def UsesStored (k : Keyed) (act : Act) : Prop :=
  ∀ session key, k.usedKey mac act = some (session, key) →
    ∃ s, k.store.get (session % 2 ^ 32) = some s ∧ key = mac.deriveKey s session

def Keeps (k : Keyed) (epoch : Nat) (secret : Bytes) : Prop :=
  (k.store.highest.all (· ≤ epoch) → ∀ c ∈ k.auth.sendCache, c.1 = epoch →
      c.2 = mac.deriveKey secret epoch) ∧
    ∀ c ∈ k.auth.recv.cached, c.1 % 2 ^ 32 = epoch → c.2 = mac.deriveKey secret c.1

/-- A secret is written only where it keeps the cached keys, and no frame is opened whose
session is cached although its epoch is gone. -/
def Undisturbed (k : Keyed) : Act → Prop
  | .insert epoch secret => k.store.get epoch.toNat = none → k.Keeps mac epoch.toNat secret
  | .replace epoch secret => k.Keeps mac epoch.toNat secret
  | .openFrame _ frame =>
    ∀ c ∈ k.auth.recv.cached, frameSession frame = some c.1 → (k.store.get (c.1 % 2 ^ 32)).isSome
  | _ => True

instance (k : Keyed) (epoch : Nat) (secret : Bytes) : Decidable (k.Keeps mac epoch secret) :=
  inferInstanceAs (Decidable (_ ∧ _))

instance (k : Keyed) (act : Act) : Decidable (k.Undisturbed mac act) := by
  rcases act with _ | _ <;> dsimp only [Undisturbed] <;> infer_instance

structure Coherent (k : Keyed) : Prop where
  root : ∃ cache, k.auth.src = .perEpoch cache
  small : ∀ epoch s, k.store.get epoch = some s → epoch < 2 ^ 32
  sending : ∀ epoch key s, k.auth.sendCache = some (epoch, key) → k.store.highest = some epoch →
    k.store.get epoch = some s → key = mac.deriveKey s epoch
  receiving : ∀ session key s, k.auth.recv.cached = some (session, key) →
    k.store.get (session % 2 ^ 32) = some s → key = mac.deriveKey s session

variable {mac}

theorem new_coherent (mode : FrameAuth) (keep : Nat) : (new mode keep).Coherent mac where
  root := ⟨none, rfl⟩
  small := by simp [new, get_empty]
  sending := by simp [new, get_empty]
  receiving := by simp [new, get_empty]

theorem Coherent.put {k : Keyed} (coherent : k.Coherent mac) (epoch : UInt32) (secret : Bytes)
    (keeps : k.Keeps mac epoch.toNat secret) :
    Coherent mac { k with store := k.store.put epoch.toNat secret } where
  root := coherent.root
  small := by
    intro e s held
    rcases get_put held with ⟨same, -⟩ | ⟨-, old⟩
    · rw [same]
      exact epoch.toNat_lt
    · exact coherent.small e s old
  sending := by
    intro e key s cached top held
    -- the highest epoch is the one written, with nothing above it, or it is unchanged
    rcases highest_put top with ⟨same, above⟩ | ⟨apart, before⟩
    · rcases get_put held with ⟨-, written⟩ | ⟨apart, -⟩
      · subst same written
        apply keeps.1 _ _ cached rfl
        cases highest : k.store.highest with
        | none => rfl
        | some h =>
          obtain ⟨found, -⟩ := highest_eq_some.mp highest
          obtain ⟨s, found⟩ := Option.isSome_iff_exists.mp found
          simpa using above h s found
      · exact absurd same apart
    · rcases get_put held with ⟨same, -⟩ | ⟨-, old⟩
      · exact absurd same apart
      · exact coherent.sending e key s cached before old
  receiving := by
    intro session key s cached held
    rcases get_put held with ⟨same, written⟩ | ⟨-, old⟩
    · rw [written]
      exact keeps.2 _ cached same
    · exact coherent.receiving session key s cached old

theorem Coherent.pruneBelow {k : Keyed} (coherent : k.Coherent mac) (base : Nat) :
    Coherent mac { k with store := k.store.pruneBelow base } where
  root := coherent.root
  small e s held := coherent.small e s (get_pruneBelow held)
  sending e key s cached top held :=
    coherent.sending e key s cached (highest_pruneBelow top) (get_pruneBelow held)
  receiving session key s cached held :=
    coherent.receiving session key s cached (get_pruneBelow held)

end Keyed

namespace LinkFrameAuth

variable {mac : MacSuite} {a : LinkFrameAuth} {store : SecretStore}

theorem deriveSend_key {epoch session : Nat} {key : Bytes}
    (material : (a.deriveSend mac store epoch).1 = some (session, key)) :
    session = epoch ∧ ∃ s, store.get epoch = some s ∧ key = mac.deriveKey s epoch := by
  unfold deriveSend at material
  cases held : store.get epoch with
  | none =>
    rw [held] at material
    cases material
  | some s =>
    rw [held] at material
    cases material
    exact ⟨rfl, s, rfl, rfl⟩

theorem deriveSend_state (mac : MacSuite) (a : LinkFrameAuth) (store : SecretStore) (epoch : Nat) :
    (a.deriveSend mac store epoch).2 = a ∨
      ∃ s, store.get epoch = some s ∧ (a.deriveSend mac store epoch).2 =
        { a with src := .perEpoch (some (epoch, mac.deriveKey s epoch)) } := by
  unfold deriveSend
  cases held : store.get epoch with
  | none => exact .inl rfl
  | some s => exact .inr ⟨s, rfl, rfl⟩

variable {cache : Option (Nat × Bytes)}

theorem sendMaterial_key (root : a.src = .perEpoch cache) {session : Nat} {key : Bytes}
    (material : (a.sendMaterial mac store).1 = some (session, key)) :
    store.highest = some session ∧ (cache = some (session, key) ∨
      ∃ s, store.get session = some s ∧ key = mac.deriveKey s session) := by
  unfold sendMaterial at material
  rw [root] at material
  cases top : store.highest with
  | none => simp [top] at material
  | some epoch =>
    cases cache with
    | none =>
      simp only [top] at material
      obtain ⟨same, derived⟩ := deriveSend_key material
      subst same
      exact ⟨rfl, .inr derived⟩
    | some entry =>
      obtain ⟨e, k⟩ := entry
      simp only [top] at material
      split at material
      · rename_i same
        cases material
        exact ⟨rfl, .inl (by rw [same])⟩
      · obtain ⟨same, derived⟩ := deriveSend_key material
        subst same
        exact ⟨rfl, .inr derived⟩

theorem sendMaterial_state (mac : MacSuite) (store : SecretStore) (root : a.src = .perEpoch cache) :
    (a.sendMaterial mac store).2 = a ∨
      ∃ epoch s, store.get epoch = some s ∧ (a.sendMaterial mac store).2 =
        { a with src := .perEpoch (some (epoch, mac.deriveKey s epoch)) } := by
  unfold sendMaterial
  rw [root]
  cases store.highest with
  | none => exact .inl rfl
  | some epoch =>
    have derived := deriveSend_state mac a store epoch
    cases cache with
    | none => exact derived.imp_right (⟨epoch, ·⟩)
    | some entry =>
      dsimp only
      split
      · exact .inl rfl
      · exact derived.imp_right (⟨epoch, ·⟩)

theorem sealFrame_state (mac : MacSuite) (a : LinkFrameAuth) (store : SecretStore) (frame : Frame) :
    ∃ counter, (a.sealFrame mac store frame).2 = { a with counter } ∨
      (a.sealFrame mac store frame).2 = { (a.sendMaterial mac store).2 with counter } := by
  unfold sealFrame
  split
  · exact ⟨a.counter, .inl rfl⟩
  split
  · split
    · rename_i unmade
      exact ⟨(a.sendMaterial mac store).2.counter, .inr (by rw [unmade])⟩
    · rename_i made
      exact ⟨_, .inr (by rw [made])⟩
  · exact ⟨a.counter, .inl rfl⟩

def rootIn (a : LinkFrameAuth) (store : SecretStore) (session : Nat) : Option Bytes :=
  match a.src with
  | .fixed root _ _ => some root
  | .perEpoch _ => store.get (session % 2 ^ 32)

theorem rootIn_perEpoch (root : a.src = .perEpoch cache) (store : SecretStore) (session : Nat) :
    a.rootIn store session = store.get (session % 2 ^ 32) := by
  simp only [rootIn, root]

theorem peerKey_effect (mac : MacSuite) (a : LinkFrameAuth) (store : SecretStore) (session : Nat) :
    (a.rootIn store session = none ∧ a.peerKey mac store session = (none, a.recv)) ∨
      (∃ key, a.recv.cached = some (session, key) ∧ a.peerKey mac store session = (some key, a.recv)) ∨
      ∃ root, a.rootIn store session = some root ∧ (∀ key, a.recv.cached ≠ some (session, key)) ∧
        a.peerKey mac store session = (some (mac.deriveKey root session),
            { a.recv with cached := some (session, mac.deriveKey root session) }) := by
  unfold peerKey rootIn
  cases cached : a.recv.cached with
  | none =>
    cases a.src with
    | fixed root _ _ => simp
    | perEpoch _ => cases store.get (session % 2 ^ 32) <;> simp
  | some entry =>
    obtain ⟨other, key⟩ := entry
    by_cases same : other = session
    · simp [same]
    cases a.src with
    | fixed root _ _ => simp [same]
    | perEpoch _ => cases store.get (session % 2 ^ 32) <;> simp [same]

theorem askResync_inner (a : LinkFrameAuth) (store : SecretStore) (session lookupAt : Nat) :
    (a.askResync store session lookupAt).inner = store.inner := by
  unfold askResync
  split
  · rfl
  · split <;> rfl

theorem openFrame_state (mac : MacSuite) (a : LinkFrameAuth) (store : SecretStore)
    (times : OpenTimes) (frame : Frame) : (a.openFrame mac store times frame).2.1.src = a.src ∧
      (a.openFrame mac store times frame).2.2.inner = store.inner ∧
      ((a.openFrame mac store times frame).2.1.recv.cached = a.recv.cached ∨
        ∃ session, (a.openFrame mac store times frame).2.1.recv.cached =
          (a.peerKey mac store session).2.cached) := by
  unfold openFrame
  split
  · exact ⟨rfl, rfl, .inl rfl⟩
  rename_i body session counter tag _
  split
  · rename_i unmade
    exact ⟨rfl, askResync_inner a store _ _, .inr ⟨session, by rw [unmade]⟩⟩
  rename_i made
  split
  · split
    · exact ⟨rfl, rfl, .inr ⟨session, by rw [made]⟩⟩
    · exact ⟨rfl, rfl, .inr ⟨session, by rw [made]⟩⟩
  · exact ⟨rfl, rfl, .inr ⟨session, by rw [made]⟩⟩

end LinkFrameAuth

namespace Keyed

variable {mac : MacSuite} {k : Keyed}

theorem Coherent.sealFrame (coherent : k.Coherent mac) (frame : Frame) :
    Coherent mac { k with auth := (k.auth.sealFrame mac k.store frame).2 } := by
  obtain ⟨cache, root⟩ := coherent.root
  have same : ∀ a : LinkFrameAuth, a.src = k.auth.src → a.recv = k.auth.recv →
      Coherent mac { k with auth := a } := by
    intro a src recv
    refine ⟨⟨cache, src.trans root⟩, coherent.small, ?_, ?_⟩
    · intro e key s cached
      apply coherent.sending e key s
      rw [← cached]
      simp only [sendCache, src]
    · intro session key s cached
      exact coherent.receiving session key s (recv ▸ cached)
  obtain ⟨counter, kept | moved⟩ := sealFrame_state mac k.auth k.store frame
  · rw [kept]
    exact same _ rfl rfl
  rcases sendMaterial_state mac k.store root with
    kept | ⟨epoch, s, held, derived⟩
  · rw [moved, kept]
    exact same _ rfl rfl
  rw [moved, derived]
  refine ⟨⟨_, rfl⟩, coherent.small, ?_, coherent.receiving⟩
  intro e key s' cached _ held'
  cases cached
  rw [held] at held'
  cases held'
  rfl

theorem Coherent.openFrame (coherent : k.Coherent mac) (times : OpenTimes) (frame : Frame) :
    Coherent mac (k.next mac (.openFrame times frame)) := by
  obtain ⟨cache, root⟩ := coherent.root
  obtain ⟨src, inner, recv⟩ := openFrame_state mac k.auth k.store times frame
  have get : ∀ e, (k.auth.openFrame mac k.store times frame).2.2.get e = k.store.get e := by
    intro e
    simp only [SecretStore.get, inner]
  have highest : (k.auth.openFrame mac k.store times frame).2.2.highest = k.store.highest := by
    simp only [highest, inner]
  refine ⟨⟨cache, src.trans root⟩, ?_, ?_, ?_⟩
  · intro e s held
    exact coherent.small e s (by rw [← get]; exact held)
  · intro e key s cached top held
    apply coherent.sending e key s
    · rw [← cached]
      simp only [sendCache, Keyed.next, src]
    · rw [← highest]
      exact top
    · rw [← get]
      exact held
  intro session key s cached held
  have stored : k.store.get (session % 2 ^ 32) = some s := by
    rw [← get]
    exact held
  rcases recv with kept | ⟨opened, moved⟩
  · exact coherent.receiving session key s (kept ▸ cached) stored
  have now : (k.auth.peerKey mac k.store opened).2.cached = some (session, key) := moved ▸ cached
  rcases peerKey_effect mac k.auth k.store opened with
    ⟨-, none⟩ | ⟨_, -, hit⟩ | ⟨s', found, -, miss⟩
  · rw [none] at now
    exact coherent.receiving session key s now stored
  · rw [hit] at now
    exact coherent.receiving session key s now stored
  rw [miss] at now
  cases now
  rw [rootIn_perEpoch root] at found
  rw [found] at stored
  cases stored
  rfl

theorem Coherent.next (k : Keyed) (act : Act) (coherent : k.Coherent mac)
    (undisturbed : k.Undisturbed mac act) : (k.next mac act).Coherent mac := by
  cases act with
  | insert epoch secret =>
    show Coherent mac { k with store := k.store.insert epoch.toNat secret }
    unfold SecretStore.insert
    split
    · exact coherent
    rename_i absent
    rw [contains_iff] at absent
    exact coherent.put epoch secret (undisturbed (by simpa using absent))
  | replace epoch secret => exact coherent.put epoch secret undisturbed
  | pruneBelow base => exact coherent.pruneBelow base.toNat
  | sealFrame frame => exact coherent.sealFrame frame
  | openFrame times frame => exact coherent.openFrame times frame

theorem Coherent.usesStored (coherent : k.Coherent mac) (act : Act)
    (undisturbed : k.Undisturbed mac act) : k.UsesStored mac act := by
  obtain ⟨cache, root⟩ := coherent.root
  intro session key used
  cases act with
  | sealFrame frame =>
    simp only [usedKey] at used
    split at used
    · obtain ⟨top, origin⟩ := sendMaterial_key root used
      obtain ⟨found, -⟩ := highest_eq_some.mp top
      obtain ⟨s, held⟩ := Option.isSome_iff_exists.mp found
      have bound : session % 2 ^ 32 = session := Nat.mod_eq_of_lt (coherent.small session s held)
      rw [bound]
      rcases origin with cached | derived
      · exact ⟨s, held, coherent.sending session key s
          (by simp only [sendCache, root, cached]) top held⟩
      · exact derived
    · cases used
  | openFrame times frame =>
    obtain ⟨named, trailer, used⟩ := Option.bind_eq_some_iff.mp used
    obtain ⟨key', made, pair⟩ := Option.map_eq_some_iff.mp used
    cases pair
    rcases peerKey_effect mac k.auth k.store session with
      ⟨-, none⟩ | ⟨_, cached, hit⟩ | ⟨s, found, -, miss⟩
    · rw [none] at made
      cases made
    · rw [hit] at made
      cases made
      obtain ⟨s, held⟩ := Option.isSome_iff_exists.mp (undisturbed _ cached trailer)
      exact ⟨s, held, coherent.receiving session key s cached held⟩
    rw [miss] at made
    cases made
    rw [rootIn_perEpoch root] at found
    exact ⟨s, found, rfl⟩
  | _ => cases used

/-- In every run that does not disturb a cached key, each frame is sealed and opened under
the key of the secret the store holds at that moment. -/
theorem undisturbed_run_uses_stored (mac : MacSuite) (mode : FrameAuth) (keep : Nat)
    (acts : List Act) (undisturbed : Follows (next mac) (Undisturbed mac) (new mode keep) acts) :
    Follows (next mac) (UsesStored mac) (new mode keep) acts := by
  have coherent : ∀ before act after, acts = before ++ act :: after →
      Coherent mac (before.foldl (next mac) (new mode keep)) := by
    intro before act after split
    rw [split] at undisturbed
    exact (follows_append.mp undisturbed).1.invariant Coherent.next (new_coherent mode keep)
  rw [follows_iff_splits] at undisturbed ⊢
  intro before act after split
  exact (coherent before act after split).usesStored act (undisturbed before act after split)

def toyMac : MacSuite where
  hkdf salt ikm _ len := (ikm.take 24 ++ salt).take len
  hmac key message := (key.take 16 ++ (message.drop 8).take 16).rightpad 32 0
  hmac_length := by
    intro key message
    simp only [List.length_rightpad, List.length_append, List.length_take, List.length_drop]
    omega

def toyRoot (byte : UInt8) : Bytes := List.replicate 32 byte

def toyFrame : Frame := { Frame.empty frameRelay with payload := [7] }

def rotation : List Act :=
  [.insert 0 (toyRoot 10), .sealFrame toyFrame,
    .openFrame ⟨0, 0, 0, 0⟩
      (sealWith toyMac frameRelayAuth 0 (toyMac.deriveKey (toyRoot 10) 0) 1 toyFrame),
    .insert 1 (toyRoot 11), .sealFrame toyFrame,
    .openFrame ⟨0, 0, 0, 0⟩
      (sealWith toyMac frameRelayAuth 1 (toyMac.deriveKey (toyRoot 11) 1) 2 toyFrame),
    .pruneBelow 1, .sealFrame toyFrame]

theorem undisturbed_run_uses_stored_rotation :
    Follows (next toyMac) (Undisturbed toyMac) (new .require 4) rotation ∧
      Follows (next toyMac) (UsesStored toyMac) (new .require 4) rotation := by
  have undisturbed : Follows (next toyMac) (Undisturbed toyMac) (new .require 4) rotation := by
    decide +kernel
  exact ⟨undisturbed, undisturbed_run_uses_stored toyMac .require 4 rotation undisturbed⟩

/-- The responder's `replace` leaves the send cache behind: the next frame is sealed under
the key of the secret that was replaced. -/
theorem replaced_secret_still_seals : ¬ Follows (next toyMac) (UsesStored toyMac) (new .require 4)
      [.insert 0 (toyRoot 10), .sealFrame toyFrame, .replace 0 (toyRoot 20), .sealFrame toyFrame] := by
  rintro ⟨-, -, -, uses, -⟩
  obtain ⟨s, held, derived⟩ := uses 0 (toyMac.deriveKey (toyRoot 10) 0) (by decide +kernel)
  have now : some s = some (toyRoot 20) := held.symm.trans (by decide +kernel)
  cases now
  revert derived
  decide

end Keyed

end Dkms.Link
