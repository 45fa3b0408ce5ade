import Dkms.Node.Effects

namespace Dkms.Node

open Std Dkms.Core PendingStore

namespace PendingStore

def live (s : PendingStore) (now : Nat) (keyId : KeyId) : Option PendingEntry :=
  (s.get keyId).filter (!·.isExpired now)

def Collectable (s : PendingStore) (keyId : KeyId) (sae master : SaeId) (now : Nat) : Prop :=
  ∃ entry ∈ s.get keyId, entry.isExpired now = false ∧ sae ∈ entry.authorized ∧
    entry.initiator = master ∧ sae ∉ entry.retrieved

instance (s : PendingStore) (keyId : KeyId) (sae master : SaeId) (now : Nat) :
    Decidable (s.Collectable keyId sae master now) :=
  inferInstanceAs (Decidable (∃ entry ∈ s.get keyId, _))

variable {s : PendingStore} {keyId k : KeyId} {sae master : SaeId} {now : Nat}

theorem take_ok_iff : (∃ taken, (s.takeForSaeOfMaster keyId sae (some master) now).1 = .ok taken) ↔
      s.Collectable keyId sae master now := by
  unfold takeForSaeOfMaster Collectable get
  cases s.inner[keyId]? with
  | none => simp
  | some entry =>
    dsimp only
    split_ifs <;> simp_all

def Spent (s : PendingStore) (keyId : KeyId) (sae : SaeId) : Prop :=
  ∀ entry ∈ s.get keyId, sae ∈ entry.retrieved

theorem Spent.take (spent : s.Spent k sae) :
    (s.takeForSaeOfMaster keyId sae (some master) now).2.Spent k sae := by
  intro entry held
  rcases takeForSaeOfMaster_cases s keyId sae (some master) now with ⟨-, kept⟩ | taken
  · rcases kept k with same | ⟨gone, -⟩
    · exact spent entry (same ▸ held)
    · rw [gone] at held
      cases held
  obtain ⟨stored, found, -, -, unspent, -, -, after⟩ := taken
  rw [after] at held
  split at held
  · rename_i same
    subst same
    exact absurd (spent stored found) unspent
  · exact spent entry held

theorem spent_of_take (collectable : s.Collectable keyId sae master now) :
    (s.takeForSaeOfMaster keyId sae (some master) now).2.Spent keyId sae := by
  obtain ⟨taken, ok⟩ := take_ok_iff.mpr collectable
  rcases takeForSaeOfMaster_cases s keyId sae (some master) now with ⟨⟨error, failed⟩, -⟩ | took
  · rw [ok] at failed
    cases failed
  obtain ⟨stored, -, -, -, -, -, -, after⟩ := took
  intro entry held
  rw [after, if_pos rfl] at held
  split at held
  · cases held
  · cases held
    exact List.mem_cons_self

theorem live_of_failed_take (failed : ¬ s.Collectable keyId sae master now) :
    (s.takeForSaeOfMaster keyId sae (some master) now).2.live now k = s.live now k := by
  rcases takeForSaeOfMaster_cases s keyId sae (some master) now with ⟨-, kept⟩ | took
  · rcases kept k with same | ⟨gone, -, entry, held, expired⟩
    · rw [live, same, live]
    · simp [live, gone, held, Option.filter, expired]
  · obtain ⟨stored, -, -, -, -, -, ok, -⟩ := took
    exact absurd (take_ok_iff.mp ⟨_, ok⟩) failed

def Alike (s s' : PendingStore) (origin : NodeId) : Prop :=
  (∀ k, s'.get k = s.get k) ∧ s'.pendingFrom origin = s.pendingFrom origin ∧ s'.defaultTtl = s.defaultTtl

def lifetime (s : PendingStore) (ttl : Option Nat) : Nat := min (ttl.getD s.defaultTtl) maxTtl

theorem lifetime_congr {s' : PendingStore} {ttl : Option Nat}
    (same : s'.defaultTtl = s.defaultTtl) : s'.lifetime ttl = s.lifetime ttl := by
  rw [lifetime, lifetime, same]

theorem Alike.refl (s : PendingStore) (origin : NodeId) : s.Alike s origin :=
  ⟨fun _ => rfl, rfl, rfl⟩

theorem insertFromPeer_outcome (s : PendingStore) (keyId : KeyId) (origin : NodeId)
    (initiator : SaeId) (authorized : List SaeId) (material : Bytes) (ttl : Option Nat)
    (now : Nat) :
    let result := s.insertFromPeer keyId origin initiator authorized material ttl now
    (maxPendingPerOrigin ≤ s.pendingFrom origin ∧ result.1 = .error .originFull ∧ s.Alike result.2 origin) ∨
    (¬ maxPendingPerOrigin ≤ s.pendingFrom origin ∧ (s.get keyId).isSome ∧
      result.1 = .error .occupied ∧ s.Alike result.2 origin) ∨
    (¬ maxPendingPerOrigin ≤ s.pendingFrom origin ∧ s.get keyId = none ∧ result.1 = .ok () ∧
      result.2.defaultTtl = s.defaultTtl ∧
      ∀ k, result.2.get k = if keyId = k then
        some ⟨initiator, authorized, [], material, now + s.lifetime ttl, some origin⟩
        else s.get k) := by
  have quota : (s.perOrigin.insert origin (s.perOrigin.getD origin 0)).getD origin 0 =
      s.perOrigin.getD origin 0 := by simp
  unfold insertFromPeer
  dsimp only
  split
  · rename_i full
    exact .inl ⟨full, rfl, fun k => rfl, quota, rfl⟩
  rename_i room
  split
  · rename_i present
    exact .inr (.inl ⟨room, TreeMap.mem_iff_isSome_getElem?.mp present, rfl, fun k => rfl, quota,
      rfl⟩)
  · rename_i absent
    refine .inr (.inr ⟨room, TreeMap.getElem?_eq_none absent, rfl, rfl, fun k => ?_⟩)
    simp only [get, TreeMap.getElem?_insert, Std.compare_eq_iff_eq, lifetime]

end PendingStore

abbrev runAlone {α : Type} (self : NodeId) (hint : Hint) (prog : Handler α) (w : World) :
    Option (α × World) :=
  prog.eval (fun op => exec self op hint) w

variable {self : NodeId} {hint : Hint} {w w' : World}

theorem ends_in_error {α : Type} {prog : Handler (Except DkmsError α)} (self : NodeId) (hint : Hint)
    (w : World) (failed : (runAlone self hint prog w).map (·.1.isOk) = some false) :
    ∃ error w', runAlone self hint prog w = some (.error error, w') := by
  obtain ⟨⟨result, w'⟩, ran, failed⟩ := Option.map_eq_some_iff.mp failed
  cases result with
  | error error => exact ⟨error, w', ran⟩
  | ok result => cases failed

section DecKeys

variable {requester master : SaeId} {keyIds : List KeyId} {keys : List Etsi014Key}

theorem takeKeys_cons (keyId : KeyId) :
    runAlone self hint (takeKeys requester master (keyId :: keyIds) keys) w =
      let (result, pending) := (w.nodes self).pending.takeForSaeOfMaster keyId requester (some master) w.now
      let w := w.setNode self { w.nodes self with pending }
      match result with
      | .error error => some (.error error, w)
      | .ok (material, _) =>
        runAlone self hint (takeKeys requester master keyIds (keys ++ [⟨keyId, material⟩])) w := by
  simp only [takeKeys, Prog.perform_bind, Prog.eval_call, exec]
  split
  · rename_i failed
    rw [failed]
    rfl
  · rename_i ok
    rw [ok]

theorem takeKeys_spent {result : Except DkmsError (List Etsi014Key)} {k : KeyId}
    (ran : runAlone self hint (takeKeys requester master keyIds keys) w = some (result, w'))
    (spent : (w.nodes self).pending.Spent k requester) :
    (w'.nodes self).pending.Spent k requester := by
  induction keyIds generalizing keys w with
  | nil =>
    cases ran
    exact spent
  | cons keyId keyIds ih =>
    rw [takeKeys_cons] at ran
    have after : ((w.setNode self { w.nodes self with
        pending := ((w.nodes self).pending.takeForSaeOfMaster keyId requester (some master)
          w.now).2 }).nodes self).pending.Spent k requester := by
      simpa using spent.take
    dsimp only at ran
    split at ran
    · cases ran
      exact after
    · exact ih ran after

/-- An error leaves every live entry as it was exactly when no key was handed out before it. -/
theorem dec_keys_error_consumes_nothing (cfg : DkmsConfig) (self : NodeId)
    (requester master : SaeId) (keyIds : List KeyId) (hint : Hint) (w w' : World)
    (error : DkmsError)
    (failed : runAlone self hint (handleDecKeys cfg self requester master keyIds) w =
      some (.error error, w')) :
    (∀ k, (w'.nodes self).pending.live w.now k = (w.nodes self).pending.live w.now k) ↔
      (authorizeLocalSae cfg self requester).isOk = false ∨
        ∀ keyId ∈ keyIds.head?,
          ¬ (w.nodes self).pending.Collectable keyId requester master w.now := by
  unfold handleDecKeys at failed
  cases may : authorizeLocalSae cfg self requester with
  | error refused =>
    rw [may] at failed
    cases failed
    simp [Except.toBool]
  | ok =>
    rw [may] at failed
    have granted : (Except.ok () : Except DkmsError Unit).isOk = true := rfl
    simp only [granted, Bool.true_eq_false, false_or]
    cases keyIds with
    | nil => cases failed
    | cons keyId keyIds =>
      rw [takeKeys_cons] at failed
      dsimp only at failed
      simp only [List.head?_cons, Option.mem_def, Option.some.injEq, forall_eq']
      by_cases first : (w.nodes self).pending.Collectable keyId requester master w.now
      · -- the first key is handed out, and the entry that it had is not there any more
        obtain ⟨⟨material, initiator⟩, ok⟩ := take_ok_iff.mpr first
        rw [ok] at failed
        have spent := takeKeys_spent failed (by simpa using spent_of_take first)
        obtain ⟨entry, held, fresh, -, -, unspent⟩ := id first
        refine iff_of_false (fun same => ?_) (fun refused => refused first)
        have kept := same keyId
        have before : (w.nodes self).pending.live w.now keyId = some entry := by
          simp [live, Option.mem_def.mp held, fresh]
        rw [before, live, Option.filter_eq_some_iff] at kept
        exact unspent (spent entry kept.1)
      · have refused : ∀ taken,
            ((w.nodes self).pending.takeForSaeOfMaster keyId requester (some master) w.now).1 ≠ .ok taken :=
          fun taken ok => first (take_ok_iff.mp ⟨taken, ok⟩)
        split at failed
        · cases failed
          refine iff_of_true (fun k => ?_) first
          simpa using live_of_failed_take first
        · rename_i material initiator ok
          exact absurd ok (refused _)

def keyAtB : World :=
  let w := (twoNodes [] []).world
  w.setNode "B" { w.nodes "B" with
    pending := (w.nodes "B").pending.insert "k1" "m" ["s"] [7] none 0 }

theorem dec_keys_error_consumes_nothing_unknown :
    ∃ error w', runAlone "B" ⟨0, true⟩ (handleDecKeys plainConfig "B" "s" "m" ["k2", "k1"]) keyAtB =
        some (.error error, w') ∧
      ∀ k, (w'.nodes "B").pending.live 0 k = (keyAtB.nodes "B").pending.live 0 k := by
  have refused : (runAlone "B" ⟨0, true⟩ (handleDecKeys plainConfig "B" "s" "m" ["k2", "k1"])
      keyAtB).map (·.1.isOk) = some false := by decide +kernel
  obtain ⟨error, w', failed⟩ := ends_in_error "B" ⟨0, true⟩ keyAtB refused
  refine ⟨error, w', failed, ?_⟩
  exact (dec_keys_error_consumes_nothing plainConfig "B" "s" "m" ["k2", "k1"] ⟨0, true⟩ keyAtB w'
    error failed).mpr (.inr (by decide +kernel))

/-- The second id is unknown: the SAE gets an error, and the key it never saw is gone. -/
theorem unknown_id_burns_key : (keyAtB.nodes "B").pending.Collectable "k1" "s" "m" 0 ∧
      (runAlone "B" ⟨0, true⟩ (handleDecKeys plainConfig "B" "s" "m" ["k1", "k2"]) keyAtB).map
        (fun ran => (ran.1.isOk, ((ran.2.nodes "B").pending.live 0 "k1").isSome)) =
          some (false, false) := by
  decide +kernel

end DecKeys

section ExtKeys

variable {sha : Bytes → Bytes} {d : Delivery} {keys : List Etsi020Key} {acked : List KeyId}

/-- The transport key of an element: of those shared under its id, the one that the elements before
it leave. -/
def sharedKey (dec : SecureKeyBuffer) (earlier : List Etsi020Key) (k : Etsi020Key) :
    Option TransportKey :=
  (transportKeyIdOf k).toOption.bind fun id =>
    (dec.inner.filter (·.id = id))[earlier.countP fun e => (transportKeyIdOf e).toOption = some id]?

def Readable (dec : SecureKeyBuffer) (earlier : List Etsi020Key) (k : Etsi020Key) : Prop :=
  ∃ transport ∈ sharedKey dec earlier k, k.value.length ≤ transport.bytes.length

/-- The peer has room, and an element whose key id is free and whose digest fits stands before all
those whose transport key is unnamed, not shared or short. -/
def Deposits (sha : Bytes → Bytes) (d : Delivery) (pending : PendingStore) (dec : SecureKeyBuffer)
    (keys : List Etsi020Key) : Prop :=
  pending.pendingFrom d.peer < maxPendingPerOrigin ∧
    ∃ before k after, keys = before ++ k :: after ∧ pending.get k.keyId = none ∧
      (∃ transport ∈ sharedKey dec before k, k.value.length ≤ transport.bytes.length ∧
        digestMatches sha k (List.zipWith (· ^^^ ·) k.value transport.bytes)) ∧
      ∀ earlier e later, before = earlier ++ e :: later → Readable dec earlier e

theorem filter_eraseP (keys : List TransportKey) (id id' : KeyId) :
    (keys.eraseP (·.id = id)).filter (·.id = id') =
      if id = id' then (keys.filter (·.id = id')).tail else keys.filter (·.id = id') := by
  induction keys with
  | nil => simp
  | cons key keys ih =>
    by_cases here : key.id = id
    · by_cases same : id = id' <;> simp [here, same]
    · by_cases other : key.id = id'
      · subst other
        simpa [here, Ne.symm here] using ih
      · simpa [here, other] using ih

theorem sharedKey_cons {dec : SecureKeyBuffer} {earlier : List Etsi020Key} {k e : Etsi020Key}
    {id : KeyId} (named : transportKeyIdOf k = .ok id) :
    sharedKey dec (k :: earlier) e = sharedKey (dec.takeById id).2 earlier e := by
  unfold sharedKey SecureKeyBuffer.takeById
  apply Option.bind_congr
  intro id' _
  rw [filter_eraseP, List.countP_cons, named]
  by_cases same : id = id' <;> simp [Except.toOption, same]

theorem sharedKey_nil (dec : SecureKeyBuffer) {k : Etsi020Key} {id : KeyId}
    (named : transportKeyIdOf k = .ok id) : sharedKey dec [] k = (dec.takeById id).1 := by
  unfold sharedKey SecureKeyBuffer.takeById
  rw [named, ← List.head?_filter, List.head?_eq_getElem?]
  rfl

theorem readable_named {dec : SecureKeyBuffer} {k : Etsi020Key} {transport : TransportKey}
    {earlier : List Etsi020Key} (shared : transport ∈ sharedKey dec earlier k) :
    ∃ id, transportKeyIdOf k = .ok id := by
  unfold sharedKey at shared
  cases named : transportKeyIdOf k with
  | error error =>
    rw [named] at shared
    cases shared
  | ok id => exact ⟨id, rfl⟩

theorem deposits_cons {pending : PendingStore} {dec : SecureKeyBuffer} (k : Etsi020Key) :
    Deposits sha d pending dec (k :: keys) ↔
      ∃ id transport, transportKeyIdOf k = .ok id ∧ (dec.takeById id).1 = some transport ∧
        k.value.length ≤ transport.bytes.length ∧
        (pending.pendingFrom d.peer < maxPendingPerOrigin ∧ pending.get k.keyId = none ∧
            digestMatches sha k (List.zipWith (· ^^^ ·) k.value transport.bytes) ∨
          Deposits sha d pending (dec.takeById id).2 keys) := by
  constructor
  · rintro ⟨room, before, k', after, split, vacant, ⟨transport, shared, long, fits⟩, readable⟩
    cases before with
    | nil =>
      cases split
      obtain ⟨id, named⟩ := readable_named shared
      rw [sharedKey_nil dec named] at shared
      exact ⟨id, transport, named, shared, long, .inl ⟨room, vacant, fits⟩⟩
    | cons e before =>
      cases split
      obtain ⟨first, here, enough⟩ := readable [] k before rfl
      obtain ⟨id, named⟩ := readable_named here
      rw [sharedKey_nil dec named] at here
      rw [sharedKey_cons named] at shared
      refine ⟨id, first, named, here, enough, .inr ⟨room, before, k', after, rfl, vacant,
        ⟨transport, shared, long, fits⟩, ?_⟩⟩
      rintro earlier e later rfl
      have rest := readable (k :: earlier) e later rfl
      unfold Readable at rest ⊢
      rwa [sharedKey_cons named] at rest
  · rintro ⟨id, transport, named, here, long, ⟨room, vacant, fits⟩ |
      ⟨room, before, k', after, rfl, vacant, ⟨other, shared, enough, fits⟩, readable⟩⟩
    · rw [← sharedKey_nil dec named] at here
      exact ⟨room, [], k, keys, rfl, vacant, ⟨transport, here, long, fits⟩, by simp⟩
    rw [← sharedKey_nil dec named] at here
    rw [← sharedKey_cons named] at shared
    refine ⟨room, k :: before, k', after, rfl, vacant, ⟨other, shared, enough, fits⟩, ?_⟩
    intro earlier e later split
    cases earlier with
    | nil =>
      cases split
      exact ⟨transport, here, long⟩
    | cons first earlier =>
      cases split
      obtain ⟨key, shared, enough⟩ := readable earlier e later rfl
      exact ⟨key, sharedKey_cons named ▸ shared, enough⟩

inductive TurnEnd where
  | failed (error : DkmsError)
  | left
  | stored

def receiveKey (sha : Bytes → Bytes) (self : NodeId) (d : Delivery) (k : Etsi020Key) (w : World) :
    TurnEnd × World :=
  match transportKeyIdOf k with
  | .error error => (.failed error, w)
  | .ok transportKeyId =>
    let (transport, dec) := ((w.nodes self).dec d.peer).takeById transportKeyId
    let w := w.setNode self ((w.nodes self).setDec d.peer dec)
    match transport with
    | none => (.failed (.transportKeyMissing d.peer transportKeyId), w)
    | some transport =>
      match unwrapSessionKey transport.bytes k.value with
      | .error message => (.failed (.crypto message), w)
      | .ok plaintext =>
        if !digestMatches sha k plaintext then (.left, w)
        else
          let (result, pending) := (w.nodes self).pending.insertFromPeer k.keyId d.peer
            d.initiator d.authorized plaintext d.ttl w.now
          let w := w.setNode self { w.nodes self with pending }
          match result with
          | .ok () => (.stored, w)
          | .error .occupied => (.left, w)
          | .error .originFull => (.failed (.pendingFull d.peer), w)

theorem receiveKeys_cons (k : Etsi020Key) :
    runAlone self hint (receiveKeys sha d (k :: keys) acked) w =
      match receiveKey sha self d k w with
      | (.failed error, w) => some (.error error, w)
      | (.left, w) => runAlone self hint (receiveKeys sha d keys acked) w
      | (.stored, w) => runAlone self hint (receiveKeys sha d keys (acked ++ [k.keyId])) w := by
  unfold receiveKey
  cases named : transportKeyIdOf k with
  | error error => simp [receiveKeys, named]
  | ok transportKeyId =>
    simp only [receiveKeys, named, Prog.perform_bind, Prog.eval_call, exec]
    cases (((w.nodes self).dec d.peer).takeById transportKeyId).1 with
    | none => rfl
    | some transport =>
      dsimp only
      cases unwrapSessionKey transport.bytes k.value with
      | error message => rfl
      | ok plaintext =>
        dsimp only
        split
        · rfl
        simp only [Prog.eval_call, exec]
        split
        · rename_i stored
          rw [stored]
        · rename_i occupied
          rw [occupied]
        rename_i full
        rw [full]
        rfl

def Deposited (sha : Bytes → Bytes) (self : NodeId) (d : Delivery) (w : World)
    (keys : List Etsi020Key) : Prop :=
  Deposits sha d (w.nodes self).pending ((w.nodes self).dec d.peer) keys

/-- What a turn does to the `PendingStore`, and what it says about the rest of the loop. -/
inductive Turn (sha : Bytes → Bytes) (self : NodeId) (d : Delivery) (k : Etsi020Key) (w : World) :
    TurnEnd × World → Prop
  | failed (error : DkmsError) (w' : World) (now : w'.now = w.now)
      (alike : (w.nodes self).pending.Alike (w'.nodes self).pending d.peer)
      (stores : ∀ keys, ¬ Deposited sha self d w (k :: keys)) :
      Turn sha self d k w (.failed error, w')
  | left (w' : World) (now : w'.now = w.now)
      (alike : (w.nodes self).pending.Alike (w'.nodes self).pending d.peer)
      (stores : ∀ keys, Deposited sha self d w (k :: keys) ↔ Deposited sha self d w' keys) :
      Turn sha self d k w (.left, w')
  | stored (w' : World) (plaintext : Bytes) (now : w'.now = w.now)
      (vacant : (w.nodes self).pending.get k.keyId = none)
      (ttl : (w'.nodes self).pending.defaultTtl = (w.nodes self).pending.defaultTtl)
      (written : ∀ id, (w'.nodes self).pending.get id =
        if k.keyId = id then
          some ⟨d.initiator, d.authorized, [], plaintext,
            w.now + (w.nodes self).pending.lifetime d.ttl, some d.peer⟩
        else (w.nodes self).pending.get id)
      (stores : ∀ keys, Deposited sha self d w (k :: keys)) :
      Turn sha self d k w (.stored, w')

theorem receiveKey_turn (sha : Bytes → Bytes) (self : NodeId) (d : Delivery) (w : World)
    (k : Etsi020Key) : Turn sha self d k w (receiveKey sha self d k w) := by
  have first : ∀ keys, Deposited sha self d w (k :: keys) ↔ _ := fun _ => deposits_cons k
  unfold receiveKey
  cases named : transportKeyIdOf k with
  | error error => exact .failed _ w rfl (.refl _ _) (by simp [first, named])
  | ok transportKeyId =>
    simp only [named, Except.ok.injEq, exists_and_left, exists_eq_left'] at first
    dsimp only
    generalize ((w.nodes self).dec d.peer).takeById transportKeyId = result at first ⊢
    obtain ⟨transport, dec⟩ := result
    have same : ((w.setNode self ((w.nodes self).setDec d.peer dec)).nodes self).pending =
        (w.nodes self).pending := by
      simp [DkmsService.setDec]
    have alike : (w.nodes self).pending.Alike
        ((w.setNode self ((w.nodes self).setDec d.peer dec)).nodes self).pending d.peer := by
      rw [same]
      exact .refl _ _
    cases transport with
    | none => exact .failed _ _ rfl alike (by simp [first])
    | some transport =>
      simp only [Option.some.injEq, exists_eq_left'] at first
      dsimp only
      unfold unwrapSessionKey
      by_cases short : transport.bytes.length < k.value.length
      · rw [if_pos short]
        exact .failed _ _ rfl alike fun keys => by simp [first, Nat.not_le.mpr short]
      rw [if_neg short]
      simp only [Nat.not_lt.mp short, true_and] at first
      dsimp only
      generalize List.zipWith (· ^^^ ·) k.value transport.bytes = plaintext at first ⊢
      split
      · rename_i wrong
        have wrong : digestMatches sha k plaintext = false := by simpa using wrong
        refine .left _ rfl alike fun keys => ?_
        rw [first]
        simp [Deposited, wrong, DkmsService.setDec, DkmsService.dec]
      rename_i right
      have right : digestMatches sha k plaintext = true := by simpa using right
      rw [same]
      have outcome := (w.nodes self).pending.insertFromPeer_outcome k.keyId d.peer d.initiator
        d.authorized plaintext d.ttl w.now
      have now : (w.setNode self ((w.nodes self).setDec d.peer dec)).now = w.now := rfl
      rw [now]
      generalize (w.nodes self).pending.insertFromPeer k.keyId d.peer d.initiator d.authorized
        plaintext d.ttl w.now = result at outcome ⊢
      obtain ⟨result, pending⟩ := result
      rcases outcome with
        ⟨full, rfl, alike⟩ | ⟨room, taken, rfl, alike⟩ | ⟨room, vacant, rfl, ttl, written⟩
      · refine .failed _ _ rfl (by simpa using alike) fun keys => ?_
        simp [first, Deposits, Nat.not_lt.mpr full]
      · have occupied : (w.nodes self).pending.get k.keyId ≠ none := Option.isSome_iff_ne_none.mp taken
        refine .left _ rfl (by simpa using alike) fun keys => ?_
        rw [first]
        simp [Deposited, Deposits, occupied, alike.1, alike.2.1, DkmsService.dec, DkmsService.setDec]
      · refine .stored _ plaintext rfl vacant (by simpa using ttl) (by simpa using written) ?_
        simp [first, right, Nat.not_le.mp room, vacant]

variable {result : Except DkmsError (List KeyId)}

structure Received (sha : Bytes → Bytes) (node : NodeId) (d : Delivery) (keys : List Etsi020Key)
    (w : World) (result : Except DkmsError (List KeyId)) (w' : World) : Prop where
  entries : ∀ id, (w'.nodes node).pending.get id = (w.nodes node).pending.get id ∨
    (w.nodes node).pending.get id = none ∧ ∃ plaintext, (w'.nodes node).pending.get id =
      some ⟨d.initiator, d.authorized, [], plaintext,
        w.now + (w.nodes node).pending.lifetime d.ttl, some d.peer⟩
  some_stored : Deposited sha node d w keys →
    ∃ k ∈ keys, (w.nodes node).pending.get k.keyId = none ∧ (w'.nodes node).pending.get k.keyId ≠ none
  none_stored : ¬ Deposited sha node d w keys → result.isOk = false →
    ∀ id, (w'.nodes node).pending.get id = (w.nodes node).pending.get id

theorem receiveKeys_received
    (ran : runAlone self hint (receiveKeys sha d keys acked) w = some (result, w')) :
    Received sha self d keys w result w' := by
  induction keys generalizing acked w with
  | nil =>
    cases ran
    exact ⟨fun _ => .inl rfl, fun some => absurd some (by simp [Deposited, Deposits]), nofun⟩
  | cons k keys ih =>
    rw [receiveKeys_cons] at ran
    have turn := receiveKey_turn sha self d w k
    generalize receiveKey sha self d k w = turned at ran turn
    cases turn with
    | failed error w₁ now alike stores =>
      cases ran
      exact ⟨fun id => .inl (alike.1 id), fun some => absurd some (stores keys), fun _ _ => alike.1⟩
    | left w₁ now alike stores =>
      obtain ⟨entries, some_stored, none_stored⟩ := ih ran
      simp only [alike.1, now, lifetime_congr alike.2.2] at entries some_stored none_stored
      rw [← stores] at some_stored none_stored
      refine ⟨entries, fun some => ?_, none_stored⟩
      obtain ⟨later, member, new⟩ := some_stored some
      exact ⟨later, List.mem_cons_of_mem _ member, new⟩
    | stored w₁ plaintext now vacant ttl written stores =>
      have entries := (ih ran).entries
      simp only [written, now, lifetime_congr ttl] at entries
      refine ⟨fun id => ?_, fun _ => ⟨k, List.mem_cons_self, vacant, ?_⟩, fun none => ?_⟩
      · have entry := entries id
        split at entry
        · rename_i same
          subst same
          rcases entry with kept | ⟨absent, -⟩
          · exact .inr ⟨vacant, plaintext, kept⟩
          · cases absent
        · exact entry
      · have entry := entries k.keyId
        rw [if_pos rfl] at entry
        rcases entry with kept | ⟨absent, -⟩
        · simp [kept]
        · cases absent
      · exact absurd (stores keys) none

/-- After an error of `handle_incoming_ext_keys` no SAE can collect a key of the container that it
could not collect before, exactly when a key of it would not live or the container deposits none. -/
theorem rejected_ext_keys_deposit_nothing (sha : Bytes → Bytes) (cfg : DkmsConfig)
    (self peer : NodeId) (body : Etsi020ExtKeyContainer) (hint : Hint) (w w' : World)
    (error : DkmsError)
    (failed : runAlone self hint (handleIncomingExtKeys sha cfg self peer body) w = some (.error error, w')) :
    (∀ k ∈ body.keys, ∀ sae master,
        (w'.nodes self).pending.Collectable k.keyId sae master w.now →
          (w.nodes self).pending.Collectable k.keyId sae master w.now) ↔
      ∀ d, admitExtKeys cfg self peer body = .ok d →
        (w.nodes self).pending.lifetime d.ttl = 0 ∨
          ¬ Deposits sha d (w.nodes self).pending ((w.nodes self).dec d.peer) body.keys := by
  unfold handleIncomingExtKeys at failed
  cases admitted : admitExtKeys cfg self peer body with
  | error refused =>
    rw [admitted] at failed
    cases failed
    simp
  | ok d =>
    rw [admitted] at failed
    obtain ⟨error', ran⟩ : ∃ error', runAlone self hint (receiveKeys sha d body.keys []) w =
        some (.error error', w') := by
      rw [runAlone, Prog.eval_bind] at failed
      split at failed
      · rename_i result w₁ ran
        cases result with
        | error error' =>
          cases failed
          exact ⟨_, ran⟩
        | ok acked => cases failed
      · cases failed
    simp only [Except.ok.injEq, forall_eq']
    constructor
    · intro same
      by_contra stored
      rw [not_or, not_not] at stored
      obtain ⟨k, member, vacant, filled⟩ := (receiveKeys_received ran).some_stored stored.2
      obtain kept | ⟨-, plaintext, written⟩ := (receiveKeys_received ran).entries k.keyId
      · exact absurd (kept.trans vacant) filled
      obtain ⟨sae, target⟩ := admitExtKeys_targets admitted
      have lives : (w'.nodes self).pending.Collectable k.keyId sae d.initiator w.now := by
        refine ⟨_, written, ?_, target, rfl, List.not_mem_nil⟩
        simp only [PendingEntry.isExpired, decide_eq_false_iff_not]
        omega
      obtain ⟨entry, held, -⟩ := same k member sae d.initiator lives
      rw [vacant] at held
      cases held
    · rintro (dies | none) k - sae master ⟨entry, held, fresh, rest⟩
      · rcases (receiveKeys_received ran).entries k.keyId with kept | ⟨-, plaintext, written⟩
        · exact ⟨entry, kept ▸ held, fresh, rest⟩
        rw [held] at written
        cases written
        simp [PendingEntry.isExpired, dies] at fresh
      · rw [(receiveKeys_received ran).none_stored none rfl] at held
        exact ⟨entry, held, fresh, rest⟩

def keySharedWithA : World := (twoNodes [] [⟨"t1", [1, 2, 3]⟩]).world

def wrappedBy (keyId transportKeyId : String) : Etsi020Key :=
  ⟨keyId, [9], some ⟨some transportKeyId, none⟩⟩

def container (keys : List Etsi020Key) : Etsi020ExtKeyContainer := ⟨keys, "m", ["s"], none⟩

theorem rejected_ext_keys_deposit_nothing_first :
    ∃ error w', runAlone "B" ⟨0, true⟩ (handleIncomingExtKeys id plainConfig "B" "A"
        (container [wrappedBy "k2" "t2", wrappedBy "k1" "t1"])) keySharedWithA = some (.error error, w') ∧
      ∀ k ∈ (container [wrappedBy "k2" "t2", wrappedBy "k1" "t1"]).keys, ∀ sae master,
        (w'.nodes "B").pending.Collectable k.keyId sae master 0 →
          (keySharedWithA.nodes "B").pending.Collectable k.keyId sae master 0 := by
  have refused : (runAlone "B" ⟨0, true⟩ (handleIncomingExtKeys id plainConfig "B" "A"
      (container [wrappedBy "k2" "t2", wrappedBy "k1" "t1"])) keySharedWithA).map (·.1.isOk) =
        some false := by decide +kernel
  obtain ⟨error, w', failed⟩ := ends_in_error "B" ⟨0, true⟩ keySharedWithA refused
  refine ⟨error, w', failed, ?_⟩
  apply (rejected_ext_keys_deposit_nothing id plainConfig "B" "A" _ ⟨0, true⟩ keySharedWithA w'
    error failed).mpr
  intro d admitted
  right
  rw [container, deposits_cons]
  rintro ⟨id, transport, named, held, -⟩
  cases named
  rw [(admitExtKeys_ok admitted).1] at held
  cases held

/-- The second transport key is missing: `A` is told that the container failed, and the first
session key can be collected. -/
theorem rejected_container_leaves_key :
    ¬ (keySharedWithA.nodes "B").pending.Collectable "k1" "s" "m" 0 ∧
      (runAlone "B" ⟨0, true⟩ (handleIncomingExtKeys id plainConfig "B" "A"
        (container [wrappedBy "k1" "t1", wrappedBy "k2" "t2"])) keySharedWithA).map
          (fun ran => (ran.1.isOk, decide ((ran.2.nodes "B").pending.Collectable "k1" "s" "m" 0))) =
            some (false, true) := by
  decide +kernel

end ExtKeys

end Dkms.Node
