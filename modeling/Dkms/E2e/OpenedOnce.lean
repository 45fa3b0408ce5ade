import Dkms.E2e.Freshness

namespace Dkms.E2e

open List Std Dkms.Core Dkms.Link Dkms.Replay

variable {Seed : Type} {crypto : Crypto Seed} {setup : Setup}

def SealedFrame.Genuine (exs : List Exchange) (frame : SealedFrame) : Prop :=
  frame.header[hdrIncarnation]? = some frame.run ∧
    ∃ epoch, Backed exs frame.source frame.run (epoch, frame.secret)

variable {act : Act Seed}

theorem Pair.Moves.frames {p p' : Pair setup} (moves : Moves crypto p act p')
    {frame : SealedFrame} (sent : frame ∈ p'.frames) :
    frame ∈ p.frames ∨ frame.run = p.incarnation frame.source ∧
      frame.header[hdrIncarnation]? = some frame.run ∧
      ∃ epoch, (epoch, frame.secret) ∈ (p.st frame.source).epochs := by
  cases moves with
  | stays | advance | asked | began | gaveUp | ruled | answered | took | adopted | settled
  | unsealed | verified | rejected | accepted | restarted => exact .inl sent
  | sealed _ x st epoch secret keyId header payload held named keeps =>
    rcases mem_append.mp sent with old | new
    · exact .inl old
    rw [mem_singleton] at new
    subst new
    exact .inr ⟨rfl, named, epoch, held⟩

structure Pair.Grounded (crypto : Crypto Seed) (p : Pair setup) (history : List Bytes) : Prop where
  traced : p.Traced crypto
  distinct : p.Distinct (·.2)
  genuine : ∀ frame ∈ p.frames, frame.Genuine p.exchanges
  stocked : p.Stocked history

variable {history : List Bytes} {exs exs' : List Exchange} {entry : Content × Opened}
  {n keep stored : Nat}

variable {p : Pair setup}

theorem Pair.Grounded.next (lawful : crypto.Lawful)
    (grounded : p.Grounded crypto history) (orderly : act.Orderly crypto p) :
    ∃ more, (p.next crypto act).Grounded crypto (history ++ more) := by
  obtain ⟨traced, distinct, genuine, stocked⟩ := grounded
  have moves := p.next_moves crypto act
  obtain ⟨more, stocked'⟩ := stocked.next lawful traced orderly
  refine ⟨more, traced.next lawful act, distinct.next ?_, ?_, stocked'⟩
  · rintro i seed draws ex ct secret response rfl found encap - answer given
    have new := orderly.newSecret ex found
    rw [encap] at new
    exact new answer given
  intro frame sent
  rcases moves.frames sent with old | ⟨run, named, epoch, held⟩
  · obtain ⟨named, epoch, backed⟩ := genuine frame old
    exact ⟨named, epoch, backed.mono moves.grows⟩
  have backed := (traced.sides frame.source).held _ held
  rw [← run] at backed
  exact ⟨named, epoch, backed.mono moves.grows⟩

structure Located (exs : List Exchange) (history : List Bytes) (entry : Content × Opened) (n : Nat) :
    Prop where
  stored : history[n]? = some entry.2.secret
  owned : Owned exs entry.2.secret entry.2.session
  reads : Reads entry.1 entry.2

theorem Located.mono (located : Located exs history entry n) (grows : Extends exs exs')
    (more : List Bytes) : Located exs' (history ++ more) entry n := by
  refine ⟨?_, located.owned.mono grows, located.reads⟩
  rw [List.getElem?_append_left (List.getElem?_eq_some_iff.mp located.stored).1]
  exact located.stored

/-- A session that the window adopted for a frame of the `n`-th secret, `keep` of which were held
at a time, when `stored` of them had come. -/
structure Adopted (exs : List Exchange) (history : List Bytes) (keep stored n : Nat)
    (adoption : Nat × Nat) : Prop where
  other : adoption.2 ≠ n
  together : n < adoption.2 + keep
  earlier : adoption.2 < stored
  owned : ∃ secret, history[adoption.2]? = some secret ∧ Owned exs secret adoption.1

def Logged (exs : List Exchange) {width : Nat} (w : ReplayWindow width) (history : List Bytes)
    (keep stored : Nat) (entry : Content × Opened) : Prop :=
  ∃ n, Located exs history entry n ∧ n < stored ∧ (stored ≤ n + keep →
    ∃ since : List (Nat × Nat), Retained w entry.2.session entry.2.counter (since.map (·.1)) ∧
      ∀ adoption ∈ since, Adopted exs history keep stored n adoption)

variable {stored' width : Nat}

theorem Adopted.mono {adoption : Nat × Nat}
    (adopted : Adopted exs history keep stored n adoption) (grows : Extends exs exs')
    (more : List Bytes) (later : stored ≤ stored') :
    Adopted exs' (history ++ more) keep stored' n adoption := by
  obtain ⟨other, together, earlier, secret, held, owned⟩ := adopted
  refine ⟨other, together, Nat.lt_of_lt_of_le earlier later, secret, ?_, owned.mono grows⟩
  rw [List.getElem?_append_left (List.getElem?_eq_some_iff.mp held).1]
  exact held

variable {w : ReplayWindow width}

theorem Logged.mono
    (logged : Logged exs w history keep stored entry) (grows : Extends exs exs') (more : List Bytes)
    (later : stored ≤ stored') : Logged exs' w (history ++ more) keep stored' entry := by
  obtain ⟨n, located, before, retained⟩ := logged
  refine ⟨n, located.mono grows more, Nat.lt_of_lt_of_le before later, ?_⟩
  intro live
  obtain ⟨since, kept, adopted⟩ := retained (Nat.le_trans later live)
  exact ⟨since, kept, fun adoption member => (adopted adoption member).mono grows more later⟩

theorem adoptions_few (distinct : p.Distinct (·.2)) {since : List (Nat × Nat)}
    (sessions : (since.map (·.1)).Nodup)
    (adopted : ∀ adoption ∈ since, Adopted p.exchanges history keep stored n adoption)
    (live : stored ≤ n + keep) : since.length ≤ 2 * (keep - 1) := by
  have indices : (since.map (·.2)).Nodup := by
    apply Nodup.map_on _ sessions.of_map
    intro first member second member' same
    obtain ⟨secret, held, owned⟩ := (adopted first member).owned
    obtain ⟨secret', held', owned'⟩ := (adopted second member').owned
    rw [same, held'] at held
    cases held
    exact Prod.ext (owned.unique distinct owned') same
  have around : (since.map (·.2)).toFinset ⊆ (Finset.Ico (n + 1 - keep) (n + keep)).erase n := by
    intro index member
    obtain ⟨adoption, listed, rfl⟩ := mem_map.mp (mem_toFinset.mp member)
    obtain ⟨other, together, earlier, -⟩ := adopted adoption listed
    rw [Finset.mem_erase, Finset.mem_Ico]
    omega
  have count := Finset.card_le_card around
  rw [toFinset_card_of_nodup indices, length_map] at count
  rcases Nat.eq_zero_or_pos keep with rfl | positive
  · have none : (Finset.Ico (n + 1 - 0) (n + 0)).erase n = ∅ := by simp
    rw [none] at count
    exact count
  · rw [Finset.card_erase_of_mem (Finset.mem_Ico.mpr ⟨by omega, by omega⟩), Nat.card_Ico] at count
    omega

def mark (entry : Content × Opened) : (List (String × String) × String × Bytes) × Bytes :=
  (entry.1.covered, entry.2.secret)

theorem Logged.next (distinct : p.Distinct (·.2)) (once : history.Nodup)
    (few : keep ≤ 5) (sound : Sound w)
    (policy : w.adopt = .any) {pending : Content × Opened}
    (logged : Logged p.exchanges w history keep stored entry) {m : Nat}
    (located : Located p.exchanges history pending m) (before : m < stored)
    (held : stored ≤ m + keep) (now : Nat) :
    Logged p.exchanges (w.next ⟨pending.2.session, pending.2.counter, now, now⟩) history keep stored
        entry ∧
      (w.accepts ⟨pending.2.session, pending.2.counter, now, now⟩ → mark pending ≠ mark entry) := by
  obtain ⟨n, located', before', retained⟩ := logged
  have next : ∀ since : List (Nat × Nat), stored ≤ n + keep →
      Retained w entry.2.session entry.2.counter (since.map (·.1)) →
      (∀ adoption ∈ since, Adopted p.exchanges history keep stored n adoption) →
      (since.map (·.1)).length ≤ 8 := by
    intro since live retained adopted
    have bound := adoptions_few distinct retained.distinct adopted live
    rw [length_map]
    omega
  constructor
  · refine ⟨n, located', before', fun live => ?_⟩
    obtain ⟨since, retained, adopted⟩ := retained live
    obtain ⟨-, same | ⟨-, other, fresh, retained'⟩⟩ := retained.next sound policy
      (next since live retained adopted) ⟨pending.2.session, pending.2.counter, now, now⟩
    · exact ⟨since, same, adopted⟩
    refine ⟨(pending.2.session, m) :: since, retained', ?_⟩
    intro adoption member
    rcases mem_cons.mp member with rfl | old
    · refine ⟨?_, by dsimp only; omega, before, _, located.stored, located.owned⟩
      -- the same secret would be that of the same session
      rintro rfl
      have secret := located.stored.symm.trans located'.stored
      have owned := located.owned
      rw [Option.some.inj secret] at owned
      exact other (owned.unique distinct located'.owned)
    · exact adopted adoption old
  · intro accepts same
    obtain ⟨covered, secret⟩ := Prod.mk.inj same
    obtain ⟨session, counter⟩ := located.reads.same located'.reads covered
    have place : m = n := by
      apply (List.getElem?_inj (List.getElem?_eq_some_iff.mp located.stored).1 once).mp
      rw [located.stored, located'.stored, secret]
    subst place
    obtain ⟨since, retained, adopted⟩ := retained held
    exact (retained.next sound policy (next since held retained adopted) _).1 session counter accepts

namespace Pair

structure Fresh (crypto : Crypto Seed) (p : Pair setup) (history : List Bytes) (stored : Nat) :
    Prop where
  grounded : p.Grounded crypto history
  sound : Sound (p.st .b).replay
  policy : (p.st .b).replay.adopt = .any
  bound : stored ≤ history.length
  free : p.opening .b = none → stored = history.length
  opening : ∀ entry, p.opening .b = some entry →
    ∃ m, Located p.exchanges history entry m ∧ m < stored ∧ stored ≤ m + kept setup
  logged : ∀ entry ∈ p.opened .b, Logged p.exchanges (p.st .b).replay history (kept setup) stored entry
  once : ((p.opened .b).map mark).Nodup

variable {history : List Bytes}

variable {p : Pair setup}

theorem Grounded.owned (grounded : p.Grounded crypto history)
    {header : Header} {keyId : String} {payload : Bytes} {opened : Opened}
    (unforged : Act.Unforged crypto p (.openVerify .b header keyId payload))
    (ok : (p.st .b).openVerify crypto (setup.name .b) (setup.name .a) header keyId payload =
      .ok opened) : Owned p.exchanges opened.secret opened.session := by
  obtain ⟨-, session, -⟩ := openVerify_ok ok
  have sealed : ∃ frame ∈ p.frames, frame.source = .a ∧ frame.secret = opened.secret ∧
      (Content.of frame.header frame.keyId frame.payload).covered =
        (Content.of header keyId payload).covered := by
    unfold Act.Unforged at unforged
    dsimp only [Side.other] at unforged
    rw [ok] at unforged
    exact unforged
  obtain ⟨frame, sent, source, secret, covered⟩ := sealed
  obtain ⟨named, epoch, backed⟩ := grounded.genuine frame sent
  rw [source, secret] at backed
  refine ⟨epoch, frame.run, backed, ?_⟩
  have same : (Content.of frame.header frame.keyId frame.payload).header[hdrIncarnation]? =
      (Content.of header keyId payload).header[hdrIncarnation]? :=
    getElem?_of_toList_eq (congrArg Prod.fst covered) _
  rw [← same] at session
  unfold Content.of at session
  rw [getElem?_erase_tag frame.header (by decide), named] at session
  exact session

namespace Fresh

variable {p p' : Pair setup} {history more : List Bytes} {stored : Nat}

theorem quiet (fresh : p.Fresh crypto history stored) (grounded : p'.Grounded crypto (history ++ more))
    (grows : Extends p.exchanges p'.exchanges) (replay : (p'.st .b).replay = (p.st .b).replay)
    (opening : p'.opening .b = p.opening .b) (opened : p'.opened .b = p.opened .b) :
    ∃ stored', p'.Fresh crypto (history ++ more) stored' := by
  have longer : history.length ≤ (history ++ more).length := by
    rw [length_append]
    exact Nat.le_add_right _ _
  cases pending : p.opening .b with
  | none =>
    have later := Nat.le_trans fresh.bound longer
    refine ⟨(history ++ more).length, grounded, replay ▸ fresh.sound, replay ▸ fresh.policy,
      Nat.le_refl _, fun _ => rfl, ?_, ?_, opened ▸ fresh.once⟩
    · intro entry here
      rw [opening, pending] at here
      cases here
    · rw [opened, replay]
      exact fun entry member => (fresh.logged entry member).mono grows more later
  | some pair =>
    refine ⟨stored, grounded, replay ▸ fresh.sound, replay ▸ fresh.policy,
      Nat.le_trans fresh.bound longer, ?_, ?_, ?_, opened ▸ fresh.once⟩
    · intro free
      rw [opening, pending] at free
      cases free
    · intro entry here
      rw [opening] at here
      obtain ⟨m, located, before, held⟩ := fresh.opening entry here
      exact ⟨m, located.mono grows more, before, held⟩
    · rw [opened, replay]
      exact fun entry member => (fresh.logged entry member).mono grows more (Nat.le_refl _)

theorem verified (fresh : p.Fresh crypto history stored)
    (grounded : p'.Grounded crypto (history ++ more)) (exchanges : p'.exchanges = p.exchanges)
    (replay : (p'.st .b).replay = (p.st .b).replay) (free : p.opening .b = none)
    (opened' : p'.opened .b = p.opened .b) {header : Header} {keyId : String} {payload : Bytes}
    {opened : Opened} (unforged : Act.Unforged crypto p (.openVerify .b header keyId payload))
    (ok : (p.st .b).openVerify crypto (setup.name .b) (setup.name .a) header keyId payload = .ok opened)
    (opening : p'.opening .b = some (.of header keyId payload, opened)) :
    p'.Fresh crypto (history ++ more) stored := by
  have grows : Extends p.exchanges p'.exchanges := exchanges ▸ .refl _
  obtain ⟨held, reads⟩ := openVerify_ok ok
  have whole := fresh.free free
  -- the secret is one of the last that were stored
  obtain ⟨m, stored', after⟩ : ∃ m, history[m]? = some opened.secret ∧
      history.length ≤ m + kept setup := by
    rw [fresh.grounded.stocked.epochs] at held
    obtain ⟨i, found⟩ := List.getElem?_of_mem held
    rw [List.getElem?_drop] at found
    exact ⟨_, found, by omega⟩
  have inside := (List.getElem?_eq_some_iff.mp stored').1
  refine ⟨grounded, replay ▸ fresh.sound, replay ▸ fresh.policy, ?_, ?_, ?_, ?_, opened' ▸ fresh.once⟩
  · rw [length_append]
    exact Nat.le_trans fresh.bound (Nat.le_add_right _ _)
  · intro none
    rw [opening] at none
    cases none
  · intro entry here
    rw [opening] at here
    cases here
    have located : Located p.exchanges history (.of header keyId payload, opened) m :=
      ⟨stored', fresh.grounded.owned unforged ok, reads⟩
    exact ⟨m, located.mono grows more, by omega, by omega⟩
  · rw [opened', replay]
    exact fun entry member => (fresh.logged entry member).mono grows more (Nat.le_refl _)

theorem checked (few : (setup.cfg .b).epochHistoryKeep ≤ 5) (fresh : p.Fresh crypto history stored)
    (grounded : p'.Grounded crypto (history ++ more)) (exchanges : p'.exchanges = p.exchanges)
    {pending : Content × Opened} (opening : p.opening .b = some pending)
    (done : p'.opening .b = none) (now : Nat)
    (replay : (p'.st .b).replay = (p.st .b).replay.next ⟨pending.2.session, pending.2.counter, now, now⟩)
    (opened : p'.opened .b = p.opened .b ∨ p'.opened .b = pending :: p.opened .b ∧
      (p.st .b).replay.accepts ⟨pending.2.session, pending.2.counter, now, now⟩) :
    p'.Fresh crypto (history ++ more) (history ++ more).length := by
  have grows : Extends p.exchanges p'.exchanges := exchanges ▸ .refl _
  have keep : kept setup ≤ 5 := Nat.max_le.mpr ⟨few, by decide⟩
  have later : stored ≤ (history ++ more).length := by
    rw [length_append]
    exact Nat.le_trans fresh.bound (Nat.le_add_right _ _)
  obtain ⟨m, located, before, held⟩ := fresh.opening pending opening
  have step := fun entry member => (fresh.logged entry member).next fresh.grounded.distinct
    fresh.grounded.stocked.distinct keep fresh.sound fresh.policy located before held now
  have old : ∀ entry ∈ p.opened .b, Logged p'.exchanges (p'.st .b).replay (history ++ more)
      (kept setup) (history ++ more).length entry := by
    intro entry member
    rw [replay]
    exact (step entry member).1.mono grows more later
  obtain ⟨sound, policy⟩ := fresh.sound.next ⟨pending.2.session, pending.2.counter, now, now⟩
  refine ⟨grounded, replay ▸ sound, replay ▸ policy.trans fresh.policy, Nat.le_refl _,
    fun _ => rfl, ?_, ?_, ?_⟩
  · intro entry here
    rw [done] at here
    cases here
  · intro entry member
    rcases opened with same | ⟨grown, accepts⟩
    · exact old entry (same ▸ member)
    rw [grown] at member
    rcases mem_cons.mp member with rfl | member
    · have logged : Logged p.exchanges ((p.st .b).replay.next
          ⟨entry.2.session, entry.2.counter, now, now⟩) history (kept setup) stored entry :=
        ⟨m, located, before, fun _ => ⟨[], .of_accepts fresh.sound accepts,
          fun _ none => absurd none not_mem_nil⟩⟩
      rw [replay]
      exact logged.mono grows more later
    · exact old entry member
  · rcases opened with same | ⟨grown, accepts⟩
    · exact same ▸ fresh.once
    rw [grown, map_cons, nodup_cons]
    refine ⟨?_, fresh.once⟩
    intro member
    obtain ⟨entry, listed, same⟩ := mem_map.mp member
    exact (step entry listed).2 accepts same.symm

end Fresh

theorem setSt_replay (p : Pair setup) {x : Side} {st : PeerState (setup.cfg x).replayWindow}
    (same : st.replay = (p.st x).replay) : ((p.setSt x st).st .b).replay = (p.st .b).replay := by
  cases x with
  | a => rfl
  | b => exact same

theorem Fresh.next (lawful : crypto.Lawful) (few : (setup.cfg .b).epochHistoryKeep ≤ 5)
    {stored : Nat} (fresh : p.Fresh crypto history stored)
    {act : Act Seed} (orderly : act.Orderly crypto p) :
    ∃ history' stored', (p.next crypto act).Fresh crypto history' stored' := by
  obtain ⟨more, grounded⟩ := fresh.grounded.next lawful orderly
  obtain ⟨unforged, -, -, lasting⟩ := orderly
  have moves := p.next_moves crypto act
  generalize p.next crypto act = p' at moves grounded ⊢
  refine ⟨history ++ more, ?_⟩
  have quiet := fresh.quiet grounded moves.grows
  cases moves with
  | stays | advance => exact quiet rfl rfl rfl
  | asked x st free busy epochs replay => exact quiet (setSt_replay p replay) rfl rfl
  | gaveUp _ x st busy epochs inflight replay => exact quiet (setSt_replay p replay) rfl rfl
  | ruled _ i ex st phase found unanswered verdict keeps =>
    exact quiet (setSt_replay p keeps.replay) rfl rfl
  | answered i seed draws ex st response ct secret found admitted encap made drawn epochs pending
      inflight replay => exact quiet (setSt_replay p replay) rfl rfl
  | adopted x i response esk ct ss st taken got epochs inflight replay =>
    exact quiet (setSt_replay p replay) rfl rfl
  | settled x st ok done epochs replay => exact quiet (setSt_replay p replay) rfl rfl
  | unsealed _ x st keeps => exact quiet (setSt_replay p keeps.replay) rfl rfl
  | sealed _ x st epoch secret keyId header payload held named keeps =>
    exact quiet (setSt_replay p keeps.replay) rfl rfl
  | verified x header keyId payload opened free ok =>
    cases x with
    | a => exact quiet rfl rfl rfl
    | b => exact ⟨stored, fresh.verified grounded rfl rfl free rfl unforged ok rfl⟩
  | rejected x content opened error replay opening checked =>
    cases x with
    | a => exact quiet rfl rfl rfl
    | b => exact ⟨_, fresh.checked few grounded rfl opening rfl p.now
        (congrArg Prod.snd checked).symm (.inl rfl)⟩
  | accepted x content opened replay opening checked =>
    cases x with
    | a => exact quiet rfl rfl rfl
    | b => exact ⟨_, fresh.checked few grounded rfl opening rfl p.now
        (congrArg Prod.snd checked).symm (.inr ⟨rfl, congrArg Prod.fst checked⟩)⟩
  | restarted x incarnation =>
    cases x with
    | a => exact quiet rfl rfl rfl
    | b => exact lasting.elim
  | _ => exact quiet (setSt_replay p rfl) rfl rfl

theorem new_fresh (setup : Setup) (incarnation : Side → String) :
    (Pair.new setup incarnation).Fresh crypto [] 0 := by
  have grounded : (Pair.new setup incarnation).Grounded crypto [] := by
    refine ⟨new_traced setup incarnation, fun _ _ _ _ _ _ _ _ _ _ found => (nomatch found), ?_, ?_⟩
    · exact fun frame sent => absurd sent not_mem_nil
    · exact ⟨drop_nil.symm, nodup_nil, fun secret member => absurd member not_mem_nil,
        fun i ex response secret run asks => asks.elim⟩
  obtain ⟨sound, policy⟩ := create_sound .any (setup.cfg .b).replayWindow adoptAfterQuiet
  refine ⟨grounded, sound, policy, Nat.le_refl 0, fun _ => rfl, fun entry here => (nomatch here), ?_,
    nodup_nil⟩
  exact fun entry member => absurd member not_mem_nil

end Pair

/-- In every run in which the receiver keeps at most five epochs, does not restart, and adopts no
epoch number that it already holds, it opens every sealed frame at most once. -/
theorem sealed_frames_opened_once (crypto : Crypto Seed) (lawful : crypto.Lawful) (setup : Setup)
    (incarnation : Side → String) (few : (setup.cfg .b).epochHistoryKeep ≤ 5)
    (acts : List (Act Seed))
    (orderly : Follows (Pair.next crypto) (fun p act => act.Orderly crypto p) (.new setup incarnation) acts) :
    ((((Pair.new setup incarnation).run crypto acts).opened .b).map fun entry =>
      (entry.1.covered, entry.2.secret)).Nodup := by
  have keeps : ∀ (p : Pair setup) (act : Act Seed),
      (∃ history stored, p.Fresh crypto history stored) → act.Orderly crypto p →
      ∃ history stored, (p.next crypto act).Fresh crypto history stored := by
    rintro p act ⟨history, stored, fresh⟩ ok
    exact fresh.next lawful few ok
  obtain ⟨history, stored, fresh⟩ := orderly.invariant keeps ⟨[], 0, Pair.new_fresh setup incarnation⟩
  exact fresh.once

def sealing (i : Nat) : List (Act UInt8) :=
  agreement .a i (UInt8.ofNat i) (100 + i) ++ [.sealFrame .a "key" ∅ [UInt8.ofNat i]]

def delivery (i : Nat) : List (Act UInt8) :=
  let header := ((∅ : Header).insert hdrIncarnation (String.singleton i.digitChar)).insert
    hdrE2eEpoch (toString (100 + i))
  let tag := hexEncode (replicate 16 0)
  [.openVerify .b ((header.insert hdrE2eCtr "1").insert hdrE2eTag tag) "key" [UInt8.ofNat i], .openCheck .b]

def restarting (i : Nat) : Act UInt8 := .restart .a (String.singleton i.digitChar)

def deliveredAgain : List (Act UInt8) :=
  sealing 0 ++ delivery 0 ++ [restarting 1] ++ sealing 1 ++ delivery 1 ++ delivery 0

theorem sealed_frames_opened_once_again :
    let p := (Pair.new (plainSetup 5) fun _ => "0").run plainCrypto deliveredAgain
    (p.opened .b).length = 2 ∧ ((p.opened .b).map fun entry => (entry.1.covered, entry.2.secret)).Nodup :=
  ⟨by decide +kernel, sealed_frames_opened_once plainCrypto plainCrypto_lawful (plainSetup 5)
    (fun _ => "0") (by decide) deliveredAgain (by decide +kernel)⟩

/-- With six epochs kept, ten sessions can be adopted while one epoch is held: the frames of the
five runs before it come late, and those of the five after it in time. -/
def heldBack : List (Act UInt8) :=
  (range 5).flatMap (fun i => sealing i ++ [restarting (i + 1)]) ++
    sealing 5 ++ delivery 5 ++ (range 5).flatMap delivery ++
    (range 5).flatMap (fun i => [restarting (i + 6)] ++ sealing (i + 6) ++ delivery (i + 6)) ++
    delivery 5

theorem heldBack_opens_twice :
    Follows (Pair.next plainCrypto) (fun p act => act.Orderly plainCrypto p)
      (Pair.new (plainSetup 6) fun _ => "0") heldBack ∧
    ¬ ((((Pair.new (plainSetup 6) fun _ => "0").run plainCrypto heldBack).opened .b).map
      fun entry => (entry.1.covered, entry.2.secret)).Nodup := by
  decide +kernel

end Dkms.E2e
