import Dkms.E2e.Effects

namespace Dkms.E2e

open Function Std Dkms.Core Dkms.Link Dkms.Replay Option List PeerState

variable {Seed : Type} {crypto : Crypto Seed} {setup : Setup}

structure Exchange.Continues (ex ex' : Exchange) : Prop where
  asker : ex'.asker = ex.asker
  run : ex'.run = ex.run
  request : ex'.request = ex.request
  answer : ∀ response secret run, ex.phase = .answered response secret run →
    ex'.phase = .answered response secret run

theorem Exchange.Continues.refl (ex : Exchange) : ex.Continues ex :=
  ⟨rfl, rfl, rfl, fun _ _ _ same => same⟩

def Extends (exs exs' : List Exchange) : Prop :=
  ∀ (i : Nat) ex, exs[i]? = some ex → ∃ ex', exs'[i]? = some ex' ∧ ex.Continues ex'

theorem Extends.refl (exs : List Exchange) : Extends exs exs :=
  fun _ ex found => ⟨ex, found, .refl ex⟩

theorem Extends.append (exs more : List Exchange) : Extends exs (exs ++ more) := by
  intro i ex found
  have bound := (List.getElem?_eq_some_iff.mp found).1
  exact ⟨ex, by rw [List.getElem?_append_left bound, found], .refl ex⟩

theorem getElem?_setPhase (p : Pair setup) (i j : Nat) (phase : Phase) :
    (p.setPhase i phase).exchanges[j]? =
      if i = j then p.exchanges[j]?.map ({ · with phase }) else p.exchanges[j]? := by
  unfold Pair.setPhase
  rw [getElem?_modify]
  split
  · rfl
  · exact map_id'

theorem Extends.setPhase (p : Pair setup) {i : Nat} {ex : Exchange} (phase : Phase)
    (found : p.exchanges[i]? = some ex)
    (unanswered : ∀ response secret run, ex.phase ≠ .answered response secret run) :
    Extends p.exchanges (p.setPhase i phase).exchanges := by
  intro j ex' here
  rw [getElem?_setPhase, here]
  by_cases same : i = j
  · subst same
    rw [found] at here
    cases here
    rw [if_pos rfl]
    refine ⟨{ ex with phase }, rfl, rfl, rfl, rfl, ?_⟩
    intro response secret run answered
    exact absurd answered (unanswered response secret run)
  · rw [if_neg same]
    exact ⟨ex', rfl, .refl ex'⟩

theorem Extends.restart (p : Pair setup) (x : Side) (incarnation : String) :
    Extends p.exchanges (p.restart x incarnation).exchanges := by
  intro i ex found
  unfold Pair.restart
  dsimp only
  rw [getElem?_map, found, map_some]
  refine ⟨_, rfl, ?_⟩
  cases phase : ex.phase with
  | posted | admitted =>
    dsimp only
    split
    · exact .refl ex
    refine ⟨rfl, rfl, rfl, ?_⟩
    intro response secret run answered
    rw [phase] at answered
    cases answered
  | refused | lost | answered => exact .refl ex

/-- The secret and the epoch number come from an answer in which this side, as it runs now, took
part. -/
def Backed (exs : List Exchange) (x : Side) (run : String) (entry : Nat × Bytes) : Prop :=
  ∃ (i : Nat) (ex : Exchange) (response : KemResponse) (answerer : String),
    exs[i]? = some ex ∧ ex.phase = .answered response entry.2 answerer ∧
      response.epoch = entry.1 ∧ (if ex.asker = x then ex.run else answerer) = run

theorem Backed.mono {exs exs' : List Exchange} (grows : Extends exs exs') {x : Side} {run : String}
    {entry : Nat × Bytes} (backed : Backed exs x run entry) : Backed exs' x run entry := by
  obtain ⟨i, ex, response, answerer, found, answered, number, part⟩ := backed
  obtain ⟨ex', found', continues⟩ := grows i ex found
  refine ⟨i, ex', response, answerer, found', continues.answer _ _ _ answered, number, ?_⟩
  rw [continues.asker, continues.run]
  exact part

/-- One side keeps to the protocol: its epochs come from answers, it has one request in flight,
and the pending key is that of the request it waits for. -/
structure Honest (crypto : Crypto Seed) (exs : List Exchange) (x : Side) (run : String)
    {window : Nat} (st : PeerState window) (asking : Asking) : Prop where
  held : ∀ entry ∈ st.epochs, Backed exs x run entry
  busy : asking ≠ .idle → st.inflight = true
  waiting : ∀ i, asking = .waiting i → ∃ ex, exs[i]? = some ex ∧ ex.asker = x ∧ ex.run = run ∧
    ∀ esk since, st.pendingEsk = some (esk, since) → KeyedBy crypto esk ex.request
  taken : ∀ i response esk ct, asking = .taken i response esk ct → ∃ ex secret answerer,
    exs[i]? = some ex ∧ ex.asker = x ∧ ex.run = run ∧
      ex.phase = .answered response secret answerer ∧ KeyedBy crypto esk ex.request ∧
      crypto.unbase64 response.ct = some ct

namespace Honest

variable {exs exs' : List Exchange} {x : Side} {run : String} {window : Nat}
  {st st' : PeerState window} {asking : Asking}

section

variable (honest : Honest crypto exs x run st asking)
include honest

theorem mono (grows : Extends exs exs') : Honest crypto exs' x run st asking := by
  constructor
  · exact fun entry member => (honest.held entry member).mono grows
  · exact honest.busy
  · intro i waits
    obtain ⟨ex, found, asker, same, keyed⟩ := honest.waiting i waits
    obtain ⟨ex', found', continues⟩ := grows i ex found
    refine ⟨ex', found', continues.asker.trans asker, continues.run.trans same, ?_⟩
    rw [continues.request]
    exact keyed
  intro i response esk ct took
  obtain ⟨ex, secret, answerer, found, asker, same, answered, keyed, sent⟩ :=
    honest.taken i response esk ct took
  obtain ⟨ex', found', continues⟩ := grows i ex found
  refine ⟨ex', secret, answerer, found', continues.asker.trans asker,
    continues.run.trans same, continues.answer _ _ _ answered, ?_, sent⟩
  rw [continues.request]
  exact keyed

theorem keeps (same : st'.Keeps st) : Honest crypto exs x run st' asking := by
  constructor
  · rw [same.epochs]
    exact honest.held
  · rw [same.inflight]
    exact honest.busy
  · rw [same.pendingEsk]
    exact honest.waiting
  · exact honest.taken

theorem resting (epochs : st'.epochs = st.epochs) {asking' : Asking}
    (rests : asking' = .idle ∨ asking' = .asked ∨ ∃ ok, asking' = .done ok)
    (busy : asking' ≠ .idle → st'.inflight = true) : Honest crypto exs x run st' asking' := by
  constructor
  · rw [epochs]
    exact honest.held
  · exact busy
  · intro i waits
    rcases rests with rfl | rfl | ⟨ok, rfl⟩ <;> cases waits
  · intro i response esk ct took
    rcases rests with rfl | rfl | ⟨ok, rfl⟩ <;> cases took

theorem pushed {epoch keep : Nat} {ss : Bytes} (backed : Backed exs x run (epoch, ss))
    (epochs : st'.epochs = pushEpoch st.epochs epoch ss keep) :
    ∀ entry ∈ st'.epochs, Backed exs x run entry := by
  intro entry member
  rw [epochs] at member
  rcases mem_pushEpoch member with rfl | old
  · exact backed
  · exact honest.held entry old

end

end Honest

namespace Pair

structure Traced (crypto : Crypto Seed) (p : Pair setup) : Prop where
  sides : ∀ x, Honest crypto p.exchanges x (p.incarnation x) (p.st x) (p.asking x)
  made : ∀ (i : Nat) ex response secret run, p.exchanges[i]? = some ex →
    ex.phase = .answered response secret run → Encapsulates crypto ex.request response secret

namespace Traced

variable {p : Pair setup}

theorem act (traced : Traced crypto p) (p' : Pair setup) (x : Side) (grows : Extends p.exchanges p'.exchanges)
    (others : ∀ y, y ≠ x → p'.incarnation y = p.incarnation y ∧ p'.st y = p.st y ∧ p'.asking y = p.asking y)
    (mine : Honest crypto p'.exchanges x (p'.incarnation x) (p'.st x) (p'.asking x))
    (answers : ∀ (i : Nat) ex' response secret run, p'.exchanges[i]? = some ex' →
      ex'.phase = .answered response secret run → Encapsulates crypto ex'.request response secret) :
    Traced crypto p' := by
  refine ⟨fun y => ?_, answers⟩
  by_cases here : y = x
  · subst here
    exact mine
  obtain ⟨incarnation, st, asking⟩ := others y here
  rw [incarnation, st, asking]
  exact (traced.sides y).mono grows

variable {i : Nat} {ex : Exchange}

variable {phase : Phase}

theorem setPhase_answers (traced : Traced crypto p)
    (found : p.exchanges[i]? = some ex)
    (new : ∀ response secret run, phase = .answered response secret run →
      Encapsulates crypto ex.request response secret)
    (j : Nat) (ex' : Exchange) (response : KemResponse) (secret : Bytes) (run : String)
    (here : (p.setPhase i phase).exchanges[j]? = some ex')
    (answered : ex'.phase = .answered response secret run) :
    Encapsulates crypto ex'.request response secret := by
  rw [getElem?_setPhase] at here
  by_cases same : i = j
  · subst same
    rw [if_pos rfl, found] at here
    cases here
    exact new response secret run answered
  · rw [if_neg same] at here
    exact traced.made j ex' response secret run here answered

theorem task (traced : Traced crypto p) (x : Side) {st : PeerState (setup.cfg x).replayWindow}
    {asking : Asking} (mine : Honest crypto p.exchanges x (p.incarnation x) st asking) :
    Traced crypto ((p.setSt x st).setAsking x asking) := by
  apply traced.act ((p.setSt x st).setAsking x asking) x (.refl _) _ _ traced.made
  · exact fun y other => ⟨rfl, update_of_ne other _ _, update_of_ne other _ _⟩
  unfold setAsking setSt
  dsimp only
  rw [update_self, update_self]
  exact mine

theorem setSt (traced : Traced crypto p) (x : Side) {st : PeerState (setup.cfg x).replayWindow}
    (mine : Honest crypto p.exchanges x (p.incarnation x) st (p.asking x)) :
    Traced crypto (p.setSt x st) := by
  apply traced.act (p.setSt x st) x (.refl _) _ _ traced.made
  · exact fun y other => ⟨rfl, update_of_ne other _ _, rfl⟩
  unfold Pair.setSt
  dsimp only
  rw [update_self]
  exact mine

theorem windowed (traced : Traced crypto p) (x : Side)
    (replay : ReplayWindow (max (setup.cfg x).replayWindow 64)) :
    Traced crypto (p.setSt x { p.st x with replay }) := by
  have honest := traced.sides x
  exact traced.setSt x ⟨honest.held, honest.busy, honest.waiting, honest.taken⟩

theorem began (traced : Traced crypto p) (x : Side) (request : KemRequest) {esk : Bytes}
    (asked : p.asking x = .asked) (keyed : KeyedBy crypto esk request) :
    Traced crypto { (p.setSt x { p.st x with pendingEsk := some (esk, p.now) }).setAsking x
        (.waiting p.exchanges.length) with
      exchanges := p.exchanges ++ [⟨x, p.incarnation x, request, .posted⟩] } := by
  have grows := Extends.append p.exchanges [⟨x, p.incarnation x, request, .posted⟩]
  have honest := traced.sides x
  apply traced.act _ x grows
  · exact fun y other => ⟨rfl, update_of_ne other _ _, update_of_ne other _ _⟩
  · unfold setAsking Pair.setSt
    dsimp only
    rw [update_self, update_self]
    constructor
    · exact fun entry member => (honest.held entry member).mono grows
    · exact fun _ => honest.busy (by simp [asked])
    · intro i waits
      cases waits
      refine ⟨_, getElem?_concat_length, rfl, rfl, ?_⟩
      intro esk' since pending
      cases pending
      exact keyed
    · exact fun i response esk ct took => nomatch took
  · intro i ex response secret run found answered
    rcases Nat.lt_or_ge i p.exchanges.length with old | new
    · rw [getElem?_append_left old] at found
      exact traced.made i ex response secret run found answered
    rw [getElem?_append_right new, getElem?_singleton] at found
    split at found
    · cases found
      cases answered
    · cases found

variable {st : PeerState (setup.cfg ex.asker.other).replayWindow}

theorem ruled (traced : Traced crypto p) (found : p.exchanges[i]? = some ex)
    (unanswered : ∀ response secret run, ex.phase ≠ .answered response secret run)
    (new : ∀ response secret run, phase = .answered response secret run →
      Encapsulates crypto ex.request response secret)
    (mine : Honest crypto (p.setPhase i phase).exchanges ex.asker.other
      (p.incarnation ex.asker.other) st (p.asking ex.asker.other)) :
    Traced crypto ((p.setSt ex.asker.other st).setPhase i phase) := by
  apply traced.act ((p.setSt ex.asker.other st).setPhase i phase) ex.asker.other
    (.setPhase p phase found unanswered)
  · exact fun y other => ⟨rfl, update_of_ne other _ _, rfl⟩
  · unfold setPhase Pair.setSt
    dsimp only
    rw [update_self]
    exact mine
  · exact traced.setPhase_answers found new

variable {response : KemResponse}

variable {keep : Nat}

theorem answered (traced : Traced crypto p) {secret : Bytes}
    (found : p.exchanges[i]? = some ex) (admitted : ex.phase = .admitted)
    (made : Encapsulates crypto ex.request response secret)
    (epochs : st.epochs = pushEpoch (p.st ex.asker.other).epochs response.epoch secret keep)
    (pending : st.pendingEsk = (p.st ex.asker.other).pendingEsk)
    (inflight : st.inflight = (p.st ex.asker.other).inflight) :
    Traced crypto ((p.setSt ex.asker.other st).setPhase i
      (.answered response secret (p.incarnation ex.asker.other))) := by
  have unanswered : ∀ response secret run, ex.phase ≠ .answered response secret run := by
    rw [admitted]
    exact fun _ _ _ same => nomatch same
  have grows : Extends p.exchanges (p.setPhase i
      (.answered response secret (p.incarnation ex.asker.other))).exchanges :=
    .setPhase p _ found unanswered
  have honest := (traced.sides ex.asker.other).mono grows
  have apart : ex.asker ≠ ex.asker.other := by cases ex.asker <;> decide
  have backed : Backed (p.setPhase i
      (.answered response secret (p.incarnation ex.asker.other))).exchanges ex.asker.other
      (p.incarnation ex.asker.other) (response.epoch, secret) := by
    refine ⟨i, { ex with phase := .answered response secret (p.incarnation ex.asker.other) },
      response, p.incarnation ex.asker.other, ?_, rfl, rfl, if_neg apart⟩
    rw [getElem?_setPhase, if_pos rfl, found]
    rfl
  apply traced.ruled found unanswered
  · intro response' secret' run same
    cases same
    exact made
  · exact ⟨honest.pushed backed epochs, inflight ▸ honest.busy, pending ▸ honest.waiting, honest.taken⟩

variable {esk ct ss : Bytes}

variable {x : Side}

theorem decapsulated (lawful : crypto.Lawful) (traced : Traced crypto p)
    (taken : p.asking x = .taken i response esk ct)
    (got : (crypto.kemFor response.suite).bind (·.decap esk ct) = some ss) :
    ∃ ex answerer, p.exchanges[i]? = some ex ∧ ex.asker = x ∧ ex.run = p.incarnation x ∧
      ex.phase = .answered response ss answerer := by
  obtain ⟨ex, secret, answerer, found, asker, run, answered, keyed, sent⟩ :=
    (traced.sides x).taken i response esk ct taken
  have made := traced.made i ex response secret answerer found answered
  rw [decap_of_encapsulates lawful keyed made sent] at got
  cases got
  exact ⟨ex, answerer, found, asker, run, answered⟩

theorem adopted (lawful : crypto.Lawful) (traced : Traced crypto p)
    {st : PeerState (setup.cfg x).replayWindow}
    (taken : p.asking x = .taken i response esk ct)
    (got : (crypto.kemFor response.suite).bind (·.decap esk ct) = some ss)
    (epochs : st.epochs = pushEpoch (p.st x).epochs response.epoch ss keep)
    (inflight : st.inflight = (p.st x).inflight) :
    Traced crypto ((p.setSt x st).setAsking x (.done true)) := by
  have honest := traced.sides x
  obtain ⟨ex, answerer, found, asker, run, answered⟩ := traced.decapsulated lawful taken got
  have backed : Backed p.exchanges x (p.incarnation x) (response.epoch, ss) :=
    ⟨i, ex, response, answerer, found, answered, rfl, by rw [if_pos asker, run]⟩
  have busy : st.inflight = true := by
    rw [inflight]
    exact honest.busy (by simp [taken])
  apply traced.task x
  exact ⟨honest.pushed backed epochs, fun _ => busy, fun _ waits => (nomatch waits),
    fun _ _ _ _ took => nomatch took⟩

theorem restarted (traced : Traced crypto p) (x : Side) (incarnation : String) :
    Traced crypto (p.restart x incarnation) := by
  have grows := Extends.restart p x incarnation
  apply traced.act _ x grows
  · exact fun y other => ⟨update_of_ne other _ _, update_of_ne other _ _, update_of_ne other _ _⟩
  · unfold Pair.restart
    dsimp only
    rw [update_self, update_self, update_self]
    exact ⟨fun _ member => absurd member not_mem_nil, fun idle => absurd rfl idle,
      fun _ waits => (nomatch waits), fun _ _ _ _ took => nomatch took⟩
  intro i ex' response secret run found answered
  unfold Pair.restart at found
  rw [getElem?_map] at found
  obtain ⟨ex, before, rfl⟩ := map_eq_some_iff.mp found
  cases phase : ex.phase with
  | posted | admitted =>
    rw [phase] at answered
    dsimp only at answered
    split at answered
    · rw [phase] at answered
      cases answered
    · cases answered
  | refused | lost =>
    rw [phase] at answered
    rw [phase] at answered
    cases answered
  | answered response' secret' run' =>
    rw [phase] at answered
    exact traced.made i ex response secret run before answered

theorem next (lawful : crypto.Lawful) (traced : Traced crypto p) (act : Act Seed) :
    Traced crypto (p.next crypto act) := by
  have moves := p.next_moves crypto act
  generalize p.next crypto act = p' at moves ⊢
  cases moves with
  | stays => exact traced
  | asked x st free busy epochs replay =>
    exact traced.task x ((traced.sides x).resting epochs (.inr (.inl rfl)) fun _ => busy)
  | began x seed request esk asked keyed => exact traced.began x request asked keyed
  | gaveUp _ x st busy epochs inflight replay =>
    have flag : st.inflight = true := by
      rw [inflight]
      exact (traced.sides x).busy busy
    exact traced.task x ((traced.sides x).resting epochs (.inr (.inr ⟨false, rfl⟩)) fun _ => flag)
  | ruled _ i ex st phase found unanswered verdict keeps =>
    have pending : ∀ response secret run, ex.phase ≠ .answered response secret run := by
      rcases unanswered with here | here <;> rw [here] <;> exact fun _ _ _ same => nomatch same
    apply traced.ruled found pending
    · rcases verdict with rfl | rfl <;> exact fun _ _ _ same => nomatch same
    · exact ((traced.sides _).mono (.setPhase p phase found pending)).keeps keeps
  | answered i seed draws ex st response ct secret found admitted encap made drawn epochs pending
      inflight replay =>
    exact traced.answered found admitted made epochs pending inflight
  | took x i ex response secret run esk since ct waiting found answer pending sent =>
    have honest := traced.sides x
    obtain ⟨ex', found', asker, same, keyed⟩ := honest.waiting i waiting
    rw [found] at found'
    cases found'
    apply traced.task x
    refine ⟨honest.held, fun _ => honest.busy (by simp [waiting]), fun _ waits => (nomatch waits), ?_⟩
    intro i' response' esk' ct' took
    cases took
    exact ⟨ex, secret, run, found, asker, same, answer, keyed esk since pending, sent⟩
  | adopted x i response esk ct ss st taken got epochs inflight replay =>
    exact traced.adopted lawful taken got epochs inflight
  | settled x st ok done epochs replay =>
    exact traced.task x ((traced.sides x).resting epochs (.inl rfl) fun idle => absurd rfl idle)
  | unsealed _ x st keeps => exact traced.setSt x ((traced.sides x).keeps keeps)
  | sealed _ x st epoch secret keyId header payload held named keeps =>
    have sent := traced.setSt x ((traced.sides x).keeps keeps)
    exact ⟨sent.sides, sent.made⟩
  | rejected x content opened error replay opening checked =>
    have checked := traced.windowed x replay
    exact ⟨checked.sides, checked.made⟩
  | accepted x content opened replay opening checked =>
    have checked := traced.windowed x replay
    exact ⟨checked.sides, checked.made⟩
  | restarted x incarnation => exact traced.restarted x incarnation
  | _ => exact ⟨traced.sides, traced.made⟩

end Traced

theorem new_traced (setup : Setup) (incarnation : Side → String) :
    Traced crypto (.new setup incarnation) := by
  refine ⟨fun x => ⟨?_, ?_, ?_, ?_⟩, ?_⟩
  · exact fun entry member => absurd member not_mem_nil
  · exact fun busy => absurd rfl busy
  · exact fun i waits => nomatch waits
  · exact fun i response esk ct took => nomatch took
  · exact fun i ex response secret run found => nomatch found

variable {p p' : Pair setup}

variable {act : Act Seed}

theorem Moves.grows (moves : Moves crypto p act p') : Extends p.exchanges p'.exchanges := by
  cases moves with
  | stays | advance | asked | gaveUp | took | adopted | settled | unsealed | sealed | verified
  | rejected | accepted => exact .refl _
  | began => exact .append _ _
  | ruled _ i ex st phase found unanswered verdict keeps =>
    apply Extends.setPhase p phase found
    rcases unanswered with here | here <;> rw [here] <;> exact fun _ _ _ same => nomatch same
  | answered i seed draws ex st response ct secret found admitted =>
    apply Extends.setPhase p _ found
    rw [admitted]
    exact fun _ _ _ same => nomatch same
  | restarted x incarnation => exact .restart p x incarnation

variable {response : KemResponse}

variable {secret : Bytes} {run : String}

theorem Moves.answers (moves : Moves crypto p act p') {j : Nat} {ex' : Exchange}
    (here : p'.exchanges[j]? = some ex')
    (answered : ex'.phase = .answered response secret run) :
    (∃ ex, p.exchanges[j]? = some ex ∧ ex.phase = .answered response secret run) ∨
      ∃ seed draws ex ct, act = .respondStore j seed draws ∧ p.exchanges[j]? = some ex ∧
        respondEncap crypto (setup.cfg ex.asker.other) ex.request seed = .ok (ct, secret) ∧
        (p.st ex.asker.other).freshEpoch draws = some response.epoch := by
  cases moves with
  | stays | advance | asked | gaveUp | took | adopted | settled | unsealed | sealed | verified
  | rejected | accepted => exact .inl ⟨ex', here, answered⟩
  | began x seed request esk =>
    rcases Nat.lt_or_ge j p.exchanges.length with old | new
    · rw [getElem?_append_left old] at here
      exact .inl ⟨ex', here, answered⟩
    rw [getElem?_append_right new, getElem?_singleton] at here
    split at here
    · cases here
      cases answered
    · cases here
  | ruled _ i ex st phase found unanswered verdict =>
    rw [getElem?_setPhase] at here
    split at here
    · obtain ⟨old, -, rfl⟩ := map_eq_some_iff.mp here
      rcases verdict with rfl | rfl <;> cases answered
    · exact .inl ⟨ex', here, answered⟩
  | answered i seed draws ex st response' ct secret' found admitted encap made drawn =>
    rw [getElem?_setPhase] at here
    by_cases same : i = j
    · subst same
      rw [if_pos rfl] at here
      obtain ⟨old, -, rfl⟩ := map_eq_some_iff.mp here
      cases answered
      exact .inr ⟨seed, draws, ex, ct, rfl, found, encap, drawn⟩
    · rw [if_neg same] at here
      exact .inl ⟨ex', here, answered⟩
  | restarted x incarnation =>
    unfold restart at here
    rw [getElem?_map] at here
    obtain ⟨ex, before, rfl⟩ := map_eq_some_iff.mp here
    cases phase : ex.phase with
    | posted | admitted =>
      rw [phase] at answered
      dsimp only at answered
      split at answered
      · rw [phase] at answered
        cases answered
      · cases answered
    | refused | lost =>
      rw [phase] at answered
      rw [phase] at answered
      cases answered
    | answered =>
      rw [phase] at answered
      exact .inl ⟨ex, before, answered⟩

def answers (p : Pair setup) : List (KemResponse × Bytes) :=
  p.exchanges.filterMap fun ex =>
    match ex.phase with
    | .answered response secret _ => some (response, secret)
    | _ => none

theorem mem_answers {i : Nat} {ex : Exchange}
    (found : p.exchanges[i]? = some ex)
    (answered : ex.phase = .answered response secret run) : (response, secret) ∈ p.answers := by
  unfold answers
  rw [mem_filterMap]
  exact ⟨ex, mem_of_getElem? found, by rw [answered]⟩

theorem of_mem_answers {answer : KemResponse × Bytes} (member : answer ∈ p.answers) :
    ∃ (i : Nat) (ex : Exchange) (run : String), p.exchanges[i]? = some ex ∧
      ex.phase = .answered answer.1 answer.2 run := by
  obtain ⟨ex, listed, given⟩ := mem_filterMap.mp member
  obtain ⟨i, found⟩ := getElem?_of_mem listed
  split at given
  · rename_i response secret run answered
    cases given
    exact ⟨i, ex, run, found, answered⟩
  · cases given

theorem answers_mono (grows : Extends p.exchanges p'.exchanges) : p.answers ⊆ p'.answers := by
  intro answer member
  obtain ⟨i, ex, run, found, answered⟩ := of_mem_answers member
  obtain ⟨ex', found', continues⟩ := grows i ex found
  exact mem_answers found' (continues.answer _ _ _ answered)

def Distinct {α : Type} (f : KemResponse × Bytes → α) (p : Pair setup) : Prop :=
  ∀ (i j : Nat) (ex ex' : Exchange) response secret run response' secret' run',
    p.exchanges[i]? = some ex → ex.phase = .answered response secret run →
    p.exchanges[j]? = some ex' → ex'.phase = .answered response' secret' run' →
    f (response, secret) = f (response', secret') → i = j

theorem Distinct.next {α : Type} {f : KemResponse × Bytes → α} (distinct : Distinct f p)
    (fresh : ∀ i seed draws ex ct secret response, act = .respondStore i seed draws →
      p.exchanges[i]? = some ex →
      respondEncap crypto (setup.cfg ex.asker.other) ex.request seed = .ok (ct, secret) →
      (p.st ex.asker.other).freshEpoch draws = some response.epoch →
      ∀ answer ∈ p.answers, f answer ≠ f (response, secret)) : Distinct f (p.next crypto act) := by
  have moves := p.next_moves crypto act
  intro i j ex ex' response secret run response' secret' run' here answered here' answered' same
  rcases moves.answers here answered with ⟨old, before, phase⟩ |
    ⟨seed, draws, old, ct, rfl, before, encap, drawn⟩
  · rcases moves.answers here' answered' with ⟨old', before', phase'⟩ |
      ⟨seed, draws, old', ct, rfl, before', encap, drawn⟩
    · exact distinct i j old old' _ _ _ _ _ _ before phase before' phase' same
    · exact absurd same (fresh j seed draws old' ct secret' response' rfl before' encap drawn _
        (mem_answers before phase))
  rcases moves.answers here' answered' with ⟨old', before', phase'⟩ |
    ⟨seed', draws', old', ct', again, -, -, -⟩
  · exact absurd same.symm (fresh i seed draws old ct secret response rfl before encap drawn _
      (mem_answers before' phase'))
  · cases again
    rfl

end Pair

def Act.Uncollided (p : Pair setup) : Act Seed → Prop
  | .respondStore i _ draws => ∀ ex ∈ p.exchanges[i]?,
    ∀ epoch ∈ (p.st ex.asker.other).freshEpoch draws, ∀ answer ∈ p.answers, answer.1.epoch ≠ epoch
  | _ => True

instance (p : Pair setup) (act : Act Seed) : Decidable (act.Uncollided p) := by
  rcases act with _ | _ <;> dsimp only [Act.Uncollided] <;> infer_instance

structure Pair.Numbered (crypto : Crypto Seed) (p : Pair setup) : Prop where
  traced : p.Traced crypto
  distinct : p.Distinct (·.1.epoch)

theorem Pair.Numbered.next (lawful : crypto.Lawful) {p : Pair setup} (numbered : p.Numbered crypto)
    {act : Act Seed} (uncollided : act.Uncollided p) : (p.next crypto act).Numbered crypto := by
  refine ⟨numbered.traced.next lawful act, numbered.distinct.next ?_⟩
  rintro i seed draws ex ct secret response rfl found - drawn answer given
  exact uncollided ex found response.epoch drawn answer given

theorem Pair.new_numbered (setup : Setup) (incarnation : Side → String) :
    (Pair.new setup incarnation).Numbered crypto :=
  ⟨new_traced setup incarnation, fun _ _ _ _ _ _ _ _ _ _ found => nomatch found⟩

/-- In every run in which drawn numbers do not collide, two ends that both have a secret for an
epoch have the same one. -/
theorem epochs_agree (crypto : Crypto Seed) (lawful : crypto.Lawful) (setup : Setup)
    (incarnation : Side → String) (acts : List (Act Seed))
    (uncollided : Follows (Pair.next crypto) (fun p act => act.Uncollided p) (.new setup incarnation) acts)
    (epoch : Nat) (s s' : Bytes)
    (here : (((Pair.new setup incarnation).run crypto acts).st .a).secret epoch = some s)
    (there : (((Pair.new setup incarnation).run crypto acts).st .b).secret epoch = some s') :
    s = s' := by
  have reached : ((Pair.new setup incarnation).run crypto acts).Numbered crypto :=
    uncollided.invariant (fun _ _ numbered ok => numbered.next lawful ok)
      (Pair.new_numbered setup incarnation)
  obtain ⟨traced, distinct⟩ := reached
  obtain ⟨i, ex, response, run, found, answered, number, -⟩ :=
    (traced.sides .a).held _ (PeerState.secret_mem here)
  obtain ⟨j, ex', response', run', found', answered', number', -⟩ :=
    (traced.sides .b).held _ (PeerState.secret_mem there)
  have same := distinct i j ex ex' _ _ _ _ _ _ found answered found' answered' (number.trans number'.symm)
  subst same
  rw [found] at found'
  cases found'
  rw [answered] at answered'
  exact (Phase.answered.inj answered').2.1

def crossedAgreements : List (Act UInt8) :=
  [.requestAgreement .a, .requestAgreement .b, .beginRequest .a 1, .beginRequest .b 2,
    .respondAdmit 0, .respondAdmit 1, .respondStore 0 3 [10], .respondStore 1 4 [20],
    .completeTake .a, .completeTake .b, .completeStore .b, .completeStore .a]

theorem epochs_agree_crossed :
    let p := (Pair.new (plainSetup 4) fun _ => "1").run plainCrypto crossedAgreements
    ∃ s s', (p.st .a).secret 10 = some s ∧ (p.st .b).secret 10 = some s' ∧ s = s' := by
  intro p
  obtain ⟨s, here⟩ : ∃ s, (p.st .a).secret 10 = some s := ⟨List.replicate 31 3 ++ [1], by decide +kernel⟩
  obtain ⟨s', there⟩ : ∃ s', (p.st .b).secret 10 = some s' := ⟨List.replicate 31 3 ++ [1], by decide +kernel⟩
  exact ⟨s, s', here, there, epochs_agree plainCrypto plainCrypto_lawful (plainSetup 4)
    (fun _ => "1") crossedAgreements (by decide +kernel) 10 s s' here there⟩

end Dkms.E2e
