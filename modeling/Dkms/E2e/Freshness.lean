import Dkms.Core.Results
import Dkms.E2e.Agreement
import Dkms.Replay.AcceptedOnce

namespace Dkms.E2e

open List Std Dkms.Core Dkms.Link Dkms.Replay PeerState

variable {Seed : Type} {crypto : Crypto Seed} {setup : Setup}

def Content.covered (content : Content) : List (String × String) × String × Bytes :=
  (content.header.toList, content.keyId, content.payload)

def Act.Unforged (crypto : Crypto Seed) (p : Pair setup) : Act Seed → Prop
  | .openVerify x header keyId payload =>
    match (p.st x).openVerify crypto (setup.name x) (setup.name x.other) header keyId payload with
    | .ok opened => ∃ frame ∈ p.frames, frame.source = x.other ∧ frame.secret = opened.secret ∧
      (Content.of frame.header frame.keyId frame.payload).covered = (Content.of header keyId payload).covered
    | .error _ => True
  | _ => True

instance (p : Pair setup) (act : Act Seed) : Decidable (act.Unforged crypto p) := by
  rcases act with _ | _ <;> dsimp only [Act.Unforged]
  case openVerify x header keyId payload =>
    rcases (p.st x).openVerify crypto (setup.name x) (setup.name x.other) header keyId payload
      with _ | _ <;> infer_instance
  all_goals infer_instance

def Act.NewSecret (crypto : Crypto Seed) (p : Pair setup) : Act Seed → Prop
  | .respondStore i seed _ => ∀ ex ∈ p.exchanges[i]?,
    match respondEncap crypto (setup.cfg ex.asker.other) ex.request seed with
    | .ok (_, secret) => ∀ answer ∈ p.answers, answer.2 ≠ secret
    | .error _ => True
  | _ => True

instance (p : Pair setup) (act : Act Seed) : Decidable (act.NewSecret crypto p) := by
  rcases act with _ | _ <;> dsimp only [Act.NewSecret]
  case respondStore i seed draws =>
    have here : ∀ ex : Exchange, Decidable (match respondEncap crypto
        (setup.cfg ex.asker.other) ex.request seed with
      | .ok (_, secret) => ∀ answer ∈ p.answers, answer.2 ≠ secret
      | .error _ => True) := by
      intro ex
      rcases respondEncap crypto (setup.cfg ex.asker.other) ex.request seed with _ | _ <;> infer_instance
    infer_instance
  all_goals infer_instance

def Act.NewNumber (p : Pair setup) : Act Seed → Prop
  | .completeStore .b =>
    match p.asking .b with
    | .taken _ response _ _ => response.epoch ∉ (p.st .b).epochs.map (·.1)
    | _ => True
  | _ => True

instance (p : Pair setup) (act : Act Seed) : Decidable (act.NewNumber p) := by
  rcases act with _ | _ <;> dsimp only [Act.NewNumber]
  case completeStore x =>
    rcases x with _ | _ <;> dsimp only
    case b => rcases p.asking .b with _ | _ <;> infer_instance
    case a => infer_instance
  all_goals infer_instance

def Act.Lasting : Act Seed → Prop
  | .restart .b _ => False
  | _ => True

instance : DecidablePred (@Act.Lasting Seed) := by
  intro act
  rcases act with _ | _
  case restart x _ => rcases x with _ | _ <;> dsimp only [Act.Lasting] <;> infer_instance
  all_goals exact .isTrue trivial

@[mk_iff]
structure Act.Orderly (crypto : Crypto Seed) (p : Pair setup) (act : Act Seed) : Prop where
  unforged : act.Unforged crypto p
  newSecret : act.NewSecret crypto p
  newNumber : act.NewNumber p
  lasting : act.Lasting

instance (p : Pair setup) (act : Act Seed) : Decidable (act.Orderly crypto p) :=
  decidable_of_iff _ (Act.orderly_iff ..).symm

def kept (setup : Setup) : Nat := max (setup.cfg .b).epochHistoryKeep 1

def Owned (exs : List Exchange) (secret : Bytes) (session : Nat) : Prop :=
  ∃ epoch run, Backed exs .a run (epoch, secret) ∧ parseHexU64 run = some session

variable {secret : Bytes}

theorem Owned.mono {exs exs' : List Exchange} (grows : Extends exs exs')
    {session : Nat} (owned : Owned exs secret session) : Owned exs' secret session := by
  obtain ⟨epoch, run, backed, parsed⟩ := owned
  exact ⟨epoch, run, backed.mono grows, parsed⟩

theorem Owned.unique {p : Pair setup} (distinct : p.Distinct (·.2)) {s s' : Nat}
    (owned : Owned p.exchanges secret s) (owned' : Owned p.exchanges secret s') : s = s' := by
  obtain ⟨epoch, run, ⟨i, ex, response, answerer, found, answered, -, part⟩, parsed⟩ := owned
  obtain ⟨epoch', run', ⟨j, ex', response', answerer', found', answered', -, part'⟩, parsed'⟩ := owned'
  have same := distinct i j ex ex' _ _ _ _ _ _ found answered found' answered' rfl
  subst same
  rw [found] at found'
  cases found'
  rw [answered] at answered'
  cases answered'
  rw [part] at part'
  subst part'
  rw [parsed] at parsed'
  exact Option.some.inj parsed'

def Reads (content : Content) (opened : Opened) : Prop :=
  (content.header[hdrIncarnation]?).bind parseHexU64 = some opened.session ∧
    (content.header[hdrE2eCtr]?).bind parseU64 = some opened.counter

variable {header : Header}

theorem getElem?_of_toList_eq {header' : Header} (same : header.toList = header'.toList)
    (name : String) : header[name]? = header'[name]? := by
  apply Option.ext
  intro value
  rw [← TreeMap.mem_toList_iff_getElem?_eq_some, ← TreeMap.mem_toList_iff_getElem?_eq_some, same]

theorem Reads.same {content content' : Content} {opened opened' : Opened}
    (reads : Reads content opened) (reads' : Reads content' opened')
    (covered : content.covered = content'.covered) :
    opened.session = opened'.session ∧ opened.counter = opened'.counter := by
  have header := getElem?_of_toList_eq (congrArg Prod.fst covered)
  obtain ⟨session, counter⟩ := reads
  obtain ⟨session', counter'⟩ := reads'
  rw [header] at session counter
  rw [session] at session'
  rw [counter] at counter'
  exact ⟨Option.some.inj session', Option.some.inj counter'⟩

theorem getElem?_erase_tag (header : Header) {name : String} (other : name ≠ hdrE2eTag) :
    (header.erase hdrE2eTag)[name]? = header[name]? := by
  rw [TreeMap.getElem?_erase, if_neg]
  intro same
  exact other (Std.LawfulEqCmp.compare_eq_iff_eq.mp same).symm

theorem sealFields_ok {fields : SealFields}
    (ok : sealFields header = .ok fields) :
    (header[hdrIncarnation]?).bind parseHexU64 = some fields.session ∧
      (header[hdrE2eCtr]?).bind parseU64 = some fields.counter := by
  have field : ∀ {name value : String}, headerField header name = .ok value →
      header[name]? = some value := by
    intro name value read
    unfold headerField at read
    split at read
    · cases read
    rename_i found
    cases read
    exact found
  have parsed : ∀ {α : Type} {error : E2eError} {result : Option α} {value : α},
      result.elim (.error error) Except.ok = .ok value → result = some value := by
    intro α error result value same
    cases result with
    | none => cases same
    | some found =>
      cases same
      rfl
  obtain ⟨epochText, -, ok⟩ := ok_of_bind ok
  obtain ⟨epoch, -, ok⟩ := ok_of_bind ok
  obtain ⟨counterText, counterRead, ok⟩ := ok_of_bind ok
  obtain ⟨counter, counterParsed, ok⟩ := ok_of_bind ok
  obtain ⟨tagText, -, ok⟩ := ok_of_bind ok
  obtain ⟨tag, -, ok⟩ := ok_of_bind ok
  split at ok
  · cases ok
  obtain ⟨sessionText, sessionRead, ok⟩ := ok_of_bind ok
  obtain ⟨session, sessionParsed, ok⟩ := ok_of_bind ok
  cases ok
  rw [field sessionRead, field counterRead]
  exact ⟨parsed sessionParsed, parsed counterParsed⟩

theorem openVerify_ok {window : Nat} {st : PeerState window} {self source : String}
    {keyId : String} {payload : Bytes} {opened : Opened}
    (ok : st.openVerify crypto self source header keyId payload = .ok opened) :
    opened.secret ∈ st.epochs.map (·.2) ∧ Reads (.of header keyId payload) opened := by
  unfold openVerify at ok
  obtain ⟨fields, read, ok⟩ := ok_of_bind ok
  obtain ⟨session, counter⟩ := sealFields_ok read
  rw [← getElem?_erase_tag header (by decide)] at session counter
  split at ok
  · cases ok
  rename_i secret found
  dsimp only at ok
  split at ok
  · cases ok
  · cases ok
    exact ⟨mem_map_of_mem (secret_mem found), session, counter⟩

theorem drop_last_concat {α : Type} (list : List α) (x : α) {k : Nat} (positive : 0 < k) :
    (list.drop (list.length - k) ++ [x]).drop ((list.drop (list.length - k)).length + 1 - k) =
      (list ++ [x]).drop (list.length + 1 - k) := by
  rw [length_drop]
  rcases Nat.lt_or_ge list.length k with short | long
  · have none : list.length - k = 0 := by omega
    rw [none, drop_zero, Nat.sub_zero]
  have one : list.length - (list.length - k) + 1 - k = 1 := by omega
  have next : list.length + 1 - k = list.length - k + 1 := by omega
  rw [one, next, drop_append_of_le_length (by rw [length_drop]; omega), drop_drop,
    drop_append_of_le_length (by omega)]

theorem pushEpoch_secrets {epochs : List (Nat × Bytes)} {epoch keep : Nat} (secret : Bytes)
    (new : epoch ∉ epochs.map (·.1)) : (pushEpoch epochs epoch secret keep).map (·.2) =
      (epochs.map (·.2) ++ [secret]).drop ((epochs.map (·.2)).length + 1 - max keep 1) := by
  have all : epochs.filter (·.1 ≠ epoch) = epochs := by
    rw [filter_eq_self]
    intro entry member
    rw [decide_eq_true_eq]
    rintro rfl
    exact new (mem_map_of_mem member)
  unfold pushEpoch
  rw [all, map_drop, map_append, map_singleton, length_append, length_map, length_singleton]

def Asks : Asking → Nat → Prop
  | .waiting j, i => j = i
  | .taken j _ _ _, i => j = i
  | _, _ => False

namespace Pair

/-- `history` is every secret the receiver has stored, in order: it holds the last of them, and
the one that its own request will bring is not there yet. -/
structure Stocked (p : Pair setup) (history : List Bytes) : Prop where
  epochs : (p.st .b).epochs.map (·.2) = history.drop (history.length - kept setup)
  distinct : history.Nodup
  known : ∀ secret ∈ history, ∃ answer ∈ p.answers, answer.2 = secret
  unstored : ∀ (i : Nat) ex response secret run, Asks (p.asking .b) i → p.exchanges[i]? = some ex →
    ex.phase = .answered response secret run → secret ∉ history

theorem setSt_epochs (p : Pair setup) {x : Side} {st : PeerState (setup.cfg x).replayWindow}
    (same : st.epochs = (p.st x).epochs) : ((p.setSt x st).st .b).epochs = (p.st .b).epochs := by
  cases x with
  | a => rfl
  | b => exact same

theorem setAsking_asks (p : Pair setup) (x : Side) {asking : Asking}
    (here : ∀ i, Asks asking i → Asks (p.asking x) i ∨ i = p.exchanges.length) (i : Nat)
    (asks : Asks ((p.setAsking x asking).asking .b) i) :
    Asks (p.asking .b) i ∨ i = p.exchanges.length := by
  cases x with
  | a => exact .inl asks
  | b => exact here i asks

namespace Stocked

variable {p p' : Pair setup} {history : List Bytes} {act : Act Seed}

variable {i : Nat} {response : KemResponse} {secret : Bytes}

variable {run : String}

theorem answered_new (stocked : p.Stocked history) (moves : Moves crypto p act p')
    (newSecret : act.NewSecret crypto p) {ex : Exchange}
    (here : p'.exchanges[i]? = some ex)
    (answered : ex.phase = .answered response secret run) :
    (∃ old, p.exchanges[i]? = some old ∧ old.phase = .answered response secret run) ∨
      (p.exchanges[i]?.isSome ∧ secret ∉ history ∧ ∀ answer ∈ p.answers, answer.2 ≠ secret) := by
  rcases moves.answers here answered with old | ⟨seed, draws, old, ct, rfl, before, encap, -⟩
  · exact .inl old
  right
  have new : ∀ answer ∈ p.answers, answer.2 ≠ secret := by
    have fresh := newSecret old before
    rw [encap] at fresh
    exact fresh
  refine ⟨by rw [before]; rfl, ?_, new⟩
  intro member
  obtain ⟨answer, given, same⟩ := stocked.known secret member
  exact new answer given same

theorem quiet (stocked : p.Stocked history) (moves : Moves crypto p act p')
    (newSecret : act.NewSecret crypto p) (epochs : (p'.st .b).epochs = (p.st .b).epochs)
    (asks : ∀ i, Asks (p'.asking .b) i → Asks (p.asking .b) i ∨ i = p.exchanges.length) :
    p'.Stocked history := by
  constructor
  · rw [epochs]
    exact stocked.epochs
  · exact stocked.distinct
  · intro secret member
    obtain ⟨answer, given, same⟩ := stocked.known secret member
    exact ⟨answer, answers_mono moves.grows given, same⟩
  intro i ex response secret run asked here answered
  rcases stocked.answered_new moves newSecret here answered with ⟨old, before, phase⟩ | ⟨present, new, -⟩
  · rcases asks i asked with before' | rfl
    · exact stocked.unstored i old response secret run before' before phase
    · rw [List.getElem?_eq_none (Nat.le_refl _)] at before
      cases before
  · exact new

theorem push (stocked : p.Stocked history) (moves : Moves crypto p act p')
    (newSecret : act.NewSecret crypto p) {epoch : Nat}
    (epochs : (p'.st .b).epochs = pushEpoch (p.st .b).epochs epoch secret
      (setup.cfg .b).epochHistoryKeep)
    (number : epoch ∉ (p.st .b).epochs.map (·.1)) (new : secret ∉ history)
    (given : ∃ answer ∈ p'.answers, answer.2 = secret)
    (asks : ∀ i, Asks (p'.asking .b) i → Asks (p.asking .b) i ∧
      ∀ ex response run, p'.exchanges[i]? = some ex → ex.phase ≠ .answered response secret run) :
    p'.Stocked (history ++ [secret]) := by
  constructor
  · have positive : 0 < kept setup := Nat.lt_of_lt_of_le Nat.zero_lt_one (Nat.le_max_right _ _)
    rw [epochs, pushEpoch_secrets secret number, stocked.epochs, length_append]
    exact drop_last_concat history secret positive
  · rw [nodup_append]
    refine ⟨stocked.distinct, nodup_singleton _, ?_⟩
    intro old member last same
    rw [mem_singleton.mp same]
    rintro rfl
    exact new member
  · intro secret' member
    rcases mem_append.mp member with old | last
    · obtain ⟨answer, listed, same⟩ := stocked.known secret' old
      exact ⟨answer, answers_mono moves.grows listed, same⟩
    · rw [mem_singleton.mp last]
      exact given
  intro i ex response secret' run asked here answered member
  obtain ⟨before, other⟩ := asks i asked
  rcases mem_append.mp member with old | last
  · rcases stocked.answered_new moves newSecret here answered with ⟨ex', before', phase⟩ | ⟨-, fresh, -⟩
    · exact stocked.unstored i ex' response secret' run before before' phase old
    · exact fresh old
  · rw [mem_singleton.mp last] at answered
    exact other ex response run here answered

theorem asked_own (traced : p.Traced crypto) {x : Side} (asks : Asks (p.asking x) i) :
    ∃ ex, p.exchanges[i]? = some ex ∧ ex.asker = x := by
  cases task : p.asking x with
  | idle | asked | done =>
    rw [task] at asks
    exact asks.elim
  | waiting j =>
    rw [task] at asks
    obtain rfl : j = i := asks
    obtain ⟨ex, here, asker, -⟩ := (traced.sides x).waiting j task
    exact ⟨ex, here, asker⟩
  | taken j response esk ct =>
    rw [task] at asks
    obtain rfl : j = i := asks
    obtain ⟨ex, _, _, here, asker, -⟩ := (traced.sides x).taken j response esk ct task
    exact ⟨ex, here, asker⟩

variable {st : PeerState (setup.cfg .b).replayWindow}

theorem answered (traced : p.Traced crypto) (stocked : p.Stocked history) {seed : Seed}
    {draws : List Nat} {request : KemRequest}
    (found : p.exchanges[i]? = some ⟨.a, run, request, .admitted⟩)
    (moves : Moves crypto p (.respondStore i seed draws)
      ((p.setSt .b st).setPhase i (.answered response secret (p.incarnation .b))))
    (newSecret : Act.NewSecret crypto p (.respondStore i seed draws))
    (drawn : (p.st .b).freshEpoch draws = some response.epoch)
    (epochs : st.epochs = pushEpoch (p.st .b).epochs response.epoch secret
      (setup.cfg .b).epochHistoryKeep) :
    ((p.setSt .b st).setPhase i (.answered response secret (p.incarnation .b))).Stocked
      (history ++ [secret]) := by
  have here : ((p.setSt .b st).setPhase i
      (.answered response secret (p.incarnation .b))).exchanges[i]? =
        some ⟨.a, run, request, .answered response secret (p.incarnation .b)⟩ := by
    rw [getElem?_setPhase, if_pos rfl]
    show p.exchanges[i]?.map _ = _
    rw [found]
    rfl
  obtain ⟨new, unlike⟩ : secret ∉ history ∧ ∀ answer ∈ p.answers, answer.2 ≠ secret := by
    rcases stocked.answered_new moves newSecret here rfl with ⟨old, before, phase⟩ | ⟨-, new⟩
    · rw [found] at before
      cases before
      cases phase
    · exact new
  apply stocked.push moves newSecret _ (freshEpoch_not_mem drawn) new
  · exact ⟨_, mem_answers here rfl, rfl⟩
  · intro j asks
    refine ⟨asks, ?_⟩
    intro ex response' run' there answered
    rcases moves.answers there answered with ⟨old, before, phase⟩ | ⟨_, _, ex', _, same, before, -⟩
    · exact unlike _ (mem_answers before phase) rfl
    -- the receiver waits for a request of its own
    cases same
    obtain ⟨ex, here, asker⟩ := asked_own traced asks
    rw [found] at here
    cases here
    cases asker
  · exact epochs

theorem adopted (lawful : crypto.Lawful) (traced : p.Traced crypto) (stocked : p.Stocked history)
    {esk ct ss : Bytes} (taken : p.asking .b = .taken i response esk ct)
    (got : (crypto.kemFor response.suite).bind (·.decap esk ct) = some ss)
    (moves : Moves crypto p act ((p.setSt .b st).setAsking .b (.done true)))
    (newSecret : act.NewSecret crypto p) (number : response.epoch ∉ (p.st .b).epochs.map (·.1))
    (epochs : st.epochs = pushEpoch (p.st .b).epochs response.epoch ss
      (setup.cfg .b).epochHistoryKeep) :
    ((p.setSt .b st).setAsking .b (.done true)).Stocked (history ++ [ss]) := by
  obtain ⟨ex, answerer, found, -, -, answered⟩ := traced.decapsulated lawful taken got
  apply stocked.push moves newSecret _ number
  · exact stocked.unstored i ex response ss answerer (by rw [taken]; rfl) found answered
  · exact ⟨_, mem_answers (p := p) found answered, rfl⟩
  · exact fun j asks => asks.elim
  · exact epochs

theorem next (lawful : crypto.Lawful) (traced : p.Traced crypto) (stocked : p.Stocked history)
    {act : Act Seed} (orderly : act.Orderly crypto p) :
    ∃ more, (p.next crypto act).Stocked (history ++ more) := by
  obtain ⟨-, newSecret, newNumber, lasting⟩ := orderly
  have moves := p.next_moves crypto act
  generalize p.next crypto act = p' at moves ⊢
  -- unless the receiver stores an epoch, its list is as before
  have same : (p'.st .b).epochs = (p.st .b).epochs →
      (∀ i, Asks (p'.asking .b) i → Asks (p.asking .b) i ∨ i = p.exchanges.length) →
      ∃ more, p'.Stocked (history ++ more) := by
    intro epochs asks
    exact ⟨[], by rw [append_nil]; exact stocked.quiet moves newSecret epochs asks⟩
  have whole := moves
  cases moves with
  | stays | advance => exact same rfl fun _ asks => .inl asks
  | asked x st free busy epochs replay =>
    exact same (setSt_epochs p epochs) (setAsking_asks p x fun _ asks => asks.elim)
  | began x seed request esk asked keyed =>
    apply same (setSt_epochs p rfl)
    apply setAsking_asks p x
    rintro j rfl
    exact .inr rfl
  | gaveUp _ x st busy epochs inflight replay =>
    exact same (setSt_epochs p epochs) (setAsking_asks p x fun _ asks => asks.elim)
  | ruled _ i ex st phase found unanswered verdict keeps =>
    exact same (setSt_epochs p keeps.epochs) fun _ asks => .inl asks
  | answered i seed draws ex st response ct secret found admitted encap made drawn epochs pending
      inflight replay =>
    obtain ⟨asker, run, request, phase⟩ := ex
    cases admitted
    cases asker with
    | a => exact ⟨[secret], answered traced stocked found whole newSecret drawn epochs⟩
    | b => exact same rfl fun _ asks => .inl asks
  | took x i ex response secret run esk since ct waiting found answer pending sent =>
    apply same (setSt_epochs p rfl)
    apply setAsking_asks p x
    rintro j rfl
    left
    rw [waiting]
    rfl
  | adopted x i response esk ct ss st taken got epochs inflight replay =>
    cases x with
    | a => exact same rfl fun _ asks => .inl asks
    | b =>
      have number : response.epoch ∉ (p.st .b).epochs.map (·.1) := by
        unfold Act.NewNumber at newNumber
        rw [taken] at newNumber
        exact newNumber
      exact ⟨[ss], adopted lawful traced stocked taken got whole newSecret number epochs⟩
  | settled x st ok done epochs replay =>
    exact same (setSt_epochs p epochs) (setAsking_asks p x fun _ asks => asks.elim)
  | unsealed _ x st keeps => exact same (setSt_epochs p keeps.epochs) fun _ asks => .inl asks
  | sealed _ x st epoch secret keyId header payload held named keeps =>
    exact same (setSt_epochs p keeps.epochs) fun _ asks => .inl asks
  | verified => exact same rfl fun _ asks => .inl asks
  | restarted x incarnation =>
    cases x with
    | a => exact same rfl fun _ asks => .inl asks
    | b => exact lasting.elim
  | _ =>
    exact same (setSt_epochs p rfl) fun _ asks => .inl asks

end Stocked

end Pair

end Dkms.E2e
