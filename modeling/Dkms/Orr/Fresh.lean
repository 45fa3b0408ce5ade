import Dkms.Orr.Keyed
import Dkms.Replay.AcceptedOnce

namespace Dkms.Orr

open List Function Std Dkms.Core Dkms.Link Dkms.Replay OrrService Option

variable {Header : Type} {suite : Suite Header} {net : Network Header} {act : Act Header}

def Act.Running : Act Header → Prop
  | .restart _ _ => False
  | _ => True

def Act.Spelled (suite : Suite Header) : Act Header → Prop
  | .inject _ frame _ _ => suite.toLowercase frame.header.fromOrr = frame.header.fromOrr
  | _ => True

instance (act : Act Header) : Decidable act.Running := by
  rcases act with _ | _ <;> dsimp only [Act.Running] <;> infer_instance

instance (suite : Suite Header) (act : Act Header) : Decidable (act.Spelled suite) := by
  rcases act with _ | _ <;> dsimp only [Act.Spelled] <;> infer_instance

def Delivery.Opens (d : Delivery Header) (m : Built Header) : Prop :=
  d.frame.header.fresh = m.fresh ∧ d.frame.dkms = m.header ∧
    ∃ layer ∈ m.layers, layer.maxHops ≤ 0 ∧ d.frame.header.maxHops = layer.maxHops ∧
      d.frame.header.keyId = some layer.keyId ∧ d.secret = some layer.hop.masterSecret ∧
      d.frame.epochId = layer.hop.epochId ∧ d.frame.payload = layer.ciphertext ∧
      d.frame.header.tag = layer.tag

instance [DecidableEq Header] (d : Delivery Header) (m : Built Header) : Decidable (d.Opens m) := by
  unfold Delivery.Opens
  infer_instance

def Network.deliveriesOf [DecidableEq Header] (net : Network Header) (m : Built Header) :
    List (Delivery Header) :=
  net.delivered.filter fun d => m.path.getLast? = some d.place ∧ d.Opens m

def Delivery.mark (d : Delivery Header) : Option (String × String × Freshness) :=
  d.secret.map fun _ => (d.place, d.frame.header.fromOrr, d.frame.header.fresh)

def Network.Shared (net : Network Header) (x y : String) (session : Nat) : Prop :=
  session = (net.orr x).onionSession.toNat ∨ session = (net.orr y).onionSession.toNat

def Network.Remembers (net : Network Header) (x y : String) (fresh : Freshness) : Prop :=
  ∃ w since, (net.orr x).onionReplay y = some w ∧
    Retained w fresh.session.toNat fresh.counter.toNat since ∧ ∀ s ∈ since, net.Shared x y s

structure Network.Guarded (owners : Bytes → Sym2 String) (net : Network Header) : Prop where
  keyed : net.Keyed owners
  sessions : ∀ m ∈ net.built, m.fresh.session = (net.orr m.origin).onionSession
  sound : ∀ x y w, (net.orr x).onionReplay y = some w → Sound w ∧ w.adopt = .any
  owned : ∀ d ∈ net.delivered, ∀ secret, d.secret = some secret →
    d.place ≠ d.frame.header.fromOrr ∧ owners secret = s(d.place, d.frame.header.fromOrr)
  remembers : ∀ d ∈ net.delivered, d.secret ≠ none →
    net.Remembers d.place d.frame.header.fromOrr d.frame.header.fresh
  once : (net.delivered.filterMap Delivery.mark).Nodup

namespace Network

variable {owners : Bytes → Sym2 String}

theorem few_shared {x y : String} {since : List Nat} (distinct : since.Nodup)
    (shared : ∀ s ∈ since, net.Shared x y s) : since.length ≤ 2 := by
  have two : since.toFinset ⊆ {(net.orr x).onionSession.toNat, (net.orr y).onionSession.toNat} := by
    intro s member
    rw [Finset.mem_insert, Finset.mem_singleton]
    exact shared s (mem_toFinset.mp member)
  have count := Finset.card_le_card two
  rw [toFinset_card_of_nodup distinct] at count
  exact count.trans Finset.card_le_two

variable {after : Network Header}

theorem Guarded.quiet (guarded : net.Guarded owners)
    (keyed : after.Keyed owners) (delivered : after.delivered = net.delivered)
    (session : ∀ x, (after.orr x).onionSession = (net.orr x).onionSession)
    (replay : ∀ x, (after.orr x).onionReplay = (net.orr x).onionReplay)
    (built : ∀ m ∈ after.built, m.fresh.session = (net.orr m.origin).onionSession) :
    after.Guarded owners := by
  refine ⟨keyed, ?_, ?_, ?_, ?_, ?_⟩
  · intro m member
    rw [session]
    exact built m member
  · intro x y w here
    rw [replay] at here
    exact guarded.sound x y w here
  · rw [delivered]
    exact guarded.owned
  · rw [delivered]
    intro d member layered
    obtain ⟨w, since, here, retained, shared⟩ := guarded.remembers d member layered
    refine ⟨w, since, ?_, retained, fun s listed => ?_⟩
    · rw [replay]
      exact here
    unfold Shared
    rw [session, session]
    exact shared s listed
  · rw [delivered]
    exact guarded.once

variable {x : String}

theorem update_same {α : Type} (get : OrrService → α) {s : OrrService}
    (same : get s = get (net.orr x)) (y : String) :
    get (update net.orr x s y) = get (net.orr y) := by
  by_cases here : y = x
  · subst here
    rw [update_self, same]
  · rw [update_of_ne here]

section

variable {x y : String} {call : Call} {after : Network Header}

theorem Guarded.window (guarded : net.Guarded owners) (x y : String) :
    Sound (((net.orr x).onionReplay y).getD (.new onionWindow)) ∧
      (((net.orr x).onionReplay y).getD (.new onionWindow)).adopt = .any := by
  cases here : (net.orr x).onionReplay y with
  | none => exact create_sound .any onionWindow adoptAfterQuiet
  | some w => exact guarded.sound x y w here

variable {place origin : String}

theorem Guarded.checked (guarded : net.Guarded owners)
    (orr : after.orr = update net.orr x ((net.orr x).checkReplay y call).2)
    (shared : net.Shared x y call.session) {fresh : Freshness}
    (remembers : net.Remembers place origin fresh) : after.Remembers place origin fresh ∧
      (place = x → origin = y → call.session = fresh.session.toNat →
        call.counter = fresh.counter.toNat → ((net.orr x).checkReplay y call).1 ≠ .ok ()) := by
  have session : ∀ z, (after.orr z).onionSession = (net.orr z).onionSession := by
    intro z
    have same : ((net.orr x).checkReplay y call).2.onionSession = (net.orr x).onionSession := rfl
    rw [orr]
    exact update_same (·.onionSession) same z
  have keep : ∀ {a b s}, net.Shared a b s → after.Shared a b s := by
    intro a b s here
    unfold Shared
    rw [session, session]
    exact here
  obtain ⟨w, since, here, retained, listed⟩ := remembers
  by_cases same : place = x ∧ origin = y
  · obtain ⟨rfl, rfl⟩ := same
    obtain ⟨sound, policy⟩ := guarded.sound _ _ w here
    obtain ⟨refused, kept⟩ := retained.next sound policy
      ((few_shared retained.distinct listed).trans (by decide)) call
    have window : (after.orr place).onionReplay origin = some (w.next call) := by
      rw [orr, update_self]
      unfold checkReplay
      dsimp only
      rw [update_self, here]
      rfl
    refine ⟨?_, ?_⟩
    · rcases kept with kept | ⟨-, -, -, kept⟩
      · exact ⟨_, since, window, kept, fun s member => keep (listed s member)⟩
      refine ⟨_, _, window, kept, fun s member => ?_⟩
      rcases mem_cons.mp member with rfl | older
      · exact keep shared
      · exact keep (listed s older)
    intro _ _ sessions counters accepted
    apply refused sessions counters
    unfold checkReplay at accepted
    dsimp only at accepted
    rw [here] at accepted
    exact accepted
  · refine ⟨⟨w, since, ?_, retained, fun s member => keep (listed s member)⟩, ?_⟩
    · rw [orr]
      by_cases there : place = x
      · subst there
        rw [update_self]
        unfold checkReplay
        dsimp only
        rw [update_of_ne fun equal => same ⟨rfl, equal⟩]
        exact here
      · rw [update_of_ne there]
        exact here
    · intro at' of
      exact absurd ⟨at', of⟩ same

theorem Guarded.checked_sound (guarded : net.Guarded owners)
    (orr : after.orr = update net.orr x ((net.orr x).checkReplay y call).2)
    {w : ReplayWindow (max onionWindow 64)}
    (here : (after.orr place).onionReplay origin = some w) : Sound w ∧ w.adopt = .any := by
  rw [orr] at here
  by_cases there : place = x
  · subst there
    rw [update_self] at here
    unfold checkReplay at here
    dsimp only at here
    by_cases same : origin = y
    · subst same
      rw [update_self] at here
      obtain ⟨sound, policy⟩ := guarded.window place origin
      obtain ⟨sound', kept⟩ := sound.next call
      rw [← some.inj here]
      exact ⟨sound', kept.trans policy⟩
    · rw [update_of_ne same] at here
      exact guarded.sound _ _ w here
  · rw [update_of_ne there] at here
    exact guarded.sound _ _ w here

end

variable {frame : OrrFrame Header}

theorem Guarded.peeled_shared (unrelated : suite.Unrelated) (guarded : net.Guarded owners)
    {keyId : KeyId} {secret plaintext : Bytes}
    (spelled : suite.toLowercase frame.header.fromOrr = frame.header.fromOrr)
    (assumed : net.OpensSealed suite x frame) (layer : frame.header.keyId = some keyId)
    (held : (net.orr x).secretFor suite frame.header frame.epochId = some secret)
    (opened : suite.openLayer secret keyId frame.payload frame.header.tag frame.epochId
      frame.header.maxHops frame.header.fresh (suite.encodeDkms frame.dkms) = some plaintext) :
    net.Shared x frame.header.fromOrr frame.header.fresh.session.toNat := by
  obtain ⟨m, built, layer', -, -, -, -, fresh, -, sides⟩ :=
    guarded.keyed.opened unrelated assumed layer held opened
  rw [spelled] at sides
  rw [← fresh, guarded.sessions m built]
  rcases sides with ⟨theirs, -⟩ | ⟨own, -⟩
  · exact .inr (by rw [theirs])
  · exact .inl (by rw [own])

variable {d : Delivery Header}

theorem Guarded.deliver (guarded : net.Guarded owners)
    (keyed : after.Keyed owners) (orr : after.orr = net.orr) (built : after.built = net.built)
    (delivered : after.delivered = net.delivered ++ [d]) (owned : ∀ secret, d.secret = some secret →
      d.place ≠ d.frame.header.fromOrr ∧ owners secret = s(d.place, d.frame.header.fromOrr))
    (remembers : d.secret ≠ none → net.Remembers d.place d.frame.header.fromOrr d.frame.header.fresh)
    (new : ∀ mark, d.mark = some mark → mark ∉ net.delivered.filterMap Delivery.mark) :
    after.Guarded owners := by
  have each : ∀ {holds : Delivery Header → Prop}, (∀ e ∈ net.delivered, holds e) → holds d →
      ∀ e ∈ after.delivered, holds e := by
    intro holds before now e member
    rw [delivered] at member
    rcases mem_append.mp member with old | last
    · exact before e old
    · rw [mem_singleton.mp last]
      exact now
  refine ⟨keyed, ?_, ?_, each guarded.owned owned, ?_, ?_⟩
  · rw [built, orr]
    exact guarded.sessions
  · rw [orr]
    exact guarded.sound
  · unfold Remembers Shared
    rw [orr]
    exact each guarded.remembers remembers
  rw [delivered, filterMap_append]
  cases marked : d.mark with
  | none =>
    rw [filterMap_cons_none marked, filterMap_nil, append_nil]
    exact guarded.once
  | some mark =>
    rw [filterMap_cons_some marked, filterMap_nil]
    exact nodup_append.mpr ⟨guarded.once, nodup_singleton _, by
      intro a old b last
      rw [mem_singleton.mp last]
      rintro rfl
      exact new a marked old⟩

theorem Guarded.check (guarded : net.Guarded owners) {x y : String} {call : Call}
    (shared : net.Shared x y call.session) :
    (net.setOrr x ((net.orr x).checkReplay y call).2).Guarded owners := by
  have session : ∀ z, ((net.setOrr x ((net.orr x).checkReplay y call).2).orr z).onionSession =
      (net.orr z).onionSession :=
    update_same (·.onionSession) (rfl : ((net.orr x).checkReplay y call).2.onionSession = _)
  refine ⟨guarded.keyed.update rfl rfl (guarded.keyed.held x), ?_, ?_, guarded.owned, ?_, guarded.once⟩
  · intro m member
    rw [session]
    exact guarded.sessions m member
  · intro place origin w here
    exact guarded.checked_sound rfl here
  · intro d member layered
    exact (guarded.checked rfl shared (guarded.remembers d member layered)).1

theorem Guarded.handled (unrelated : suite.Unrelated) (guarded : net.Guarded owners)
    {readAt acceptAt : Nat} {result : Incoming Header × OrrService}
    (keyed : (net.handled suite x frame result).Keyed owners)
    (spelled : suite.toLowercase frame.header.fromOrr = frame.header.fromOrr)
    (assumed : net.OpensSealed suite x frame)
    (effect : OrrService.Handled suite (net.orr x) frame readAt acceptAt result) :
    (net.handled suite x frame result).Guarded owners := by
  obtain ⟨orr, built⟩ := handled_orr suite net x frame result
  have deliveries := handled_delivered suite net x frame result
  generalize net.handled suite x frame result = after at keyed orr built deliveries
  have still : ∀ {before : Network Header}, before.Guarded owners → after.orr = before.orr →
      after.built = before.built → after.delivered = before.delivered → after.Guarded owners := by
    intro before guarded orr built same
    refine guarded.quiet keyed same ?_ ?_ ?_
    · rw [orr]
      exact fun _ => rfl
    · rw [orr]
      exact fun _ => rfl
    · rw [built]
      exact guarded.sessions
  cases effect with
  | dropped undelivered kept =>
    rcases deliveries with same | ⟨m, delivered, -⟩
    · refine guarded.quiet keyed same ?_ ?_ (built ▸ guarded.sessions)
      · rw [orr]
        exact update_same (·.onionSession) (by rw [kept.same])
      · rw [orr]
        exact update_same (·.onionReplay) (by rw [kept.same])
    · exact absurd delivered (undelivered m)
  | passed clear =>
    rw [update_eq_self] at orr
    rw [clear, bind_none] at deliveries
    rcases deliveries with same | ⟨m, -, new⟩
    · exact still guarded orr built same
    · exact guarded.deliver keyed orr built new (fun secret held => nomatch held)
        (fun layered => absurd rfl layered) (fun mark marked => nomatch marked)
  | peeled layer held opened delivers =>
    have shared := guarded.peeled_shared unrelated spelled assumed layer held opened
    rw [layer, bind_some, held] at deliveries
    unfold secretFor at held
    rw [spelled] at held
    generalize asked : (⟨frame.header.fresh.session.toNat, frame.header.fresh.counter.toNat, readAt,
      acceptAt⟩ : Call) = call at *
    have sessions : call.session = frame.header.fresh.session.toNat := by rw [← asked]
    have counters : call.counter = frame.header.fresh.counter.toNat := by rw [← asked]
    rw [← sessions] at shared
    have checked := guarded.check shared
    rcases deliveries with same | ⟨m, delivered, new⟩
    · exact still checked orr built same
    obtain ⟨-, -, accepted⟩ := delivers m delivered
    refine checked.deliver keyed orr built new ?_ ?_ ?_
    · rintro secret same
      cases same
      exact guarded.keyed.held x _ _ _ held
    · intro _
      have retained := Retained.of_accepts (guarded.window x frame.header.fromOrr).1 accepted
      rw [sessions, counters] at retained
      refine ⟨_, [], ?_, retained, fun s member => nomatch member⟩
      unfold setOrr checkReplay
      dsimp only
      rw [update_self]
      exact update_self ..
    rintro mark marked old
    cases marked
    obtain ⟨e, member, marked⟩ := mem_filterMap.mp old
    obtain ⟨secret, layered, same⟩ := map_eq_some_iff.mp marked
    rw [Prod.mk.injEq, Prod.mk.injEq] at same
    obtain ⟨place, origin, fresh⟩ := same
    have remembers := guarded.remembers e member (by rw [layered]; exact some_ne_none _)
    rw [place, origin, fresh] at remembers
    have refused := guarded.checked orr shared remembers
    exact refused.2 rfl rfl sessions counters accepted

theorem guarded_new (owners : Bytes → Sym2 String) (qkcId : String → UInt32)
    (session : String → UInt64) : (new qkcId session : Network Header).Guarded owners where
  keyed := keyed_new owners qkcId session
  sessions _ member := nomatch member
  sound _ _ _ here := nomatch here
  owned _ member := nomatch member
  remembers _ member := nomatch member
  once := nodup_nil

theorem Guarded.next (unrelated : suite.Unrelated) (guarded : net.Guarded owners)
    (assumed : act.Assumed suite owners net) (running : act.Running) (spelled : act.Spelled suite) :
    (net.next suite act).Guarded owners := by
  have keyed := guarded.keyed.next assumed
  have moves := net.next_moves suite act
  generalize net.next suite act = after at keyed moves
  cases moves with
  | launched x onionCounter path payload appHeader frame layers sent bounded =>
    refine guarded.quiet keyed rfl (update_same (·.onionSession) rfl) (update_same (·.onionReplay) rfl) ?_
    intro m member
    rcases mem_append.mp member with old | last
    · exact guarded.sessions m old
    · rw [mem_singleton.mp last]
      exact sent.session
  | handled x frame readAt acceptAt result injected effect =>
    subst injected
    exact guarded.handled unrelated keyed spelled assumed effect
  | restarted x session again =>
    subst again
    exact running.elim
  | _ =>
    exact guarded.quiet keyed rfl (update_same (·.onionSession) rfl)
      (update_same (·.onionReplay) rfl) guarded.sessions

theorem Guarded.mark_of_opens (guarded : net.Guarded owners) {m : Built Header}
    (built : m ∈ net.built) (delivered : d ∈ net.delivered)
    (final : m.path.getLast? = some d.place) (opens : d.Opens m) :
    d.mark = some (d.place, m.origin, m.fresh) := by
  obtain ⟨fresh, -, layer, listed, last, -, -, secret, -⟩ := opens
  obtain ⟨apart, owned⟩ := guarded.owned d delivered _ secret
  have theirs := guarded.keyed.layers m built layer listed
  have hop : layer.hop.orrId = d.place := by
    have there := (guarded.keyed.delivers m built layer listed last).2
    rw [final] at there
    exact (some.inj there).symm
  rw [owned, hop, Sym2.eq_iff] at theirs
  have origin : d.frame.header.fromOrr = m.origin := by
    rcases theirs with ⟨-, same⟩ | ⟨-, same⟩
    · exact absurd same.symm apart
    · exact same
  unfold Delivery.mark
  rw [secret, map_some, origin, fresh]

theorem filter_length_le_one {α β : Type} {list : List α} {mark : α → Option β} {p : α → Bool}
    {b : β} (distinct : (list.filterMap mark).Nodup)
    (marked : ∀ a ∈ list.filter p, mark a = some b) : (list.filter p).length ≤ 1 := by
  have all : (list.filter p).filterMap mark = List.replicate (list.filter p).length b := by
    generalize list.filter p = kept at marked
    induction kept with
    | nil => rfl
    | cons a kept ih =>
      rw [filterMap_cons_some (marked a mem_cons_self),
        ih fun a' member => marked a' (mem_cons_of_mem _ member)]
      rfl
  have part : ((list.filter p).filterMap mark).Nodup := distinct.sublist ((filter_sublist).filterMap mark)
  rw [all] at part
  exact nodup_replicate.mp part

/-- Without restarts, each message is delivered at most once at the end of its path, in every run in
which origins are spelled in lower case. -/
theorem onion_delivered_once [DecidableEq Header] (suite : Suite Header)
    (unrelated : suite.Unrelated) (owners : Bytes → Sym2 String) (qkcId : String → UInt32)
    (session : String → UInt64) (acts : List (Act Header))
    (assumed : Follows (next suite) (Act.Assumed suite owners) (new qkcId session) acts)
    (running : ∀ act ∈ acts, act.Running) (spelled : ∀ act ∈ acts, act.Spelled suite) :
    ∀ m ∈ (run suite (new qkcId session) acts).built,
      ((run suite (new qkcId session) acts).deliveriesOf m).length ≤ 1 := by
  have each : Follows (next suite) (fun _ act => act.Running ∧ act.Spelled suite)
      (new qkcId session) acts := follows_of_forall fun act member =>
    ⟨running act member, spelled act member⟩
  have guarded : (run suite (new qkcId session) acts).Guarded owners :=
    Follows.invariant (fun _ _ guarded ok => guarded.next unrelated ok.1 ok.2.1 ok.2.2)
      (assumed.and each) (guarded_new owners qkcId session)
  generalize run suite (new qkcId session) acts = net at guarded
  intro m built
  cases final : m.path.getLast? with
  | none => simp [deliveriesOf, final]
  | some place =>
    refine filter_length_le_one guarded.once (b := (place, m.origin, m.fresh)) ?_
    intro d member
    obtain ⟨delivered, here⟩ := mem_filter.mp member
    obtain ⟨last, opens⟩ := of_decide_eq_true here
    rw [final] at last
    rw [Option.some.inj last]
    exact guarded.mark_of_opens built delivered (Option.some.inj last ▸ final) opens

def twice (origin : String) : List (Act Bytes) :=
  let sent := trioSetup ++ [.sendE2e "orr_1" (fun _ => 7) "orr_2" [42] [5] 0 0]
  handOver (handOver sent 0 "orr_2" id) 0 "orr_2" fun frame =>
    { frame with header := { frame.header with fromOrr := origin } }

theorem onion_delivered_once_twice : ((trio.run plainSuite (twice "orr_1")).built.map fun m =>
        ((trio.run plainSuite (twice "orr_1")).deliveriesOf m).length) = [1] ∧
      ∀ m ∈ (trio.run plainSuite (twice "orr_1")).built,
        ((trio.run plainSuite (twice "orr_1")).deliveriesOf m).length ≤ 1 :=
  ⟨by decide +kernel,
    onion_delivered_once plainSuite plainSuite_unrelated trioOwners _ _ (twice "orr_1")
      (by decide +kernel) (by decide +kernel) (by decide +kernel)⟩

/-- The secret is found under the origin in lower case, the window under the origin as it came. -/
theorem respelled_delivered_again :
    Follows (next plainSuite) (Act.Assumed plainSuite trioOwners) trio (twice "ORR_1") ∧
      (∀ act ∈ twice "ORR_1", act.Running) ∧
      ((trio.run plainSuite (twice "ORR_1")).built.map fun m =>
        ((trio.run plainSuite (twice "ORR_1")).deliveriesOf m).length) = [2] := by
  decide +kernel

end Network

end Dkms.Orr
