import Dkms.Node.TokenBucket
import Dkms.Node.Withdrawals

namespace Dkms.Node

open List Std Dkms.Core Prog

/-- The limiters of a node. The buckets that follow the buffers are there with the generator; a
node without it falls back on the plain ones. -/
structure Limits where
  buckets : SaeBuckets
  saeBufferBuckets : Option SaeBufferBuckets

structure Meter where
  tokenUnitBytes : Nat
  rates : NodeId → Option ℚ

def Meter.cost (meter : Meter) (r : KeyRequest) (numDestinationDkms : Nat) : Nat :=
  computeCost ((r.size + 7) / 8) r.number numDestinationDkms meter.tokenUnitBytes

def World.occupancy (w : World) (self peer : NodeId) : Nat :=
  (w.encKeys self peer .qkd).length + (w.encKeys self peer .pqc).length

def World.instant (w : World) : Nat := w.now * 10 ^ 6

namespace Limits

variable (limits : Limits)

def tryAdmit (rates : NodeId → Option ℚ) (occupancy : NodeId → Nat) (peers : List NodeId)
    (master : SaeId) (costPerPeer cost now : Nat) : Except (Nat × Nat) Unit × Limits :=
  match limits.saeBufferBuckets with
  | some sbb =>
    if peers = [] then (.ok (), limits)
    else
      let (result, sbb) := sbb.tryAdmitMany rates occupancy peers master costPerPeer now
      (result.mapError fun fail => (fail.requested, fail.available.floor.toNat),
        { limits with saeBufferBuckets := some sbb })
  | none =>
    let (result, buckets) := limits.buckets.tryConsume master cost now
    (result.mapError (cost, ·), { limits with buckets })

def refund (peers : List NodeId) (master : SaeId) (costPerPeer : Nat) : Limits :=
  match limits.saeBufferBuckets with
  | some sbb => { limits with saeBufferBuckets := some (sbb.refundMany peers master costPerPeer) }
  | none =>
    { limits with buckets := limits.buckets.refund master (costPerPeer * max peers.length 1) }

variable {limits} {rates : NodeId → Option ℚ} {occupancy : NodeId → Nat} {peers : List NodeId}
  {master sae : SaeId} {costPerPeer cost now : Nat}

theorem tokensNow_refused {failure : Nat × Nat}
    (refused : (limits.tryAdmit rates occupancy peers master costPerPeer cost now).1 = .error failure) :
    (limits.tryAdmit rates occupancy peers master costPerPeer cost now).2.buckets.tokensNow sae now =
      limits.buckets.tokensNow sae now := by
  unfold tryAdmit at refused ⊢
  split
  · split <;> rfl
  rename_i plain
  rw [plain] at refused
  dsimp only at refused ⊢
  cases verdict : (limits.buckets.tryConsume master cost now).1 with
  | error available => exact SaeBuckets.tokensNow_refused verdict
  | ok =>
    rw [verdict] at refused
    cases refused

theorem tokensNow_refunded (same : cost = costPerPeer * max peers.length 1)
    (granted : (limits.tryAdmit rates occupancy peers master costPerPeer cost now).1 = .ok ()) :
    ((limits.tryAdmit rates occupancy peers master costPerPeer cost now).2.refund peers master
        costPerPeer).buckets.tokensNow sae now = limits.buckets.tokensNow sae now := by
  unfold tryAdmit at granted ⊢
  split
  · rename_i sbb wired
    split <;> simp [refund, wired]
  rename_i plain
  rw [plain] at granted
  dsimp only at granted
  cases verdict : (limits.buckets.tryConsume master cost now).1 with
  | error available =>
    rw [verdict] at granted
    cases granted
  | ok =>
    simp only [refund, plain, ← same]
    exact SaeBuckets.tokensNow_refunded verdict

end Limits

inductive MeteredOp where
  | node (op : Op)
  | tryAdmit (peers : List NodeId) (master : SaeId) (costPerPeer cost : Nat)
  | refund (peers : List NodeId) (master : SaeId) (costPerPeer : Nat)

@[reducible]
def MeteredOp.Answer : MeteredOp → Type
  | .node op => op.Answer
  | .tryAdmit _ _ _ _ => Except (Nat × Nat) Unit
  | .refund _ _ _ => Unit

abbrev MeteredHandler := Prog MeteredOp.Answer

abbrev limiter (op : MeteredOp) : MeteredHandler op.Answer := Prog.perform op

def execMetered (meter : Meter) (self : NodeId) (hint : Hint) :
    (op : MeteredOp) → World × Limits → Option (op.Answer × (World × Limits))
  | .node op, (w, limits) => (exec self op hint w).map fun ran => (ran.1, ran.2, limits)
  | .tryAdmit peers master costPerPeer cost, (w, limits) =>
    let (verdict, limits) :=
      limits.tryAdmit meter.rates (w.occupancy self) peers master costPerPeer cost w.instant
    some (verdict, w, limits)
  | .refund peers master costPerPeer, (w, limits) =>
    some ((), w, limits.refund peers master costPerPeer)

def metered {α : Type} : Handler α → MeteredHandler α
  | .done result => .done result
  | .call op rest => .call (.node op) fun answer => metered (rest answer)

def meteredRollback (plan : EncPlan) (costPerPeer : Nat) (popped : List Popped) (error : DkmsError) :
    MeteredHandler (Except DkmsError (List Etsi014Key)) := do
  metered (giveBack popped)
  limiter (.refund (plan.groups.map (·.peer)) plan.master costPerPeer)
  metered (forceRemoveAll plan.sessionKeys)
  pure (.error error)

def awaitFailed : List (NodeId × Nat) → List (NodeId × DkmsError) →
    Handler (List (NodeId × DkmsError))
  | [], failed => pure failed
  | (peer, post) :: sent, failed => do
    match ← perform (.extKeysAnswer post) with
    | .ok () => awaitFailed sent failed
    | .error error => awaitFailed sent (failed ++ [(peer, error)])

/-- Only the destinations that failed are refunded: the others have spent their material. -/
def meteredDistribute (plan : EncPlan) (costPerPeer : Nat) (envelopes : List Envelope) :
    MeteredHandler (Except DkmsError (List Etsi014Key)) := do
  let sent ← metered (sendAll envelopes [])
  match ← metered (awaitFailed sent []) with
  | [] => pure (.ok (plan.sessionKeys.map fun k => ⟨k.keyId, k.bytes⟩))
  | first :: failed => do
    metered (resyncTransportBuffers ((first :: failed).map (·.2)))
    limiter (.refund ((first :: failed).map (·.1)) plan.master costPerPeer)
    metered (forceRemoveAll plan.sessionKeys)
    pure (.error (.peerUnreachable first.2.text "one or more peer DKMSs failed during key distribution"))

def meteredEncKeys (sha : Bytes → Bytes) (cfg : DkmsConfig) (meter : Meter) (self : NodeId)
    (r : KeyRequest) (env : Surroundings) : MeteredHandler (Except DkmsError (List Etsi014Key)) :=
  match admitEncKeys cfg self r { env with limited := none } with
  | .error error => pure (.error error)
  | .ok plan => do
    let costPerPeer := meter.cost r 1
    match ← limiter (.tryAdmit (plan.groups.map (·.peer)) r.master costPerPeer
        (meter.cost r plan.groups.length)) with
    | .error (requested, available) => pure (.error (.rateLimited r.master requested available))
    | .ok () =>
      metered (storeLocally plan)
      match ← metered (buildEnvelopes sha cfg plan plan.groups [] []) with
      | (popped, .error error) => meteredRollback plan costPerPeer popped error
      | (popped, .ok envelopes) =>
        match ← metered (checkDestinations cfg envelopes) with
        | .error error => meteredRollback plan costPerPeer popped error
        | .ok () => meteredDistribute plan costPerPeer envelopes

section

variable {α β : Type} {meter : Meter} {self : NodeId} {hint : Hint} {w : World} {limits : Limits}

theorem eval_metered (prog : Handler α) :
    (metered prog).eval (execMetered meter self hint) (w, limits) =
      (prog.eval (fun op => exec self op hint) w).map fun ran => (ran.1, ran.2, limits) := by
  induction prog generalizing w with
  | done result => rfl
  | call op rest ih =>
    rw [metered, eval_call, eval_call, execMetered]
    cases exec self op hint w with
    | none => rfl
    | some ran => exact ih _

variable {post : α → World → Prop}

theorem ensures_metered {prog : Handler α} (ends : EndsAlone self hint prog w post) :
    (metered prog).Ensures (execMetered meter self hint) (w, limits) fun result state =>
      post result state.1 ∧ state.2 = limits := by
  intro result state ran
  rw [eval_metered, Option.map_eq_some_iff] at ran
  obtain ⟨⟨result', w'⟩, ran, same⟩ := ran
  cases same
  exact ⟨ends _ _ ran, rfl⟩

def Erases (meter : Meter) (self : NodeId) (hint : Hint) (prog : MeteredHandler α)
    (handler : Handler α) : Prop :=
  ∀ w limits, (prog.eval (execMetered meter self hint) (w, limits)).map
    (fun ran => (ran.1, ran.2.1)) = handler.eval (fun op => exec self op hint) w

theorem erases_metered (handler : Handler α) : Erases meter self hint (metered handler) handler := by
  intro w limits
  rw [eval_metered]
  cases handler.eval (fun op => exec self op hint) w <;> rfl

variable {handler : Handler α} {costPerPeer : Nat}

variable {prog : MeteredHandler α}

theorem Erases.bind {next : α → MeteredHandler β} {next' : α → Handler β}
    (first : Erases meter self hint prog handler)
    (rest : ∀ result, Erases meter self hint (next result) (next' result)) :
    Erases meter self hint (prog >>= next) (handler >>= next') := by
  intro w limits
  rw [eval_bind, eval_bind, ← first w limits]
  cases prog.eval (execMetered meter self hint) (w, limits) with
  | none => rfl
  | some ran => exact rest _ _ _

variable {peers : List NodeId}

theorem Erases.refund {next : Unit → MeteredHandler α} {master : SaeId}
    (rest : Erases meter self hint (next ()) handler) :
    Erases meter self hint (limiter (.refund peers master costPerPeer) >>= next) handler :=
  fun _ _ => rest _ _

theorem Erases.ensures
    (erases : Erases meter self hint prog handler) (ends : EndsAlone self hint handler w post) :
    prog.Ensures (execMetered meter self hint) (w, limits) fun result state =>
      post result state.1 := by
  intro result state ran
  apply ends
  rw [← erases w limits, ran]
  rfl

theorem eval_awaitFailed (sent : List (NodeId × Nat)) (failed : List (NodeId × DkmsError))
    (w : World) : (awaitAll sent (failed.map (·.2))).eval (fun op => exec self op hint) w =
      ((awaitFailed sent failed).eval (fun op => exec self op hint) w).map fun ran =>
        (ran.1.map (·.2), ran.2) := by
  induction sent generalizing failed w with
  | nil => rfl
  | cons pair sent ih =>
    rw [awaitAll, awaitFailed, Prog.perform_bind, Prog.perform_bind, eval_call, eval_call]
    cases exec self (.extKeysAnswer pair.2) hint w with
    | none => rfl
    | some ran =>
      obtain ⟨answer, w'⟩ := ran
      cases answer with
      | ok => exact ih failed w'
      | error error => simpa using ih (failed ++ [(pair.1, error)]) w'

theorem erases_distribute (plan : EncPlan) (costPerPeer : Nat) (envelopes : List Envelope) :
    Erases meter self hint (meteredDistribute plan costPerPeer envelopes)
      (distribute plan envelopes) := by
  apply (erases_metered _).bind
  intro sent w limits
  have answers := @eval_awaitFailed self hint sent [] w
  rw [map_nil] at answers
  rw [eval_bind, eval_bind, eval_metered, answers]
  cases (awaitFailed sent []).eval (fun op => exec self op hint) w with
  | none => rfl
  | some ran =>
    obtain ⟨failed, w'⟩ := ran
    cases failed with
    | nil => rfl
    | cons first failed =>
      exact ((erases_metered _).bind fun _ => Erases.refund ((erases_metered _).bind
        fun _ _ _ => rfl)) w' limits

theorem meteredRollback_undoes {plan : EncPlan} {popped : List Popped} {error : DkmsError}
    {w₁ w₂ : World} (stored : Retains self plan.sessionKeys w w₁) (drawn : Drawn self popped w₁ w₂) :
    (meteredRollback plan costPerPeer popped error).Ensures (execMetered meter self hint)
      (w₂, limits) fun _ state => Undone self plan.sessionKeys w state.1 ∧
        state.2 = limits.refund (plan.groups.map (·.peer)) plan.master costPerPeer := by
  refine Ensures.bind (ensures_metered (giveBack_restores drawn)) fun _ state₃ restored => ?_
  obtain ⟨w₃, limits₃⟩ := state₃
  obtain ⟨restored, rfl⟩ := restored
  refine Ensures.perform fun _ state₄ refunded => ?_
  cases refunded
  refine Ensures.bind (ensures_metered forceRemoveAll_keeps) fun _ state₅ removed => ?_
  obtain ⟨⟨kept, gone⟩, same⟩ := removed
  exact ensures_done.mpr ⟨.of_retracted stored restored kept gone, same⟩

theorem execMetered_tryAdmit {master : SaeId} {cost : Nat}
    {answer : Except (Nat × Nat) Unit} {state : World × Limits}
    (called : execMetered meter self hint (.tryAdmit peers master costPerPeer cost) (w, limits) =
      some (answer, state)) :
    let admission := limits.tryAdmit meter.rates (w.occupancy self) peers master costPerPeer cost w.instant
    admission.1 = answer ∧ state = (w, admission.2) := by
  cases called
  exact ⟨rfl, rfl⟩

/-- What a request that ends without an envelope sent leaves, unless it succeeds. -/
theorem meteredEncKeys_undoes {sha : Bytes → Bytes} {cfg : DkmsConfig} {r : KeyRequest}
    {env : Surroundings}
    (long : ∀ peer grade, ∀ key ∈ w.encKeys self peer grade, transportKeyBytes ≤ key.bytes.length) :
    (meteredEncKeys sha cfg meter self r env).Ensures (execMetered meter self hint) (w, limits)
      fun result state => state.1.posts = w.posts → result.isOk ∨
        Undone self (r.sessionKeys env) w state.1 ∧
          ∀ sae, state.2.buckets.tokensNow sae w.instant =
            limits.buckets.tokensNow sae w.instant := by
  have nothing : Undone self (r.sessionKeys env) w w := ⟨fun _ _ => rfl, fun _ => .inl rfl⟩
  unfold meteredEncKeys
  cases admitted : admitEncKeys cfg self r { env with limited := none } with
  | error error => exact ensures_done.mpr fun _ => .inr ⟨nothing, fun _ => rfl⟩
  | ok plan =>
    refine Ensures.perform fun answer state called => ?_
    obtain ⟨verdict, rfl⟩ := execMetered_tryAdmit called
    cases answer with
    | error failure =>
      exact ensures_done.mpr fun _ =>
        .inr ⟨nothing, fun sae => Limits.tokensNow_refused verdict⟩
    | ok =>
      obtain ⟨numbers, -, most, few⟩ := admitEncKeys_limits admitted
      obtain ⟨-, small⟩ := sessionKeys_short admitted
      obtain ⟨sessions, -⟩ := admitEncKeys_ok admitted
      have master : plan.master = r.master := by
        obtain ⟨saes, groups, levelFor, -, -, rfl⟩ := admitEncKeys_cases admitted
        rfl
      have charge : meter.cost r plan.groups.length =
          meter.cost r 1 * max (plan.groups.map (·.peer)).length 1 := by
        rw [length_map]
        simp only [maxKeyPerRequest, maxKeySizeBits, transportKeyBytes, maxSaeIdCount] at numbers most few
        exact computeCost_destinations (by omega) (by omega) (by omega)
      refine Ensures.bind (ensures_metered storeLocally_keeps) fun _ state₁ stored => ?_
      obtain ⟨w₁, limits₁⟩ := state₁
      obtain ⟨stored, charged⟩ : Retains self plan.sessionKeys w w₁ ∧ limits₁ = _ := stored
      have long₁ : ∀ peer grade, ∀ key ∈ w₁.encKeys self peer grade,
          transportKeyBytes ≤ key.bytes.length := by
        intro peer grade
        rw [stored.enc]
        exact long peer grade
      -- both ways of failing end in the same rollback
      have undoes : ∀ w₂ popped error, Drawn self popped w₁ w₂ →
          (meteredRollback plan (meter.cost r 1) popped error).Ensures (execMetered meter self hint)
            (w₂, limits₁) fun _ state => Undone self (r.sessionKeys env) w state.1 ∧
              ∀ sae, state.2.buckets.tokensNow sae w.instant =
                limits.buckets.tokensNow sae w.instant := by
        intro w₂ popped error drawn
        refine Ensures.weaken (meteredRollback_undoes stored drawn) fun _ state undone => ?_
        refine ⟨sessions ▸ undone.1, fun sae => ?_⟩
        rw [undone.2, charged, master]
        exact Limits.tokensNow_refunded charge verdict
      refine Ensures.bind (ensures_metered (buildEnvelopes_draws small long₁ (Drawn.refl w₁)))
        fun built state₂ drawn => ?_
      obtain ⟨w₂, limits₂⟩ := state₂
      obtain ⟨drawn, rfl⟩ := drawn
      obtain ⟨popped, built⟩ := built
      cases built with
      | error error =>
        exact Ensures.weaken (undoes w₂ popped error drawn) fun _ _ undone _ => .inr undone
      | ok envelopes =>
        refine Ensures.bind (ensures_metered checkDestinations_same) fun checked state₃ same => ?_
        obtain ⟨w₃, limits₃⟩ := state₃
        obtain ⟨rfl, rfl⟩ := same
        cases checked with
        | error error =>
          exact Ensures.weaken (undoes w₃ popped error drawn) fun _ _ undone _ => .inr undone
        | ok =>
          refine Ensures.weaken ((erases_distribute _ _ _).ensures distribute_sends)
            fun result state sends unsent => .inl (sends ?_)
          rw [unsent, drawn.posts, stored.posts]

end

/-- A request that fails with nothing sent leaves every `buffer_enc` with the keys it had, in their
order, no entry of its own in the `PendingStore`, and every plain bucket with the tokens that it
would have had at this moment. -/
theorem preparation_failure_rolls_back (sha : Bytes → Bytes) (cfg : DkmsConfig) (meter : Meter)
    (self : NodeId) (hint : Hint) (r : KeyRequest) (env : Surroundings) (w w' : World)
    (limits limits' : Limits) (error : DkmsError)
    (long : ∀ peer grade, ∀ key ∈ w.encKeys self peer grade, transportKeyBytes ≤ key.bytes.length)
    (failed : (meteredEncKeys sha cfg meter self r env).eval (execMetered meter self hint)
      (w, limits) = some (.error error, w', limits')) (unsent : w'.posts = w.posts) :
    (∀ peer grade, w'.encKeys self peer grade = w.encKeys self peer grade) ∧
      (∀ id, (w'.nodes self).pending.get id = (w.nodes self).pending.get id ∨
        (w'.nodes self).pending.get id = none ∧ ∃ k ∈ r.sessionKeys env, k.keyId = id) ∧
      ∀ sae, limits'.buckets.tokensNow sae w.instant = limits.buckets.tokensNow sae w.instant := by
  rcases meteredEncKeys_undoes long _ _ failed unsent with succeeded | ⟨undone, tokens⟩
  · cases succeeded
  · exact ⟨undone.enc, undone.pending, tokens⟩

def twoKeys : KeyRequest := { oneKey with number := 2 }

theorem preparation_failure_rolls_back_second_key :
    let w := (twoNodes [⟨"t1", List.replicate 32 1⟩] []).world
    let meter : Meter := ⟨32, fun _ => none⟩
    ∃ w' limits', (meteredEncKeys id plainConfig meter "A" twoKeys (atB "k1")).eval
        (execMetered meter "A" ⟨0, true⟩) (w, ⟨.new 1 5, none⟩) =
          some (.error (.transportBufferEmpty "B"), w', limits') ∧
      w'.encKeys "A" "B" .qkd = [⟨"t1", List.replicate 32 1⟩] ∧
      limits'.buckets.tokensNow "m" w.instant = 5 := by
  intro w meter
  have outcome : ((meteredEncKeys id plainConfig meter "A" twoKeys (atB "k1")).eval
      (execMetered meter "A" ⟨0, true⟩) (w, ⟨.new 1 5, none⟩)).map
        (fun ran => (ran.1, ran.2.1.posts.length)) =
          some (.error (.transportBufferEmpty "B"), 0) := by
    decide +kernel
  have long : ∀ peer grade, ∀ key ∈ w.encKeys "A" peer grade,
      transportKeyBytes ≤ key.bytes.length := by
    intro peer grade key held
    simp only [w, World.encKeys, twoNodes, if_pos, DkmsService.enc_setEnc] at held
    split at held
    · rw [mem_singleton.mp held]
      decide
    · cases grade <;> cases held
  obtain ⟨⟨result, w', limits'⟩, ran, same⟩ := Option.map_eq_some_iff.mp outcome
  obtain ⟨rfl, unsent⟩ := Prod.mk.inj same
  obtain ⟨enc, -, tokens⟩ := preparation_failure_rolls_back id plainConfig meter "A" ⟨0, true⟩
    twoKeys (atB "k1") w w' _ limits' _ long ran (eq_nil_of_length_eq_zero unsent)
  have before : w.encKeys "A" "B" .qkd = [⟨"t1", List.replicate 32 1⟩] := by decide +kernel
  exact ⟨w', limits', ran, (enc "B" .qkd).trans before, (tokens "m").trans (by decide +kernel)⟩

section Service

variable {self : NodeId} {hint : Hint} {sha : Bytes → Bytes} {cfg : DkmsConfig} {plan : EncPlan}
  {group : Group} {w : World}

theorem buildExtKeysEnvelope_runs : ∃ result w',
    (buildExtKeysEnvelope sha cfg plan group).eval (fun op => exec self op hint) w =
      some (result, w') := by
  have ends := @Uses.ends _ _ _ _ (fun op => exec self op hint) _ w _
    (buildExtKeysEnvelope_touches sha cfg plan group) ?_
  · obtain ⟨⟨result, w'⟩, ran⟩ := Option.isSome_iff_exists.mp ends
    exact ⟨result, w', ran⟩
  · intro op world allowed
    cases op <;> simp [Op.kind] at allowed <;> rfl

variable {popped : List Popped}

theorem takenFrom_lengths {peer : NodeId} (same : ∀ p ∈ popped, p.peer = peer) :
    (takenFrom peer .qkd popped).length + (takenFrom peer .pqc popped).length = popped.length := by
  induction popped with
  | nil => rfl
  | cons p popped ih =>
    have rest := ih fun q member => same q (mem_cons_of_mem _ member)
    have here := same p mem_cons_self
    simp only [takenFrom, length_map, Bool.decide_and] at rest ⊢
    cases grade : p.grade <;> simp [here, grade] <;> omega

theorem takenFrom_strict {peer : NodeId}
    (same : ∀ p ∈ popped, p.peer = peer) (strict : ∀ p ∈ popped, p.grade = .qkd) :
    (takenFrom peer .qkd popped).length = popped.length := by
  have none : takenFrom peer .pqc popped = [] := by
    simp only [takenFrom, map_eq_nil_iff, filter_eq_nil_iff]
    intro p member
    simp [strict p member]
  have both := takenFrom_lengths same
  rw [none] at both
  exact both

abbrev FindsKeys (self : NodeId) (hint : Hint) (sha : Bytes → Bytes) (cfg : DkmsConfig)
    (plan : EncPlan) (group : Group) (w : World) : Prop :=
  EndsAlone self hint (buildExtKeysEnvelope sha cfg plan group) w fun result _ =>
    result ≠ .error (.transportBufferEmpty group.peer)

/-- The buffer of QKD keys has enough of them, or one that is too short, which fails otherwise. -/
def EnoughQkd (w : World) (self peer : NodeId) (number : Nat) : Prop :=
  number ≤ (w.encKeys self peer .qkd).length ∨
    ∃ key ∈ w.encKeys self peer .qkd, key.bytes.length < transportKeyBytes

theorem findsKeys_iff {level : SecurityLevel} (prefs : group.prefs = level.servePref)
    (small : ∀ k ∈ plan.sessionKeys, k.bytes.length ≤ transportKeyBytes)
    (enough : plan.sessionKeys.length ≤ w.occupancy self group.peer) :
    FindsKeys self hint sha cfg plan group w ↔
      (group.prefs = [.qkd] → EnoughQkd w self group.peer plan.sessionKeys.length) := by
  constructor
  · intro serves strict
    by_contra lacking
    obtain ⟨few, long⟩ := not_or.mp lacking
    obtain ⟨result, w', ran⟩ := @buildExtKeysEnvelope_runs self hint sha cfg plan group w
    have ends := buildExtKeysEnvelope_ends small _ _ ran
    have served := serves _ _ ran
    cases ends with
    | wrapped body popped drawn fits count =>
      have taken := takenFrom_strict (fun p member => (fits p member).1) fun p member => by
        simpa [strict] using (fits p member).2.1
      rw [drawn.enc, length_append] at few
      omega
    | empty popped restored fits few all => exact served rfl
    | short message grade key suited held short =>
      rw [strict, mem_singleton] at suited
      subst suited
      exact long ⟨key, held, short⟩
  · intro condition result w' ran failed
    subst failed
    have ends := buildExtKeysEnvelope_ends small _ _ ran
    cases ends with
    | empty popped restored fits few all =>
      have same : ∀ p ∈ popped, p.peer = group.peer := fun p member => (fits p member).1
      -- with one grade to take from, its buffer was too small; with both, the two together
      by_cases strict : group.prefs = [.qkd]
      · have taken := takenFrom_strict same fun p member => by
          simpa [strict] using (fits p member).2.1
        have drained := all .qkd (by simp [strict])
        rcases condition strict with plenty | ⟨key, held, short⟩
        · rw [drained] at plenty
          omega
        rw [drained, takenFrom, mem_map] at held
        obtain ⟨p, member, rfl⟩ := held
        have wide := (fits p (mem_of_mem_filter member)).2.2
        omega
      · have both := takenFrom_lengths same
        have suited : ∀ grade, grade ∈ group.prefs := by
          rw [prefs] at strict ⊢
          cases level <;> simp [SecurityLevel.servePref] at strict ⊢ <;> intro grade <;>
            cases grade <;> simp
        rw [World.occupancy, all .qkd (suited _), all .pqc (suited _)] at enough
        omega

end Service

/-- A request that the buckets let through finds its transport keys if, for every peer that it serves
with QKD keys only, those alone are enough. Admission counts the keys of both grades. -/
theorem admission_implies_service (sha : Bytes → Bytes) (cfg : DkmsConfig) (meter : Meter)
    (self : NodeId) (hint : Hint) (r : KeyRequest) (env : Surroundings) (plan : EncPlan)
    (sbb : SaeBufferBuckets) (now : Nat) (w : World)
    (admitted : admitEncKeys cfg self r env = .ok plan)
    (granted : (sbb.tryAdmitMany meter.rates (w.occupancy self) (plan.groups.map (·.peer)) r.master
      (meter.cost r 1) now).1.isOk) :
    (∀ group ∈ plan.groups, ∀ w', (∀ grade, w'.encKeys self group.peer grade =
        w.encKeys self group.peer grade) → FindsKeys self hint sha cfg plan group w') ↔
      ∀ group ∈ plan.groups, group.prefs = [.qkd] → EnoughQkd w self group.peer r.number := by
  obtain ⟨numbers, least, -, -⟩ := admitEncKeys_limits admitted
  obtain ⟨count, small⟩ := sessionKeys_short admitted
  have occupied := SaeBufferBuckets.tryAdmitMany_occupancy granted
  have cost : r.number ≤ meter.cost r 1 := by
    rw [minKeySizeBits] at least
    exact number_le_computeCost (by omega) (numbers.trans (by decide))
  have each : ∀ group ∈ plan.groups, ∀ w', (∀ grade, w'.encKeys self group.peer grade =
      w.encKeys self group.peer grade) → (FindsKeys self hint sha cfg plan group w' ↔
        (group.prefs = [.qkd] → EnoughQkd w self group.peer r.number)) := by
    intro group member w' same
    have level : ∃ level : SecurityLevel, group.prefs = level.servePref := by
      obtain ⟨saes, groups, levelFor, -, -, rfl⟩ := admitEncKeys_cases admitted
      obtain ⟨pair, -, rfl⟩ := mem_map.mp member
      exact ⟨_, rfl⟩
    obtain ⟨level, prefs⟩ := level
    have enough := cost.trans (occupied group.peer (mem_map_of_mem member))
    rw [World.occupancy, ← same, ← same, ← count] at enough
    have served := @findsKeys_iff self hint sha cfg plan group w' level prefs small enough
    rw [EnoughQkd, same, count] at served
    exact served
  constructor
  · intro serves group member
    exact (each group member w fun _ => rfl).mp (serves group member w fun _ => rfl)
  · intro condition group member w' same
    exact (each group member w' same).mpr (condition group member)

theorem admission_implies_service_preferred :
    let w := (twoNodes [⟨"t1", List.replicate 32 1⟩] []).world
    let plan : EncPlan := ⟨"m", [], [⟨"B", ["s"], [.qkd, .pqc]⟩], oneKey.sessionKeys (atB "k1")⟩
    ∀ group ∈ plan.groups, FindsKeys "A" ⟨0, true⟩ id plainConfig plan group w := by
  intro w plan group member
  refine (admission_implies_service id plainConfig ⟨32, fun _ => some 1⟩ "A" ⟨0, true⟩ oneKey
    (atB "k1") plan (.new (10 ^ 10) 1) 0 w (by rfl) (by decide +kernel)).mpr ?_ group member w
    fun _ => rfl
  intro group member strict
  rw [mem_singleton.mp member] at strict
  cases strict

/-- `A` has a transport key for `B`, but not one of QKD grade. -/
theorem admission_without_service :
    let strict : KeyRequest := { oneKey with level := .ok (some .strictQkd) }
    let group : Group := ⟨"B", ["s"], [.qkd]⟩
    let plan : EncPlan := ⟨"m", [], [group], strict.sessionKeys (atB "k1")⟩
    let meter : Meter := ⟨32, fun _ => some 1⟩
    let boot := (twoNodes [] []).world
    let w := { boot with nodes := fun id =>
      (boot.nodes id).setEnc "B" .pqc ⟨1, [⟨"t1", List.replicate 32 1⟩]⟩ }
    admitEncKeys plainConfig "A" strict (atB "k1") = .ok plan ∧
      ((SaeBufferBuckets.new (10 ^ 10) 1).tryAdmitMany meter.rates (w.occupancy "A") ["B"] "m"
        (meter.cost strict 1) 0).1.isOk ∧
      ∃ w', (buildExtKeysEnvelope id plainConfig plan group).eval
        (fun op => exec "A" op ⟨0, true⟩) w = some (.error (.transportBufferEmpty "B"), w') :=
  ⟨rfl, by decide +kernel, _, rfl⟩

end Dkms.Node
