import Dkms.Node.FailedRequests
import Dkms.Node.Footprint

namespace Dkms.Node

open List Std Dkms.Core Prog PendingStore DkmsService World

def World.encKeys (w : World) (self peer : NodeId) (grade : KeyGrade) : List TransportKey :=
  ((w.nodes self).enc peer grade).inner

def takenFrom (peer : NodeId) (grade : KeyGrade) (popped : List Popped) : List TransportKey :=
  (popped.filter fun p => p.peer = peer ∧ p.grade = grade).map (·.key)

@[simp]
theorem takenFrom_append (peer : NodeId) (grade : KeyGrade) (popped more : List Popped) :
    takenFrom peer grade (popped ++ more) =
      takenFrom peer grade popped ++ takenFrom peer grade more := by
  simp [takenFrom]

/-- From `w` to `w'` the popped keys left the fronts of their buffers, and that is all that the
rest of a request can see. -/
structure Drawn (node : NodeId) (popped : List Popped) (w w' : World) : Prop where
  enc : ∀ peer grade, w.encKeys node peer grade = takenFrom peer grade popped ++ w'.encKeys node peer grade
  pending : (w'.nodes node).pending = (w.nodes node).pending
  posts : w'.posts = w.posts

abbrev EndsAlone {α : Type} (self : NodeId) (hint : Hint) (prog : Handler α) (w : World)
    (post : α → World → Prop) : Prop :=
  prog.Ensures (fun op => exec self op hint) w post

variable {self : NodeId} {hint : Hint} {w w' w'' : World} {popped more : List Popped}

namespace Drawn

theorem refl (w : World) : Drawn self [] w w := ⟨fun _ _ => rfl, rfl, rfl⟩

theorem trans (first : Drawn self popped w w') (second : Drawn self more w' w'') :
    Drawn self (popped ++ more) w w'' where
  enc peer grade := by
    rw [first.enc, second.enc, takenFrom_append, append_assoc]
  pending := second.pending.trans first.pending
  posts := second.posts.trans first.posts

theorem encKeys_eq (drawn : Drawn self [] w w') (peer : NodeId) (grade : KeyGrade) :
    w'.encKeys self peer grade = w.encKeys self peer grade :=
  (drawn.enc peer grade).symm

variable {grade : KeyGrade}

theorem held (drawn : Drawn self popped w w') {peer : NodeId}
    {key : TransportKey} (left : key ∈ w'.encKeys self peer grade) :
    key ∈ w.encKeys self peer grade := by
  rw [drawn.enc]
  exact mem_append_right _ left

theorem pop {peer : NodeId} {answer : Option TransportKey}
    (ran : exec self (.popOldest peer grade) hint w = some (answer, w')) :
    Drawn self (answer.toList.map (⟨peer, grade, ·⟩)) w w' ∧
      (answer = none → w'.encKeys self peer grade = []) := by
  have buffers := exec_enc ran
  simp only [exec] at ran
  obtain ⟨rfl, rfl⟩ := ran
  rw [(SecureKeyBuffer.popOldest_inner _).2]
  refine ⟨⟨fun p g => ?_, by simp [setEnc], rfl⟩, fun empty => ?_⟩
  · rw [encKeys, encKeys, buffers, Op.onEnc]
    by_cases same : p = peer ∧ g = grade
    · obtain ⟨rfl, rfl⟩ := same
      cases ((w.nodes self).enc p g).inner <;> simp [takenFrom]
    · have other : ¬ (peer = p ∧ grade = g) := fun back => same ⟨back.1.symm, back.2.symm⟩
      cases ((w.nodes self).enc peer grade).inner <;> simp [takenFrom, same, other]
  · rw [encKeys, buffers, Op.onEnc, if_pos ⟨rfl, rfl⟩, List.head?_eq_none_iff.mp empty]
    rfl

theorem push {p : Popped} {answer : Unit} (drawn : Drawn self (popped ++ [p]) w w')
    (ran : exec self (.pushFront p.peer p.grade p.key) hint w' = some (answer, w'')) :
    Drawn self popped w w'' := by
  have buffers := exec_enc ran
  simp only [exec, Option.some.injEq, Prod.mk.injEq, true_and] at ran
  subst ran
  refine ⟨fun peer grade => ?_, ?_, drawn.posts⟩
  · have before := drawn.enc peer grade
    rw [before, encKeys, encKeys, buffers, Op.onEnc]
    by_cases same : peer = p.peer ∧ grade = p.grade
    · obtain ⟨rfl, rfl⟩ := same
      simp [takenFrom]
    have other : ¬ (p.peer = peer ∧ p.grade = grade) := fun back => same ⟨back.1.symm, back.2.symm⟩
    simp [takenFrom, same, other]
  · simpa [setEnc] using drawn.pending

end Drawn

theorem giveBack_restores (drawn : Drawn self popped w w') :
    EndsAlone self hint (giveBack popped) w' fun _ w'' => Drawn self [] w w'' := by
  unfold giveBack
  induction popped using List.reverseRecOn generalizing w' with
  | nil => simpa [pushFrontAll] using drawn
  | append_singleton popped p ih =>
    rw [reverse_append]
    exact Ensures.perform fun _ _ ran => ih (drawn.push ran)

theorem encPopPref_draws (peer : NodeId) (prefs : List KeyGrade) :
    EndsAlone self hint (encPopPref peer prefs) w fun result w' =>
      Drawn self result.toList w w' ∧
        (result = none → ∀ grade ∈ prefs, w'.encKeys self peer grade = []) ∧
        ∀ p ∈ result, p.peer = peer ∧ p.grade ∈ prefs := by
  induction prefs generalizing w with
  | nil => simpa [encPopPref] using Drawn.refl w
  | cons grade prefs ih =>
    apply Ensures.perform
    intro answer w' ran
    obtain ⟨drawn, empty⟩ := Drawn.pop ran
    cases answer with
    | some key => simpa using drawn
    | none =>
      refine Ensures.weaken ih fun result w'' found => ?_
      obtain ⟨rest, exhausted, suited⟩ := found
      refine ⟨drawn.trans rest, ?_, ?_⟩
      · rintro rfl g member
        rcases mem_cons.mp member with rfl | later
        · rw [rest.encKeys_eq, empty rfl]
        · exact exhausted rfl g later
      · exact fun p taken => ⟨(suited p taken).1, mem_cons_of_mem _ (suited p taken).2⟩

def Fits (group : Group) (popped : List Popped) : Prop :=
  ∀ p ∈ popped, p.peer = group.peer ∧ p.grade ∈ group.prefs ∧ transportKeyBytes ≤ p.key.bytes.length

inductive WrapEnd {β : Type} (node : NodeId) (group : Group) (number : Nat) (w w' : World) :
    Except DkmsError (β × List Popped) → Prop
  | wrapped (value : β) (popped : List Popped) (drawn : Drawn node popped w w')
      (fits : Fits group popped) (count : popped.length = number) :
      WrapEnd node group number w w' (.ok (value, popped))
  | empty (popped : List Popped) (restored : Drawn node [] w w') (fits : Fits group popped)
      (few : popped.length < number)
      (all : ∀ grade ∈ group.prefs, w.encKeys node group.peer grade = takenFrom group.peer grade popped) :
      WrapEnd node group number w w' (.error (.transportBufferEmpty group.peer))
  | short (message : String) (grade : KeyGrade) (key : TransportKey)
      (suited : grade ∈ group.prefs) (held : key ∈ w.encKeys node group.peer grade)
      (short : key.bytes.length < transportKeyBytes) :
      WrapEnd node group number w w' (.error (.crypto message))

variable {sha : Bytes → Bytes}

theorem wrapKey_isOk {k : SessionKey} {transport : TransportKey}
    (fits : k.bytes.length ≤ transport.bytes.length) :
    ∃ wrapped, wrapKey sha k transport = .ok wrapped := by
  unfold wrapKey wrapSessionKey
  rw [if_neg (Nat.not_lt.mpr fits)]
  exact ⟨_, rfl⟩

theorem wrapKeys_ends {group : Group} {sessionKeys : List SessionKey}
    {keys : List Etsi020Key} (small : ∀ k ∈ sessionKeys, k.bytes.length ≤ transportKeyBytes)
    (drawn : Drawn self popped w w') (fits : Fits group popped) :
    EndsAlone self hint (wrapKeys sha group sessionKeys keys popped) w' fun result w'' =>
      WrapEnd self group (popped.length + sessionKeys.length) w w'' result := by
  induction sessionKeys generalizing keys popped w' with
  | nil => simpa [wrapKeys] using WrapEnd.wrapped keys popped drawn fits rfl
  | cons k rest ih =>
    rw [wrapKeys]
    refine Ensures.bind (encPopPref_draws group.peer group.prefs) fun result w₁ found => ?_
    obtain ⟨last, exhausted, suited⟩ := found
    have total : popped.length + (k :: rest).length = (popped.length + 1) + rest.length := by
      rw [length_cons]
      omega
    rw [total]
    cases result with
    | none =>
      have drawn₁ : Drawn self popped w w₁ := by simpa using drawn.trans last
      refine Ensures.bind (giveBack_restores drawn₁) fun _ w₂ restored => ?_
      refine ensures_done.mpr (.empty popped restored fits (by omega) fun grade member => ?_)
      rw [drawn₁.enc, exhausted rfl grade member, append_nil]
    | some p =>
      obtain ⟨samePeer, suited⟩ := suited p rfl
      have held : p.key ∈ w.encKeys self group.peer p.grade := by
        rw [(drawn.trans last).enc]
        simp [takenFrom, samePeer]
      dsimp only
      split
      · rename_i short
        have ends : EndsAlone self hint (giveBack popped) w₁ fun _ _ => True := fun _ _ _ => trivial
        refine Ensures.bind ends fun _ w₂ _ => ?_
        exact ensures_done.mpr (.short _ p.grade p.key suited held short)
      rename_i long
      have wide : transportKeyBytes ≤ p.key.bytes.length := Nat.le_of_not_lt long
      obtain ⟨wrapped, made⟩ := wrapKey_isOk ((small k mem_cons_self).trans wide)
      rw [made]
      have fits' : Fits group (popped ++ [p]) := by
        intro q member
        rcases mem_append.mp member with old | new
        · exact fits q old
        · rw [mem_singleton.mp new]
          exact ⟨samePeer, suited, wide⟩
      rw [show popped.length + 1 = (popped ++ [p]).length by simp]
      exact ih (fun k member => small k (mem_cons_of_mem _ member)) (drawn.trans last) fits'

section Envelopes

variable {sha : Bytes → Bytes} {cfg : DkmsConfig} {plan : EncPlan}

theorem buildExtKeysEnvelope_ends {group : Group}
    (small : ∀ k ∈ plan.sessionKeys, k.bytes.length ≤ transportKeyBytes) :
    EndsAlone self hint (buildExtKeysEnvelope sha cfg plan group) w fun result w' =>
      WrapEnd self group plan.sessionKeys.length w w' result := by
  have loop := @wrapKeys_ends self hint w w [] sha group plan.sessionKeys [] small (Drawn.refl w)
    (by simp [Fits])
  rw [length_nil, Nat.zero_add] at loop
  refine Ensures.bind loop fun result w' ends => ?_
  cases ends with
  | wrapped keys popped drawn fits count =>
    exact ensures_done.mpr (.wrapped _ popped drawn fits count)
  | empty popped restored fits few all =>
    exact ensures_done.mpr (.empty popped restored fits few all)
  | short message grade key suited held short =>
    exact ensures_done.mpr (.short message grade key suited held short)

/-- Where no transport key is too short, the keys that are out when the envelopes are done, or when
one of them fails, are those that the caller gets to know. -/
theorem buildEnvelopes_draws (small : ∀ k ∈ plan.sessionKeys, k.bytes.length ≤ transportKeyBytes)
    (long : ∀ peer grade, ∀ key ∈ w.encKeys self peer grade, transportKeyBytes ≤ key.bytes.length)
    {groups : List Group} {envelopes : List Envelope} (drawn : Drawn self popped w w') :
    EndsAlone self hint (buildEnvelopes sha cfg plan groups envelopes popped) w'
      fun result w'' => Drawn self result.1 w w'' := by
  induction groups generalizing envelopes popped w' with
  | nil => exact ensures_done.mpr drawn
  | cons group groups ih =>
    refine Ensures.bind (buildExtKeysEnvelope_ends small) fun result w₁ ends => ?_
    cases ends with
    | wrapped body keys drawn₁ fits count => exact ih (drawn.trans drawn₁)
    | empty popped₁ restored fits few all =>
      exact ensures_done.mpr (by simpa using drawn.trans restored)
    | short message grade key suited held short =>
      have enough := long group.peer grade key (drawn.held held)
      omega

end Envelopes

section Retraction

variable {keys : List SessionKey}

structure Retains (node : NodeId) (keys : List SessionKey) (w w' : World) : Prop where
  enc : ∀ peer grade, w'.encKeys node peer grade = w.encKeys node peer grade
  posts : w'.posts = w.posts
  pending : ∀ id, (∀ k ∈ keys, k.keyId ≠ id) → (w'.nodes node).pending.get id = (w.nodes node).pending.get id

theorem pendingInsertAll_keeps (master : SaeId) (authorized : List SaeId) :
    EndsAlone self hint (pendingInsertAll master authorized keys) w fun _ w' =>
      Retains self keys w w' := by
  induction keys generalizing w with
  | nil => exact ensures_done.mpr ⟨fun _ _ => rfl, rfl, fun _ _ => rfl⟩
  | cons k keys ih =>
    refine Ensures.perform fun _ w₁ ran => Ensures.weaken ih fun _ w' kept => ?_
    simp only [exec, Option.some.injEq, Prod.mk.injEq, true_and] at ran
    subst ran
    refine ⟨fun peer grade => ?_, kept.posts, fun id other => ?_⟩
    · rw [kept.enc]
      simp [encKeys, enc]
    · rw [kept.pending id fun k member => other k (mem_cons_of_mem _ member)]
      simp [insert_get, other k mem_cons_self]

theorem storeLocally_keeps {plan : EncPlan} :
    EndsAlone self hint (storeLocally plan) w fun _ w' => Retains self plan.sessionKeys w w' := by
  unfold storeLocally
  split
  · exact ensures_done.mpr ⟨fun _ _ => rfl, rfl, fun _ _ => rfl⟩
  · exact pendingInsertAll_keeps plan.master plan.localAuthorized

theorem forceRemoveAll_keeps :
    EndsAlone self hint (forceRemoveAll keys) w fun _ w' => Retains self keys w w' ∧
      ∀ k ∈ keys, (w'.nodes self).pending.get k.keyId = none := by
  induction keys generalizing w with
  | nil => exact ensures_done.mpr ⟨⟨fun _ _ => rfl, rfl, fun _ _ => rfl⟩, nofun⟩
  | cons k keys ih =>
    refine Ensures.perform fun _ w₁ ran => Ensures.weaken ih fun _ w' removed => ?_
    simp only [exec, Option.some.injEq, Prod.mk.injEq, true_and] at ran
    subst ran
    obtain ⟨kept, gone⟩ := removed
    refine ⟨⟨fun peer grade => ?_, kept.posts, fun id other => ?_⟩, fun key member => ?_⟩
    · rw [kept.enc]
      simp [encKeys, enc]
    · rw [kept.pending id fun k member => other k (mem_cons_of_mem _ member)]
      simp [forceRemove, removeEntry_get, other k mem_cons_self]
    by_cases later : ∃ k' ∈ keys, k'.keyId = key.keyId
    · obtain ⟨k', listed, same⟩ := later
      rw [← same]
      exact gone k' listed
    rcases mem_cons.mp member with rfl | listed
    · rw [kept.pending _ fun k' listed same => later ⟨k', listed, same⟩]
      simp [forceRemove, removeEntry_get]
    · exact gone key listed

end Retraction

structure Undone (node : NodeId) (keys : List SessionKey) (w w' : World) : Prop where
  enc : ∀ peer grade, w'.encKeys node peer grade = w.encKeys node peer grade
  pending : ∀ id, (w'.nodes node).pending.get id = (w.nodes node).pending.get id ∨
    (w'.nodes node).pending.get id = none ∧ ∃ k ∈ keys, k.keyId = id

theorem Undone.of_retracted {keys : List SessionKey} {w₁ w₂ w₃ : World}
    (stored : Retains self keys w w₁) (restored : Drawn self [] w₁ w₂)
    (removed : Retains self keys w₂ w₃)
    (gone : ∀ k ∈ keys, (w₃.nodes self).pending.get k.keyId = none) : Undone self keys w w₃ where
  enc peer grade := by rw [removed.enc, restored.encKeys_eq, stored.enc]
  pending id := by
    by_cases listed : ∃ k ∈ keys, k.keyId = id
    · obtain ⟨k, member, rfl⟩ := listed
      exact .inr ⟨gone k member, k, member, rfl⟩
    · have other : ∀ k ∈ keys, k.keyId ≠ id := fun k member same => listed ⟨k, member, same⟩
      exact .inl (by rw [removed.pending id other, restored.pending, stored.pending id other])

theorem Touches.posts {α : Type} {kinds : List OpKind} {prog : Handler α}
    (touches : Touches kinds prog) (silent : OpKind.post ∉ kinds) :
    EndsAlone self hint prog w fun _ w' => w'.posts = w.posts := by
  refine Uses.ensures touches (fun w w' : World => w'.posts = w.posts) (fun _ => rfl) ?_
  intro op w₁ answer w₂ w₃ allowed ran later
  rcases exec_posts ran with same | ⟨peer, body, rfl, -⟩
  · exact later.trans same
  · exact absurd allowed silent

variable {envelopes : List Envelope}

theorem sendAll_posts {sent : List (NodeId × Nat)} :
    EndsAlone self hint (sendAll envelopes sent) w fun _ w' =>
      w'.posts.length = w.posts.length + envelopes.length := by
  induction envelopes generalizing sent w with
  | nil => exact ensures_done.mpr rfl
  | cons envelope envelopes ih =>
    refine Ensures.perform fun _ w₁ ran => Ensures.weaken ih fun _ w' grown => ?_
    obtain ⟨-, rfl⟩ := ran
    rw [grown, length_cons]
    simp only [length_append, length_singleton]
    omega

theorem distribute_sends {plan : EncPlan} :
    EndsAlone self hint (distribute plan envelopes) w fun result w' =>
      w'.posts = w.posts → result.isOk := by
  cases envelopes with
  | nil =>
    intro result w' ends _
    cases ends
    rfl
  | cons envelope envelopes =>
    refine Ensures.bind sendAll_posts fun sent w₁ grown => ?_
    refine Ensures.weaken (@Touches.posts self hint w₁ _ [.answer, .encWipe, .pendingDrop] _ ?_ (by simp)) ?_
    · apply Touches.bind ((awaitAll_touches ..).mono (by simp))
      intro failed
      cases failed with
      | nil => exact touches_pure _
      | cons first failed =>
        apply Touches.bind ((resyncTransportBuffers_touches _).mono (by simp))
        intro _
        apply Touches.bind ((forceRemoveAll_touches _).mono (by simp))
        exact fun _ => touches_pure _
    · intro result w' same unsent
      rw [← unsent, same, length_cons] at grown
      omega

theorem checkDestinations_same {cfg : DkmsConfig} :
    EndsAlone self hint (checkDestinations cfg envelopes) w fun _ w' => w' = w := by
  refine Uses.ensures (checkDestinations_touches cfg envelopes) (fun w w' => w' = w) (fun _ => rfl) ?_
  intro op w₁ answer w₂ w₃ allowed ran later
  cases op <;> simp [Op.kind] at allowed
  simp only [exec, Option.some.injEq, Prod.mk.injEq] at ran
  rw [later, ran.2]

end Dkms.Node
