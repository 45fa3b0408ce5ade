import Dkms.Orr.Network

namespace Dkms.Orr

open List Std Dkms.Core Dkms.Link Dkms.Replay OrrService

variable {Header : Type}

/-- What becomes of one frame: the ORRs it comes to, the frames that they hand on and the network
after it. -/
structure Course (Header : Type) where
  visited : List String
  handedOn : List (OrrFrame Header)
  after : Network Header

section

variable (suite : Suite Header) (orrAt : UInt32 → Option String) (readAt acceptAt : String → Nat)

/-- A faithful substrate takes a frame to the ORR at the QKC that it is for. -/
def travel : Nat → Network Header → OrrFrame Header → Course Header
  | 0, net, _ => ⟨[], [], net⟩
  | fuel + 1, net, frame =>
    match orrAt frame.destFinal with
    | none => ⟨[], [], net⟩
    | some x =>
      let result := (net.orr x).handleIncoming suite frame (readAt x) (acceptAt x)
      let net := net.handled suite x frame result
      match result.1 with
      | .forwarded out =>
        let course := travel fuel net out
        ⟨x :: course.visited, out :: course.handedOn, course.after⟩
      | _ => ⟨[x], [], net⟩

/-- What is assumed of the crates: what was sealed opens, with the tag apart from the ciphertext,
and an inner layer decodes as it was encoded. -/
structure Suite.RoundTrips : Prop where
  opens : ∀ {key nonce plaintext aad ciphertext tag : Bytes},
    suite.sealDetached key nonce plaintext aad = some (ciphertext, tag) →
      suite.openDetached key nonce ciphertext tag aad = some plaintext
  detached : ∀ {key nonce plaintext aad ciphertext tag : Bytes},
    suite.sealDetached key nonce plaintext aad = some (ciphertext, tag) → ciphertext.length = plaintext.length
  inner : ∀ inner, suite.decodeInner (suite.encodeInner inner) = some inner

/-- A hop that shares the secret of its layer with the origin, is where the substrate looks for it
and has not seen the message. -/
@[mk_iff]
structure Ready (net : Network Header) (origin : String) (fresh : Freshness) (hop : PathHopSecret) :
    Prop where
  named : (net.orr hop.orrId).orrId = hop.orrId
  shares : (net.orr hop.orrId).peers.masterForEpoch (suite.toLowercase origin) hop.epochId =
    some hop.masterSecret
  placed : orrAt (net.orr hop.orrId).localQkcId = some hop.orrId
  unseen : ((net.orr hop.orrId).checkReplay origin ⟨fresh.session.toNat, fresh.counter.toNat,
    readAt hop.orrId, acceptAt hop.orrId⟩).1 = .ok ()

instance (net : Network Header) (origin : String) (fresh : Freshness) (hop : PathHopSecret) :
    Decidable (Ready suite orrAt readAt acceptAt net origin fresh hop) :=
  decidable_of_iff _ (ready_iff ..).symm

end

def Network.Knows (net : Network Header) (hop next : PathHopSecret) : Prop :=
  (net.orr hop.orrId).qkcId next.orrId = some (net.orr next.orrId).localQkcId

instance (net : Network Header) (hop next : PathHopSecret) : Decidable (net.Knows hop next) :=
  inferInstanceAs (Decidable (_ = _))

def Layer.frame (layer : Layer) (origin destOrr : String) (fresh : Freshness) (dkms : Header)
    (grade : UInt8) (destFinal : UInt32) : OrrFrame Header where
  grade
  destFinal
  epochId := layer.hop.epochId
  header := .onion origin destOrr layer.hop.orrId layer.keyId layer.maxHops fresh layer.tag
  dkms
  payload := layer.ciphertext

def arriving (origin destOrr last : String) (dkms : Header) (body : Bytes) :
    DeliveredMessage Header where
  origin := if origin.isEmpty then none else some origin
  destination := if destOrr.isEmpty then last else destOrr
  payload := body
  appHeader := dkms
  pqcDecapsulated := true

section

variable {suite : Suite Header} {fresh : Freshness} {dkmsHdr body : Bytes}

variable {hop : PathHopSecret} {keyId : KeyId} {plaintext : Bytes}

theorem openLayer_of_seal (sound : suite.RoundTrips) {maxHops : Int32} {layer : Layer}
    (made : suite.sealLayer hop keyId plaintext maxHops fresh dkmsHdr = .ok layer) :
    suite.openLayer hop.masterSecret layer.keyId layer.ciphertext layer.tag hop.epochId
      layer.maxHops fresh dkmsHdr = some plaintext := by
  obtain ⟨ciphertext, tag, sealed, rfl⟩ := sealLayer_eq made
  exact sound.opens sealed

variable {rest : List (PathHopSecret × KeyId)} {inside : List Layer}

theorem layers_signed {first : PathHopSecret × KeyId} {outer : Layer}
    (made : suite.layers fresh dkmsHdr body (first :: rest) = .ok (outer, inside)) :
    ∃ plaintext, suite.sealLayer first.1 first.2 plaintext (.ofNat rest.length) fresh dkmsHdr =
        .ok outer ∧ ∀ next ∈ rest.head?, ∃ current : Layer, current.hop = next.1 ∧
          plaintext = suite.encodeInner current.inner := by
  obtain ⟨hop, keyId⟩ := first
  induction rest generalizing hop keyId outer inside with
  | nil =>
    obtain ⟨layer, signed, same⟩ := ok_of_map made
    cases same
    exact ⟨body, signed, nofun⟩
  | cons next rest ih =>
    obtain ⟨current, further, within, -, signed⟩ := layers_cons made
    obtain ⟨plaintext, inner, -⟩ := ih next.1 next.2 within
    obtain ⟨ciphertext, tag, -, rfl⟩ := sealLayer_eq inner
    refine ⟨_, signed, ?_⟩
    rintro _ ⟨⟩
    exact ⟨_, rfl, rfl⟩

theorem layers_outer {first : PathHopSecret × KeyId} {outer : Layer}
    (made : suite.layers fresh dkmsHdr body (first :: rest) = .ok (outer, inside)) :
    outer.hop = first.1 ∧ outer.maxHops = .ofNat rest.length := by
  obtain ⟨plaintext, signed, -⟩ := layers_signed made
  obtain ⟨ciphertext, tag, -, rfl⟩ := sealLayer_eq signed
  exact ⟨rfl, rfl⟩

theorem maxHops_next {n : Nat} (short : n + 1 < 2 ^ 31) :
    ¬ Int32.ofNat (n + 1) ≤ 0 ∧ max (Int32.ofNat (n + 1) - 1) 0 = Int32.ofNat n := by
  have value : (Int32.ofNat (n + 1)).toInt = n + 1 := by
    rw [Int32.toInt_ofNat_of_lt (by omega)]
    omega
  have less : (Int32.ofNat n).toInt = n := Int32.toInt_ofNat_of_lt (by omega)
  have zero : (0 : Int32).toInt = 0 := rfl
  have step : Int32.ofNat (n + 1) - 1 = Int32.ofNat n := by
    simp
  refine ⟨?_, ?_⟩
  · rw [Int32.le_iff_toInt_le]
    omega
  rw [step, show max (Int32.ofNat n) 0 = if Int32.ofNat n ≤ 0 then 0 else Int32.ofNat n from rfl]
  split
  · rename_i none
    rw [Int32.le_iff_toInt_le] at none
    have first : n = 0 := by omega
    rw [first]
    rfl
  · rfl

end

section

variable {suite : Suite Header} {orrAt : UInt32 → Option String} {readAt acceptAt : String → Nat}
  {net : Network Header} {origin destOrr : String} {fresh : Freshness} {dkms : Header} {body : Bytes}

theorem handleIncoming_peeled {s : OrrService} (frame : OrrFrame Header) (what : Peeled)
    {keyId : KeyId} {secret : Bytes} {readAt acceptAt : Nat}
    (ours : ¬ (frame.header.kind ≠ "" ∧ frame.header.kind ≠ headerType))
    (keyed : frame.header.keyId = some keyId)
    (held : s.secretFor suite frame.header frame.epochId = some secret)
    (unseen : (s.checkReplay frame.header.fromOrr ⟨frame.header.fresh.session.toNat,
      frame.header.fresh.counter.toNat, readAt, acceptAt⟩).1 = .ok ())
    (peeled : suite.peel secret keyId frame.payload frame.header.tag frame.header.maxHops
      frame.epochId frame.header.fresh (suite.encodeDkms frame.dkms) = .ok what) :
    ∃ after, s.handleIncoming suite frame readAt acceptAt =
      (s.handlePeeled frame.header frame.dkms what, after) := by
  unfold handleIncoming handleOnionIn
  rw [if_neg ours, keyed]
  dsimp only
  rw [held]
  dsimp only
  rw [peeled]
  dsimp only
  cases checked : s.checkReplay frame.header.fromOrr ⟨frame.header.fresh.session.toNat,
      frame.header.fresh.counter.toNat, readAt, acceptAt⟩ with
  | mk verdict after =>
    rw [checked] at unseen
    subst unseen
    -- the check changes only the window, which plays no part in what becomes of the layer
    obtain rfl : _ = after := congrArg Prod.snd checked
    exact ⟨_, rfl⟩

theorem Ready.frame {net' : Network Header} {hop : PathHopSecret}
    (ready : Ready suite orrAt readAt acceptAt net origin fresh hop)
    (same : net'.orr hop.orrId = net.orr hop.orrId) :
    Ready suite orrAt readAt acceptAt net' origin fresh hop := by
  obtain ⟨named, shares, placed, unseen⟩ := ready
  exact ⟨by rwa [same], by rwa [same], by rwa [same], by rwa [same]⟩

structure Arrives (net : Network Header) (course : Course Header) (path : List String)
    (origin destOrr : String) (fresh : Freshness) (dkms : Header) (body : Bytes) : Prop where
  visits : course.visited = path
  delivers : ∃ last ∈ path.getLast?, ∃ frame : OrrFrame Header, ∃ secret,
    frame.header.fromOrr = origin ∧ frame.header.toOrr = destOrr ∧ frame.header.fresh = fresh ∧
    course.after.delivered =
      net.delivered ++ [⟨last, frame, some secret, arriving origin destOrr last dkms body⟩]

variable {x : String} {s : OrrService}

theorem travel_delivered {frame : OrrFrame Header} {m : DeliveredMessage Header}
    (fuel : Nat) (there : orrAt frame.destFinal = some x)
    (handled : (net.orr x).handleIncoming suite frame (readAt x) (acceptAt x) = (.delivered m, s)) :
    travel suite orrAt readAt acceptAt (fuel + 1) net frame =
      ⟨[x], [], net.handled suite x frame (.delivered m, s)⟩ := by
  unfold travel
  simp only [there, handled]

theorem travel_forwarded {frame out : OrrFrame Header} (fuel : Nat)
    (there : orrAt frame.destFinal = some x)
    (handled : (net.orr x).handleIncoming suite frame (readAt x) (acceptAt x) = (.forwarded out, s)) :
    travel suite orrAt readAt acceptAt (fuel + 1) net frame =
      let course := travel suite orrAt readAt acceptAt fuel
        (net.handled suite x frame (.forwarded out, s)) out
      ⟨x :: course.visited, out :: course.handedOn, course.after⟩ := by
  conv_lhs => unfold travel
  simp only [there, handled]

variable {inside : List Layer}

variable {outer : Layer}

theorem travel_layers (sound : suite.RoundTrips) (destOrr : String)
    {path : List (PathHopSecret × KeyId)} (grade : UInt8) {fuel : Nat}
    (made : suite.layers fresh (suite.encodeDkms dkms) body path = .ok (outer, inside))
    (short : path.length ≤ 2 ^ 31) (distinct : (path.map (·.1.orrId)).Nodup)
    (ready : ∀ hop ∈ path, Ready suite orrAt readAt acceptAt net origin fresh hop.1)
    (knows : path.IsChain fun hop next => net.Knows hop.1 next.1) (enough : path.length ≤ fuel) :
    Arrives net (travel suite orrAt readAt acceptAt fuel net (outer.frame origin destOrr fresh dkms
        grade (net.orr outer.hop.orrId).localQkcId))
      (path.map (·.1.orrId)) origin destOrr fresh dkms body := by
  induction path generalizing net outer inside grade fuel with
  | nil => cases made
  | cons first rest ih =>
    obtain ⟨hop, keyId⟩ := first
    obtain ⟨fuel, rfl⟩ : ∃ n, fuel = n + 1 := by
      rw [length_cons] at enough
      exact ⟨fuel - 1, by omega⟩
    obtain ⟨here, hops⟩ := layers_outer made
    dsimp only at here
    have ready' := ready (hop, keyId) mem_cons_self
    rw [← here] at ready'
    dsimp only at ready'
    have reaches := fun what => handleIncoming_peeled (outer.frame origin destOrr fresh dkms grade
      (net.orr outer.hop.orrId).localQkcId) what (fun foreign => foreign.2 rfl) rfl ready'.shares
      ready'.unseen
    cases rest with
    | nil =>
      have peeled : suite.peel outer.hop.masterSecret outer.keyId outer.ciphertext outer.tag
          outer.maxHops outer.hop.epochId fresh (suite.encodeDkms dkms) = .ok (.deliver body) := by
        obtain ⟨layer, signed, same⟩ := ok_of_map made
        cases same
        unfold Suite.peel
        rw [here, openLayer_of_seal sound signed, hops]
        rfl
      obtain ⟨s, handled⟩ := reaches _ peeled
      rw [travel_delivered fuel ready'.placed handled, ← here]
      refine ⟨rfl, outer.hop.orrId, rfl, outer.frame origin destOrr fresh dkms grade
        (net.orr outer.hop.orrId).localQkcId, outer.hop.masterSecret, rfl, rfl, rfl, ?_⟩
      have secret : (net.orr outer.hop.orrId).secretFor suite
          (outer.frame origin destOrr fresh dkms grade
            (net.orr outer.hop.orrId).localQkcId).header outer.hop.epochId =
          some outer.hop.masterSecret := ready'.shares
      have message : (net.orr outer.hop.orrId).broadcastDelivery (outer.frame origin destOrr fresh dkms grade
          (net.orr outer.hop.orrId).localQkcId).header dkms body =
          arriving origin destOrr outer.hop.orrId dkms body := by
        unfold broadcastDelivery
        rw [ready'.named]
        rfl
      rw [← secret, ← message]
      rfl
    | cons next rest =>
      obtain ⟨current, further, within, -, signed⟩ := layers_cons made
      obtain ⟨there, fewer⟩ := layers_outer within
      rw [length_cons, length_cons] at short
      obtain ⟨more, left⟩ := maxHops_next (n := rest.length) (by omega)
      have peeled : suite.peel outer.hop.masterSecret outer.keyId outer.ciphertext outer.tag
          outer.maxHops outer.hop.epochId fresh (suite.encodeDkms dkms) =
            .ok (.forward current.inner) := by
        unfold Suite.peel
        rw [here, openLayer_of_seal sound signed]
        dsimp only
        rw [hops, length_cons, if_neg more, sound.inner]
      obtain ⟨s, handled⟩ := reaches _ peeled
      rw [map_cons, nodup_cons] at distinct
      have apart : current.hop.orrId ≠ outer.hop.orrId := by
        rw [there, here]
        intro same
        exact distinct.1 (same ▸ mem_map_of_mem mem_cons_self)
      have leads : net.Knows outer.hop current.hop := by
        rw [here, there]
        exact (isChain_cons_cons.mp knows).1
      have forwards : (net.orr outer.hop.orrId).handlePeeled (outer.frame origin destOrr fresh dkms grade
          (net.orr outer.hop.orrId).localQkcId).header dkms (.forward current.inner) =
          .forwarded (current.frame origin destOrr fresh dkms 0
            (net.orr current.hop.orrId).localQkcId) := by
        unfold handlePeeled
        dsimp only [Layer.inner]
        rw [ready'.named, if_neg apart, leads]
        unfold forwardOnion Layer.frame
        dsimp only [OrrHeader.onion]
        rw [hops, length_cons, left, fewer]
      rw [travel_forwarded fuel ready'.placed (handled.trans (congrArg (·, s) forwards))]
      -- the other hops are as they were
      generalize after : net.handled suite outer.hop.orrId _ _ = net'
      have same : ∀ x, x ≠ outer.hop.orrId → net'.orr x = net.orr x := by
        intro x other
        rw [← after]
        exact Function.update_of_ne other _ _
      have others : ∀ x ∈ next :: rest, x.1.orrId ≠ outer.hop.orrId := by
        intro x member equal
        rw [here] at equal
        have listed : x.1.orrId ∈ (next :: rest).map (·.1.orrId) := mem_map_of_mem member
        exact distinct.1 (equal ▸ listed)
      have rest' := ih 0 within (by rw [length_cons]; omega) distinct.2
        (fun x member => (ready x (mem_cons_of_mem _ member)).frame (same _ (others x member)))
        (knows.of_cons.imp_of_mem_imp fun x y first second leads => by
          unfold Network.Knows at leads ⊢
          rw [same _ (others x first), same _ (others y second)]
          exact leads)
        (Nat.le_of_succ_le_succ enough)
      rw [same _ apart] at rest'
      obtain ⟨visits, last, final, frame, secret, origins, dests, freshness, delivers⟩ := rest'
      refine ⟨by rw [here]; exact congrArg (hop.orrId :: ·) visits, last, ?_, frame, secret, origins,
        dests, freshness, ?_⟩
      · rw [map_cons, getLast?_cons, final]
        rfl
      · rw [delivers, ← after]
        rfl

theorem layers_length (sound : suite.RoundTrips) {hop : PathHopSecret × KeyId}
    {dkmsHdr : Bytes} (made : suite.layers fresh dkmsHdr body [hop] = .ok (outer, inside)) :
    outer.ciphertext.length = body.length := by
  obtain ⟨layer, signed, same⟩ := ok_of_map made
  cases same
  obtain ⟨ciphertext, tag, sealed, rfl⟩ := sealLayer_eq signed
  exact sound.detached sealed

end

/-- An onion comes to the ORRs of its path in their order and is delivered once, at the last of
them, as its origin built it. -/
theorem onion_delivered_at_end (suite : Suite Header) (sound : suite.RoundTrips)
    (orrAt : UInt32 → Option String) (readAt acceptAt : String → Nat) (net : Network Header)
    (s : OrrService) (path : List (PathHopSecret × KeyId)) (body : Bytes) (dkms : Header)
    (fresh : Freshness) (grade : UInt8) (destOrr : String) (onion : OnionWire) (layers : List Layer)
    (made : suite.buildOnion path body fresh (suite.encodeDkms dkms) = .ok (onion, layers))
    (short : path.length ≤ 2 ^ 31) (distinct : (path.map (·.1.orrId)).Nodup)
    (final : (path.map (·.1.orrId)).getLast? = some destOrr)
    (ready : ∀ hop ∈ path, Ready suite orrAt readAt acceptAt net s.orrId fresh hop.1)
    (knows : path.IsChain fun hop next => net.Knows hop.1 next.1) (fuel : Nat)
    (enough : path.length ≤ fuel) :
    let frame := s.onionFrame destOrr (net.orr onion.firstHopOrr).localQkcId onion dkms grade
    let course := travel suite orrAt readAt acceptAt fuel net frame
    course.visited = path.map (·.1.orrId) ∧
      (∃ arrived secret message,
        course.after.delivered = net.delivered ++ [⟨destOrr, arrived, some secret, message⟩] ∧
        message.payload = body ∧ message.appHeader = dkms ∧
        message.origin.getD "" = s.orrId ∧ message.destination = destOrr ∧
        arrived.header.fresh = fresh) ∧
      (path.length = 1 → frame.payload.length = body.length) := by
  obtain ⟨⟨outer, inside⟩, sealed, same⟩ := ok_of_map made
  cases same
  have arrives := travel_layers sound destOrr grade sealed short distinct ready knows enough
  obtain ⟨visits, last, ends, arrived, secret, -, -, freshness, delivers⟩ := arrives
  rw [final] at ends
  cases ends
  refine ⟨visits, ⟨arrived, secret, _, delivers, rfl, rfl, ?_, ?_, freshness⟩, ?_⟩
  · unfold arriving
    split
    · rename_i empty
      rw [String.isEmpty_iff] at empty
      rw [empty]
      rfl
    · rfl
  · unfold arriving
    dsimp only
    split <;> rfl
  · intro one
    obtain ⟨hop, rfl⟩ := length_eq_one_iff.mp one
    exact layers_length sound sealed

section Example

def counted (bytes : Bytes) : Bytes := replicate bytes.length 1 ++ 0 :: bytes

def takeCounted (bytes : Bytes) : Bytes × Bytes :=
  let n := (bytes.takeWhile (· = 1)).length
  ((bytes.drop (n + 1)).take n, (bytes.drop (n + 1)).drop n)

theorem takeCounted_counted (bytes rest : Bytes) :
    takeCounted (counted bytes ++ rest) = (bytes, rest) := by
  have ones : ((counted bytes ++ rest).takeWhile (· = 1)).length = bytes.length := by
    unfold counted
    simp
  have after : (counted bytes ++ rest).drop (bytes.length + 1) = bytes ++ rest := by
    have split : counted bytes ++ rest =
        (replicate bytes.length 1 ++ [0]) ++ (bytes ++ rest) := by
      simp [counted]
    rw [split]
    exact drop_left' (by simp)
  unfold takeCounted
  rw [ones]
  dsimp only
  rw [after, take_left, drop_left]

def unarySuite : Suite Bytes :=
  { plainSuite with
    encodeInner := fun inner =>
      counted (textBytes inner.nextOrrId) ++ (counted (beBytes 4 inner.epochId.toNat) ++
        (counted (beBytes 16 inner.keyId.toNat) ++ (counted inner.xorCt ++ (counted inner.tag ++ []))))
    decodeInner := fun bytes =>
      let (name, bytes) := takeCounted bytes
      let (epochId, bytes) := takeCounted bytes
      let (keyId, bytes) := takeCounted bytes
      let (xorCt, bytes) := takeCounted bytes
      let (tag, _) := takeCounted bytes
      (textOf name).map fun nextOrrId =>
        ⟨nextOrrId, .ofNat (beNumber epochId), .ofNat 128 (beNumber keyId), xorCt, tag⟩ }

theorem unarySuite_roundTrips : unarySuite.RoundTrips where
  opens sealed := by
    cases sealed
    exact if_pos rfl
  detached sealed := by
    cases sealed
    rfl
  inner inner := by
    obtain ⟨nextOrrId, epochId, keyId, xorCt, tag⟩ := inner
    have epochs : epochId.toNat % 256 ^ 4 = epochId.toNat :=
      Nat.mod_eq_of_lt (lt_of_lt_of_eq epochId.toNat_lt (by norm_num))
    have keys : keyId.toNat % 256 ^ 16 = keyId.toNat :=
      Nat.mod_eq_of_lt (lt_of_lt_of_eq keyId.isLt (by norm_num))
    simp only [unarySuite, takeCounted_counted, textOf_textBytes, beNumber_beBytes, epochs, keys,
      UInt32.ofNat_toNat, BitVec.ofNat_toNat, BitVec.setWidth_eq, Option.map_some]

def placedTrio : Network Bytes :=
  (Network.new (fun | "orr_1" => 1 | "orr_2" => 2 | _ => 3)
    (fun | "orr_1" => 1001 | "orr_2" => 1002 | _ => 1003)).run unarySuite trioSetup

def trioAt : UInt32 → Option String
  | 1 => some "orr_1"
  | 2 => some "orr_2"
  | 3 => some "orr_3"
  | _ => none

def twoHops : List (PathHopSecret × KeyId) :=
  [(⟨"orr_2", [12], 0⟩, 7), (⟨"orr_3", [13], 0⟩, 8)]

theorem onion_delivered_at_end_two_hops :
    match unarySuite.buildOnion twoHops [42] ⟨1001, 1⟩ (unarySuite.encodeDkms [5]) with
    | .error _ => False
    | .ok (onion, _) =>
      let frame := (placedTrio.orr "orr_1").onionFrame "orr_3"
        (placedTrio.orr onion.firstHopOrr).localQkcId onion [5] 0
      let course := travel unarySuite trioAt (fun _ => 0) (fun _ => 0) 2 placedTrio frame
      course.visited = ["orr_2", "orr_3"] ∧
        ∃ arrived secret message,
          course.after.delivered = [⟨"orr_3", arrived, some secret, message⟩] ∧
          message.payload = [42] ∧ message.origin.getD "" = "orr_1" ∧
          arrived.header.fresh = ⟨1001, 1⟩ := by
  have built : (unarySuite.buildOnion twoHops [42] ⟨1001, 1⟩ (unarySuite.encodeDkms [5])).isOk := by
    decide +kernel
  split
  · rename_i failed
    rw [failed] at built
    cases built
  rename_i onion layers made
  obtain ⟨visits, ⟨arrived, secret, message, delivers, body, -, origin, -, fresh⟩, -⟩ :=
    onion_delivered_at_end unarySuite unarySuite_roundTrips trioAt (fun _ => 0) (fun _ => 0)
      placedTrio (placedTrio.orr "orr_1") twoHops [42] [5] ⟨1001, 1⟩ 0 "orr_3" onion layers made
      (by decide) (by decide) (by decide) (by decide +kernel) (by decide +kernel) 2 (by decide)
  exact ⟨visits, arrived, secret, message, delivers, body, origin, fresh⟩

end Example

variable {suite : Suite Header}

theorem OrrService.handleIncoming_forwarded {s : OrrService} {frame out : OrrFrame Header}
    {readAt acceptAt : Nat} :
    (s.handleIncoming suite frame readAt acceptAt).1 = .forwarded out ↔
      ¬ (frame.header.kind ≠ "" ∧ frame.header.kind ≠ headerType) ∧ ∃ keyId secret inner qkc,
        frame.header.keyId = some keyId ∧
        s.secretFor suite frame.header frame.epochId = some secret ∧
        suite.peel secret keyId frame.payload frame.header.tag frame.header.maxHops frame.epochId
          frame.header.fresh (suite.encodeDkms frame.dkms) = .ok (.forward inner) ∧
        ((s.onionReplay frame.header.fromOrr).getD (.new onionWindow)).accepts
          ⟨frame.header.fresh.session.toNat, frame.header.fresh.counter.toNat, readAt, acceptAt⟩ ∧
        inner.nextOrrId ≠ s.orrId ∧ s.qkcId inner.nextOrrId = some qkc ∧
        out = forwardOnion frame.header frame.dkms inner qkc := by
  constructor
  · intro forwards
    unfold handleIncoming at forwards
    split at forwards
    · cases forwards
    rename_i ours
    split at forwards
    · cases forwards
    rename_i keyId keyed
    unfold handleOnionIn at forwards
    split at forwards
    · cases forwards
    rename_i secret held
    split at forwards
    · cases forwards
    rename_i what peeled
    split at forwards
    · cases forwards
    rename_i checked
    have unseen := congrArg Prod.fst checked
    obtain rfl : _ = _ := congrArg Prod.snd checked
    cases what with
    | deliver body => cases forwards
    | forward inner =>
      unfold handlePeeled at forwards
      dsimp only at forwards
      split at forwards
      · cases forwards
      rename_i other
      split at forwards
      · cases forwards
      rename_i qkc known
      cases forwards
      exact ⟨ours, keyId, secret, inner, qkc, keyed, held, peeled, unseen, other, known, rfl⟩
  · rintro ⟨ours, keyId, secret, inner, qkc, keyed, held, peeled, unseen, other, known, rfl⟩
    obtain ⟨after, handled⟩ := handleIncoming_peeled frame _ ours keyed held unseen peeled
    rw [handled]
    simp only [handlePeeled, if_neg other, known]

theorem travel_grades (suite : Suite Header) (orrAt : UInt32 → Option String)
    (readAt acceptAt : String → Nat) (fuel : Nat) (net : Network Header) (frame : OrrFrame Header) :
    ∀ out ∈ (travel suite orrAt readAt acceptAt fuel net frame).handedOn, out.grade = 0 := by
  induction fuel generalizing net frame with
  | zero => exact fun out member => nomatch member
  | succ fuel ih =>
    intro out member
    unfold travel at member
    split at member
    · cases member
    dsimp only at member
    split at member
    · rename_i forwards
      rcases mem_cons.mp member with rfl | later
      · obtain ⟨-, _, _, _, _, -, -, -, -, -, -, rfl⟩ := handleIncoming_forwarded.mp forwards
        rfl
      · exact ih _ _ out later
    · cases member

def Forwarded (suite : Suite Header) (orrAt : UInt32 → Option String) (readAt acceptAt : String → Nat)
    (net : Network Header) (frame : OrrFrame Header) : Prop :=
  ∃ x out, orrAt frame.destFinal = some x ∧
    ((net.orr x).handleIncoming suite frame (readAt x) (acceptAt x)).1 = .forwarded out

variable {orrAt : UInt32 → Option String} {readAt acceptAt : String → Nat} {net : Network Header}
  {frame : OrrFrame Header}

theorem handedOn_of_forwarded (fuel : Nat)
    (forwarded : Forwarded suite orrAt readAt acceptAt net frame) :
    ∃ out ∈ (travel suite orrAt readAt acceptAt (fuel + 1) net frame).handedOn, out.grade = 0 := by
  obtain ⟨x, out, there, forwards⟩ := forwarded
  have member : out ∈ (travel suite orrAt readAt acceptAt (fuel + 1) net frame).handedOn := by
    unfold travel
    simp only [there]
    rw [forwards]
    exact mem_cons_self
  exact ⟨out, member, travel_grades suite orrAt readAt acceptAt _ net frame out member⟩

theorem handedOn_of_not_forwarded (fuel : Nat)
    (stops : ¬ Forwarded suite orrAt readAt acceptAt net frame) :
    (travel suite orrAt readAt acceptAt (fuel + 1) net frame).handedOn = [] := by
  unfold travel
  split
  · rfl
  rename_i x there
  dsimp only
  split
  · rename_i out forwards
    exact absurd ⟨x, out, there, forwards⟩ stops
  · rfl

/-- A ciphertext opens under no other key than the one that sealed it. -/
def Suite.Binds (suite : Suite Header) : Prop :=
  ∀ {key key' nonce plaintext aad ciphertext tag : Bytes},
    suite.sealDetached key nonce plaintext aad = some (ciphertext, tag) →
      (suite.openDetached key' nonce ciphertext tag aad).isSome → key' = key

namespace OrrService

/-- The ORR holds the secret of the layer for the origin, has not seen the message and knows where
the next hop is, which is another ORR. -/
structure Passes (suite : Suite Header) (y : OrrService) (origin : String) (fresh : Freshness)
    (readAt acceptAt : Nat) (hop : PathHopSecret) (next : String) : Prop where
  held : y.peers.masterForEpoch (suite.toLowercase origin) hop.epochId = some hop.masterSecret
  unseen : ((y.onionReplay origin).getD (.new onionWindow)).accepts
    ⟨fresh.session.toNat, fresh.counter.toNat, readAt, acceptAt⟩
  other : next ≠ y.orrId
  known : (y.qkcId next).isSome

variable {dkms : Header} {body : Bytes} {fresh : Freshness}
  {outer : Layer} {inside : List Layer} {first : PathHopSecret × KeyId}
  {rest : List (PathHopSecret × KeyId)}

theorem forwards_iff (sound : suite.RoundTrips) (unrelated : suite.Unrelated) (binds : suite.Binds)
    (made : suite.layers fresh (suite.encodeDkms dkms) body (first :: rest) = .ok (outer, inside))
    (s y : OrrService) (readAt acceptAt : Nat) (destOrr : String) (qkc : UInt32) (grade : UInt8) :
    (∃ out, (y.handleIncoming suite (s.onionFrame destOrr qkc (Suite.wire fresh outer) dkms grade)
        readAt acceptAt).1 = .forwarded out) ↔
      0 < Int32.ofNat rest.length ∧ ∃ next ∈ rest.head?,
        y.Passes suite s.orrId fresh readAt acceptAt first.1 next.1.orrId := by
  obtain ⟨plaintext, signed, within⟩ := layers_signed made
  obtain ⟨ciphertext, tag, sealed, rfl⟩ := sealLayer_eq signed
  have opens : suite.openLayer _ _ _ _ _ _ _ _ = _ := sound.opens sealed
  simp only [handleIncoming_forwarded]
  constructor
  · rintro ⟨out, -, _, secret, inner, qkc, ⟨⟩, held, peeled, unseen, other, known, -⟩
    dsimp only [onionFrame, OrrHeader.onion, Suite.wire] at held peeled
    unfold Suite.peel at peeled
    split at peeled
    · cases peeled
    rename_i opened
    obtain ⟨rfl, -⟩ := unrelated.key _ _ _ _ (binds sealed (Option.isSome_of_eq_some opened))
    cases opens.symm.trans opened
    split at peeled
    · cases peeled
    rename_i last
    have more := Int32.not_le.mp last
    cases rest with
    | nil => exact absurd more Int32.lt_irrefl
    | cons next after =>
      obtain ⟨current, there, rfl⟩ := within next rfl
      rw [sound.inner] at peeled
      cases peeled
      dsimp only [Layer.inner] at other known
      rw [there] at other known
      exact ⟨more, next, rfl, held, unseen, other, Option.isSome_of_eq_some known⟩
  · rintro ⟨more, next, second, held, unseen, other, known⟩
    obtain ⟨current, there, rfl⟩ := within next second
    obtain ⟨qkc, known⟩ := Option.isSome_iff_exists.mp known
    have peeled : suite.peel first.1.masterSecret first.2 ciphertext tag (.ofNat rest.length)
        first.1.epochId fresh (suite.encodeDkms dkms) = .ok (.forward current.inner) := by
      simp only [Suite.peel, opens, if_neg (Int32.not_le.mpr more), sound.inner]
    rw [← there] at other known
    exact ⟨_, fun foreign => foreign.2 rfl, first.2, _, _, qkc, rfl, held, peeled, unseen, other,
      known, rfl⟩

/-- The ORR at the QKC of the first hop passes on a message that has another layer. -/
def Relayed (suite : Suite Header) (orrAt : UInt32 → Option String) (readAt acceptAt : String → Nat)
    (net : Network Header) (s : OrrService) (path : List String) : Prop :=
  0 < Int32.ofNat (path.length - 1) ∧ ∃ first ∈ path.head?, ∃ next ∈ path[1]?, ∃ hop qkc x,
    s.pathHopSecret first = .ok hop ∧ s.qkcId first = some qkc ∧ orrAt qkc = some x ∧
    (net.orr x).Passes suite s.orrId s.nextOnionFreshness.1 (readAt x) (acceptAt x) hop next

variable {s : OrrService} {keyIds : Nat → KeyId} {destOrr : String} {payload : Bytes}
  {appHeader : Header} {grade : UInt8} {layers : List Layer} {maxHops : Int32}
  {hint : Except OrrError (List String)} {shuffle : Nat → List Nat} {now : Nat}
  {outcome : SendOutcome}

theorem sendOnionPath_forwarded (sound : suite.RoundTrips) (unrelated : suite.Unrelated)
    (binds : suite.Binds) {path : List String}
    (sent : (s.sendOnionPath suite keyIds destOrr path payload appHeader grade).1 =
      .ok (frame, layers)) : Forwarded suite orrAt readAt acceptAt net frame ↔
        Relayed suite orrAt readAt acceptAt net s path := by
  obtain ⟨hops, onion, qkc, resolved, made, placed, rfl⟩ := sendOnionPath_eq sent
  obtain ⟨⟨outer, inside⟩, sealed, same⟩ := ok_of_map made
  cases same
  have drawn := draw_fst hops keyIds
  have each := forall₂_of_mapM resolved
  obtain ⟨names, -⟩ := pathHopSecrets_ok resolved
  generalize draw hops keyIds = chosen at sealed drawn
  cases chosen with
  | nil => cases sealed
  | cons first rest =>
    subst drawn names
    have head : s.pathHopSecret first.1.orrId = .ok first.1 := (List.forall₂_cons.mp each).1
    have there : s.qkcId first.1.orrId = some qkc := by
      rw [← (layers_outer sealed).1]
      exact placed
    have forwards := fun x => forwards_iff sound unrelated binds sealed s (net.orr x) (readAt x)
      (acceptAt x) destOrr qkc grade
    constructor
    · rintro ⟨x, out, at_x, forwarded⟩
      obtain ⟨more, next, second, passes⟩ := (forwards x).mp ⟨out, forwarded⟩
      refine ⟨by simpa using more, _, rfl, next.1.orrId, ?_, first.1, qkc, x, head, there, at_x, passes⟩
      cases rest with
      | nil => cases second
      | cons other after =>
        cases second
        rfl
    · rintro ⟨more, _, ⟨⟩, next, second, hop, qkc', x, resolved', there', at_x, passes⟩
      cases head.symm.trans resolved'
      cases there.symm.trans there'
      obtain ⟨other, listed, rfl⟩ : ∃ other ∈ rest.head?, other.1.orrId = next := by
        cases rest with
        | nil => cases second
        | cons other after => exact ⟨other, rfl, Option.some.inj second⟩
      obtain ⟨out, forwarded⟩ := (forwards x).mpr ⟨by simpa using more, other, listed, passes⟩
      exact ⟨x, out, at_x, forwarded⟩

/-- The ORRs for which a message gets a layer; there is none in passthrough mode. -/
def layered (s : OrrService) (destOrr : String) (maxHops : Int32)
    (hint : Except OrrError (List String)) (shuffle : Nat → List Nat) : List String :=
  if maxHops = 0 then []
  else if maxHops = 1 then [destOrr]
  else
    let cap := if maxHops = -1 then none else some maxHops.toInt.toNat
    (s.resolvePath destOrr cap hint shuffle).toOption.getD []

theorem sendMessage_framed
    (sent : (s.sendMessage suite keyIds destOrr payload maxHops appHeader grade hint shuffle now).1 =
      .ok (outcome, .framed frame)) :
    let dest := suite.toLowercase destOrr
    let path := s.layered dest maxHops hint shuffle
    path = [] ∧ s.sendPassthrough dest payload appHeader grade = .ok frame ∨
      ∃ layers, (s.sendOnionPath suite keyIds dest path payload appHeader grade).1 =
        .ok (frame, layers) := by
  unfold sendMessage at sent
  dsimp only at sent
  unfold layered
  split at sent
  · cases sent
  split at sent
  · rename_i direct
    obtain ⟨made, passed, same⟩ := ok_of_map sent
    cases same
    exact .inl ⟨if_pos direct, passed⟩
  rename_i onion
  simp only [if_neg onion]
  split at sent
  · rename_i single
    obtain ⟨⟨made, layers⟩, passed, same⟩ := ok_of_map sent
    cases same
    rw [if_pos single]
    exact .inr ⟨layers, sendOnionE2e_path passed⟩
  rename_i several
  simp only [if_neg several]
  split at sent
  · split at sent
    · cases sent
    rename_i path resolved
    obtain ⟨⟨made, layers⟩, passed, same⟩ := ok_of_map sent
    cases same
    rw [resolved]
    exact .inr ⟨layers, passed⟩
  · cases sent

theorem sendPassthrough_eq (sent : s.sendPassthrough destOrr payload appHeader grade = .ok frame) :
    frame.grade = grade ∧ frame.header = .passthrough s.orrId destOrr := by
  unfold sendPassthrough at sent
  split at sent
  · cases sent
  · cases sent
    exact ⟨rfl, rfl⟩

theorem sendMessage_grade
    (sent : (s.sendMessage suite keyIds destOrr payload maxHops appHeader grade hint shuffle now).1 =
      .ok (outcome, .framed frame)) : frame.grade = grade := by
  rcases sendMessage_framed sent with ⟨-, passed⟩ | ⟨layers, passed⟩
  · exact (sendPassthrough_eq passed).1
  · obtain ⟨hops, onion, qkc, -, -, -, rfl⟩ := sendOnionPath_eq passed
    rfl

theorem sendMessage_forwarded (sound : suite.RoundTrips) (unrelated : suite.Unrelated)
    (binds : suite.Binds)
    (sent : (s.sendMessage suite keyIds destOrr payload maxHops appHeader grade hint shuffle now).1 =
      .ok (outcome, .framed frame)) : Forwarded suite orrAt readAt acceptAt net frame ↔
        Relayed suite orrAt readAt acceptAt net s
          (s.layered (suite.toLowercase destOrr) maxHops hint shuffle) := by
  rcases sendMessage_framed sent with ⟨direct, passed⟩ | ⟨layers, passed⟩
  · rw [direct]
    refine iff_of_false ?_ fun relayed => absurd relayed.1 Int32.lt_irrefl
    rintro ⟨x, out, -, forwarded⟩
    obtain ⟨-, _, _, _, _, keyed, -⟩ := handleIncoming_forwarded.mp forwarded
    rw [(sendPassthrough_eq passed).2] at keyed
    cases keyed
  · exact sendOnionPath_forwarded sound unrelated binds passed

end OrrService

/-- All frames that are handed to the QKCs for one message have its grade just when it is sent as
QKD or the ORR at its first hop does not relay it: it has one layer or none, or that ORR is missing,
shares no secret for it, has seen it or does not know another one to pass it to. -/
theorem grade_kept_iff (suite : Suite Header) (sound : suite.RoundTrips)
    (unrelated : suite.Unrelated) (binds : suite.Binds) (orrAt : UInt32 → Option String)
    (readAt acceptAt : String → Nat) (s : OrrService) (keyIds : Nat → KeyId) (destOrr : String)
    (payload : Bytes) (maxHops : Int32) (appHeader : Header) (grade : UInt8)
    (hint : Except OrrError (List String)) (shuffle : Nat → List Nat) (now : Nat)
    (outcome : SendOutcome) (frame : OrrFrame Header)
    (sent : (s.sendMessage suite keyIds destOrr payload maxHops appHeader grade hint shuffle now).1 =
      .ok (outcome, .framed frame)) (net : Network Header) (fuel : Nat) :
    (∀ out ∈ frame :: (travel suite orrAt readAt acceptAt (fuel + 1) net frame).handedOn,
        out.grade = grade) ↔
      grade = 0 ∨ ¬ OrrService.Relayed suite orrAt readAt acceptAt net s
        (s.layered (suite.toLowercase destOrr) maxHops hint shuffle) := by
  have first := OrrService.sendMessage_grade sent
  rw [← OrrService.sendMessage_forwarded sound unrelated binds sent]
  constructor
  · intro kept
    by_cases forwarded : Forwarded suite orrAt readAt acceptAt net frame
    · obtain ⟨out, member, zero⟩ := handedOn_of_forwarded fuel forwarded
      exact .inl ((kept out (List.mem_cons_of_mem _ member)).symm.trans zero)
    · exact .inr forwarded
  rintro (rfl | stops) out member
  · rcases List.mem_cons.mp member with rfl | later
    · exact first
    · exact travel_grades suite orrAt readAt acceptAt (fuel + 1) net frame out later
  · rw [handedOn_of_not_forwarded fuel stops, List.mem_singleton] at member
    exact member ▸ first

theorem unarySuite_binds : unarySuite.Binds := by
  intro key key' nonce plaintext aad ciphertext tag sealed opens
  cases sealed
  simp only [unarySuite, plainSuite, List.append_assoc, List.append_left_inj, Option.isSome_ite] at opens
  exact opens.symm

def sendGraded (maxHops : Int32) (grade : UInt8) :
    Except OrrError (SendOutcome × Handed Bytes) × OrrService :=
  (placedTrio.orr "orr_1").sendMessage unarySuite (fun i => .ofNat 128 (7 + i)) "ORR_3" [42] maxHops
    [5] grade (.ok ["orr_1", "orr_2"]) (fun n => range n) 0

def gradesOf (handed : Handed Bytes) : List UInt8 :=
  match handed with
  | .delivered _ => []
  | .framed frame =>
    frame.grade :: (travel unarySuite trioAt (fun _ => 0) (fun _ => 0) 3 placedTrio
      frame).handedOn.map (·.grade)

theorem grade_kept_iff_qkd :
    match (sendGraded (-1) 0).1 with
    | .ok (_, .framed frame) =>
      ∀ out ∈ frame :: (travel unarySuite trioAt (fun _ => 0) (fun _ => 0) 3 placedTrio
        frame).handedOn, out.grade = 0
    | _ => False := by
  have relayed : (sendGraded (-1) 0).1.map (fun made => gradesOf made.2) = .ok [0, 0] := by
    decide +kernel
  split
  · rename_i sent
    exact (grade_kept_iff unarySuite unarySuite_roundTrips
      ⟨plainSuite_unrelated.key, plainSuite_unrelated.digest, plainSuite_unrelated.header⟩
      unarySuite_binds trioAt _ _ _ _ _ _ _ _ _ _ _ _ _ _ sent placedTrio 2).mpr (.inl rfl)
  rename_i other
  cases sent : (sendGraded (-1) 0).1 with
  | error e =>
    rw [sent] at relayed
    cases relayed
  | ok made =>
    obtain ⟨outcome, handed⟩ := made
    cases handed with
    | delivered m =>
      rw [sent] at relayed
      cases relayed
    | framed frame => exact other outcome frame sent

/-- Sent with the grade of PQC, relayed with that of QKD. -/
theorem relayed_with_other_grade :
    (sendGraded (-1) 1).1.map (fun made => gradesOf made.2) = .ok [1, 0] := by
  decide +kernel

end Dkms.Orr
