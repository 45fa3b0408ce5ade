import Dkms.Qkc.Relay

namespace Dkms.Qkc

open Function Dkms.Core Dkms.Wire Dkms.Link

/-- How the links are set up: the `key_size_bits` that `u` has for the link to `v`, and the length
of the keys that the source of the link gives `u` to encrypt with. -/
structure LinkPlan where
  linked : UInt32 → UInt32 → Prop
  keySizeBits : UInt32 → UInt32 → Nat
  keyBytes : UInt32 → UInt32 → Nat
  apart : ∀ u v, linked u v → u ≠ v
  positive : ∀ u v, 0 < keyBytes u v
  validated : ∀ u v, 0 < keySizeBits u v ∧ 8 ∣ keySizeBits u v

structure Stop where
  qkc : QkcService
  times : OpenTimes

structure Coupled (crates : Crates) (plan : LinkPlan) (u v : UInt32) (bytes : Nat)
    (times : OpenTimes) (up down : LinkRuntime) : Prop where
  upSize : up.keySizeBits = plan.keySizeBits u v
  downSize : down.keySizeBits = plan.keySizeBits v u
  sized : ∀ key ∈ up.keys.enc, key.material.length = plan.keyBytes u v
  distinct : (up.keys.enc.map (·.keyId)).Nodup
  shared : ∀ key ∈ up.keys.enc, down.keys.Holds key
  supplied : numChunks bytes (plan.keyBytes u v) ≤ maxRelayChunks →
    numChunks bytes (plan.keyBytes u v) ≤ up.keys.enc.length
  room : up.room
  inStep : LinkRuntime.InStep crates.mac (up.material crates.mac) down times

/-- The stops are where the routing takes the frame, up to its destination. A QKC hashes the frame
with the key ids of the link that it came over. -/
def Path (crates : Crates) (plan : LinkPlan) (frame : Frame) :
    List String → QkcService → List Stop → Prop
  | _, q, [] => frame.destFinal = q.qkcId
  | keyIds, q, stop :: stops =>
    frame.destFinal ≠ q.qkcId ∧ plan.linked q.qkcId stop.qkc.qkcId ∧
      q.routing.nextHopGraded frame.destFinal
        (crates.hash frame.destFinal frame.headerOrrMp frame.headerDkmsMp keyIds)
        (frame.grade = gradeQkd) = some stop.qkc.qkcId ∧
      ∃ up down, q.links stop.qkc.qkcId = some up ∧ stop.qkc.links q.qkcId = some down ∧
        Coupled crates plan q.qkcId stop.qkc.qkcId frame.payload.length stop.times up down ∧
        Path crates plan frame
          ((up.keys.enc.take (numChunks frame.payload.length
            (plan.keyBytes q.qkcId stop.qkc.qkcId))).map fun key => crates.uuidText key.keyId)
          stop.qkc stops

/-- The frame goes from stop to stop while it is forwarded to the next one. -/
def travel (crates : Crates) : Except QkcError Relayed × QkcService → List Stop →
    Except QkcError Relayed × List QkcService
  | (.ok (.forwarded nextHop frame), q), stop :: stops =>
    if nextHop = stop.qkc.qkcId then
      let (result, after) := travel crates (stop.qkc.ingress crates stop.times frame) stops
      (result, q :: after)
    else (.ok (.forwarded nextHop frame), [q])
  | (result, q), _ => (result, [q])

def journey (crates : Crates) (first : QkcService) (stops : List Stop) (frame : Frame) :
    Except QkcError Relayed × List QkcService :=
  travel crates (first.handleLocalSend crates frame) stops

def QkcService.ring (q : QkcService) (neighbor : UInt32) : List OtpKey :=
  (q.links neighbor).elim [] (·.keys.enc)

/-- Each QKC takes as many keys as the plaintext has pieces on its outgoing link; at one where it
has too many, none, and the frame goes no further. -/
def Spent (plan : LinkPlan) (bytes : Nat) : QkcService → List Stop → List QkcService → Prop
  | _, [], _ => True
  | _, _ :: _, [] => False
  | q, stop :: stops, q' :: after =>
    let n := stop.qkc.qkcId
    if numChunks bytes (plan.keyBytes q.qkcId n) ≤ maxRelayChunks then
      (∃ used : List OtpKey, used.length = numChunks bytes (plan.keyBytes q.qkcId n) ∧
        q.ring n = used ++ q'.ring n) ∧ Spent plan bytes stop.qkc stops after
    else q'.ring n = q.ring n ∧ after = []

def Fits (plan : LinkPlan) (bytes : Nat) : QkcService → List Stop → Prop
  | _, [] => True
  | q, stop :: stops =>
    numChunks bytes (plan.keyBytes q.qkcId stop.qkc.qkcId) ≤ maxRelayChunks ∧ Fits plan bytes stop.qkc stops

structure Arrives (sent out : Frame) : Prop where
  receiverId : out.receiverId = sent.destFinal
  destFinal : out.destFinal = sent.destFinal
  payload : out.payload = sent.payload
  headerOrrMp : out.headerOrrMp = sent.headerOrrMp
  headerDkmsMp : out.headerDkmsMp = sent.headerDkmsMp
  grade : out.grade = sent.grade
  epochId : out.epochId = sent.epochId

structure Transparent (crates : Crates) (plan : LinkPlan) (first : QkcService) (stops : List Stop)
    (frame : Frame) : Prop where
  arrives : Fits plan frame.payload.length first stops →
    ∃ out, (journey crates first stops frame).1 = .ok (.delivered out) ∧ Arrives frame out
  spent : Spent plan frame.payload.length first stops (journey crates first stops frame).2

def LinkRuntime.spend (link : LinkRuntime) (n : Nat) : LinkRuntime :=
  { link with keys := { link.keys with enc := link.keys.enc.drop n } }

namespace QkcService

variable {crates : Crates} {q q' : QkcService}

structure Alike (mac : MacSuite) (q q' : QkcService) : Prop where
  qkcId : q'.qkcId = q.qkcId
  routing : q'.routing = q.routing
  links : ∀ n link, q.links n = some link → ∃ link', q'.links n = some link' ∧ link.Alike mac link'

theorem Alike.refl (mac : MacSuite) (q : QkcService) : Alike mac q q :=
  ⟨rfl, rfl, fun _ link here => ⟨link, here, .refl mac link⟩⟩

theorem Alike.setLink {mac : MacSuite} {n : UInt32} {link link' : LinkRuntime}
    (here : q.links n = some link) (alike : link.Alike mac link') : Alike mac q (q.setLink n link') := by
  refine ⟨rfl, rfl, ?_⟩
  intro other found there
  by_cases same : other = n
  · subst same
    rw [here] at there
    cases there
    exact ⟨link', update_self .., alike⟩
  · exact ⟨found, (update_of_ne same ..).trans there, .refl mac found⟩

theorem setLink_setLink (q : QkcService) (n : UInt32) (link link' : LinkRuntime) :
    (q.setLink n link).setLink n link' = q.setLink n link' := by
  unfold setLink
  rw [update_idem]

variable {nextHop : UInt32} {link : LinkRuntime} {plaintext : Bytes}

theorem forwardPlaintext_oversize (crates : Crates)
    (here : q.links nextHop = some link) (frame : Frame)
    (large : maxRelayChunks < numChunks plaintext.length link.chunkBytes) :
    ∃ e, q.forwardPlaintext crates nextHop frame plaintext = (.error e, q) := by
  unfold forwardPlaintext
  simp only [here, if_pos large]
  exact ⟨_, rfl⟩

theorem forwardPlaintext_fits (here : q.links nextHop = some link) (frame : Frame) {needed : Nat}
    (pieces : numChunks plaintext.length link.chunkBytes = needed) (small : needed ≤ maxRelayChunks)
    (supplied : needed ≤ link.keys.enc.length) (room : link.room) :
    q.forwardPlaintext crates nextHop frame plaintext =
      match encrypt plaintext (link.keys.enc.take needed) with
      | .error e => (.error e, q.setLink nextHop (link.spend needed))
      | .ok (ciphertext, ids) =>
        let signed := (link.spend needed).sealFrame crates.mac
          (q.onward crates link nextHop frame ids ciphertext)
        (.ok (.forwarded nextHop signed.1), q.setLink nextHop signed.2) := by
  subst pieces
  unfold forwardPlaintext
  simp only [here, if_neg (Nat.not_lt.mpr small), KeyStore.takeOrFetchEnc, if_neg (Nat.not_lt.mpr supplied)]
  cases encrypt plaintext (link.keys.enc.take (numChunks plaintext.length link.chunkBytes)) with
  | error e => rfl
  | ok sent =>
    obtain ⟨ciphertext, ids⟩ := sent
    obtain ⟨frameAuth, after⟩ := LinkRuntime.sealFrame_snd crates.mac
      (link.spend (numChunks plaintext.length link.chunkBytes))
      (q.onward crates link nextHop frame ids ciphertext)
    have free : ((link.spend (numChunks plaintext.length link.chunkBytes)).sealFrame crates.mac
        (q.onward crates link nextHop frame ids ciphertext)).2.room = true := by
      rw [after]
      exact room
    exact if_pos free

theorem ingress_sealed {up down : LinkRuntime} {times : OpenTimes} {out : Frame}
    {keys : List OtpKey} (linked : q.links out.senderId = some down) (data : IsData out.kind)
    (inStep : LinkRuntime.InStep crates.mac (up.material crates.mac) down times)
    (named : out.keyIds = (keys.map (·.keyId)).map crates.uuidText)
    (held : ∀ key ∈ keys, down.keys.Holds key) (distinct : (keys.map (·.keyId)).Nodup) :
    ∃ q', Alike crates.mac q q' ∧
      q.ingress crates times (up.sealFrame crates.mac out).1 =
        match decrypt crates.uuidText out.payload (keys.map (·.keyId)) keys down.chunkBytes with
        | .error e => (.error e, q')
        | .ok plaintext =>
          if out.destFinal = q.qkcId then
            (.ok (.delivered (localDeliverFrame q.qkcId out plaintext)), q')
          else q'.routeOn crates out plaintext := by
  obtain ⟨opened, authentic, kept, alike⟩ := LinkRuntime.authenticate_sealFrame inStep data
  obtain ⟨rest, looked, same⟩ := KeyStore.lookupOrFetchDec_held held distinct
  let after : LinkRuntime := { opened with keys := rest }
  have alike' : down.Alike crates.mac after := ⟨alike.keySizeBits, same, alike.room, alike.material⟩
  have chunk : opened.chunkBytes = down.chunkBytes := by
    unfold LinkRuntime.chunkBytes
    rw [alike.keySizeBits]
  have payload : openPayload crates opened out =
      (decrypt crates.uuidText out.payload (keys.map (·.keyId)) keys down.chunkBytes, after) := by
    unfold openPayload
    simp only [named, parseKeyIds_text, kept, looked, chunk, after]
  refine ⟨q.setLink out.senderId after, Alike.setLink linked alike', ?_⟩
  unfold ingress
  rw [LinkRuntime.sealFrame_senderId data]
  simp only [linked, authentic]
  unfold handleIncoming
  have found : (q.setLink out.senderId opened).links out.senderId = some opened := update_self ..
  simp only [found, if_true, payload]
  cases decrypt crates.uuidText out.payload (keys.map (·.keyId)) keys down.chunkBytes with
  | error e => simp only [setLink_setLink]
  | ok plaintext =>
    simp only [setLink_setLink]
    rfl

end QkcService

structure Carries (sent : Frame) (keyIds : List String) (frame : Frame) : Prop where
  destFinal : frame.destFinal = sent.destFinal
  grade : frame.grade = sent.grade
  epochId : frame.epochId = sent.epochId
  headerOrrMp : frame.headerOrrMp = sent.headerOrrMp
  headerDkmsMp : frame.headerDkmsMp = sent.headerDkmsMp
  keyIds : frame.keyIds = keyIds

def LinkPlan.Matches (plan : LinkPlan) : Prop :=
  ∀ u v, plan.linked u v → plan.keySizeBits u v = 8 * plan.keyBytes u v ∧
    plan.keySizeBits v u = 8 * plan.keyBytes u v

section

variable {crates : Crates} {plan : LinkPlan} {sent : Frame}

theorem hop_carries {q q' : QkcService} {frame : Frame} {keyIds : List String} {stop : Stop}
    {up down : LinkRuntime} (alike : q.Alike crates.mac q') (carries : Carries sent keyIds frame)
    (out : q.links stop.qkc.qkcId = some up) (into : stop.qkc.links q.qkcId = some down)
    (coupled : Coupled crates plan q.qkcId stop.qkc.qkcId sent.payload.length stop.times up down)
    (matched : plan.keySizeBits q.qkcId stop.qkc.qkcId = 8 * plan.keyBytes q.qkcId stop.qkc.qkcId ∧
      plan.keySizeBits stop.qkc.qkcId q.qkcId = 8 * plan.keyBytes q.qkcId stop.qkc.qkcId)
    (small : numChunks sent.payload.length (plan.keyBytes q.qkcId stop.qkc.qkcId) ≤ maxRelayChunks) :
    ∃ signed after next opened,
      q'.forwardPlaintext crates stop.qkc.qkcId frame sent.payload =
        (.ok (.forwarded stop.qkc.qkcId signed), after) ∧
      after.ring stop.qkc.qkcId = up.keys.enc.drop
        (numChunks sent.payload.length (plan.keyBytes q.qkcId stop.qkc.qkcId)) ∧
      stop.qkc.Alike crates.mac next ∧
      Carries sent ((up.keys.enc.take (numChunks sent.payload.length
        (plan.keyBytes q.qkcId stop.qkc.qkcId))).map fun key => crates.uuidText key.keyId) opened ∧
      stop.qkc.ingress crates stop.times signed =
        if sent.destFinal = stop.qkc.qkcId then
          (.ok (.delivered (localDeliverFrame stop.qkc.qkcId opened sent.payload)), next)
        else next.routeOn crates opened sent.payload := by
  obtain ⟨up', out', same⟩ := alike.links _ up out
  have chunk : up'.chunkBytes = plan.keyBytes q.qkcId stop.qkc.qkcId := by
    unfold LinkRuntime.chunkBytes
    rw [same.keySizeBits, coupled.upSize, matched.1, Nat.mul_div_cancel_left _ (by decide)]
  have chunk' : down.chunkBytes = plan.keyBytes q.qkcId stop.qkc.qkcId := by
    unfold LinkRuntime.chunkBytes
    rw [coupled.downSize, matched.2, Nat.mul_div_cancel_left _ (by decide)]
  generalize size : plan.keyBytes q.qkcId stop.qkc.qkcId = keyBytes at *
  generalize count : numChunks sent.payload.length keyBytes = needed at *
  have supplied : needed ≤ up.keys.enc.length := by
    have enough := coupled.supplied
    rw [size, count] at enough
    exact enough small
  let keys := up.keys.enc.take needed
  have part : ∀ key ∈ keys, key ∈ up.keys.enc := fun _ => List.mem_of_mem_take
  have distinct : (keys.map (·.keyId)).Nodup := coupled.distinct.sublist ((List.take_sublist _ _).map _)
  have sized : ∀ key ∈ keys, key.material.length = keyBytes := by
    intro key member
    rw [coupled.sized key (part key member), size]
  obtain ⟨ciphertext, encrypted, decrypted⟩ :=
    decrypt_encrypt crates.uuidText (size ▸ plan.positive _ _) sized distinct
      (by rw [count, List.length_take, Nat.min_eq_left supplied] : _ = numChunks sent.payload.length _)
  let onward := q'.onward crates up' stop.qkc.qkcId frame (keys.map (·.keyId)) ciphertext
  let signed := (up'.spend needed).sealFrame crates.mac onward
  have forwarded : q'.forwardPlaintext crates stop.qkc.qkcId frame sent.payload =
      (.ok (.forwarded stop.qkc.qkcId signed.1), q'.setLink stop.qkc.qkcId signed.2) := by
    rw [QkcService.forwardPlaintext_fits out' frame (by rw [chunk, count]) small
      (by rwa [same.enc]) (by rw [same.room, coupled.room]), same.enc, encrypted]
  have ring : (q'.setLink stop.qkc.qkcId signed.2).ring stop.qkc.qkcId =
      up.keys.enc.drop needed := by
    obtain ⟨frameAuth, spent⟩ := LinkRuntime.sealFrame_snd crates.mac (up'.spend needed) onward
    have here : (q'.setLink stop.qkc.qkcId signed.2).links stop.qkc.qkcId = some signed.2 := update_self ..
    unfold QkcService.ring
    rw [here, spent]
    show up'.keys.enc.drop needed = _
    rw [same.enc]
  have inStep : LinkRuntime.InStep crates.mac ((up'.spend needed).material crates.mac) down
      stop.times := by
    have signature : (up'.spend needed).material crates.mac = up.material crates.mac := same.material
    rw [signature]
    exact coupled.inStep
  have linked : stop.qkc.links onward.senderId = some down := by
    show stop.qkc.links q'.qkcId = some down
    rw [alike.qkcId, into]
  obtain ⟨next, alike', ingress⟩ := QkcService.ingress_sealed linked
    (outboundFrame_isData _ _ _ _ _ _ _ _ _ _) inStep rfl
    (fun key member => coupled.shared key (part key member)) distinct
  have payload : onward.payload = ciphertext := rfl
  have dest : onward.destFinal = sent.destFinal := carries.destFinal
  rw [payload, chunk', decrypted, dest] at ingress
  refine ⟨signed.1, _, next, onward, forwarded, ring, alike', ?_, ingress⟩
  exact ⟨dest, carries.grade, carries.epochId, carries.headerOrrMp, carries.headerDkmsMp, List.map_map ..⟩

theorem travel_transparent (matched : plan.Matches) {stops : List Stop} :
    ∀ {keyIds : List String} {q q' : QkcService} {frame : Frame},
      Path crates plan sent keyIds q stops → stops ≠ [] → Carries sent keyIds frame →
        q.Alike crates.mac q' →
          let end' := travel crates (q'.routeOn crates frame sent.payload) stops
          (Fits plan sent.payload.length q stops → ∃ out, end'.1 = .ok (.delivered out) ∧ Arrives sent out) ∧
          Spent plan sent.payload.length q stops end'.2 := by
  induction stops with
  | nil =>
    intro _ _ _ _ _ some
    exact absurd rfl some
  | cons stop stops ih =>
    intro keyIds q q' frame path _ carries alike
    obtain ⟨away, linked, routed, up, down, out, into, coupled, onwards⟩ := path
    have sizes := matched _ _ linked
    have route : q'.routeOn crates frame sent.payload =
        q'.forwardPlaintext crates stop.qkc.qkcId frame sent.payload := by
      unfold QkcService.routeOn
      rw [alike.routing, carries.destFinal, carries.headerOrrMp, carries.headerDkmsMp,
        carries.grade, carries.keyIds]
      simp only [routed]
    rw [route]
    have ring : q.ring stop.qkc.qkcId = up.keys.enc := by
      unfold QkcService.ring
      rw [out, Option.elim_some]
    by_cases small : numChunks sent.payload.length (plan.keyBytes q.qkcId stop.qkc.qkcId) ≤ maxRelayChunks
    · obtain ⟨signed, after, next, opened, forwarded, spent, alike', carries', ingress⟩ :=
        hop_carries alike carries out into coupled sizes small
      have used : ∃ used : List OtpKey, used.length = numChunks sent.payload.length
          (plan.keyBytes q.qkcId stop.qkc.qkcId) ∧
          q.ring stop.qkc.qkcId = used ++ after.ring stop.qkc.qkcId := by
        refine ⟨up.keys.enc.take (numChunks sent.payload.length
          (plan.keyBytes q.qkcId stop.qkc.qkcId)), ?_, ?_⟩
        · rw [List.length_take, Nat.min_eq_left (coupled.supplied small)]
        · rw [ring, spent, List.take_append_drop]
      simp only [forwarded, travel, if_true, Spent, if_pos small]
      rw [ingress]
      cases stops with
      | nil =>
        have here : sent.destFinal = stop.qkc.qkcId := onwards
        rw [if_pos here]
        refine ⟨fun _ => ⟨_, rfl, ?_⟩, used, trivial⟩
        exact ⟨here.symm, here.symm, rfl, carries'.headerOrrMp, carries'.headerDkmsMp,
          carries'.grade, carries'.epochId⟩
      | cons _ _ =>
        rw [if_neg onwards.1]
        obtain ⟨arrives, spent'⟩ := ih onwards (List.cons_ne_nil _ _) carries' alike'
        exact ⟨fun fits => arrives fits.2, used, spent'⟩
    · obtain ⟨up', out', same⟩ := alike.links _ up out
      have chunk : up'.chunkBytes = plan.keyBytes q.qkcId stop.qkc.qkcId := by
        unfold LinkRuntime.chunkBytes
        rw [same.keySizeBits, coupled.upSize, sizes.1, Nat.mul_div_cancel_left _ (by decide)]
      have ring' : q'.ring stop.qkc.qkcId = q.ring stop.qkc.qkcId := by
        rw [ring]
        unfold QkcService.ring
        rw [out', Option.elim_some, same.enc]
      obtain ⟨e, refused⟩ := QkcService.forwardPlaintext_oversize crates out' frame
        (by rw [chunk]; omega : maxRelayChunks < numChunks sent.payload.length up'.chunkBytes)
      simp only [refused, travel, Spent, if_neg small]
      exact ⟨fun fits => absurd fits.1 small, ring', trivial⟩

end

end Dkms.Qkc
