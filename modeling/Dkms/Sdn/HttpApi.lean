import Dkms.Core.Bytes
import Dkms.Core.Results
import Dkms.Node.Messages
import Dkms.Sdn.Store

namespace Dkms.Sdn

open Dkms.Core
open Dkms.Node (isValidId)

def maxLinksPerQkc : Nat := 256

/-- What the checks of `http_api.rs` take from the standard library. -/
structure TextRules (K : Type*) where
  isIpAddr : String → Bool
  isSocketAddr : String → Bool
  debug : String → String
  display : K → String

variable {K : Type*} [Field K] [LinearOrder K] (rules : TextRules K)

def maxKeysPerS : K := (1000000000 : ℕ)

def isNumericId (id : String) : Bool := isValidId id && (parseU32 id).isSome

def firstChars (text : String) : String := String.ofList (text.toList.take 64)

def require (holds : Bool) (text : String) : Except String Unit :=
  if holds then .ok () else .error text

def whenSome {α : Type*} (option : Option α) (check : α → Except String Unit) : Except String Unit :=
  match option with
  | some value => check value
  | none => .ok ()

def validateHost (h : HostEndpoint) : Except String Unit := do
  require (rules.isIpAddr h.ip) s!"host.ip no es una IP: {rules.debug (firstChars h.ip)}"
  require (h.port ≠ 0) "host.port = 0"

def finiteIn (v lo hi : K) (what : String) : Except String Unit :=
  require (lo ≤ v ∧ v ≤ hi)
    s!"{what} fuera de rango [{rules.display lo}, {rules.display hi}]: {rules.display v}"

def validateLink (l : QkcLinkAnnounce K) : Except String Unit := do
  require (isNumericId l.neighborId) "neighbor_id debe ser numérico"
  finiteIn rules l.edgeMeta.r0KeysPerSecond 0 maxKeysPerS "r0"
  finiteIn rules l.edgeMeta.alpha 0 100.0 "alpha"
  finiteIn rules l.edgeMeta.pqcCapacityKeysPerS 0 maxKeysPerS "capacity_keys_per_s"
  require (l.edgeMeta.distanceKm ≤ 100000) s!"distance_km fuera de rango: {l.edgeMeta.distanceKm}"
  whenSome l.measuredRateKeysPerS fun m =>
    finiteIn rules m 0 maxKeysPerS "measured_rate_keys_per_s"
  whenSome l.measuredQuality fun q =>
    require (q.utf8ByteSize ≤ 32) "measured_quality demasiado largo"

def validateQkcAnnounce (reg : QkcAnnounce K) : Except String Unit := do
  require (isNumericId reg.id) "qkc id debe ser numérico"
  validateHost rules reg.host
  whenSome reg.peerAddr fun pa =>
    require (rules.isSocketAddr pa) s!"peer_addr no es ip:puerto: {rules.debug (firstChars pa)}"
  require (reg.links.length ≤ maxLinksPerQkc) s!"{reg.links.length} links, máximo {maxLinksPerQkc}"
  forM reg.links (validateLink rules)

def validateDkmsAnnounce (reg : DkmsAnnounce) : Except String Unit := do
  validateHost rules reg.host
  require (isValidId reg.id && isValidId reg.orrId) "dkms id/orr_id inválidos"
  whenSome reg.peerAddr fun pa =>
    require (rules.isSocketAddr pa) s!"peer_addr no es ip:puerto: {rules.debug pa}"
  whenSome (reg.saes.find? fun id => !isValidId id) fun bad =>
    .error s!"sae id inválido ({bad.utf8ByteSize} bytes)"

theorem require_ok {holds : Bool} {text : String} (ok : require holds text = .ok ()) :
    holds = true := by
  unfold require at ok
  split at ok
  · assumption
  · cases ok

omit [Field K] in
theorem finiteIn_ok {v lo hi : K} {what : String} (ok : finiteIn rules v lo hi what = .ok ()) :
    lo ≤ v ∧ v ≤ hi := by
  simpa using require_ok ok

theorem validateLink_ok {l : QkcLinkAnnounce K} (ok : validateLink rules l = .ok ()) :
    ∀ m ∈ l.measuredRateKeysPerS, 0 ≤ m ∧ m ≤ maxKeysPerS := by
  intro m measured
  unfold validateLink at ok
  rw [measured] at ok
  obtain ⟨_, -, ok⟩ := ok_of_bind ok
  obtain ⟨_, -, ok⟩ := ok_of_bind ok
  obtain ⟨_, -, ok⟩ := ok_of_bind ok
  obtain ⟨_, -, ok⟩ := ok_of_bind ok
  obtain ⟨_, -, ok⟩ := ok_of_bind ok
  obtain ⟨_, inside, -⟩ := ok_of_bind ok
  exact finiteIn_ok rules inside

theorem forM_ok_iff {ε : Type} {α : Type*} {f : α → Except ε Unit} {list : List α} :
    forM list f = .ok () ↔ ∀ a ∈ list, f a = .ok () := by
  induction list with
  | nil => exact iff_of_true rfl (by simp)
  | cons a list ih =>
    rw [List.forall_mem_cons, ← ih, List.forM_cons]
    constructor
    · intro ok
      obtain ⟨_, first, rest⟩ := ok_of_bind ok
      exact ⟨first, rest⟩
    · rintro ⟨first, rest⟩
      rw [first]
      exact rest

theorem validateQkcAnnounce_measured {reg : QkcAnnounce K}
    (ok : validateQkcAnnounce rules reg = .ok ()) :
    ∀ l ∈ reg.links, ∀ m ∈ l.measuredRateKeysPerS, 0 ≤ m ∧ m ≤ maxKeysPerS := by
  intro l member
  obtain ⟨_, -, ok⟩ := ok_of_bind ok
  obtain ⟨_, -, ok⟩ := ok_of_bind ok
  obtain ⟨_, -, ok⟩ := ok_of_bind ok
  obtain ⟨_, -, ok⟩ := ok_of_bind ok
  exact validateLink_ok rules (forM_ok_iff.mp ok l member)

structure ErrorResponse where
  status : Nat
  detail : String
  deriving DecidableEq

def SdnError.text : SdnError → String
  | .unknownNode id => s!"unknown node: {id}"
  | .unknownDkms id => s!"unknown dkms: {id}"
  | .unknownSae id => s!"unknown sae: {id}"
  | .saeAlreadyRegistered id => s!"sae already registered: {id}"
  | .badRequest text => s!"bad request: {text}"
  | .topology text => s!"topology: {text}"

def errResponse (e : SdnError) : ErrorResponse :=
  let status := match e with
    | .unknownNode _ | .unknownDkms _ | .unknownSae _ => 404
    | .saeAlreadyRegistered _ => 409
    | .badRequest _ | .topology _ => 400
  ⟨status, e.text⟩

/-- What the verified certificate of a client says. No identity means no mTLS. -/
structure PeerCertIdentity where
  san : Option String
  deriving DecidableEq

/-- The scheme that the certificates carry is cut off, and what follows the last slash stays. -/
def nodeIdFromSan (san : String) : String :=
  match ["urn:dkms:node:", "dkms://"].findSome? fun scheme => san.toList.dropPrefix? scheme.toList with
  | some rest => String.ofList (rest.reverse.takeWhile (· ≠ '/')).reverse
  | none => san

def identityAuthorizes (identity : Option PeerCertIdentity) (claimedId : String) : Bool :=
  match identity.bind (·.san) with
  | none => identity.isNone
  | some san => nodeIdFromSan san = claimedId

def requireIdentity (identity : Option PeerCertIdentity) (claimedId who : String) :
    Except ErrorResponse Unit :=
  if identityAuthorizes identity claimedId then .ok ()
  else .error ⟨403, s!"cert identity does not authorize {who} '{claimedId}'"⟩

def requireSaeOwner (identity : Option PeerCertIdentity) (dkmsId : Option String) :
    Except ErrorResponse Unit :=
  if identity.isNone then .ok ()
  else
    match dkmsId with
    | some id => requireIdentity identity id "sae-owner"
    | none => .error ⟨403, "mTLS: SAE bind must name its owning dkms_id"⟩

/-- A SAE that does not exist is left to the handler, which answers 404 further down. -/
def saeMutationAuthorized (identity : Option PeerCertIdentity) (currentOwner : Option String) :
    Except ErrorResponse Unit :=
  match currentOwner with
  | none => .ok ()
  | some owner => requireIdentity identity owner "sae-mutation"

def PeerCertIdentity.nodeId (identity : PeerCertIdentity) : Option String :=
  identity.san.map nodeIdFromSan

variable {identity : PeerCertIdentity}

theorem requireIdentity_ok_iff {claimedId who : String} :
    requireIdentity (some identity) claimedId who = .ok () ↔ identity.nodeId = some claimedId := by
  unfold requireIdentity identityAuthorizes PeerCertIdentity.nodeId
  cases san : identity.san <;> simp [san]

theorem requireSaeOwner_ok_iff {dkmsId : Option String} {d : String}
    (authenticated : identity.nodeId = some d) :
    requireSaeOwner (some identity) dkmsId = .ok () ↔ dkmsId = some d := by
  unfold requireSaeOwner
  cases dkmsId with
  | none => simp
  | some id =>
    simp only [Option.isNone_some, Bool.false_eq_true, ↓reduceIte]
    rw [requireIdentity_ok_iff, authenticated]
    exact eq_comm

def plainRules : TextRules ℚ where
  isIpAddr _ := true
  isSocketAddr _ := true
  debug := id
  display _ := ""

end Dkms.Sdn
