import Mathlib

namespace Dkms.Sdn

open Function
open Std (ExtTreeMap)

structure HostEndpoint where
  id : Int
  ip : String
  port : UInt16
  deriving DecidableEq

structure Qkc where
  id : String
  host : HostEndpoint
  peerAddr : Option String
  kmeHost : Option String
  deriving DecidableEq

structure Orr where
  id : String
  host : HostEndpoint
  qkcId : String
  deriving DecidableEq

structure DkmsNode where
  id : String
  host : HostEndpoint
  peerAddr : Option String
  tlsId : Option Int
  orrId : String
  deriving DecidableEq

structure Sae where
  id : String
  dkmsId : String
  deriving DecidableEq

inductive LinkType
  | qkd
  | pqc
  deriving DecidableEq

/-- Physical metadata of a link between two QKCs. Rates are exact, in an ordered field. -/
structure EdgeMeta (K : Type*) where
  distanceKm : UInt32
  r0KeysPerSecond : K
  alpha : K
  maxBufferSize : UInt32
  linkType : LinkType
  keySizeBits : UInt32
  pqcCapacityKeysPerS : K
  -- `serde(skip)`: never part of a received declaration
  measuredKeysPerS : Option K
  deriving DecidableEq

structure QkcLinkAnnounce (K : Type*) where
  measuredRateKeysPerS : Option K
  measuredQuality : Option String
  neighborId : String
  edgeMeta : EdgeMeta K
  deriving DecidableEq

structure QkcAnnounce (K : Type*) where
  id : String
  host : HostEndpoint
  peerAddr : Option String
  links : List (QkcLinkAnnounce K)
  deriving DecidableEq

structure QkcAnnounceOutcome where
  qkcId : String
  changed : Bool
  edgesAdded : List String
  edgesPending : List String
  edgesConflict : List String
  edgesRemoved : List String

abbrev EdgeKey := String × String

def edgeKey (a b : String) : EdgeKey :=
  if a ≤ b then (a, b) else (b, a)

theorem edgeKey_comm (a b : String) : edgeKey a b = edgeKey b a := by
  unfold edgeKey
  rcases lt_trichotomy a b with less | rfl | less
  · rw [if_pos less.le, if_neg (not_le.mpr less)]
  · rfl
  · rw [if_neg (not_le.mpr less), if_pos less.le]

theorem edgeKey_eq_iff {a b c d : String} :
    edgeKey a b = edgeKey c d ↔ a = c ∧ b = d ∨ a = d ∧ b = c := by
  constructor
  · intro same
    unfold edgeKey at same
    split at same <;> split at same <;> simp only [Prod.mk.injEq] at same <;> tauto
  · rintro (⟨rfl, rfl⟩ | ⟨rfl, rfl⟩)
    · rfl
    · exact edgeKey_comm a b

structure Topology (K : Type*) where
  qkcs : String → Option Qkc
  orrs : String → Option Orr
  orrByQkc : String → Option String
  dkms : String → Option DkmsNode
  dkmsByQkc : String → Option String
  saes : ExtTreeMap String Sae
  graph : String → Option (Finset String)
  edges : EdgeKey → Option (EdgeMeta K)
  declared : ExtTreeMap String (ExtTreeMap String (EdgeMeta K))
  version : Int

variable {K : Type*}

def Topology.empty : Topology K where
  qkcs _ := none
  orrs _ := none
  orrByQkc _ := none
  dkms _ := none
  dkmsByQkc _ := none
  saes := ∅
  graph _ := none
  edges _ := none
  declared := ∅
  version := 0

def maxCapacityKeysPerS [NatCast K] : K := (1000000000 : ℕ)

namespace EdgeMeta

variable [Field K] [LinearOrder K] (tenPow : K → K) (link : EdgeMeta K)

def isPqc : Bool := link.linkType = .pqc

def qudittoCapacityKeysPerSecond : K :=
  let exp := -link.alpha * (link.distanceKm.toNat : K) / 10.0
  max (link.r0KeysPerSecond * tenPow exp) 0

def capacityKeysPerSecond : K :=
  let raw :=
    if link.isPqc then link.pqcCapacityKeysPerS
    else
      match link.measuredKeysPerS with
      | some m => m
      | none => link.qudittoCapacityKeysPerSecond tenPow
  max 0 (min raw maxCapacityKeysPerS)

def declaredPart (link : EdgeMeta K) : EdgeMeta K := { link with measuredKeysPerS := none }

end EdgeMeta

/-- The clone of the snapshot that an announcement edits, with the outcome it fills in. -/
structure Draft (K : Type*) where
  topology : Topology K
  out : QkcAnnounceOutcome

namespace Topology

variable (t : Topology K)

def declaration (a b : String) : Option (EdgeMeta K) :=
  (t.declared[a]?).bind (·[b]?)

def registered (id : String) : Bool := (t.qkcs id).isSome

def adjacent (a b : String) : Bool :=
  match t.graph a with
  | some adj => b ∈ adj
  | none => false

def edge (a b : String) : Option (EdgeMeta K) := t.edges (edgeKey a b)

/-- The measured rate does not travel in declarations: the one of a live edge stays. -/
def keepMeasured (a b : String) (link : EdgeMeta K) : EdgeMeta K :=
  match t.edge a b with
  | some existing => { link with measuredKeysPerS := existing.measuredKeysPerS }
  | none => link

def upsertQkc (qkc : Qkc) : Bool × Topology K :=
  (t.qkcs qkc.id ≠ some qkc,
    { t with
      graph := update t.graph qkc.id (some ((t.graph qkc.id).getD ∅))
      qkcs := update t.qkcs qkc.id (some qkc) })

def insertNeighbor (a b : String) : Topology K :=
  { t with graph := update t.graph a (some (insert b ((t.graph a).getD ∅))) }

/-- `graph.get_mut(a)`, and `b` out of it. -/
def removeNeighbor (a b : String) : Topology K :=
  { t with graph := update t.graph a ((t.graph a).map (·.erase b)) }

end Topology

namespace Draft

variable (d : Draft K)

def dropEdge (me other : String) : Bool × Draft K :=
  let t := d.topology
  let hadMeta := (t.edge me other).isSome
  let t := { t with edges := update t.edges (edgeKey me other) none }
  let hadMe := t.adjacent me other
  let t := t.removeNeighbor me other
  let hadOther := t.adjacent other me
  let t := t.removeNeighbor other me
  if hadMeta || hadMe || hadOther then
    (true, ⟨t, { d.out with edgesRemoved := d.out.edgesRemoved ++ [other] }⟩)
  else (false, ⟨t, d.out⟩)

variable [DecidableEq K]

def placeEdge (me other : String) (link : EdgeMeta K) : Bool × Draft K :=
  let t := d.topology
  let link := t.keepMeasured me other link
  if !t.registered me || !t.registered other then
    (false, { d with out := { d.out with edgesPending := d.out.edgesPending ++ [other] } })
  else
    let wasThere := t.adjacent me other
    let joined := (t.insertNeighbor me other).insertNeighbor other me
    let out := if wasThere then d.out else { d.out with edgesAdded := d.out.edgesAdded ++ [other] }
    if t.edge me other = some link then (!wasThere, ⟨joined, out⟩)
    else
      (true, ⟨{ joined with edges := update t.edges (edgeKey me other) (some link) }, out⟩)

def recomputeEdge (me other : String) : Bool × Draft K :=
  let t := d.topology
  match t.declaration me other, t.declaration other me with
  | none, none => d.dropEdge me other
  | some link, none => d.placeEdge me other link
  | none, some link => d.placeEdge me other link
  | some mine, some theirs =>
    if mine = theirs then d.placeEdge me other mine
    else
      let d :=
        { d with out := { d.out with edgesConflict := d.out.edgesConflict ++ [other] } }
      match t.edge me other with
      | some _ => (false, d)
      | none => d.placeEdge me other mine

/-- The loop over neighbours of `apply_declared_links` and `close_declarations_pointing_at`. -/
def recomputeEdges (me : String) : List String → Draft K → Bool × Draft K
  | [], d => (false, d)
  | other :: others, d =>
    let (changed, d) := d.recomputeEdge me other
    let (later, d) := recomputeEdges me others d
    (changed || later, d)

def applyDeclaredLinks (qkcId : String) (links : ExtTreeMap String (EdgeMeta K)) : Bool × Draft K :=
  let t := d.topology
  let prev := (t.declared[qkcId]?).getD ∅
  let t := { t with declared := t.declared.insert qkcId links }
  let others := ((prev.keys ++ links.keys).filter (· ≠ qkcId)).eraseDups
  let (changed, d) := recomputeEdges qkcId others { d with topology := t }
  (prev ≠ links || changed, d)

/-- Who declares a link to `qkcId` that it does not declare itself. The source iterates over a
hash map; the order of the ids is taken here, and only the outcome's lists depend on it. -/
def declarersOf (t : Topology K) (qkcId : String) : List String :=
  let mine := (t.declared[qkcId]?).getD ∅
  (t.declared.toList.filter fun (d, links) =>
    d ≠ qkcId ∧ links.contains qkcId ∧ !mine.contains d).map Prod.fst

def closeDeclarationsPointingAt (qkcId : String) : Bool × Draft K :=
  recomputeEdges qkcId (declarersOf d.topology qkcId) d

end Draft

section Measured

variable [Field K] [LinearOrder K] (tenPow : K → K)

/-- `kps` is `none` for the infinity of a minimum over no report. -/
def EdgeMeta.adjusted (kps : Option K) (link : EdgeMeta K) : Option (EdgeMeta K) :=
  match kps with
  | none => none
  | some kps =>
    if kps < 0 then none
    else if link.isPqc then none
    else
      let current := link.capacityKeysPerSecond tenPow
      let threshold := max (current * 0.05) 0.5
      if |current - kps| < threshold then none
      else some { link with measuredKeysPerS := some kps }

def Topology.applyMeasuredCapacity (t : Topology K) (a b : String) (kps : Option K) :
    Bool × Topology K :=
  match (t.edge a b).bind (EdgeMeta.adjusted tenPow kps) with
  | none => (false, t)
  | some link => (true, { t with edges := update t.edges (edgeKey a b) (some link) })

def Topology.applyMeasured (id : String) : List (String × Option K) → Topology K → Bool × Topology K
  | [], t => (false, t)
  | (neighbor, kps) :: measured, t =>
    let (changed, t) := t.applyMeasuredCapacity tenPow id neighbor kps
    let (later, t) := applyMeasured id measured t
    (changed || later, t)

end Measured

structure EndpointRate (K : Type*) where
  keysPerS : K
  quality : String

/-- The latest report of each end of each link. An absent entry of the source's outer map is
the empty map here: `record` fills what it makes and `forget_reporter` drops what it empties. -/
structure MeasuredRates (K : Type*) where
  byEdge : EdgeKey → ExtTreeMap String (EndpointRate K)

namespace MeasuredRates

def empty : MeasuredRates K := ⟨fun _ => ∅⟩

variable (rates : MeasuredRates K)

def combined [LinearOrder K] (a b : String) : Option K :=
  let reports := (rates.byEdge (edgeKey a b)).toList.map Prod.snd
  ((reports.filter (·.quality ≠ "unavailable")).map (·.keysPerS)).min?

def record [LinearOrder K] (reporter neighbor : String) (kps : K) (quality : Option String) :
    Option K × MeasuredRates K :=
  let key := edgeKey reporter neighbor
  let report : EndpointRate K := ⟨kps, quality.getD "measured"⟩
  let rates : MeasuredRates K := ⟨update rates.byEdge key ((rates.byEdge key).insert reporter report)⟩
  (rates.combined reporter neighbor, rates)

def forgetEdge (a b : String) : MeasuredRates K :=
  ⟨update rates.byEdge (edgeKey a b) ∅⟩

def forgetReporter (id : String) : MeasuredRates K :=
  ⟨fun key => (rates.byEdge key).erase id⟩

end MeasuredRates

end Dkms.Sdn
