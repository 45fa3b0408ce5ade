import Dkms.Core.Tally
import Dkms.Sdn.Routing

namespace Dkms.Sdn

open Dkms.Core
open Dkms.Node (KeyGrade)

variable {K : Type*}

structure CommodityDemand (K : Type*) where
  srcDkms : String
  dstDkms : String
  level : K
  capacity : K
  drainRate : K
  timestampMs : Int
  grade : KeyGrade

structure DemandRegistry (K : Type*) where
  inner : String → String → KeyGrade → Option (CommodityDemand K)
  keyed : ∀ src dst grade, ∀ d ∈ inner src dst grade, d.srcDkms = src ∧ d.dstDkms = dst ∧ d.grade = grade

def DemandRegistry.empty : DemandRegistry K := ⟨fun _ _ _ => none, by simp⟩

section Components

variable (t : Topology K) (keys : Keys)

def Topology.qkdNeighbors (node : String) : List String :=
  (t.neighbors node).filter fun n =>
    match t.edge node n with
    | none => false
    | some link => !link.isPqc

def Topology.qkdComponents : String → Option ℕ :=
  let grow : (String → Option ℕ) × ℕ → String → (String → Option ℕ) × ℕ := fun (comp, next) start =>
    if (comp start).isSome then (comp, next)
    else
      let s := ⟨Function.update comp start (some next), [start], [start]⟩
      ((Search.run t.qkdNeighbors (fun _ id => id) (fun _ => false) (keys.qkcs.length + 1) s).1.mark,
        next + 1)
  ((keys.qkcs.insertionSort (· ≤ ·)).foldl grow (fun _ => none, 0)).1

end Components

section Inputs

variable [Field K] [LinearOrder K]

def CommodityDemand.remaining (d : CommodityDemand K) : K := max (d.capacity - d.level) 0

def defaultBufferCapacity : K := 4096

def flowEpsilon : K := 1 / 1000000

def tReplanSeconds : K := 5

/-- `McmcfInputs`, without the set of PQC edges, which only the LP reads. -/
structure McmcfInputs (K : Type*) where
  commodities : List (CommodityDemand K)
  edgeCapacity : Tally EdgeKey K
  dkmsToQkc : String → Option String

def gradeText : KeyGrade → String
  | .qkd => "qkd"
  | .pqc => "pqc"

def CommodityDemand.le (a b : CommodityDemand K) : Prop :=
  a.srcDkms < b.srcDkms ∨ a.srcDkms = b.srcDkms ∧
    (a.dstDkms < b.dstDkms ∨ a.dstDkms = b.dstDkms ∧ gradeText a.grade ≤ gradeText b.grade)

instance (a b : CommodityDemand K) : Decidable (a.le b) := by
  unfold CommodityDemand.le
  infer_instance

variable (tenPow : K → K) (t : Topology K) (keys : Keys) (registry : DemandRegistry K)

def qkdConnected (comp : String → Option ℕ) (a b : String) : Bool :=
  match comp a, comp b with
  | some x, some y => x = y
  | _, _ => false

def naturalGrade (connected : Bool) : KeyGrade := if connected then .qkd else .pqc

/-- The demand of a commodity between two QKCs: as it was reported, or an empty buffer on the grade
that the pair has by itself. -/
def demandBetween (connected : Bool) (src dst : String) (grade : KeyGrade) :
    Option (CommodityDemand K) :=
  if grade = .qkd && !connected then none
  else
    match registry.inner src dst grade with
    | some d => some { d with grade := grade }
    | none =>
      if grade = naturalGrade connected then
        some ⟨src, dst, 0, defaultBufferCapacity, 0, 0, grade⟩
      else none

def commodity (comp : String → Option ℕ) (src dst : String) (grade : KeyGrade) :
    Option (CommodityDemand K) :=
  if src = dst then none
  else
    match t.qkcOfDkms src, t.qkcOfDkms dst with
    | some srcQkc, some dstQkc =>
      if srcQkc = dstQkc then none
      else demandBetween registry (qkdConnected comp srcQkc dstQkc) src dst grade
    | _, _ => none

def capacityEntry (key : EdgeKey) : Option (EdgeKey × K) :=
  match t.edges key with
  | none => none
  | some link =>
    if 0 < link.capacityKeysPerSecond tenPow then some (key, link.capacityKeysPerSecond tenPow)
    else none

def McmcfInputs.build : McmcfInputs K where
  dkmsToQkc := t.qkcOfDkms
  edgeCapacity := keys.edges.filterMap (capacityEntry tenPow t)
  commodities :=
    ((keys.dkms.product (keys.dkms.product [.qkd, .pqc])).filterMap fun k =>
      commodity t registry (t.qkdComponents keys) k.1 k.2.1 k.2.2).insertionSort (·.le ·)

end Inputs

section Fractions

variable [Field K] [LinearOrder K]

structure Spread (K : Type*) where
  fractions : Tally EdgeKey K
  arrived : K
  pending : Tally String K
  queue : List String

def Spread.send (v : String) (m total : K) (s : Spread K) (hop : WcmpNextHop) : Spread K :=
  let next := hop.qkcId.toNat.repr
  let frac := m * (hop.weight.toNat : K) / total
  { s with
    fractions := s.fractions.add (edgeKey v next) frac
    pending := s.pending.add next frac
    queue := s.queue ++ [next] }

def Spread.move (wcmp : Wcmp) (dst v : String) (m : K) (s : Spread K) : Spread K :=
  if m ≤ 0 then s
  else if v = dst then { s with arrived := s.arrived + m }
  else
    match wcmp v dst with
    | none => s
    | some hops =>
      let total := (hops.map fun h => (h.weight.toNat : K)).sum
      if total ≤ 0 then s else hops.foldl (send v m total) s

def Spread.loop (wcmp : Wcmp) (dst : String) : Nat → Spread K → Spread K
  | 0, s => s
  | steps + 1, s =>
    match s.queue with
    | [] => s
    | v :: queue =>
      match s.pending.lookup v with
      | none => loop wcmp dst steps { s with queue := queue }
      | some m =>
        loop wcmp dst steps
          (move wcmp dst v m
            { s with queue := queue, pending := s.pending.filter (·.1 ≠ v) })

def maxSteps : Nat := 100000

def commodityEdgeFractions (wcmp : Wcmp) (srcQkc dstQkc : String) : Tally EdgeKey K × K :=
  let s := Spread.loop wcmp dstQkc maxSteps ⟨[], 0, [(srcQkc, 1)], [srcQkc]⟩
  (s.fractions, s.arrived)

structure Flow (K : Type*) where
  c : CommodityDemand K
  fractions : Tally EdgeKey K
  routable : Bool

structure Tables where
  full : Wcmp
  qkd : Wcmp

def Tables.of (tables : Tables) : KeyGrade → Wcmp
  | .qkd => tables.qkd
  | .pqc => tables.full

def flowOf (tables : Tables) (c : CommodityDemand K) (src dst : String) : Flow K :=
  let spread := commodityEdgeFractions (tables.of c.grade) src dst
  ⟨c, spread.1, 0.99 < spread.2⟩

def prepareFlows (inputs : McmcfInputs K) (tables : Tables) : List (Flow K) :=
  inputs.commodities.filterMap fun c =>
    match inputs.dkmsToQkc c.srcDkms, inputs.dkmsToQkc c.dstDkms with
    | some src, some dst => some (flowOf tables c src dst)
    | _, _ => none

end Fractions

section Assemble

variable [Field K] [LinearOrder K]

def flowId (srcDkms dstDkms : String) : String := srcDkms ++ "->" ++ dstDkms

def truncated (x : K) : K := if x < flowEpsilon then 0 else x

def published (flows : List (Flow K)) (xs : List K) : List (Flow K × K) :=
  flows.zipWith (fun f x => (f, truncated x)) xs

structure McmcfSolution (K : Type*) where
  rates : Tally String K
  ratesGrade : String × KeyGrade → Option K

def assemble (flows : List (Flow K)) (xs : List K) : McmcfSolution K where
  rates := (published flows xs).foldl (fun rates (f, x) => rates.add (flowId f.c.srcDkms f.c.dstDkms) x) []
  ratesGrade := (published flows xs).foldl
    (fun rates (f, x) =>
      Function.update rates (flowId f.c.srcDkms f.c.dstDkms, f.c.grade) (some x)) fun _ => none

end Assemble

section Num

variable [Field K] [LinearOrder K]

structure NumParams (K : Type*) where
  alpha : K
  gamma : K
  fillWeight : K

def NumParams.default : NumParams K := ⟨1, 0.2, 0.1⟩

/-- `NumState`, without the counter of the log lines. -/
structure NumState (K : Type*) where
  prices : EdgeKey → Option K

def priceEpsilon : K := 1 / 1000000000

def overloadClamp : K := 5

variable (powf : K → K → K) (p : NumParams K)

def CommodityDemand.fillRate (d : CommodityDemand K) : K := d.remaining / tReplanSeconds

def pricedRate (prices : EdgeKey → Option K) (f : Flow K) : K :=
  if !f.routable then 0
  else
    let w := f.c.drainRate + p.fillWeight * f.c.remaining / tReplanSeconds
    if w ≤ 0 then 0
    else
      let xCap := f.c.drainRate + f.c.fillRate
      let price := (f.fractions.map fun (e, fr) => fr * (prices e).getD 0).sum
      if price ≤ priceEpsilon then xCap
      else min (powf (w / price) (1 / max p.alpha 0.1)) xCap

def loadOf (flows : List (Flow K)) (xs : List K) : Tally EdgeKey K :=
  Tally.gather (((flows.zip xs).filter fun (_, x) => 0 < x).map fun (f, x) => (f.fractions, x))

def overloadOf (capacity load : Tally EdgeKey K) (e : EdgeKey) : Option K :=
  match capacity.lookup e with
  | none => none
  | some cap =>
    let l := load.get e
    if 0 < cap ∧ cap < l then some (l / cap) else none

def worstOf (overload : EdgeKey → Option K) (f : Flow K) : K :=
  (f.fractions.filterMap fun (e, _) => overload e).foldl max 1

def nextPrice (capacity load : Tally EdgeKey K) (prices : EdgeKey → Option K) (e : EdgeKey) :
    Option K :=
  match capacity.lookup e with
  | none => none
  | some cap =>
    if cap ≤ 0 then prices e
    else
      let grad := max (-1) (min ((load.get e - cap) / cap) overloadClamp)
      some (max ((prices e).getD 0 + p.gamma * grad) 0)

def stepRates (state : NumState K) (capacity : Tally EdgeKey K) (flows : List (Flow K)) : List K :=
  let xs := flows.map (pricedRate powf p state.prices)
  let overload := overloadOf capacity (loadOf flows xs)
  flows.zipWith (fun f x => x / worstOf overload f) xs

def NumState.step (state : NumState K) (inputs : McmcfInputs K) (tables : Tables) :
    NumState K × McmcfSolution K :=
  let flows := prepareFlows inputs tables
  let load := loadOf flows (flows.map (pricedRate powf p state.prices))
  (⟨nextPrice p inputs.edgeCapacity load state.prices⟩,
    assemble flows (stepRates powf p state inputs.edgeCapacity flows))

end Num

section Maxmin

variable [Field K] [LinearOrder K]

/-- A commodity in a pass of the filling: its demand, the fraction served and whether that still
rises. -/
structure Share (K : Type*) where
  flow : Flow K
  demand : K
  t : K
  active : Bool

def Share.rise (delta : K) (share : Share K) : Share K :=
  if share.active then { share with t := share.t + delta } else share

structure Filling (K : Type*) where
  shares : List (Share K)
  residual : EdgeKey → Option K

namespace Filling

variable (s : Filling K)

def actives : List (Share K) := s.shares.filter (·.active)

def slope : Tally EdgeKey K :=
  Tally.gather (s.actives.map fun share => (share.flow.fractions, share.demand))

def bounds : List K :=
  s.actives.map (fun share => 1 - share.t) ++
    s.slope.filterMap fun (e, slope) =>
      if flowEpsilon < slope then (s.residual e).map fun r => max r 0 / slope else none

def delta : Option K := s.bounds.min?

def raise (delta : K) : Filling K where
  shares := s.shares.map (Share.rise delta)
  residual := fun e => (s.residual e).map (· - delta * s.slope.get e)

def exhausted (slope : Tally EdgeKey K) (e : EdgeKey) : Bool :=
  slope.keys.contains e &&
    match s.residual e with
    | none => false
    | some r => r ≤ 1 / 1000000000

/-- Commodities that are served, or cross an edge that is exhausted, rise no further. -/
def goesOn (slope : Tally EdgeKey K) (share : Share K) : Bool :=
  share.t < 1 - 1 / 1000000000000 && !share.flow.fractions.keys.any (s.exhausted slope)

def freeze (slope : Tally EdgeKey K) : Filling K where
  shares := s.shares.map fun share => { share with active := share.active && s.goesOn slope share }
  residual := s.residual

def turn (delta : K) : Filling K := (if 0 < delta then s.raise delta else s).freeze s.slope

def loop : Nat → Filling K → Filling K
  | 0, s => s
  | fuel + 1, s =>
    if s.actives = [] then s
    else
      match s.delta with
      | none => s
      | some delta =>
        if (s.turn delta).actives.length = s.actives.length ∧ delta ≤ 0 then s.turn delta
        else loop fuel (s.turn delta)

end Filling

def Filling.start (flows : List (Flow K)) (demand : Flow K → K) (residual : EdgeKey → Option K) :
    Filling K where
  shares := flows.map fun f => ⟨f, demand f, 0, f.routable && flowEpsilon < demand f⟩
  residual := residual

/-- One pass. Every turn of the loop freezes a commodity, so this fuel is enough. -/
def waterfill (flows : List (Flow K)) (demand : Flow K → K) (residual : EdgeKey → Option K) :
    Filling K :=
  (Filling.start flows demand residual).loop (flows.length + 1)

def maxminRates (capacity : Tally EdgeKey K) (flows : List (Flow K)) : List K :=
  let drain := waterfill flows (·.c.drainRate) fun e => capacity.lookup e
  let fill := waterfill flows (·.c.fillRate) drain.residual
  drain.shares.zipWith (fun d f => d.t * d.demand + f.t * f.demand) fill.shares

def maxminAllocate (inputs : McmcfInputs K) (tables : Tables) : McmcfSolution K :=
  let flows := prepareFlows inputs tables
  assemble flows (maxminRates inputs.edgeCapacity flows)

end Maxmin

end Dkms.Sdn
