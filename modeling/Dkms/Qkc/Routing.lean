import Dkms.Core.Bytes
import Dkms.Core.Runs

namespace Dkms.Qkc

open List Std Dkms.Core Option TreeMap

inductive LinkType where
  | qkd
  | pqc
  deriving DecidableEq

structure NextHop where
  qkcId : UInt32
  weight : UInt32
  deriving DecidableEq

abbrev Table := TreeMap UInt32 (List NextHop)

def sanitise (t : Table) : Table :=
  t.filterMap fun _ hops =>
    let kept := hops.filter (0 < ·.weight)
    if kept.isEmpty then none else some kept

def pickFrom (bucket : Nat) : Nat → List NextHop → Option UInt32
  | _, [] => none
  | acc, h :: rest =>
    let acc := acc + h.weight.toNat
    if bucket < acc then some h.qkcId else pickFrom bucket acc rest

def pick (entries : List NextHop) (hash : UInt64) : Option UInt32 :=
  match entries with
  | [] => none
  | [h] => some h.qkcId
  | h :: _ :: _ =>
    let total := (entries.map (·.weight.toNat)).sum
    if total = 0 then some h.qkcId
    else (pickFrom (hash.toNat % total) 0 entries).or (entries.getLast?.map (·.qkcId))

/-- `ForwardingTable`; its four parts are swapped independently. -/
structure ForwardingTable where
  table : Table
  qkdTable : Table
  direct : Finset UInt32
  directQkd : Finset UInt32

namespace ForwardingTable

def newWithGrades (direct directQkd : Finset UInt32) : ForwardingTable where
  table := ∅
  qkdTable := ∅
  direct
  directQkd

variable (ft : ForwardingTable)

def nextHop (dest : UInt32) (hash : UInt64) : Option UInt32 :=
  if dest ∈ ft.direct then some dest
  else ft.table[dest]?.bind (pick · hash)

def nextHopGraded (dest : UInt32) (hash : UInt64) (qkdOnly : Bool) : Option UInt32 :=
  if qkdOnly ∧ ¬ ft.qkdTable.isEmpty then
    if dest ∈ ft.directQkd then some dest
    else ft.qkdTable[dest]?.bind (pick · hash)
  else ft.nextHop dest hash

def replace (new : Table) : ForwardingTable := { ft with table := sanitise new }

def replaceQkd (new : Table) : ForwardingTable := { ft with qkdTable := sanitise new }

def update (updates : Table) (removes : List UInt32) : ForwardingTable :=
  { ft with table := removes.foldl erase (ft.table.insertMany (sanitise updates).toList) }

def addDirect (peer : UInt32) (isQkd : Bool) : ForwardingTable :=
  { ft with
    direct := insert peer ft.direct
    directQkd := if isQkd then insert peer ft.directQkd else ft.directQkd }

def removeDirect (peer : UInt32) : ForwardingTable :=
  { ft with
    direct := ft.direct.erase peer
    directQkd := ft.directQkd.erase peer }

end ForwardingTable

variable {entries : List NextHop}

variable {bucket acc : Nat} {n dest : UInt32}

theorem pickFrom_mem
    (picked : pickFrom bucket acc entries = some n) : ∃ h ∈ entries, h.qkcId = n := by
  induction entries generalizing acc with
  | nil => cases picked
  | cons h rest ih =>
    unfold pickFrom at picked
    dsimp only at picked
    split at picked
    · cases picked
      exact ⟨h, mem_cons_self, rfl⟩
    · obtain ⟨h', member, same⟩ := ih picked
      exact ⟨h', mem_cons_of_mem _ member, same⟩

theorem pick_mem {hash : UInt64}
    (picked : pick entries hash = some n) : ∃ h ∈ entries, h.qkcId = n := by
  unfold pick at picked
  split at picked
  · cases picked
  · rename_i h
    cases picked
    exact ⟨h, mem_cons_self, rfl⟩
  rename_i h h' rest
  dsimp only at picked
  split at picked
  · cases picked
    exact ⟨h, mem_cons_self, rfl⟩
  rcases or_eq_some_iff.mp picked with first | ⟨-, last⟩
  · exact pickFrom_mem first
  · obtain ⟨hop, found, same⟩ := map_eq_some_iff.mp last
    exact ⟨hop, mem_of_getLast? found, same⟩

def totalWeight (entries : List NextHop) : Nat := (entries.map (·.weight.toNat)).sum

def shareOf : Nat → List NextHop → Nat
  | _, [] => 0
  | bucket, h :: rest =>
    if bucket < h.weight.toNat then 0 else shareOf (bucket - h.weight.toNat) rest + 1

def pickedEntry (entries : List NextHop) (hash : UInt64) : Nat :=
  shareOf (hash.toNat % totalWeight entries) entries

theorem pickFrom_share (inside : bucket < totalWeight entries) :
    pickFrom (acc + bucket) acc entries = entries[shareOf bucket entries]?.map (·.qkcId) ∧
      shareOf bucket entries < entries.length := by
  induction entries generalizing bucket acc with
  | nil => cases inside
  | cons h rest ih =>
    unfold pickFrom shareOf
    by_cases first : bucket < h.weight.toNat
    · simp [first]
    · have rest := @ih (bucket - h.weight.toNat) (acc + h.weight.toNat)
        (by simp only [totalWeight, map_cons, sum_cons] at inside ⊢; omega)
      have same : acc + h.weight.toNat + (bucket - h.weight.toNat) = acc + bucket := by omega
      rw [same] at rest
      simpa [first] using rest

theorem count_share (entries : List NextHop) (i : Nat) :
    (totalWeight entries).count (fun bucket => shareOf bucket entries = i) =
      (entries[i]?.map (·.weight.toNat)).getD 0 := by
  induction entries generalizing i with
  | nil => simp [totalWeight]
  | cons h rest ih =>
    have whole : totalWeight (h :: rest) = h.weight.toNat + totalWeight rest := by simp [totalWeight]
    have own : ∀ b < h.weight.toNat, shareOf b (h :: rest) = 0 := fun b inside => if_pos inside
    have later : ∀ b, shareOf (h.weight.toNat + b) (h :: rest) = shareOf b rest + 1 := by simp [shareOf]
    simp only [whole, Nat.count_add, later]
    cases i with
    | zero =>
      rw [Nat.count_of_forall own, Nat.count_of_forall_not fun b _ => Nat.succ_ne_zero _]
      simp
    | succ i =>
      rw [Nat.count_of_forall_not fun b inside => by simp [own b inside]]
      simpa using ih i

theorem pick_share (positive : ∀ h ∈ entries, 0 < h.weight)
    (some_entry : entries ≠ []) (hash : UInt64) :
    ∃ h, entries[pickedEntry entries hash]? = some h ∧ pick entries hash = some h.qkcId ∧
      pickFrom (hash.toNat % totalWeight entries) 0 entries = some h.qkcId := by
  have weighty : 0 < totalWeight entries := by
    obtain ⟨h, rest, rfl⟩ := exists_cons_of_ne_nil some_entry
    have first : 0 < h.weight.toNat := positive h mem_cons_self
    simp only [totalWeight, map_cons, sum_cons]
    omega
  obtain ⟨found, listed⟩ := @pickFrom_share entries _ 0 (Nat.mod_lt hash.toNat weighty)
  rw [Nat.zero_add, getElem?_eq_getElem listed] at found
  refine ⟨_, getElem?_eq_getElem listed, ?_, found⟩
  unfold pick
  split
  · contradiction
  · rename_i h
    have only : shareOf (hash.toNat % totalWeight [h]) [h] = 0 := by simpa using listed
    simp [only]
  · change (if totalWeight _ = 0 then _ else (pickFrom (hash.toNat % totalWeight _) 0 _).or _) = _
    rw [if_neg weighty.ne', found]
    rfl

/-- Over any run of as many hash values as the weights sum to, each entry is picked as often as its
weight says, and the entry after the loop of `pick` is never needed. -/
theorem pick_proportional (entries : List NextHop) (positive : ∀ h ∈ entries, 0 < h.weight) (start : Nat)
    (fits : start + totalWeight entries ≤ 2 ^ 64) : (∀ i (listed : i < entries.length),
      ((Finset.Ico start (start + totalWeight entries)).filter fun hash =>
        pickedEntry entries (UInt64.ofNat hash) = i).card = entries[i].weight.toNat) ∧
      ∀ hash, entries ≠ [] →
        ∃ h, entries[pickedEntry entries hash]? = some h ∧ pick entries hash = some h.qkcId ∧
          pickFrom (hash.toNat % totalWeight entries) 0 entries = some h.qkcId := by
  refine ⟨?_, fun hash some_entry => pick_share positive some_entry hash⟩
  intro i listed
  have exact : ∀ hash ∈ Finset.Ico start (start + totalWeight entries),
      pickedEntry entries (UInt64.ofNat hash) = shareOf (hash % totalWeight entries) entries := by
    intro hash inside
    have below : hash < 2 ^ 64 := (Finset.mem_Ico.mp inside).2.trans_le fits
    rw [pickedEntry, UInt64.toNat_ofNat', Nat.mod_eq_of_lt below]
  rw [Finset.filter_congr fun hash inside => by rw [exact hash inside],
    Nat.filter_Ico_card_eq_of_periodic _ _ _ (fun hash => by simp)]
  have base : (totalWeight entries).count (fun hash => shareOf (hash % totalWeight entries) entries = i) =
      (totalWeight entries).count fun bucket => shareOf bucket entries = i := by
    simp only [Nat.count_eq_card_filter_range]
    apply congrArg
    exact Finset.filter_congr fun hash inside => by rw [Nat.mod_eq_of_lt (Finset.mem_range.mp inside)]
  rw [base, count_share]
  simp [listed]

theorem pick_proportional_repeated :
    let entries : List NextHop := [⟨7, 2⟩, ⟨9, 1⟩, ⟨7, 3⟩]
    (∀ h ∈ entries, 0 < h.weight) ∧ totalWeight entries = 6 ∧
      ((Finset.Ico 5 11).filter fun hash =>
        pickedEntry entries (UInt64.ofNat hash) = 2).card = 3 :=
  ⟨by decide, rfl, (pick_proportional [⟨7, 2⟩, ⟨9, 1⟩, ⟨7, 3⟩] (by decide) 5 (by decide)).1 2 (by decide)⟩

theorem sanitise_getElem? (t : Table) (dest : UInt32) :
    (sanitise t)[dest]? = t[dest]?.bind fun hops =>
      let kept := hops.filter (0 < ·.weight)
      if kept.isEmpty then none else some kept :=
  getElem?_filterMap'

variable {t : Table} {hops : List NextHop}

theorem of_sanitise
    (found : (sanitise t)[dest]? = some hops) : ∃ all, t[dest]? = some all ∧ hops ⊆ all := by
  rw [sanitise_getElem?] at found
  obtain ⟨all, before, kept⟩ := bind_eq_some_iff.mp found
  dsimp only at kept
  split at kept
  · cases kept
  · cases kept
    exact ⟨all, before, filter_subset_self _⟩

variable {h : NextHop}

theorem sanitise_not_empty {entry : UInt32 × List NextHop} (listed : entry ∈ t.toList)
    (member : h ∈ entry.2) (positive : 0 < h.weight) :
    (sanitise t).isEmpty = false := by
  have found := mem_toList_iff_getElem?_eq_some.mp listed
  have kept : h ∈ entry.2.filter (0 < ·.weight) := mem_filter.mpr ⟨member, decide_eq_true positive⟩
  have here : (sanitise t)[entry.1]? = some (entry.2.filter (0 < ·.weight)) := by
    rw [sanitise_getElem?, found, bind_some]
    rw [if_neg]
    rw [List.isEmpty_iff]
    exact ne_nil_of_mem kept
  have member := mem_iff_isSome_getElem?.mpr (by rw [here]; rfl)
  exact isEmpty_eq_false_iff_exists_mem.mpr ⟨_, member⟩

structure PeerCertIdentity where
  nodeId : Option String

def forwardingPusher : String := "sdn"

def sdnMayPush : Option PeerCertIdentity → Except String Unit
  | none => .ok ()
  | some id =>
    if id.nodeId = some forwardingPusher then .ok ()
    else
      let other := id.nodeId.getD "<sin SAN dkms://>"
      .error s!"forwarding-table: el cert del cliente ({other}) no es la SDN ('{forwardingPusher}')"

inductive NextHopValue where
  | single (qkcId : UInt32)
  | multi (hops : List NextHop)

def NextHopValue.intoHops : NextHopValue → List NextHop
  | .single qkcId => [⟨qkcId, 1⟩]
  | .multi hops => hops

abbrev RawTable := List (String × NextHopValue)

structure TableBody where
  replace : Option RawTable
  replaceQkd : Option RawTable
  updates : Option RawTable
  removes : Option (List String)

def parseMap (raw : RawTable) : Except String Table :=
  raw.foldlM (fun out (k, v) =>
    match parseU32 k with
    | some dest => .ok (out.insert dest v.intoHops)
    | none => .error s!"key {k} is not u32") ∅

def parseRemoves (raw : List String) : Except String (List UInt32) :=
  raw.mapM fun k =>
    match parseU32 k with
    | some dest => .ok dest
    | none => .error s!"remove key {k} is not u32"

inductive AdminResponse where
  | forbidden (msg : String)
  | badRequest (msg : String)
  | replaced (size qkdSize : Nat)
  | delta (size : Nat)
  deriving DecidableEq

def AdminResponse.isError : AdminResponse → Bool
  | .forbidden _ | .badRequest _ => true
  | .replaced _ _ | .delta _ => false

namespace ForwardingTable

variable (ft : ForwardingTable)

def postDelta (body : TableBody) : AdminResponse × ForwardingTable :=
  match parseMap (body.updates.getD []) with
  | .error e => (.badRequest e, ft)
  | .ok updates =>
    match parseRemoves (body.removes.getD []) with
    | .error e => (.badRequest e, ft)
    | .ok removes =>
      let ft := ft.update updates removes
      (.delta ft.table.size, ft)

def postReplace (body : TableBody) (didReplace : Bool) : AdminResponse × ForwardingTable :=
  match body.replace.map parseMap with
  | some (.error e) => (.badRequest e, ft)
  | some (.ok parsed) =>
    let ft := ft.replace parsed
    (.replaced ft.table.size ft.qkdTable.size, ft)
  | none =>
    if didReplace then (.replaced ft.table.size ft.qkdTable.size, ft) else ft.postDelta body

def postTable (identity : Option PeerCertIdentity) (body : TableBody) :
    AdminResponse × ForwardingTable :=
  match sdnMayPush identity with
  | .error msg => (.forbidden msg, ft)
  | .ok () =>
    match body.replaceQkd.map parseMap with
    | some (.error e) => (.badRequest e, ft)
    | some (.ok parsed) => (ft.replaceQkd parsed).postReplace body true
    | none => ft.postReplace body false

def SameTables (ft' : ForwardingTable) : Prop :=
  ∀ dest : UInt32, ft'.table[dest]? = ft.table[dest]? ∧ ft'.qkdTable[dest]? = ft.qkdTable[dest]?

/-- The request brings a QKD table that parses and differs from the one in use, and with it a full
table that does not parse. -/
def HalfValid (identity : Option PeerCertIdentity) (body : TableBody) : Prop :=
  sdnMayPush identity = .ok () ∧
    (∃ raw ∈ body.replaceQkd, ∃ parsed, parseMap raw = .ok parsed ∧
      ∃ dest : UInt32, (sanitise parsed)[dest]? ≠ ft.qkdTable[dest]?) ∧
    ∃ raw ∈ body.replace, ∃ entry ∈ raw, parseU32 entry.1 = none

end ForwardingTable

theorem parseMap_cases (raw : RawTable) :
    ((∀ entry ∈ raw, (parseU32 entry.1).isSome) ∧ ∃ parsed, parseMap raw = .ok parsed) ∨
      ((∃ entry ∈ raw, parseU32 entry.1 = none) ∧ ∃ e, parseMap raw = .error e) := by
  unfold parseMap
  generalize (∅ : Table) = out
  induction raw generalizing out with
  | nil => exact .inl ⟨by simp, out, rfl⟩
  | cons entry rest ih =>
    rw [foldlM_cons]
    cases parsed : parseU32 entry.1 with
    | none =>
      refine .inr ⟨⟨entry, mem_cons_self, parsed⟩, ?_⟩
      simp only [parsed]
      exact ⟨_, rfl⟩
    | some dest =>
      simp only [parsed]
      rcases ih (out.insert dest entry.2.intoHops) with ⟨numbers, table, done⟩ | ⟨bad, e, failed⟩
      · refine .inl ⟨?_, table, done⟩
        simpa [parsed] using numbers
      · obtain ⟨other, member, fails⟩ := bad
        exact .inr ⟨⟨other, mem_cons_of_mem _ member, fails⟩, e, failed⟩

namespace ForwardingTable

variable {ft : ForwardingTable} {body : TableBody}

theorem SameTables.rfl : ft.SameTables ft := fun _ => ⟨Eq.refl _, Eq.refl _⟩

theorem sameTables_replaceQkd {new : Table} : ft.SameTables (ft.replaceQkd new) ↔
      ∀ dest : UInt32, (sanitise new)[dest]? = ft.qkdTable[dest]? := by
  simp [SameTables, replaceQkd]

theorem postDelta_error (failed : (ft.postDelta body).1.isError) : (ft.postDelta body).2 = ft := by
  unfold postDelta at failed ⊢
  split
  · rfl
  rename_i parsed
  split
  · rfl
  rename_i removes
  simp only [parsed, removes] at failed
  cases failed

theorem postReplace_error_state {didReplace : Bool}
    (failed : (ft.postReplace body didReplace).1.isError) :
    (ft.postReplace body didReplace).2 = ft := by
  unfold postReplace at failed ⊢
  split
  · rfl
  · rename_i parsed
    simp [parsed, AdminResponse.isError] at failed
  rename_i absent
  simp only [absent] at failed
  split
  · rfl
  rename_i delta
  rw [if_neg delta] at failed
  exact postDelta_error failed

theorem postReplace_error_iff : (ft.postReplace body true).1.isError ↔
      ∃ raw ∈ body.replace, ∃ entry ∈ raw, parseU32 entry.1 = none := by
  unfold postReplace
  cases present : body.replace with
  | none => simp [AdminResponse.isError]
  | some raw =>
    rcases parseMap_cases raw with ⟨numbers, parsed, done⟩ | ⟨bad, e, failed⟩
    · simp only [map_some, done, AdminResponse.isError, Bool.false_eq_true, false_iff]
      rintro ⟨raw', same, entry, member, fails⟩
      cases same
      have isNumber := numbers entry member
      rw [fails] at isNumber
      cases isNumber
    · simp only [map_some, failed, AdminResponse.isError, true_iff]
      exact ⟨raw, rfl, bad⟩

/-- An error leaves both tables as they were, but for a request that is half valid. -/
theorem post_table_atomic (ft : ForwardingTable) (identity : Option PeerCertIdentity)
    (body : TableBody) :
    ((ft.postTable identity body).1.isError → ft.SameTables (ft.postTable identity body).2) ↔
      ¬ ft.HalfValid identity body := by
  unfold HalfValid postTable
  cases may : sdnMayPush identity with
  | error msg => simp [SameTables.rfl]
  | ok =>
    cases present : body.replaceQkd with
    | none =>
      simp only [Option.map_none, reduceCtorEq, Option.mem_def, false_and, exists_false, and_false,
        not_false_eq_true, iff_true]
      intro failed
      rw [postReplace_error_state failed]
      exact .rfl
    | some raw =>
      rcases parseMap_cases raw with ⟨-, parsed, done⟩ | ⟨-, e, failed⟩
      · have brings : (∃ raw' ∈ some raw, ∃ parsed', parseMap raw' = .ok parsed' ∧
            ∃ dest : UInt32, (sanitise parsed')[dest]? ≠ ft.qkdTable[dest]?) ↔
            ¬ ft.SameTables (ft.replaceQkd parsed) := by
          simp [sameTables_replaceQkd, done]
        simp only [Option.map_some, done, brings]
        rw [← @postReplace_error_iff (ft.replaceQkd parsed) body]
        by_cases bad : ((ft.replaceQkd parsed).postReplace body true).1.isError
        · rw [postReplace_error_state bad]
          simp [bad]
        · simp [bad]
      · simp [failed, SameTables.rfl]

/-- A key that is no number, after a QKD table that is one hop long. -/
theorem qkd_table_half_applied :
    let ft := newWithGrades ∅ ∅
    let body : TableBody := ⟨some [("x", .single 2)], some [("5", .single 2)], none, none⟩
    let posted := ft.postTable none body
    posted.1 = .badRequest "key x is not u32" ∧ ft.qkdTable[(5 : UInt32)]? = none ∧
      posted.2.qkdTable[(5 : UInt32)]? = some [⟨2, 1⟩] := by
  decide +kernel

end ForwardingTable

open Function

structure Neighbourhood where
  routing : ForwardingTable
  link : UInt32 → Option LinkType

inductive RoutingOp where
  | replace (new : Table)
  | replaceQkd (new : Table)
  | update (updates : Table) (removes : List UInt32)
  | addDirect (peer : UInt32) (isQkd : Bool)
  | removeDirect (peer : UInt32)

namespace Neighbourhood

def new (direct directQkd : Finset UInt32) : Neighbourhood where
  routing := .newWithGrades direct directQkd
  link n := if n ∈ directQkd then some .qkd else if n ∈ direct then some .pqc else none

variable (q : Neighbourhood)

def next : RoutingOp → Neighbourhood
  | .replace new => { q with routing := q.routing.replace new }
  | .replaceQkd new => { q with routing := q.routing.replaceQkd new }
  | .update updates removes => { q with routing := q.routing.update updates removes }
  | .addDirect peer isQkd =>
    { routing := q.routing.addDirect peer isQkd
      link := update q.link peer (some (if isQkd then .qkd else .pqc)) }
  | .removeDirect peer =>
    { routing := q.routing.removeDirect peer
      link := update q.link peer none }

def run (ops : List RoutingOp) : Neighbourhood := ops.foldl next q

end Neighbourhood

def Table.Lists (t : Table) (n : UInt32) : Prop :=
  ∃ entry ∈ t.toList, ∃ h ∈ entry.2, h.qkcId = n

instance (t : Table) (n : UInt32) : Decidable (t.Lists n) := by
  unfold Table.Lists
  infer_instance

theorem Table.lists_of_getElem?
    (found : t[dest]? = some hops) (member : h ∈ hops) : t.Lists h.qkcId :=
  ⟨(dest, hops), mem_toList_iff_getElem?_eq_some.mpr found, h, member, rfl⟩

theorem Table.lists_of_sanitise (listed : Lists (sanitise t) n) :
    t.Lists n := by
  obtain ⟨entry, member, h, kept, rfl⟩ := listed
  obtain ⟨all, found, part⟩ := of_sanitise (mem_toList_iff_getElem?_eq_some.mp member)
  exact lists_of_getElem? found (part kept)

/-- A pushed QKD table lists neighbours over QKD links and is not empty; a link becomes a PQC one
only when it is not a QKD link and the QKD table does not use it. -/
def RoutingOp.Graded (q : Neighbourhood) : RoutingOp → Prop
  | .replaceQkd new =>
    (∀ entry ∈ new.toList, ∀ h ∈ entry.2, q.link h.qkcId = some .qkd) ∧
      ∃ entry ∈ new.toList, ∃ h ∈ entry.2, 0 < h.weight
  | .addDirect peer false => q.link peer ≠ some .qkd ∧ ¬ q.routing.qkdTable.Lists peer
  | _ => True

instance (q : Neighbourhood) (op : RoutingOp) : Decidable (op.Graded q) := by
  rcases op with _ | _ <;> dsimp only [RoutingOp.Graded]
  case addDirect peer isQkd => rcases isQkd with _ | _ <;> infer_instance
  all_goals infer_instance

namespace Neighbourhood

structure Separated (q : Neighbourhood) : Prop where
  direct : ∀ n ∈ q.routing.directQkd, q.link n = some .qkd
  hops : ∀ n, q.routing.qkdTable.Lists n → q.link n ≠ some .pqc

theorem new_separated (direct directQkd : Finset UInt32) : (new direct directQkd).Separated := by
  constructor
  · intro n member
    exact if_pos member
  · rintro n ⟨entry, member, -⟩
    cases member

variable {q : Neighbourhood}

variable {op : RoutingOp}

theorem Separated.next (separated : q.Separated)
    (graded : op.Graded q) : (q.next op).Separated := by
  cases op with
  | replaceQkd new =>
    refine ⟨separated.direct, ?_⟩
    intro n listed
    obtain ⟨entry, member, h, hop, rfl⟩ := Table.lists_of_sanitise listed
    have known : q.link h.qkcId = some .qkd := graded.1 entry member h hop
    show q.link h.qkcId ≠ some .pqc
    rw [known]
    decide
  | addDirect peer isQkd =>
    unfold Neighbourhood.next ForwardingTable.addDirect
    cases isQkd with
    | true =>
      refine ⟨fun n member => ?_, fun n listed => ?_⟩
      · by_cases same : n = peer
        · rw [same]
          exact update_self _ _ _
        · have old := Finset.mem_of_mem_insert_of_ne member same
          exact (update_of_ne same _ _).trans (separated.direct n old)
      by_cases same : n = peer
      · rw [same]
        dsimp only
        rw [update_self]
        decide
      · dsimp only
        rw [update_of_ne same]
        exact separated.hops n listed
    | false =>
      obtain ⟨notQkd, unlisted⟩ := graded
      refine ⟨fun n member => ?_, fun n listed => ?_⟩
      · have other : n ≠ peer := by
          rintro rfl
          exact notQkd (separated.direct n member)
        exact (update_of_ne other _ _).trans (separated.direct n member)
      have other : n ≠ peer := by
        rintro rfl
        exact unlisted listed
      dsimp only
      rw [update_of_ne other]
      exact separated.hops n listed
  | removeDirect peer =>
    unfold Neighbourhood.next ForwardingTable.removeDirect
    refine ⟨fun n member => ?_, fun n listed => ?_⟩
    · obtain ⟨other, old⟩ := Finset.mem_erase.mp member
      exact (update_of_ne other _ _).trans (separated.direct n old)
    by_cases same : n = peer
    · rw [same]
      dsimp only
      rw [update_self]
      decide
    · dsimp only
      rw [update_of_ne same]
      exact separated.hops n listed
  | _ => exact ⟨separated.direct, separated.hops⟩

structure Engaged (q : Neighbourhood) : Prop where
  separated : q.Separated
  pushed : q.routing.qkdTable.isEmpty = false

theorem Separated.push (separated : q.Separated) {new : Table}
    (graded : (RoutingOp.replaceQkd new).Graded q) : (q.next (.replaceQkd new)).Engaged := by
  obtain ⟨entry, listed, h, member, positive⟩ := graded.2
  exact ⟨separated.next graded, sanitise_not_empty listed member positive⟩

theorem Engaged.next (engaged : q.Engaged)
    (graded : op.Graded q) : (q.next op).Engaged := by
  cases op with
  | replaceQkd new => exact engaged.separated.push graded
  | replace | update | addDirect | removeDirect =>
    exact ⟨engaged.separated.next graded, engaged.pushed⟩

theorem Engaged.nextHop (engaged : q.Engaged) {dest n : UInt32} {hash : UInt64}
    (hop : q.routing.nextHopGraded dest hash true = some n) : q.link n ≠ some .pqc := by
  obtain ⟨⟨direct, hops⟩, pushed⟩ := engaged
  unfold ForwardingTable.nextHopGraded at hop
  rw [if_pos ⟨rfl, by rw [pushed]; decide⟩] at hop
  split at hop
  · rename_i near
    cases hop
    rw [direct dest near]
    decide
  · obtain ⟨entries, found, picked⟩ := bind_eq_some_iff.mp hop
    obtain ⟨h, member, rfl⟩ := pick_mem picked
    exact hops h.qkcId (Table.lists_of_getElem? found member)

/-- Once a QKD table was pushed, a frame of QKD grade never goes to a neighbour over a PQC link. -/
theorem qkd_grade_avoids_pqc (direct directQkd : Finset UInt32) (ops : List RoutingOp)
    (graded : Follows Neighbourhood.next (fun q op => op.Graded q) (new direct directQkd) ops)
    (pushed : ∃ table, RoutingOp.replaceQkd table ∈ ops) (dest : UInt32) (hash : UInt64)
    (n : UInt32)
    (hop : ((new direct directQkd).run ops).routing.nextHopGraded dest hash true = some n) :
    ((new direct directQkd).run ops).link n ≠ some .pqc := by
  obtain ⟨table, member⟩ := pushed
  obtain ⟨before, after, rfl⟩ := List.append_of_mem member
  obtain ⟨first, push, rest⟩ := follows_append.mp graded
  have separated : (before.foldl Neighbourhood.next (new direct directQkd)).Separated :=
    first.invariant (fun _ _ separated ok => separated.next ok) (new_separated direct directQkd)
  have engaged := rest.invariant (fun _ _ engaged ok => Engaged.next engaged ok) (separated.push push)
  rw [← List.foldl_cons, ← List.foldl_append] at engaged
  exact engaged.nextHop hop

def detour : List RoutingOp :=
  [.replace ((∅ : Table).insert 3 [⟨3, 1⟩]), .replaceQkd ((∅ : Table).insert 3 [⟨2, 1⟩]),
    .removeDirect 3, .addDirect 3 false]

theorem qkd_grade_avoids_pqc_detour :
    let q := (new {2, 3} {2}).run detour
    q.link 3 = some .pqc ∧ q.routing.nextHopGraded 3 7 true = some 2 ∧ q.link 2 ≠ some .pqc := by
  intro q
  have hop : q.routing.nextHopGraded 3 7 true = some 2 := by decide +kernel
  exact ⟨by decide +kernel, hop, qkd_grade_avoids_pqc {2, 3} {2} detour (by decide +kernel)
    ⟨_, List.mem_cons_of_mem _ List.mem_cons_self⟩ 3 7 2 hop⟩

/-- A table without QKD routes was pushed, and the frame leaves over the PQC link. -/
theorem empty_push_leaks :
    let q := (new {3} ∅).run [.replaceQkd ∅]
    q.routing.nextHopGraded 3 0 true = some 3 ∧ q.link 3 = some .pqc := by
  decide +kernel

end Neighbourhood

end Dkms.Qkc
