import Dkms.Qkc.Routing

namespace Dkms.Qkc

open List Std Dkms.Core

def maxSdnLinks : Nat := 64

/-- `Rest` is what no step looks at: suites, re-keying, credentials of the KME. -/
structure LinkConfig (Rest : Type) where
  neighborId : UInt32
  neighborPeerAddr : String
  linkType : LinkType
  qudittoUrl : Option String
  keySizeBits : UInt32
  linkPsk : Option String
  peerVerifyKey : Option String
  rest : Rest

structure QkcPeerWire where
  qkcId : String
  peerAddr : String
  linkType : String
  keySizeBits : UInt32

structure ListedPeer where
  peer : QkcPeerWire
  builds : Bool

abbrev PeerList := List ListedPeer

structure MountedLinks (Rest : Type) where
  links : TreeMap UInt32 (LinkConfig Rest)
  routing : ForwardingTable

/-- The part of an `SdnAnnouncer` that `apply_peers` reads: the links of the `node.yml`, and the
settings that a link of the SDN starts from. -/
structure SdnAnnouncer (Rest : Type) where
  links : List (LinkConfig Rest)
  linkDefaults : LinkConfig Rest

variable {Rest : Type}

namespace MountedLinks

variable (svc : MountedLinks Rest)

def linkCount : Nat := svc.links.size

def addLink (cfg : LinkConfig Rest) (builds : Bool) : MountedLinks Rest :=
  if cfg.neighborId ∈ svc.links then svc
  else if builds then
    { links := svc.links.insert cfg.neighborId cfg
      routing := svc.routing.addDirect cfg.neighborId (cfg.linkType = .qkd) }
  else svc

def removeLink (id : UInt32) : MountedLinks Rest :=
  if id ∈ svc.links then
    { links := svc.links.erase id
      routing := svc.routing.removeDirect id }
  else svc

end MountedLinks

def wanted (peers : PeerList) : List UInt32 := peers.filterMap fun p => parseU32 p.peer.qkcId

namespace SdnAnnouncer

variable (ann : SdnAnnouncer Rest) (isSocketAddr : String → Bool)

def localCfgs : TreeMap UInt32 (LinkConfig Rest) :=
  .ofList (ann.links.map fun l => (l.neighborId, l))

def localLinks : Finset UInt32 := (ann.links.map (·.neighborId)).toFinset

/-- Links with an address are mounted at the start; the others wait for the SDN. -/
def boot : MountedLinks Rest :=
  let mounted := ann.links.filter fun l => !l.neighborPeerAddr.isEmpty
  { links := .ofList (mounted.map fun l => (l.neighborId, l))
    routing := .newWithGrades (mounted.map (·.neighborId)).toFinset
      ((mounted.filter fun l => l.linkType = .qkd).map (·.neighborId)).toFinset }

/-- The configuration of a link that the SDN creates: a PQC one without material of the pair. -/
def sdnLink (id : UInt32) (p : QkcPeerWire) : LinkConfig Rest :=
  { ann.linkDefaults with
    neighborId := id
    neighborPeerAddr := p.peerAddr
    linkType := .pqc
    qudittoUrl := none
    keySizeBits := p.keySizeBits
    linkPsk := none
    peerVerifyKey := none }

def applyPeer (state : MountedLinks Rest × Nat) (p : ListedPeer) : MountedLinks Rest × Nat :=
  let (svc, created) := state
  match parseU32 p.peer.qkcId with
  | none => (svc, created)
  | some id =>
    if p.peer.linkType ≠ "pqc" then (svc, created)
    else if id ∈ svc.links then (svc, created)
    else if !isSocketAddr p.peer.peerAddr then (svc, created)
    else
      match ann.localCfgs[id]? with
      | some declared =>
        (svc.addLink { declared with neighborPeerAddr := p.peer.peerAddr } p.builds, created)
      | none =>
        if maxSdnLinks ≤ created then (svc, created)
        else (svc.addLink (ann.sdnLink id p.peer) p.builds, created + 1)

def prune (svc : MountedLinks Rest) (peers : PeerList) : MountedLinks Rest :=
  (svc.links.keys.filter fun id => id ∉ wanted peers ∧ id ∉ ann.localLinks).foldl MountedLinks.removeLink svc

def applyPeers (svc : MountedLinks Rest) (peers : PeerList) : MountedLinks Rest :=
  let sdnCreated := svc.linkCount - ann.localCfgs.size
  let (svc, _) := peers.foldl (ann.applyPeer isSocketAddr) (svc, sdnCreated)
  ann.prune svc peers

def run (lists : List PeerList) : MountedLinks Rest :=
  lists.foldl (ann.applyPeers isSocketAddr) ann.boot

def undeclared (svc : MountedLinks Rest) : Finset UInt32 :=
  svc.links.keys.toFinset \ ann.localLinks

/-- Every declared link is mounted, or the list is too short to go over the bound. -/
def Countable (svc : MountedLinks Rest) (peers : PeerList) : Prop :=
  (∀ l ∈ ann.links, l.neighborId ∈ svc.links) ∨ ((wanted peers).toFinset \ ann.localLinks).card ≤ maxSdnLinks

instance (svc : MountedLinks Rest) (peers : PeerList) : Decidable (ann.Countable svc peers) :=
  inferInstanceAs (Decidable (_ ∨ _))

end SdnAnnouncer

namespace MountedLinks

variable {svc : MountedLinks Rest}

theorem addLink_cases (cfg : LinkConfig Rest) (builds : Bool) : svc.addLink cfg builds = svc ∨
      cfg.neighborId ∉ svc.links ∧
        (svc.addLink cfg builds).links = svc.links.insert cfg.neighborId cfg := by
  unfold addLink
  split
  · exact .inl rfl
  split
  · exact .inr ⟨‹_›, rfl⟩
  · exact .inl rfl

theorem removeLink_getElem? (id other : UInt32) :
    (svc.removeLink id).links[other]? = if id = other then none else svc.links[other]? := by
  unfold removeLink
  split
  · simp [TreeMap.getElem?_erase]
  rename_i absent
  split
  · rename_i same
    rw [← same]
    exact TreeMap.getElem?_eq_none absent
  · rfl

theorem foldl_removeLink_getElem? (ids : List UInt32) (other : UInt32) :
    (ids.foldl removeLink svc).links[other]? = if other ∈ ids then none else svc.links[other]? := by
  induction ids generalizing svc with
  | nil => simp
  | cons id ids ih =>
    rw [foldl_cons, ih, removeLink_getElem?]
    by_cases later : other ∈ ids
    · simp [later]
    · simp [later, eq_comm]

end MountedLinks

namespace SdnAnnouncer

variable {ann : SdnAnnouncer Rest} {isSocketAddr : String → Bool} {svc : MountedLinks Rest}
  {peers : PeerList}

variable {id : UInt32}

theorem mem_localCfgs : id ∈ ann.localCfgs ↔ id ∈ ann.localLinks := by
  rw [localCfgs, localLinks]
  simp

theorem mem_undeclared : id ∈ ann.undeclared svc ↔ id ∈ svc.links ∧ id ∉ ann.localLinks := by
  simp [undeclared]

theorem size_localCfgs : ann.localCfgs.size = ann.localLinks.card := by
  have keys : ann.localCfgs.keys.toFinset = ann.localLinks := by
    ext id
    rw [mem_toFinset, TreeMap.mem_keys, mem_localCfgs]
  rw [← keys, toFinset_card_of_nodup TreeMap.nodup_keys, TreeMap.length_keys]

theorem sdnCreated_eq (mounted : ∀ l ∈ ann.links, l.neighborId ∈ svc.links) :
    svc.linkCount - ann.localCfgs.size = (ann.undeclared svc).card := by
  have within : ann.localLinks ⊆ svc.links.keys.toFinset := by
    intro id declared
    rw [localLinks, mem_toFinset] at declared
    obtain ⟨l, member, rfl⟩ := mem_map.mp declared
    rw [mem_toFinset, TreeMap.mem_keys]
    exact mounted l member
  rw [undeclared, Finset.card_sdiff_of_subset within, size_localCfgs,
    toFinset_card_of_nodup TreeMap.nodup_keys, TreeMap.length_keys]
  rfl

theorem mem_of_getElem?_insertMany {V : Type} {t : TreeMap UInt32 V} {entries : List (UInt32 × V)}
    {k : UInt32} {v : V} (found : (t.insertMany entries)[k]? = some v) :
    (k, v) ∈ entries ∨ t[k]? = some v := by
  induction entries generalizing t with
  | nil => exact .inr (by simpa using found)
  | cons entry entries ih =>
    rw [TreeMap.insertMany_cons] at found
    rcases ih found with later | here
    · exact .inl (mem_cons_of_mem _ later)
    rw [TreeMap.getElem?_insert] at here
    split at here
    · rename_i same
      cases here
      rw [Std.compare_eq_iff_eq] at same
      subst same
      exact .inl mem_cons_self
    · exact .inr here

variable {cfg : LinkConfig Rest}

theorem neighborId_of_localCfgs (found : ann.localCfgs[id]? = some cfg) : cfg.neighborId = id := by
  rw [localCfgs, TreeMap.ofList_eq_insertMany_empty] at found
  rcases mem_of_getElem?_insertMany found with listed | empty
  · obtain ⟨l, -, same⟩ := mem_map.mp listed
    cases same
    rfl
  · simp at empty

/-- All that a listed peer can do: nothing, mount a declared link, or use up one of the links
that are left to the SDN. -/
inductive Visited (ann : SdnAnnouncer Rest) :
    MountedLinks Rest × Nat → MountedLinks Rest × Nat → Prop
  | idle {svc created} : Visited ann (svc, created) (svc, created)
  | declared {svc svc' : MountedLinks Rest} {created : Nat} {cfg : LinkConfig Rest}
      (known : cfg.neighborId ∈ ann.localLinks) (absent : cfg.neighborId ∉ svc.links)
      (mounted : svc'.links = svc.links.insert cfg.neighborId cfg) :
      Visited ann (svc, created) (svc', created)
  | failed {svc : MountedLinks Rest} {created : Nat} (room : created < maxSdnLinks) :
      Visited ann (svc, created) (svc, created + 1)
  | created {svc svc' : MountedLinks Rest} {created : Nat} {cfg : LinkConfig Rest}
      (room : created < maxSdnLinks) (absent : cfg.neighborId ∉ svc.links)
      (mounted : svc'.links = svc.links.insert cfg.neighborId cfg) :
      Visited ann (svc, created) (svc', created + 1)

theorem applyPeer_visited (state : MountedLinks Rest × Nat) (p : ListedPeer) :
    ann.Visited state (ann.applyPeer isSocketAddr state p) := by
  obtain ⟨svc, created⟩ := state
  simp only [applyPeer]
  split
  · exact .idle
  rename_i id _
  split
  · exact .idle
  split
  · exact .idle
  split
  · exact .idle
  split
  · rename_i declared found
    have known : declared.neighborId ∈ ann.localLinks := by
      rw [neighborId_of_localCfgs found, ← mem_localCfgs]
      exact TreeMap.mem_iff_isSome_getElem?.mpr (by rw [found]; rfl)
    have addressed : { declared with neighborPeerAddr := p.peer.peerAddr }.neighborId
        ∈ ann.localLinks := known
    rcases svc.addLink_cases { declared with neighborPeerAddr := p.peer.peerAddr } p.builds with
      same | ⟨absent, mounted⟩
    · rw [same]
      exact .idle
    · exact .declared addressed absent mounted
  · split
    · exact .idle
    rename_i room
    have room : created < maxSdnLinks := Nat.lt_of_not_le room
    rcases svc.addLink_cases (ann.sdnLink id p.peer) p.builds with same | ⟨absent, mounted⟩
    · rw [same]
      exact .failed room
    · exact .created room absent mounted

variable {state state' : MountedLinks Rest × Nat}

theorem Visited.keeps (visited : ann.Visited state state')
    (held : state.1.links[id]? = some cfg) : state'.1.links[id]? = some cfg := by
  have apart {svc : MountedLinks Rest} {new : LinkConfig Rest}
      (absent : new.neighborId ∉ svc.links) (held : svc.links[id]? = some cfg) :
      (svc.links.insert new.neighborId new)[id]? = some cfg := by
    have other : new.neighborId ≠ id := by
      rintro rfl
      exact absent (TreeMap.mem_iff_isSome_getElem?.mpr (by rw [held]; rfl))
    rw [TreeMap.getElem?_insert, if_neg (by simpa using other), held]
  cases visited with
  | declared known absent mounted => rw [mounted]; exact apart absent held
  | created room absent mounted => rw [mounted]; exact apart absent held
  | _ => exact held

def Counted (ann : SdnAnnouncer Rest) (state : MountedLinks Rest × Nat) : Prop :=
  (ann.undeclared state.1).card ≤ state.2 ∧ state.2 ≤ maxSdnLinks

theorem Visited.counted
    (visited : ann.Visited state state') (counted : ann.Counted state) : ann.Counted state' := by
  obtain ⟨links, bound⟩ := counted
  cases visited with
  | idle => exact ⟨links, bound⟩
  | @declared svc svc' created cfg known absent mounted =>
    have same : ann.undeclared svc' = ann.undeclared svc := by
      ext id
      rw [mem_undeclared, mem_undeclared, mounted, TreeMap.mem_insert, Std.compare_eq_iff_eq]
      constructor
      · rintro ⟨rfl | held, other⟩
        · exact absurd known other
        · exact ⟨held, other⟩
      · rintro ⟨held, other⟩
        exact ⟨.inr held, other⟩
    exact ⟨by rw [same]; exact links, bound⟩
  | failed room => exact ⟨Nat.le_succ_of_le links, room⟩
  | @created svc svc' created cfg room absent mounted =>
    have more : ann.undeclared svc' ⊆ insert cfg.neighborId (ann.undeclared svc) := by
      intro id
      rw [mem_undeclared, Finset.mem_insert, mem_undeclared, mounted, TreeMap.mem_insert,
        Std.compare_eq_iff_eq]
      rintro ⟨rfl | held, other⟩
      · exact .inl rfl
      · exact .inr ⟨held, other⟩
    have grown := (Finset.card_le_card more).trans (Finset.card_insert_le _ _)
    exact ⟨grown.trans (Nat.succ_le_succ links), room⟩

theorem prune_getElem? (id : UInt32) : (ann.prune svc peers).links[id]? =
      if id ∈ wanted peers ∨ id ∈ ann.localLinks then svc.links[id]? else none := by
  rw [prune, MountedLinks.foldl_removeLink_getElem?]
  by_cases held : id ∈ svc.links
  · by_cases keep : id ∈ wanted peers ∨ id ∈ ann.localLinks
    · have stays : ¬ (id ∉ wanted peers ∧ id ∉ ann.localLinks) := by tauto
      simp [stays]
    · have goes : id ∉ wanted peers ∧ id ∉ ann.localLinks := by tauto
      simp [goes]
  · have absent := TreeMap.getElem?_eq_none held
    simp [absent]

theorem mem_prune : id ∈ (ann.prune svc peers).links ↔
      id ∈ svc.links ∧ (id ∈ wanted peers ∨ id ∈ ann.localLinks) := by
  rw [TreeMap.mem_iff_isSome_getElem?, prune_getElem?]
  split <;> simp_all

def listed (ann : SdnAnnouncer Rest) (isSocketAddr : String → Bool) (svc : MountedLinks Rest)
    (peers : PeerList) : MountedLinks Rest × Nat :=
  peers.foldl (ann.applyPeer isSocketAddr) (svc, svc.linkCount - ann.localCfgs.size)

theorem applyPeers_eq :
    ann.applyPeers isSocketAddr svc peers = ann.prune (ann.listed isSocketAddr svc peers).1 peers :=
  rfl

theorem applyPeers_keeps_declared
    (declared : id ∈ ann.localLinks) (held : svc.links[id]? = some cfg) :
    (ann.applyPeers isSocketAddr svc peers).links[id]? = some cfg := by
  rw [applyPeers_eq, prune_getElem?, if_pos (.inr declared)]
  have step (state : MountedLinks Rest × Nat) (p : ListedPeer)
      (held : state.1.links[id]? = some cfg) (_ : True) :
      (ann.applyPeer isSocketAddr state p).1.links[id]? = some cfg :=
    (applyPeer_visited state p).keeps held
  exact (Follows.all _ peers).invariant step held

theorem applyPeers_undeclared_wanted : ann.undeclared (ann.applyPeers isSocketAddr svc peers) ⊆
      (wanted peers).toFinset \ ann.localLinks := by
  intro id
  rw [mem_undeclared, applyPeers_eq, mem_prune, Finset.mem_sdiff, mem_toFinset]
  rintro ⟨⟨-, named | declared⟩, other⟩
  · exact ⟨named, other⟩
  · exact absurd declared other

theorem applyPeers_bounded (bounded : (ann.undeclared svc).card ≤ maxSdnLinks)
    (countable : ann.Countable svc peers) :
    (ann.undeclared (ann.applyPeers isSocketAddr svc peers)).card ≤ maxSdnLinks := by
  rcases countable with mounted | short
  · have counted : ann.Counted (ann.listed isSocketAddr svc peers) := by
      have start : ann.Counted (svc, svc.linkCount - ann.localCfgs.size) := by
        rw [sdnCreated_eq mounted]
        exact ⟨le_rfl, bounded⟩
      exact (Follows.all _ peers).invariant
        (fun state p counted _ => (applyPeer_visited state p).counted counted) start
    have fewer : ann.undeclared (ann.applyPeers isSocketAddr svc peers) ⊆
        ann.undeclared (ann.listed isSocketAddr svc peers).1 := by
      intro id
      rw [mem_undeclared, mem_undeclared, applyPeers_eq, mem_prune]
      rintro ⟨⟨held, -⟩, other⟩
      exact ⟨held, other⟩
    exact (Finset.card_le_card fewer).trans (counted.1.trans counted.2)
  · exact (Finset.card_le_card applyPeers_undeclared_wanted).trans short

theorem boot_undeclared : ann.undeclared ann.boot = ∅ := by
  rw [Finset.eq_empty_iff_forall_notMem]
  intro id
  rw [mem_undeclared, boot, TreeMap.mem_ofList, localLinks, mem_toFinset]
  rintro ⟨held, other⟩
  simp only [map_map, contains_iff_mem, mem_map, mem_filter] at held other
  obtain ⟨l, ⟨member, -⟩, same⟩ := held
  exact other ⟨l, member, same⟩

/-- After each application that starts with every declared link mounted, or brings few ids. -/
theorem sdn_links_bounded (ann : SdnAnnouncer Rest) (isSocketAddr : String → Bool)
    (history : List PeerList) (last : PeerList)
    (countable : Follows (ann.applyPeers isSocketAddr) ann.Countable ann.boot (history ++ [last])) :
    let before := ann.run isSocketAddr history
    let after := ann.run isSocketAddr (history ++ [last])
    (ann.undeclared after).card ≤ maxSdnLinks ∧
      (∀ id ∈ ann.localLinks, ∀ cfg, before.links[id]? = some cfg → after.links[id]? = some cfg) ∧
      ∀ id ∈ after.links, id ∉ ann.localLinks → id ∈ wanted last := by
  intro before after
  have applied : after = ann.applyPeers isSocketAddr before last := by
    simp only [after, before, run, foldl_append, foldl_cons, foldl_nil]
  refine ⟨?_, ?_, ?_⟩
  · have start : (ann.undeclared ann.boot).card ≤ maxSdnLinks := by
      rw [boot_undeclared]
      exact Nat.zero_le _
    have step (svc : MountedLinks Rest) (peers : PeerList) := @applyPeers_bounded _ ann isSocketAddr svc peers
    exact countable.invariant step start
  · intro id declared cfg held
    rw [applied]
    exact applyPeers_keeps_declared declared held
  intro id held other
  rw [applied] at held
  have named := applyPeers_undeclared_wanted (mem_undeclared.mpr ⟨held, other⟩)
  exact mem_toFinset.mp (Finset.mem_sdiff.mp named).1

def sdnPeers (ids : List Nat) : PeerList :=
  ids.map fun id => ⟨⟨id.repr, "10.0.0.1:7000", "pqc", 256⟩, true⟩

def oneDeclared (addr : String) : SdnAnnouncer Unit :=
  let link := ⟨1, addr, .pqc, none, 256, none, none, ()⟩
  ⟨[link], link⟩

theorem sdn_links_bounded_mounted :
    let ann := oneDeclared "10.0.0.9:7000"
    (ann.undeclared (ann.run (fun _ => true) [sdnPeers [2, 3], sdnPeers (List.range' 1 70)])).card
      ≤ maxSdnLinks :=
  (sdn_links_bounded (oneDeclared "10.0.0.9:7000") (fun _ => true) [sdnPeers [2, 3]]
    (sdnPeers (List.range' 1 70)) (by decide +kernel)).1

/-- The declared link has no address and the SDN does not list it: one link too many is mounted. -/
theorem unmounted_link_uncounted :
    let ann := oneDeclared ""
    let lists := [sdnPeers (List.range' 2 64), sdnPeers (List.range' 2 65)]
    (ann.undeclared (ann.run (fun _ => true) lists)).card = maxSdnLinks + 1 := by
  decide +kernel

end SdnAnnouncer

end Dkms.Qkc
