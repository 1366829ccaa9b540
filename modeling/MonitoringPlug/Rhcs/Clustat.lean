import MonitoringPlug.Lib.Rounds
import MonitoringPlug.Rhcs.Document

/-! The output of `clustat`. The handlers only use the counters of nodes and
services, which a parse sets to zero. -/
namespace MonitoringPlug.Rhcs

open CText CLoop CMemory

structure ClustatNode where
  name : Option (List Char)
  state : Nat
  rgmanager : Nat
  id : Nat
deriving DecidableEq

/-- `owner` and `last` point to a node by its index. -/
structure ClustatGroup where
  name : Option (List Char)
  state : Int
  owner : Option Nat
  last : Option Nat
deriving DecidableEq

/-- `rhcs_clustat`. `localNode` points to a node. -/
structure Clustat where
  name : Option (List Char)
  id : Int
  localNode : Option Nat
  node : Slots ClustatNode
  group : Slots ClustatGroup
deriving DecidableEq

/-- The structure under construction, with `nodes` and `services`. -/
structure ClustatState where
  nodes : Nat
  services : Nat
  clustat : Clustat

def emptyClustat : Clustat :=
  { name := none, id := 0, localNode := none, node := [], group := [] }

def clusterAttribute (clustat : Clustat) : List Char × List Char → Clustat
  | (key, value) =>
      if key = ['n', 'a', 'm', 'e'] then { clustat with name := some value }
      else if key = ['i', 'd'] then { clustat with id := (strtol 10 value).bmod (2 ^ 32) }
      else clustat

def nodeAttribute (node : ClustatNode) : List Char × List Char → ClustatNode
  | (key, value) =>
      if key = ['n', 'a', 'm', 'e'] then { node with name := some value }
      else if key = ['s', 't', 'a', 't', 'e'] then
        { node with state := toUnsigned 16 (strtol 10 value) }
      else if key = ['r', 'g', 'm', 'a', 'n', 'a', 'g', 'e', 'r'] then
        { node with rgmanager := toUnsigned 16 (strtol 10 value) }
      else if key = ['n', 'o', 'd', 'e', 'i', 'd'] then
        { node with id := toUnsigned 16 (strtol 16 value) }
      else node

def Clustat.nodeName (clustat : Clustat) (i : Nat) : Option (List Char) :=
  (clustat.node.deref i).bind ClustatNode.name

/-- The name is cut by `strsep` at a colon, and what is behind it is kept. -/
def groupAttribute (s : ClustatState) (group : ClustatGroup) :
    List Char × List Char → Option ClustatGroup
  | (key, value) =>
      if key = ['n', 'a', 'm', 'e'] then some { group with name := (strsep ':' value).2 }
      else if key = ['s', 't', 'a', 't', 'e'] then
        some { group with state := (strtol 10 value).bmod (2 ^ 32) }
      else if key = ['o', 'w', 'n', 'e', 'r'] then
        (lookupName s.clustat.nodeName value s.nodes none).map fun owner =>
          { group with owner := owner }
      else if key = ['l', 'a', 's', 't', '_', 'o', 'w', 'n', 'e', 'r'] then
        (lookupName s.clustat.nodeName value s.nodes group.last).map fun last =>
          { group with last := last }
      else some group

/-- The local node, which a node with `local="1"` becomes. -/
def localAttribute (s : ClustatState) (atts : Attributes) : Option Nat :=
  if (['l', 'o', 'c', 'a', 'l'], ['1']) ∈ atts then some s.nodes else s.clustat.localNode

def clustatStartElement (s : ClustatState) (name : List Char) (atts : Attributes) :
    Option ClustatState :=
  if name = ['c', 'l', 'u', 's', 't', 'e', 'r'] then
    some { s with clustat := atts.foldl clusterAttribute s.clustat }
  else if name = ['n', 'o', 'd', 'e'] then
    let node := atts.foldl nodeAttribute { name := none, state := 0, rgmanager := 0, id := 0 }
    some { s with
      nodes := s.nodes + 1
      clustat := { s.clustat with node := s.clustat.node.put s.nodes node
                                  localNode := localAttribute s atts } }
  else if name = ['g', 'r', 'o', 'u', 'p'] then
    (atts.foldlM (groupAttribute s) { name := none, state := 0, owner := none, last := none }).map
      fun group => { s with
        services := s.services + 1
        clustat := { s.clustat with group := s.clustat.group.put s.services group } }
  else some s

def clustatEvent (s : ClustatState) : Event → Option ClustatState
  | .start name atts => clustatStartElement s name atts
  | .stop _ => some s

/-- What the handlers make of a document, from counters at zero. -/
def clustatOf (doc : Document) : Option ClustatState :=
  doc.events.foldlM clustatEvent { nodes := 0, services := 0, clustat := emptyClustat }

/-- Both arrays are terminated. -/
structure Clustat.Initialised (clustat : Clustat) : Prop where
  node : clustat.node.Terminated
  group : clustat.group.Terminated

structure ClustatState.Invariant (s : ClustatState) : Prop where
  initialised : s.clustat.Initialised
  nodes : s.clustat.node = [] → s.nodes = 0
  services : s.clustat.group = [] → s.services = 0

theorem clusterAttribute_arrays (atts : Attributes) (clustat : Clustat) :
    (atts.foldl clusterAttribute clustat).node = clustat.node ∧
      (atts.foldl clusterAttribute clustat).group = clustat.group := by
  induction atts generalizing clustat with
  | nil => exact ⟨rfl, rfl⟩
  | cons att atts ih =>
      have hFirst : (clusterAttribute clustat att).node = clustat.node ∧
          (clusterAttribute clustat att).group = clustat.group := by
        unfold clusterAttribute
        split
        split_ifs
        · exact ⟨rfl, rfl⟩
        · exact ⟨rfl, rfl⟩
        · exact ⟨rfl, rfl⟩
      have hRest := ih (clusterAttribute clustat att)
      exact ⟨hRest.1.trans hFirst.1, hRest.2.trans hFirst.2⟩

theorem clustatEvent_invariant {s s' : ClustatState} {e : Event} (h : s.Invariant)
    (hEvent : clustatEvent s e = some s') : s'.Invariant := by
  cases e with
  | stop name =>
      cases hEvent
      exact h
  | start name atts =>
      simp only [clustatEvent, clustatStartElement] at hEvent
      split_ifs at hEvent
      · cases hEvent
        obtain ⟨hNode, hGroup⟩ := clusterAttribute_arrays atts s.clustat
        exact ⟨⟨hNode ▸ h.initialised.node, hGroup ▸ h.initialised.group⟩,
          fun hNil => h.nodes (hNode ▸ hNil), fun hNil => h.services (hGroup ▸ hNil)⟩
      · cases hEvent
        exact ⟨⟨h.initialised.node.put h.nodes, h.initialised.group⟩,
          fun hNil => absurd hNil Slots.put_ne_nil, h.services⟩
      · obtain ⟨group, _, rfl⟩ := Option.map_eq_some_iff.mp hEvent
        exact ⟨⟨h.initialised.node, h.initialised.group.put h.services⟩, h.nodes,
          fun hNil => absurd hNil Slots.put_ne_nil⟩
      · cases hEvent
        exact h

theorem clustatEvents_invariant (events : List Event) {s s' : ClustatState} (h : s.Invariant)
    (hEvents : events.foldlM clustatEvent s = some s') : s'.Invariant :=
  foldlM_invariant (fun _ _ _ => clustatEvent_invariant) h hEvents

theorem clustatOf_initialised {doc : Document} {s : ClustatState} (h : clustatOf doc = some s) :
    s.clustat.Initialised := by
  have hStart : ({ nodes := 0, services := 0, clustat := emptyClustat } :
      ClustatState).Invariant := ⟨⟨Or.inl rfl, Or.inl rfl⟩, fun _ => rfl, fun _ => rfl⟩
  exact (clustatEvents_invariant doc.events hStart h).initialised

end MonitoringPlug.Rhcs
