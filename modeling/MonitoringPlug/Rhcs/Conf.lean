import MonitoringPlug.Rhcs.Document

/-! The cluster configuration. Its handlers count in four variables of the
process, of which a parse sets two to zero. -/
namespace MonitoringPlug.Rhcs

open CText CMemory

/-- The counters at process scope. -/
structure Counters where
  nodes : Nat
  fodomains : Nat
  fodomainNodes : Nat
  services : Nat
deriving DecidableEq

def Counters.zero : Counters := { nodes := 0, fodomains := 0, fodomainNodes := 0, services := 0 }

structure ConfNode where
  name : Option (List Char)
  id : Nat
  votes : Nat
deriving DecidableEq

/-- `node` points to a cluster node by its index. -/
structure ConfFodomNode where
  node : Option Nat
  priority : Nat
deriving DecidableEq

structure ConfFodom where
  name : Option (List Char)
  failback : Bool
  ordered : Bool
  restricted : Bool
  node : Slots ConfFodomNode
deriving DecidableEq

inductive Recovery where
  | restart
  | relocate
deriving DecidableEq

/-- `fodomain` points to an allocated failover domain. -/
structure ConfService where
  name : Option (List Char)
  fodomain : Option Nat
  recovery : Recovery
  autostart : Bool
  exclusive : Bool
deriving DecidableEq

/-- `rhcs_conf`. The failover domains are kept in the order they were allocated, and
pointed to by their index in it. -/
structure Conf where
  name : Option (List Char)
  aliasName : Option (List Char)
  version : Nat
  node : Slots ConfNode
  fodomain : Slots Nat
  allocated : List ConfFodom
  service : Slots ConfService
deriving DecidableEq

structure ConfState where
  counters : Counters
  conf : Conf

def emptyConf : Conf :=
  { name := none, aliasName := none, version := 0, node := [], fodomain := [], allocated := [],
    service := [] }

def elementCluster : List Char := ['c', 'l', 'u', 's', 't', 'e', 'r']
def elementClusternode : List Char := elementCluster ++ ['n', 'o', 'd', 'e']
def elementFailoverdomain : List Char :=
  ['f', 'a', 'i', 'l', 'o', 'v', 'e', 'r', 'd', 'o', 'm', 'a', 'i', 'n']
def elementFailoverdomainnode : List Char := elementFailoverdomain ++ ['n', 'o', 'd', 'e']
def elementService : List Char := ['s', 'e', 'r', 'v', 'i', 'c', 'e']
def keyName : List Char := ['n', 'a', 'm', 'e']
def keyDomain : List Char := ['d', 'o', 'm', 'a', 'i', 'n']

def confAttribute (conf : Conf) : List Char × List Char → Conf
  | (key, value) =>
      if key = keyName then { conf with name := some value }
      else if key = ['a', 'l', 'i', 'a', 's'] then { conf with aliasName := some value }
      else if key = ['c', 'o', 'n', 'f', 'i', 'g', '_', 'v', 'e', 'r', 's', 'i', 'o', 'n'] then
        { conf with version := toUnsigned 32 (strtol 10 value) }
      else conf

def confNodeAttribute (node : ConfNode) : List Char × List Char → ConfNode
  | (key, value) =>
      if key = keyName then { node with name := some value }
      else if key = ['n', 'o', 'd', 'e', 'i', 'd'] then
        { node with id := toUnsigned 32 (strtol 10 value) }
      else if key = ['v', 'o', 't', 'e', 's'] then
        { node with votes := toUnsigned 32 (strtol 10 value) }
      else node

def fodomAttribute (fodom : ConfFodom) : List Char × List Char → ConfFodom
  | (key, value) =>
      if key = keyName then { fodom with name := some value }
      else if key = ['n', 'o', 'f', 'a', 'i', 'l', 'b', 'a', 'c', 'k'] then
        { fodom with failback := value = ['0'] }
      else if key = ['o', 'r', 'd', 'e', 'r', 'e', 'd'] then
        { fodom with ordered := value = ['1'] }
      else if key = ['r', 'e', 's', 't', 'r', 'i', 'c', 't', 'e', 'd'] then
        { fodom with restricted := value = ['1'] }
      else fodom

def Conf.nodeName (conf : Conf) (i : Nat) : Option (List Char) :=
  (conf.node.deref i).bind ConfNode.name

/-- The failover domain behind a pointer of the array. -/
def Conf.fodom (conf : Conf) (i : Nat) : Option ConfFodom :=
  (conf.fodomain.deref i).bind fun id => conf.allocated[id]?

def Conf.fodomName (conf : Conf) (i : Nat) : Option (List Char) :=
  (conf.fodom i).bind ConfFodom.name

def fodomNodeAttribute (s : ConfState) (member : ConfFodomNode) :
    List Char × List Char → Option ConfFodomNode
  | (key, value) =>
      if key = keyName then
        (lookupName s.conf.nodeName value s.counters.nodes member.node).map fun node =>
          { member with node := node }
      else if key = ['p', 'r', 'i', 'o', 'r', 'i', 't', 'y'] then
        some { member with priority := toUnsigned 32 (strtol 10 value) }
      else some member

/-- The lookup of a domain gives the pointer that is in the array. -/
def serviceDomain (s : ConfState) (value : List Char) (current : Option Nat) :
    Option (Option Nat) :=
  (List.range s.counters.fodomains).foldlM
    (fun found i => (s.conf.fodomName i).map fun name =>
      if value = name then s.conf.fodomain.deref i else found) current

def serviceAttribute (s : ConfState) (service : ConfService) :
    List Char × List Char → Option ConfService
  | (key, value) =>
      if key = keyName then some { service with name := some value }
      else if key = keyDomain then
        (serviceDomain s value service.fodomain).map fun fodomain =>
          { service with fodomain := fodomain }
      else if key = ['a', 'u', 't', 'o', 's', 't', 'a', 'r', 't'] then
        some { service with autostart := value = ['1'] }
      else if key = ['e', 'x', 'c', 'l', 'u', 's', 'i', 'v', 'e'] then
        some { service with exclusive := value = ['1'] }
      else if key = ['r', 'e', 'c', 'o', 'v', 'e', 'r', 'y'] then
        if value = ['r', 'e', 'l', 'o', 'c', 'a', 't', 'e'] then
          some { service with recovery := .relocate }
        else if value = ['r', 'e', 's', 't', 'a', 'r', 't'] then
          some { service with recovery := .restart }
        else some service
      else some service

def startCluster (s : ConfState) (atts : Attributes) : ConfState :=
  { s with conf := atts.foldl confAttribute s.conf }

def startClusternode (s : ConfState) (atts : Attributes) : ConfState :=
  let node := atts.foldl confNodeAttribute { name := none, id := 0, votes := 0 }
  { counters := { s.counters with nodes := s.counters.nodes + 1 }
    conf := { s.conf with node := s.conf.node.put s.counters.nodes node } }

/-- The counter of the domains only moves on when the element stops. -/
def startFailoverdomain (s : ConfState) (atts : Attributes) : ConfState :=
  let fodom := atts.foldl fodomAttribute
    { name := none, failback := false, ordered := false, restricted := false, node := [] }
  let id := s.conf.allocated.length
  { counters := { s.counters with fodomainNodes := 0 }
    conf := { s.conf with fodomain := s.conf.fodomain.put s.counters.fodomains id
                          allocated := s.conf.allocated ++ [fodom] } }

def startFailoverdomainnode (s : ConfState) (atts : Attributes) : Option ConfState := do
  let id ← s.conf.fodomain.deref s.counters.fodomains
  let fodom ← s.conf.allocated[id]?
  let member ← atts.foldlM (fodomNodeAttribute s) { node := none, priority := 0 }
  let fodom := { fodom with node := fodom.node.put s.counters.fodomainNodes member }
  some
    { counters := { s.counters with fodomainNodes := s.counters.fodomainNodes + 1 }
      conf := { s.conf with allocated := s.conf.allocated.set id fodom } }

/-- A service as `calloc` leaves it. -/
def newService : ConfService :=
  { name := none, fodomain := none, recovery := .restart, autostart := false, exclusive := false }

def startService (s : ConfState) (atts : Attributes) : Option ConfState :=
  (atts.foldlM (serviceAttribute s) newService).map fun service =>
    { counters := { s.counters with services := s.counters.services + 1 }
      conf := { s.conf with service := s.conf.service.put s.counters.services service } }

def confStartElement (s : ConfState) (name : List Char) (atts : Attributes) : Option ConfState :=
  if name = elementCluster then some (startCluster s atts)
  else if name = elementClusternode then some (startClusternode s atts)
  else if name = elementFailoverdomain then some (startFailoverdomain s atts)
  else if name = elementFailoverdomainnode then startFailoverdomainnode s atts
  else if name = elementService then startService s atts
  else some s

def confStopElement (s : ConfState) (name : List Char) : ConfState :=
  if name = elementFailoverdomain then
    { s with counters := { s.counters with fodomains := s.counters.fodomains + 1 } }
  else s

def confEvent (s : ConfState) : Event → Option ConfState
  | .start name atts => confStartElement s name atts
  | .stop name => some (confStopElement s name)

def confEvents (events : List Event) (s : ConfState) : Option ConfState :=
  events.foldlM confEvent s

/-- `parse_rhcs_conf` of a well-formed document. -/
def parseRhcsConf (g : Counters) (doc : Document) : Option ConfState :=
  confEvents doc.events { counters := { g with nodes := 0, services := 0 }, conf := emptyConf }

end MonitoringPlug.Rhcs
