import MonitoringPlug.Lib.Rounds
import MonitoringPlug.Rhcs.Calls
import MonitoringPlug.Utils

/-! `check_clustat`: the loop over the groups, and what the two documents must say for
it to follow no NULL pointer. -/
namespace MonitoringPlug.Rhcs

open CLoop CMemory MonitoringPlug.Utils

/-- The variables of `main` that the loop changes. -/
structure Evaluation where
  servicesTotal : Nat
  servicesLocal : Nat
  servicesStopped : Nat
  servicesStarted : Nat
  servicesFailed : Nat
  foreign_ : Option (List Char)
  missing : Option (List Char)
deriving DecidableEq

/-- `localprio`, `ownerprio` and `bestprio`. -/
structure Priorities where
  localPrio : Int
  ownerPrio : Int
  bestPrio : Int

def intMax : Int := 2147483647

/-- The head of the loop body: the counters for the performance data. -/
def countGroup (clustat : Clustat) (group : ClustatGroup) (e : Evaluation) : Evaluation :=
  let e := { e with
    servicesTotal := e.servicesTotal + 1
    servicesLocal :=
      if group.owner = clustat.localNode then e.servicesLocal + 1 else e.servicesLocal }
  if group.state = 110 ∨ group.state = 111 ∨ group.state = 113 ∨ group.state = 119 then
    { e with servicesStopped := e.servicesStopped + 1 }
  else if group.state = 112 then { e with servicesStarted := e.servicesStarted + 1 }
  else { e with servicesFailed := e.servicesFailed + 1 }

/-- The search for the service of a group. `strcmp` reads both names; behind the array, or
when it is NULL, there is no result. -/
def findService (groupName : Option (List Char)) : Slots ConfService → Option (Option ConfService)
  | .points service :: rest => do
      let name ← service.name
      let wanted ← groupName
      if name = wanted then some (some service) else findService groupName rest
  | .null :: _ => some none
  | _ => none

/-- The failover domain of a group, as the array of its nodes, and `autostart`. -/
def domainOf (conf : Conf) (service : Option ConfService) :
    Option (Slots ConfFodomNode × Bool) :=
  match service with
  | none => some ([], true)
  | some service => do
      let id ← service.fodomain
      let fodomain ← conf.allocated[id]?
      some (fodomain.node, service.autostart)

/-- One node of the domain. The name of the local node is read, and that of the owner if
the group has one. A priority is an `unsigned int`. -/
def comparePriority (clustat : Clustat) (conf : Conf) (group : ClustatGroup) (prio : Priorities)
    (member : ConfFodomNode) : Option Priorities := do
  let node ← member.node
  let name ← conf.nodeName node
  let localNode ← clustat.localNode
  let localName ← clustat.nodeName localNode
  let priority := (member.priority : Int).bmod (2 ^ 32)
  let prio := if name = localName then { prio with localPrio := priority } else prio
  let prio ← match group.owner with
    | none => some prio
    | some owner => do
        let ownerName ← clustat.nodeName owner
        some (if name = ownerName then { prio with ownerPrio := priority } else prio)
  if member.priority < toUnsigned 32 prio.bestPrio then
    some { prio with bestPrio := priority }
  else some prio

/-- What is noted about a group whose service has a domain. -/
def noteGroup (clustat : Clustat) (group : ClustatGroup) (autostart : Bool) (prio : Priorities)
    (e : Evaluation) : Evaluation :=
  let e :=
    if group.owner = clustat.localNode ∧ prio.localPrio > prio.bestPrio then
      { e with foreign_ := mpStrcatComma e.foreign_ group.name }
    else e
  if group.owner ≠ clustat.localNode ∧ prio.localPrio < prio.ownerPrio then
    { e with missing := mpStrcatComma e.missing group.name }
  else if group.owner = none ∧ prio.localPrio = prio.bestPrio ∧ autostart = true then
    { e with missing := mpStrcatComma e.missing group.name }
  else e

/-- One round of the loop over the groups. `conf` is the pointer `parse_rhcs_conf`
returned. -/
def evaluateGroup (clustat : Clustat) (conf : Option Conf) (e : Evaluation)
    (group : ClustatGroup) : Option Evaluation := do
  let e := countGroup clustat group e
  let conf ← conf
  let service ← findService group.name conf.service
  let (fodomnode, autostart) ← domainOf conf service
  if fodomnode = [] then some e
  else
    let prio ← fodomnode.foldM (comparePriority clustat conf group)
      { localPrio := intMax, ownerPrio := intMax, bestPrio := intMax }
    some (noteGroup clustat group autostart prio e)

/-- What the loop leaves, or that `main` exits because `rgmanager` does not run. -/
inductive ClustatEnd where
  | notRunning
  | evaluated (e : Evaluation)

/-- `main` from the pointer `parse_rhcs_clustat` returned on, through the loop. -/
def evaluate (clustat : Option Clustat) (conf : Option Conf) : Option ClustatEnd := do
  let clustat ← clustat
  let localNode ← clustat.localNode
  let node ← clustat.node.deref localNode
  if node.rgmanager ≠ 1 then some .notRunning
  else
    let e ← clustat.group.foldM (evaluateGroup clustat conf)
      { servicesTotal := 0, servicesLocal := 0, servicesStopped := 0, servicesStarted := 0,
        servicesFailed := 0, foreign_ := none, missing := none }
    some (.evaluated e)

/-- What `parse_rhcs_clustat` can return: NULL, or the structure of a document. -/
def ParsedClustat (clustat : Option Clustat) : Prop :=
  ∀ c ∈ clustat, ∃ doc s, clustatOf doc = some s ∧ s.clustat = c

/-- What `parse_rhcs_conf` can return. `parse_rhcs_clustat` leaves the counters of the
failover domains at zero. -/
def ParsedConf (conf : Option Conf) : Prop :=
  ∀ c ∈ conf, ∃ doc s, parseRhcsConf .zero doc = some s ∧ s.conf = c

/-- The services up to the one of this name all have names; and so has the group, unless
there is no service. -/
def NamesReadable (groupName : Option (List Char)) (services : List ConfService) : Prop :=
  match groupName with
  | none => services = []
  | some name => ∀ service ∈ services.takeWhile (fun service => service.name ≠ some name),
      service.name ≠ none

/-- The service of this name. -/
def serviceOf (groupName : Option (List Char)) (services : List ConfService) :
    Option ConfService :=
  groupName.bind fun name => services.find? fun service => service.name = some name

/-- The node of the domain is a known one with a name, and so are the local node and the
owner of the group. -/
def MemberReadable (clustat : Clustat) (conf : Conf) (group : ClustatGroup)
    (member : ConfFodomNode) : Prop :=
  member.node.bind conf.nodeName ≠ none ∧ clustat.localNode.bind clustat.nodeName ≠ none ∧
    ∀ owner ∈ group.owner, clustat.nodeName owner ≠ none

/-- What a group asks of the configuration. -/
def GroupReadable (clustat : Clustat) (conf : Option Conf) (group : ClustatGroup) : Prop :=
  ∃ parsed ∈ conf, parsed.service ≠ [] ∧ NamesReadable group.name parsed.service.entries ∧
    ∀ service ∈ serviceOf group.name parsed.service.entries,
      ∃ id ∈ service.fodomain, ∃ fodomain ∈ parsed.allocated[id]?,
        ∀ member ∈ fodomain.node.entries, MemberReadable clustat parsed group member

/-- There is a local node; and if `rgmanager` runs on it there is a group, and each group
finds what it needs. -/
def Readable (clustat : Option Clustat) (conf : Option Conf) : Prop :=
  ∃ c ∈ clustat, ∃ node ∈ c.localNode.bind c.node.deref,
    node.rgmanager = 1 → c.group ≠ [] ∧ ∀ group ∈ c.group.entries, GroupReadable c conf group

theorem comparePriority_isSome_iff (clustat : Clustat) (conf : Conf) (group : ClustatGroup)
    (prio : Priorities) (member : ConfFodomNode) :
    (comparePriority clustat conf group prio member).isSome ↔
      MemberReadable clustat conf group member := by
  rw [comparePriority, MemberReadable]
  cases hNode : member.node.bind conf.nodeName with
  | none =>
      cases hMember : member.node with
      | none => simp
      | some node =>
          rw [hMember, Option.bind_some] at hNode
          simp [hNode]
  | some name =>
      obtain ⟨node, hMember, hName⟩ := Option.bind_eq_some_iff.mp hNode
      cases hLocal : clustat.localNode.bind clustat.nodeName with
      | none =>
          cases hLocalNode : clustat.localNode with
          | none => simp [hMember]
          | some localNode =>
              rw [hLocalNode, Option.bind_some] at hLocal
              simp [hMember, hLocal]
      | some localName =>
          obtain ⟨localNode, hLocalNode, hLocalName⟩ := Option.bind_eq_some_iff.mp hLocal
          cases hOwner : group.owner with
          | none =>
              simp only [hMember, hName, hLocalNode, hLocalName, Option.bind_eq_bind,
                Option.bind_some]
              split_ifs <;> simp
          | some owner =>
              cases hOwnerName : clustat.nodeName owner with
              | none => simp [hMember, hLocalNode, hOwnerName]
              | some ownerName =>
                  simp only [hMember, hName, hLocalNode, hLocalName, hOwnerName,
                    Option.bind_eq_bind, Option.bind_some]
                  split_ifs <;> simp [hOwnerName]

/-- The search ends well exactly if the names it compares can be read. -/
theorem findService_eq_some_iff (groupName : Option (List Char)) {services : Slots ConfService}
    (hTerminated : services.Terminated) (hSome : services ≠ [])
    (found : Option ConfService) :
    findService groupName services = some found ↔
      NamesReadable groupName services.entries ∧ found = serviceOf groupName services.entries := by
  induction services with
  | nil => exact absurd rfl hSome
  | cons first rest ih =>
      rcases hTerminated.cases hSome with ⟨behind, hSplit⟩ | ⟨service, behind, hSplit, hMore, hRest⟩
      · cases hSplit
        cases groupName with
        | none => simp [findService, NamesReadable, serviceOf, Slots.entries, eq_comm]
        | some wanted => simp [findService, NamesReadable, serviceOf, Slots.entries, eq_comm]
      · cases hSplit
        cases groupName with
        | none =>
            cases hName : service.name <;>
              simp [findService, NamesReadable, Slots.entries, hName]
        | some wanted =>
            have hTail := ih hRest hMore
            simp only [NamesReadable, serviceOf, Option.bind_some] at hTail ⊢
            cases hName : service.name with
            | none => simp [findService, Slots.entries, hName]
            | some name =>
                by_cases hSame : name = wanted
                · simp [findService, Slots.entries, hName, hSame, eq_comm]
                · rw [findService, Slots.entries]
                  simp only [hName, Option.bind_eq_bind, Option.bind_some, if_neg hSame, hTail]
                  rw [List.takeWhile_cons_of_pos (by simp [hName, hSame]),
                    List.find?_cons_of_neg (by simp [hName, hSame]), List.forall_mem_cons]
                  simp [hName]

theorem evaluateGroup_isSome_iff (clustat : Clustat) {conf : Option Conf}
    (hConf : ∀ parsed ∈ conf, parsed.Initialised) (e : Evaluation) (group : ClustatGroup) :
    (evaluateGroup clustat conf e group).isSome ↔ GroupReadable clustat conf group := by
  cases conf with
  | none => simp [evaluateGroup, GroupReadable]
  | some conf =>
      have hInit := hConf conf rfl
      simp only [evaluateGroup, GroupReadable, Option.bind_eq_bind, Option.bind_some,
        Option.mem_some_iff, exists_eq_left']
      by_cases hNone : conf.service = []
      · simp [hNone, findService]
      · have hFind := findService_eq_some_iff group.name hInit.service hNone
        cases hFound : findService group.name conf.service with
        | none =>
            have hNot : ¬NamesReadable group.name conf.service.entries := by
              intro hNames
              rw [(hFind _).mpr ⟨hNames, rfl⟩] at hFound
              cases hFound
            simp [hNot]
        | some service =>
            obtain ⟨hNames, hService⟩ := (hFind service).mp hFound
            rw [← hService]
            simp only [Option.bind_some, ne_eq, hNone, not_false_eq_true, hNames, true_and]
            cases service with
            | none => simp [domainOf]
            | some service =>
                simp only [domainOf, Option.mem_some_iff, forall_eq']
                cases hDomain : service.fodomain with
                | none => simp
                | some id =>
                    cases hAllocated : conf.allocated[id]? with
                    | none => simp [hAllocated]
                    | some fodomain =>
                        simp only [Option.bind_eq_bind, Option.bind_some, hAllocated,
                          Option.mem_some_iff, exists_eq_left']
                        have hMembers := hInit.members fodomain (List.mem_of_getElem? hAllocated)
                        by_cases hEmpty : fodomain.node = []
                        · simp [hEmpty, Slots.entries]
                        · rw [if_neg hEmpty, hMembers.foldM_eq hEmpty,
                            ← foldlM_isSome_iff (comparePriority_isSome_iff clustat conf group)
                              _ { localPrio := intMax, ownerPrio := intMax, bestPrio := intMax }]
                          cases List.foldlM (comparePriority clustat conf group) _ _ <;> simp

theorem ParsedClustat.initialised {clustat : Option Clustat} (h : ParsedClustat clustat) :
    ∀ c ∈ clustat, c.Initialised := by
  intro c hc
  obtain ⟨doc, s, hParse, rfl⟩ := h c hc
  exact clustatOf_initialised hParse

theorem ParsedConf.initialised {conf : Option Conf} (h : ParsedConf conf) :
    ∀ c ∈ conf, c.Initialised := by
  intro c hc
  obtain ⟨doc, s, hParse, rfl⟩ := h c hc
  exact parseRhcsConf_initialised hParse

/-- Whatever the parsers returned, the loop reads no NULL and nothing that was never
written exactly if the structures are readable. -/
theorem evaluate_isSome_iff {clustat : Option Clustat} {conf : Option Conf}
    (hClustat : ParsedClustat clustat) (hConf : ParsedConf conf) :
    (evaluate clustat conf).isSome ↔ Readable clustat conf := by
  cases clustat with
  | none => simp [evaluate, Readable]
  | some clustat =>
      have hInit := hClustat.initialised clustat rfl
      simp only [evaluate, Readable, Option.bind_eq_bind, Option.bind_some, Option.mem_some_iff,
        exists_eq_left']
      cases hLocal : clustat.localNode with
      | none => simp
      | some localNode =>
          simp only [Option.bind_some]
          cases hNode : clustat.node.deref localNode with
          | none => simp
          | some node =>
              simp only [Option.bind_some, Option.mem_some_iff, exists_eq_left']
              by_cases hRunning : node.rgmanager = 1
              · rw [if_neg (not_not.mpr hRunning)]
                simp only [hRunning, forall_const]
                by_cases hGroups : clustat.group = []
                · simp [hGroups, Slots.foldM_nil]
                · rw [hInit.group.foldM_eq hGroups,
                    ← foldlM_isSome_iff (evaluateGroup_isSome_iff clustat hConf.initialised)
                      _ { servicesTotal := 0, servicesLocal := 0, servicesStopped := 0,
                          servicesStarted := 0, servicesFailed := 0, foreign_ := none,
                          missing := none }]
                  simp only [ne_eq, hGroups, not_false_eq_true, true_and]
                  cases List.foldlM (evaluateGroup clustat conf) _ _ <;> simp
              · simp [hRunning]

theorem parsedClustat_clustatOf (doc : Document) :
    ParsedClustat ((clustatOf doc).map ClustatState.clustat) := by
  intro c hc
  obtain ⟨s, hParse, hSame⟩ := Option.map_eq_some_iff.mp hc
  exact ⟨doc, s, hParse, hSame⟩

theorem parsedConf_parseRhcsConf (doc : Document) :
    ParsedConf ((parseRhcsConf .zero doc).map ConfState.conf) := by
  intro c hc
  obtain ⟨s, hParse, hSame⟩ := Option.map_eq_some_iff.mp hc
  exact ⟨doc, s, hParse, hSame⟩

/-- The local node "a", on which `rgmanager` runs. -/
def localNodeAttributes : Attributes :=
  [(keyName, ['a']), (['l', 'o', 'c', 'a', 'l'], ['1']),
    (['r', 'g', 'm', 'a', 'n', 'a', 'g', 'e', 'r'], ['1'])]

/-- The group "service:w". -/
def webGroup : List Event :=
  [.start ['g', 'r', 'o', 'u', 'p'] [(keyName, ['s', 'e', 'r', 'v', 'i', 'c', 'e', ':', 'w'])],
    .stop ['g', 'r', 'o', 'u', 'p']]

/-- The status of a cluster with that node and these groups. -/
def statusEvents (groups : List Event) : List Event :=
  .start ['n', 'o', 'd', 'e'] localNodeAttributes :: ([] ++ .stop ['n', 'o', 'd', 'e'] :: groups)

def noGroupDocument : Document where
  events := statusEvents []
  balanced := Balanced.element _ _ Balanced.none Balanced.none

def webDocument : Document where
  events := statusEvents webGroup
  balanced := Balanced.element _ _ Balanced.none
    (@Balanced.element _ _ [] _ Balanced.none Balanced.none)

/-- The service "w" in the failover domain "d" of the node "a". -/
def webConfDocument : Document where
  events := [.start elementClusternode [(keyName, ['a'])], .stop elementClusternode,
    .start elementFailoverdomain [(keyName, ['d'])],
    .start elementFailoverdomainnode [(keyName, ['a'])], .stop elementFailoverdomainnode,
    .stop elementFailoverdomain,
    .start elementService [(keyName, ['w']), (keyDomain, ['d'])], .stop elementService]
  balanced := @Balanced.element _ _ [] _ Balanced.none
    (@Balanced.element _ _
      [.start elementFailoverdomainnode [(keyName, ['a'])], .stop elementFailoverdomainnode] _
      (@Balanced.element _ _ [] _ Balanced.none Balanced.none)
      (@Balanced.element _ _ [] _ Balanced.none Balanced.none))

theorem evaluate_isSome_iff_web :
    Readable ((clustatOf webDocument).map ClustatState.clustat)
      ((parseRhcsConf .zero webConfDocument).map ConfState.conf) := by
  apply (evaluate_isSome_iff (parsedClustat_clustatOf _) (parsedConf_parseRhcsConf _)).mp
  decide

/-- Without a group element the array of groups is NULL, and the loop reads its first
pointer. -/
theorem evaluate_no_group :
    ((clustatOf noGroupDocument).map ClustatState.clustat).isSome ∧
      ((parseRhcsConf .zero webConfDocument).map ConfState.conf).isSome ∧
      evaluate ((clustatOf noGroupDocument).map ClustatState.clustat)
        ((parseRhcsConf .zero webConfDocument).map ConfState.conf) = none := by
  exact ⟨rfl, rfl, rfl⟩

end MonitoringPlug.Rhcs
