import MonitoringPlug.Common
import MonitoringPlug.Curl.Webdav
import MonitoringPlug.Lib.Tokens
import MonitoringPlug.Perfdata.Report
import MonitoringPlug.Rhcs.Document
import MonitoringPlug.Snmp.Ups

/-! `check_libvirt_domain`: two flags tell the handlers whether an element is that of an
interface of the domain, whose traffic is then reported. -/
namespace MonitoringPlug.Libvirt

open CText Rounding
open MonitoringPlug.Common MonitoringPlug.Perfdata MonitoringPlug.Rhcs
open MonitoringPlug.Curl (mpArrayPush)
open MonitoringPlug.Snmp (mpSnprintf)

def devicesName : List Char := "devices".toList
def interfaceName : List Char := "interface".toList
def targetName : List Char := "target".toList
def devKey : List Char := "dev".toList

structure Interfaces where
  isDevices : Bool
  isInterface : Bool
  interface : List (List Char)

def Interfaces.start : Interfaces := ⟨false, false, []⟩

/-- The loop over the attributes. A name with a comma is cut there. -/
def pushDevs (interface : List (List Char)) (atts : Attributes) : List (List Char) :=
  atts.foldl (fun interface (key, value) =>
    if key = devKey then mpArrayPush interface value else interface) interface

def interfaceStartElement (s : Interfaces) (name : List Char) (atts : Attributes) : Interfaces :=
  if !s.isDevices && name ≠ devicesName then s
  else if !s.isInterface && name ≠ interfaceName then { s with isDevices := true }
  else
    { isDevices := true, isInterface := true
      interface := if name = targetName then pushDevs s.interface atts else s.interface }

def interfaceStopElement (s : Interfaces) (name : List Char) : Interfaces :=
  if !s.isDevices then s
  else if s.isInterface then
    if name = interfaceName then { s with isInterface := false } else s
  else if name = devicesName then { s with isDevices := false }
  else s

def interfaceEvent (s : Interfaces) : Event → Interfaces
  | .start name atts => interfaceStartElement s name atts
  | .stop name => interfaceStopElement s name

def interfacesOf (doc : Document) : List (List Char) :=
  (doc.events.foldl interfaceEvent Interfaces.start).interface

/-- An interface is open that is somewhere in the devices. -/
def inInterface : List (List Char) → Bool
  | [] => false
  | name :: path => name = interfaceName && path.contains devicesName || inInterface path

def devs (atts : Attributes) : List (List Char) :=
  atts.flatMap fun (key, value) => if key = devKey then tokens [','] value else []

/-- What the flags stand for, told by the path. -/
def interfaceDevs (v : Visit) : List (List Char) :=
  if v.name = targetName && inInterface v.path then devs v.atts else []

def documentDevs (doc : Document) : List (List Char) :=
  (visits [] doc.events).flatMap interfaceDevs

/-- No devices in devices, and no interface in an interface. -/
def Flat (seen : List Visit) : Prop :=
  ∀ v ∈ seen, (v.name = devicesName → devicesName ∉ v.path) ∧
    (v.name = interfaceName → interfaceName ∉ v.path)

section Flags

variable {path : List (List Char)} {seen : List Visit} {s : Interfaces} {name : List Char}
  {atts : Attributes}

theorem inInterface_devices (h : inInterface path = true) : devicesName ∈ path := by
  induction path with
  | nil => cases h
  | cons name path ih =>
      simp only [inInterface, Bool.or_eq_true, Bool.and_eq_true, List.contains_iff_mem] at h
      rcases h with ⟨-, hBehind⟩ | hInner
      · exact List.mem_cons_of_mem _ hBehind
      · exact List.mem_cons_of_mem _ (ih hInner)

theorem inInterface_interface (h : inInterface path = true) : interfaceName ∈ path := by
  induction path with
  | nil => cases h
  | cons name path ih =>
      simp only [inInterface, Bool.or_eq_true, Bool.and_eq_true, decide_eq_true_eq] at h
      rcases h with ⟨rfl, -⟩ | hInner
      · exact List.mem_cons_self
      · exact List.mem_cons_of_mem _ (ih hInner)

theorem inInterface_cons_of_ne (h : name ≠ interfaceName) :
    inInterface (name :: path) = inInterface path := by
  simp [inInterface, h]

theorem mpArrayPush_eq (array : List (List Char)) (obj : List Char) :
    mpArrayPush array obj = array ++ tokens [','] obj := by
  induction hLength : obj.length using Nat.strongRecOn generalizing array obj with
  | ind length ih =>
      rw [mpArrayPush, tokens_strsepAny, strsepAny_singleton]
      split
      · rename_i token hCut
        rw [hCut]
        rfl
      · rename_i token rest hCut
        have hShorter : rest.length < length := by
          rw [← hLength]
          rw [← strsepAny_singleton] at hCut
          exact strsepAny_shortens hCut
        rw [ih _ hShorter _ _ rfl, hCut]
        simp

theorem pushDevs_eq (interface : List (List Char)) (atts : Attributes) :
    pushDevs interface atts = interface ++ devs atts := by
  induction atts generalizing interface with
  | nil => simp [pushDevs, devs]
  | cons att atts ih =>
      rw [devs, List.flatMap_cons, ← devs, ← List.append_assoc, ← ih]
      by_cases hKey : att.1 = devKey <;> simp [pushDevs, hKey, mpArrayPush_eq]

@[simp] theorem devices_ne_interface : devicesName ≠ interfaceName := by decide
@[simp] theorem interface_ne_devices : interfaceName ≠ devicesName := by decide
@[simp] theorem target_ne_interface : targetName ≠ interfaceName := by decide
@[simp] theorem target_ne_devices : targetName ≠ devicesName := by decide

/-! What the handlers do to each of the fields. -/

theorem start_isDevices (s : Interfaces) (name : List Char) (atts : Attributes) :
    (interfaceStartElement s name atts).isDevices = (s.isDevices || name = devicesName) := by
  obtain ⟨isDevices, isInterface, interface⟩ := s
  by_cases hName : name = devicesName
  · cases isInterface <;> simp [interfaceStartElement, hName]
  · cases isDevices <;> cases isInterface <;> by_cases hInterface : name = interfaceName <;>
      simp [interfaceStartElement, hName, hInterface]

theorem start_isInterface (s : Interfaces) (name : List Char) (atts : Attributes) :
    (interfaceStartElement s name atts).isInterface =
      (s.isInterface || (name = interfaceName && s.isDevices)) := by
  obtain ⟨isDevices, isInterface, interface⟩ := s
  by_cases hName : name = interfaceName
  · cases isDevices <;> simp [interfaceStartElement, hName]
  · cases isDevices <;> cases isInterface <;> by_cases hDevices : name = devicesName <;>
      simp [interfaceStartElement, hName, hDevices]

theorem start_interface (s : Interfaces) (name : List Char) (atts : Attributes) :
    (interfaceStartElement s name atts).interface =
      if name = targetName && (s.isDevices && s.isInterface) then s.interface ++ devs atts
      else s.interface := by
  obtain ⟨isDevices, isInterface, interface⟩ := s
  by_cases hName : name = targetName
  · cases isDevices <;> cases isInterface <;>
      simp [interfaceStartElement, hName, pushDevs_eq]
  · simp only [interfaceStartElement, hName, decide_false, Bool.false_and, Bool.false_eq_true,
      if_false]
    split
    · rfl
    · split <;> rfl

theorem stop_isDevices (s : Interfaces) (name : List Char) :
    (interfaceStopElement s name).isDevices =
      (s.isDevices && (s.isInterface || name ≠ devicesName)) := by
  obtain ⟨isDevices, isInterface, interface⟩ := s
  cases isDevices <;> cases isInterface <;> by_cases hDevices : name = devicesName <;>
    by_cases hInterface : name = interfaceName <;> simp [interfaceStopElement, hDevices, hInterface]

theorem stop_isInterface (s : Interfaces) (name : List Char) :
    (interfaceStopElement s name).isInterface =
      (s.isInterface && !(s.isDevices && name = interfaceName)) := by
  obtain ⟨isDevices, isInterface, interface⟩ := s
  cases isDevices <;> cases isInterface <;> by_cases hDevices : name = devicesName <;>
    by_cases hInterface : name = interfaceName <;> simp [interfaceStopElement, hDevices, hInterface]

theorem stop_interface (s : Interfaces) (name : List Char) :
    (interfaceStopElement s name).interface = s.interface := by
  rw [interfaceStopElement]
  split
  · rfl
  · split
    · split <;> rfl
    · split <;> rfl

/-- What is collected is inside, whatever stands in the document. -/
structure Sound (path : List (List Char)) (seen : List Visit) (s : Interfaces) : Prop where
  isDevices : s.isDevices = true → devicesName ∈ path
  isInterface : s.isInterface = true → s.isDevices = true ∧ inInterface path = true
  interface : s.interface.Sublist (seen.flatMap interfaceDevs)

theorem Sound.start (h : Sound path seen s) (name : List Char) (atts : Attributes) :
    Sound (name :: path) (seen ++ [⟨path, name, atts⟩]) (interfaceStartElement s name atts) where
  isDevices hOpen := by
    rw [start_isDevices, Bool.or_eq_true, decide_eq_true_eq] at hOpen
    rcases hOpen with hBefore | hName
    · exact List.mem_cons_of_mem _ (h.isDevices hBefore)
    · exact hName ▸ List.mem_cons_self
  isInterface hOpen := by
    rw [start_isInterface, Bool.or_eq_true, Bool.and_eq_true, decide_eq_true_eq] at hOpen
    rw [start_isDevices]
    rcases hOpen with hBefore | ⟨rfl, hDevices⟩
    · obtain ⟨hDevices, hIn⟩ := h.isInterface hBefore
      simp [hDevices, inInterface, hIn]
    · simp [hDevices, inInterface, h.isDevices hDevices]
  interface := by
    rw [start_interface, List.flatMap_append]
    split
    · rename_i hTarget
      simp only [Bool.and_eq_true, decide_eq_true_eq] at hTarget
      obtain ⟨rfl, -, hOpen⟩ := hTarget
      refine h.interface.append ?_
      simp [interfaceDevs, (h.isInterface hOpen).2]
    · exact h.interface.trans (List.sublist_append_left _ _)

theorem Sound.stop (h : Sound (name :: path) seen s) :
    Sound path seen (interfaceStopElement s name) where
  isDevices hOpen := by
    rw [stop_isDevices] at hOpen
    simp only [ne_eq, decide_not, Bool.and_eq_true, Bool.or_eq_true, Bool.not_eq_true',
      decide_eq_false_iff_not] at hOpen
    obtain ⟨hDevices, hInterface | hName⟩ := hOpen
    · have hIn := (h.isInterface hInterface).2
      by_cases hName : name = interfaceName
      · subst hName
        exact (List.mem_cons.mp (inInterface_devices hIn)).resolve_left devices_ne_interface
      · rw [inInterface_cons_of_ne hName] at hIn
        exact inInterface_devices hIn
    · exact (List.mem_cons.mp (h.isDevices hDevices)).resolve_left (Ne.symm hName)
  isInterface hOpen := by
    rw [stop_isInterface] at hOpen
    simp only [Bool.and_eq_true, Bool.not_eq_true'] at hOpen
    obtain ⟨hInterface, hStays⟩ := hOpen
    obtain ⟨hDevices, hIn⟩ := h.isInterface hInterface
    rw [hDevices, Bool.true_and, decide_eq_false_iff_not] at hStays
    rw [stop_isDevices, hDevices, hInterface, ← inInterface_cons_of_ne hStays]
    exact ⟨rfl, hIn⟩
  interface := by
    rw [stop_interface]
    exact h.interface

/-- Without nesting the flags tell where the parser is. -/
structure Exact (path : List (List Char)) (seen : List Visit) (s : Interfaces) : Prop where
  devices : path.count devicesName ≤ 1
  interfaces : path.count interfaceName ≤ 1
  isDevices : s.isDevices = path.contains devicesName
  isInterface : s.isInterface = inInterface path
  interface : s.interface = seen.flatMap interfaceDevs

theorem Exact.start (h : Exact path seen s)
    (hDevices : name = devicesName → devicesName ∉ path)
    (hInterface : name = interfaceName → interfaceName ∉ path) (atts : Attributes) :
    Exact (name :: path) (seen ++ [⟨path, name, atts⟩]) (interfaceStartElement s name atts) := by
  have hCount (wanted : List Char) (hOne : path.count wanted ≤ 1)
      (hName : name = wanted → wanted ∉ path) : (name :: path).count wanted ≤ 1 := by
    by_cases hEq : name = wanted
    · subst hEq
      simp [List.count_eq_zero_of_not_mem (hName rfl)]
    · simpa [List.count_cons, hEq] using hOne
  refine ⟨hCount _ h.devices hDevices, hCount _ h.interfaces hInterface, ?_, ?_, ?_⟩
  · rw [start_isDevices, h.isDevices, Bool.eq_iff_iff]
    simp only [Bool.or_eq_true, decide_eq_true_eq, List.contains_iff_mem, List.mem_cons]
    exact or_comm.trans (or_congr_left eq_comm)
  · rw [start_isInterface, h.isInterface, h.isDevices, inInterface, Bool.or_comm]
  · rw [start_interface, h.isDevices, h.isInterface, List.flatMap_append, h.interface]
    have hBoth : (path.contains devicesName && inInterface path) = inInterface path := by
      rw [Bool.and_eq_right_iff_imp, List.contains_iff_mem]
      exact inInterface_devices
    rw [hBoth]
    simp only [List.flatMap_cons, List.flatMap_nil, List.append_nil, interfaceDevs]
    split <;> simp

theorem Exact.stop (h : Exact (name :: path) seen s) :
    Exact path seen (interfaceStopElement s name) := by
  have hCount (wanted : List Char) (hOne : (name :: path).count wanted ≤ 1) :
      path.count wanted ≤ 1 ∧ (name = wanted → wanted ∉ path) := by
    rw [List.count_cons] at hOne
    refine ⟨by omega, fun hName => ?_⟩
    rw [← List.count_eq_zero]
    simp only [hName, beq_self_eq_true, if_true] at hOne
    omega
  obtain ⟨hDevices, hNoDevices⟩ := hCount _ h.devices
  obtain ⟨hInterface, hNoInterface⟩ := hCount _ h.interfaces
  have hOutside (hPath : devicesName ∉ path) : inInterface path = false :=
    Bool.eq_false_iff.mpr fun hIn => hPath (inInterface_devices hIn)
  refine ⟨hDevices, hInterface, ?_, ?_, ?_⟩
  · rw [stop_isDevices, h.isDevices, h.isInterface]
    by_cases hName : name = devicesName
    · subst hName
      simp [inInterface, hNoDevices rfl, hOutside (hNoDevices rfl)]
    · simp [hName, Ne.symm hName]
  · rw [stop_isInterface, h.isDevices, h.isInterface]
    by_cases hName : name = interfaceName
    · subst hName
      have hNone : inInterface path = false :=
        Bool.eq_false_iff.mpr fun hIn => hNoInterface rfl (inInterface_interface hIn)
      simp [inInterface, hNone]
    · simp [inInterface_cons_of_ne hName, hName]
  · rw [stop_interface, h.interface]

end Flags

theorem interfacesOf_sublist (doc : Document) : (interfacesOf doc).Sublist (documentDevs doc) := by
  have hSound : Sound [] ([] ++ visits [] doc.events) (doc.events.foldl interfaceEvent .start) :=
    doc.balanced.related Sound (fun _ _ _ name atts h => h.start name atts)
      (fun _ _ _ _ h => h.stop) ⟨fun h => (by cases h), fun h => (by cases h), List.nil_sublist _⟩
  exact hSound.interface

theorem interfacesOf_flat (doc : Document) (hFlat : Flat (visits [] doc.events)) :
    interfacesOf doc = documentDevs doc := by
  have hExact : Flat ([] ++ visits [] doc.events) →
      Exact [] ([] ++ visits [] doc.events) (doc.events.foldl interfaceEvent .start) := by
    refine doc.balanced.related (fun path seen s => Flat seen → Exact path seen s)
      ?_ (fun _ _ _ _ h hFlat => (h hFlat).stop) fun _ => ⟨?_, ?_, rfl, rfl, rfl⟩
    · intro path seen s name atts h hSeen
      have hBefore : Flat seen := fun v hMem => hSeen v (List.mem_append_left _ hMem)
      obtain ⟨hDevices, hInterface⟩ :=
        hSeen _ (List.mem_append_right _ (List.mem_singleton.mpr rfl))
      exact (h hBefore).start hDevices hInterface atts
    · exact Nat.zero_le _
    · exact Nat.zero_le _
  exact (hExact hFlat).interface

/-- `virDomainState`. -/
inductive DomainState where
  | running
  | blocked
  | paused
  | shutdown
  | shutoff
  | crashed
  | other
deriving DecidableEq

/-- `virDomainInfo`, with `cpuTime` in nanoseconds. -/
structure DomainInfo where
  state : DomainState
  maxMem : Int
  memory : Int
  cpuTime : Nat

/-- `(float)info.cpuTime/1000000000`. The quotient is rounded where it is passed. -/
def DomainInfo.seconds (info : DomainInfo) : ℚ := binary32.round info.cpuTime / 1000000000

/-- What libvirt and the parser answer: the domain, its description (NULL, an error with its
line or the document) and the bytes that went in and out at a device. -/
structure Hypervisor where
  domain : Bool
  info : Option DomainInfo
  description : Option (Except (List Char × Int) Document)
  interfaceStats : List Char → Option (Int × Int)

def stateStatus : DomainState → Status
  | .running => .ok
  | _ => .critical

def stateText : DomainState → List Char
  | .running => " is running".toList
  | .blocked => " is blocked on resource".toList
  | .paused => " is paused by user".toList
  | .shutdown => " is being shut down".toList
  | .shutoff => " is shutt off".toList
  | .crashed => " is crashed".toList
  | .other => " is in unknown state.".toList

/-- The label and what is reported with it. An error without an exit is a fault. -/
def reportTraffic (showPerfdata : Bool) (label : List Char) (bytes : Int)
    (perfdata : Option (List Char)) : Except (Option Exit) (Option (List Char)) :=
  match mpSnprintf 127 label with
  | none => .error (some ⟨.critical, "snprintf failed!".toList, perfdata⟩)
  | some buf =>
      match mpPerfdataInt buf (bytes.tdiv 1024) ['k', 'B'] none showPerfdata perfdata with
      | none => .error none
      | some reported => .ok reported.perfdata

def rxSuffix : List Char := "_rx".toList
def txSuffix : List Char := "_tx".toList
def memoryLabel : List Char := "memory".toList
def cpuTimeLabel : List Char := "cpuTime".toList

/-- The pass for one interface. -/
def reportInterface (stats : List Char → Option (Int × Int)) (showPerfdata : Bool)
    (perfdata : Option (List Char)) (name : List Char) :
    Except (Option Exit) (Option (List Char)) :=
  match stats name with
  | none => .ok perfdata
  | some (rxBytes, txBytes) => do
      let perfdata ← reportTraffic showPerfdata (name ++ rxSuffix) rxBytes perfdata
      reportTraffic showPerfdata (name ++ txSuffix) txBytes perfdata

/-- `main` behind the connection. The message for a domain that is not found has an argument
in its format that is not given. -/
def checkLibvirtDomain (hypervisor : Hypervisor) (domainname : List Char) (showPerfdata : Bool) :
    Except (Option Exit) Exit :=
  if !hypervisor.domain then .error none
  else
    match hypervisor.info, hypervisor.description with
    | none, _ =>
        .error
          (some ⟨.critical, "Failed to get information for Domain ".toList ++ domainname, none⟩)
    | some _, none => .error none
    | some _, some (.error (message, line)) =>
        .error (some ⟨.unknown, message ++ " at line ".toList ++ formatLong line ++ ['\n'], none⟩)
    | some info, some (.ok doc) => do
        let perfdata ← (interfacesOf doc).foldlM
          (reportInterface hypervisor.interfaceStats showPerfdata) none
        let memory ← (mpPerfdataInt2 memoryLabel info.memory ['k', 'B'] none false 0 true
          info.maxMem showPerfdata perfdata).elim (.error none) .ok
        let cpuTime ← (mpPerfdataFloat cpuTimeLabel info.seconds ['s'] none showPerfdata
          memory.perfdata).elim (.error none) .ok
        .ok ⟨stateStatus info.state, domainname ++ stateText info.state, cpuTime.perfdata⟩

def trafficItem (label : List Char) (bytes : Int) : Item :=
  { label := label, value := bytes.tdiv 1024, unit := ['k', 'B']
    warn := none, crit := none, min := none, max := none }

/-- Two items for an interface of which there are statistics. -/
def trafficItems (stats : List Char → Option (Int × Int)) (name : List Char) : List Item :=
  match stats name with
  | none => []
  | some (rxBytes, txBytes) =>
      [trafficItem (name ++ rxSuffix) rxBytes, trafficItem (name ++ txSuffix) txBytes]

def memoryItem (info : DomainInfo) : Item :=
  { label := memoryLabel, value := info.memory, unit := ['k', 'B']
    warn := none, crit := none, min := none, max := some info.maxMem }

/-- The item of `cpuTime`. -/
def cpuTimeText (info : DomainInfo) : List Char :=
  let seconds := binary32.round info.seconds
  itemText cpuTimeLabel (formatFixed (if 9999 ≤ seconds then 0 else if seconds = 0 then 0 else 3)
    seconds) ['s'] (itemFields none none none)

section Report

variable {stats : List Char → Option (Int × Int)} {label name : List Char} {items : List Item}
  {names : List (List Char)}

theorem kilobytes_letters : ∀ c ∈ ['k', 'B'], isUnitChar c = true :=
  List.forall_mem_cons.mpr ⟨rfl, List.forall_mem_singleton.mpr rfl⟩

theorem reportTraffic_showing (h : label.length < 127) (bytes : Int) (items : List Item) :
    reportTraffic true label bytes (perfdataText items) =
      .ok (perfdataText (items ++ [trafficItem label bytes])) := by
  have hReport := mpPerfdataInt2_showing label (bytes.tdiv 1024) ⟨['k', 'B'], kilobytes_letters⟩
    none false 0 false 0 (perfdataText items)
  have hBuffer : mpSnprintf 127 label = some label := if_pos h
  have hReported : mpPerfdataInt label (bytes.tdiv 1024) ['k', 'B'] none true (perfdataText items) =
      _ := hReport
  rw [perfdataText_append, reportTraffic, hBuffer]
  dsimp only
  rw [hReported]
  rfl

theorem reportInterface_showing (h : (stats name).isSome → name.length < 124) :
    reportInterface stats true (perfdataText items) name =
      .ok (perfdataText (items ++ trafficItems stats name)) := by
  rw [reportInterface, trafficItems]
  cases hStats : stats name with
  | none => simp
  | some bytes =>
      obtain ⟨rxBytes, txBytes⟩ := bytes
      have hLength : name.length < 124 := h (by simp [hStats])
      have hRx : (name ++ rxSuffix).length < 127 := by
        rw [List.length_append, show rxSuffix.length = 3 from rfl]
        omega
      have hTx : (name ++ txSuffix).length < 127 := by
        rw [List.length_append, show txSuffix.length = 3 from rfl]
        omega
      rw [List.append_cons]
      exact (congrArg (· >>= _) (reportTraffic_showing hRx rxBytes items)).trans
        (reportTraffic_showing hTx txBytes _)

theorem reportInterfaces_showing (items : List Item)
    (h : ∀ name ∈ names, (stats name).isSome → name.length < 124) :
    names.foldlM (reportInterface stats true) (perfdataText items) =
      .ok (perfdataText (items ++ names.flatMap (trafficItems stats))) := by
  induction names generalizing items with
  | nil => simp; rfl
  | cons name names ih =>
      obtain ⟨hName, hNames⟩ := List.forall_mem_cons.mp h
      rw [List.foldlM_cons, reportInterface_showing hName, List.flatMap_cons, ← List.append_assoc]
      exact ih _ hNames

end Report

theorem reportMemory_showing (info : DomainInfo) (items : List Item) :
    ∃ threshold, mpPerfdataInt2 memoryLabel info.memory ['k', 'B'] none false 0 true info.maxMem
      true (perfdataText items) = some ⟨perfdataText (items ++ [memoryItem info]), threshold⟩ := by
  rw [perfdataText_append]
  exact ⟨_, mpPerfdataInt2_showing memoryLabel info.memory ⟨['k', 'B'], kilobytes_letters⟩
    none false 0 true info.maxMem (perfdataText items)⟩

theorem reportCpuTime_showing (info : DomainInfo) (perfdata : Option (List Char)) :
    ∃ threshold, mpPerfdataFloat cpuTimeLabel info.seconds ['s'] none true perfdata =
      some ⟨some (joinItem perfdata (cpuTimeText info)), threshold⟩ := by
  have hUnit : ∀ c ∈ ['s'], isUnitChar c = true := List.forall_mem_singleton.mpr rfl
  have hSolid := solid_value_unit (isField_formatFixed
    (if 9999 ≤ binary32.round info.seconds then 0
      else if binary32.round info.seconds = 0 then 0 else 3) (binary32.round info.seconds))
    ⟨['s'], hUnit⟩
  have hNone : ∀ text ∈ (none : Option (List Char)), IsField text := by simp
  have hItem := appendItem_eq cpuTimeLabel hSolid none hNone hNone perfdata
  exact ⟨none, congrArg (Option.map fun text => (⟨some text, none⟩ : Reported)) hItem⟩

/-- For every description of a domain: the devices that are reported are, in order, some of
those that stand in an interface in the devices, and all of them where neither is nested. The
exit tells the state, with the traffic of each device that has statistics, the memory and the
time. -/
theorem checkLibvirtDomain_exit (doc : Document) (hypervisor : Hypervisor) (info : DomainInfo)
    (hDomain : hypervisor.domain = true) (hInfo : hypervisor.info = some info)
    (hDescription : hypervisor.description = some (.ok doc)) (domainname : List Char)
    (hNames : ∀ name ∈ interfacesOf doc,
      (hypervisor.interfaceStats name).isSome → name.length < 124) :
    (interfacesOf doc).Sublist (documentDevs doc) ∧
      (Flat (visits [] doc.events) → interfacesOf doc = documentDevs doc) ∧
      checkLibvirtDomain hypervisor domainname true = .ok
        ⟨stateStatus info.state, domainname ++ stateText info.state,
          some (joinItem (perfdataText ((interfacesOf doc).flatMap
            (trafficItems hypervisor.interfaceStats) ++ [memoryItem info]))
            (cpuTimeText info))⟩ := by
  refine ⟨interfacesOf_sublist doc, interfacesOf_flat doc, ?_⟩
  have hLoop :
      (interfacesOf doc).foldlM (reportInterface hypervisor.interfaceStats true) none = _ :=
    reportInterfaces_showing [] hNames
  obtain ⟨_, hMemory⟩ := reportMemory_showing info
    ((interfacesOf doc).flatMap (trafficItems hypervisor.interfaceStats))
  obtain ⟨_, hCpuTime⟩ := reportCpuTime_showing info (perfdataText
    ((interfacesOf doc).flatMap (trafficItems hypervisor.interfaceStats) ++ [memoryItem info]))
  rw [checkLibvirtDomain, hDomain, hInfo, hDescription]
  dsimp only
  rw [if_neg (by decide), hLoop]
  simp only [List.nil_append]
  simp only [bind, Except.bind, hMemory, Option.elim_some, hCpuTime]

/-- A disk and an interface: the device of the second is reported. -/
def sampleEvents : List Event :=
  .start devicesName [] :: (.start "disk".toList [] :: (.start targetName
      [(devKey, "vda".toList)] :: ([] ++ .stop targetName :: []) ++ .stop "disk".toList ::
    .start interfaceName [] :: (.start targetName [(devKey, "vnet0".toList)] ::
      ([] ++ .stop targetName :: []) ++ .stop interfaceName :: [])) ++ .stop devicesName :: [])

def sampleDocument : Document where
  events := sampleEvents
  balanced := .element _ _ (.element _ _ (.element _ _ .none .none)
    (.element _ _ (.element _ _ .none .none) .none)) .none

def sampleInfo : DomainInfo where
  state := .running
  maxMem := 2048
  memory := 1024
  cpuTime := 1500000000

def sampleHypervisor : Hypervisor where
  domain := true
  info := some sampleInfo
  description := some (.ok sampleDocument)
  interfaceStats name := if name = "vnet0".toList then some (4096, 1024) else none

theorem checkLibvirtDomain_exit_vnet0 :
    interfacesOf sampleDocument = ["vnet0".toList] ∧
      (checkLibvirtDomain sampleHypervisor "web".toList true).toOption.map Exit.status =
        some .ok := by
  have h := checkLibvirtDomain_exit sampleDocument sampleHypervisor sampleInfo rfl rfl rfl
    "web".toList (by decide +kernel)
  refine ⟨(h.2.1 ?_).trans (by decide +kernel), ?_⟩
  · unfold Flat
    decide +kernel
  · rw [h.2.2]
    rfl

end MonitoringPlug.Libvirt
