import MonitoringPlug.Common.Severity
import MonitoringPlug.Lib.Numeral
import MonitoringPlug.Perfdata.Report

/-! `check_sockets`: the sockets that the files below `/proc/net` list are counted, and
one state is merged over the files that are looked at. -/
namespace MonitoringPlug.Check

open CText MonitoringPlug.Common MonitoringPlug.Utils MonitoringPlug.Args MonitoringPlug.Perfdata

/-- The files, in the order they are looked at. -/
inductive NetFile where
  | tcp
  | tcp6
  | udp
  | udp6
  | raw
  | raw6
deriving DecidableEq, Repr

def NetFile.name : NetFile → List Char
  | .tcp => "tcp".toList
  | .tcp6 => "tcp6".toList
  | .udp => "udp".toList
  | .udp6 => "udp6".toList
  | .raw => "raw".toList
  | .raw6 => "raw6".toList

/-- `AF_UNSPEC`, `AF_INET` and `AF_INET6`. -/
inductive Family where
  | unspec
  | inet
  | inet6
deriving DecidableEq, Repr

/-- The ports are of type `int`. -/
structure SocketOptions where
  tcpport : Int
  udpport : Int
  rawport : Int
  ipv : Family
  tcp_int : tcpport < 2 ^ 31
  udp_int : udpport < 2 ^ 31
  raw_int : rawport < 2 ^ 31

/-- How the program ends. A NULL pointer that is read is `undefined`. -/
inductive SocketsEnd where
  | exit (status : Status) (message : List Char) (perfdata : Option (List Char))
  | undefined
deriving DecidableEq

/-- The variables of `main` and the globals it changes. -/
structure SocketsState where
  status : Status
  output : Option (List Char)
  thresholds : Option Thresholds
  perfdata : Option (List Char)

/-- The number behind the second colon. Behind the last delimiter `strsep` leaves a NULL
pointer, which it then returns and `strtol` reads. -/
def localPort (buffer : List Char) : Option Int :=
  match (strsep ':' buffer).2 with
  | none => none
  | some next =>
      match (strsep ':' next).2 with
      | none => none
      | some next => some (strtol 16 (strsep ' ' next).1)

/-- The loop for at most so many characters as are left. -/
def countLoop (port : Int) : Nat → List Char → Int → Option Int
  | 0, _, count => some count
  | left + 1, input, count =>
      match fgets 256 input with
      | none => some count
      | some (buffer, input) =>
          if port > 0 then
            match localPort buffer with
            | none => none
            | some n => countLoop port left input (if port = n then count + 1 else count)
          else countLoop port left input (count + 1)

/-- The file as it was opened, if it could be. -/
def countSocket (filename : List Char) (input : Option (List Char)) (port : Int)
    (perfdata : Option (List Char)) : Except SocketsEnd Int :=
  match input with
  | none => .ok (-1)
  | some input =>
      match fgets 256 input with
      | none =>
          .error (.exit .warning ("Can't read ".toList ++ filename ++ ['.']) perfdata)
      | some (_, input) =>
          match countLoop port input.length input 0 with
          | none => .error .undefined
          | some count => .ok count

/-- Behind the count: the status of the file, and its performance data. -/
def judgeCount (label : List Char) (showPerfdata : Bool) (count : Int) (s : SocketsState) :
    Except SocketsEnd (Status × SocketsState) :=
  if count ≥ 0 then
    let lstatus := getStatus count s.thresholds
    if showPerfdata then
      match mpPerfdataInt label count [] s.thresholds showPerfdata s.perfdata with
      | none => .error .undefined
      | some reported =>
          .ok (lstatus, { s with thresholds := reported.threshold, perfdata := reported.perfdata })
    else .ok (lstatus, s)
  else .ok (.unknown, s)

def SocketsState.comment (s : SocketsState) (text : List Char) : SocketsState :=
  { s with output := mpStrcatComma s.output (some text) }

/-- The `switch` on the status of a file. -/
def mergeStatus (name : List Char) (lstatus : Status) (s : SocketsState) : SocketsState :=
  match lstatus with
  | .warning =>
      { s.comment (name ++ " warning".toList) with
        status := if s.status ≠ .critical then lstatus else s.status }
  | .critical => { s.comment (name ++ " critical".toList) with status := lstatus }
  | .unknown =>
      { s.comment ("Can't read ".toList ++ name ++ ['!']) with
        status := if s.status = .ok then lstatus else s.status }
  | _ => s

/-- The one for `tcp6` does not set a critical status. -/
def mergeTcp6 (lstatus : Status) (s : SocketsState) : SocketsState :=
  match lstatus with
  | .warning =>
      { s.comment "tcp6 warning".toList with
        status := if s.status ≠ .critical then lstatus else s.status }
  | .critical => s.comment "tcp6 critical".toList
  | .unknown =>
      { s.comment "Can't read tcp6!".toList with
        status := if s.status = .ok then lstatus else s.status }
  | _ => s

section Main

variable (fopen : NetFile → Option (List Char)) (showPerfdata : Bool)

/-- The block of a file, with the label of its performance data. -/
def checkFile (file : NetFile) (label : List Char) (port : Int)
    (merge : Status → SocketsState → SocketsState) (s : SocketsState) :
    Except SocketsEnd SocketsState := do
  let count ← countSocket ("/proc/net/".toList ++ file.name) (fopen file) port s.perfdata
  let (lstatus, s) ← judgeCount label showPerfdata count s
  .ok (merge lstatus s)

def checkTcp (port : Int) : SocketsState → Except SocketsEnd SocketsState :=
  checkFile fopen showPerfdata .tcp "tcp".toList port (mergeStatus "tcp".toList)

def checkTcp6 (port : Int) : SocketsState → Except SocketsEnd SocketsState :=
  checkFile fopen showPerfdata .tcp6 "tcp6".toList port mergeTcp6

def checkUdp (port : Int) : SocketsState → Except SocketsEnd SocketsState :=
  checkFile fopen showPerfdata .udp "udp".toList port (mergeStatus "udp".toList)

def checkUdp6 (port : Int) : SocketsState → Except SocketsEnd SocketsState :=
  checkFile fopen showPerfdata .udp6 "udp".toList port (mergeStatus "udp6".toList)

def checkRaw (port : Int) : SocketsState → Except SocketsEnd SocketsState :=
  checkFile fopen showPerfdata .raw "raw".toList port (mergeStatus "raw".toList)

def checkRaw6 (port : Int) : SocketsState → Except SocketsEnd SocketsState :=
  checkFile fopen showPerfdata .raw6 "raw6".toList port (mergeStatus "raw6".toList)

/-- The blocks of one protocol. -/
def checkProtocol (port : Int) (ipv : Family)
    (check check6 : Int → SocketsState → Except SocketsEnd SocketsState) (s : SocketsState) :
    Except SocketsEnd SocketsState :=
  if port ≥ 0 then do
    let s ← if ipv = .unspec ∨ ipv = .inet then check port s else .ok s
    if ipv = .unspec ∨ ipv = .inet6 then check6 port s else .ok s
  else .ok s

def checkFiles (options : SocketOptions) (s : SocketsState) : Except SocketsEnd SocketsState := do
  let s ← checkProtocol options.tcpport options.ipv (checkTcp fopen showPerfdata)
    (checkTcp6 fopen showPerfdata) s
  let s ← checkProtocol options.udpport options.ipv (checkUdp fopen showPerfdata)
    (checkUdp6 fopen showPerfdata) s
  checkProtocol options.rawport options.ipv (checkRaw fopen showPerfdata)
    (checkRaw6 fopen showPerfdata) s

def checkSockets (options : SocketOptions) (thresholds : Option Thresholds) : SocketsEnd :=
  let start := { status := .ok, output := none, thresholds := thresholds, perfdata := none }
  match checkFiles fopen showPerfdata options start with
  | .error result => result
  | .ok s =>
      let output := s.output.getD []
      match s.status with
      | .ok => .exit .ok "Everithing ok.".toList s.perfdata
      | .warning => .exit .warning output s.perfdata
      | .critical => .exit .critical output s.perfdata
      | .unknown => .exit .unknown output s.perfdata
      | .dependent => .exit .critical "You should never reach this point.".toList s.perfdata

end Main

/-- A line of such a file: the slot, the local address and port, and the rest. -/
structure SocketLine where
  slot : List Char
  address : List Char
  port : List Char
  rest : List Char
  slot_plain : ∀ c ∈ slot, c = ' ' ∨ c.isDigit = true
  address_hex : ∀ c ∈ address, (digitIn 16 c).isSome = true
  port_hex : ∀ c ∈ port, (digitIn 16 c).isSome = true
  rest_line : '\n' ∉ rest
  short : slot.length + address.length + port.length + rest.length + 4 ≤ 254

def SocketLine.text (line : SocketLine) : List Char :=
  line.slot ++ ':' :: ' ' :: (line.address ++ ':' :: (line.port ++ ' ' :: line.rest))

/-- The number of the local port. -/
def SocketLine.portNumber (line : SocketLine) : Nat :=
  Nat.ofDigits 16 (line.port.filterMap (digitIn 16)).reverse

/-- A header and a line for each socket, of 254 characters at most. -/
structure ProcFile where
  header : List Char
  sockets : List SocketLine
  header_line : '\n' ∉ header
  short : header.length ≤ 254

def linesText (lines : List SocketLine) : List Char :=
  lines.flatMap fun line => line.text ++ ['\n']

def ProcFile.text (file : ProcFile) : List Char := file.header ++ '\n' :: linesText file.sockets

/-- The sockets that are asked for: those of the port, or all for port 0. -/
def ProcFile.count (file : ProcFile) (port : Int) : Nat :=
  if port = 0 then file.sockets.length
  else (file.sockets.filter fun line => (line.portNumber : Int) = port).length

namespace NetFile

def port (options : SocketOptions) : NetFile → Int
  | .tcp | .tcp6 => options.tcpport
  | .udp | .udp6 => options.udpport
  | .raw | .raw6 => options.rawport

/-- The family whose sockets the file lists. -/
def family : NetFile → Family
  | .tcp | .udp | .raw => .inet
  | .tcp6 | .udp6 | .raw6 => .inet6

/-- The file is looked at. -/
def Selected (options : SocketOptions) (file : NetFile) : Prop :=
  file.port options ≥ 0 ∧ (options.ipv = .unspec ∨ options.ipv = file.family)

instance (options : SocketOptions) (file : NetFile) : Decidable (file.Selected options) :=
  inferInstanceAs (Decidable (_ ∧ _))

theorem port_int (options : SocketOptions) (file : NetFile) : file.port options < 2 ^ 31 := by
  cases file with
  | tcp | tcp6 => exact options.tcp_int
  | udp | udp6 => exact options.udp_int
  | raw | raw6 => exact options.raw_int

end NetFile

def NetFile.all : List NetFile := [.tcp, .tcp6] ++ ([.udp, .udp6] ++ [.raw, .raw6])

/-- The files that are looked at. -/
def checkedFiles (options : SocketOptions) : List NetFile :=
  NetFile.all.filter fun file => file.Selected options

section Count

theorem not_mem_hex {digits : List Char} {c : Char} (h : ∀ c ∈ digits, (digitIn 16 c).isSome = true)
    (hOther : digitIn 16 c = none) : c ∉ digits := by
  intro hMem
  have hSome := h c hMem
  rw [hOther] at hSome
  cases hSome

theorem not_mem_slot (line : SocketLine) {c : Char} (hSpace : c ≠ ' ')
    (hDigit : c.isDigit = false) : c ∉ line.slot := by
  intro hMem
  rcases line.slot_plain c hMem with hPlain | hPlain
  · exact hSpace hPlain
  · rw [hDigit] at hPlain
    cases hPlain

theorem localPort_line (line : SocketLine) :
    localPort (line.text ++ ['\n']) = some (strtol 16 line.port) := by
  have hSlot : ':' ∉ line.slot := not_mem_slot line (by decide) rfl
  have hAddress : ':' ∉ ' ' :: line.address := by
    rw [List.mem_cons, not_or]
    exact ⟨by decide, not_mem_hex line.address_hex (by decide)⟩
  have hPort : ' ' ∉ line.port := not_mem_hex line.port_hex (by decide)
  have hText : line.text ++ ['\n'] = line.slot ++ ':' :: ((' ' :: line.address) ++ ':' ::
      (line.port ++ ' ' :: (line.rest ++ ['\n']))) := by
    simp [SocketLine.text]
  rw [localPort, hText, strsep_append hSlot]
  simp only [strsep_append hAddress, strsep_append hPort]

/-- A port that was asked for is no clamped number. -/
theorem strtol_port (line : SocketLine) {port : Int} (h : port < 2 ^ 31) :
    port = strtol 16 line.port ↔ (line.portNumber : Int) = port := by
  rw [strtol_eq_clamp, strtolValue_hex line.port_hex, ← SocketLine.portNumber]
  omega

theorem text_length (line : SocketLine) : line.text.length ≤ 254 := by
  have hShort := line.short
  simp only [SocketLine.text, List.length_append, List.length_cons]
  omega

theorem newline_not_mem_text (line : SocketLine) : '\n' ∉ line.text := by
  have hSlot : '\n' ∉ line.slot := not_mem_slot line (by decide) rfl
  have hAddress : '\n' ∉ line.address := not_mem_hex line.address_hex (by decide)
  have hPort : '\n' ∉ line.port := not_mem_hex line.port_hex (by decide)
  simp [SocketLine.text, hSlot, hAddress, hPort, line.rest_line]

theorem countLoop_lines {port : Int} (hNonneg : 0 ≤ port) (hInt : port < 2 ^ 31)
    (lines : List SocketLine) (left : Nat) (count : Int)
    (hLeft : (linesText lines).length ≤ left) :
    countLoop port left (linesText lines) count =
      some (count + ((if port = 0 then lines.length
        else (lines.filter fun line => (line.portNumber : Int) = port).length : Nat) : Int)) := by
  induction lines generalizing left count with
  | nil =>
      have hNone : fgets 256 (linesText []) = none := rfl
      have hCount : countLoop port left (linesText []) count = some count := by
        cases left with
        | zero => rfl
        | succ left => rw [countLoop, hNone]
      rw [hCount]
      simp
  | cons line lines ih =>
      have hText : linesText (line :: lines) = line.text ++ '\n' :: linesText lines := by
        simp [linesText]
      rw [hText, List.length_append, List.length_cons] at hLeft
      obtain ⟨left, rfl⟩ : ∃ n, left = n + 1 := ⟨left - 1, by omega⟩
      have hShort := text_length line
      have hRead := fgets_line 256 (newline_not_mem_text line) (by omega) (linesText lines)
      rw [hText, countLoop, hRead]
      simp only [localPort_line]
      by_cases hZero : port = 0
      · rw [if_neg (by omega), ih left _ (by omega), if_pos hZero, if_pos hZero,
          List.length_cons]
        push_cast
        congr 1
        omega
      · rw [if_pos (by omega), ih left _ (by omega), if_neg hZero, if_neg hZero,
          List.filter_cons]
        simp only [strtol_port line hInt, decide_eq_true_eq]
        split_ifs with hPort
        · rw [List.length_cons]
          push_cast
          congr 1
          omega
        · rfl

theorem countSocket_file (filename : List Char) (file : Option ProcFile) {port : Int}
    (hNonneg : 0 ≤ port) (hInt : port < 2 ^ 31) (perfdata : Option (List Char)) :
    countSocket filename (file.map ProcFile.text) port perfdata =
      .ok (file.elim (-1) fun file => (file.count port : Int)) := by
  cases file with
  | none => rfl
  | some file =>
      have hShort := file.short
      have hRead := fgets_line 256 file.header_line (by omega) (linesText file.sockets)
      have hCount := countLoop_lines hNonneg hInt file.sockets (linesText file.sockets).length 0
        le_rfl
      rw [Option.map_some, countSocket, ProcFile.text]
      simp only [hRead, hCount, Int.zero_add]
      rfl

end Count

/-- The status of a file. -/
def fileStatus (files : NetFile → Option ProcFile) (options : SocketOptions)
    (thresholds : Option Thresholds) (file : NetFile) : Status :=
  (files file).elim .unknown fun f => getStatus (f.count (file.port options)) thresholds

/-- What a file leaves of the thresholds: showing the performance data of a file that can
be read resolves the percent bounds, with 0 as the whole. -/
def leftThresholds (files : NetFile → Option ProcFile) (showPerfdata : Bool) (file : NetFile)
    (thresholds : Option Thresholds) : Option Thresholds :=
  if showPerfdata ∧ (files file).isSome then mpPerfdataPercentResolv thresholds 0 else thresholds

/-- What a status adds to the state. -/
def merged (file : NetFile) (status : Status) : Status :=
  if file = .tcp6 ∧ status = .critical then .ok else status

/-- Every file with the thresholds it finds. -/
def foundThresholds (files : NetFile → Option ProcFile) (showPerfdata : Bool) :
    Option Thresholds → List NetFile → List (NetFile × Option Thresholds)
  | _, [] => []
  | thresholds, file :: rest =>
      (file, thresholds) ::
        foundThresholds files showPerfdata (leftThresholds files showPerfdata file thresholds) rest

section Blocks

variable (files : NetFile → Option ProcFile) (showPerfdata : Bool) (options : SocketOptions)

/-- The block of a file. -/
def blockOf : NetFile → Int → SocketsState → Except SocketsEnd SocketsState :=
  let fopen := fun file => (files file).map ProcFile.text
  fun
  | .tcp => checkTcp fopen showPerfdata
  | .tcp6 => checkTcp6 fopen showPerfdata
  | .udp => checkUdp fopen showPerfdata
  | .udp6 => checkUdp6 fopen showPerfdata
  | .raw => checkRaw fopen showPerfdata
  | .raw6 => checkRaw6 fopen showPerfdata

theorem fileStatus_le (thresholds : Option Thresholds) (file : NetFile) :
    fileStatus files options thresholds file ≤ .critical := by
  rw [fileStatus]
  cases files file with
  | none =>
      show Status.unknown ≤ .critical
      decide
  | some f =>
      rw [Option.elim_some]
      rcases getStatus_cases (f.count (file.port options)) thresholds with h | h | h <;>
        rw [h] <;> decide

theorem mergeStatus_status (name : List Char) {lstatus : Status} (s : SocketsState)
    (h : s.status ≤ .critical) (hFile : lstatus ≤ .critical) :
    (mergeStatus name lstatus s).status = max s.status lstatus := by
  cases lstatus with
  | ok => exact (max_ok _).symm
  | warning => exact (max_warning h).symm
  | critical => exact (max_critical h).symm
  | unknown => exact (max_unknown _).symm
  | dependent => exact absurd hFile (by decide)

theorem mergeTcp6_status {lstatus : Status} (s : SocketsState)
    (h : s.status ≤ .critical) (hFile : lstatus ≤ .critical) :
    (mergeTcp6 lstatus s).status = max s.status (merged .tcp6 lstatus) := by
  cases lstatus with
  | ok => exact (max_ok _).symm
  | warning => exact (max_warning h).symm
  | critical => exact (max_ok _).symm
  | unknown => exact (max_unknown _).symm
  | dependent => exact absurd hFile (by decide)

theorem mergeStatus_thresholds (name : List Char) (lstatus : Status) (s : SocketsState) :
    (mergeStatus name lstatus s).thresholds = s.thresholds := by
  cases lstatus <;> rfl

theorem mergeTcp6_thresholds (lstatus : Status) (s : SocketsState) :
    (mergeTcp6 lstatus s).thresholds = s.thresholds := by
  cases lstatus <;> rfl

/-- The status of a file is that of the thresholds it finds. -/
theorem judgeCount_spec (file : NetFile) (label : List Char) (s : SocketsState) :
    ∃ s', judgeCount label showPerfdata
        ((files file).elim (-1) fun f => (f.count (file.port options) : Int)) s =
        .ok (fileStatus files options s.thresholds file, s') ∧
      s'.status = s.status ∧
      s'.thresholds = leftThresholds files showPerfdata file s.thresholds := by
  rw [fileStatus, leftThresholds]
  cases files file with
  | none => exact ⟨s, rfl, rfl, by simp⟩
  | some f =>
      rw [judgeCount, Option.elim_some, if_pos (Int.natCast_nonneg _)]
      cases showPerfdata with
      | false => exact ⟨s, by simp, rfl, by simp⟩
      | true =>
          obtain ⟨reported, hReport, hThreshold⟩ := mpPerfdataInt2_threshold label []
            s.thresholds false false true s.perfdata (f.count (file.port options)) 0 0
          have hCall : mpPerfdataInt label (f.count (file.port options)) [] s.thresholds true
              s.perfdata = some reported := hReport
          refine ⟨{ s with thresholds := reported.threshold, perfdata := reported.perfdata },
            ?_, rfl, ?_⟩
          · simp only [if_true, hCall, Option.elim_some, Int.cast_natCast]
          · simpa using hThreshold

theorem checkFile_spec (file : NetFile) (label : List Char)
    (merge : Status → SocketsState → SocketsState) (s : SocketsState)
    (hPort : 0 ≤ file.port options) :
    ∃ s', checkFile (fun file => (files file).map ProcFile.text) showPerfdata file label
        (file.port options) merge s = .ok (merge (fileStatus files options s.thresholds file) s') ∧
      s'.status = s.status ∧
      s'.thresholds = leftThresholds files showPerfdata file s.thresholds := by
  obtain ⟨s', hJudge, hStatus, hThresholds⟩ := judgeCount_spec files showPerfdata options file
    label s
  refine ⟨s', ?_, hStatus, hThresholds⟩
  simp only [checkFile, countSocket_file _ _ hPort (file.port_int options)]
  show (judgeCount label showPerfdata _ s).bind _ = _
  rw [hJudge]
  rfl

theorem blockOf_spec (file : NetFile) (s : SocketsState) (hPort : 0 ≤ file.port options)
    (h : s.status ≤ .critical) :
    ∃ s', blockOf files showPerfdata file (file.port options) s = .ok s' ∧
      s'.status = max s.status (merged file (fileStatus files options s.thresholds file)) ∧
      s'.thresholds = leftThresholds files showPerfdata file s.thresholds := by
  have hLe := fileStatus_le files options s.thresholds file
  -- All but the block of `tcp6` merge alike.
  have hPlain : ∀ label name, file ≠ .tcp6 →
      ∃ s', checkFile (fun file => (files file).map ProcFile.text) showPerfdata file label
          (file.port options) (mergeStatus name) s = .ok s' ∧
        s'.status = max s.status (merged file (fileStatus files options s.thresholds file)) ∧
        s'.thresholds = leftThresholds files showPerfdata file s.thresholds := by
    intro label name hOther
    obtain ⟨s', hCheck, hStatus, hThresholds⟩ := checkFile_spec files showPerfdata options file
      label (mergeStatus name) s hPort
    refine ⟨_, hCheck, ?_, ?_⟩
    · rw [mergeStatus_status name s' (hStatus ▸ h) hLe, hStatus, merged,
        if_neg fun hTcp6 => hOther hTcp6.1]
    · rw [mergeStatus_thresholds, hThresholds]
  cases file with
  | tcp => exact hPlain _ _ (by decide)
  | udp => exact hPlain _ _ (by decide)
  | udp6 => exact hPlain _ _ (by decide)
  | raw => exact hPlain _ _ (by decide)
  | raw6 => exact hPlain _ _ (by decide)
  | tcp6 =>
      obtain ⟨s', hCheck, hStatus, hThresholds⟩ := checkFile_spec files showPerfdata options
        .tcp6 "tcp6".toList mergeTcp6 s hPort
      refine ⟨_, hCheck, ?_, ?_⟩
      · rw [mergeTcp6_status s' (hStatus ▸ h) hLe, hStatus]
      · rw [mergeTcp6_thresholds, hThresholds]

theorem merged_le {file : NetFile} {status : Status} (h : status ≤ .critical) :
    merged file status ≤ .critical := by
  rw [merged]
  split
  · decide
  · exact h

/-- The states that the files add, each with the thresholds it finds. -/
def addedStatuses (thresholds : Option Thresholds) (list : List NetFile) : List Status :=
  (foundThresholds files showPerfdata thresholds list).map fun (file, found) =>
    merged file (fileStatus files options found file)

theorem blocks_spec (list : List NetFile) (hPorts : ∀ file ∈ list, 0 ≤ file.port options)
    (s : SocketsState) (h : s.status ≤ .critical) :
    ∃ s', list.foldlM (fun s file => blockOf files showPerfdata file (file.port options) s) s =
        .ok s' ∧
      s'.status = max s.status
        (worst (addedStatuses files showPerfdata options s.thresholds list)) := by
  induction list generalizing s with
  | nil => exact ⟨s, rfl, (max_ok _).symm⟩
  | cons file list ih =>
      rw [List.forall_mem_cons] at hPorts
      obtain ⟨middle, hBlock, hStatus, hThresholds⟩ := blockOf_spec files showPerfdata options
        file s hPorts.1 h
      have hLe : middle.status ≤ .critical := by
        rw [hStatus]
        exact max_le h (merged_le (fileStatus_le files options s.thresholds file))
      obtain ⟨s', hRun, hWorst⟩ := ih hPorts.2 middle hLe
      refine ⟨s', ?_, ?_⟩
      · rw [List.foldlM_cons, hBlock]
        exact hRun
      · rw [hWorst, hStatus, hThresholds, max_assoc]
        rfl

theorem checkProtocol_eq (file file6 : NetFile) (hFamily : file.family = .inet)
    (hFamily6 : file6.family = .inet6) (hPort : file6.port options = file.port options)
    (s : SocketsState) :
    checkProtocol (file.port options) options.ipv (blockOf files showPerfdata file)
        (blockOf files showPerfdata file6) s =
      ([file, file6].filter fun file => file.Selected options).foldlM
        (fun s file => blockOf files showPerfdata file (file.port options) s) s := by
  have hEnd : ∀ run : Except SocketsEnd SocketsState, (run >>= fun s => .ok s) = run := bind_pure
  have hSkip : ∀ run : SocketsState → Except SocketsEnd SocketsState, (.ok s >>= run) = run s :=
    fun run => rfl
  have hNone : (.ok s : Except SocketsEnd SocketsState) = pure s := rfl
  by_cases hAsked : file.port options ≥ 0
  · cases hIpv : options.ipv <;>
      simp [checkProtocol, NetFile.Selected, hAsked, hIpv, hFamily, hFamily6, hPort, hEnd, hSkip]
  · simp [checkProtocol, NetFile.Selected, hAsked, hPort, hNone]

theorem checkFiles_eq (s : SocketsState) :
    checkFiles (fun file => (files file).map ProcFile.text) showPerfdata options s =
      (checkedFiles options).foldlM
        (fun s file => blockOf files showPerfdata file (file.port options) s) s := by
  rw [checkedFiles, NetFile.all, List.filter_append, List.filter_append, List.foldlM_append]
  simp only [List.foldlM_append,
    ← checkProtocol_eq files showPerfdata options .tcp .tcp6 rfl rfl rfl,
    ← checkProtocol_eq files showPerfdata options .udp .udp6 rfl rfl rfl,
    ← checkProtocol_eq files showPerfdata options .raw .raw6 rfl rfl rfl]
  rfl

/-- The exit state is the worst of what the files add. -/
theorem checkSockets_status (thresholds : Option Thresholds) :
    ∃ message perfdata,
      checkSockets (fun file => (files file).map ProcFile.text) showPerfdata options thresholds =
        .exit (worst (addedStatuses files showPerfdata options thresholds (checkedFiles options)))
          message perfdata := by
  have hPorts : ∀ file ∈ checkedFiles options, 0 ≤ file.port options := by
    intro file hMem
    have hSelected := of_decide_eq_true (List.mem_filter.mp hMem).2
    exact hSelected.1
  obtain ⟨s, hRun, hStatus⟩ := blocks_spec files showPerfdata options (checkedFiles options) hPorts
    { status := .ok, output := none, thresholds := thresholds, perfdata := none } (Status.ok_le _)
  rw [ok_max] at hStatus
  rw [checkSockets, checkFiles_eq, hRun, ← hStatus]
  cases hExit : s.status with
  | dependent =>
      have hLe : s.status ≤ .critical := by
        rw [hStatus]
        refine worst_le ?_
        rw [addedStatuses, List.forall_mem_map]
        intro entry _
        exact merged_le (fileStatus_le files options entry.2 entry.1)
      exact absurd (hExit ▸ hLe) (by decide)
  | _ =>
      simp only [hExit]
      exact ⟨_, _, rfl⟩

end Blocks

/-- The worst state of the files with the thresholds as they were given. -/
def worstFile (files : NetFile → Option ProcFile) (options : SocketOptions)
    (thresholds : Option Thresholds) : Status :=
  worst ((checkedFiles options).map (fileStatus files options thresholds))

/-- The files are judged with the thresholds they find as with the given ones, and what a
critical `tcp6` does not add another file does. -/
structure LosesNothing (files : NetFile → Option ProcFile) (showPerfdata : Bool)
    (options : SocketOptions) (thresholds : Option Thresholds) : Prop where
  critical : (∃ file ∈ checkedFiles options, fileStatus files options thresholds file = .critical) ↔
    ∃ entry ∈ foundThresholds files showPerfdata thresholds (checkedFiles options),
      entry.1 ≠ .tcp6 ∧ fileStatus files options entry.2 entry.1 = .critical
  warning :
    (∃ file ∈ checkedFiles options, fileStatus files options thresholds file = .critical) ∨
      ((∃ file ∈ checkedFiles options, fileStatus files options thresholds file = .warning) ↔
        ∃ entry ∈ foundThresholds files showPerfdata thresholds (checkedFiles options),
          fileStatus files options entry.2 entry.1 = .warning)

section Aggregation

variable (files : NetFile → Option ProcFile) (showPerfdata : Bool) (options : SocketOptions)
  (thresholds : Option Thresholds)

theorem foundThresholds_files (list : List NetFile) :
    (foundThresholds files showPerfdata thresholds list).map Prod.fst = list := by
  induction list generalizing thresholds with
  | nil => rfl
  | cons file list ih => rw [foundThresholds, List.map_cons, ih]

/-- Only a file that cannot be read is unknown, whatever the thresholds. -/
theorem fileStatus_unknown_iff (file : NetFile) :
    fileStatus files options thresholds file = .unknown ↔ files file = none := by
  rw [fileStatus]
  cases files file with
  | none => simp
  | some f =>
      rw [Option.elim_some]
      rcases getStatus_cases (f.count (file.port options)) thresholds with h | h | h <;> simp [h]

theorem merged_critical_iff {file : NetFile} {status : Status} :
    merged file status = .critical ↔ file ≠ .tcp6 ∧ status = .critical := by
  rw [merged]
  split_ifs with hTcp6
  · simp [hTcp6.1]
  · constructor
    · intro hCritical
      exact ⟨fun hFile => hTcp6 ⟨hFile, hCritical⟩, hCritical⟩
    · exact And.right

theorem merged_eq_iff {file : NetFile} {status other : Status} (hOk : other ≠ .ok)
    (hCritical : other ≠ .critical) : merged file status = other ↔ status = other := by
  rw [merged]
  split_ifs with hTcp6
  · rw [hTcp6.2]
    exact ⟨fun h => absurd h.symm hOk, fun h => absurd h.symm hCritical⟩
  · exact Iff.rfl

theorem worstFile_eq_iff :
    worst (addedStatuses files showPerfdata options thresholds (checkedFiles options)) =
        worstFile files options thresholds ↔
      LosesNothing files showPerfdata options thresholds := by
  have hAdded : ∀ status,
      status ∈ addedStatuses files showPerfdata options thresholds (checkedFiles options) ↔
        ∃ entry ∈ foundThresholds files showPerfdata thresholds (checkedFiles options),
          merged entry.1 (fileStatus files options entry.2 entry.1) = status := fun status =>
    List.mem_map
  have hGiven : ∀ status,
      status ∈ (checkedFiles options).map (fileStatus files options thresholds) ↔
        ∃ file ∈ checkedFiles options, fileStatus files options thresholds file = status :=
    fun status => List.mem_map
  have hUnknown :
      .unknown ∈ addedStatuses files showPerfdata options thresholds (checkedFiles options) ↔
        .unknown ∈ (checkedFiles options).map (fileStatus files options thresholds) := by
    rw [hAdded, hGiven]
    conv_rhs => rw [← foundThresholds_files files showPerfdata thresholds (checkedFiles options)]
    simp only [merged_eq_iff (by decide : Status.unknown ≠ .ok) (by decide), List.mem_map,
      fileStatus_unknown_iff, exists_exists_and_eq_and]
  rw [worstFile, worst_eq_worst_iff ?_ ?_ hUnknown]
  · simp only [hAdded, hGiven, merged_critical_iff,
      merged_eq_iff (by decide : Status.warning ≠ .ok) (by decide)]
    constructor
    · rintro ⟨hCritical, hWarning⟩
      exact ⟨hCritical, hWarning⟩
    · intro h
      exact ⟨h.critical, h.warning⟩
  · rw [addedStatuses, List.forall_mem_map]
    intro entry _
    exact merged_le (fileStatus_le files options entry.2 entry.1)
  · rw [List.forall_mem_map]
    intro file _
    exact fileStatus_le files options thresholds file

theorem foundThresholds_same (list : List NetFile)
    (h : showPerfdata = false ∨ mpPerfdataPercentResolv thresholds 0 = thresholds) :
    foundThresholds files showPerfdata thresholds list =
      list.map fun file => (file, thresholds) := by
  have hLeft : ∀ file, leftThresholds files showPerfdata file thresholds = thresholds := by
    intro file
    rw [leftThresholds]
    rcases h with hHidden | hAbsolute
    · rw [if_neg (by simp [hHidden])]
    · rw [hAbsolute, ite_self]
  induction list with
  | nil => rfl
  | cons file list ih => rw [foundThresholds, hLeft, ih, List.map_cons]

/-- Where no performance data is shown, or no bound is in percent, only a critical `tcp6`
can be lost. -/
theorem losesNothing_iff
    (h : showPerfdata = false ∨ mpPerfdataPercentResolv thresholds 0 = thresholds) :
    LosesNothing files showPerfdata options thresholds ↔
      (.tcp6 ∈ checkedFiles options → fileStatus files options thresholds .tcp6 = .critical →
        ∃ file ∈ checkedFiles options,
          file ≠ .tcp6 ∧ fileStatus files options thresholds file = .critical) := by
  have hFound := foundThresholds_same files showPerfdata thresholds (checkedFiles options) h
  constructor
  · intro hLoses hMem hTcp6
    have hOther := hLoses.critical.mp ⟨.tcp6, hMem, hTcp6⟩
    simpa only [hFound, List.mem_map, exists_exists_and_eq_and] using hOther
  · intro hOther
    refine ⟨?_, ?_⟩
    · rw [hFound]
      simp only [List.mem_map, exists_exists_and_eq_and]
      constructor
      · rintro ⟨file, hMem, hCritical⟩
        by_cases hTcp6 : file = .tcp6
        · rw [hTcp6] at hMem hCritical
          exact hOther hMem hCritical
        · exact ⟨file, hMem, hTcp6, hCritical⟩
      · rintro ⟨file, hMem, -, hCritical⟩
        exact ⟨file, hMem, hCritical⟩
    · right
      rw [hFound]
      simp only [List.mem_map, exists_exists_and_eq_and]

end Aggregation

/-- The exit status is the worst of the checked files exactly when none is lost. -/
theorem checkSockets_worst_iff (files : NetFile → Option ProcFile) (showPerfdata : Bool)
    (options : SocketOptions) (thresholds : Option Thresholds) :
    (∃ message perfdata,
      checkSockets (fun file => (files file).map ProcFile.text) showPerfdata options thresholds =
        .exit (worstFile files options thresholds) message perfdata) ↔
      LosesNothing files showPerfdata options thresholds := by
  obtain ⟨message, perfdata, hExit⟩ := checkSockets_status files showPerfdata options thresholds
  rw [← worstFile_eq_iff, hExit]
  constructor
  · rintro ⟨message', perfdata', hWorst⟩
    exact (SocketsEnd.exit.inj hWorst).1
  · intro hWorst
    rw [hWorst]
    exact ⟨message, perfdata, rfl⟩

theorem sshSlot_plain : ∀ c ∈ [' ', '0'], c = ' ' ∨ c.isDigit = true := by
  simp

theorem sshAddress_hex : ∀ c ∈ List.replicate 32 '0', (digitIn 16 c).isSome = true := by
  intro c hMem
  rw [List.eq_of_mem_replicate hMem]
  decide

theorem sshPort_hex : ∀ c ∈ ['0', '0', '1', '6'], (digitIn 16 c).isSome = true :=
  List.all_eq_true.mp (by decide)

theorem sshRest_line : '\n' ∉ ['0', 'A'] := by
  decide

theorem sshSocket_short :
    [' ', '0'].length + (List.replicate 32 '0').length + ['0', '0', '1', '6'].length +
      ['0', 'A'].length + 4 ≤ 254 := by
  decide

/-- A socket of port 22. -/
def sshSocket : SocketLine where
  slot := [' ', '0']
  address := List.replicate 32 '0'
  port := ['0', '0', '1', '6']
  rest := ['0', 'A']
  slot_plain := sshSlot_plain
  address_hex := sshAddress_hex
  port_hex := sshPort_hex
  rest_line := sshRest_line
  short := sshSocket_short

def sshFile : ProcFile where
  header := []
  sockets := [sshSocket]
  header_line := List.not_mem_nil
  short := Nat.zero_le 254

theorem sshPort_int : (22 : Int) < 2 ^ 31 := by
  decide

theorem noPort_int : (-1 : Int) < 2 ^ 31 := by
  decide

/-- `--tcp 22 -6`. -/
def sshOptions : SocketOptions where
  tcpport := 22
  udpport := -1
  rawport := -1
  ipv := .inet6
  tcp_int := sshPort_int
  udp_int := noPort_int
  raw_int := noPort_int

/-- `-c 0`. -/
def noneAllowed : Option Thresholds := some { warning := none, critical := some defaultRange }

/-- A critical count of IPv6 sockets exits with OK. -/
theorem checkSockets_loses_tcp6 :
    ¬ ∃ message perfdata,
      checkSockets (fun _ => some sshFile.text) false sshOptions noneAllowed =
        .exit (worstFile (fun _ => some sshFile) sshOptions noneAllowed) message perfdata := by
  obtain ⟨message, perfdata, hExit⟩ : ∃ message perfdata,
      checkSockets (fun _ => some sshFile.text) false sshOptions noneAllowed =
        .exit (worst (addedStatuses (fun _ => some sshFile) false sshOptions noneAllowed
          (checkedFiles sshOptions))) message perfdata :=
    checkSockets_status (fun _ => some sshFile) false sshOptions noneAllowed
  rintro ⟨message', perfdata', hWorst⟩
  rw [hExit] at hWorst
  have hStatus := (SocketsEnd.exit.inj hWorst).1
  revert hStatus
  decide +kernel

end MonitoringPlug.Check
