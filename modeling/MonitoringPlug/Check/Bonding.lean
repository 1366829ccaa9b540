import MonitoringPlug.Lib.Reads
import MonitoringPlug.Lib.Rounds
import MonitoringPlug.Snmp.Ups

/-! `check_bonding`: the files of the bonding driver, and the state that is made of them. -/
namespace MonitoringPlug.Check

open CLoop CText MonitoringPlug.Common MonitoringPlug.Utils MonitoringPlug.Snmp

/-- `mp_malloc` clears nothing: a field that is `none` was never written. -/
structure BondingSlaveInfo where
  interface : List Char
  miiStatus : Option Bool
deriving DecidableEq

structure BondingInfo where
  version : Option (List Char)
  mode : Option (List Char)
  miiStatus : Option Bool
  slave : List BondingSlaveInfo
  slaves : Option Nat
deriving DecidableEq

/-- What `parseBond` starts from: only `slave` is set. -/
def newBondingInfo : BondingInfo :=
  { version := none, mode := none, miiStatus := none, slave := [], slaves := none }

/-- `info` and `count`. -/
structure BondParsing where
  info : BondingInfo
  count : Nat
deriving DecidableEq

def keyDriver : List Char := "Ethernet Channel Bonding Driver".toList
def keyMode : List Char := "Bonding Mode".toList
def keyMii : List Char := "MII Status".toList
def keySlave : List Char := "Slave Interface".toList

/-- `info` has an MII state of its own, and one for each slave. -/
def setMiiStatus (up : Bool) (s : BondParsing) : BondParsing :=
  if s.count ≠ 0 then
    { s with info := { s.info with
        slave := s.info.slave.modify (s.count - 1) fun slave =>
          { slave with miiStatus := some up } } }
  else { s with info := { s.info with miiStatus := some up } }

/-- `slaves` is an `unsigned short`. -/
def addSlave (interface : List Char) (s : BondParsing) : BondParsing :=
  { count := s.count + 1
    info := { s.info with
      slaves := some ((s.count + 1) % 2 ^ 16)
      slave := s.info.slave ++ [{ interface := interface, miiStatus := none }] } }

/-- The body of the loop. There is no result if `value++` steps over the NUL; where the
value is empty its last character is the blank in front of it. -/
def parseLine (s : BondParsing) (buffer : List Char) : Option BondParsing :=
  match strsep ':' buffer with
  | (_, none) => some s
  | (_, some []) => none
  | (key, some (_ :: value)) =>
      let value := value.dropLast
      if key = keyDriver then some { s with info := { s.info with version := some value } }
      else if key = keyMode then some { s with info := { s.info with mode := some value } }
      else if key = keyMii then some (setMiiStatus (value = "up".toList) s)
      else if key = keySlave then some (addSlave value s)
      else some s

/-- The content of the file, if it can be opened. -/
def parseBond (input : Option (List Char)) : Option (Option BondingInfo) :=
  match input with
  | none => some none
  | some input =>
      ((reads 256 input).foldlM parseLine { info := newBondingInfo, count := 0 }).map
        fun s => some s.info

/-- How the plugin ends. What is read without having been written is `undefined`. -/
inductive BondingEnd where
  | exit (status : Status)
  | undefined
deriving DecidableEq

/-- `status` and `output`. -/
structure BondingState where
  status : Status
  output : Option (List Char)
deriving DecidableEq

/-- Print into `buf` and append it. Where it does not fit the plugin exits. -/
def BondingState.append (s : BondingState) (status : Status) (text : List Char) :
    Except BondingEnd BondingState :=
  match mpSnprintf 64 text with
  | none => .error (.exit .critical)
  | some buf => .ok { status := status, output := mpStrcatComma s.output (some buf) }

/-- `%s`. NULL is printed as the C library does it. -/
def formatString : Option (List Char) → List Char
  | none => "(null)".toList
  | some s => s

/-- One round of the loop over the slaves, with `up` and `down`. -/
def sortSlave (info : BondingInfo) (lists : Option (List Char) × Option (List Char)) (j : Nat) :
    Option (Option (List Char) × Option (List Char)) := do
  let slave ← info.slave[j]?
  let up ← slave.miiStatus
  if up then some (mpStrcatComma lists.1 (some slave.interface), lists.2)
  else some (lists.1, mpStrcatComma lists.2 (some slave.interface))

def checkSlaves (bond : List Char) (info : BondingInfo) (s : BondingState) :
    Except BondingEnd BondingState :=
  match info.slaves with
  | none => .error .undefined
  | some slaves =>
      match (List.range slaves).foldlM (sortSlave info) (none, none) with
      | none => .error .undefined
      | some (up, some down) =>
          s.append (if s.status = .ok then .warning else s.status)
            (bond ++ " up (".toList ++ formatString up ++ ", down: ".toList ++ down ++ [')'])
      | some (up, none) => s.append s.status (bond ++ " up (".toList ++ formatString up ++ [')'])

/-- One round of the loop over the bonds, each with what its file holds. -/
def checkBond (s : BondingState) : List Char × Option (List Char) → Except BondingEnd BondingState
  | (bond, input) =>
      match parseBond input with
      | none => .error .undefined
      | some none => s.append .critical (bond ++ " not found".toList)
      | some (some info) =>
          match info.miiStatus with
          | none => .error .undefined
          | some true => checkSlaves bond info s
          | some false =>
              match info.mode with
              | none => .error .undefined
              | some mode => s.append .critical (bond ++ " down (".toList ++ mode ++ [')'])

/-- A format without conversions, which is printed without arguments. -/
def isPlain : List Char → Bool
  | [] => true
  | c :: rest =>
      if c = '%' then
        match rest with
        | [] => false
        | d :: rest => if d = '%' then isPlain rest else false
      else isPlain rest

/-- `main` from the list of the bonds on. The output is passed as the format. -/
def checkBonding (bonds : List (List Char × Option (List Char))) : BondingEnd :=
  match bonds.foldlM checkBond { status := .ok, output := none } with
  | .error bondingEnd => bondingEnd
  | .ok s =>
      match s.output with
      | none => .undefined
      | some output => if isPlain output = true then .exit s.status else .undefined

/-- A line of the kernel behind those that introduce the slaves. -/
inductive BondLine where
  | driver (version : List Char)
  | bondingMode (mode : List Char)
  | miiStatus (status : List Char)
  | other (text : List Char)

def BondLine.text : BondLine → List Char
  | .driver version => keyDriver ++ ':' :: ' ' :: version
  | .bondingMode mode => keyMode ++ ':' :: ' ' :: mode
  | .miiStatus status => keyMii ++ ':' :: ' ' :: status
  | .other text => text

/-- In front of the first colon stands none of the words the loop looks for, and
something is behind it. -/
def isPassed (piece : List Char) : Bool :=
  match strsep ':' piece with
  | (_, none) => true
  | (_, some []) => false
  | (key, some (_ :: _)) => key ∉ [keyDriver, keyMode, keyMii, keySlave]

/-- The lines that count fit into the buffer. The others may be longer, if the pieces
they are read in are none of those that count. -/
def BondLine.Valid (line : BondLine) : Prop :=
  '\n' ∉ line.text ∧
    match line with
    | .other text => ∀ piece ∈ pieces 255 text, isPassed piece = true
    | _ => line.text.length < 255

/-- The block of a slave. The kernel's names have at most 15 characters. -/
structure SlaveBlock where
  interface : List Char
  lines : List BondLine
  interface_line : '\n' ∉ interface
  interface_short : interface.length < 238
  lines_valid : ∀ line ∈ lines, line.Valid

structure BondFile where
  header : List BondLine
  slaves : List SlaveBlock
  header_valid : ∀ line ∈ header, line.Valid

def bondLines (lines : List BondLine) : List Char :=
  lines.flatMap fun line => line.text ++ ['\n']

def SlaveBlock.text (slave : SlaveBlock) : List Char :=
  keySlave ++ ':' :: ' ' :: slave.interface ++ '\n' :: bondLines slave.lines

def BondFile.text (file : BondFile) : List Char :=
  bondLines file.header ++ file.slaves.flatMap SlaveBlock.text

/-- What the last line of a kind says. The kernel writes one. -/
def lastOf {α : Type} (f : BondLine → Option α) (lines : List BondLine) : Option α :=
  (lines.filterMap f).getLast?

def BondLine.driver? : BondLine → Option (List Char)
  | .driver version => some version
  | _ => none

def BondLine.mode? : BondLine → Option (List Char)
  | .bondingMode mode => some mode
  | _ => none

def BondLine.up? : BondLine → Option Bool
  | .miiStatus status => some (status = "up".toList)
  | _ => none

def SlaveBlock.up? (slave : SlaveBlock) : Option Bool := lastOf BondLine.up? slave.lines

def BondFile.up? (file : BondFile) : Option Bool := lastOf BondLine.up? file.header

def BondFile.lines (file : BondFile) : List BondLine :=
  file.header ++ file.slaves.flatMap SlaveBlock.lines

def BondFile.mode? (file : BondFile) : Option (List Char) := lastOf BondLine.mode? file.lines

def SlaveBlock.info (slave : SlaveBlock) : BondingSlaveInfo :=
  { interface := slave.interface, miiStatus := slave.up? }

/-- What a file says, as far as the fields of the structure hold it. -/
def BondFile.info (file : BondFile) : BondingInfo where
  version := lastOf BondLine.driver? file.lines
  mode := file.mode?
  miiStatus := file.up?
  slave := file.slaves.map SlaveBlock.info
  slaves := if file.slaves = [] then none else some (file.slaves.length % 2 ^ 16)

section Parsing

/-- What a line does to the structure. -/
def BondLine.apply (s : BondParsing) : BondLine → BondParsing
  | .driver version => { s with info := { s.info with version := some version } }
  | .bondingMode mode => { s with info := { s.info with mode := some mode } }
  | .miiStatus status => setMiiStatus (status = "up".toList) s
  | .other _ => s

theorem strsep_keyed {key : List Char} (hKey : ':' ∉ key) (value : List Char) :
    strsep ':' ((key ++ ':' :: ' ' :: value) ++ ['\n']) =
      (key, some (' ' :: (value ++ ['\n']))) := by
  rw [List.append_assoc]
  exact strsep_append hKey _

theorem parseLine_passed (s : BondParsing) {piece : List Char} (h : isPassed piece = true) :
    parseLine s piece = some s := by
  unfold isPassed at h
  unfold parseLine
  split at h
  · rfl
  · cases h
  · simp only [List.mem_cons, List.not_mem_nil, or_false, not_or, decide_eq_true_eq] at h
    simp only [if_neg h.1, if_neg h.2.1, if_neg h.2.2.1, if_neg h.2.2.2]

theorem parseLine_text (s : BondParsing) (line : BondLine) (hOther : ∀ text, line ≠ .other text) :
    parseLine s (line.text ++ ['\n']) = some (line.apply s) := by
  cases line with
  | driver version =>
      have hKey : ':' ∉ keyDriver := by decide
      rw [BondLine.text, parseLine, strsep_keyed hKey]
      simp [BondLine.apply]
  | bondingMode mode =>
      have hDriver : keyMode ≠ keyDriver := by decide
      have hKey : ':' ∉ keyMode := by decide
      rw [BondLine.text, parseLine, strsep_keyed hKey]
      simp [BondLine.apply, hDriver]
  | miiStatus status =>
      have hDriver : keyMii ≠ keyDriver := by decide
      have hMode : keyMii ≠ keyMode := by decide
      have hKey : ':' ∉ keyMii := by decide
      rw [BondLine.text, parseLine, strsep_keyed hKey]
      simp [BondLine.apply, hDriver, hMode]
  | other text => exact absurd rfl (hOther text)

theorem parse_passed {s : BondParsing} {buffers : List (List Char)}
    (h : ∀ piece ∈ buffers, isPassed piece = true) : buffers.foldlM parseLine s = some s := by
  induction buffers with
  | nil => rfl
  | cons piece buffers ih =>
      rw [List.forall_mem_cons] at h
      rw [List.foldlM_cons, parseLine_passed s h.1]
      exact ih h.2

/-- A line, in however many pieces it is read. -/
theorem parse_line (s : BondParsing) {line : BondLine} (h : line.Valid) :
    (pieces 255 line.text).foldlM parseLine s = some (line.apply s) := by
  by_cases hOther : ∃ text, line = .other text
  · obtain ⟨text, rfl⟩ := hOther
    exact parse_passed h.2
  · have hCounts : ∀ text, line ≠ .other text := fun text hText => hOther ⟨text, hText⟩
    have hShort : line.text.length < 255 := by
      cases line with
      | other text => exact absurd rfl (hCounts text)
      | _ => exact h.2
    rw [pieces_short hShort, List.foldlM_cons, parseLine_text s line hCounts]
    rfl

theorem parse_lines {lines : List BondLine} (h : ∀ line ∈ lines, line.Valid) (s : BondParsing)
    (rest : List Char) :
    (reads 256 (bondLines lines ++ rest)).foldlM parseLine s =
      (reads 256 rest).foldlM parseLine (lines.foldl BondLine.apply s) := by
  induction lines generalizing s with
  | nil => rfl
  | cons line lines ih =>
      rw [List.forall_mem_cons] at h
      have hText : bondLines (line :: lines) ++ rest =
          line.text ++ '\n' :: (bondLines lines ++ rest) := by
        simp [bondLines]
      have hRoom : 0 < 255 := by decide
      have hRead := reads_line hRoom h.1.1 (bondLines lines ++ rest)
      rw [hText, hRead, List.foldlM_append, parse_line s h.1]
      exact ih h.2 _

theorem lastOf_cons {α : Type} (f : BondLine → Option α) (line : BondLine)
    (lines : List BondLine) : lastOf f (line :: lines) = (lastOf f lines).or (f line) := by
  rw [lastOf, lastOf, List.filterMap_cons]
  cases f line with
  | none => simp
  | some a => cases hMore : lines.filterMap f <;> simp [List.getLast?_cons]

theorem lastOf_append {α : Type} (f : BondLine → Option α) (front back : List BondLine) :
    lastOf f (front ++ back) = (lastOf f back).or (lastOf f front) := by
  rw [lastOf, List.filterMap_append, List.getLast?_append]
  rfl

theorem modify_last {α : Type} (f : α → α) (front : List α) (a : α) :
    (front ++ [a]).modify front.length f = front ++ [f a] := by
  induction front with
  | nil => rfl
  | cons first front ih => simp [ih]

/-- The lines of the bond, which no slave is in front of. -/
theorem apply_header (lines : List BondLine) (info : BondingInfo) :
    lines.foldl BondLine.apply { info := info, count := 0 } =
      { count := 0
        info := { info with
          version := (lastOf BondLine.driver? lines).or info.version
          mode := (lastOf BondLine.mode? lines).or info.mode
          miiStatus := (lastOf BondLine.up? lines).or info.miiStatus } } := by
  induction lines generalizing info with
  | nil => rfl
  | cons line lines ih =>
      rw [List.foldl_cons]
      cases line with
      | driver version => simp [BondLine.apply, ih, lastOf_cons, BondLine.driver?, BondLine.mode?,
          BondLine.up?]
      | bondingMode mode => simp [BondLine.apply, ih, lastOf_cons, BondLine.driver?,
          BondLine.mode?, BondLine.up?]
      | miiStatus status => simp [BondLine.apply, setMiiStatus, ih, lastOf_cons,
          BondLine.driver?, BondLine.mode?, BondLine.up?]
      | other text => simp [BondLine.apply, ih, lastOf_cons, BondLine.driver?, BondLine.mode?,
          BondLine.up?]

/-- The lines of a slave, which is the last one so far. -/
theorem apply_slave (lines : List BondLine) (info : BondingInfo) (front : List BondingSlaveInfo)
    (slave : BondingSlaveInfo) :
    lines.foldl BondLine.apply
        { info := { info with slave := front ++ [slave] }, count := front.length + 1 } =
      { count := front.length + 1
        info := { info with
          version := (lastOf BondLine.driver? lines).or info.version
          mode := (lastOf BondLine.mode? lines).or info.mode
          slave := front ++ [{ slave with
            miiStatus := (lastOf BondLine.up? lines).or slave.miiStatus }] } } := by
  induction lines generalizing info slave with
  | nil => rfl
  | cons line lines ih =>
      rw [List.foldl_cons]
      cases line with
      | driver version =>
          have hRest := ih { info with version := some version } slave
          simpa [BondLine.apply, lastOf_cons, BondLine.driver?, BondLine.mode?, BondLine.up?]
            using hRest
      | bondingMode mode =>
          have hRest := ih { info with mode := some mode } slave
          simpa [BondLine.apply, lastOf_cons, BondLine.driver?, BondLine.mode?, BondLine.up?]
            using hRest
      | miiStatus status =>
          have hRest := ih info { slave with miiStatus := some (status = "up".toList) }
          simpa [BondLine.apply, setMiiStatus, lastOf_cons, BondLine.driver?, BondLine.mode?,
            BondLine.up?, modify_last] using hRest
      | other text =>
          have hRest := ih info slave
          simpa [BondLine.apply, lastOf_cons, BondLine.driver?, BondLine.mode?, BondLine.up?]
            using hRest

/-- What is known behind the header and the blocks of some slaves. -/
def parsed (file : BondFile) (done : List SlaveBlock) : BondParsing where
  info := { file with slaves := done : BondFile }.info
  count := done.length

theorem parsed_header (file : BondFile) :
    file.header.foldl BondLine.apply { info := newBondingInfo, count := 0 } = parsed file [] := by
  rw [apply_header]
  simp [parsed, BondFile.info, BondFile.lines, BondFile.mode?, BondFile.up?, newBondingInfo]

/-- The block of one more slave. -/
theorem parsed_slave (file : BondFile) (done : List SlaveBlock) (slave : SlaveBlock) :
    slave.lines.foldl BondLine.apply (addSlave slave.interface (parsed file done)) =
      parsed file (done ++ [slave]) := by
  have hLength : (done.map SlaveBlock.info).length = done.length := List.length_map ..
  have hSlave := apply_slave slave.lines
    { (parsed file done).info with slaves := some ((done.length + 1) % 2 ^ 16) }
    (done.map SlaveBlock.info) { interface := slave.interface, miiStatus := none }
  rw [hLength] at hSlave
  apply hSlave.trans
  simp [parsed, BondFile.info, BondFile.lines, BondFile.mode?, BondFile.up?, SlaveBlock.info,
    SlaveBlock.up?, lastOf_append, Option.or_assoc]

theorem parseLine_slave (s : BondParsing) (interface : List Char) :
    parseLine s ((keySlave ++ ':' :: ' ' :: interface) ++ ['\n']) =
      some (addSlave interface s) := by
  have hKey : ':' ∉ keySlave := by decide
  have hDriver : keySlave ≠ keyDriver := by decide
  have hMode : keySlave ≠ keyMode := by decide
  have hMii : keySlave ≠ keyMii := by decide
  rw [parseLine, strsep_keyed hKey]
  simp [hDriver, hMode, hMii]

theorem parse_slaves (file : BondFile) (done slaves : List SlaveBlock) :
    (reads 256 (slaves.flatMap SlaveBlock.text)).foldlM parseLine (parsed file done) =
      some (parsed file (done ++ slaves)) := by
  induction slaves generalizing done with
  | nil => simp
  | cons slave slaves ih =>
      have hText : (slave :: slaves).flatMap SlaveBlock.text =
          (keySlave ++ ':' :: ' ' :: slave.interface) ++
            '\n' :: (bondLines slave.lines ++ slaves.flatMap SlaveBlock.text) := by
        simp [SlaveBlock.text]
      have hKey : '\n' ∉ keySlave := by decide
      have hLine : '\n' ∉ keySlave ++ ':' :: ' ' :: slave.interface := by
        simp [hKey, slave.interface_line]
      have hShort : (keySlave ++ ':' :: ' ' :: slave.interface).length < 255 := by
        have hInterface := slave.interface_short
        have hLength : keySlave.length = 15 := by decide
        simp only [List.length_append, List.length_cons, hLength]
        omega
      have hRoom : 0 < 255 := by decide
      rw [hText, reads_line hRoom hLine, pieces_short hShort, List.cons_append,
        List.foldlM_cons, parseLine_slave]
      show (reads 256 _).foldlM parseLine _ = _
      rw [parse_lines slave.lines_valid, parsed_slave, ih, List.append_assoc]
      rfl

/-- What `parseBond` returns is what the file says, and nothing else. -/
theorem parseBond_text (file : BondFile) :
    parseBond (some file.text) = some (some file.info) := by
  have hHeader := parse_lines file.header_valid { info := newBondingInfo, count := 0 }
    (file.slaves.flatMap SlaveBlock.text)
  rw [parsed_header, parse_slaves] at hHeader
  rw [parseBond, BondFile.text]
  simp only [hHeader]
  rfl

end Parsing

/-- A bond that is looked at, with its file. -/
structure Bond where
  name : List Char
  file : Option BondFile

def Bond.input (bond : Bond) : List Char × Option (List Char) :=
  (bond.name, bond.file.map BondFile.text)

/-- Its file is missing, or its MII state is not up. -/
def Bond.failed (bond : Bond) : Bool :=
  match bond.file with
  | none => true
  | some file => file.up? != some true

/-- Some slave is not up. -/
def Bond.degraded (bond : Bond) : Bool :=
  match bond.file with
  | none => false
  | some file => file.slaves.any fun slave => slave.up? != some true

/-- The state the files call for. -/
def overall (degraded : Bond → Bool) (bonds : List Bond) : Status :=
  if bonds.any Bond.failed then .critical
  else if bonds.any degraded then .warning
  else .ok

/-- The slaves that are counted: as many as an `unsigned short` holds of their number. -/
def BondFile.shown (file : BondFile) : List SlaveBlock :=
  file.slaves.take (file.slaves.length % 2 ^ 16)

def Bond.shownDegraded (bond : Bond) : Bool :=
  match bond.file with
  | none => false
  | some file => file.shown.any fun slave => slave.up? != some true

/-- The texts with commas between them. -/
def commaJoined (texts : List (List Char)) : Option (List Char) :=
  if texts = [] then none else some ([',', ' '].intercalate texts)

def namesUp (slaves : List SlaveBlock) : List (List Char) :=
  (slaves.filter fun slave => slave.up? == some true).map SlaveBlock.interface

def namesDown (slaves : List SlaveBlock) : List (List Char) :=
  (slaves.filter fun slave => slave.up? != some true).map SlaveBlock.interface

/-- The text for a bond. -/
def Bond.summary (bond : Bond) : List Char :=
  match bond.file with
  | none => bond.name ++ " not found".toList
  | some file =>
      if file.up? = some true then
        match commaJoined (namesDown file.shown) with
        | none =>
            bond.name ++ " up (".toList ++ formatString (commaJoined (namesUp file.shown)) ++ [')']
        | some down =>
            bond.name ++ " up (".toList ++ formatString (commaJoined (namesUp file.shown)) ++
              ", down: ".toList ++ down ++ [')']
      else bond.name ++ " down (".toList ++ formatString file.mode? ++ [')']

def Bond.Fits (bond : Bond) : Prop := bond.summary.length < 64

instance (bond : Bond) : Decidable bond.Fits := inferInstanceAs (Decidable (_ < _))

/-- The lines are there whose fields are read: the MII state of the bond, and then those
of the slaves, of which there is one, or the mode. -/
def Bond.Written (bond : Bond) : Prop :=
  match bond.file with
  | none => True
  | some file =>
      match file.up? with
      | none => False
      | some true => file.slaves ≠ [] ∧ ∀ slave ∈ file.shown, slave.up? ≠ none
      | some false => file.mode? ≠ none

/-- The bonds up to the first whose text does not fit. -/
def lookedAt : List Bond → List Bond
  | [] => []
  | bond :: bonds => bond :: if bond.Fits then lookedAt bonds else []

/-- What the files must be like for the state to follow them. -/
def Follows (bonds : List Bond) : Prop :=
  (∀ bond ∈ lookedAt bonds, bond.Written) ∧
    if ∀ bond ∈ bonds, bond.Fits then
      bonds ≠ [] ∧ (∀ bond ∈ bonds, isPlain bond.summary = true) ∧
        (bonds.any Bond.degraded = true →
          bonds.any Bond.failed = true ∨ bonds.any Bond.shownDegraded = true)
    else bonds.any Bond.failed = true

section Slaves

theorem commaJoined_append (texts : List (List Char)) (text : List Char) :
    mpStrcatComma (commaJoined texts) (some text) = commaJoined (texts ++ [text]) := by
  induction texts with
  | nil => simp [commaJoined, mpStrcatComma]
  | cons first texts ih =>
      cases texts with
      | nil => simp [commaJoined, mpStrcatComma, List.intercalate_cons_cons]
      | cons second texts =>
          simp only [commaJoined, mpStrcatComma, List.cons_append, reduceCtorEq, if_false,
            Option.some.injEq, List.intercalate_cons_cons, List.append_assoc] at ih ⊢
          rw [ih]

/-- The body of `sortSlave` behind the array. -/
def sortInto (lists : Option (List Char) × Option (List Char)) (slave : BondingSlaveInfo) :
    Option (Option (List Char) × Option (List Char)) :=
  slave.miiStatus.bind fun up =>
    if up then some (mpStrcatComma lists.1 (some slave.interface), lists.2)
    else some (lists.1, mpStrcatComma lists.2 (some slave.interface))

theorem sortInto_slaves (front slaves : List SlaveBlock) :
    (slaves.map SlaveBlock.info).foldlM sortInto
        (commaJoined (namesUp front), commaJoined (namesDown front)) =
      if ∀ slave ∈ slaves, slave.up? ≠ none then
        some (commaJoined (namesUp (front ++ slaves)), commaJoined (namesDown (front ++ slaves)))
      else none := by
  induction slaves generalizing front with
  | nil => simp
  | cons slave slaves ih =>
      have hRest := ih (front ++ [slave])
      rw [List.append_assoc, List.singleton_append] at hRest
      rw [List.map_cons, List.foldlM_cons]
      cases hUp : slave.up? with
      | none => simp [sortInto, SlaveBlock.info, hUp]
      | some up =>
          have hFirst : sortInto (commaJoined (namesUp front), commaJoined (namesDown front))
              slave.info = some (commaJoined (namesUp (front ++ [slave])),
                commaJoined (namesDown (front ++ [slave]))) := by
            cases up with
            | true => simp [sortInto, SlaveBlock.info, hUp, commaJoined_append, namesUp, namesDown]
            | false => simp [sortInto, SlaveBlock.info, hUp, commaJoined_append, namesUp, namesDown]
          rw [hFirst]
          show (slaves.map SlaveBlock.info).foldlM sortInto _ = _
          rw [hRest]
          simp [hUp]

/-- The loop over the slaves of a file. -/
theorem sortSlave_file (file : BondFile) :
    (List.range (file.slaves.length % 2 ^ 16)).foldlM (sortSlave file.info) (none, none) =
      if ∀ slave ∈ file.shown, slave.up? ≠ none then
        some (commaJoined (namesUp file.shown), commaJoined (namesDown file.shown))
      else none := by
  have hInside : file.slaves.length % 2 ^ 16 ≤ file.info.slave.length := by
    simp [BondFile.info, Nat.mod_le]
  have hRange := foldlM_range sortInto file.info.slave hInside (none, none)
  apply hRange.trans
  rw [BondFile.info, ← List.map_take]
  exact sortInto_slaves [] file.shown

end Slaves

section Bonds

/-- What is known behind some bonds. -/
def stateOf (bonds : List Bond) : BondingState where
  status := overall Bond.shownDegraded bonds
  output := commaJoined (bonds.map Bond.summary)

theorem append_summary (bonds : List Bond) (bond : Bond) {status : Status}
    (h : bond.Fits → status = overall Bond.shownDegraded (bonds ++ [bond])) :
    (stateOf bonds).append status bond.summary =
      if bond.Fits then .ok (stateOf (bonds ++ [bond])) else .error (.exit .critical) := by
  rw [BondingState.append, mpSnprintf]
  by_cases hFits : bond.Fits
  · have hRoom : bond.summary.length < 64 := hFits
    rw [if_pos hRoom, if_pos hFits, h hFits]
    simp [stateOf, commaJoined_append]
  · have hFull : ¬bond.summary.length < 64 := hFits
    rw [if_neg hFull, if_neg hFits]

theorem overall_append (degraded : Bond → Bool) (bonds : List Bond) (bond : Bond) :
    overall degraded (bonds ++ [bond]) =
      if bond.failed = true then .critical
      else if overall degraded bonds = .ok ∧ degraded bond = true then .warning
      else overall degraded bonds := by
  simp only [overall, List.any_append, List.any_cons, List.any_nil, Bool.or_false, Bool.or_eq_true]
  split_ifs <;> simp_all

theorem commaJoined_eq_none_iff (texts : List (List Char)) :
    commaJoined texts = none ↔ texts = [] := by
  simp [commaJoined]

theorem namesDown_eq_nil_iff (slaves : List SlaveBlock) :
    namesDown slaves = [] ↔ slaves.any (fun slave => slave.up? != some true) = false := by
  simp [namesDown]

/-- A bond that is up. -/
theorem checkSlaves_file (name : List Char) {file : BondFile} (hUp : file.up? = some true)
    (s : BondingState) :
    checkSlaves name file.info s =
      if file.slaves ≠ [] ∧ ∀ slave ∈ file.shown, slave.up? ≠ none then
        s.append (if s.status = .ok ∧ Bond.shownDegraded ⟨name, some file⟩ = true then .warning
          else s.status) (Bond.summary ⟨name, some file⟩)
      else .error .undefined := by
  by_cases hSlaves : file.slaves = []
  · have hInfo : file.info.slaves = none := if_pos hSlaves
    simp [checkSlaves, hInfo, hSlaves]
  · have hInfo : file.info.slaves = some (file.slaves.length % 2 ^ 16) := if_neg hSlaves
    simp only [checkSlaves, hInfo, sortSlave_file]
    by_cases hWritten : ∀ slave ∈ file.shown, slave.up? ≠ none
    · have hBoth : file.slaves ≠ [] ∧ ∀ slave ∈ file.shown, slave.up? ≠ none :=
        ⟨hSlaves, hWritten⟩
      rw [if_pos hWritten, if_pos hBoth, Bond.summary, Bond.shownDegraded]
      simp only [hUp, if_true]
      cases hDown : commaJoined (namesDown file.shown) with
      | none =>
          have hNone := (namesDown_eq_nil_iff _).mp ((commaJoined_eq_none_iff _).mp hDown)
          simp [hNone]
      | some down =>
          have hSome : (file.shown.any fun slave => slave.up? != some true) = true := by
            rw [← Bool.not_eq_false, ← namesDown_eq_nil_iff, ← commaJoined_eq_none_iff, hDown]
            exact Option.some_ne_none down
          simp [hSome]
    · have hNot : ¬(file.slaves ≠ [] ∧ ∀ slave ∈ file.shown, slave.up? ≠ none) :=
        fun hBoth => hWritten hBoth.2
      rw [if_neg hWritten, if_neg hNot]

/-- One round of the loop over the bonds. -/
theorem checkBond_written (bonds : List Bond) {bond : Bond} (h : bond.Written) :
    checkBond (stateOf bonds) bond.input =
      if bond.Fits then .ok (stateOf (bonds ++ [bond])) else .error (.exit .critical) := by
  obtain ⟨name, file⟩ := bond
  cases file with
  | none =>
      apply append_summary bonds { name := name, file := none }
      intro _
      rw [overall_append]
      rfl
  | some file =>
      simp only [checkBond, Bond.input, Option.map_some, parseBond_text]
      cases hUp : file.up? with
      | none => simp [Bond.Written, hUp] at h
      | some up =>
          have hInfo : file.info.miiStatus = some up := hUp
          simp only [hInfo]
          cases up with
          | true =>
              simp only [Bond.Written, hUp] at h
              rw [checkSlaves_file name hUp, if_pos h]
              apply append_summary
              intro _
              have hFailed : Bond.failed ⟨name, some file⟩ = false := by simp [Bond.failed, hUp]
              rw [overall_append, hFailed]
              rfl
          | false =>
              simp only [Bond.Written, hUp] at h
              obtain ⟨mode, hMode⟩ := Option.ne_none_iff_exists'.mp h
              have hInfoMode : file.info.mode = some mode := hMode
              have hText : name ++ " down (".toList ++ mode ++ [')'] =
                  Bond.summary ⟨name, some file⟩ := by
                simp [Bond.summary, hUp, hMode, formatString]
              simp only [hInfoMode, hText]
              apply append_summary
              intro _
              rw [overall_append]
              simp [Bond.failed, hUp]

theorem checkBond_not_written (s : BondingState) {bond : Bond} (h : ¬bond.Written) :
    checkBond s bond.input = .error .undefined := by
  obtain ⟨name, file⟩ := bond
  cases file with
  | none => exact absurd trivial h
  | some file =>
      simp only [checkBond, Bond.input, Option.map_some, parseBond_text]
      cases hUp : file.up? with
      | none =>
          have hInfo : file.info.miiStatus = none := hUp
          simp only [hInfo]
      | some up =>
          have hInfo : file.info.miiStatus = some up := hUp
          simp only [hInfo]
          cases up with
          | true =>
              simp only [Bond.Written, hUp] at h
              rw [checkSlaves_file name hUp, if_neg h]
          | false =>
              simp only [Bond.Written, hUp, not_not] at h
              have hMode : file.info.mode = none := h
              simp only [hMode]

theorem lookedAt_fits {bonds : List Bond} (h : ∀ bond ∈ bonds, bond.Fits) :
    lookedAt bonds = bonds := by
  induction bonds with
  | nil => rfl
  | cons bond bonds ih =>
      rw [List.forall_mem_cons] at h
      rw [lookedAt, if_pos h.1, ih h.2]

theorem run_fits (front : List Bond) {bonds : List Bond} (hWritten : ∀ bond ∈ bonds, bond.Written)
    (hFits : ∀ bond ∈ bonds, bond.Fits) :
    (bonds.map Bond.input).foldlM checkBond (stateOf front) = .ok (stateOf (front ++ bonds)) := by
  induction bonds generalizing front with
  | nil => simp [pure, Except.pure]
  | cons bond bonds ih =>
      rw [List.forall_mem_cons] at hWritten hFits
      have hRest := ih (front ++ [bond]) hWritten.2 hFits.2
      rw [List.append_assoc] at hRest
      rw [List.map_cons, List.foldlM_cons, checkBond_written front hWritten.1, if_pos hFits.1]
      exact hRest

/-- The plugin exits at the first bond whose text does not fit. -/
theorem run_overflows (front : List Bond) {bonds : List Bond}
    (hWritten : ∀ bond ∈ lookedAt bonds, bond.Written) (hFull : ¬∀ bond ∈ bonds, bond.Fits) :
    (bonds.map Bond.input).foldlM checkBond (stateOf front) = .error (.exit .critical) := by
  induction bonds generalizing front with
  | nil => exact absurd (List.forall_mem_nil _) hFull
  | cons bond bonds ih =>
      rw [lookedAt, List.forall_mem_cons] at hWritten
      rw [List.map_cons, List.foldlM_cons, checkBond_written front hWritten.1]
      by_cases hFits : bond.Fits
      · rw [if_pos hFits] at hWritten ⊢
        apply ih _ hWritten.2
        exact fun hRest => hFull (List.forall_mem_cons.mpr ⟨hFits, hRest⟩)
      · rw [if_neg hFits]
        rfl

theorem run_not_written (front : List Bond) {bonds : List Bond}
    (h : ¬∀ bond ∈ lookedAt bonds, bond.Written) :
    (bonds.map Bond.input).foldlM checkBond (stateOf front) = .error .undefined := by
  induction bonds generalizing front with
  | nil => exact absurd (List.forall_mem_nil _) h
  | cons bond bonds ih =>
      rw [List.map_cons, List.foldlM_cons]
      by_cases hWritten : bond.Written
      · by_cases hFits : bond.Fits
        · rw [checkBond_written front hWritten, if_pos hFits]
          rw [lookedAt, if_pos hFits, List.forall_mem_cons] at h
          exact ih _ fun hRest => h ⟨hWritten, hRest⟩
        · rw [lookedAt, if_neg hFits] at h
          exact absurd (List.forall_mem_singleton.mpr hWritten) h
      · rw [checkBond_not_written _ hWritten]
        rfl

theorem isPlain_cons {c : Char} (hc : c ≠ '%') (rest : List Char) :
    isPlain (c :: rest) = isPlain rest := by
  cases rest with
  | nil => simp [isPlain, hc]
  | cons d rest => rw [isPlain, if_neg hc]

theorem isPlain_append {c : Char} (hc : c ≠ '%') (front rest : List Char) :
    isPlain (front ++ c :: rest) = (isPlain front && isPlain rest) := by
  fun_induction isPlain front with
  | case1 => simpa using isPlain_cons hc rest
  | case2 => simp [isPlain, hc]
  | case3 front ih => simpa [isPlain] using ih
  | case4 d front hd => simp [isPlain, hd]
  | case5 a front ha ih => simpa [isPlain_cons ha] using ih

theorem commaJoined_plain {texts : List (List Char)} (hSome : texts ≠ []) :
    ∃ output, commaJoined texts = some output ∧
      (isPlain output = true ↔ ∀ text ∈ texts, isPlain text = true) := by
  induction texts using List.reverseRecOn with
  | nil => exact absurd rfl hSome
  | append_singleton texts text ih =>
      by_cases hNone : texts = []
      · exact ⟨text, by simp [commaJoined, hNone]⟩
      · obtain ⟨output, hOutput, hPlain⟩ := ih hNone
        have hComma : ',' ≠ '%' := by decide
        have hBlank : ' ' ≠ '%' := by decide
        rw [← commaJoined_append, hOutput]
        exists output ++ ',' :: ' ' :: text
        apply And.intro rfl
        rw [isPlain_append hComma, isPlain_cons hBlank, Bool.and_eq_true, hPlain]
        simp [or_imp, forall_and]

/-- Fewer slaves are counted than there are, but none is made up. -/
theorem degraded_of_shown {bonds : List Bond} (h : bonds.any Bond.shownDegraded = true) :
    bonds.any Bond.degraded = true := by
  obtain ⟨bond, hBond, hShown⟩ := List.any_eq_true.mp h
  apply List.any_eq_true.mpr
  refine ⟨bond, hBond, ?_⟩
  obtain ⟨name, file⟩ := bond
  cases file with
  | none => cases hShown
  | some file =>
      obtain ⟨slave, hSlave, hDown⟩ := List.any_eq_true.mp hShown
      exact List.any_eq_true.mpr ⟨slave, List.mem_of_mem_take hSlave, hDown⟩

theorem overall_shown_iff (bonds : List Bond) :
    overall Bond.shownDegraded bonds = overall Bond.degraded bonds ↔
      (bonds.any Bond.degraded = true →
        bonds.any Bond.failed = true ∨ bonds.any Bond.shownDegraded = true) := by
  rw [overall, overall]
  by_cases hFailed : bonds.any Bond.failed = true
  · simp [hFailed]
  · by_cases hShown : bonds.any Bond.shownDegraded = true
    · simp [hFailed, hShown, degraded_of_shown hShown]
    · by_cases hDegraded : bonds.any Bond.degraded = true
      · simp [hFailed, hShown, hDegraded]
      · simp [hFailed, hShown, hDegraded]

theorem overall_critical_iff (degraded : Bond → Bool) (bonds : List Bond) :
    overall degraded bonds = .critical ↔ bonds.any Bond.failed = true := by
  rw [overall]
  split_ifs with hFailed hDegraded
  · simp [hFailed]
  · simp [hFailed]
  · simp [hFailed]

/-- For all bonds, whatever their files say: the state is the one they call for exactly
under that condition. -/
theorem checkBonding_follows_iff (bonds : List Bond) :
    checkBonding (bonds.map Bond.input) = .exit (overall Bond.degraded bonds) ↔
      Follows bonds := by
  have hStart : ({ status := .ok, output := none } : BondingState) = stateOf [] := rfl
  rw [checkBonding, Follows, hStart]
  by_cases hWritten : ∀ bond ∈ lookedAt bonds, bond.Written
  · by_cases hFits : ∀ bond ∈ bonds, bond.Fits
    · rw [if_pos hFits]
      rw [lookedAt_fits hFits] at hWritten ⊢
      rw [run_fits [] hWritten hFits, List.nil_append, and_iff_right hWritten]
      by_cases hNone : bonds = []
      · simp [hNone, stateOf, commaJoined]
      · have hTexts : bonds.map Bond.summary ≠ [] := by simp [hNone]
        obtain ⟨output, hOutput, hPlain⟩ := commaJoined_plain hTexts
        have hState : (stateOf bonds).output = some output := hOutput
        rw [List.forall_mem_map] at hPlain
        simp only [hState, ← overall_shown_iff, ← hPlain]
        by_cases hFormat : isPlain output = true
        · simp [hFormat, hNone, stateOf]
        · simp [hFormat]
    · rw [run_overflows [] hWritten hFits, if_neg hFits]
      simp only [BondingEnd.exit.injEq]
      rw [eq_comm, overall_critical_iff]
      exact (and_iff_right hWritten).symm
  · rw [run_not_written [] hWritten]
    simp [hWritten]

end Bonds

def miiUp : BondLine := .miiStatus "up".toList

theorem miiUp_valid : ∀ line ∈ [miiUp], line.Valid := by
  intro line hLine
  rw [List.mem_singleton.mp hLine]
  have hShort : miiUp.text.length < 255 := by decide
  exact ⟨by decide, hShort⟩

def ethName (d : Fin 10) : List Char := ['e', 't', 'h', Nat.digitChar d]

theorem ethName_line (d : Fin 10) : '\n' ∉ ethName d := by
  revert d
  decide

theorem ethName_short (d : Fin 10) : (ethName d).length < 238 :=
  Nat.lt_of_lt_of_le (Nat.lt_succ_self 4) (Nat.le_of_ble_eq_true rfl)

/-- A slave that is up. -/
def ethSlave (d : Fin 10) : SlaveBlock where
  interface := ethName d
  lines := [miiUp]
  interface_line := ethName_line d
  interface_short := ethName_short d
  lines_valid := miiUp_valid

/-- The bond "bond0", which is up with all of its slaves "eth0" to "eth9". -/
def tenSlaves : Bond where
  name := "bond0".toList
  file := some
    { header := [miiUp]
      slaves := [0, 1, 2, 3, 4, 5, 6, 7, 8, 9].map ethSlave
      header_valid := miiUp_valid }

theorem tenSlaves_written : ∀ bond ∈ lookedAt [tenSlaves], bond.Written := by
  intro bond hBond
  have hFull : ¬tenSlaves.Fits := by decide
  rw [lookedAt, if_neg hFull] at hBond
  rw [List.mem_singleton.mp hBond]
  have hWritten : tenSlaves.Written ↔ _ ∧ _ := Iff.rfl
  rw [hWritten]
  decide

/-- All is up, and the plugin exits with a critical state, since the names of the slaves
do not fit into its buffer. -/
theorem checkBonding_ten_slaves :
    overall Bond.degraded [tenSlaves] = .ok ∧
      checkBonding ([tenSlaves].map Bond.input) = .exit .critical := by
  have hFull : ¬∀ bond ∈ [tenSlaves], bond.Fits := by decide
  have hRun := run_overflows [] tenSlaves_written hFull
  have hStart : ({ status := .ok, output := none } : BondingState) = stateOf [] := rfl
  apply And.intro (by decide)
  rw [checkBonding, hStart, hRun]

end MonitoringPlug.Check
