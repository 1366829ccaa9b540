import MonitoringPlug.Lib.Block
import MonitoringPlug.Lib.Loop
import MonitoringPlug.Snmp.Agent
import Mathlib.Logic.Function.Basic

/-! The query of single values, `mp_snmp_query`: one GET for all of them, repeated
without the variable an error points to, and the values copied to where the
commands want them. -/
namespace MonitoringPlug.Snmp

open CMemory CLoop

/-- What a `void **target` points to: storage for a number, or a pointer to a
string with the object it points to. -/
inductive Target where
  | number (storage : Block)
  | string (buffer : Option Block)

/-- The targets by address. -/
abbrev Targets := Nat → Target

/-- An entry of the query list in front of its terminator. -/
structure QueryCmd where
  oid : Oid
  type : AsnType
  target : Nat
  targetLen : Nat

def copyNumber (val : List UInt8) : Target → Option Target
  | .number storage => (CMemory.store storage 0 val).map .number
  | .string _ => none

/-- Point the target to a new object. -/
def allocString (size : Nat) : Target → Option Target
  | .string _ => some (.string (some (malloc size)))
  | .number _ => none

/-- Copy the value behind the pointer and terminate it. -/
def copyString (val : List UInt8) : Target → Option Target
  | .string (some buffer) =>
      (CMemory.store buffer 0 val).bind fun buffer =>
        (CMemory.store buffer val.length [0]).map fun buffer => .string (some buffer)
  | _ => none

/-- The return value and the target behind the call. A write outside of an
object, or through a pointer that is none, has no result. -/
def copyValue (var : Variable) (type : AsnType) (targetLen : Nat) (target : Target) :
    Option (Nat × Target) :=
  if var.type ≠ type then some (0, target)
  else
    match var.type with
    | .integer | .counter | .gauge | .timeticks =>
        if var.val.length > targetLen then some (0, target)
        else (copyNumber var.val target).map fun target => (1, target)
    | .octetStr =>
        if targetLen > 0 then
          if var.val.length + 1 > targetLen then some (0, target)
          else (copyString var.val target).map fun target => (1, target)
        else
          ((allocString (var.val.length + 1) target).bind (copyString var.val)).map
            fun target => (1, target)
    | _ => some (0, target)

/-- One variable of the response: skipped without a value, else copied for the
first command with its OID. -/
def copyVar (net : NetSnmp) (cmds : List QueryCmd) (mem : Targets) (var : Variable) :
    Option Targets :=
  if var.type = .noSuchObject ∨ var.type = .noSuchInstance ∨ var.type = .endOfMibView then some mem
  else
    match cmds.find? fun c => net.oidCompare var.name c.oid = 0 with
    | none => some mem
    | some c => (copyValue var c.type c.targetLen (mem c.target)).map fun (_, target) =>
        Function.update mem c.target target

/-- The loop that sends: the next request, and what was sent before it. -/
structure Sending where
  pdu : Request
  requests : List Request

def Sending.start (cmds : List QueryCmd) : Sending :=
  { pdu := { command := .get, names := cmds.map (·.oid) }, requests := [] }

/-- What is known behind the loop. -/
structure Sent where
  status : Stat
  response : Option Response
  requests : List Request

/-- One pass of the loop. A missing response returns `STAT_ERROR` at once, which
is the status behind the loop with no response to process. -/
def sendPass (net : NetSnmp) (agent : Agent) (s : Sending) : Pass Sending Sent :=
  let requests := s.pdu :: s.requests
  match agent requests with
  | (_, none) => .leave { status := .error, response := none, requests := requests }
  | (status, some response) =>
      if status = .success ∧ response.errindex = 0 then
        .leave { status := status, response := some response, requests := requests }
      else
        match status, net.fixPdu response .get with
        | .success, some pdu => .again { pdu := pdu, requests := requests }
        | status, _ => .leave { status := status, response := none, requests := requests }

inductive QueryEnd where
  | returned (status : Stat) (mem : Targets)
  | critical

/-- Behind the loop. The exit with a critical state is never taken, since a
response is left over only with success. -/
def processResponse (net : NetSnmp) (cmds : List QueryCmd) (mem : Targets) (sent : Sent) :
    Option QueryEnd :=
  match sent.response with
  | none => some (.returned sent.status mem)
  | some response =>
      if sent.status = .success ∧ response.errstat = .noError then
        (response.vars.foldlM (copyVar net cmds) mem).map (.returned sent.status)
      else if sent.status ≠ .success then some .critical
      else some (.returned sent.status mem)

/-- `mp_snmp_query` returns so, having sent this many requests. -/
def QueryReturns (net : NetSnmp) (agent : Agent) (cmds : List QueryCmd) (mem : Targets)
    (requests : Nat) (result : QueryEnd) : Prop :=
  ∃ sent, Returns (sendPass net agent) (Sending.start cmds) sent ∧
    sent.requests.length = requests ∧ processResponse net cmds mem sent = some result

def AsnType.isNumber : AsnType → Bool
  | .integer | .counter | .gauge | .timeticks => true
  | _ => false

/-- The target is what the command says: a number or a string, and as large as
stated. A string target without a size need not point anywhere. -/
def QueryCmd.Suits (c : QueryCmd) : Target → Prop
  | .number storage => c.type.isNumber = true ∧ c.targetLen ≤ storage.length
  | .string none => c.type = .octetStr ∧ c.targetLen = 0
  | .string (some buffer) => c.type = .octetStr ∧ c.targetLen ≤ buffer.length

/-- The variable has the type asked for, and its value fits. A string needs room
for its NUL, and always fits without a size. -/
def QueryCmd.Fits (c : QueryCmd) (v : Variable) : Prop :=
  v.type = c.type ∧
    if c.type = .octetStr then c.targetLen = 0 ∨ v.val.length + 1 ≤ c.targetLen
    else v.val.length ≤ c.targetLen

instance (c : QueryCmd) (v : Variable) : Decidable (c.Fits v) := by
  unfold QueryCmd.Fits
  infer_instance

/-- The value stands at the front of the object, a string with its NUL. -/
def Target.HoldsValue (v : Variable) : Target → Prop
  | .number storage => Holds storage v.val
  | .string (some buffer) => Holds buffer (v.val ++ [0])
  | .string none => False

theorem copyValue_number {v : Variable} (h : v.type.isNumber = true) (targetLen : Nat)
    (target : Target) : copyValue v v.type targetLen target =
      if v.val.length > targetLen then some (0, target)
      else (copyNumber v.val target).map fun target => (1, target) := by
  rw [copyValue, if_neg (not_not.mpr rfl)]
  cases hKind : v.type <;> first | rfl | simp [hKind, AsnType.isNumber] at h

theorem copyValue_octetStr {v : Variable} (h : v.type = .octetStr) (targetLen : Nat)
    (target : Target) : copyValue v v.type targetLen target =
      if targetLen > 0 then
        if v.val.length + 1 > targetLen then some (0, target)
        else (copyString v.val target).map fun target => (1, target)
      else
        ((allocString (v.val.length + 1) target).bind (copyString v.val)).map
          fun target => (1, target) := by
  rw [copyValue, if_neg (not_not.mpr rfl), h]

theorem store_front (b : Block) (bytes : List UInt8) (h : bytes.length ≤ b.length) :
    ∃ b', CMemory.store b 0 bytes = some b' ∧ Holds b' bytes ∧ b'.length = b.length := by
  simpa using (Holds.nil b).store bytes (by simpa using h)

theorem copyString_holds (v : Variable) (buffer : Block) (h : v.val.length + 1 ≤ buffer.length) :
    ∃ target, copyString v.val (.string (some buffer)) = some target ∧ target.HoldsValue v := by
  obtain ⟨filled, hFill, hValue, hLength⟩ := store_front buffer v.val (by omega)
  obtain ⟨ended, hEnd, hHolds, -⟩ := hValue.store [0] (by simp; omega)
  exact ⟨.string (some ended), by simp [copyString, hFill, hEnd], hHolds⟩

theorem copyValue_number_spec {c : QueryCmd} {storage : Block}
    (hSize : c.targetLen ≤ storage.length) {v : Variable} (hType : v.type = c.type)
    (hNumber : c.type.isNumber = true) :
    ∃ rc target, copyValue v c.type c.targetLen (.number storage) = some (rc, target) ∧
      (c.Fits v → target.HoldsValue v) ∧ (¬c.Fits v → target = .number storage) := by
  have hFits : c.Fits v ↔ v.val.length ≤ c.targetLen := by
    have hString : c.type ≠ .octetStr := by
      intro hString
      simp [hString, AsnType.isNumber] at hNumber
    simp [QueryCmd.Fits, hType, hString]
  rw [← hType] at hNumber ⊢
  rw [hFits, copyValue_number hNumber]
  by_cases hLong : v.val.length > c.targetLen
  · exact ⟨0, _, if_pos hLong, fun hShort => by omega, fun _ => rfl⟩
  · obtain ⟨stored, hStore, hHolds, -⟩ := store_front storage v.val (by omega)
    refine ⟨1, .number stored, ?_, fun _ => hHolds, fun hNot => by omega⟩
    simp [hLong, copyNumber, hStore]

theorem copyValue_string_spec {c : QueryCmd} {buffer : Option Block}
    (hSuits : c.Suits (.string buffer)) {v : Variable} (hType : v.type = c.type) :
    ∃ rc target, copyValue v c.type c.targetLen (.string buffer) = some (rc, target) ∧
      (c.Fits v → target.HoldsValue v) ∧ (¬c.Fits v → target = .string buffer) := by
  have hString : c.type = .octetStr := by
    cases buffer <;> exact hSuits.1
  have hFits : c.Fits v ↔ c.targetLen = 0 ∨ v.val.length + 1 ≤ c.targetLen := by
    simp [QueryCmd.Fits, hType, hString]
  rw [← hType] at hString ⊢
  rw [hFits, copyValue_octetStr hString]
  by_cases hSized : c.targetLen > 0
  · rw [if_pos hSized]
    by_cases hLong : v.val.length + 1 > c.targetLen
    · exact ⟨0, _, if_pos hLong, fun hShort => by omega, fun _ => rfl⟩
    · cases buffer with
      | none => exact absurd hSuits.2 (by omega)
      | some buffer =>
          have hRoom : c.targetLen ≤ buffer.length := hSuits.2
          obtain ⟨target, hCopy, hHolds⟩ := copyString_holds v buffer (by omega)
          refine ⟨1, target, ?_, fun _ => hHolds, fun hNot => by omega⟩
          rw [if_neg hLong, hCopy]
          rfl
  · obtain ⟨target, hCopy, hHolds⟩ := copyString_holds v (malloc (v.val.length + 1))
      (Nat.le_of_eq (malloc_length (v.val.length + 1)).symm)
    refine ⟨1, target, ?_, fun _ => hHolds, fun hNot => by omega⟩
    rw [if_neg hSized, allocString, Option.bind_some, hCopy]
    rfl

/-- A call on a suitable target stays inside its objects. It copies a value that
fits and else leaves the target as it was. -/
theorem copyValue_spec {c : QueryCmd} {target : Target} (hSuits : c.Suits target) (v : Variable) :
    ∃ rc target', copyValue v c.type c.targetLen target = some (rc, target') ∧
      (c.Fits v → target'.HoldsValue v) ∧ (¬c.Fits v → target' = target) := by
  by_cases hType : v.type = c.type
  · cases target with
    | number storage => exact copyValue_number_spec hSuits.2 hType hSuits.1
    | string buffer => exact copyValue_string_spec hSuits hType
  · refine ⟨0, target, by simp [copyValue, hType], ?_, fun _ => rfl⟩
    intro hFits
    exact (hType hFits.1).elim

/-- A version 1 answer to GET: all values, or an error that points to the first
missing variable of the request. -/
def Mib.getV1 (mib : Mib) (names : List Oid) : Response :=
  match names.findIdx? fun oid => (mib.lookup oid).isNone with
  | none => { errstat := .noError, errindex := 0, vars := names.filterMap mib.lookup }
  | some index =>
      { errstat := .noSuchName, errindex := index + 1
        vars := names.map fun oid => { name := oid, type := .other 5, val := [] } }

/-- A version 2 answer to GET: a variable for each name, of some exception type
where there is none. -/
def Mib.getV2 (mib : Mib) (missing : Oid → AsnType) (names : List Oid) : Response :=
  { errstat := .noError, errindex := 0
    vars := names.map fun oid =>
      (mib.lookup oid).getD { name := oid, type := missing oid, val := [] } }

/-- The agent answers every GET of this version from the MIB. -/
def Mib.AnswersGet (mib : Mib) (agent : Agent) : Version → Prop
  | .v1 => ∀ names history, agent ({ command := .get, names := names } :: history) =
      (.success, some (mib.getV1 names))
  | .v2c | .v3 => ∀ names history, ∃ missing : Oid → AsnType,
      (∀ oid, (missing oid).isException = true) ∧
      agent ({ command := .get, names := names } :: history) =
        (.success, some (mib.getV2 missing names))

theorem lookup_name {mib : Mib} {oid : Oid} {v : Variable} (h : mib.lookup oid = some v) :
    v ∈ mib.vars ∧ v.name = oid :=
  ⟨List.mem_of_find?_eq_some h, by simpa using List.find?_some h⟩

def Mib.missing (mib : Mib) (names : List Oid) : Nat :=
  names.countP fun oid => (mib.lookup oid).isNone

section Send

variable {net : NetSnmp} {agent : Agent} {mib : Mib}

/-- All names are served, or the error takes out a first one that is not. -/
theorem getV1_cases (mib : Mib) (names : List Oid) :
    (mib.missing names = 0 ∧ mib.getV1 names =
      { errstat := .noError, errindex := 0, vars := names.filterMap mib.lookup }) ∨
    ∃ front oid back, names = front ++ oid :: back ∧ mib.lookup oid = none ∧
      (mib.getV1 names).errstat = .noSuchName ∧ (mib.getV1 names).errindex = front.length + 1 ∧
      (mib.getV1 names).vars.map (·.name) = names := by
  rw [Mib.getV1]
  cases hIndex : names.findIdx? fun oid => (mib.lookup oid).isNone with
  | none =>
      refine Or.inl ⟨?_, rfl⟩
      rw [Mib.missing, List.countP_eq_zero]
      intro oid hOid
      exact Bool.eq_false_iff.mp (List.findIdx?_eq_none_iff.mp hIndex oid hOid)
  | some index =>
      right
      obtain ⟨hInside, hMissing, -⟩ := List.findIdx?_eq_some_iff_getElem.mp hIndex
      refine ⟨names.take index, names[index], names.drop (index + 1), ?_, by simpa using hMissing,
        rfl, ?_, ?_⟩
      · rw [List.getElem_cons_drop, List.take_append_drop]
      · simp [Nat.min_eq_left hInside.le]
      · simp [Function.comp_def]

theorem missing_middle {front back : List Oid} {oid : Oid} (h : mib.lookup oid = none) :
    mib.missing (front ++ oid :: back) = mib.missing (front ++ back) + 1 := by
  simp only [Mib.missing, List.countP_append, List.countP_cons, h, Option.isNone_none, if_true]
  omega

/-- The repeated request is the old one without the missing name. -/
theorem fixPdu_missing (net : NetSnmp) {response : Response} {front back : List Oid} {oid : Oid}
    (hError : response.errstat = .noSuchName) (hIndex : response.errindex = front.length + 1)
    (hNames : response.vars.map (·.name) = front ++ oid :: back) (hLeft : front ++ back ≠ []) :
    net.fixPdu response .get = some { command := .get, names := front ++ back } := by
  have hInside : response.errindex ≤ response.vars.length := by
    have hLength := congrArg List.length hNames
    rw [List.length_map, List.length_append, List.length_cons] at hLength
    omega
  rw [net.fixPdu_error _ _ (by simp [hError]) (by omega) hInside, hNames, hIndex]
  simp [List.eraseIdx_append_of_length_le, hLeft]

/-- In version 1 the loop ends with all values there are, after one request for
each missing name and one more. -/
theorem send_v1 (net : NetSnmp) (hAgent : mib.AnswersGet agent .v1) (names : List Oid)
    (hSome : names.filterMap mib.lookup ≠ []) (history : List Request) :
    ∃ requests, requests.length = history.length + mib.missing names + 1 ∧
      Returns (sendPass net agent)
        { pdu := { command := .get, names := names }, requests := history }
        { status := .success, requests := requests
          response := some
            { errstat := .noError, errindex := 0, vars := names.filterMap mib.lookup } } := by
  induction hCount : mib.missing names generalizing names history with
  | zero =>
      refine ⟨{ command := .get, names := names } :: history, by simp, Returns.leave ?_⟩
      rcases getV1_cases mib names with ⟨-, hAll⟩ | ⟨front, oid, back, rfl, hNone, -⟩
      · simp [sendPass, hAgent names history, hAll]
      · rw [missing_middle hNone] at hCount
        cases hCount
  | succ count ih =>
      rcases getV1_cases mib names with
        ⟨hZero, -⟩ | ⟨front, oid, back, rfl, hNone, hError, hIndex, hNames⟩
      · rw [hZero] at hCount
        cases hCount
      · have hSame : (front ++ oid :: back).filterMap mib.lookup =
            (front ++ back).filterMap mib.lookup := by
          simp [hNone]
        rw [hSame] at hSome ⊢
        rw [missing_middle hNone, Nat.add_right_cancel_iff] at hCount
        obtain ⟨requests, hLength, hReturns⟩ := ih (front ++ back) hSome
          ({ command := .get, names := front ++ oid :: back } :: history) hCount
        refine ⟨requests, by rw [hLength, List.length_cons]; omega, hReturns.again ?_⟩
        have hFix := fixPdu_missing net hError hIndex hNames (by
          intro hEmpty
          rw [hEmpty] at hSome
          exact hSome rfl)
        simp [sendPass, hAgent _ history, hIndex, hFix]

theorem send_v2 (net : NetSnmp) {version : Version} (hVersion : version ≠ .v1)
    (hAgent : mib.AnswersGet agent version) (names : List Oid) (history : List Request) :
    ∃ missing : Oid → AsnType, (∀ oid, (missing oid).isException = true) ∧
      Returns (sendPass net agent)
        { pdu := { command := .get, names := names }, requests := history }
        { status := .success, requests := { command := .get, names := names } :: history
          response := some (mib.getV2 missing names) } := by
  obtain ⟨missing, hMissing, hAnswer⟩ : ∃ missing : Oid → AsnType,
      (∀ oid, (missing oid).isException = true) ∧
      agent ({ command := .get, names := names } :: history) =
        (.success, some (mib.getV2 missing names)) := by
    cases version with
    | v1 => exact (hVersion rfl).elim
    | v2c => exact hAgent names history
    | v3 => exact hAgent names history
  refine ⟨missing, hMissing, Returns.leave ?_⟩
  simp [sendPass, hAnswer, Mib.getV2]

end Send

section Copy

variable {net : NetSnmp} {mib : Mib} {cmds : List QueryCmd}

/-- What a query should leave in a target: the value of the MIB where it has the
type and fits, and else what was there. -/
structure QueryCmd.Fetched (c : QueryCmd) (mib : Mib) (before after : Target) : Prop where
  value : ∀ v, mib.lookup c.oid = some v → c.Fits v → after.HoldsValue v
  other : (∀ v, mib.lookup c.oid = some v → ¬c.Fits v) → after = before

/-- The search by OID finds the command that asked for it. -/
theorem find_cmd (hOids : (cmds.map (·.oid)).Nodup) {c : QueryCmd} (hc : c ∈ cmds) {oid : Oid}
    (hOid : oid = c.oid) :
    cmds.find? (fun d => net.oidCompare oid d.oid = 0) = some c := by
  induction cmds with
  | nil => cases hc
  | cons d cmds ih =>
      rw [List.map_cons, List.nodup_cons] at hOids
      rcases List.mem_cons.mp hc with rfl | hLater
      · rw [List.find?_cons_of_pos (by simp [net.oidCompare_eq_zero, hOid])]
      · have hOther : oid ≠ d.oid := by
          intro hSame
          exact hOids.1 (List.mem_map.mpr ⟨c, hLater, hOid.symm.trans hSame⟩)
        rw [List.find?_cons_of_neg (by simpa [net.oidCompare_eq_zero] using hOther)]
        exact ih hOids.2 hLater

theorem copyVar_exception {mem : Targets} {v : Variable} (h : v.type.isException = true) :
    copyVar net cmds mem v = some mem := by
  have hSkip : v.type = .noSuchObject ∨ v.type = .noSuchInstance ∨ v.type = .endOfMibView := by
    cases hType : v.type <;> simp_all [AsnType.isException]
  rw [copyVar, if_pos hSkip]

/-- Variables of an exception type are passed over, so what is copied is the same
in all versions. -/
theorem copy_getV2 {missing : Oid → AsnType} (hMissing : ∀ oid, (missing oid).isException = true)
    (names : List Oid) (mem : Targets) :
    (mib.getV2 missing names).vars.foldlM (copyVar net cmds) mem =
      (names.filterMap mib.lookup).foldlM (copyVar net cmds) mem := by
  induction names generalizing mem with
  | nil => rfl
  | cons oid names ih =>
      simp only [Mib.getV2] at ih
      cases hLookup : mib.lookup oid with
      | none =>
          simp only [Mib.getV2, List.map_cons, hLookup, Option.getD_none, List.foldlM_cons,
            List.filterMap_cons]
          rw [copyVar_exception (hMissing oid)]
          exact ih mem
      | some v =>
          simp only [Mib.getV2, List.map_cons, hLookup, Option.getD_some, List.foldlM_cons,
            List.filterMap_cons]
          congr 1
          funext mem
          exact ih mem

/-- Copying the value of one command. -/
theorem copyVar_cmd (net : NetSnmp) (hOids : (cmds.map (·.oid)).Nodup) {c : QueryCmd}
    (hc : c ∈ cmds) {mem : Targets} (hSuits : c.Suits (mem c.target)) {v : Variable}
    (hLookup : mib.lookup c.oid = some v) :
    ∃ target, copyVar net cmds mem v = some (Function.update mem c.target target) ∧
      c.Fetched mib (mem c.target) target := by
  obtain ⟨hMem, hName⟩ := lookup_name hLookup
  obtain ⟨rc, target, hCopy, hFits, hNot⟩ := copyValue_spec hSuits v
  have hGo : ¬(v.type = .noSuchObject ∨ v.type = .noSuchInstance ∨ v.type = .endOfMibView) := by
    have hPresent := mib.present v hMem
    rintro (hType | hType | hType) <;> simp [hType, AsnType.isException] at hPresent
  refine ⟨target, ?_, ?_, ?_⟩
  · rw [copyVar, if_neg hGo, find_cmd hOids hc hName]
    simp only [hCopy, Option.map_some]
  · intro w hw
    cases hLookup.symm.trans hw
    exact hFits
  · intro hNone
    exact hNot (hNone v hLookup)

/-- The first of some commands, with or without a value, leaves all targets but
its own alone. -/
theorem copy_first_cmd (net : NetSnmp) (mib : Mib) (hOids : (cmds.map (·.oid)).Nodup)
    {c : QueryCmd} (hc : c ∈ cmds) {mem : Targets} (hSuits : c.Suits (mem c.target))
    (part : List QueryCmd) :
    ∃ mem', (((c :: part).map (·.oid)).filterMap mib.lookup).foldlM (copyVar net cmds) mem =
        ((part.map (·.oid)).filterMap mib.lookup).foldlM (copyVar net cmds) mem' ∧
      c.Fetched mib (mem c.target) (mem' c.target) ∧ ∀ t, t ≠ c.target → mem' t = mem t := by
  cases hLookup : mib.lookup c.oid with
  | none =>
      refine ⟨mem, by simp [hLookup], ⟨?_, fun _ => rfl⟩, fun _ _ => rfl⟩
      intro v hv
      rw [hLookup] at hv
      cases hv
  | some v =>
      obtain ⟨target, hCopy, hFetched⟩ := copyVar_cmd net hOids hc hSuits hLookup
      refine ⟨Function.update mem c.target target, ?_, ?_, ?_⟩
      · simp [hLookup, hCopy]
      · rwa [Function.update_self]
      · intro t ht
        exact Function.update_of_ne ht _ _

/-- Copying the values of some of the commands, in order. -/
theorem copy_cmds (hOids : (cmds.map (·.oid)).Nodup) (part : List QueryCmd) (hPart : part ⊆ cmds)
    (hTargets : (part.map (·.target)).Nodup) (mem : Targets)
    (hSuits : ∀ c ∈ part, c.Suits (mem c.target)) :
    ∃ mem', ((part.map (·.oid)).filterMap mib.lookup).foldlM (copyVar net cmds) mem = some mem' ∧
      (∀ c ∈ part, c.Fetched mib (mem c.target) (mem' c.target)) ∧
      ∀ t, t ∉ part.map (·.target) → mem' t = mem t := by
  induction part generalizing mem with
  | nil => exact ⟨mem, rfl, by simp, by simp⟩
  | cons c part ih =>
      rw [List.map_cons, List.nodup_cons] at hTargets
      rw [List.cons_subset] at hPart
      have hHere := hSuits c List.mem_cons_self
      obtain ⟨mem₁, hFirst, hFetched, hFrame⟩ :=
        copy_first_cmd net mib hOids hPart.1 hHere part
      have hOther : ∀ d ∈ part, mem₁ d.target = mem d.target := by
        intro d hd
        apply hFrame
        intro hSame
        exact hTargets.1 (hSame ▸ List.mem_map_of_mem hd)
      obtain ⟨mem', hRest, hValues, hUnchanged⟩ := ih hPart.2 hTargets.2 mem₁ (by
        intro d hd
        rw [hOther d hd]
        exact hSuits d (List.mem_cons_of_mem _ hd))
      refine ⟨mem', hFirst.trans hRest, ?_, ?_⟩
      · intro d hd
        rcases List.mem_cons.mp hd with rfl | hLater
        · rwa [hUnchanged d.target hTargets.1]
        · rw [← hOther d hLater]
          exact hValues d hLater
      · intro t ht
        rw [List.map_cons, List.mem_cons, not_or] at ht
        rw [hUnchanged t ht.2, hFrame t ht.1]

end Copy

theorem processResponse_copied {net : NetSnmp} {cmds : List QueryCmd} {mem mem' : Targets}
    {response : Response} (requests : List Request) (hOk : response.errstat = .noError)
    (hCopy : response.vars.foldlM (copyVar net cmds) mem = some mem') :
    processResponse net cmds mem
        { status := .success, response := some response, requests := requests } =
      some (.returned .success mem') := by
  simp [processResponse, hOk, hCopy]

/-- Both ways of answering bring the same values to the targets. -/
theorem queryReturns_of_copy {net : NetSnmp} {mib : Mib} {cmds : List QueryCmd}
    {mem mem' : Targets}
    (hCopy : ((cmds.map (·.oid)).filterMap mib.lookup).foldlM (copyVar net cmds) mem = some mem')
    (hSome : (cmds.map (·.oid)).filterMap mib.lookup ≠ []) {version : Version} {agent : Agent}
    (hAgent : mib.AnswersGet agent version) :
    ∃ requests, requests ≤ mib.missing (cmds.map (·.oid)) + 1 ∧
      QueryReturns net agent cmds mem requests (.returned .success mem') := by
  by_cases hVersion : version = .v1
  · subst hVersion
    obtain ⟨requests, hLength, hReturns⟩ := send_v1 net hAgent _ hSome []
    exact ⟨requests.length, by simp [hLength], _, hReturns, rfl,
      processResponse_copied requests rfl hCopy⟩
  · obtain ⟨missing, hMissing, hReturns⟩ := send_v2 net hVersion hAgent (cmds.map (·.oid)) []
    have hVars := (copy_getV2 hMissing (cmds.map (·.oid)) mem).trans hCopy
    exact ⟨1, by omega, _, hReturns, rfl, processResponse_copied _ rfl hVars⟩

/-- A query with pairwise different OIDs and targets, of which one at least is
served: over every version it returns with success, after at most one request for
each missing OID and one more, and leaves the same in the targets. Each holds the
value where there is one of its type that fits, and is else unchanged. -/
theorem mpSnmpQuery_fetches (net : NetSnmp) (mib : Mib) (cmds : List QueryCmd) (mem : Targets)
    (hOids : (cmds.map (·.oid)).Nodup) (hTargets : (cmds.map (·.target)).Nodup)
    (hSuits : ∀ c ∈ cmds, c.Suits (mem c.target))
    (hServed : ∃ c ∈ cmds, (mib.lookup c.oid).isSome) :
    ∃ mem',
      (∀ version agent, mib.AnswersGet agent version →
        ∃ requests, requests ≤ mib.missing (cmds.map (·.oid)) + 1 ∧
          QueryReturns net agent cmds mem requests (.returned .success mem')) ∧
      (∀ c ∈ cmds, c.Fetched mib (mem c.target) (mem' c.target)) ∧
      ∀ t, t ∉ cmds.map (·.target) → mem' t = mem t := by
  obtain ⟨mem', hCopy, hFetched, hFrame⟩ :=
    copy_cmds hOids cmds (List.Subset.refl _) hTargets mem hSuits
  have hSome : (cmds.map (·.oid)).filterMap mib.lookup ≠ [] := by
    obtain ⟨c, hc, hLookup⟩ := hServed
    obtain ⟨v, hv⟩ := Option.isSome_iff_exists.mp hLookup
    exact List.ne_nil_of_mem (List.mem_filterMap.mpr ⟨c.oid, List.mem_map_of_mem hc, hv⟩)
  refine ⟨mem', ?_, hFetched, hFrame⟩
  intro version agent hAgent
  exact queryReturns_of_copy hCopy hSome hAgent

/-- Agents of both kinds for a MIB. -/
def Mib.getAgent (mib : Mib) : Version → Agent
  | .v1, { command := .get, names := names } :: _ => (.success, some (mib.getV1 names))
  | .v2c, { command := .get, names := names } :: _
  | .v3, { command := .get, names := names } :: _ =>
      (.success, some (mib.getV2 (fun _ => .noSuchObject) names))
  | _, _ => (.timeout, none)

theorem Mib.getAgent_answers (mib : Mib) (version : Version) :
    mib.AnswersGet (mib.getAgent version) version := by
  cases version with
  | v1 => exact fun _ _ => rfl
  | v2c => exact fun _ _ => ⟨fun _ => .noSuchObject, fun _ => rfl, rfl⟩
  | v3 => exact fun _ _ => ⟨fun _ => .noSuchObject, fun _ => rfl, rfl⟩

/-- An agent that serves a system name and no uptime, asked for both. -/
theorem mpSnmpQuery_fetches_sysName :
    let name : Variable := ⟨[1, 3, 6, 1, 2, 1, 1, 5, 0], .octetStr, [100, 112]⟩
    let mib : Mib := ⟨[name], List.pairwise_singleton _ _, by decide⟩
    let cmds : List QueryCmd :=
      [⟨[1, 3, 6, 1, 2, 1, 1, 3, 0], .timeticks, 0, 8⟩, ⟨name.name, .octetStr, 1, 0⟩]
    let mem : Targets := fun t => if t = 0 then .number (zalloc 8) else .string none
    ∃ mem', (∀ version, ∃ requests, requests ≤ 2 ∧
        QueryReturns NetSnmp.reference (mib.getAgent version) cmds mem requests
          (.returned .success mem')) ∧
      mem' 0 = mem 0 ∧ (mem' 1).HoldsValue name := by
  intro name mib cmds mem
  have hSuits : ∀ c ∈ cmds, c.Suits (mem c.target) := by
    simp [cmds, mem, QueryCmd.Suits, AsnType.isNumber, zalloc_length]
  obtain ⟨mem', hReturns, hFetched, -⟩ := mpSnmpQuery_fetches NetSnmp.reference mib cmds mem
    (by decide) (by decide) hSuits ⟨cmds[1], by simp [cmds], by decide⟩
  refine ⟨mem', fun version => hReturns version _ (mib.getAgent_answers version), ?_, ?_⟩
  · apply (hFetched cmds[0] (by simp [cmds])).other
    intro v hv
    cases hv
  · exact (hFetched cmds[1] (by simp [cmds])).value name rfl (by decide)

end MonitoringPlug.Snmp
