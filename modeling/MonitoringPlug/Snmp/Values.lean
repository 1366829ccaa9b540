import MonitoringPlug.Snmp.Fetch
import MonitoringPlug.Snmp.Subtree

/-! The functions that take OIDs as strings: `mp_snmp_values_fetch2`,
`mp_snmp_values_fetch3` and `mp_snmp_subtree_query_string`. They have `read_objid`
of the library parse the strings and hand on to the functions that take OIDs. -/
namespace MonitoringPlug.Snmp

open CLoop

/-- `read_objid`: the OID a string stands for, and none where it returns 0. -/
abbrev ReadObjid := List Char → Option Oid

/-- An entry of a `mp_snmp_value` list in front of its terminator. -/
structure Value where
  oid : List Char
  type : AsnType
  target : Nat
  targetLen : Nat
deriving DecidableEq

/-- The loop that fills the new array, one entry for each value. No array is the jump
to `done`. -/
def oidValues (readObjid : ReadObjid) (text : Value → List Char) :
    List Value → Option (List QueryCmd)
  | [] => some []
  | v :: values =>
      match readObjid (text v) with
      | none => none
      | some oid =>
          let cmd := { oid := oid, type := v.type, target := v.target, targetLen := v.targetLen }
          (oidValues readObjid text values).map (cmd :: ·)

/-- What `formatted_oid` holds. `vsnprintf` formats with the arguments of the call. -/
def formattedOid (vsnprintf : List Char → List Char) (v : Value) : List Char :=
  (vsnprintf v.oid).take 1023

/-- The memory from the start of the array on. -/
def entryAt (array : List QueryCmd) (behind : Nat → QueryCmd) (index : Nat) : QueryCmd :=
  array.getD index (behind index)

/-- The loops of `mp_snmp_values_fetch1` over its argument. -/
structure Scan where
  index : Nat
  entries : List QueryCmd

def Scan.start : Scan := { index := 0, entries := [] }

/-- The array member `oid` is never a NULL pointer, so the length alone ends a scan. -/
def scanPass (memory : Nat → QueryCmd) (s : Scan) : Pass Scan (List QueryCmd) :=
  if (memory s.index).oid.length ≠ 0 then
    .again { index := s.index + 1, entries := s.entries ++ [memory s.index] }
  else .leave s.entries

/-- `mp_snmp_values_fetch1` returns so and leaves the targets so. -/
def ValuesFetch1 (net : NetSnmp) (version : Version) (agent : Agent) (memory : Nat → QueryCmd)
    (mem : Targets) (rc : Stat) (mem' : Targets) : Prop :=
  ∃ cmds sent, Returns (scanPass memory) Scan.start cmds ∧
    Returns (fetchPass net agent) (Sending.start cmds) sent ∧
    processValues net version cmds mem sent = some (rc, mem')

/-- What `mp_snmp_values_fetch2` and `mp_snmp_values_fetch3` share. The initial value
of `rc` is that of `STAT_SUCCESS`. -/
def valuesFetch (net : NetSnmp) (readObjid : ReadObjid) (version : Version) (agent : Agent)
    (text : Value → List Char) (values : List Value) (behind : Nat → QueryCmd) (mem : Targets)
    (rc : Stat) (mem' : Targets) : Prop :=
  match oidValues readObjid text values with
  | none => rc = .success ∧ mem' = mem
  | some array => ValuesFetch1 net version agent (entryAt array behind) mem rc mem'

def ValuesFetch2 (net : NetSnmp) (readObjid : ReadObjid) (version : Version) (agent : Agent)
    (values : List Value) (behind : Nat → QueryCmd) (mem : Targets) (rc : Stat) (mem' : Targets) :
    Prop :=
  valuesFetch net readObjid version agent (·.oid) values behind mem rc mem'

def ValuesFetch3 (net : NetSnmp) (readObjid : ReadObjid) (vsnprintf : List Char → List Char)
    (version : Version) (agent : Agent) (values : List Value) (behind : Nat → QueryCmd)
    (mem : Targets) (rc : Stat) (mem' : Targets) : Prop :=
  valuesFetch net readObjid version agent (formattedOid vsnprintf) values behind mem rc mem'

/-- `mp_snmp_subtree_query_string` returns so and leaves the subtree so. -/
def SubtreeQueryString (net : NetSnmp) (readObjid : ReadObjid) (version : Version) (agent : Agent)
    (subtreeOid : List Char) (subtree : List Variable) (rc : Stat) (subtree' : List Variable) :
    Prop :=
  match readObjid subtreeOid with
  | none => rc = .success ∧ subtree' = subtree
  | some oid =>
      Returns (walkPass net agent version oid) (Walk.start oid) (.returned rc subtree')

/-- Every string of the list stands for an OID. -/
def Parses (readObjid : ReadObjid) (text : Value → List Char) (values : List Value) : Prop :=
  ∀ v ∈ values, (readObjid (text v)).isSome = true

/-- The array is scanned inside of its allocation, and the request asks for the OIDs
the strings stand for and no others. -/
structure AsksFor (readObjid : ReadObjid) (text : Value → List Char) (values : List Value)
    (array : List QueryCmd) (behind : Nat → QueryCmd) : Prop where
  inside : ∀ s, Reaches (scanPass (entryAt array behind)) Scan.start s → s.index < array.length
  request : ∃ cmds, Returns (scanPass (entryAt array behind)) Scan.start cmds ∧
    (Sending.start cmds).pdu.names.map some = values.map fun v => readObjid (text v)

/-- What a caller may take from a return value: success means that all strings were
parsed and the agent answered, and without it nothing was stored. -/
structure Reliable {Stored : Type} (returns : Stat → Stored → Prop) (parsed answered : Prop)
    (before : Stored) : Prop where
  success : ∀ after, returns .success after → parsed ∧ answered
  failure : ∀ rc after, returns rc after → rc ≠ .success → after = before

/-- The request for the entries of the array is answered, in version 1 possibly with
the error that stands for the end of the tree. -/
def GetAnswered (net : NetSnmp) (readObjid : ReadObjid) (version : Version) (agent : Agent)
    (text : Value → List Char) (values : List Value) (behind : Nat → QueryCmd) : Prop :=
  ∃ array cmds sent response, oidValues readObjid text values = some array ∧
    Returns (scanPass (entryAt array behind)) Scan.start cmds ∧
    Returns (fetchPass net agent) (Sending.start cmds) sent ∧
    sent.status = .success ∧ sent.response = some response ∧
    (response.errstat = .noError ∨ version = .v1 ∧ response.errstat = .noSuchName)

/-- The walk goes on behind this answer. -/
def Continues (version : Version) (answer : Stat × Option Response) : Prop :=
  ∃ response, answer = (.success, some response) ∧
    (response.errstat = .noError ∨ version = .v1 ∧ response.errstat = .noSuchName)

/-- Every request of the walk that fits the condition is answered. -/
def WalkAnswered (net : NetSnmp) (version : Version) (agent : Agent) (oid : Oid)
    (asks : Walk → Prop) : Prop :=
  ∀ s, Reaches (walkPass net agent version oid) (Walk.start oid) s → s.pending = [] → asks s →
    Continues version (agent (setupRequest version s.lastOid :: s.requests))

section Array

variable {readObjid : ReadObjid} {text : Value → List Char} {values : List Value}

theorem oidValues_length {array : List QueryCmd}
    (h : oidValues readObjid text values = some array) :
    array.length = values.length := by
  induction values generalizing array with
  | nil =>
      cases h
      rfl
  | cons v values ih =>
      simp only [oidValues] at h
      cases hRead : readObjid (text v) with
      | none =>
          rw [hRead] at h
          cases h
      | some oid =>
          rw [hRead] at h
          obtain ⟨tail, hTail, rfl⟩ := Option.map_eq_some_iff.mp h
          rw [List.length_cons, ih hTail, List.length_cons]

/-- There is an array exactly when all strings were parsed. -/
theorem oidValues_isSome_iff :
    (oidValues readObjid text values).isSome = true ↔ Parses readObjid text values := by
  induction values with
  | nil => simp [oidValues, Parses]
  | cons v values ih =>
      rw [Parses, List.forall_mem_cons, ← Parses, ← ih, oidValues]
      cases readObjid (text v) with
      | none => simp
      | some oid => simp

theorem exists_oidValues (h : Parses readObjid text values) :
    ∃ array, oidValues readObjid text values = some array :=
  Option.isSome_iff_exists.mp (oidValues_isSome_iff.mpr h)

/-- A scan has read as many entries as its index says. -/
theorem scan_entries {memory : Nat → QueryCmd} {s : Scan}
    (h : Reaches (scanPass memory) Scan.start s) : s.entries.length = s.index := by
  apply h.invariant fun s => s.entries.length = s.index
  · rfl
  · intro s next _ hInv hPass
    rw [scanPass] at hPass
    split_ifs at hPass with hLength
    cases hPass
    simp [hInv]

theorem scan_returns {memory : Nat → QueryCmd} {cmds : List QueryCmd}
    (h : Returns (scanPass memory) Scan.start cmds) :
    ∃ s, Reaches (scanPass memory) Scan.start s ∧ s.index = cmds.length := by
  obtain ⟨s, hReaches, hLeave⟩ := h.exists_leave
  refine ⟨s, hReaches, ?_⟩
  rw [scanPass] at hLeave
  split_ifs at hLeave with hLength
  cases hLeave
  exact (scan_entries hReaches).symm

/-- A request for one entry each is only known once the entry behind them was read. -/
theorem not_asksFor {array : List QueryCmd} (h : oidValues readObjid text values = some array)
    (behind : Nat → QueryCmd) : ¬ AsksFor readObjid text values array behind := by
  rintro ⟨hInside, cmds, hReturns, hNames⟩
  have hLength : cmds.length = array.length := by
    have hCount := congrArg List.length hNames
    simpa [Sending.start, oidValues_length h] using hCount
  obtain ⟨s, hReaches, hIndex⟩ := scan_returns hReturns
  have hLess := hInside s hReaches
  omega

end Array

/-- Whatever the strings are, the array of as many entries is read behind its end, or
the request asks for something else. -/
theorem mpSnmpValuesFetch_reads_behind (readObjid : ReadObjid)
    (vsnprintf : List Char → List Char) (values : List Value) (behind : Nat → QueryCmd) :
    (Parses readObjid (·.oid) values → ∃ array, oidValues readObjid (·.oid) values = some array ∧
        array.length = values.length ∧ ¬ AsksFor readObjid (·.oid) values array behind) ∧
      (Parses readObjid (formattedOid vsnprintf) values →
        ∃ array, oidValues readObjid (formattedOid vsnprintf) values = some array ∧
          array.length = values.length ∧
          ¬ AsksFor readObjid (formattedOid vsnprintf) values array behind) := by
  constructor
  · intro hParses
    obtain ⟨array, hArray⟩ := exists_oidValues hParses
    exact ⟨array, hArray, oidValues_length hArray, not_asksFor hArray behind⟩
  · intro hParses
    obtain ⟨array, hArray⟩ := exists_oidValues hParses
    exact ⟨array, hArray, oidValues_length hArray, not_asksFor hArray behind⟩

/-- `read_objid` on an absolute numeric name. -/
def numericOid : ReadObjid
  | '.' :: rest =>
      (rest.splitOn '.').mapM fun part =>
        if part ≠ [] ∧ part.all Char.isDigit then
          some (part.foldl (fun n c => 10 * n + (c.toNat - '0'.toNat)) 0)
        else none
  | _ => none

/-- Zeroed memory. -/
def zeroCmd : QueryCmd := { oid := [], type := .other 0, target := 0, targetLen := 0 }

def uptime : Value :=
  { oid := ['.', '1', '.', '3'], type := .timeticks, target := 0, targetLen := 8 }

theorem mpSnmpValuesFetch_reads_behind_uptime :
    ∃ array, oidValues numericOid (·.oid) [uptime] = some array ∧ array.length = 1 ∧
      ¬ AsksFor numericOid (·.oid) [uptime] array fun _ => zeroCmd := by
  have hParses : Parses numericOid (·.oid) [uptime] := by
    unfold Parses
    decide
  exact (mpSnmpValuesFetch_reads_behind numericOid id [uptime] fun _ => zeroCmd).1 hParses

/-- One OID, and zeroes behind the array: the entry with index 1 of one is read. -/
theorem mpSnmpValuesFetch_reads_one_of_one :
    ∃ array, oidValues numericOid (·.oid) [uptime] = some array ∧
      ¬ AsksFor numericOid (·.oid) [uptime] array fun _ => zeroCmd := by
  refine ⟨[{ oid := [1, 3], type := .timeticks, target := 0, targetLen := 8 }], rfl, ?_⟩
  intro hAsks
  have hRead : Reaches (scanPass (entryAt
      [{ oid := [1, 3], type := .timeticks, target := 0, targetLen := 8 }] fun _ => zeroCmd))
      Scan.start _ := Reaches.start.pass rfl
  exact Nat.lt_irrefl 1 (hAsks.inside _ hRead)

section Returns

variable {net : NetSnmp} {readObjid : ReadObjid} {version : Version} {agent : Agent}
  {text : Value → List Char} {values : List Value} {behind : Nat → QueryCmd} {mem : Targets}

/-- Behind the loop, success takes an answer, and anything else leaves the targets. -/
theorem processValues_cases {cmds : List QueryCmd} {sent : Sent} {rc : Stat} {mem' : Targets}
    (h : processValues net version cmds mem sent = some (rc, mem')) :
    (rc = .success ∧ sent.status = .success ∧ ∃ response, sent.response = some response ∧
      (response.errstat = .noError ∨ version = .v1 ∧ response.errstat = .noSuchName)) ∨
    (rc = .error ∧ mem' = mem) := by
  rw [processValues] at h
  split at h
  · rename_i response hStatus hResponse
    split_ifs at h with hOk hName
    · obtain ⟨after, -, hPair⟩ := Option.map_eq_some_iff.mp h
      cases hPair
      exact Or.inl ⟨rfl, hStatus, response, hResponse, Or.inl hOk⟩
    · cases h
      exact Or.inl ⟨rfl, hStatus, response, hResponse, Or.inr hName⟩
    · cases h
      exact Or.inr ⟨rfl, rfl⟩
  · cases h
    exact Or.inr ⟨rfl, rfl⟩

/-- A fetch can be relied on exactly when all strings are parsed. -/
theorem valuesFetch_reliable_iff :
    Reliable (valuesFetch net readObjid version agent text values behind mem)
        (Parses readObjid text values)
        (GetAnswered net readObjid version agent text values behind) mem ↔
      Parses readObjid text values := by
  constructor
  · intro hReliable
    by_contra hNot
    have hNone : oidValues readObjid text values = none := by
      rw [← oidValues_isSome_iff, Bool.not_eq_true, Option.isSome_eq_false_iff,
        Option.isNone_iff_eq_none] at hNot
      exact hNot
    have hReturns :
        valuesFetch net readObjid version agent text values behind mem .success mem := by
      rw [valuesFetch, hNone]
      exact ⟨rfl, rfl⟩
    exact hNot (hReliable.success mem hReturns).1
  · intro hParses
    obtain ⟨array, hArray⟩ := exists_oidValues hParses
    constructor
    · intro after hReturns
      rw [valuesFetch, hArray] at hReturns
      obtain ⟨cmds, sent, hScan, hSent, hProcess⟩ := hReturns
      rcases processValues_cases hProcess with
        ⟨-, hStatus, response, hResponse, hKind⟩ | ⟨hError, -⟩
      · exact ⟨hParses, array, cmds, sent, response, hArray, hScan, hSent, hStatus, hResponse,
          hKind⟩
      · cases hError
    · intro rc after hReturns hFailed
      rw [valuesFetch, hArray] at hReturns
      obtain ⟨cmds, sent, hScan, hSent, hProcess⟩ := hReturns
      rcases processValues_cases hProcess with ⟨hSuccess, -⟩ | ⟨-, hSame⟩
      · exact (hFailed hSuccess).elim
      · exact hSame

variable {oid : Oid} {s : Walk}

theorem walkPass_request (hPending : s.pending = []) :
    walkPass net agent version oid s = walkRequest agent version s := by
  rw [walkPass, hPending]

/-- An answer the walk does not go on behind ends it with an error. -/
theorem walkRequest_error
    (h : ¬ Continues version (agent (setupRequest version s.lastOid :: s.requests))) :
    walkRequest agent version s = .leave (.returned .error s.vars) := by
  rw [walkRequest]
  split
  · rename_i response hAgent
    split
    · rename_i hOk
      exact absurd ⟨response, hAgent, Or.inl hOk⟩ h
    · rename_i hName
      split_ifs with hVersion
      · exact absurd ⟨response, hAgent, Or.inr ⟨hVersion, hName⟩⟩ h
      · rfl
    · rfl
  · rfl

/-- A return of the walk with another code than success is such an end. -/
theorem walkPass_returned {rc : Stat} {vars : List Variable}
    (h : walkPass net agent version oid s = .leave (.returned rc vars)) :
    vars = s.vars ∧ (rc ≠ .success → s.pending = [] ∧
      ¬ Continues version (agent (setupRequest version s.lastOid :: s.requests))) := by
  cases hPending : s.pending with
  | cons v rest =>
      simp only [walkPass, hPending, walkVar] at h
      split_ifs at h with hLess hStop
      · cases h
      · cases h
        refine ⟨rfl, ?_⟩
        intro hFailed
        exact (hFailed rfl).elim
  | nil =>
      rw [walkPass_request hPending] at h
      by_cases hContinues : Continues version (agent (setupRequest version s.lastOid :: s.requests))
      · obtain ⟨response, hAnswer, hKind⟩ := hContinues
        rcases hKind with hOk | ⟨rfl, hName⟩
        · simp [walkRequest, hAnswer, hOk] at h
        · simp [walkRequest, hAnswer, hName] at h
      · rw [walkRequest_error hContinues] at h
        cases h
        exact ⟨rfl, fun _ => ⟨rfl, hContinues⟩⟩

/-- A walk that returns success had every request answered. -/
theorem walkAnswered_of_success {vars : List Variable}
    (h : Returns (walkPass net agent version oid) (Walk.start oid) (.returned .success vars)) :
    WalkAnswered net version agent oid fun _ => True := by
  intro s hReaches hPending _
  by_contra hNot
  have hLeave : walkPass net agent version oid s = .leave (.returned .error s.vars) :=
    (walkPass_request hPending).trans (walkRequest_error hNot)
  have hSame := (hReaches.returns h).unique (Returns.leave hLeave)
  cases hSame

/-- A subtree query reports success rightly exactly when its string is parsed. -/
theorem subtreeQueryString_success_iff {subtreeOid : List Char} {subtree : List Variable} :
    (∀ after, SubtreeQueryString net readObjid version agent subtreeOid subtree .success after →
        (readObjid subtreeOid).isSome = true ∧
          ∃ oid, readObjid subtreeOid = some oid ∧
            WalkAnswered net version agent oid fun _ => True) ↔
      (readObjid subtreeOid).isSome = true := by
  cases hRead : readObjid subtreeOid with
  | none =>
      constructor
      · intro hSuccess
        have hReturns : SubtreeQueryString net readObjid version agent subtreeOid subtree .success
            subtree := by
          rw [SubtreeQueryString, hRead]
          exact ⟨rfl, rfl⟩
        exact (hSuccess subtree hReturns).1
      · intro hNone
        cases hNone
  | some oid =>
      constructor
      · intro _
        rfl
      · intro _ after hReturns
        rw [SubtreeQueryString, hRead] at hReturns
        exact ⟨rfl, oid, rfl, walkAnswered_of_success hReturns⟩

/-- With the subtree as what it stores to, it can be relied on exactly when moreover the
agent does not fail once a variable was stored. -/
theorem subtreeQueryString_reliable_iff {subtreeOid : List Char} {subtree : List Variable} :
    Reliable (SubtreeQueryString net readObjid version agent subtreeOid subtree)
        ((readObjid subtreeOid).isSome = true)
        (∃ oid, readObjid subtreeOid = some oid ∧ WalkAnswered net version agent oid fun _ => True)
        [] ↔
      ∃ oid, readObjid subtreeOid = some oid ∧
        WalkAnswered net version agent oid fun s => s.vars ≠ [] := by
  constructor
  · intro hReliable
    obtain ⟨oid, hRead⟩ := Option.isSome_iff_exists.mp
      (subtreeQueryString_success_iff.mp hReliable.success)
    refine ⟨oid, hRead, ?_⟩
    intro s hReaches hPending hStored
    by_contra hNot
    have hReturns : SubtreeQueryString net readObjid version agent subtreeOid subtree .error
        s.vars := by
      rw [SubtreeQueryString, hRead]
      apply hReaches.returns_from
      exact Returns.leave ((walkPass_request hPending).trans (walkRequest_error hNot))
    have hFailed : Stat.error ≠ Stat.success := by decide
    exact hStored (hReliable.failure .error s.vars hReturns hFailed)
  · rintro ⟨oid, hRead, hAnswered⟩
    constructor
    · exact subtreeQueryString_success_iff.mpr (Option.isSome_iff_exists.mpr ⟨oid, hRead⟩)
    · intro rc after hReturns hFailed
      rw [SubtreeQueryString, hRead] at hReturns
      obtain ⟨s, hReaches, hLeave⟩ := hReturns.exists_leave
      obtain ⟨rfl, hEnd⟩ := walkPass_returned hLeave
      obtain ⟨hPending, hNot⟩ := hEnd hFailed
      by_contra hStored
      exact hNot (hAnswered s hReaches hPending hStored)

end Returns

/-- The three functions take the value of `STAT_SUCCESS` for a string that is not
parsed. They can be relied on exactly where this does not happen, and the walk, which
stores as it goes, where no answer fails behind a stored variable. -/
theorem mpSnmpFetch_reliable_iff (net : NetSnmp) (readObjid : ReadObjid)
    (vsnprintf : List Char → List Char) (version : Version) (agent : Agent)
    (values : List Value) (behind : Nat → QueryCmd) (mem : Targets) (subtreeOid : List Char)
    (subtree : List Variable) :
    (Reliable (ValuesFetch2 net readObjid version agent values behind mem)
        (Parses readObjid (·.oid) values)
        (GetAnswered net readObjid version agent (·.oid) values behind) mem ↔
      Parses readObjid (·.oid) values) ∧
    (Reliable (ValuesFetch3 net readObjid vsnprintf version agent values behind mem)
        (Parses readObjid (formattedOid vsnprintf) values)
        (GetAnswered net readObjid version agent (formattedOid vsnprintf) values behind) mem ↔
      Parses readObjid (formattedOid vsnprintf) values) ∧
    ((∀ after, SubtreeQueryString net readObjid version agent subtreeOid subtree .success after →
        (readObjid subtreeOid).isSome = true ∧
          ∃ oid, readObjid subtreeOid = some oid ∧
            WalkAnswered net version agent oid fun _ => True) ↔
      (readObjid subtreeOid).isSome = true) ∧
    (Reliable (SubtreeQueryString net readObjid version agent subtreeOid subtree)
        ((readObjid subtreeOid).isSome = true)
        (∃ oid, readObjid subtreeOid = some oid ∧ WalkAnswered net version agent oid fun _ => True)
        [] ↔
      ∃ oid, readObjid subtreeOid = some oid ∧
        WalkAnswered net version agent oid fun s => s.vars ≠ []) :=
  ⟨valuesFetch_reliable_iff, valuesFetch_reliable_iff, subtreeQueryString_success_iff,
    subtreeQueryString_reliable_iff⟩

/-- An agent that is not there. -/
def silentAgent : Agent := fun _ => (.timeout, none)

/-- A name that is no number and not in the MIB. -/
def unknownName : Value := { oid := ['x'], type := .integer, target := 0, targetLen := 8 }

/-- It is reported as success, by a fetch and by a walk, though nothing was sent. -/
theorem mpSnmpFetch_not_reliable :
    ¬ Reliable (ValuesFetch2 NetSnmp.reference numericOid .v2c silentAgent [unknownName]
        (fun _ => zeroCmd) fun _ => .string none) (Parses numericOid (·.oid) [unknownName])
      (GetAnswered NetSnmp.reference numericOid .v2c silentAgent (·.oid) [unknownName] fun _ =>
        zeroCmd) (fun _ => .string none) ∧
    SubtreeQueryString NetSnmp.reference numericOid .v2c silentAgent unknownName.oid [] .success
      [] ∧ numericOid unknownName.oid = none := by
  refine ⟨?_, ⟨rfl, rfl⟩, rfl⟩
  intro hReliable
  have hNot : ¬ Parses numericOid (·.oid) [unknownName] := by
    unfold Parses
    decide
  exact hNot (hReliable.success (fun _ => .string none) ⟨rfl, rfl⟩).1

end MonitoringPlug.Snmp
