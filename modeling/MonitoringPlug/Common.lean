import Mathlib.Data.List.Induction

/-! Exit states, the globals that collect a plugin's messages, and the line and
exit code `mp_exit` turns them into. Messages are the formatted texts of the
calls; they are C strings, so without NUL. -/
namespace MonitoringPlug.Common

/-- Exit states of a plugin. -/
inductive Status where
  | ok
  | warning
  | critical
  | unknown
  | dependent
deriving DecidableEq, Repr

/-- The numbers of `STATE_OK` to `STATE_DEPENDENT`. -/
def Status.code : Status → Int
  | .ok => 0
  | .warning => 1
  | .critical => 2
  | .unknown => 3
  | .dependent => 4

@[simp] theorem Status.code_ok : Status.ok.code = 0 := rfl
@[simp] theorem Status.code_warning : Status.warning.code = 1 := rfl
@[simp] theorem Status.code_critical : Status.critical.code = 2 := rfl

/-- What `ok`, `warning`, `critical` and `unknown` print and exit with. -/
structure Exit where
  status : Status
  text : List Char
  perfdata : Option (List Char)
deriving DecidableEq

/-- Return values `OK` and `ERROR` of helper functions. -/
inductive ReturnCode where
  | ok
  | error
deriving DecidableEq, Repr

/-- The globals of `mp_common.c` and the two of `mp_perfdata.c` that `mp_exit`
prints. `none` is a NULL pointer. -/
structure Globals where
  mpState : Int
  outOk : Option String
  outOkonly : Option String
  outWarning : Option String
  outCritical : Option String
  showPerfdata : Bool
  perfdata : Option String
deriving DecidableEq, Repr

/-- The globals before any message was set. -/
def initial (showPerfdata : Bool) (perfdata : Option String) : Globals :=
  { mpState := -1, outOk := none, outOkonly := none, outWarning := none, outCritical := none,
    showPerfdata := showPerfdata, perfdata := perfdata }

/-- `if (mp_state < state) mp_state = state;` -/
def raise (status : Status) (mpState : Int) : Int :=
  if mpState < status.code then status.code else mpState

/-- The buffer handling the three appending functions share. -/
def appendMessage (out : Option String) (message : String) : String :=
  match out with
  | some old => old ++ ", " ++ message
  | none => message

def setOk (message : String) (g : Globals) : Globals :=
  { g with mpState := raise .ok g.mpState, outOk := some (appendMessage g.outOk message) }

/-- Unlike the others this one overwrites, and does nothing once a problem was
reported. -/
def setOkonly (message : String) (g : Globals) : Globals :=
  if Status.ok.code < g.mpState then g
  else { g with outOkonly := some message }

def setWarning (message : String) (g : Globals) : Globals :=
  { g with mpState := raise .warning g.mpState
           outWarning := some (appendMessage g.outWarning message) }

def setCritical (message : String) (g : Globals) : Globals :=
  { g with mpState := raise .critical g.mpState
           outCritical := some (appendMessage g.outCritical message) }

/-- The `switch` at the head of `mp_exit`: the state to exit with and the text
printed for it. Any other state prints nothing here. -/
def exitLabel (mpState : Int) : Int × String :=
  if mpState = -1 ∨ mpState = Status.ok.code then (Status.ok.code, "OK - ")
  else if mpState = Status.warning.code then (mpState, "WARNING - ")
  else if mpState = Status.critical.code then (mpState, "CRITICAL - ")
  else (mpState, "")

/-- A group of messages with the label it gets in a worse state. -/
def printGroup (label : String) (labelled : Bool) : Option String → String
  | none => ""
  | some out => (if labelled then label else "") ++ (" " ++ out)

/-- The printed line and the exit code. -/
def mpExit (message : String) (g : Globals) : String × Int :=
  let (mpState, label) := exitLabel g.mpState
  let okonly := if mpState = Status.ok.code then g.outOkonly else none
  let perfdata := if g.showPerfdata then g.perfdata else none
  (label ++ message ++
    printGroup "" false g.outCritical ++
    printGroup " Warning:" (Status.warning.code < mpState) g.outWarning ++
    printGroup " OK:" (Status.ok.code < mpState) g.outOk ++
    printGroup "" false okonly ++
    printGroup " |" true perfdata ++ "\n", mpState)

/-- One call of a plugin with its formatted message. -/
inductive Call where
  | ok (message : String)
  | okonly (message : String)
  | warning (message : String)
  | critical (message : String)

def Call.step : Call → Globals → Globals
  | .ok message => setOk message
  | .okonly message => setOkonly message
  | .warning message => setWarning message
  | .critical message => setCritical message

def run (calls : List Call) (g : Globals) : Globals := calls.foldl (fun g call => call.step g) g

/-- The messages of each function, in call order. -/
def okMessages (calls : List Call) : List String :=
  calls.filterMap fun | .ok message => some message | _ => none

def okonlyMessages (calls : List Call) : List String :=
  calls.filterMap fun | .okonly message => some message | _ => none

def warningMessages (calls : List Call) : List String :=
  calls.filterMap fun | .warning message => some message | _ => none

def criticalMessages (calls : List Call) : List String :=
  calls.filterMap fun | .critical message => some message | _ => none

/-- The worst function that was called decides. -/
def exitStatus (warnings criticals : List String) : Status :=
  if criticals ≠ [] then .critical else if warnings ≠ [] then .warning else .ok

theorem exitStatus_code (warnings criticals : List String) :
    (exitStatus warnings criticals).code =
      if criticals ≠ [] then 2 else if warnings ≠ [] then 1 else 0 := by
  unfold exitStatus
  split_ifs <;> rfl

theorem exitStatus_eq_ok (warnings criticals : List String) :
    exitStatus warnings criticals = .ok ↔ warnings = [] ∧ criticals = [] := by
  unfold exitStatus
  split_ifs <;> simp_all

/-- A buffer that collected these messages. -/
def joined (messages : List String) : Option String :=
  if messages = [] then none else some (", ".intercalate messages)

theorem joined_append (messages : List String) (message : String) :
    joined (messages ++ [message]) = some (appendMessage (joined messages) message) := by
  by_cases h : messages = []
  · simp [h, joined, appendMessage]
  · simp [h, joined, appendMessage, String.intercalate_append_of_ne_nil]

/-- What the globals hold after some calls, in terms of the messages of each
function. The okonly text is only followed while no problem was reported: from
then on it is neither written nor printed. -/
structure Collected (g : Globals) (calls : List Call) : Prop where
  state : max g.mpState 0 =
    (exitStatus (warningMessages calls) (criticalMessages calls)).code
  lower : -1 ≤ g.mpState
  ok : g.outOk = joined (okMessages calls)
  warning : g.outWarning = joined (warningMessages calls)
  critical : g.outCritical = joined (criticalMessages calls)
  okonly : warningMessages calls = [] ∧ criticalMessages calls = [] →
    g.outOkonly = (okonlyMessages calls).getLast?

theorem collected_initial (showPerfdata : Bool) (perfdata : Option String) :
    Collected (initial showPerfdata perfdata) [] where
  state := rfl
  lower := Int.le_refl _
  ok := rfl
  warning := rfl
  critical := rfl
  okonly := fun _ => rfl

theorem raise_eq_max (status : Status) (mpState : Int) :
    raise status mpState = max mpState status.code := by
  unfold raise
  split <;> omega

section Step

variable {g : Globals} {calls : List Call} (message : String)

theorem Collected.setOk (h : Collected g calls) :
    Collected (setOk message g) (calls ++ [.ok message]) where
  state := by
    have hState := h.state
    rw [exitStatus_code] at hState ⊢
    have hWarnings : warningMessages (calls ++ [.ok message]) = warningMessages calls := by
      simp [warningMessages]
    have hCriticals : criticalMessages (calls ++ [.ok message]) = criticalMessages calls := by
      simp [criticalMessages]
    simp only [Common.setOk, raise_eq_max, Status.code_ok, hWarnings, hCriticals]
    omega
  lower := by
    have hLower := h.lower
    simp only [Common.setOk, raise_eq_max, Status.code_ok]
    omega
  ok := by simp [Common.setOk, okMessages, joined_append, h.ok]
  warning := by simpa [Common.setOk, warningMessages] using h.warning
  critical := by simpa [Common.setOk, criticalMessages] using h.critical
  okonly := by
    simpa [Common.setOk, warningMessages, criticalMessages, okonlyMessages] using h.okonly

theorem setOkonly_frame (g : Globals) :
    ∃ outOkonly, setOkonly message g = { g with outOkonly := outOkonly } := by
  rw [setOkonly]
  split
  · exact ⟨g.outOkonly, rfl⟩
  · exact ⟨some message, rfl⟩

theorem Collected.setOkonly (h : Collected g calls) :
    Collected (setOkonly message g) (calls ++ [.okonly message]) := by
  have hOks : okMessages (calls ++ [.okonly message]) = okMessages calls := by
    simp [okMessages]
  have hWarnings : warningMessages (calls ++ [.okonly message]) = warningMessages calls := by
    simp [warningMessages]
  have hCriticals : criticalMessages (calls ++ [.okonly message]) = criticalMessages calls := by
    simp [criticalMessages]
  have hLast : warningMessages calls = [] ∧ criticalMessages calls = [] →
      (Common.setOkonly message g).outOkonly = some message := by
    rintro ⟨hNoWarning, hNoCritical⟩
    have hState := h.state
    rw [exitStatus_code, hNoWarning, hNoCritical] at hState
    have hQuiet : ¬Status.ok.code < g.mpState := by
      simp only [ne_eq, not_true_eq_false, if_false, Status.code_ok] at hState ⊢
      omega
    rw [Common.setOkonly, if_neg hQuiet]
  obtain ⟨outOkonly, hFrame⟩ := setOkonly_frame message g
  rw [hFrame] at hLast ⊢
  refine ⟨?_, h.lower, ?_, ?_, ?_, ?_⟩
  · rw [hWarnings, hCriticals]
    exact h.state
  · rw [hOks]
    exact h.ok
  · rw [hWarnings]
    exact h.warning
  · rw [hCriticals]
    exact h.critical
  · rw [hWarnings, hCriticals]
    intro hQuiet
    simpa [okonlyMessages] using hLast hQuiet

theorem Collected.setWarning (h : Collected g calls) :
    Collected (setWarning message g) (calls ++ [.warning message]) where
  state := by
    have hState := h.state
    have hWarnings : warningMessages (calls ++ [.warning message]) ≠ [] := by
      simp [warningMessages]
    have hCriticals : criticalMessages (calls ++ [.warning message]) = criticalMessages calls := by
      simp [criticalMessages]
    rw [exitStatus_code] at hState ⊢
    simp only [Common.setWarning, raise_eq_max, Status.code_warning, hCriticals, if_pos hWarnings]
    split_ifs at hState ⊢ <;> omega
  lower := by
    have hLower := h.lower
    simp only [Common.setWarning, raise_eq_max, Status.code_warning]
    omega
  ok := by simpa [Common.setWarning, okMessages] using h.ok
  warning := by simp [Common.setWarning, warningMessages, joined_append, h.warning]
  critical := by simpa [Common.setWarning, criticalMessages] using h.critical
  okonly := by simp [warningMessages]

theorem Collected.setCritical (h : Collected g calls) :
    Collected (setCritical message g) (calls ++ [.critical message]) where
  state := by
    have hState := h.state
    have hCriticals : criticalMessages (calls ++ [.critical message]) ≠ [] := by
      simp [criticalMessages]
    rw [exitStatus_code] at hState ⊢
    simp only [Common.setCritical, raise_eq_max, Status.code_critical, if_pos hCriticals]
    split_ifs at hState <;> omega
  lower := by
    have hLower := h.lower
    simp only [Common.setCritical, raise_eq_max, Status.code_critical]
    omega
  ok := by simpa [Common.setCritical, okMessages] using h.ok
  warning := by simpa [Common.setCritical, warningMessages] using h.warning
  critical := by simp [Common.setCritical, criticalMessages, joined_append, h.critical]
  okonly := by simp [criticalMessages]

end Step

theorem Collected.step {g : Globals} {calls : List Call} (h : Collected g calls) (call : Call) :
    Collected (call.step g) (calls ++ [call]) := by
  cases call with
  | ok message => exact h.setOk message
  | okonly message => exact h.setOkonly message
  | warning message => exact h.setWarning message
  | critical message => exact h.setCritical message

theorem collected_run (calls : List Call) (showPerfdata : Bool) (perfdata : Option String) :
    Collected (run calls (initial showPerfdata perfdata)) calls := by
  induction calls using List.reverseRecOn with
  | nil => exact collected_initial showPerfdata perfdata
  | append_singleton calls call ih =>
      rw [run, List.foldl_append]
      exact ih.step call

theorem warningMessages_eq_nil_iff (calls : List Call) :
    warningMessages calls = [] ↔ ∀ message, .warning message ∉ calls := by
  rw [warningMessages, List.filterMap_eq_nil_iff]
  constructor
  · intro hNone message hMem
    have hMessage := hNone _ hMem
    cases hMessage
  · intro hNone call hMem
    cases call with
    | warning message => exact absurd hMem (hNone message)
    | _ => rfl

theorem criticalMessages_eq_nil_iff (calls : List Call) :
    criticalMessages calls = [] ↔ ∀ message, .critical message ∉ calls := by
  rw [criticalMessages, List.filterMap_eq_nil_iff]
  constructor
  · intro hNone message hMem
    have hMessage := hNone _ hMem
    cases hMessage
  · intro hNone call hMem
    cases call with
    | critical message => exact absurd hMem (hNone message)
    | _ => rfl

/-- The calls never touch the performance data. -/
theorem run_perfdata (calls : List Call) (g : Globals) :
    (run calls g).showPerfdata = g.showPerfdata ∧ (run calls g).perfdata = g.perfdata := by
  induction calls generalizing g with
  | nil => exact ⟨rfl, rfl⟩
  | cons call rest ih =>
      have hStep : (call.step g).showPerfdata = g.showPerfdata ∧
          (call.step g).perfdata = g.perfdata := by
        cases call with
        | okonly message =>
            simp only [Call.step, setOkonly]
            split <;> exact ⟨rfl, rfl⟩
        | _ => exact ⟨rfl, rfl⟩
      have hRest := ih (call.step g)
      exact ⟨hRest.1.trans hStep.1, hRest.2.trans hStep.2⟩

/-- The text in front of the message, by exit status. -/
def Status.label : Status → String
  | .ok => "OK - "
  | .warning => "WARNING - "
  | .critical => "CRITICAL - "
  | .unknown => ""
  | .dependent => ""

/-- The line a plugin prints, from the messages of each function. A group is
labelled when the exit state is worse than the group's own. -/
def exitLine (message : String) (criticals warnings oks okonlys : List String)
    (perfdata : Option String) : String :=
  let status := exitStatus warnings criticals
  status.label ++ message ++
    printGroup "" false (joined criticals) ++
    printGroup " Warning:" (status = .critical) (joined warnings) ++
    printGroup " OK:" (status ≠ .ok) (joined oks) ++
    printGroup "" false (if status = .ok then okonlys.getLast? else none) ++
    printGroup " |" true perfdata ++ "\n"

theorem mpExit_collected {g : Globals} {calls : List Call} (h : Collected g calls)
    (message : String) :
    mpExit message g =
      (exitLine message (criticalMessages calls) (warningMessages calls) (okMessages calls)
        (okonlyMessages calls) (if g.showPerfdata then g.perfdata else none),
       (exitStatus (warningMessages calls) (criticalMessages calls)).code) := by
  have hState := h.state
  have hLower := h.lower
  have hOkonly := h.okonly
  rw [← exitStatus_eq_ok] at hOkonly
  have hStatus : exitStatus (warningMessages calls) (criticalMessages calls) ∈
      [Status.ok, Status.warning, Status.critical] := by
    unfold exitStatus
    split_ifs <;> simp
  simp only [exitLine, ← h.critical, ← h.warning, ← h.ok]
  generalize exitStatus (warningMessages calls) (criticalMessages calls) = status at *
  simp only [List.mem_cons, List.not_mem_nil, or_false] at hStatus
  rcases hStatus with rfl | rfl | rfl
  · have hCase : g.mpState = -1 ∨ g.mpState = 0 := by
      simp only [Status.code] at hState
      omega
    simp [mpExit, exitLabel, Status.code, hCase, Status.label, hOkonly]
  · have hCase : g.mpState = 1 := by
      simp only [Status.code] at hState
      omega
    simp [mpExit, exitLabel, Status.code, hCase, Status.label]
  · have hCase : g.mpState = 2 := by
      simp only [Status.code] at hState
      omega
    simp [mpExit, exitLabel, Status.code, hCase, Status.label]

/-- The exit code of any calls is that of the worst function called. -/
theorem mpExit_code (calls : List Call) (message : String) (showPerfdata : Bool)
    (perfdata : Option String) :
    (mpExit message (run calls (initial showPerfdata perfdata))).2 =
      (exitStatus (warningMessages calls) (criticalMessages calls)).code := by
  rw [mpExit_collected (collected_run calls showPerfdata perfdata)]

/-- The result of any sequence of message calls followed by `mp_exit`. The exit
code is the worst function called; the line holds each group's messages in call
order, with the last okonly text exactly when the exit code is OK. Two sequences
with the same messages per function cannot be told apart by either. Texts are values
here; their objects in memory are in `Common.Buffer`, where `Refines.call` ties the two. -/
theorem mpExit_run (calls : List Call) (message : String) (showPerfdata : Bool)
    (perfdata : Option String) :
    mpExit message (run calls (initial showPerfdata perfdata)) =
      (exitLine message (criticalMessages calls) (warningMessages calls) (okMessages calls)
        (okonlyMessages calls) (if showPerfdata then perfdata else none),
       (exitStatus (warningMessages calls) (criticalMessages calls)).code) ∧
    ∀ calls', okMessages calls' = okMessages calls →
      okonlyMessages calls' = okonlyMessages calls →
      warningMessages calls' = warningMessages calls →
      criticalMessages calls' = criticalMessages calls →
      mpExit message (run calls' (initial showPerfdata perfdata)) =
        mpExit message (run calls (initial showPerfdata perfdata)) := by
  have hLine : ∀ calls, mpExit message (run calls (initial showPerfdata perfdata)) =
      (exitLine message (criticalMessages calls) (warningMessages calls) (okMessages calls)
        (okonlyMessages calls) (if showPerfdata then perfdata else none),
       (exitStatus (warningMessages calls) (criticalMessages calls)).code) := by
    intro calls
    have hPerfdata := run_perfdata calls (initial showPerfdata perfdata)
    rw [mpExit_collected (collected_run calls showPerfdata perfdata), hPerfdata.1, hPerfdata.2]
    rfl
  refine ⟨hLine calls, ?_⟩
  intro calls' hOk hOkonly hWarning hCritical
  rw [hLine calls', hLine calls, hOk, hOkonly, hWarning, hCritical]

/-- An okonly text before or after the problems that silence it, and the other
calls in another order: the same critical exit and the same line. -/
theorem mpExit_run_interleaved :
    let calls := [Call.okonly "fine", .critical "disk", .ok "cpu", .warning "load", .critical "net"]
    let calls' :=
      [Call.warning "load", .critical "disk", .okonly "fine", .critical "net", .ok "cpu"]
    (mpExit "state" (run calls (initial false none))).2 = 2 ∧
    mpExit "state" (run calls' (initial false none)) =
      mpExit "state" (run calls (initial false none)) :=
  ⟨rfl, (mpExit_run _ "state" false none).2 _ rfl rfl rfl rfl⟩

end MonitoringPlug.Common
