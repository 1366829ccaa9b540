import Mathlib.Algebra.Group.Int.Defs
import Mathlib.Algebra.Group.Nat.Defs
import MonitoringPlug.Lib.Block
import MonitoringPlug.Common

/-! The message functions of `mp_common.c` on the objects they allocate. A message
is the formatted text; its length is what `vsnprintf` returns, an `int`. -/
namespace MonitoringPlug.Common.Buffer

open CMemory

/-- Why a call does not come back: an access outside of an object, or the exit of
`mp_malloc` and `mp_realloc`. -/
inductive Stop where
  | overrun
  | outOfMemory
deriving DecidableEq

def intMax : Nat := 2 ^ 31 - 1

/-- An `int` as `size_t`. -/
def sizeT (n : Int) : Nat := (n % 2 ^ 64).toNat

/-- No object is larger than `PTRDIFF_MAX`. -/
def mpMalloc (size : Nat) : Except Stop Block :=
  if size < 2 ^ 63 then .ok (malloc size) else .error .outOfMemory

def mpRealloc (b : Block) (size : Nat) : Except Stop Block :=
  if size < 2 ^ 63 then .ok (realloc b size) else .error .outOfMemory

/-- An access with no result is outside of the object. -/
def inside {α : Type} : Option α → Except Stop α
  | some a => .ok a
  | none => .error .overrun

/-- `vsnprintf(NULL, 0, fmt, ap)`: -1 where the length is no `int`. -/
def messageLength (message : CString) : Int :=
  if message.strlen ≤ intMax then message.strlen else -1

/-- `vsnprintf` to an offset: at most `size` bytes, the NUL among them. -/
def vsnprintf (b : Block) (offset size : Nat) (message : CString) : Option Block :=
  if size = 0 then some b else store b offset (message.bytes.take (size - 1) ++ [0])

/-- `mp_malloc(len)`, and the empty string stored there. -/
def newBuffer (len : Int) : Except Stop Block := do
  let b ← mpMalloc (sizeT len)
  inside (store b 0 [0])

/-- `Get buffer`, in the functions that append. -/
def getBuffer (out : Option Block) (len : Int) : Except Stop Block :=
  match out with
  | some old => do
      let text ← inside (loadString old)
      let b ← mpRealloc old (sizeT (text.length + len + 3))
      let text ← inside (loadString b)
      inside (store b text.length [44, 32, 0])
  | none => newBuffer len

/-- The body the three appending functions share. -/
def append (out : Option Block) (message : CString) : Except Stop Block := do
  let len := messageLength message
  let b ← getBuffer out len
  let text ← inside (loadString b)
  inside (vsnprintf b text.length (sizeT (len + 1)) message)

/-- The globals, with the object behind each pointer. -/
structure Buffers where
  mpState : Int
  outOk : Option Block
  outOkonly : Option Block
  outWarning : Option Block
  outCritical : Option Block

/-- The globals when the program starts. -/
def start : Buffers :=
  { mpState := -1, outOk := none, outOkonly := none, outWarning := none, outCritical := none }

def setOk (message : CString) (g : Buffers) : Except Stop Buffers := do
  let mpState := raise .ok g.mpState
  let out ← append g.outOk message
  return { g with mpState := mpState, outOk := some out }

def setOkonly (message : CString) (g : Buffers) : Except Stop Buffers :=
  if Status.ok.code < g.mpState then return g
  else do
    let len := messageLength message
    let b ← newBuffer len
    let b ← inside (vsnprintf b 0 (sizeT (len + 1)) message)
    return { g with outOkonly := some b }

def setWarning (message : CString) (g : Buffers) : Except Stop Buffers := do
  let mpState := raise .warning g.mpState
  let out ← append g.outWarning message
  return { g with mpState := mpState, outWarning := some out }

def setCritical (message : CString) (g : Buffers) : Except Stop Buffers := do
  let mpState := raise .critical g.mpState
  let out ← append g.outCritical message
  return { g with mpState := mpState, outCritical := some out }

inductive Setter where
  | ok
  | okonly
  | warning
  | critical
deriving DecidableEq

def Setter.call : Setter → CString → Buffers → Except Stop Buffers
  | .ok => setOk
  | .okonly => setOkonly
  | .warning => setWarning
  | .critical => setCritical

/-- A run of calls, up to one that does not come back. -/
def run (calls : List (Setter × CString)) (g : Buffers) : Except Stop Buffers :=
  calls.foldlM (fun g call => call.1.call call.2 g) g

/-- No access was outside of the object it was meant for. -/
def Inside {α : Type} (result : Except Stop α) : Prop := result ≠ .error .overrun

/-- A pointer of the globals is NULL or a string was stored behind it. -/
def HoldsText (out : Option Block) : Prop :=
  ∀ b ∈ out, ∃ text : CString, Holds b text.terminated ∧ b.length < 2 ^ 63

structure Held (g : Buffers) : Prop where
  ok : HoldsText g.outOk
  okonly : HoldsText g.outOkonly
  warning : HoldsText g.outWarning
  critical : HoldsText g.outCritical

@[simp] theorem ok_bind {α β : Type} (a : α) (next : α → Except Stop β) :
    (Except.ok a >>= next) = next a := rfl

@[simp] theorem error_bind {α β : Type} (stop : Stop) (next : α → Except Stop β) :
    (Except.error stop >>= next) = .error stop := rfl

@[simp] theorem inside_some {α : Type} (a : α) : inside (some a) = .ok a := rfl

@[simp] theorem inside_none {α : Type} : inside (none : Option α) = .error .overrun := rfl

section Message

variable {message : CString}

theorem sizeT_natCast {n : Nat} (h : n < 2 ^ 64) : sizeT n = n := by
  rw [sizeT]
  omega

theorem vsnprintf_message (b : Block) (offset : Nat) (hLength : message.strlen ≤ intMax) :
    vsnprintf b offset (sizeT (messageLength message + 1)) message =
      store b offset message.terminated := by
  have hMax : intMax = 2 ^ 31 - 1 := rfl
  have hSize : sizeT (messageLength message + 1) = message.strlen + 1 := by
    rw [messageLength, if_pos hLength]
    exact sizeT_natCast (n := message.strlen + 1) (by omega)
  rw [vsnprintf, hSize, if_neg (Nat.succ_ne_zero _), Nat.add_sub_cancel, CString.strlen,
    List.take_length, CString.terminated]

/-- The object for a first message is as long as the message, so its NUL, or for an
empty message already the NUL stored before, is outside. -/
theorem newBuffer_small (hLength : message.strlen ≤ intMax) :
    newBuffer (messageLength message) = .error .overrun ∨
      ∃ b, newBuffer (messageLength message) = .ok b ∧ loadString b = some [] ∧
        store b 0 message.terminated = none := by
  have hMax : intMax = 2 ^ 31 - 1 := rfl
  have hMalloc : mpMalloc (sizeT (messageLength message)) = .ok (malloc message.strlen) := by
    rw [messageLength, if_pos hLength, sizeT_natCast (by omega), mpMalloc, if_pos (by omega)]
  rw [newBuffer, hMalloc]
  cases hEmpty : message.strlen with
  | zero => exact Or.inl rfl
  | succ rest =>
      have hStore : store (malloc (rest + 1)) 0 [0] = some (some 0 :: malloc rest) :=
        store_cell [] none 0 _
      refine Or.inr ⟨some 0 :: malloc rest, ?_, rfl, ?_⟩
      · rw [ok_bind, hStore]
        rfl
      · rw [store, if_neg]
        simp [hEmpty]

theorem newBuffer_outOfMemory (hLength : intMax < message.strlen) :
    newBuffer (messageLength message) = .error .outOfMemory := by
  have hSize : sizeT (messageLength message) = 2 ^ 64 - 1 := by
    rw [messageLength, if_neg (Nat.not_le.mpr hLength)]
    rfl
  rw [newBuffer, mpMalloc, hSize, if_neg (by decide)]
  rfl

theorem append_first (message : CString) :
    append none message =
      .error (if message.strlen ≤ intMax then .overrun else .outOfMemory) := by
  rw [append, getBuffer]
  split
  · rename_i hLength
    rcases newBuffer_small hLength with hStop | ⟨b, hNew, hText, hOutside⟩
    · simp [hStop]
    · simp [hNew, hText, vsnprintf_message _ _ hLength, hOutside]
  · rename_i hLength
    simp [newBuffer_outOfMemory (Nat.lt_of_not_le hLength)]

theorem setOkonly_writes {g : Buffers} (hState : ¬ Status.ok.code < g.mpState)
    (message : CString) :
    setOkonly message g =
      .error (if message.strlen ≤ intMax then .overrun else .outOfMemory) := by
  rw [setOkonly, if_neg hState]
  split
  · rename_i hLength
    rcases newBuffer_small hLength with hStop | ⟨b, hNew, -, hOutside⟩
    · simp [hStop]
    · simp [hNew, vsnprintf_message _ _ hLength, hOutside]
  · rename_i hLength
    simp [newBuffer_outOfMemory (Nat.lt_of_not_le hLength)]

end Message

section Appended

variable {old : Block} {text message : CString}

/-- Two texts with the separator between. -/
def separated (text message : CString) : CString where
  bytes := text.bytes ++ [44, 32] ++ message.bytes
  nulFree := by
    simp only [List.mem_append, List.mem_cons, List.not_mem_nil, or_false]
    rintro ((hText | hComma | hBlank) | hMessage)
    · exact text.nulFree hText
    · cases hComma
    · cases hBlank
    · exact message.nulFree hMessage

/-- The sum of the lengths does not wrap. -/
theorem sizeT_separated (hLength : message.strlen ≤ intMax)
    (hText : text.strlen + 1 < 2 ^ 63) :
    sizeT (text.bytes.length + messageLength message + 3) =
      text.strlen + message.strlen + 3 := by
  have hMax : intMax = 2 ^ 31 - 1 := rfl
  rw [messageLength, if_pos hLength]
  exact sizeT_natCast (n := text.strlen + message.strlen + 3) (by omega)

/-- Behind a text there is room for the separator, the message and the NUL. -/
theorem append_behind (hOld : Holds old text.terminated) (hLength : message.strlen ≤ intMax)
    (hMemory : text.strlen + message.strlen + 3 < 2 ^ 63) :
    ∃ b, append (some old) message = .ok b ∧ Holds b (separated text message).terminated ∧
      b.length = text.strlen + message.strlen + 3 := by
  have hText : text.strlen + 1 < 2 ^ 63 := by omega
  have hSize := sizeT_separated hLength hText
  have hGrown : Holds (realloc old (text.strlen + message.strlen + 3)) text.terminated :=
    hOld.realloc (by rw [CString.terminated_length]; omega)
  obtain ⟨b, hSeparator, hFront, hSame⟩ := Holds.store (Holds.of_append hGrown) [44, 32, 0]
    (by rw [realloc_length, CString.strlen]; simp)
  -- The separator ends a string of its own: the message goes over its NUL.
  have hSeparated : Holds b (text.bytes ++ [44, 32]) := by
    have hString : Holds b (text.bytes ++ [44, 32] ++ [0]) := by
      simpa using hFront
    exact hString.of_append
  have hTextBack : loadString b = some (text.bytes ++ [44, 32]) := by
    have hString : Holds b (separated text ⟨[], List.not_mem_nil⟩).terminated := by
      simpa [CString.terminated, separated] using hFront
    simpa [separated] using hString.loadString
  have hOffset : (text.bytes ++ [44, 32]).length = text.bytes.length + 2 := by simp
  have hRoom : b.length = text.bytes.length + message.bytes.length + 3 := by
    rw [hSame, realloc_length]
    rfl
  obtain ⟨b', hMessage, hAll, hLast⟩ := hSeparated.store message.terminated
    (by rw [hOffset, hRoom, CString.terminated_length, CString.strlen]; omega)
  rw [hOffset] at hMessage
  refine ⟨b', ?_, ?_, ?_⟩
  · have hRealloc : mpRealloc old (text.strlen + message.strlen + 3) =
        .ok (realloc old (text.strlen + message.strlen + 3)) := if_pos hMemory
    simp [append, getBuffer, hOld.loadString, hSize, hRealloc, hGrown.loadString, hSeparator,
      hTextBack, vsnprintf_message _ _ hLength, hMessage]
  · simpa [CString.terminated, separated] using hAll
  · rw [hLast, hRoom]
    rfl

theorem append_outOfMemory (hOld : Holds old text.terminated)
    (hLength : message.strlen ≤ intMax) (hSmall : old.length < 2 ^ 63)
    (hMemory : 2 ^ 63 ≤ text.strlen + message.strlen + 3) :
    append (some old) message = .error .outOfMemory := by
  have hText : text.strlen + 1 ≤ old.length := by
    simpa using hOld.length_le
  have hSize := sizeT_separated hLength (Nat.lt_of_le_of_lt hText hSmall)
  have hRealloc : mpRealloc old (text.strlen + message.strlen + 3) = .error .outOfMemory :=
    if_neg (Nat.not_lt.mpr hMemory)
  simp [append, getBuffer, hOld.loadString, hSize, hRealloc]

end Appended

/-- The object the call writes to, if it was allocated before. -/
def Setter.out : Setter → Buffers → Option Block
  | .ok, g => g.outOk
  | .okonly, g => g.outOkonly
  | .warning, g => g.outWarning
  | .critical, g => g.outCritical

/-- The call appends to a message, or is `set_okonly` behind a problem. -/
def Appends (g : Buffers) (call : Setter × CString) : Prop :=
  if call.1 = .okonly then Status.ok.code < g.mpState else call.1.out g ≠ none

/-- One appending function on its own pointer. -/
theorem append_inside {out : Option Block} (hOut : HoldsText out) {message : CString}
    (hLength : message.strlen ≤ intMax) (hSome : out ≠ none) :
    append out message = .error .outOfMemory ∨
      ∃ b, append out message = .ok b ∧ HoldsText (some b) := by
  obtain ⟨old, rfl⟩ := Option.ne_none_iff_exists'.mp hSome
  obtain ⟨text, hText, hSmall⟩ := hOut old rfl
  by_cases hMemory : text.strlen + message.strlen + 3 < 2 ^ 63
  · obtain ⟨b, hAppend, hHolds, hSize⟩ := append_behind hText hLength hMemory
    refine Or.inr ⟨b, hAppend, ?_⟩
    rintro b' ⟨⟩
    exact ⟨_, hHolds, hSize ▸ hMemory⟩
  · exact Or.inl (append_outOfMemory hText hLength hSmall (Nat.le_of_not_lt hMemory))

section Call

variable {g : Buffers} {call : Setter × CString}

/-- A text is appended and put into the globals, or the memory is out. -/
theorem append_held {out : Option Block} {message : CString} {put : Block → Buffers}
    (hOut : HoldsText out) (hLength : message.strlen ≤ intMax) (hSome : out ≠ none)
    (hPut : ∀ b, HoldsText (some b) → Held (put b)) :
    (append out message >>= fun b => .ok (put b)) = .error .outOfMemory ∨
      ∃ g', (append out message >>= fun b => .ok (put b)) = .ok g' ∧ Held g' := by
  rcases append_inside hOut hLength hSome with hStop | ⟨b, hDone, hText⟩
  · exact Or.inl (by rw [hStop, error_bind])
  · exact Or.inr ⟨put b, by rw [hDone, ok_bind], hPut b hText⟩

/-- A call that appends stays inside of its object, and the globals hold texts again. -/
theorem call_appends (hHeld : Held g) (hLength : call.2.strlen ≤ intMax) (h : Appends g call) :
    call.1.call call.2 g = .error .outOfMemory ∨
      ∃ g', call.1.call call.2 g = .ok g' ∧ Held g' := by
  obtain ⟨setter, message⟩ := call
  cases setter with
  | ok =>
      have hSome : g.outOk ≠ none := by simpa [Appends, Setter.out] using h
      exact append_held hHeld.ok hLength hSome fun b hText => { hHeld with ok := hText }
  | okonly =>
      have hState : Status.ok.code < g.mpState := by simpa [Appends] using h
      exact Or.inr ⟨g, by rw [Setter.call, setOkonly, if_pos hState]; rfl, hHeld⟩
  | warning =>
      have hSome : g.outWarning ≠ none := by simpa [Appends, Setter.out] using h
      exact append_held hHeld.warning hLength hSome fun b hText => { hHeld with warning := hText }
  | critical =>
      have hSome : g.outCritical ≠ none := by simpa [Appends, Setter.out] using h
      exact append_held hHeld.critical hLength hSome fun b hText => { hHeld with critical := hText }

/-- Any other call allocates, and writes past what it allocated unless the message is too
long for that. -/
theorem call_allocates (h : ¬ Appends g call) :
    call.1.call call.2 g =
      .error (if call.2.strlen ≤ intMax then .overrun else .outOfMemory) := by
  obtain ⟨setter, message⟩ := call
  cases setter with
  | ok =>
      have hNone : g.outOk = none := by simpa [Appends, Setter.out] using h
      simp [Setter.call, setOk, hNone, append_first]
  | okonly =>
      have hState : ¬ Status.ok.code < g.mpState := by simpa [Appends] using h
      exact setOkonly_writes hState message
  | warning =>
      have hNone : g.outWarning = none := by simpa [Appends, Setter.out] using h
      simp [Setter.call, setWarning, hNone, append_first]
  | critical =>
      have hNone : g.outCritical = none := by simpa [Appends, Setter.out] using h
      simp [Setter.call, setCritical, hNone, append_first]

/-- One call with a message that an `int` counts stays inside exactly when it appends. -/
theorem call_inside_iff (hHeld : Held g) (hLength : call.2.strlen ≤ intMax) :
    Inside (call.1.call call.2 g) ↔ Appends g call := by
  constructor
  · intro hInside
    by_contra hAllocates
    rw [call_allocates hAllocates, if_pos hLength] at hInside
    exact hInside rfl
  · intro hAppends
    rcases call_appends hHeld hLength hAppends with hStop | ⟨g', hDone, -⟩
    · rw [hStop]
      simp [Inside]
    · rw [hDone]
      simp [Inside]

end Call

section Refinement

/-- The bytes of a message of `Globals`. -/
def bytesOf (message : String) : List UInt8 := message.toByteArray.data.toList

theorem bytesOf_append (front back : String) :
    bytesOf (front ++ back) = bytesOf front ++ bytesOf back := by
  simp [bytesOf, String.toByteArray_append]

/-- The object behind a pointer has this text. -/
def Shows (out : Option Block) (text : Option String) : Prop :=
  match out, text with
  | none, none => True
  | some b, some text => ∃ bytes : CString, bytes.bytes = bytesOf text ∧
      Holds b bytes.terminated ∧ b.length < 2 ^ 63
  | _, _ => False

/-- The objects have the texts that are followed without them. -/
structure Refines (b : Buffers) (g : Globals) : Prop where
  mpState : b.mpState = g.mpState
  ok : Shows b.outOk g.outOk
  okonly : Shows b.outOkonly g.outOkonly
  warning : Shows b.outWarning g.outWarning
  critical : Shows b.outCritical g.outCritical

/-- The call without its object. -/
def Setter.message : Setter → String → Call
  | .ok => .ok
  | .okonly => .okonly
  | .warning => .warning
  | .critical => .critical

theorem append_shows {out : Option Block} {text : Option String} (hOut : Shows out text)
    {message : CString} {shown : String} (hMessage : message.bytes = bytesOf shown)
    (hLength : message.strlen ≤ intMax) {b : Block} (hDone : append out message = .ok b) :
    Shows (some b) (some (appendMessage text shown)) := by
  cases out with
  | none => rw [append_first] at hDone; cases hDone
  | some old =>
      cases text with
      | none => exact hOut.elim
      | some text =>
          obtain ⟨bytes, hBytes, hHolds, hSmall⟩ := hOut
          by_cases hMemory : bytes.strlen + message.strlen + 3 < 2 ^ 63
          · obtain ⟨b', hAppend, hAppended, hSize⟩ := append_behind hHolds hLength hMemory
            cases hAppend.symm.trans hDone
            refine ⟨separated bytes message, ?_, hAppended, hSize ▸ hMemory⟩
            rw [appendMessage, bytesOf_append, bytesOf_append, ← hBytes, ← hMessage]
            rfl
          · rw [append_outOfMemory hHolds hLength hSmall (Nat.le_of_not_lt hMemory)] at hDone
            cases hDone

/-- A call that comes back has done to the objects what it does to the texts. -/
theorem Refines.call {b b' : Buffers} {g : Globals} (h : Refines b g) (setter : Setter)
    {message : CString} {shown : String} (hMessage : message.bytes = bytesOf shown)
    (hLength : message.strlen ≤ intMax) (hDone : setter.call message b = .ok b') :
    Refines b' ((setter.message shown).step g) := by
  cases setter with
  | ok =>
      rw [Setter.call, setOk] at hDone
      cases hAppend : append b.outOk message with
      | error stop => rw [hAppend] at hDone; cases hDone
      | ok out =>
          rw [hAppend] at hDone
          cases hDone
          exact { h with mpState := congrArg (raise .ok) h.mpState,
                         ok := append_shows h.ok hMessage hLength hAppend }
  | okonly =>
      by_cases hState : Status.ok.code < b.mpState
      · rw [Setter.call, setOkonly, if_pos hState] at hDone
        cases hDone
        rw [Setter.message, Call.step, Common.setOkonly, if_pos (h.mpState ▸ hState)]
        exact h
      · rw [Setter.call, setOkonly_writes hState] at hDone
        cases hDone
  | warning =>
      rw [Setter.call, setWarning] at hDone
      cases hAppend : append b.outWarning message with
      | error stop => rw [hAppend] at hDone; cases hDone
      | ok out =>
          rw [hAppend] at hDone
          cases hDone
          exact { h with mpState := congrArg (raise .warning) h.mpState,
                         warning := append_shows h.warning hMessage hLength hAppend }
  | critical =>
      rw [Setter.call, setCritical] at hDone
      cases hAppend : append b.outCritical message with
      | error stop => rw [hAppend] at hDone; cases hDone
      | ok out =>
          rw [hAppend] at hDone
          cases hDone
          exact { h with mpState := congrArg (raise .critical) h.mpState,
                         critical := append_shows h.critical hMessage hLength hAppend }

end Refinement

/-- No call appends before one has allocated. -/
theorem not_appends_start (call : Setter × CString) : ¬ Appends start call := by
  obtain ⟨setter, message⟩ := call
  cases setter <;> simp [Appends, Setter.out, start]

/-- A run in which every call appends stays inside. -/
theorem run_inside {g : Buffers} (hHeld : Held g) {calls : List (Setter × CString)}
    (hLength : ∀ call ∈ calls, call.2.strlen ≤ intMax)
    (hAppends : ∀ before call after g', calls = before ++ call :: after →
      run before g = .ok g' → Appends g' call) : Inside (run calls g) := by
  induction calls generalizing g with
  | nil => exact fun h => by cases h
  | cons call calls ih =>
      have hFirst := hAppends [] call calls g rfl rfl
      rcases call_appends hHeld (hLength call List.mem_cons_self) hFirst with
        hStop | ⟨g', hDone, hNext⟩
      · rw [run, List.foldlM_cons, hStop]
        simp [Inside]
      · rw [run, List.foldlM_cons, hDone]
        refine ih hNext (fun c hc => hLength c (List.mem_cons_of_mem _ hc)) ?_
        intro before c after g'' hSplit hRun
        refine hAppends (call :: before) c after g'' (by rw [hSplit]; rfl) ?_
        rw [run, List.foldlM_cons, hDone]
        exact hRun

/-- From the start of the program, a sequence of calls stays inside only when it is empty
or ends in its first call for lack of memory. -/
theorem run_start_inside_iff (calls : List (Setter × CString)) :
    Inside (run calls start) ↔ ∀ call ∈ calls.head?, intMax < call.2.strlen := by
  cases calls with
  | nil =>
      have hDone : Inside (run [] start) := fun h => by cases h
      simp [hDone]
  | cons call calls =>
      have hFirst : run (call :: calls) start =
          .error (if call.2.strlen ≤ intMax then .overrun else .outOfMemory) := by
        rw [run, List.foldlM_cons, call_allocates (not_appends_start call)]
        rfl
      rw [hFirst, Inside]
      by_cases hLength : call.2.strlen ≤ intMax
      · simp [hLength]
      · simp [hLength, Nat.lt_of_not_le hLength]

/-- `set_ok("")` stores a NUL into an object of no bytes. -/
theorem run_empty_message :
    ¬ Inside (run [(.ok, ⟨[], List.not_mem_nil⟩)] start) := by
  intro h
  exact h rfl

end MonitoringPlug.Common.Buffer
