import MonitoringPlug.Lib.Search
import MonitoringPlug.Lib.Text
import MonitoringPlug.Common
import MonitoringPlug.Utils

/-! `check_webdav`: the methods that `--allow` asks for against the Allow header. -/
namespace MonitoringPlug.Curl

open CText MonitoringPlug.Common MonitoringPlug.Utils

/-- The pointers `strsep` yields for one argument are added to the array. -/
def mpArrayPush (array : List (List Char)) (obj : List Char) : List (List Char) :=
  match _h : strsep ',' obj with
  | (token, none) => array ++ [token]
  | (token, some rest) => mpArrayPush (array ++ [token]) rest
termination_by obj.length
decreasing_by
  rw [strsep] at _h
  split at _h
  · cases _h
  · next c behind hDrop =>
      cases _h
      have := (List.dropWhile_sublist (l := obj) (fun c => c != ',')).length_le
      rw [hDrop, List.length_cons] at this
      omega

/-- The hit `strstr` finds must be delimited by commas or by the ends of the string. -/
def listed (allow method : List Char) : Bool :=
  match strstr method allow with
  | none => false
  | some ptr =>
      (ptr == 0 || allow[ptr - 1]? == some ',') &&
        (allow[ptr + method.length]? == some ',' || allow[ptr + method.length]? == none)

def missingAllow : List Char :=
  ['M', 'i', 's', 's', 'i', 'n', 'g', ' ', 'A', 'l', 'l', 'o', 'w', ':']

/-- One round of the loop over `allowShould`, on `status` and `output`. -/
def allowStep (allow : List Char) (found : Status × Option (List Char)) (method : List Char) :
    Status × Option (List Char) :=
  if listed allow method then found
  else
    match found.2 with
    | none => (.critical, mpStrcatSpace (mpStrcatSpace none (some missingAllow)) (some method))
    | some output => (.critical, mpStrcatComma (some output) (some method))

def checkAllow (allow : List Char) (allowShould : List (List Char)) :
    Status × Option (List Char) :=
  allowShould.foldl (allowStep allow) (.ok, none)

/-- The optional white space of HTTP. -/
def isOws (c : Char) : Bool := c == ' ' || c == '\t'

/-- A method token: what matters of it is that it is not empty and that no comma and
no blank is part of it. -/
structure Method where
  text : List Char
  nonempty : text ≠ []
  noComma : ',' ∉ text
  noBlank : ∀ c ∈ text, isOws c = false
deriving DecidableEq

/-- A method with the blanks around it. -/
structure AllowEntry where
  leading : List Char
  method : Method
  trailing : List Char
  leading_blank : ∀ c ∈ leading, isOws c = true
  trailing_blank : ∀ c ∈ trailing, isOws c = true

def AllowEntry.text (entry : AllowEntry) : List Char :=
  entry.leading ++ entry.method.text ++ entry.trailing

/-- The value of an Allow header. -/
def allowText : List AllowEntry → List Char
  | [] => []
  | [entry] => entry.text
  | entry :: next :: entries => entry.text ++ ',' :: allowText (next :: entries)

/-- The value of one `--allow`. -/
def argumentText : Method → List Method → List Char
  | method, [] => method.text
  | method, next :: methods => method.text ++ ',' :: argumentText next methods

/-- The methods of an argument end up in the array one by one. -/
theorem mpArrayPush_argumentText (array : List (List Char)) (method : Method)
    (methods : List Method) :
    mpArrayPush array (argumentText method methods) =
      array ++ (method :: methods).map Method.text := by
  induction methods generalizing array method with
  | nil =>
      rw [mpArrayPush, argumentText, strsep_none method.noComma]
      rfl
  | cons next methods ih =>
      rw [mpArrayPush, argumentText, strsep_append method.noComma]
      simp only [ih, List.map_cons, List.append_assoc, List.singleton_append]

theorem isOws_ne_comma {c : Char} (h : isOws c = true) : c ≠ ',' := by
  rintro rfl
  revert h
  decide

theorem AllowEntry.comma_notMem (entry : AllowEntry) : ',' ∉ entry.text := by
  rw [AllowEntry.text, List.mem_append, List.mem_append, not_or, not_or]
  exact ⟨⟨fun h => isOws_ne_comma (entry.leading_blank _ h) rfl, entry.method.noComma⟩,
    fun h => isOws_ne_comma (entry.trailing_blank _ h) rfl⟩

theorem Method.blank_notMem (m : Method) {blanks : List Char}
    (h : ∀ c ∈ blanks, isOws c = true) : ∀ c ∈ blanks, c ∉ m.text := by
  intro c hBlank hMem
  have hNot := m.noBlank c hMem
  rw [h c hBlank] at hNot
  cases hNot

/-- The blanks around a method hide nothing. -/
theorem AllowEntry.infix_text_iff (entry : AllowEntry) (m : Method) :
    m.text <:+: entry.text ↔ m.text <:+: entry.method.text :=
  infix_padded_iff m.nonempty (m.blank_notMem entry.leading_blank)
    (m.blank_notMem entry.trailing_blank)

/-- An entry that reads like a method is that method, with no blank around it. -/
theorem AllowEntry.text_eq_iff (entry : AllowEntry) (m : Method) :
    entry.text = m.text ↔ entry.method = m ∧ entry.leading = [] ∧ entry.trailing = [] := by
  constructor
  · intro hSame
    have hNone {blanks : List Char} (hBlank : ∀ c ∈ blanks, isOws c = true)
        (hPart : ∀ c ∈ blanks, c ∈ entry.text) : blanks = [] := by
      apply List.eq_nil_iff_forall_not_mem.mpr
      intro c hMem
      exact m.blank_notMem hBlank c hMem (hSame ▸ hPart c hMem)
    have hLeading := hNone entry.leading_blank fun c hMem => by simp [AllowEntry.text, hMem]
    have hTrailing := hNone entry.trailing_blank fun c hMem => by simp [AllowEntry.text, hMem]
    refine ⟨?_, hLeading, hTrailing⟩
    rw [AllowEntry.text, hLeading, hTrailing, List.nil_append, List.append_nil] at hSame
    cases hMethod : entry.method
    cases m
    simp_all
  · intro h
    obtain ⟨rfl, hLeading, hTrailing⟩ := h
    rw [AllowEntry.text, hLeading, hTrailing, List.nil_append, List.append_nil]

/-- A hit within the part in front of the first comma is delimited only when it is
all of that part. -/
theorem listed_of_hit {front tail method : List Char} {ptr : Nat} (hComma : ',' ∉ front)
    (hTail : tail.head? = none ∨ tail.head? = some ',') (hHit : strstr method front = some ptr)
    (hFound : strstr method (front ++ tail) = some ptr) :
    listed (front ++ tail) method = true ↔ front = method := by
  obtain ⟨before, behind, hSplit, rfl⟩ := strstr_split hHit
  rw [listed, hFound]
  constructor
  · intro hListed
    simp only [Bool.and_eq_true, Bool.or_eq_true, beq_iff_eq] at hListed
    obtain ⟨hBefore, hBehind⟩ := hListed
    have hStart : before = [] := by
      cases hLast : before.getLast? with
      | none => exact List.getLast?_eq_none_iff.mp hLast
      | some c =>
          have hMem : c ∈ front := by
            rw [hSplit]
            simp [List.mem_of_getLast? hLast]
          have hPositive : before ≠ [] := by
            rintro rfl
            cases hLast
          have hAt : (front ++ tail)[before.length - 1]? = some c := by
            have hLength := List.length_pos_iff.mpr hPositive
            rw [hSplit, List.append_assoc, List.append_assoc,
              List.getElem?_append_left (by omega), ← List.getLast?_eq_getElem?, hLast]
          rcases hBefore with hZero | hComma'
          · exact List.length_eq_zero_iff.mp hZero
          · rw [hAt] at hComma'
            exact absurd (Option.some.inj hComma' ▸ hMem) hComma
    have hEnd : behind = [] := by
      cases behind with
      | nil => rfl
      | cons c behind =>
          have hAt : (front ++ tail)[before.length + method.length]? = some c := by
            rw [hSplit, List.append_assoc, ← List.length_append, List.getElem?_append_right le_rfl]
            simp
          have hMem : c ∈ front := by
            rw [hSplit]
            simp
          rcases hBehind with hComma' | hNone
          · rw [hAt] at hComma'
            exact absurd (Option.some.inj hComma' ▸ hMem) hComma
          · rw [hAt] at hNone
            cases hNone
    rw [hSplit, hStart, hEnd, List.nil_append, List.append_nil]
  · rintro rfl
    have hStart : before = [] := by
      have hLength := congrArg List.length hSplit
      simp only [List.length_append] at hLength
      exact List.length_eq_zero_iff.mp (by omega)
    have hNext : (front ++ tail)[front.length]? = tail.head? := by
      rw [List.getElem?_append_right le_rfl, Nat.sub_self, List.head?_eq_getElem?]
    rcases hTail with hNone | hSome
    · simp [hStart, hNext, hNone]
    · simp [hStart, hNext, hSome]

/-- Without a hit in front of the first comma only the rest counts. -/
theorem listed_behind {front rest : List Char} {m : Method} (hMiss : strstr m.text front = none) :
    listed (front ++ ',' :: rest) m.text = listed rest m.text := by
  rw [listed, listed, strstr_append_delimiter m.nonempty m.noComma, hMiss, Option.none_or]
  cases strstr m.text rest with
  | none => rfl
  | some ptr =>
      have hAt (k : Nat) : (front ++ ',' :: rest)[k + (front.length + 1)]? = rest[k]? := by
        rw [List.getElem?_append_right (by omega), show k + (front.length + 1) - front.length =
          k + 1 by omega, List.getElem?_cons_succ]
      have hEnd : ptr + (front.length + 1) + m.text.length =
          ptr + m.text.length + (front.length + 1) := by omega
      have hBefore : (front ++ ',' :: rest)[ptr + (front.length + 1) - 1]? = some ',' ↔
          ptr = 0 ∨ rest[ptr - 1]? = some ',' := by
        cases ptr with
        | zero => simp
        | succ ptr =>
            rw [show ptr + 1 + (front.length + 1) - 1 = ptr + (front.length + 1) by omega, hAt]
            simp
      rw [Option.map_some, Bool.eq_iff_iff]
      simp only [Bool.and_eq_true, Bool.or_eq_true, beq_iff_eq, hEnd, hAt, hBefore]
      simp

/-- A method is found exactly if the first entry that contains it is that method,
without blanks. -/
theorem listed_allowText_iff (entries : List AllowEntry) (m : Method) :
    listed (allowText entries) m.text = true ↔
      ∃ entry ∈ entries.find? (fun entry => m.text <:+: entry.method.text),
        entry.text = m.text := by
  induction entries with
  | nil => simp [allowText, listed, strstr, m.nonempty]
  | cons entry entries ih =>
      cases hHit : strstr m.text entry.text with
      | none =>
          have hOther : ¬m.text <:+: entry.method.text := by
            rw [← entry.infix_text_iff]
            exact strstr_eq_none_iff.mp hHit
          rw [List.find?_cons_of_neg (by simpa using hOther)]
          cases entries with
          | nil => simp [allowText, listed, hHit]
          | cons next entries => rw [allowText, listed_behind hHit, ih]
      | some ptr =>
          have hContains : m.text <:+: entry.method.text := by
            rw [← entry.infix_text_iff, ← strstr_isSome_iff, hHit]
            rfl
          rw [List.find?_cons_of_pos (by simpa using hContains)]
          simp only [Option.mem_def, Option.some.injEq, exists_eq_left']
          cases entries with
          | nil =>
              have hFound : strstr m.text (entry.text ++ []) = some ptr := by
                rwa [List.append_nil]
              have hListed := listed_of_hit entry.comma_notMem (Or.inl rfl) hHit hFound
              rwa [List.append_nil] at hListed
          | cons next entries =>
              apply listed_of_hit entry.comma_notMem (Or.inr rfl) hHit
              rw [strstr_append_delimiter m.nonempty m.noComma, hHit, Option.some_or]

/-- What the loop leaves when these methods are missing. -/
def missingReport : List (List Char) → Status × Option (List Char)
  | [] => (.ok, none)
  | method :: methods =>
      (.critical, some (methods.foldl (fun output method => output ++ ',' :: ' ' :: method)
        (missingAllow ++ ' ' :: method)))

/-- The methods the loop reports. -/
def missing (allow : List Char) (allowShould : List (List Char)) : List (List Char) :=
  allowShould.filter fun method => !listed allow method

/-- Once there is an output, each missing method goes behind a comma. -/
theorem foldl_allowStep_unlisted {allow : List Char} {methods : List (List Char)}
    (h : ∀ method ∈ methods, listed allow method = false) (output : List Char) :
    methods.foldl (allowStep allow) (.critical, some output) =
      (.critical, some (methods.foldl (fun output method => output ++ ',' :: ' ' :: method)
        output)) := by
  induction methods generalizing output with
  | nil => rfl
  | cons method methods ih =>
      obtain ⟨hFirst, hRest⟩ := List.forall_mem_cons.mp h
      rw [List.foldl_cons, allowStep, hFirst, if_neg Bool.false_ne_true]
      exact ih hRest _

theorem checkAllow_eq (allow : List Char) (allowShould : List (List Char)) :
    checkAllow allow allowShould = missingReport (missing allow allowShould) := by
  have hUnlisted : ∀ method ∈ missing allow allowShould, listed allow method = false := by
    intro method hMem
    simpa using List.of_mem_filter hMem
  have hMissing : checkAllow allow allowShould =
      (missing allow allowShould).foldl (allowStep allow) (.ok, none) := by
    rw [checkAllow, missing, List.foldl_filter]
    congr 1
    funext found method
    cases hListed : listed allow method with
    | true => simp [allowStep, hListed]
    | false => simp
  rw [hMissing]
  cases hMethods : missing allow allowShould with
  | nil => rfl
  | cons method methods =>
      rw [hMethods] at hUnlisted
      obtain ⟨hFirst, hRest⟩ := List.forall_mem_cons.mp hUnlisted
      rw [List.foldl_cons, allowStep, hFirst, if_neg Bool.false_ne_true]
      exact foldl_allowStep_unlisted hRest _

/-- If the method is in the list at all, the first entry that contains it is that
method with no blank around it. -/
def Recognised (entries : List AllowEntry) (m : Method) : Prop :=
  m ∈ entries.map AllowEntry.method →
    ∃ entry ∈ entries.find? (fun entry => m.text <:+: entry.method.text),
      entry.method = m ∧ entry.leading = [] ∧ entry.trailing = []

/-- The loop reports the methods of `missing`; it reports just those that are not in
the list exactly if all of the others are recognised. -/
theorem checkAllow_missing_iff (entries : List AllowEntry) (required : List Method) :
    checkAllow (allowText entries) (required.map Method.text) =
      missingReport (missing (allowText entries) (required.map Method.text)) ∧
    ((∀ m ∈ required, m.text ∈ missing (allowText entries) (required.map Method.text) ↔
        m ∉ entries.map AllowEntry.method) ↔
      ∀ m ∈ required, Recognised entries m) := by
  refine ⟨checkAllow_eq _ _, forall₂_congr fun m hRequired => ?_⟩
  have hMissing : m.text ∈ missing (allowText entries) (required.map Method.text) ↔
      ¬listed (allowText entries) m.text = true := by
    simp only [missing, List.mem_filter, Bool.not_eq_true', Bool.not_eq_true]
    exact and_iff_right (List.mem_map_of_mem hRequired)
  have hListed : listed (allowText entries) m.text = true ↔
      ∃ entry ∈ entries.find? (fun entry => m.text <:+: entry.method.text),
        entry.method = m ∧ entry.leading = [] ∧ entry.trailing = [] := by
    simp only [listed_allowText_iff, AllowEntry.text_eq_iff]
  rw [hMissing, not_iff_not, hListed, Recognised]
  constructor
  · exact Iff.mpr
  · intro hMember
    refine ⟨?_, hMember⟩
    intro hFirst
    obtain ⟨entry, hEntry, rfl, -⟩ := hFirst
    exact List.mem_map_of_mem (List.mem_of_find?_eq_some hEntry)

theorem options_noBlank : ∀ c ∈ ['O', 'P', 'T', 'I', 'O', 'N', 'S'], isOws c = false := by
  intro c hc
  simp only [List.mem_cons, List.not_mem_nil, or_false] at hc
  rcases hc with rfl | rfl | rfl | rfl | rfl | rfl | rfl <;> rfl

theorem get_noBlank : ∀ c ∈ ['G', 'E', 'T'], isOws c = false := by
  intro c hc
  simp only [List.mem_cons, List.not_mem_nil, or_false] at hc
  rcases hc with rfl | rfl | rfl <;> rfl

def optionsMethod : Method :=
  ⟨['O', 'P', 'T', 'I', 'O', 'N', 'S'], List.cons_ne_nil _ _, nofun, options_noBlank⟩

def getMethod : Method := ⟨['G', 'E', 'T'], List.cons_ne_nil _ _, nofun, get_noBlank⟩

/-- "OPTIONS, GET", with the blank that is written behind a comma. -/
def optionsAndGet : List AllowEntry :=
  [{ leading := [], method := optionsMethod, trailing := [],
     leading_blank := nofun, trailing_blank := nofun },
   { leading := [' '], method := getMethod, trailing := [],
     leading_blank := fun _ hc => List.mem_singleton.mp hc ▸ rfl, trailing_blank := nofun }]

/-- A method that is in the list is reported for the blank in front of it. -/
theorem checkAllow_reports_get :
    allowText optionsAndGet = ['O', 'P', 'T', 'I', 'O', 'N', 'S', ',', ' ', 'G', 'E', 'T'] ∧
      getMethod ∈ optionsAndGet.map AllowEntry.method ∧
      getMethod.text ∈ missing (allowText optionsAndGet) [getMethod.text] ∧
      checkAllow (allowText optionsAndGet) [getMethod.text] =
        (.critical, some (missingAllow ++ [' ', 'G', 'E', 'T'])) := by
  refine ⟨rfl, by simp [optionsAndGet], ?_, rfl⟩
  decide

end MonitoringPlug.Curl
