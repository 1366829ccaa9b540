import Mathlib.Data.Nat.Bitwise

/-! `check_access` of `check_file.c`: the access string of `--access`, read one
character at a time against the mode of the file. -/
namespace MonitoringPlug.Check

def sIrwxu : Nat := 0o700
def sIrwxg : Nat := 0o070
def sIrwxo : Nat := 0o007
def sIrusr : Nat := 0o400
def sIrgrp : Nat := 0o040
def sIroth : Nat := 0o004
def sIwusr : Nat := 0o200
def sIwgrp : Nat := 0o020
def sIwoth : Nat := 0o002
def sIxusr : Nat := 0o100
def sIxgrp : Nat := 0o010
def sIxoth : Nat := 0o001

/-- The variables of the loop. -/
structure AccessState where
  state : Int
  subjectMask : Nat
  maskFunction : Int
  accessMask : Nat
deriving DecidableEq, Repr

def AccessState.start : AccessState := ⟨0, 0, 0, 0⟩

/-- What `check_access` comes to: it returns, or `unknown` ends the program. -/
inductive AccessResult where
  | returned (value : Int)
  | unknown (message : String)
deriving DecidableEq, Repr

/-- The evaluation of a clause, which stands in the loop and again behind it. `true`
is the `return -1`. -/
def AccessState.fails (fmode : Nat) (s : AccessState) : Bool :=
  if s.maskFunction = -1 then decide (fmode &&& (s.accessMask &&& s.subjectMask) ≠ 0)
  else if s.maskFunction = 0 then
    decide (fmode &&& s.subjectMask ≠ s.accessMask &&& s.subjectMask)
  else if s.maskFunction = 1 then
    decide (fmode &&& (s.accessMask &&& s.subjectMask) ≠ s.accessMask &&& s.subjectMask)
  else false

/-- A clause ends at the first character that is no right. No state is `return -1`. -/
def closeClause (fmode : Nat) (c : Char) (s : AccessState) : Option AccessState :=
  if s.state = 1 ∧ c ≠ 'r' ∧ c ≠ 'w' ∧ c ≠ 'x' then
    if s.fails fmode then none else some .start
  else some s

/-- No state is the call of `unknown`. -/
def readSubject (c : Char) (s : AccessState) : Option AccessState :=
  if s.state = 0 then
    if c = 'u' then some { s with subjectMask := s.subjectMask ||| sIrwxu }
    else if c = 'g' then some { s with subjectMask := s.subjectMask ||| sIrwxg }
    else if c = 'o' then some { s with subjectMask := s.subjectMask ||| sIrwxo }
    else if c = '-' then some { s with maskFunction := -1, state := s.state + 1 }
    else if c = '+' then some { s with maskFunction := 1, state := s.state + 1 }
    else if c = '=' then some { s with maskFunction := 0, state := s.state + 1 }
    else none
  else some s

def readRight (c : Char) (s : AccessState) : AccessState :=
  if s.state = 1 then
    if c = 'r' then { s with accessMask := s.accessMask ||| (sIrusr ||| sIrgrp ||| sIroth) }
    else if c = 'w' then { s with accessMask := s.accessMask ||| (sIwusr ||| sIwgrp ||| sIwoth) }
    else if c = 'x' then { s with accessMask := s.accessMask ||| (sIxusr ||| sIxgrp ||| sIxoth) }
    else s
  else s

/-- The loop over what is left of the string, and the evaluation behind it. -/
def accessLoop (accessstring : List Char) (fmode : Nat) : List Char → AccessState → AccessResult
  | [], s => if s.fails fmode then .returned (-1) else .returned 0
  | c :: rest, s =>
      match closeClause fmode c s with
      | none => .returned (-1)
      | some s =>
          match readSubject c s with
          | none => .unknown ("Illegal access string: " ++ String.ofList accessstring)
          | some s => accessLoop accessstring fmode rest (readRight c s)

def checkAccess (accessstring : List Char) (fmode : Nat) : AccessResult :=
  accessLoop accessstring fmode accessstring .start

/-- Whose rights a clause is about. -/
inductive Subject where
  | user
  | group
  | others
deriving DecidableEq, Repr

inductive Right where
  | read
  | write
  | execute
deriving DecidableEq, Repr

inductive AccessOp where
  | add
  | remove
  | set
deriving DecidableEq, Repr

def Subject.char : Subject → Char
  | .user => 'u'
  | .group => 'g'
  | .others => 'o'

def Right.char : Right → Char
  | .read => 'r'
  | .write => 'w'
  | .execute => 'x'

def AccessOp.char : AccessOp → Char
  | .add => '+'
  | .remove => '-'
  | .set => '='

/-- One clause of an access string, such as `ug+rw`. -/
structure Clause where
  subjects : List Subject
  op : AccessOp
  rights : List Right
  named : subjects ≠ []

def Clause.text (clause : Clause) : List Char :=
  clause.subjects.map Subject.char ++ clause.op.char :: clause.rights.map Right.char

/-- The place of a right among the bits of a file mode. -/
def modeBit (subject : Subject) (right : Right) : Nat :=
  (match subject with
    | .user => 6
    | .group => 3
    | .others => 0) +
  match right with
    | .read => 2
    | .write => 1
    | .execute => 0

/-- The mode grants the right. -/
def Grants (fmode : Nat) (subject : Subject) (right : Right) : Prop :=
  fmode.testBit (modeBit subject right) = true

instance (fmode : Nat) (subject : Subject) (right : Right) :
    Decidable (Grants fmode subject right) := inferInstanceAs (Decidable (_ = _))

/-- What a clause asks of a file mode. -/
def Clause.Holds (fmode : Nat) (clause : Clause) : Prop :=
  ∀ subject ∈ clause.subjects,
    match clause.op with
    | .add => ∀ right ∈ clause.rights, Grants fmode subject right
    | .remove => ∀ right ∈ clause.rights, ¬ Grants fmode subject right
    | .set => ∀ right, Grants fmode subject right ↔ right ∈ clause.rights

/-- `S_IRWXU` and the two like it. -/
def Subject.mask : Subject → Nat
  | .user => sIrwxu
  | .group => sIrwxg
  | .others => sIrwxo

/-- A right of all three at once, as the loop collects it. -/
def Right.mask : Right → Nat
  | .read => sIrusr ||| sIrgrp ||| sIroth
  | .write => sIwusr ||| sIwgrp ||| sIwoth
  | .execute => sIxusr ||| sIxgrp ||| sIxoth

/-- The value `mask_function` gets. -/
def AccessOp.maskFunction : AccessOp → Int
  | .add => 1
  | .remove => -1
  | .set => 0

/-- The masks `|=` has put together. -/
def union {α : Type} (mask : α → Nat) (items : List α) (before : Nat) : Nat :=
  items.foldl (fun bits item => bits ||| mask item) before

/-- Where the loop stands behind the text of a clause. -/
def Clause.read (clause : Clause) : AccessState :=
  { state := 1
    subjectMask := union Subject.mask clause.subjects 0
    maskFunction := clause.op.maskFunction
    accessMask := union Right.mask clause.rights 0 }

section masks

variable {α : Type} (mask : α → Nat)

theorem testBit_union (items : List α) (before i : Nat) :
    (union mask items before).testBit i = true ↔
      before.testBit i = true ∨ ∃ item ∈ items, (mask item).testBit i = true := by
  induction items generalizing before with
  | nil => simp [union]
  | cons item rest ih =>
      have hStep : union mask (item :: rest) before = union mask rest (before ||| mask item) := rfl
      rw [hStep, ih, Nat.testBit_or, Bool.or_eq_true]
      simp only [List.mem_cons, exists_eq_or_imp, or_assoc]

/-- A test by a mask asks for each bit of the mask. -/
theorem and_eq_zero_iff (bits mask : Nat) :
    bits &&& mask = 0 ↔ ∀ i, mask.testBit i = true → bits.testBit i = false := by
  constructor
  · intro hZero i hMask
    have hBit := congrArg (Nat.testBit · i) hZero
    simpa [hMask] using hBit
  · intro hBits
    refine Nat.eq_of_testBit_eq fun i => ?_
    cases hMask : mask.testBit i with
    | false => simp [hMask]
    | true => simp [hBits i hMask]

theorem and_eq_and_iff (bits other mask : Nat) :
    bits &&& mask = other &&& mask ↔
      ∀ i, mask.testBit i = true → bits.testBit i = other.testBit i := by
  constructor
  · intro hEq i hMask
    have hBit := congrArg (Nat.testBit · i) hEq
    simpa [hMask] using hBit
  · intro hBits
    refine Nat.eq_of_testBit_eq fun i => ?_
    cases hMask : mask.testBit i with
    | false => simp [hMask]
    | true => simp [hMask, hBits i hMask]

theorem and_eq_self_iff (bits mask : Nat) :
    bits &&& mask = mask ↔ ∀ i, mask.testBit i = true → bits.testBit i = true := by
  have hSelf := and_eq_and_iff bits mask mask
  rw [Nat.and_self] at hSelf
  rw [hSelf]
  refine forall_congr' fun i => forall_congr' fun hMask => ?_
  rw [hMask]

end masks

/-- No two rights share a bit. -/
theorem modeBit_inj {subject subject' : Subject} {right right' : Right}
    (h : modeBit subject right = modeBit subject' right') :
    subject = subject' ∧ right = right' := by
  revert h
  cases subject <;> cases right <;> cases subject' <;> cases right' <;> decide

/-- Permission masks have no bit above the nine of the mode. -/
theorem lt_of_testBit {mask i : Nat} (hMask : mask < 2 ^ 9) (h : mask.testBit i = true) :
    i < 9 := by
  by_contra hLarge
  have hPow : 2 ^ 9 ≤ 2 ^ i := Nat.pow_le_pow_right (by decide) (by omega)
  rw [Nat.testBit_lt_two_pow (by omega)] at h
  cases h

theorem Subject.testBit_mask (subject : Subject) (i : Nat) :
    subject.mask.testBit i = true ↔ ∃ right, i = modeBit subject right := by
  constructor
  · intro h
    have hLow : i < 9 := lt_of_testBit (by cases subject <;> decide) h
    have hAll : ∀ s : Subject, ∀ i < 9, s.mask.testBit i = true →
        i = modeBit s .read ∨ i = modeBit s .write ∨ i = modeBit s .execute := by
      intro s
      cases s <;> decide
    rcases hAll subject i hLow h with hRead | hWrite | hExecute
    · exact ⟨.read, hRead⟩
    · exact ⟨.write, hWrite⟩
    · exact ⟨.execute, hExecute⟩
  · rintro ⟨right, rfl⟩
    cases subject <;> cases right <;> decide

theorem Right.testBit_mask (right : Right) (i : Nat) :
    right.mask.testBit i = true ↔ ∃ subject, i = modeBit subject right := by
  constructor
  · intro h
    have hLow : i < 9 := lt_of_testBit (by cases right <;> decide) h
    have hAll : ∀ r : Right, ∀ i < 9, r.mask.testBit i = true →
        i = modeBit .user r ∨ i = modeBit .group r ∨ i = modeBit .others r := by
      intro r
      cases r <;> decide
    rcases hAll right i hLow h with hUser | hGroup | hOthers
    · exact ⟨.user, hUser⟩
    · exact ⟨.group, hGroup⟩
    · exact ⟨.others, hOthers⟩
  · rintro ⟨subject, rfl⟩
    cases subject <;> cases right <;> decide

theorem testBit_subjects (subjects : List Subject) (i : Nat) :
    (union Subject.mask subjects 0).testBit i = true ↔
      ∃ subject ∈ subjects, ∃ right, i = modeBit subject right := by
  rw [testBit_union]
  simp only [Nat.zero_testBit, Bool.false_eq_true, false_or, Subject.testBit_mask]

theorem testBit_rights (rights : List Right) (subject : Subject) (right : Right) :
    (union Right.mask rights 0).testBit (modeBit subject right) = true ↔ right ∈ rights := by
  rw [testBit_union]
  simp only [Nat.zero_testBit, Bool.false_eq_true, false_or, Right.testBit_mask]
  constructor
  · rintro ⟨other, hMem, subject', hBit⟩
    rw [(modeBit_inj hBit).2]
    exact hMem
  · intro hMem
    exact ⟨right, hMem, subject, rfl⟩

/-- The bits of both masks are the listed rights of the listed subjects. -/
theorem Clause.testBit_listed (clause : Clause) (i : Nat) :
    (clause.read.accessMask &&& clause.read.subjectMask).testBit i = true ↔
      ∃ subject ∈ clause.subjects, ∃ right ∈ clause.rights, i = modeBit subject right := by
  rw [Nat.testBit_and, Bool.and_eq_true]
  constructor
  · rintro ⟨hAccess, hSubject⟩
    obtain ⟨subject, hMem, right, rfl⟩ := (testBit_subjects clause.subjects i).mp hSubject
    exact ⟨subject, hMem, right, (testBit_rights clause.rights subject right).mp hAccess, rfl⟩
  · rintro ⟨subject, hMem, right, hRight, rfl⟩
    exact ⟨(testBit_rights clause.rights subject right).mpr hRight,
      (testBit_subjects clause.subjects _).mpr ⟨subject, hMem, right, rfl⟩⟩

/-- The evaluation finds exactly what the clause asks. -/
theorem Clause.fails_read (clause : Clause) (fmode : Nat) :
    clause.read.fails fmode = false ↔ clause.Holds fmode := by
  rw [Holds]
  cases hOp : clause.op with
  | add =>
      have hFunction : clause.read.maskFunction = 1 := by rw [read, hOp]; rfl
      simp only [AccessState.fails, hFunction, Int.reduceNeg, reduceCtorEq, if_false, if_true,
        Int.reduceEq, decide_eq_false_iff_not, not_not, and_eq_self_iff, testBit_listed]
      constructor
      · intro hBits subject hSubject right hRight
        exact hBits _ ⟨subject, hSubject, right, hRight, rfl⟩
      · rintro hClause i ⟨subject, hSubject, right, hRight, rfl⟩
        exact hClause subject hSubject right hRight
  | remove =>
      have hFunction : clause.read.maskFunction = -1 := by rw [read, hOp]; rfl
      simp only [AccessState.fails, hFunction, if_true, decide_eq_false_iff_not, not_not,
        and_eq_zero_iff, testBit_listed]
      constructor
      · intro hBits subject hSubject right hRight hGranted
        rw [Grants, hBits _ ⟨subject, hSubject, right, hRight, rfl⟩] at hGranted
        cases hGranted
      · rintro hClause i ⟨subject, hSubject, right, hRight, rfl⟩
        exact Bool.eq_false_iff.mpr (hClause subject hSubject right hRight)
  | set =>
      have hFunction : clause.read.maskFunction = 0 := by rw [read, hOp]; rfl
      have hSubjects : clause.read.subjectMask = union Subject.mask clause.subjects 0 := rfl
      have hRights : clause.read.accessMask = union Right.mask clause.rights 0 := rfl
      simp only [AccessState.fails, hFunction, Int.reduceNeg, Int.reduceEq, if_false, if_true,
        decide_eq_false_iff_not, not_not, and_eq_and_iff, hSubjects, hRights, testBit_subjects]
      constructor
      · intro hBits subject hSubject right
        have hBit := hBits _ ⟨subject, hSubject, right, rfl⟩
        rw [Grants, hBit, testBit_rights]
      · rintro hClause i ⟨subject, hSubject, right, rfl⟩
        refine Bool.eq_iff_iff.mpr ?_
        rw [testBit_rights]
        exact hClause subject hSubject right

/-- Subjects are collected while no operator was read. -/
theorem accessLoop_subjects (accessstring : List Char) (fmode : Nat) (subjects : List Subject)
    (rest : List Char) (subjectMask : Nat) :
    accessLoop accessstring fmode (subjects.map Subject.char ++ rest) ⟨0, subjectMask, 0, 0⟩ =
      accessLoop accessstring fmode rest ⟨0, union Subject.mask subjects subjectMask, 0, 0⟩ := by
  induction subjects generalizing subjectMask with
  | nil => rfl
  | cons subject subjects ih =>
      have hPass : accessLoop accessstring fmode
          ((subject :: subjects).map Subject.char ++ rest) ⟨0, subjectMask, 0, 0⟩ =
          accessLoop accessstring fmode (subjects.map Subject.char ++ rest)
            ⟨0, subjectMask ||| subject.mask, 0, 0⟩ := by
        cases subject <;> rfl
      rw [hPass, ih]
      rfl

theorem accessLoop_op (accessstring : List Char) (fmode : Nat) (op : AccessOp)
    (rest : List Char) (subjectMask : Nat) :
    accessLoop accessstring fmode (op.char :: rest) ⟨0, subjectMask, 0, 0⟩ =
      accessLoop accessstring fmode rest ⟨1, subjectMask, op.maskFunction, 0⟩ := by
  cases op <;> rfl

/-- Rights are collected from then on. -/
theorem accessLoop_rights (accessstring : List Char) (fmode : Nat) (rights : List Right)
    (rest : List Char) (subjectMask : Nat) (maskFunction : Int) (accessMask : Nat) :
    accessLoop accessstring fmode (rights.map Right.char ++ rest)
        ⟨1, subjectMask, maskFunction, accessMask⟩ =
      accessLoop accessstring fmode rest
        ⟨1, subjectMask, maskFunction, union Right.mask rights accessMask⟩ := by
  induction rights generalizing accessMask with
  | nil => rfl
  | cons right rights ih =>
      have hPass : accessLoop accessstring fmode ((right :: rights).map Right.char ++ rest)
          ⟨1, subjectMask, maskFunction, accessMask⟩ =
          accessLoop accessstring fmode (rights.map Right.char ++ rest)
            ⟨1, subjectMask, maskFunction, accessMask ||| right.mask⟩ := by
        cases right <;> rfl
      rw [hPass, ih]
      rfl

/-- The text of a clause read from the start of a clause. -/
theorem accessLoop_clause (accessstring : List Char) (fmode : Nat) (clause : Clause)
    (rest : List Char) :
    accessLoop accessstring fmode (clause.text ++ rest) .start =
      accessLoop accessstring fmode rest clause.read := by
  rw [Clause.text, List.append_assoc, List.cons_append, AccessState.start, accessLoop_subjects,
    accessLoop_op, accessLoop_rights]
  rfl

/-- The first subject of the next clause closes the one before it. -/
theorem accessLoop_next (accessstring : List Char) (fmode : Nat) (before clause : Clause)
    (rest : List Char) :
    accessLoop accessstring fmode (clause.text ++ rest) before.read =
      if before.read.fails fmode then .returned (-1)
      else accessLoop accessstring fmode rest clause.read := by
  rw [← accessLoop_clause accessstring fmode clause rest]
  obtain ⟨subjects, op, rights, named⟩ := clause
  cases subjects with
  | nil => exact absurd rfl named
  | cons subject subjects =>
      have hState : before.read.state = 1 := rfl
      have hOther : subject.char ≠ 'r' ∧ subject.char ≠ 'w' ∧ subject.char ≠ 'x' := by
        cases subject <;> decide
      have hText : Clause.text ⟨subject :: subjects, op, rights, named⟩ ++ rest =
          subject.char :: (subjects.map Subject.char ++ op.char :: rights.map Right.char ++ rest) :=
        rfl
      rw [hText]
      simp only [accessLoop, closeClause, hState, hOther, ne_eq, not_false_eq_true, and_self,
        if_true]
      cases hFails : before.read.fails fmode with
      | true => rfl
      | false => rfl

/-- Some clause of the list fails on the mode. -/
def anyFails (fmode : Nat) (clauses : List Clause) : Bool :=
  clauses.any fun clause => clause.read.fails fmode

theorem anyFails_eq_false_iff (fmode : Nat) (clauses : List Clause) :
    anyFails fmode clauses = false ↔ ∀ clause ∈ clauses, clause.Holds fmode := by
  rw [anyFails, List.any_eq_false]
  refine forall₂_congr fun clause _ => ?_
  rw [← clause.fails_read fmode, Bool.not_eq_true]

/-- A run over whole clauses, with one clause still open before them. -/
theorem accessLoop_clauses (accessstring : List Char) (fmode : Nat) (clauses : List Clause)
    (before : Clause) :
    accessLoop accessstring fmode (clauses.flatMap Clause.text) before.read =
      .returned (if anyFails fmode (before :: clauses) then -1 else 0) := by
  induction clauses generalizing before with
  | nil =>
      simp only [List.flatMap_nil, accessLoop, anyFails, List.any_cons, List.any_nil,
        Bool.or_false]
      split <;> rfl
  | cons clause clauses ih =>
      rw [List.flatMap_cons, accessLoop_next, ih clause]
      have hBefore : anyFails fmode (before :: clause :: clauses) =
          (before.read.fails fmode || anyFails fmode (clause :: clauses)) := rfl
      rw [hBefore]
      cases before.read.fails fmode <;> rfl

/-- No clause reads another's masks, in whatever number and order they stand. -/
theorem checkAccess_eq (clauses : List Clause) (fmode : Nat) :
    checkAccess (clauses.flatMap Clause.text) fmode =
      .returned (if anyFails fmode clauses then -1 else 0) := by
  cases clauses with
  | nil =>
      have hNone : AccessState.start.fails fmode = false := by
        simp [AccessState.fails, AccessState.start]
      rw [checkAccess, List.flatMap_nil, accessLoop, hNone]
      rfl
  | cons clause clauses =>
      rw [checkAccess, List.flatMap_cons, accessLoop_clause, accessLoop_clauses]

/-- An access string is evaluated clause by clause. -/
theorem checkAccess_clauses (clauses : List Clause) (fmode : Nat) :
    (checkAccess (clauses.flatMap Clause.text) fmode = .returned 0 ↔
        ∀ clause ∈ clauses, clause.Holds fmode) ∧
      (¬ (∀ clause ∈ clauses, clause.Holds fmode) →
        checkAccess (clauses.flatMap Clause.text) fmode = .returned (-1)) := by
  rw [checkAccess_eq, ← anyFails_eq_false_iff]
  cases anyFails fmode clauses with
  | false =>
      constructor
      · exact ⟨fun _ => rfl, fun _ => rfl⟩
      · intro hSome
        exact absurd rfl hSome
  | true =>
      constructor
      · constructor
        · intro hZero
          cases hZero
        · intro hAll
          cases hAll
      · intro _
        rfl

/-- `ug+rg-wo=x` -/
def threeClauses : List Clause :=
  [⟨[.user, .group], .add, [.read], by simp⟩, ⟨[.group], .remove, [.write], by simp⟩,
    ⟨[.others], .set, [.execute], by simp⟩]

/-- The second file is writable for its group. -/
theorem checkAccess_clauses_three :
    checkAccess "ug+rg-wo=x".toList 0o751 = .returned 0 ∧
      checkAccess "ug+rg-wo=x".toList 0o771 = .returned (-1) := by
  have hText : threeClauses.flatMap Clause.text = "ug+rg-wo=x".toList := rfl
  rw [← hText]
  constructor
  · refine (checkAccess_clauses threeClauses 0o751).1.mpr ?_
    simp only [threeClauses, List.forall_mem_cons, Clause.Holds]
    refine ⟨by decide, by decide, ⟨fun right => ?_, by simp⟩, by simp⟩
    cases right <;> decide
  · refine (checkAccess_clauses threeClauses 0o771).2 fun hAll => ?_
    have hGroup := hAll ⟨[.group], .remove, [.write], by simp⟩ (by simp [threeClauses])
    exact hGroup .group (by simp) .write (by simp) rfl

end MonitoringPlug.Check
