import MonitoringPlug.Template.Evaluation

/-! Arithmetic expressions as they are written, the numbers they stand for, and the values
the two kinds of expressions of the grammar give them. A `float` is rounded as in IEEE 754. -/
namespace MonitoringPlug.Template

open CMemory ShiftReduce

/-- The operation on numbers. -/
def Arith.number : Arith → ℚ → ℚ → ℚ
  | .add, p, q => p + q
  | .sub, p, q => p - q
  | .mul, p, q => p * q
  | .div, p, q => p / q

def Relation.Numbers : Relation → ℚ → ℚ → Prop
  | .eq, p, q => p = q
  | .ge, p, q => q ≤ p
  | .le, p, q => p ≤ q
  | .gt, p, q => q < p
  | .lt, p, q => p < q

instance (op : Relation) (p q : ℚ) : Decidable (op.Numbers p q) := by
  cases op <;> unfold Relation.Numbers <;> infer_instance

/-- The operation of a `float`, rounded to the nearest. -/
def Arith.float32 : Arith → Float32 → Float32 → Float32
  | .add, x, y => x + y
  | .sub, x, y => x - y
  | .mul, x, y => x * y
  | .div, x, y => x / y

def Relation.float32 : Relation → Float32 → Float32 → Bool
  | .eq, x, y => x.beq y
  | .ge, x, y => y.le x
  | .le, x, y => x.le y
  | .gt, x, y => y.lt x
  | .lt, x, y => x.lt y

/-- A FLOAT, `[0-9]+\.[0-9]+`. -/
structure FloatLiteral where
  whole : List (Fin 10)
  fraction : List (Fin 10)
  whole_ne_nil : whole ≠ []
  fraction_ne_nil : fraction ≠ []

namespace FloatLiteral

variable (literal : FloatLiteral)

def yytext : List UInt8 :=
  bytesOf (CText.digitText literal.whole ++ '.' :: CText.digitText literal.fraction)

/-- Its digits without the point. -/
def digits : Nat := CText.digitsValue (CText.digitText (literal.whole ++ literal.fraction))

/-- The number that is written. -/
def number : ℚ := literal.digits / 10 ^ literal.fraction.length

/-- The nearest `float`. -/
def float32 : Float32 := .ofScientific literal.digits true literal.fraction.length

end FloatLiteral

/-- `float` is binary32 of IEEE 754: what is read, converted or computed becomes the nearest
value. `%f` prints a point, or one of the words for an infinity and for no number, which have
an `n`. -/
structure CFloat.Ieee {F : Type} [CFloat F] (float32 : F → Float32) : Prop where
  ofInt : ∀ n : Int, float32 (CFloat.ofInt n) = .ofInt n
  strtof : ∀ literal : FloatLiteral, float32 (CFloat.strtof literal.yytext) = literal.float32
  arith : ∀ (op : Arith) (a b : F), float32 (op.float a b) = op.float32 (float32 a) (float32 b)
  relation : ∀ (op : Relation) (a b : F), op.holds a b = op.float32 (float32 a) (float32 b)
  format : ∀ a : F, 46 ∈ (CString.ofBytes (CFloat.format a)).bytes ∨
    110 ∈ (CString.ofBytes (CFloat.format a)).bytes

def Arith.prec : Arith → Nat
  | .add | .sub => 1
  | .mul | .div => 2

/-- The values that go with the tokens of operators. -/
def Arith.mark {F : Type} : (op : Arith) → op.token.Value F
  | .add | .sub | .mul | .div => ()

def Relation.mark {F : Type} : (op : Relation) → op.token.Value F
  | .eq | .ge | .le | .gt | .lt => ()

namespace FExpr

variable {F : Type}

/-- Of a written expression: that of its last operation. -/
def prec : FExpr F → Nat
  | .arith op _ _ => op.prec
  | _ => 3

theorem prec_pos (e : FExpr F) : 0 < e.prec := by
  cases e with
  | arith op a b => cases op <;> exact Nat.zero_lt_succ _
  | _ => exact Nat.zero_lt_succ _

/-- The tree is how its tokens are grouped: by precedence, and from the left. -/
def Grouped : FExpr F → Prop
  | .arith op a b => a.Grouped ∧ b.Grouped ∧ op.prec ≤ a.prec ∧ op.prec < b.prec
  | .paren a => a.Grouped
  | _ => True

def tokens : FExpr F → List (Token F)
  | .arith op a b => a.tokens ++ ⟨op.token, op.mark⟩ :: b.tokens
  | .paren a => ⟨.char 40, ()⟩ :: (a.tokens ++ [⟨.char 41, ()⟩])
  | .float fval => [⟨.float, fval⟩]
  | .int ival => [⟨.int, ival⟩]

/-- The first literal is a FLOAT. -/
def startsFloat : FExpr F → Bool
  | .arith _ a _ => a.startsFloat
  | .paren a => a.startsFloat
  | .float _ => true
  | .int _ => false

/-- One INT and nothing else. -/
def isInt : FExpr F → Bool
  | .int _ => true
  | _ => false

/-- As an integer expression, when no literal is a FLOAT. -/
def toIExpr : FExpr F → Option IExpr
  | .arith op a b => a.toIExpr.bind fun a => b.toIExpr.map fun b => .arith op a b
  | .paren a => a.toIExpr.map .paren
  | .float _ => none
  | .int ival => some (.int ival)

/-- As a side of a comparison of strings. -/
def toSExpr (e : FExpr F) : Option (SExpr F) :=
  match e.toIExpr with
  | some a => some (.iexpr a)
  | none => if e.startsFloat then some (.fexpr e) else none

theorem startsFloat_eq_false {e : FExpr F} {a : IExpr} (h : e.toIExpr = some a) :
    e.startsFloat = false := by
  induction e generalizing a with
  | float fval => cases h
  | int ival => rfl
  | paren e ih =>
      obtain ⟨b, hInner, _⟩ := Option.map_eq_some_iff.mp h
      exact ih hInner
  | arith op e₁ e₂ ihLeft _ =>
      obtain ⟨b, hLeft, _⟩ := Option.bind_eq_some_iff.mp h
      exact ihLeft hLeft

theorem toSExpr_eq_some {e : FExpr F} {t : SExpr F} : e.toSExpr = some t ↔
    (∃ b, e.toIExpr = some b ∧ t = .iexpr b) ∨ e.startsFloat = true ∧ t = .fexpr e := by
  rw [toSExpr]
  cases hWhole : e.toIExpr with
  | none => cases e.startsFloat <;> simp [eq_comm]
  | some b => simp [startsFloat_eq_false hWhole, eq_comm]

/-- The same expression with other literals. -/
def map {G : Type} (f : F → G) : FExpr F → FExpr G
  | .arith op a b => .arith op (a.map f) (b.map f)
  | .paren a => .paren (a.map f)
  | .float fval => .float (f fval)
  | .int ival => .int ival

section Map

variable {G : Type} (f : F → G)

@[simp] theorem map_prec (e : FExpr F) : (e.map f).prec = e.prec := by
  cases e <;> rfl

@[simp] theorem map_startsFloat (e : FExpr F) : (e.map f).startsFloat = e.startsFloat := by
  induction e with
  | arith op a b ih _ => exact ih
  | paren a ih => exact ih
  | _ => rfl

@[simp] theorem map_isInt (e : FExpr F) : (e.map f).isInt = e.isInt := by
  cases e <;> rfl

@[simp] theorem map_toIExpr (e : FExpr F) : (e.map f).toIExpr = e.toIExpr := by
  induction e with
  | arith op a b ihLeft ihRight => rw [map, toIExpr, toIExpr, ihLeft, ihRight]
  | paren a ih => rw [map, toIExpr, toIExpr, ih]
  | _ => rfl

theorem Grouped.map {e : FExpr F} (h : e.Grouped) : (e.map f).Grouped := by
  induction e with
  | arith op a b ihLeft ihRight =>
      obtain ⟨hLeft, hRight, hPrec, hPrec'⟩ := h
      refine ⟨ihLeft hLeft, ihRight hRight, ?_, ?_⟩
      · rw [map_prec]
        exact hPrec
      · rw [map_prec]
        exact hPrec'
  | paren a ih => exact ih h
  | _ => trivial

end Map

/-- The number of an expression in which nothing is divided by zero. -/
def number : FExpr FloatLiteral → Option ℚ
  | .arith op a b => a.number.bind fun p => b.number.bind fun q =>
      if op = .div ∧ q = 0 then none else some (op.number p q)
  | .paren a => a.number
  | .float literal => some literal.number
  | .int ival => some ival

/-- Its value as a `float`: every literal and every result on the way is rounded. -/
def float32 : FExpr FloatLiteral → Float32
  | .arith op a b => op.float32 a.float32 b.float32
  | .paren a => a.float32
  | .float literal => literal.float32
  | .int ival => .ofInt ival

theorem map_value [CFloat F] {float32 : F → Float32} (hIeee : CFloat.Ieee float32)
    (e : FExpr FloatLiteral) :
    float32 (e.map fun literal => (CFloat.strtof literal.yytext : F)).value = e.float32 := by
  induction e with
  | arith op a b ihLeft ihRight =>
      rw [FExpr.float32, ← ihLeft, ← ihRight]
      exact hIeee.arith op _ _
  | paren a ih => exact ih
  | float literal => exact hIeee.strtof literal
  | int ival => exact hIeee.ofInt ival

theorem isInt_iff {e : FExpr F} : e.isInt = true ↔ ∃ n, e = .int n := by
  cases e <;> simp [isInt]

end FExpr

/-- A side of a comparison: grouped as the parser does it, and nothing is divided by zero. -/
structure Side where
  expr : FExpr FloatLiteral
  grouped : expr.Grouped
  number : ℚ
  isNumber : expr.number = some number

/-- As the scanner reads it. -/
def Side.scanned {F : Type} [CFloat F] (e : Side) : FExpr F :=
  e.expr.map fun literal => CFloat.strtof literal.yytext

section Side

variable {F : Type} [CFloat F] (e : Side)

/-- Read and computed with this `float`, it has the rounded value. -/
theorem Side.scanned_value {float32 : F → Float32} (hIeee : CFloat.Ieee float32) :
    float32 (e.scanned : FExpr F).value = e.expr.float32 :=
  FExpr.map_value hIeee e.expr

theorem Side.scanned_grouped : (e.scanned : FExpr F).Grouped := e.grouped.map _

theorem Side.scanned_startsFloat : (e.scanned : FExpr F).startsFloat = e.expr.startsFloat :=
  FExpr.map_startsFloat _ _

theorem Side.scanned_isInt : (e.scanned : FExpr F).isInt = e.expr.isInt := FExpr.map_isInt _ _

theorem Side.scanned_toIExpr : (e.scanned : FExpr F).toIExpr = e.expr.toIExpr :=
  FExpr.map_toIExpr _ _

end Side

section Reads

variable {F : Type}

/-- What is read of an expression, in the order of the reductions. -/
def IExpr.reads : IExpr → List (Read F)
  | .arith op a b => a.reads ++ b.reads ++ [⟨.iexprArith op, (a, op.mark, b, ())⟩]
  | .paren a => a.reads ++ [⟨.iexprParen, ((), a, (), ())⟩]
  | .int ival => [⟨.iexprInt, (ival, ())⟩]

def FExpr.reads : FExpr F → List (Read F)
  | .arith op a b => a.reads ++ b.reads ++ [⟨.fexprArith op, (a, op.mark, b, ())⟩]
  | .paren a => a.reads ++ [⟨.fexprParen, ((), a, (), ())⟩]
  | .float fval => [⟨.fexprFloat, (fval, ())⟩]
  | .int ival => [⟨.fexprInt, (ival, ())⟩]

def SExpr.reads : SExpr F → List (Read F)
  | .string sval => [⟨.sexprString, (sval, ())⟩]
  | .label sval => [⟨.sexprLabel, (sval, ())⟩]
  | .iexpr a => a.reads ++ [⟨.sexprIexpr, (a, ())⟩]
  | .fexpr e => e.reads ++ [⟨.sexprFexpr, (e, ())⟩]

/-- Evaluation in `int`: no result where a value is out of range or a divisor is zero. -/
def IExpr.run : IExpr → Option Int
  | .arith op a b => a.run.bind fun m => b.run.bind fun n => op.int m n
  | .paren a => a.run
  | .int ival => some ival

theorem IExpr.run_value {a : IExpr} {n : Int} (h : a.run = some n) : a.value = n := by
  induction a generalizing n with
  | int ival => exact Option.some.inj h
  | paren a ih => exact ih h
  | arith op a b ihLeft ihRight =>
      obtain ⟨p, hLeft, hRest⟩ := Option.bind_eq_some_iff.mp h
      obtain ⟨q, hRight, hInt⟩ := Option.bind_eq_some_iff.mp hRest
      rw [Arith.int_eq, checkedInt] at hInt
      rw [IExpr.value, ihLeft hLeft, ihRight hRight]
      split at hInt
      · cases hInt
      · split at hInt
        · exact Option.some.inj hInt
        · cases hInt

variable [CFloat F] {env : CString → Option CString}

/-- The code of everything that is read has a result when the evaluation has one. -/
theorem IExpr.run_isSome_iff (a : IExpr) :
    a.run.isSome ↔ ∀ x ∈ a.reads (F := F), (x.code env).isSome := by
  induction a with
  | int ival => exact iff_of_true rfl (List.forall_mem_singleton.mpr rfl)
  | paren a ih =>
      rw [IExpr.run, ih, IExpr.reads, List.forall_mem_append, List.forall_mem_singleton]
      exact (and_iff_left rfl).symm
  | arith op a b ihLeft ihRight =>
      have hLast : (Read.code (F := F) env ⟨.iexprArith op, (a, op.mark, b, ())⟩).isSome =
          (op.int a.value b.value).isSome := Option.isSome_map
      rw [IExpr.reads, List.forall_mem_append, List.forall_mem_append, List.forall_mem_singleton,
        ← ihLeft, ← ihRight, hLast, IExpr.run]
      cases hLeft : a.run with
      | none => simp
      | some m =>
          cases hRight : b.run with
          | none => simp
          | some n => simp [run_value hLeft, run_value hRight]

theorem FExpr.reads_code (e : FExpr F) : ∀ x ∈ e.reads, (x.code env).isSome := by
  induction e with
  | int ival => exact List.forall_mem_singleton.mpr rfl
  | float fval => exact List.forall_mem_singleton.mpr rfl
  | paren a ih => exact List.forall_mem_append.mpr ⟨ih, List.forall_mem_singleton.mpr rfl⟩
  | arith op a b ihLeft ihRight =>
      exact List.forall_mem_append.mpr ⟨List.forall_mem_append.mpr ⟨ihLeft, ihRight⟩,
        List.forall_mem_singleton.mpr rfl⟩

end Reads

section Strings

/-! A whole number is printed as no other, and without a point. -/

theorem chars_bytesOf {s : List Char} (h : ∀ c ∈ s, c.toNat < 256) : chars (bytesOf s) = s := by
  rw [chars, bytesOf, List.map_map]
  refine (List.map_congr_left fun c hc => ?_).trans (List.map_id s)
  have hRange := h c hc
  rw [Function.comp_apply, UInt8.toNat_ofNat', Nat.mod_eq_of_lt hRange, Char.ofNat_toNat]
  rfl

theorem chars_formatLong (n : Int) :
    chars (bytesOf (CText.formatLong n)) = CText.formatLong n :=
  chars_bytesOf fun c hc => by
    have hRange := (CText.formatLong_chars n c hc).toNat_mem
    omega

/-- `%d`, as a C string. -/
def printed (n : Int) : CString := .ofBytes (bytesOf (CText.formatLong n))

theorem bytes_ofBytes_bytesOf {s : List Char} (h : ∀ c ∈ s, CText.IsNumberChar c) :
    (CString.ofBytes (bytesOf s)).bytes = bytesOf s := by
  refine List.takeWhile_eq_self_iff.mpr ?_
  intro b hb
  obtain ⟨c, hMem, rfl⟩ := List.mem_map.mp hb
  have hRange := (h c hMem).toNat_mem
  rw [bne_iff_ne, ne_eq, ← UInt8.toNat_inj, UInt8.toNat_ofNat', UInt8.toNat_zero]
  omega

theorem printed_bytes (n : Int) : (printed n).bytes = bytesOf (CText.formatLong n) :=
  bytes_ofBytes_bytesOf (CText.formatLong_chars n)

theorem printed_inj {m n : Int} : printed m = printed n ↔ m = n := by
  constructor
  · intro h
    have hChars := congrArg (fun s => chars (CString.bytes s)) h
    simp only [printed_bytes, chars_formatLong] at hChars
    exact CText.formatLong_inj hChars
  · rintro rfl
    rfl

theorem point_not_mem_printed (n : Int) : 46 ∉ (printed n).bytes := by
  rw [printed_bytes]
  intro h
  have hChar : '.' ∈ chars (bytesOf (CText.formatLong n)) := List.mem_map.mpr ⟨46, h, rfl⟩
  rw [chars_formatLong] at hChar
  exact CText.point_not_mem_formatLong n hChar

theorem letter_not_mem_printed (n : Int) : 110 ∉ (printed n).bytes := by
  rw [printed_bytes]
  intro h
  have hChar : 'n' ∈ chars (bytesOf (CText.formatLong n)) := List.mem_map.mpr ⟨110, h, rfl⟩
  rw [chars_formatLong] at hChar
  exact absurd (CText.formatLong_chars n 'n' hChar).toNat_mem (by decide)

/-- No `float` is printed like an `int`. -/
theorem CFloat.Ieee.format_ne_printed {F : Type} [CFloat F] {float32 : F → Float32}
    (hIeee : CFloat.Ieee float32) (a : F) (n : Int) :
    CString.ofBytes (CFloat.format a) ≠ printed n := by
  intro hSame
  rcases hIeee.format a with hPoint | hLetter
  · rw [hSame] at hPoint
    exact point_not_mem_printed n hPoint
  · rw [hSame] at hLetter
    exact letter_not_mem_printed n hLetter

end Strings

end MonitoringPlug.Template
