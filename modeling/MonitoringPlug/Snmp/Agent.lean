import MonitoringPlug.Lib.Cursor

/-! What the SNMP functions exchange with an agent through the Net-SNMP library,
and what they rely on in that library. The library is not part of the repository:
its functions are parameters, with their documented behaviour as fields. -/
namespace MonitoringPlug.Snmp

/-- An OID with its length. The order is the lexicographic one. -/
abbrev Oid := List Nat

/-- The ASN.1 types the sources name, and all others by their octet. -/
inductive AsnType where
  | integer
  | octetStr
  | counter
  | gauge
  | timeticks
  | noSuchObject
  | noSuchInstance
  | endOfMibView
  | other (octet : UInt8)
deriving DecidableEq

/-- The types that stand for a missing value. -/
def AsnType.isException : AsnType → Bool
  | .noSuchObject | .noSuchInstance | .endOfMibView => true
  | _ => false

/-- A `netsnmp_variable_list` entry. `val_len` is the length of `val`. -/
structure Variable where
  name : Oid
  type : AsnType
  val : List UInt8
deriving DecidableEq

inductive Version where
  | v1
  | v2c
  | v3
deriving DecidableEq

inductive Command where
  | get
  | getnext
  | getbulk (nonRepeaters maxRepetitions : Nat)
deriving DecidableEq

structure Request where
  command : Command
  names : List Oid
deriving DecidableEq

inductive ErrStat where
  | noError
  | noSuchName
  | other (code : Nat)
deriving DecidableEq

structure Response where
  errstat : ErrStat
  errindex : Nat
  vars : List Variable

inductive Stat where
  | success
  | error
  | timeout
deriving DecidableEq

/-- `snmp_synch_response` on a session. An answer may depend on all that was sent
in the session, newest first. -/
abbrev Agent := List Request → Stat × Option Response

/-- What is used of Net-SNMP. `snmp_oidtree_compare` looks at the sub-identifiers
both OIDs have; `snmp_fix_pdu` takes the variable out that the error points to. -/
structure NetSnmp where
  oidCompare : Oid → Oid → Int
  oidtreeCompare : Oid → Oid → Int
  fixPdu : Response → Command → Option Request
  oidCompare_eq_zero : ∀ a b, oidCompare a b = 0 ↔ a = b
  oidtreeCompare_eq_zero : ∀ a b, oidtreeCompare a b = 0 ↔ a <+: b ∨ b <+: a
  oidtreeCompare_neg : ∀ a b, oidtreeCompare a b < 0 ↔ a < b ∧ ¬a <+: b
  fixPdu_error : ∀ response command, response.errstat ≠ .noError → 0 < response.errindex →
    response.errindex ≤ response.vars.length →
    fixPdu response command =
      let names := (response.vars.map (·.name)).eraseIdx (response.errindex - 1)
      if names = [] then none else some { command := command, names := names }

/-- The documented behaviour as functions. -/
def NetSnmp.reference : NetSnmp where
  oidCompare a b := if a = b then 0 else if a < b then -1 else 1
  oidtreeCompare a b := if a <+: b ∨ b <+: a then 0 else if a < b then -1 else 1
  fixPdu response command :=
    let names := (response.vars.map (·.name)).eraseIdx (response.errindex - 1)
    if response.errstat = .noError ∨ response.errindex = 0 ∨
      response.vars.length < response.errindex ∨ names = [] then none
    else some { command := command, names := names }
  oidCompare_eq_zero a b := by
    split_ifs <;> simp_all
  oidtreeCompare_eq_zero a b := by
    split_ifs <;> simp_all
  oidtreeCompare_neg a b := by
    split_ifs with hRelated hLess
    · constructor
      · intro h
        omega
      · rintro ⟨hLess, hPrefix⟩
        exact (Cursor.not_prefix_of_lt hLess (hRelated.resolve_left hPrefix)).elim
    · simp only [not_or] at hRelated
      simp [hLess, hRelated.1]
    · simp [hLess]
  fixPdu_error response command hError hIndex hInside := by
    by_cases hNone : (response.vars.map (·.name)).eraseIdx (response.errindex - 1) = []
    · simp [hNone]
    · simp [hNone, hError, hIndex.ne', hInside]

/-- The variables an agent serves: sorted, and none of a type that stands for a
missing value. -/
structure Mib where
  vars : List Variable
  sorted : Cursor.Sorted Variable.name vars
  present : ∀ v ∈ vars, v.type.isException = false

/-- The variables behind an OID, in order. -/
def Mib.behind (mib : Mib) (oid : Oid) : List Variable :=
  Cursor.behind Variable.name mib.vars oid

def Mib.lookup (mib : Mib) (oid : Oid) : Option Variable :=
  mib.vars.find? fun v => v.name = oid

end MonitoringPlug.Snmp
