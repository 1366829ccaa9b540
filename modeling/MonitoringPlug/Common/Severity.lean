import MonitoringPlug.Common
import Mathlib.Data.List.Perm.Basic
import Mathlib.Order.MinMax

/-! How bad the exit states are, and the worst of several. Plugins that look at more
than one thing merge a state for each of them into one variable. -/
namespace MonitoringPlug.Common

/-- `OK < UNKNOWN < WARNING < CRITICAL`, which is not the order of the numbers. -/
def Status.severity : Status → Nat
  | .ok => 0
  | .unknown => 1
  | .warning => 2
  | .critical => 3
  | .dependent => 4

theorem Status.severity_injective : Function.Injective Status.severity := by
  intro a b h
  cases a <;> cases b <;> first | rfl | cases h

instance : LinearOrder Status := LinearOrder.lift' Status.severity Status.severity_injective

theorem Status.ok_le (status : Status) : .ok ≤ status := Nat.zero_le _

theorem ok_max (status : Status) : max .ok status = status := max_eq_right status.ok_le

theorem max_ok (status : Status) : max status .ok = status := max_eq_left status.ok_le

/-- The worst of some states, OK when there are none. -/
def worst (statuses : List Status) : Status := statuses.foldr max .ok

@[simp] theorem worst_nil : worst [] = .ok := rfl

@[simp] theorem worst_cons (status : Status) (statuses : List Status) :
    worst (status :: statuses) = max status (worst statuses) := rfl

@[simp] theorem worst_append (front back : List Status) :
    worst (front ++ back) = max (worst front) (worst back) := by
  induction front with
  | nil => exact (ok_max _).symm
  | cons status front ih => rw [List.cons_append, worst_cons, ih, worst_cons, max_assoc]

theorem worst_perm {statuses statuses' : List Status} (h : statuses.Perm statuses') :
    worst statuses = worst statuses' := by
  induction h with
  | nil => rfl
  | cons status _ ih => rw [worst_cons, ih, worst_cons]
  | swap a b l => rw [worst_cons, worst_cons, worst_cons, worst_cons, max_left_comm]
  | trans _ _ ih ih' => exact ih.trans ih'

theorem le_worst {status : Status} {statuses : List Status} (h : status ∈ statuses) :
    status ≤ worst statuses := by
  induction statuses with
  | nil => cases h
  | cons first rest ih =>
      rcases List.mem_cons.mp h with rfl | hRest
      · exact le_max_left _ _
      · exact (ih hRest).trans (le_max_right _ _)

theorem worst_le {bound : Status} {statuses : List Status}
    (h : ∀ status ∈ statuses, status ≤ bound) : worst statuses ≤ bound := by
  induction statuses with
  | nil => exact Status.ok_le bound
  | cons first rest ih =>
      rw [List.forall_mem_cons] at h
      exact max_le h.1 (ih h.2)

/-- The worst state is one of them, unless all are OK. -/
theorem worst_mem {statuses : List Status} (h : worst statuses ≠ .ok) :
    worst statuses ∈ statuses := by
  induction statuses with
  | nil => exact absurd rfl h
  | cons first rest ih =>
      rw [worst_cons] at h ⊢
      rcases max_choice first (worst rest) with hFirst | hRest
      · rw [hFirst]
        exact List.mem_cons_self
      · rw [hRest] at h ⊢
        exact List.mem_cons_of_mem _ (ih h)

theorem worst_eq_ok_iff {statuses : List Status} :
    worst statuses = .ok ↔ ∀ status ∈ statuses, status = .ok := by
  constructor
  · intro hOk status hMem
    exact le_antisymm (hOk ▸ le_worst hMem) (Status.ok_le status)
  · intro hAll
    exact le_antisymm (worst_le fun status hMem => (hAll status hMem).le) (Status.ok_le _)

/-- The worst of states that are no worse than CRITICAL, by asking for them in turn. -/
theorem worst_eq {statuses : List Status} (h : ∀ status ∈ statuses, status ≤ .critical) :
    worst statuses =
      if .critical ∈ statuses then .critical
      else if .warning ∈ statuses then .warning
      else if .unknown ∈ statuses then .unknown
      else .ok := by
  induction statuses with
  | nil => rfl
  | cons first rest ih =>
      rw [List.forall_mem_cons] at h
      rw [worst_cons, ih h.2]
      cases first with
      | dependent => exact absurd h.1 (by decide)
      | _ =>
          simp only [List.mem_cons, reduceCtorEq, false_or, true_or, if_true]
          split_ifs <;> rfl

/-- Two lists with the same worst state, when UNKNOWN is in both or in none. -/
theorem worst_eq_worst_iff {statuses statuses' : List Status}
    (h : ∀ status ∈ statuses, status ≤ .critical) (h' : ∀ status ∈ statuses', status ≤ .critical)
    (hUnknown : .unknown ∈ statuses ↔ .unknown ∈ statuses') :
    worst statuses = worst statuses' ↔
      (.critical ∈ statuses' ↔ .critical ∈ statuses) ∧
        (.critical ∈ statuses' ∨ (.warning ∈ statuses' ↔ .warning ∈ statuses)) := by
  simp only [worst_eq h, worst_eq h', hUnknown]
  split_ifs <;> simp_all

/-- `if (state != STATE_CRITICAL) state = STATE_WARNING;` -/
theorem max_warning {state : Status} (h : state ≤ .critical) :
    max state .warning = if state ≠ .critical then .warning else state := by
  cases state with
  | dependent => exact absurd h (by decide)
  | _ => rfl

/-- `if (state == STATE_OK) state = STATE_UNKNOWN;` -/
theorem max_unknown (state : Status) :
    max state .unknown = if state = .ok then .unknown else state := by
  cases state <;> rfl

theorem max_critical {state : Status} (h : state ≤ .critical) : max state .critical = .critical :=
  max_eq_right h

/-- The states `get_status` yields. Their numbers are in the order of how bad they are. -/
def Graded (status : Status) : Prop :=
  status = .ok ∨ status = .warning ∨ status = .critical

theorem Graded.raise {state lstate : Status} (hState : Graded state) (hLstate : Graded lstate) :
    (if lstate.code > state.code then lstate else state) = max state lstate := by
  rcases hState with rfl | rfl | rfl <;> rcases hLstate with rfl | rfl | rfl <;> rfl

theorem Graded.max {state lstate : Status} (hState : Graded state) (hLstate : Graded lstate) :
    Graded (max state lstate) := by
  rcases max_choice state lstate with h | h
  · rwa [h]
  · rwa [h]

end MonitoringPlug.Common
