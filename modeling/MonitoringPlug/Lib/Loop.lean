import Mathlib.Logic.Relation

/-! Unbounded loops as iterated passes. A pass either hands on the next state
or leaves the loop with a result; fuel only bounds how many passes are looked
at and never decides what the loop returns. -/
namespace CLoop

universe u v

variable {State : Type u} {Result : Type v}

/-- What one pass of the loop body does. -/
inductive Pass (State : Type u) (Result : Type v) where
  | again (next : State)
  | leave (result : Result)

/-- Run at most `fuel` passes. -/
def runFor (body : State → Pass State Result) : Nat → State → Option Result
  | 0, _ => none
  | fuel + 1, s =>
      match body s with
      | .again next => runFor body fuel next
      | .leave result => some result

/-- The loop is left with this result after finitely many passes. -/
def Returns (body : State → Pass State Result) (s : State) (result : Result) : Prop :=
  ∃ fuel, runFor body fuel s = some result

/-- No number of passes leaves the loop. -/
def Diverges (body : State → Pass State Result) (s : State) : Prop :=
  ∀ fuel, runFor body fuel s = none

/-- States at the head of some pass of the run from `start`. -/
inductive Reaches (body : State → Pass State Result) (start : State) : State → Prop where
  | start : Reaches body start start
  | pass {middle next : State} (prior : Reaches body start middle)
      (last : body middle = .again next) : Reaches body start next

variable {body : State → Pass State Result} {s next : State} {result other : Result}

theorem runFor_again (h : body s = .again next) (fuel : Nat) :
    runFor body (fuel + 1) s = runFor body fuel next := by
  simp [runFor, h]

theorem runFor_leave (h : body s = .leave result) (fuel : Nat) :
    runFor body (fuel + 1) s = some result := by
  simp [runFor, h]

/-- More fuel never changes a result that was reached. -/
theorem runFor_add {fuel : Nat} (h : runFor body fuel s = some result) (extra : Nat) :
    runFor body (fuel + extra) s = some result := by
  induction fuel generalizing s with
  | zero => simp [runFor] at h
  | succ fuel ih =>
      rw [Nat.succ_add]
      cases hBody : body s with
      | again next =>
          rw [runFor_again hBody] at h ⊢
          exact ih h
      | leave r =>
          rw [runFor_leave hBody] at h ⊢
          exact h

theorem Returns.unique (h : Returns body s result) (h' : Returns body s other) :
    result = other := by
  obtain ⟨fuel, hFuel⟩ := h
  obtain ⟨fuel', hFuel'⟩ := h'
  have hLeft := runFor_add hFuel fuel'
  have hRight := runFor_add hFuel' fuel
  rw [Nat.add_comm, hRight] at hLeft
  exact (Option.some.inj hLeft).symm

theorem Returns.again (h : body s = .again next) (hNext : Returns body next result) :
    Returns body s result := by
  obtain ⟨fuel, hFuel⟩ := hNext
  exact ⟨fuel + 1, by rw [runFor_again h, hFuel]⟩

theorem Returns.leave (h : body s = .leave result) : Returns body s result :=
  ⟨1, runFor_leave h 0⟩

theorem Diverges.not_returns (h : Diverges body s) : ¬Returns body s result := by
  rintro ⟨fuel, hFuel⟩
  rw [h fuel] at hFuel
  cases hFuel

/-- What a run that returns goes through returns the same. -/
theorem Reaches.returns {start finish : State} (h : Reaches body start finish)
    (hReturns : Returns body start result) : Returns body finish result := by
  induction h with
  | start => exact hReturns
  | pass prior last ih =>
      obtain ⟨fuel, hFuel⟩ := ih
      cases fuel with
      | zero => cases hFuel
      | succ fuel =>
          rw [runFor_again last] at hFuel
          exact ⟨fuel, hFuel⟩

/-- And it returns what any state it goes through returns. -/
theorem Reaches.returns_from {start finish : State} (h : Reaches body start finish)
    (hReturns : Returns body finish result) : Returns body start result := by
  induction h with
  | start => exact hReturns
  | pass prior last ih => exact ih (hReturns.again last)

theorem Reaches.after_again {start finish : State} (h : body start = .again next)
    (hNext : Reaches body next finish) : Reaches body start finish := by
  induction hNext with
  | start => exact Reaches.start.pass h
  | pass prior last ih => exact ih.pass last

/-- A result is what some state of the run leaves the loop with. -/
theorem Returns.exists_leave (h : Returns body s result) :
    ∃ finish, Reaches body s finish ∧ body finish = .leave result := by
  obtain ⟨fuel, hFuel⟩ := h
  induction fuel generalizing s with
  | zero => cases hFuel
  | succ fuel ih =>
      cases hBody : body s with
      | again next =>
          rw [runFor_again hBody] at hFuel
          obtain ⟨finish, hReaches, hLeave⟩ := ih hFuel
          exact ⟨finish, hReaches.after_again hBody, hLeave⟩
      | leave other =>
          rw [runFor_leave hBody] at hFuel
          cases hFuel
          exact ⟨s, Reaches.start, hBody⟩

/-- `count` passes lead from one state to another. -/
def Leads (body : State → Pass State Result) (count : Nat) (s next : State) : Prop :=
  ∀ fuel, runFor body (fuel + count) s = runFor body fuel next

theorem Leads.one (h : body s = .again next) : Leads body 1 s next :=
  fun fuel => runFor_again h fuel

theorem Leads.trans {middle : State} {first second : Nat} (h : Leads body first s middle)
    (h' : Leads body second middle next) : Leads body (second + first) s next := by
  intro fuel
  rw [← Nat.add_assoc, h, h']

/-- A loop returns exactly when a coarser one does, each of whose passes it makes
in one or more passes of its own. -/
theorem returns_iff_of_simulates {Coarse : Type u} {Output : Type v}
    {coarse : Coarse → Pass Coarse Output} (Rel : State → Coarse → Prop)
    (hLeave : ∀ s t output, Rel s t → coarse t = .leave output → ∃ result, Returns body s result)
    (hAgain : ∀ s t t', Rel s t → coarse t = .again t' →
      ∃ count s', 0 < count ∧ Leads body count s s' ∧ Rel s' t')
    {t : Coarse} (h : Rel s t) :
    (∃ result, Returns body s result) ↔ ∃ output, Returns coarse t output := by
  constructor
  · rintro ⟨result, fuel, hFuel⟩
    induction hm : fuel using Nat.strongRecOn generalizing fuel s t with
    | ind bound ih =>
        cases hPass : coarse t with
        | leave output => exact ⟨output, Returns.leave hPass⟩
        | again t' =>
            obtain ⟨count, s', hPos, hLeads, hRel⟩ := hAgain s t t' h hPass
            -- The passes that were made are some of the fuel.
            have hRest : ∃ less, less < bound ∧ runFor body less s' = some result := by
              by_cases hEnough : count ≤ fuel
              · refine ⟨fuel - count, by omega, ?_⟩
                rw [← hLeads, Nat.sub_add_cancel hEnough, hFuel]
              · have hNone := hLeads 0
                have hMore := runFor_add hFuel (count - fuel)
                rw [Nat.add_sub_of_le (by omega), ← Nat.zero_add count, hNone] at hMore
                cases hMore
            obtain ⟨less, hLess, hRun⟩ := hRest
            obtain ⟨output, hOutput⟩ := ih less hLess hRel less hRun rfl
            exact ⟨output, hOutput.again hPass⟩
  · rintro ⟨output, fuel, hFuel⟩
    induction fuel generalizing s t with
    | zero => cases hFuel
    | succ fuel ih =>
        cases hPass : coarse t with
        | leave other => exact hLeave s t other h hPass
        | again t' =>
            obtain ⟨count, s', _, hLeads, hRel⟩ := hAgain s t t' h hPass
            rw [runFor_again hPass] at hFuel
            obtain ⟨result, less, hLess⟩ := ih hRel hFuel
            exact ⟨result, less + count, by rw [hLeads, hLess]⟩

/-- Total correctness: an invariant that every pass keeps while a measure
falls, and that gives the postcondition when the loop is left. -/
theorem returns_of_measure (Inv : State → Prop) (Post : Result → Prop)
    (measure : State → Nat)
    (hPass : ∀ s, Inv s →
      (∃ next, body s = .again next ∧ Inv next ∧ measure next < measure s) ∨
      (∃ result, body s = .leave result ∧ Post result))
    (hStart : Inv s) : ∃ result, Returns body s result ∧ Post result := by
  induction hm : measure s using Nat.strongRecOn generalizing s with
  | ind bound ih =>
      rcases hPass s hStart with ⟨next, hBody, hNext, hLess⟩ | ⟨result, hBody, hPost⟩
      · obtain ⟨result, hReturns, hPost⟩ := ih (measure next) (by omega) hNext rfl
        exact ⟨result, hReturns.again hBody, hPost⟩
      · exact ⟨result, Returns.leave hBody, hPost⟩

/-- With a measure that falls on every pass, its value bounds the passes. -/
theorem runFor_of_measure (measure : State → Nat)
    (hPass : ∀ s next, body s = .again next → measure next < measure s) (s : State) :
    ∃ result, runFor body (measure s + 1) s = some result := by
  induction hm : measure s using Nat.strongRecOn generalizing s with
  | ind bound ih =>
      cases hBody : body s with
      | again next =>
          have hLess := hPass s next hBody
          obtain ⟨result, hResult⟩ := ih (measure next) (by omega) next rfl
          refine ⟨result, ?_⟩
          rw [runFor_again hBody]
          have hMore := runFor_add hResult (bound - (measure next + 1))
          rwa [show measure next + 1 + (bound - (measure next + 1)) = bound by omega] at hMore
      | leave result => exact ⟨result, runFor_leave hBody _⟩

theorem Returns.runFor_measure (measure : State → Nat)
    (hPass : ∀ s next, body s = .again next → measure next < measure s)
    (h : Returns body s result) : runFor body (measure s + 1) s = some result := by
  obtain ⟨other, hOther⟩ := runFor_of_measure measure hPass s
  rw [hOther, h.unique ⟨_, hOther⟩]

/-- An invariant under which no pass leaves the loop rules out every result. -/
theorem diverges_of_invariant (Inv : State → Prop)
    (hPass : ∀ s, Inv s → ∃ next, body s = .again next ∧ Inv next) (hStart : Inv s) :
    Diverges body s := by
  intro fuel
  induction fuel generalizing s with
  | zero => rfl
  | succ fuel ih =>
      obtain ⟨next, hBody, hNext⟩ := hPass s hStart
      rw [runFor_again hBody]
      exact ih hNext

/-- Partial correctness over all states a run goes through. -/
theorem Reaches.invariant {start finish : State} (h : Reaches body start finish)
    (Inv : State → Prop) (hStart : Inv start)
    (hPass : ∀ s next, Reaches body start s → Inv s → body s = .again next → Inv next) :
    Inv finish := by
  induction h with
  | start => exact hStart
  | pass prior last ih => exact hPass _ _ prior ih last

end CLoop
