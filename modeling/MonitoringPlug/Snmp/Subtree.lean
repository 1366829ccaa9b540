import MonitoringPlug.Lib.Loop
import MonitoringPlug.Snmp.Agent

/-! The subtree walk `mp_snmp_subtree_query`. One pass of the model sends a
request or looks at one variable of a response, so the states a run goes through
are all points of the two nested loops of the source. -/
namespace MonitoringPlug.Snmp

open CLoop

/-- The variables of the walk. `pending` is what is left of the response, and
`requests` what was sent, newest first. -/
structure Walk where
  lastOid : Oid
  vars : List Variable
  allocSize : Nat
  pending : List Variable
  requests : List Request

def Walk.start (subtreeOid : Oid) : Walk :=
  { lastOid := subtreeOid, vars := [], allocSize := 0, pending := [], requests := [] }

/-- How the walk ends: with a return code, or by `critical`, which exits. -/
inductive WalkEnd where
  | returned (rc : Stat) (vars : List Variable)
  | critical (message : String)

def setupRequest (version : Version) (lastOid : Oid) : Request :=
  match version with
  | .v1 => { command := .getnext, names := [lastOid] }
  | .v2c | .v3 => { command := .getbulk 0 16, names := [lastOid] }

/-- Append to the result array, which grows by 16 entries when it is full. -/
def Walk.store (s : Walk) (v : Variable) : Walk :=
  { s with
    allocSize := if s.allocSize ≤ s.vars.length then s.allocSize + 16 else s.allocSize
    vars := s.vars ++ [v] }

/-- The body of the inner loop. The exception filter of the source is kept: it
is a disjunction of two inequalities. -/
def walkVar (net : NetSnmp) (subtreeOid : Oid) (v : Variable) (rest : List Variable) (s : Walk) :
    Pass Walk WalkEnd :=
  if net.oidtreeCompare v.name s.lastOid < 0 then
    .leave (.critical "SNMP error: OIDs are not incresing")
  else if v.type = .endOfMibView ∨ net.oidtreeCompare subtreeOid v.name ≠ 0 then
    .leave (.returned .success s.vars)
  else
    let s := if v.type ≠ .noSuchObject ∨ v.type ≠ .noSuchInstance then s.store v else s
    .again { s with lastOid := v.name, pending := rest }

/-- The body of the outer loop in front of the inner one. For version 1 an error
response with `noSuchName` only prints a message. -/
def walkRequest (agent : Agent) (version : Version) (s : Walk) : Pass Walk WalkEnd :=
  let requests := setupRequest version s.lastOid :: s.requests
  match agent requests with
  | (.success, some response) =>
      match response.errstat with
      | .noError => .again { s with pending := response.vars, requests := requests }
      | .noSuchName =>
          if version = .v1 then .again { s with requests := requests }
          else .leave (.returned .error s.vars)
      | .other _ => .leave (.returned .error s.vars)
  | _ => .leave (.returned .error s.vars)

def walkPass (net : NetSnmp) (agent : Agent) (version : Version) (subtreeOid : Oid) (s : Walk) :
    Pass Walk WalkEnd :=
  match s.pending with
  | v :: rest => walkVar net subtreeOid v rest s
  | [] => walkRequest agent version s

/-- The filter lets every type through. -/
theorem exception_filter_true (t : AsnType) : t ≠ .noSuchObject ∨ t ≠ .noSuchInstance := by
  cases t <;> simp

/-- The next variable of the response passes the tests in front of the filter. -/
structure Stores (net : NetSnmp) (subtreeOid : Oid) (s : Walk) (v : Variable)
    (rest : List Variable) : Prop where
  next : s.pending = v :: rest
  increasing : ¬net.oidtreeCompare v.name s.lastOid < 0
  present : v.type ≠ .endOfMibView
  inSubtree : net.oidtreeCompare subtreeOid v.name = 0

/-- The state behind a stored variable. -/
def Walk.stored (s : Walk) (v : Variable) (rest : List Variable) : Walk :=
  { s.store v with lastOid := v.name, pending := rest }

@[simp] theorem Walk.stored_vars (s : Walk) (v : Variable) (rest : List Variable) :
    (s.stored v rest).vars = s.vars ++ [v] := rfl

@[simp] theorem Walk.stored_lastOid (s : Walk) (v : Variable) (rest : List Variable) :
    (s.stored v rest).lastOid = v.name := rfl

section Passes

variable {net : NetSnmp} {agent : Agent} {version : Version} {subtreeOid : Oid} {s next : Walk}

theorem walkPass_stores {v : Variable} {rest : List Variable}
    (h : Stores net subtreeOid s v rest) :
    walkPass net agent version subtreeOid s = .again (s.stored v rest) := by
  have hGo : ¬(v.type = .endOfMibView ∨ net.oidtreeCompare subtreeOid v.name ≠ 0) := by
    rw [not_or, not_not]
    exact ⟨h.present, h.inSubtree⟩
  simp only [walkPass, h.next, walkVar, if_neg h.increasing, if_neg hGo,
    if_pos (exception_filter_true v.type)]
  rfl

/-- All that a pass that goes on can do: store a variable, take over a response,
or, in version 1, pass over an error response. -/
theorem walkPass_again (h : walkPass net agent version subtreeOid s = .again next) :
    (∃ v rest, Stores net subtreeOid s v rest ∧ next = s.stored v rest) ∨
    (s.pending = [] ∧ ∃ response,
      agent (setupRequest version s.lastOid :: s.requests) = (.success, some response) ∧
      (response.errstat = .noError ∧ next =
          { s with pending := response.vars
                   requests := setupRequest version s.lastOid :: s.requests } ∨
        response.errstat = .noSuchName ∧ version = .v1 ∧ next =
          { s with requests := setupRequest version s.lastOid :: s.requests })) := by
  rw [walkPass] at h
  split at h
  · rename_i v rest hPending
    simp only [walkVar, if_pos (exception_filter_true v.type)] at h
    split_ifs at h with hLess hStop
    rw [not_or, not_not] at hStop
    left
    refine ⟨v, rest, ⟨hPending, hLess, hStop.1, hStop.2⟩, ?_⟩
    cases h
    rfl
  · rename_i hPending
    right
    refine ⟨hPending, ?_⟩
    rw [walkRequest] at h
    split at h
    · rename_i response hAgent
      refine ⟨response, hAgent, ?_⟩
      split at h
      · rename_i hOk
        cases h
        exact Or.inl ⟨hOk, rfl⟩
      · rename_i hName
        split_ifs at h with hVersion
        cases h
        exact Or.inr ⟨hName, hVersion, rfl⟩
      · cases h
    · cases h

/-- In every run the entry that is written lies inside the result array. -/
theorem store_inside (h : Reaches (walkPass net agent version subtreeOid)
    (Walk.start subtreeOid) s) (v : Variable) : s.vars.length < (s.store v).allocSize := by
  have hRoom : s.vars.length ≤ s.allocSize := by
    apply h.invariant fun s => s.vars.length ≤ s.allocSize
    · simp [Walk.start]
    · intro s next _ hInv hPass
      rcases walkPass_again hPass with
        ⟨v, rest, -, rfl⟩ | ⟨-, response, -, ⟨-, rfl⟩ | ⟨-, -, rfl⟩⟩
      · simp only [Walk.stored, Walk.store, List.length_append, List.length_singleton]
        split <;> omega
      · exact hInv
      · exact hInv
  rw [Walk.store]
  simp only
  split <;> omega

end Passes

section AnyAgent

variable {net : NetSnmp} {agent : Agent} {subtreeOid : Oid} {s : Walk}

/-- The OIDs asked for so far, newest first. -/
def Walk.requested (s : Walk) : List Oid := s.requests.flatMap (·.names)

/-- What the walk should keep against any agent: results that increase strictly
behind the start, lie under it and have a value, and requests that increase. -/
structure Walk.Sound (subtreeOid : Oid) (s : Walk) : Prop where
  increasing : (subtreeOid :: s.vars.map (·.name)).Pairwise (· < ·)
  inSubtree : ∀ v ∈ s.vars, subtreeOid <+: v.name
  present : ∀ v ∈ s.vars, v.type.isException = false
  advancing : s.requested.Pairwise (· > ·)

/-- A variable that the walk is about to store goes on from the last OID, in place
of repeating or shortening it, and has a value. -/
def Walk.Advances (net : NetSnmp) (subtreeOid : Oid) (s : Walk) : Prop :=
  ∀ v rest, Stores net subtreeOid s v rest →
    ¬v.name <+: s.lastOid ∧ v.type ≠ .noSuchObject ∧ v.type ≠ .noSuchInstance

/-- The last OID is the start or that of a stored variable. -/
theorem lastOid_mem (h : Reaches (walkPass net agent .v2c subtreeOid)
    (Walk.start subtreeOid) s) : s.lastOid ∈ subtreeOid :: s.vars.map (·.name) := by
  apply h.invariant fun s => s.lastOid ∈ subtreeOid :: s.vars.map (·.name)
  · exact List.mem_cons_self
  · intro s next _ hInv hPass
    rcases walkPass_again hPass with
      ⟨v, rest, -, rfl⟩ | ⟨-, response, -, ⟨-, rfl⟩ | ⟨-, hVersion, -⟩⟩
    · simp
    · exact hInv
    · cases hVersion

/-- Soundness with what carries it along a run: the last OID bounds everything
that was stored or asked for, strictly once a response is used up. -/
structure Walk.Going (subtreeOid : Oid) (s : Walk) : Prop where
  sound : s.Sound subtreeOid
  under : subtreeOid <+: s.lastOid
  bounded : ∀ oid ∈ subtreeOid :: s.vars.map (·.name), oid ≤ s.lastOid
  asked : ∀ oid ∈ s.requested, oid ≤ s.lastOid
  usedUp : s.pending = [] → ∀ oid ∈ s.requested, oid < s.lastOid

theorem going_start (subtreeOid : Oid) : (Walk.start subtreeOid).Going subtreeOid where
  sound := ⟨by simp [Walk.start], by simp [Walk.start], by simp [Walk.start],
    by simp [Walk.start, Walk.requested]⟩
  under := List.prefix_rfl
  bounded := by simp [Walk.start]
  asked := by simp [Walk.start, Walk.requested]
  usedUp := by simp [Walk.start, Walk.requested]

/-- A variable that passes the tests and does not repeat or shorten the last OID
lies behind it, and under the start. -/
theorem Stores.behind {v : Variable} {rest : List Variable}
    (h : Stores net subtreeOid s v rest) (hUnder : subtreeOid <+: s.lastOid)
    (hNew : ¬v.name <+: s.lastOid) : s.lastOid < v.name ∧ subtreeOid <+: v.name := by
  have hLess : s.lastOid < v.name := by
    have hIncreasing := h.increasing
    rw [net.oidtreeCompare_neg, not_and_not_right] at hIncreasing
    apply lt_of_le_of_ne
    · rw [← not_lt]
      intro hBefore
      exact hNew (hIncreasing hBefore)
    · intro hSame
      exact hNew (hSame ▸ List.prefix_rfl)
  refine ⟨hLess, ?_⟩
  have hStart : subtreeOid < v.name := (Cursor.le_of_prefix hUnder).trans_lt hLess
  rcases (net.oidtreeCompare_eq_zero _ _).mp h.inSubtree with hUnder | hOver
  · exact hUnder
  · exact (Cursor.not_prefix_of_lt hStart hOver).elim

theorem Walk.Going.stored {v : Variable} {rest : List Variable} (hGoing : s.Going subtreeOid)
    (h : Stores net subtreeOid s v rest) (hAdvances : s.Advances net subtreeOid) :
    (s.stored v rest).Going subtreeOid := by
  obtain ⟨hNew, hObject, hInstance⟩ := hAdvances v rest h
  obtain ⟨hLess, hUnder⟩ := h.behind hGoing.under hNew
  have hBefore : ∀ oid ∈ subtreeOid :: s.vars.map (·.name), oid < v.name :=
    fun oid hOid => (hGoing.bounded oid hOid).trans_lt hLess
  have hAsked : ∀ oid ∈ s.requested, oid < v.name :=
    fun oid hOid => (hGoing.asked oid hOid).trans_lt hLess
  refine ⟨⟨?_, ?_, ?_, hGoing.sound.advancing⟩, hUnder, ?_, ?_, fun _ => hAsked⟩
  · rw [Walk.stored_vars, List.map_append, ← List.cons_append, List.pairwise_append]
    refine ⟨hGoing.sound.increasing, by simp, ?_⟩
    intro oid hOid last hLast
    simp only [List.map_cons, List.map_nil, List.mem_singleton] at hLast
    exact hLast ▸ hBefore oid hOid
  · intro x hx
    rcases List.mem_append.mp hx with hOld | hNew
    · exact hGoing.sound.inSubtree x hOld
    · exact List.mem_singleton.mp hNew ▸ hUnder
  · intro x hx
    rcases List.mem_append.mp hx with hOld | hNew
    · exact hGoing.sound.present x hOld
    · have hPresent := h.present
      rw [List.mem_singleton.mp hNew]
      cases hType : v.type <;> simp_all [AsnType.isException]
  · intro oid hOid
    rw [Walk.stored_vars, List.map_append, ← List.cons_append, List.mem_append] at hOid
    rcases hOid with hOld | hNew
    · exact (hBefore oid hOld).le
    · simp only [List.map_cons, List.map_nil, List.mem_singleton] at hNew
      exact hNew.le
  · intro oid hOid
    exact (hAsked oid hOid).le

/-- Every response without an error has a variable. -/
def Agent.NonemptyBatches (agent : Agent) : Prop :=
  ∀ history status response, agent history = (status, some response) →
    response.errstat = .noError → response.vars ≠ []

theorem Walk.Going.requested (hGoing : s.Going subtreeOid) (hPending : s.pending = [])
    {vars : List Variable} (hVars : vars ≠ []) :
    Walk.Going subtreeOid
      { s with pending := vars, requests := setupRequest .v2c s.lastOid :: s.requests } where
  sound :=
    { increasing := hGoing.sound.increasing
      inSubtree := hGoing.sound.inSubtree
      present := hGoing.sound.present
      advancing := List.Pairwise.cons (hGoing.usedUp hPending) hGoing.sound.advancing }
  under := hGoing.under
  bounded := hGoing.bounded
  asked := by
    intro oid hOid
    rcases List.mem_cons.mp hOid with rfl | hOld
    · exact le_refl _
    · exact hGoing.asked oid hOld
  usedUp := fun hNone => (hVars hNone).elim

theorem going_reached (hBatch : agent.NonemptyBatches)
    (hAdvances : ∀ s, Reaches (walkPass net agent .v2c subtreeOid) (Walk.start subtreeOid) s →
      s.Advances net subtreeOid)
    (h : Reaches (walkPass net agent .v2c subtreeOid) (Walk.start subtreeOid) s) :
    s.Going subtreeOid := by
  apply h.invariant (Walk.Going subtreeOid) (going_start subtreeOid)
  intro s next hReached hGoing hPass
  rcases walkPass_again hPass with
    ⟨v, rest, hStores, rfl⟩ | ⟨hPending, response, hAgent, ⟨hOk, rfl⟩ | ⟨-, hVersion, -⟩⟩
  · exact hGoing.stored hStores (hAdvances s hReached)
  · exact hGoing.requested hPending (hBatch _ _ response hAgent hOk)
  · cases hVersion

/-- A variable stored without going on from the last OID, or without a value, is
seen in the next state. -/
theorem advances_of_sound (hSound : ∀ s, Reaches (walkPass net agent .v2c subtreeOid)
      (Walk.start subtreeOid) s → s.Sound subtreeOid)
    (h : Reaches (walkPass net agent .v2c subtreeOid) (Walk.start subtreeOid) s) :
    s.Advances net subtreeOid := by
  intro v rest hStores
  have hNext := hSound _ (h.pass (walkPass_stores hStores))
  have hLess : s.lastOid < v.name := by
    have hIncreasing := hNext.increasing
    rw [Walk.stored_vars, List.map_append, ← List.cons_append, List.pairwise_append] at hIncreasing
    exact hIncreasing.2.2 s.lastOid (lastOid_mem h) v.name (by simp)
  have hPresent := hNext.present v (by simp)
  refine ⟨Cursor.not_prefix_of_lt hLess, ?_, ?_⟩
  · intro hType
    simp [hType, AsnType.isException] at hPresent
  · intro hType
    simp [hType, AsnType.isException] at hPresent

end AnyAgent

/-- The walk against any agent of version 2c whose responses have variables. All
points of its run are sound exactly when every variable it stores goes on from
the last OID and has a value. The two tests of the source do not see to that:
the comparison calls an OID and its prefixes equal, and the filter passes every
type. -/
theorem mpSnmpSubtreeQuery_sound_iff (net : NetSnmp) (agent : Agent) (subtreeOid : Oid)
    (hBatch : agent.NonemptyBatches) :
    (∀ s, Reaches (walkPass net agent .v2c subtreeOid) (Walk.start subtreeOid) s →
        s.Sound subtreeOid) ↔
      ∀ s, Reaches (walkPass net agent .v2c subtreeOid) (Walk.start subtreeOid) s →
        s.Advances net subtreeOid := by
  constructor
  · intro hSound s h
    exact advances_of_sound hSound h
  · intro hAdvances s h
    exact (going_reached hBatch hAdvances h).sound

/-- An agent that answers every request with the same variables. -/
def constantAgent (vars : List Variable) : Agent :=
  fun _ => (.success, some { errstat := .noError, errindex := 0, vars := vars })

theorem constantAgent_nonempty {vars : List Variable} (h : vars ≠ []) :
    (constantAgent vars).NonemptyBatches := by
  rintro history status response hAgent -
  cases hAgent
  exact h

/-- One variable under the start, and the end of the MIB. -/
theorem mpSnmpSubtreeQuery_sound_iff_two :
    let vars : List Variable :=
      [⟨[1, 3, 6, 1, 1], .integer, [7]⟩, ⟨[1, 3, 6, 1, 1], .endOfMibView, []⟩]
    ∀ s, Reaches (walkPass NetSnmp.reference (constantAgent vars) .v2c [1, 3, 6, 1])
      (Walk.start [1, 3, 6, 1]) s → s.Sound [1, 3, 6, 1] := by
  intro vars
  apply (mpSnmpSubtreeQuery_sound_iff _ _ _ (constantAgent_nonempty (by simp [vars]))).mpr
  intro s h
  have hPlace : s.lastOid = [1, 3, 6, 1] ∧ (s.pending = [] ∨ s.pending = vars) ∨
      s.pending = vars.tail := by
    apply h.invariant fun s => s.lastOid = [1, 3, 6, 1] ∧ (s.pending = [] ∨ s.pending = vars) ∨
      s.pending = vars.tail
    · exact Or.inl ⟨rfl, Or.inl rfl⟩
    · rintro s next - hInv hPass
      rcases walkPass_again hPass with
        ⟨v, rest, hStores, rfl⟩ | ⟨hPending, response, hAgent, ⟨-, rfl⟩ | ⟨-, hVersion, -⟩⟩
      · have hNext := hStores.next
        rcases hInv with ⟨-, hNone | hAll⟩ | hTail
        · rw [hNone] at hNext
          cases hNext
        · obtain ⟨-, rfl⟩ := List.cons.inj (hAll.symm.trans hNext)
          exact Or.inr rfl
        · rw [hTail] at hNext
          cases hNext
          exact (hStores.present rfl).elim
      · cases hAgent
        rcases hInv with ⟨hLast, -⟩ | hTail
        · exact Or.inl ⟨hLast, Or.inr rfl⟩
        · rw [hPending] at hTail
          cases hTail
      · cases hVersion
  intro v rest hStores
  have hNext := hStores.next
  rcases hPlace with ⟨hLast, hNone | hAll⟩ | hTail
  · rw [hNone] at hNext
    cases hNext
  · obtain ⟨rfl, rfl⟩ := List.cons.inj (hAll.symm.trans hNext)
    rw [hLast]
    decide
  · rw [hTail] at hNext
    cases hNext
    exact (hStores.present rfl).elim

/-- An agent that repeats one variable without a value keeps the walk going: it
is stored again and again, and asked for again. -/
theorem mpSnmpSubtreeQuery_repeats :
    let vars : List Variable := [⟨[1, 3, 6, 1, 1], .noSuchInstance, []⟩]
    (constantAgent vars).NonemptyBatches ∧
    ∃ s, Reaches (walkPass NetSnmp.reference (constantAgent vars) .v2c [1, 3, 6, 1])
        (Walk.start [1, 3, 6, 1]) s ∧
      ¬(s.vars.map (·.name)).Pairwise (· < ·) ∧
      (∃ v ∈ s.vars, v.type = .noSuchInstance) ∧
      ¬s.requested.Pairwise (· > ·) := by
  intro vars
  refine ⟨constantAgent_nonempty (by simp [vars]), ?_⟩
  -- request, store, request, store, request
  have hRun : Reaches (walkPass NetSnmp.reference (constantAgent vars) .v2c [1, 3, 6, 1])
      (Walk.start [1, 3, 6, 1]) _ :=
    .pass (.pass (.pass (.pass (.pass .start rfl) rfl) rfl) rfl) rfl
  exact ⟨_, hRun, by decide, by decide, by decide⟩

end MonitoringPlug.Snmp
