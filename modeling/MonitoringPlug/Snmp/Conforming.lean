import MonitoringPlug.Snmp.Subtree

/-! The subtree walk against an agent that serves a sorted MIB. -/
namespace MonitoringPlug.Snmp

open CLoop

/-- The answers to `count` successive GETNEXT: variables as far as they go, and
then the end of the MIB under the last name. -/
def Mib.successors (mib : Mib) : Oid → Nat → List Variable
  | _, 0 => []
  | oid, count + 1 =>
      match mib.behind oid with
      | [] => { name := oid, type := .endOfMibView, val := [] } :: mib.successors oid count
      | v :: _ => v :: mib.successors v.name count

/-- A version 1 answer to GETNEXT. Without a successor the request comes back
with an error. -/
def Mib.getnext (mib : Mib) (oid : Oid) : Response :=
  match mib.behind oid with
  | [] => { errstat := .noSuchName, errindex := 1
            vars := [{ name := oid, type := .other 5, val := [] }] }
  | v :: _ => { errstat := .noError, errindex := 0, vars := [v] }

/-- The agent answers the requests of this version from the MIB. A GETBULK may be
answered with any number of successors up to the one asked for. -/
def Mib.ServedBy (mib : Mib) (agent : Agent) : Version → Prop
  | .v1 => ∀ oid history, agent ({ command := .getnext, names := [oid] } :: history) =
      (.success, some (mib.getnext oid))
  | .v2c | .v3 => ∀ oid maxRepetitions history, 0 < maxRepetitions →
      ∃ count, 0 < count ∧ count ≤ maxRepetitions ∧
        agent ({ command := .getbulk 0 maxRepetitions, names := [oid] } :: history) =
          (.success, some { errstat := .noError, errindex := 0
                            vars := mib.successors oid count })

/-- The variables strictly under an OID, in order. -/
def Mib.below (mib : Mib) (oid : Oid) : List Variable :=
  mib.vars.filter fun v => oid <+: v.name ∧ oid ≠ v.name

section Successors

variable {mib : Mib} {oid : Oid}

theorem successors_end (h : mib.behind oid = []) (count : Nat) :
    mib.successors oid count =
      List.replicate count { name := oid, type := .endOfMibView, val := [] } := by
  induction count with
  | zero => rfl
  | succ count ih =>
      rw [Mib.successors]
      simp only [h, ih, List.replicate_succ]

/-- The successors are a prefix of the variables behind the OID, filled up at the
end of the MIB. -/
theorem successors_eq (mib : Mib) (oid : Oid) (count : Nat) :
    mib.successors oid count = (mib.behind oid).take count ++
      List.replicate (count - (mib.behind oid).length)
        { name := (((mib.behind oid).getLast?).map (·.name)).getD oid
          type := .endOfMibView, val := [] } := by
  induction count generalizing oid with
  | zero => simp [Mib.successors]
  | succ count ih =>
      cases hBehind : mib.behind oid with
      | nil => simp [successors_end hBehind]
      | cons v rest =>
          obtain ⟨-, hRest, -⟩ := Cursor.behind_head mib.sorted hBehind
          rw [Mib.successors]
          simp only [hBehind]
          rw [ih, show mib.behind v.name = rest from hRest]
          cases hLast : rest.getLast? <;> simp [List.getLast?_cons, hLast]

end Successors

section Walk

variable {net : NetSnmp} {agent : Agent} {version : Version} {mib : Mib} {subtreeOid : Oid}
  {s : Walk}

/-- The MIB goes on behind the subtree. -/
def Mib.GoesOn (mib : Mib) (subtreeOid : Oid) : Prop :=
  ∃ v ∈ mib.vars, subtreeOid < v.name ∧ ¬subtreeOid <+: v.name

/-- What was stored and what is still to come are together the subtree, and a
response holds the next variables. -/
structure Walk.Serving (mib : Mib) (subtreeOid : Oid) (s : Walk) : Prop where
  under : subtreeOid <+: s.lastOid
  collected : s.vars ++ (mib.behind s.lastOid).filter (fun v => subtreeOid <+: v.name) =
    mib.below subtreeOid
  pending : ∃ count, s.pending = mib.successors s.lastOid count

theorem serving_start (mib : Mib) (subtreeOid : Oid) :
    (Walk.start subtreeOid).Serving mib subtreeOid where
  under := List.prefix_rfl
  collected := by
    show [] ++ (mib.behind subtreeOid).filter (fun v => subtreeOid <+: v.name) = _
    rw [List.nil_append, Mib.below, Mib.behind, Cursor.behind, List.filter_filter]
    apply List.filter_congr
    intro v _
    rw [Bool.eq_iff_iff]
    simp only [Bool.and_eq_true, decide_eq_true_eq]
    constructor
    · rintro ⟨hUnder, hLess⟩
      exact ⟨hUnder, hLess.ne⟩
    · rintro ⟨hUnder, hNe⟩
      exact ⟨hUnder, lt_of_le_of_ne (Cursor.le_of_prefix hUnder) hNe⟩
  pending := ⟨0, rfl⟩

/-- A variable behind the last OID is in the subtree by the test of the source
exactly when it is. -/
theorem oidtreeCompare_behind (hUnder : subtreeOid <+: s.lastOid) {v : Variable}
    (hLess : s.lastOid < v.name) :
    net.oidtreeCompare subtreeOid v.name = 0 ↔ subtreeOid <+: v.name := by
  rw [net.oidtreeCompare_eq_zero]
  constructor
  · rintro (hBelow | hAbove)
    · exact hBelow
    · exact (Cursor.not_prefix_of_lt ((Cursor.le_of_prefix hUnder).trans_lt hLess) hAbove).elim
  · exact Or.inl

/-- Behind a variable outside the subtree there is nothing of it. -/
theorem filter_behind_outside {v : Variable} {rest : List Variable} {oid : Oid}
    (hBehind : mib.behind oid = v :: rest) (hStart : subtreeOid < v.name)
    (hOutside : ¬subtreeOid <+: v.name) :
    (mib.behind oid).filter (fun v => subtreeOid <+: v.name) = [] := by
  obtain ⟨-, -, hLater⟩ := Cursor.behind_head mib.sorted hBehind
  rw [hBehind, List.filter_eq_nil_iff]
  intro w hw
  rw [decide_eq_true_eq]
  intro hUnder
  have hBefore := Cursor.lt_of_prefix_of_lt hStart hOutside hUnder
  rcases List.mem_cons.mp hw with rfl | hRest
  · exact lt_irrefl _ hBefore
  · exact lt_asymm hBefore (hLater w hRest)

theorem Walk.Serving.stored {v : Variable} {rest : List Variable} (h : s.Serving mib subtreeOid)
    (hBehind : mib.behind s.lastOid = v :: rest) (hUnder : subtreeOid <+: v.name) (count : Nat) :
    (s.stored v (mib.successors v.name count)).Serving mib subtreeOid where
  under := hUnder
  collected := by
    obtain ⟨-, hRest, -⟩ := Cursor.behind_head mib.sorted hBehind
    have hCollected := h.collected
    rw [hBehind, List.filter_cons_of_pos (by simpa using hUnder)] at hCollected
    rw [Walk.stored_vars, Walk.stored_lastOid, show mib.behind v.name = rest from hRest,
      List.append_assoc]
    exact hCollected
  pending := ⟨count, rfl⟩

theorem not_before_next {v : Variable} {rest : List Variable}
    (hBehind : mib.behind s.lastOid = v :: rest) : ¬net.oidtreeCompare v.name s.lastOid < 0 := by
  obtain ⟨hLess, -, -⟩ := Cursor.behind_head mib.sorted hBehind
  rw [net.oidtreeCompare_neg]
  exact fun hBefore => lt_asymm hLess hBefore.1

/-- The next variable of the MIB passes the tests as long as it is in the subtree. -/
theorem Walk.Serving.stores {v : Variable} {rest more : List Variable}
    (h : s.Serving mib subtreeOid) (hPending : s.pending = v :: more)
    (hBehind : mib.behind s.lastOid = v :: rest) (hUnder : subtreeOid <+: v.name) :
    Stores net subtreeOid s v more where
  next := hPending
  increasing := not_before_next hBehind
  present := by
    have hMem : v ∈ mib.vars := (Cursor.mem_behind.mp (hBehind ▸ List.mem_cons_self)).1
    intro hType
    simpa [hType, AsnType.isException] using mib.present v hMem
  inSubtree := by
    obtain ⟨hLess, -, -⟩ := Cursor.behind_head mib.sorted hBehind
    exact (oidtreeCompare_behind h.under hLess).mpr hUnder

/-- A pass over a variable stores the next of the subtree, or leaves with all of
it. -/
theorem Walk.Serving.pass_var {v : Variable} {more : List Variable}
    (h : s.Serving mib subtreeOid) (hPending : s.pending = v :: more) :
    (∃ rest, mib.behind s.lastOid = v :: rest ∧ (s.stored v more).Serving mib subtreeOid ∧
      walkPass net agent version subtreeOid s = .again (s.stored v more)) ∨
    walkPass net agent version subtreeOid s =
      .leave (.returned .success (mib.below subtreeOid)) := by
  obtain ⟨_ | count, hCount⟩ := h.pending
  · rw [hPending] at hCount
    cases hCount
  rw [hPending, Mib.successors] at hCount
  cases hBehind : mib.behind s.lastOid with
  | nil =>
      right
      simp only [hBehind, List.cons.injEq] at hCount
      have hIncreasing : ¬net.oidtreeCompare v.name s.lastOid < 0 := by
        rw [net.oidtreeCompare_neg, hCount.1]
        simp
      have hAll : s.vars = mib.below subtreeOid := by
        simpa [hBehind] using h.collected
      simp only [walkPass, hPending, walkVar, if_neg hIncreasing]
      rw [if_pos (Or.inl (by rw [hCount.1])), hAll]
  | cons w rest =>
      simp only [hBehind, List.cons.injEq] at hCount
      obtain ⟨rfl, rfl⟩ := hCount
      by_cases hUnder : subtreeOid <+: v.name
      · left
        exact ⟨rest, rfl, h.stored hBehind hUnder count,
          walkPass_stores (h.stores hPending hBehind hUnder)⟩
      · right
        obtain ⟨hLess, -, -⟩ := Cursor.behind_head mib.sorted hBehind
        have hStart := (Cursor.le_of_prefix h.under).trans_lt hLess
        have hAll : s.vars = mib.below subtreeOid := by
          have hCollected := h.collected
          rwa [filter_behind_outside hBehind hStart hUnder, List.append_nil] at hCollected
        have hLeave : net.oidtreeCompare subtreeOid v.name ≠ 0 := by
          rwa [ne_eq, oidtreeCompare_behind h.under hLess]
        simp only [walkPass, hPending, walkVar, if_neg (not_before_next hBehind)]
        rw [if_pos (Or.inr hLeave), hAll]

theorem behind_of_goesOn (hGoesOn : mib.GoesOn subtreeOid) {oid : Oid}
    (hUnder : subtreeOid <+: oid) : mib.behind oid ≠ [] := by
  obtain ⟨v, hMem, hLess, hOutside⟩ := hGoesOn
  have hBehind : v ∈ mib.behind oid :=
    Cursor.mem_behind.mpr ⟨hMem, Cursor.lt_of_prefix_of_lt hLess hOutside hUnder⟩
  exact List.ne_nil_of_mem hBehind

theorem walkPass_response {response : Response} (hPending : s.pending = [])
    (hAgent : agent (setupRequest version s.lastOid :: s.requests) = (.success, some response))
    (hOk : response.errstat = .noError) :
    walkPass net agent version subtreeOid s = .again
      { s with pending := response.vars
               requests := setupRequest version s.lastOid :: s.requests } := by
  simp only [walkPass, hPending, walkRequest, hAgent, hOk]

/-- A request brings the next variables, or the end of the MIB. In version 1 this
needs a variable behind the subtree. -/
theorem Walk.Serving.pass_request (hServed : mib.ServedBy agent version)
    (hEnds : version ≠ .v1 ∨ mib.GoesOn subtreeOid) (h : s.Serving mib subtreeOid)
    (hPending : s.pending = []) :
    ∃ next, walkPass net agent version subtreeOid s = .again next ∧
      next.Serving mib subtreeOid ∧ next.pending ≠ [] ∧ next.lastOid = s.lastOid := by
  -- a response with some successors is taken over
  have hTaken : ∀ count, 0 < count →
      agent (setupRequest version s.lastOid :: s.requests) = (.success, some
        { errstat := .noError, errindex := 0, vars := mib.successors s.lastOid count }) →
      ∃ next, walkPass net agent version subtreeOid s = .again next ∧
        next.Serving mib subtreeOid ∧ next.pending ≠ [] ∧ next.lastOid = s.lastOid := by
    intro count hCount hAgent
    refine ⟨_, walkPass_response hPending hAgent rfl, ⟨h.under, h.collected, count, rfl⟩, ?_, rfl⟩
    obtain ⟨count, rfl⟩ := Nat.exists_eq_add_of_lt hCount
    rw [Nat.zero_add, Mib.successors]
    split <;> simp
  cases version with
  | v1 =>
      obtain ⟨v, rest, hBehind⟩ := List.exists_cons_of_ne_nil
        (behind_of_goesOn (hEnds.resolve_left (by simp)) h.under)
      apply hTaken 1 Nat.one_pos
      rw [setupRequest, hServed, Mib.getnext, Mib.successors]
      simp only [hBehind, Mib.successors]
  | v2c =>
      obtain ⟨count, hCount, -, hAgent⟩ := hServed s.lastOid 16 s.requests (by decide)
      exact hTaken count hCount hAgent
  | v3 =>
      obtain ⟨count, hCount, -, hAgent⟩ := hServed s.lastOid 16 s.requests (by decide)
      exact hTaken count hCount hAgent

/-- The walk ends with the subtree. Every stored variable brings the last OID
forward, and between two requests at least one variable is stored. -/
theorem walk_returns (hServed : mib.ServedBy agent version)
    (hEnds : version ≠ .v1 ∨ mib.GoesOn subtreeOid) :
    Returns (walkPass net agent version subtreeOid) (Walk.start subtreeOid)
      (.returned .success (mib.below subtreeOid)) := by
  let left (s : Walk) : Nat :=
    2 * (mib.behind s.lastOid).length + if s.pending = [] then 1 else 0
  have hPass : ∀ s, s.Serving mib subtreeOid →
      (∃ next, walkPass net agent version subtreeOid s = .again next ∧
        next.Serving mib subtreeOid ∧ left next < left s) ∨
      (∃ result, walkPass net agent version subtreeOid s = .leave result ∧
        result = .returned .success (mib.below subtreeOid)) := by
    intro s h
    cases hPending : s.pending with
    | nil =>
        obtain ⟨next, hPass, hNext, hMore, hLast⟩ := h.pass_request hServed hEnds hPending
        refine Or.inl ⟨next, hPass, hNext, ?_⟩
        simp [left, hLast, hMore, hPending]
    | cons v more =>
        rcases h.pass_var hPending with ⟨rest, hBehind, hNext, hPass⟩ | hLeave
        · refine Or.inl ⟨_, hPass, hNext, ?_⟩
          obtain ⟨-, hRest, -⟩ := Cursor.behind_head mib.sorted hBehind
          simp only [left, Walk.stored_lastOid, show mib.behind v.name = rest from hRest, hBehind,
            List.length_cons]
          split <;> omega
        · exact Or.inr ⟨_, hLeave, rfl⟩
  obtain ⟨result, hReturns, rfl⟩ := returns_of_measure (Walk.Serving mib subtreeOid)
    (fun result => result = WalkEnd.returned .success (mib.below subtreeOid)) left hPass
    (serving_start mib subtreeOid)
  exact hReturns

/-- In version 1, without a variable behind the subtree, the error response at
the end of the MIB is answered with the same request for ever. -/
theorem walk_diverges (hServed : mib.ServedBy agent .v1) (hLast : ¬mib.GoesOn subtreeOid) :
    Diverges (walkPass net agent .v1 subtreeOid) (Walk.start subtreeOid) := by
  apply diverges_of_invariant fun s => s.Serving mib subtreeOid ∧
    (s.pending = [] ∨ ∃ v rest, mib.behind s.lastOid = v :: rest ∧ s.pending = [v])
  · rintro s ⟨h, hPending | ⟨v, rest, hBehind, hPending⟩⟩
    · have hAgent : agent (setupRequest .v1 s.lastOid :: s.requests) =
          (.success, some (mib.getnext s.lastOid)) := hServed s.lastOid s.requests
      cases hBehind : mib.behind s.lastOid with
      | nil =>
          refine ⟨{ s with requests := setupRequest .v1 s.lastOid :: s.requests }, ?_,
            ⟨h.under, h.collected, h.pending⟩, Or.inl hPending⟩
          simp only [walkPass, hPending, walkRequest, hAgent, Mib.getnext, hBehind, if_true]
      | cons v rest =>
          rw [Mib.getnext, hBehind] at hAgent
          refine ⟨_, walkPass_response hPending hAgent rfl, ⟨h.under, h.collected, 1, ?_⟩,
            Or.inr ⟨v, rest, hBehind, rfl⟩⟩
          simp only [Mib.successors, hBehind]
    · obtain ⟨hLess, -, -⟩ := Cursor.behind_head mib.sorted hBehind
      have hUnder : subtreeOid <+: v.name := by
        by_contra hOutside
        have hMem : v ∈ mib.vars := (Cursor.mem_behind.mp (hBehind ▸ List.mem_cons_self)).1
        exact hLast ⟨v, hMem, (Cursor.le_of_prefix h.under).trans_lt hLess, hOutside⟩
      exact ⟨_, walkPass_stores (h.stores hPending hBehind hUnder),
        h.stored hBehind hUnder 0, Or.inl rfl⟩
  · exact ⟨serving_start mib subtreeOid, Or.inl rfl⟩

end Walk

/-- An agent for the MIB that fills every GETBULK. -/
def Mib.agent (mib : Mib) : Agent
  | { command := .getnext, names := [oid] } :: _ => (.success, some (mib.getnext oid))
  | { command := .getbulk 0 maxRepetitions, names := [oid] } :: _ =>
      (.success, some { errstat := .noError, errindex := 0
                        vars := mib.successors oid maxRepetitions })
  | _ => (.timeout, none)

theorem Mib.agent_serves (mib : Mib) (version : Version) : mib.ServedBy mib.agent version := by
  cases version with
  | v1 => exact fun _ _ => rfl
  | v2c => exact fun _ count _ hCount => ⟨count, hCount, Nat.le_refl _, rfl⟩
  | v3 => exact fun _ count _ hCount => ⟨count, hCount, Nat.le_refl _, rfl⟩

/-- Against every agent that serves a MIB the walk ends with success and exactly
the variables strictly under the OID, in order, in all versions alike, except in
version 1 where nothing lies behind the subtree. -/
theorem mpSnmpSubtreeQuery_served_iff (net : NetSnmp) (mib : Mib) (subtreeOid : Oid)
    (version : Version) :
    (∀ agent, mib.ServedBy agent version →
        Returns (walkPass net agent version subtreeOid) (Walk.start subtreeOid)
          (.returned .success (mib.below subtreeOid))) ↔
      version ≠ .v1 ∨ mib.GoesOn subtreeOid := by
  constructor
  · intro hReturns
    by_contra hLast
    rw [not_or, not_not] at hLast
    obtain ⟨rfl, hLast⟩ := hLast
    have hServed := mib.agent_serves .v1
    exact (walk_diverges hServed hLast).not_returns (hReturns mib.agent hServed)
  · intro hEnds agent hServed
    exact walk_returns hServed hEnds

/-- A MIB with nothing but the description of the system. -/
def sysDescrMib : Mib where
  vars := [⟨[1, 3, 6, 1, 2, 1, 1, 1, 0], .octetStr, [65]⟩]
  sorted := List.pairwise_singleton _ _
  present := by decide

/-- The walk of the system group over version 1 does not end. -/
theorem mpSnmpSubtreeQuery_v1_endless :
    sysDescrMib.ServedBy sysDescrMib.agent .v1 ∧
    sysDescrMib.below [1, 3, 6, 1, 2, 1, 1] = sysDescrMib.vars ∧
    ∀ result, ¬Returns
      (walkPass NetSnmp.reference sysDescrMib.agent .v1 [1, 3, 6, 1, 2, 1, 1])
      (Walk.start [1, 3, 6, 1, 2, 1, 1]) result := by
  refine ⟨sysDescrMib.agent_serves .v1, by decide, ?_⟩
  intro result
  apply Diverges.not_returns
  apply walk_diverges (sysDescrMib.agent_serves .v1)
  rintro ⟨v, hMem, -, hOutside⟩
  cases List.mem_singleton.mp hMem
  exact hOutside (by decide)

end MonitoringPlug.Snmp
