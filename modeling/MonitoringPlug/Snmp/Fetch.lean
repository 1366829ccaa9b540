import MonitoringPlug.Snmp.Query

/-! The second implementation of the query, `mp_snmp_values_fetch1`, and how far it
agrees with `mp_snmp_query` on whatever an agent answers. -/
namespace MonitoringPlug.Snmp

open CLoop

/-- One pass of the loop of `mp_snmp_values_fetch1`. -/
def fetchPass (net : NetSnmp) (agent : Agent) (s : Sending) : Pass Sending Sent :=
  let requests := s.pdu :: s.requests
  match agent requests with
  | (_, none) => .leave { status := .error, response := none, requests := requests }
  | (rc, some response) =>
      if rc = .success ∧ response.errindex = 0 then
        .leave { status := rc, response := some response, requests := requests }
      else
        match net.fixPdu response .get with
        | none => .leave { status := rc, response := none, requests := requests }
        | some request =>
            if rc = .success then .again { pdu := request, requests := requests }
            else .leave { status := rc, response := none, requests := requests }

/-- One variable of the response: the first command with its OID takes the value,
unless it is one of the types that stand for a missing value. -/
def fetchVar (net : NetSnmp) (cmds : List QueryCmd) (mem : Targets) (var : Variable) :
    Option Targets :=
  match cmds.find? fun c => net.oidCompare var.name c.oid = 0 with
  | none => some mem
  | some c =>
      if var.type ≠ .noSuchObject ∧ var.type ≠ .noSuchInstance ∧ var.type ≠ .endOfMibView then
        (copyValue var c.type c.targetLen (mem c.target)).map fun (_, target) =>
          Function.update mem c.target target
      else some mem

/-- Behind the loop: the return value and the targets. -/
def processValues (net : NetSnmp) (version : Version) (cmds : List QueryCmd) (mem : Targets)
    (sent : Sent) : Option (Stat × Targets) :=
  match sent.status, sent.response with
  | .success, some response =>
      if response.errstat = .noError then
        (response.vars.foldlM (fetchVar net cmds) mem).map fun mem => (.success, mem)
      else if version = .v1 ∧ response.errstat = .noSuchName then some (.success, mem)
      else some (.error, mem)
  | _, _ => some (.error, mem)

/-- `mp_snmp_query` returns, with success or without, and leaves the targets so. -/
def QueryLeaves (net : NetSnmp) (agent : Agent) (cmds : List QueryCmd) (mem : Targets)
    (success : Bool) (mem' : Targets) : Prop :=
  ∃ sent status, Returns (sendPass net agent) (Sending.start cmds) sent ∧
    processResponse net cmds mem sent = some (.returned status mem') ∧
    success = decide (status = .success)

/-- The same for `mp_snmp_values_fetch1`. -/
def FetchLeaves (net : NetSnmp) (version : Version) (agent : Agent) (cmds : List QueryCmd)
    (mem : Targets) (success : Bool) (mem' : Targets) : Prop :=
  ∃ sent status, Returns (fetchPass net agent) (Sending.start cmds) sent ∧
    processValues net version cmds mem sent = some (status, mem') ∧
    success = decide (status = .success)

/-- A loop sends these requests, newest first, and possibly more. -/
def Asks (body : Sending → Pass Sending Sent) (cmds : List QueryCmd) (requests : List Request) :
    Prop :=
  ∃ s, Reaches body (Sending.start cmds) s ∧ s.pdu :: s.requests = requests

/-- The two implementations cannot be told apart. -/
structure GetsAgree (net : NetSnmp) (version : Version) (agent : Agent) (cmds : List QueryCmd)
    (mem : Targets) : Prop where
  requests : ∀ requests, Asks (sendPass net agent) cmds requests ↔
    Asks (fetchPass net agent) cmds requests
  returns : ∀ success mem', QueryLeaves net agent cmds mem success mem' ↔
    FetchLeaves net version agent cmds mem success mem'

/-- The answers of an agent in the order they come. -/
abbrev Answers := Nat → Stat × Option Response

def Answers.agent (answers : Answers) : Agent := fun requests => answers (requests.length - 1)

/-- An answer to which the request is repeated without a variable. -/
def Repeated (net : NetSnmp) (answer : Stat × Option Response) : Prop :=
  ∃ response pdu, answer = (.success, some response) ∧ response.errindex ≠ 0 ∧
    net.fixPdu response .get = some pdu

/-- An answer that both implementations judge alike. A response with an error index
leaves something to ask for, and one without says that there was no error, or, in
version 1, that a name does not exist. -/
def JudgedAlike (net : NetSnmp) (version : Version) (answer : Stat × Option Response) : Prop :=
  ∀ response, answer = (.success, some response) →
    if response.errindex = 0 then
      response.errstat = .noError ∨ (version = .v1 ∧ response.errstat = .noSuchName)
    else net.fixPdu response .get ≠ none

section Loops

variable {net : NetSnmp} {agent : Agent} {cmds : List QueryCmd} {mem : Targets}

/-- The two loops are the same. -/
theorem fetchPass_eq (net : NetSnmp) (agent : Agent) :
    fetchPass net agent = sendPass net agent := by
  funext s
  simp only [fetchPass, sendPass]
  rcases agent (s.pdu :: s.requests) with ⟨rc, response⟩
  cases response with
  | none => rfl
  | some response =>
      cases hFix : net.fixPdu response .get with
      | none => cases rc <;> simp only [hFix]
      | some request => cases rc <;> simp [hFix]

/-- Looking at the type first or at the OID first comes to the same. -/
theorem fetchVar_eq (net : NetSnmp) (cmds : List QueryCmd) :
    fetchVar net cmds = copyVar net cmds := by
  funext mem var
  have hKinds : (var.type ≠ .noSuchObject ∧ var.type ≠ .noSuchInstance ∧
      var.type ≠ .endOfMibView) ↔ ¬(var.type = .noSuchObject ∨ var.type = .noSuchInstance ∨
      var.type = .endOfMibView) := by
    simp only [ne_eq, not_or]
  cases hFind : cmds.find? fun c => net.oidCompare var.name c.oid = 0 with
  | none => simp only [fetchVar, copyVar, hFind, ite_self]
  | some c => simp only [fetchVar, copyVar, hFind, hKinds, ite_not]

theorem sendPass_stop (net : NetSnmp) {s : Sending} {status : Stat}
    (h : agent (s.pdu :: s.requests) = (status, none)) :
    sendPass net agent s =
      .leave { status := .error, response := none, requests := s.pdu :: s.requests } := by
  simp [sendPass, h]

theorem sendPass_failed (net : NetSnmp) {s : Sending} {status : Stat} {response : Response}
    (h : agent (s.pdu :: s.requests) = (status, some response)) (hStatus : status ≠ .success) :
    sendPass net agent s =
      .leave { status := status, response := none, requests := s.pdu :: s.requests } := by
  cases status with
  | success => exact absurd rfl hStatus
  | error => simp [sendPass, h]
  | timeout => simp [sendPass, h]

theorem sendPass_final (net : NetSnmp) {s : Sending} {response : Response}
    (h : agent (s.pdu :: s.requests) = (.success, some response)) (hIndex : response.errindex = 0) :
    sendPass net agent s =
      .leave
        { status := .success, response := some response, requests := s.pdu :: s.requests } := by
  simp [sendPass, h, hIndex]

theorem sendPass_rejected {s : Sending} {response : Response}
    (h : agent (s.pdu :: s.requests) = (.success, some response)) (hIndex : response.errindex ≠ 0)
    (hFix : net.fixPdu response .get = none) :
    sendPass net agent s =
      .leave { status := .success, response := none, requests := s.pdu :: s.requests } := by
  simp [sendPass, h, hIndex, hFix]

theorem sendPass_repeated {s : Sending} (h : Repeated net (agent (s.pdu :: s.requests))) :
    ∃ pdu, sendPass net agent s = .again { pdu := pdu, requests := s.pdu :: s.requests } := by
  obtain ⟨response, pdu, hAnswer, hIndex, hFix⟩ := h
  exact ⟨pdu, by simp [sendPass, hAnswer, hIndex, hFix]⟩

/-- Going on means that the answer was one to repeat the request after. -/
theorem repeated_of_again {s next : Sending} (h : sendPass net agent s = .again next) :
    Repeated net (agent (s.pdu :: s.requests)) ∧ next.requests = s.pdu :: s.requests := by
  rcases hAnswer : agent (s.pdu :: s.requests) with ⟨status, response⟩
  cases response with
  | none =>
      rw [sendPass_stop net hAnswer] at h
      cases h
  | some response =>
      by_cases hStatus : status = .success
      · subst hStatus
        by_cases hIndex : response.errindex = 0
        · rw [sendPass_final net hAnswer hIndex] at h
          cases h
        · cases hFix : net.fixPdu response .get with
          | none =>
              rw [sendPass_rejected hAnswer hIndex hFix] at h
              cases h
          | some pdu =>
              refine ⟨⟨response, pdu, rfl, hIndex, hFix⟩, ?_⟩
              simp only [sendPass, hAnswer, hIndex, and_false, if_false, hFix] at h
              cases h
              rfl
      · rw [sendPass_failed net hAnswer hStatus] at h
        cases h

variable {answers : Answers} {version : Version}

/-- While the answers make the loop go on, it gets to each of them. -/
theorem reaches_answer (net : NetSnmp) (cmds : List QueryCmd) {count : Nat}
    (h : ∀ k < count, Repeated net (answers k)) :
    ∃ s, Reaches (sendPass net answers.agent) (Sending.start cmds) s ∧
      s.requests.length = count := by
  induction count with
  | zero => exact ⟨Sending.start cmds, Reaches.start, rfl⟩
  | succ count ih =>
      obtain ⟨s, hReaches, hLength⟩ := ih fun k hk => h k (Nat.lt_succ_of_lt hk)
      have hAnswer : answers.agent (s.pdu :: s.requests) = answers count := by
        simp [Answers.agent, hLength]
      obtain ⟨pdu, hPass⟩ := sendPass_repeated (hAnswer ▸ h count (Nat.lt_succ_self count))
      exact ⟨_, hReaches.pass hPass, by rw [List.length_cons, hLength]⟩

/-- What the loop went through were answers to go on after. -/
theorem repeated_of_reaches {s : Sending}
    (h : Reaches (sendPass net answers.agent) (Sending.start cmds) s) :
    ∀ k < s.requests.length, Repeated net (answers k) := by
  induction h with
  | start => exact fun k hk => absurd hk (Nat.not_lt_zero k)
  | @pass middle next prior last ih =>
      obtain ⟨hRepeated, hRequests⟩ := repeated_of_again last
      intro k hk
      rw [hRequests, List.length_cons] at hk
      rcases Nat.lt_succ_iff_lt_or_eq.mp hk with hBefore | rfl
      · exact ih k hBefore
      · simpa [Answers.agent] using hRepeated

/-- One result of the loop, judged by both. -/
theorem leaves_iff (mem : Targets) (version : Version) {sent : Sent}
    (h : Returns (sendPass net answers.agent) (Sending.start cmds) sent) (success : Bool)
    (mem' : Targets) :
    (QueryLeaves net answers.agent cmds mem success mem' ↔
      ∃ status, processResponse net cmds mem sent = some (.returned status mem') ∧
        success = decide (status = .success)) ∧
    (FetchLeaves net version answers.agent cmds mem success mem' ↔
      ∃ status, processValues net version cmds mem sent = some (status, mem') ∧
        success = decide (status = .success)) := by
  constructor
  · constructor
    · rintro ⟨sent', status, hReturns, hResult⟩
      exact ⟨status, hReturns.unique h ▸ hResult⟩
    · rintro ⟨status, hResult⟩
      exact ⟨sent, status, h, hResult⟩
  · rw [FetchLeaves, fetchPass_eq]
    constructor
    · rintro ⟨sent', status, hReturns, hResult⟩
      exact ⟨status, hReturns.unique h ▸ hResult⟩
    · rintro ⟨status, hResult⟩
      exact ⟨sent, status, h, hResult⟩

/-- On an answer that is judged alike the results are alike. -/
theorem process_alike {s : Sending} {sent : Sent}
    (h : sendPass net agent s = .leave sent)
    (hAlike : JudgedAlike net version (agent (s.pdu :: s.requests))) (success : Bool)
    (mem' : Targets) :
    (∃ status, processResponse net cmds mem sent = some (.returned status mem') ∧
        success = decide (status = .success)) ↔
      ∃ status, processValues net version cmds mem sent = some (status, mem') ∧
        success = decide (status = .success) := by
  rcases hAnswer : agent (s.pdu :: s.requests) with ⟨status, response⟩
  cases response with
  | none =>
      rw [sendPass_stop net hAnswer] at h
      cases h
      simp [processResponse, processValues]
  | some response =>
      by_cases hStatus : status = .success
      · subst hStatus
        have hJudged := hAlike response hAnswer
        by_cases hIndex : response.errindex = 0
        · rw [sendPass_final net hAnswer hIndex] at h
          cases h
          rw [if_pos hIndex] at hJudged
          by_cases hOk : response.errstat = .noError
          · simp [processResponse, processValues, hOk, fetchVar_eq]
          · obtain ⟨hVersion, hName⟩ := hJudged.resolve_left hOk
            simp [processResponse, processValues, hVersion, hName]
        · rw [if_neg hIndex] at hJudged
          obtain ⟨pdu, hFix⟩ := Option.ne_none_iff_exists'.mp hJudged
          have hRepeated : Repeated net (agent (s.pdu :: s.requests)) :=
            ⟨response, pdu, hAnswer, hIndex, hFix⟩
          obtain ⟨next, hAgain⟩ := sendPass_repeated hRepeated
          rw [hAgain] at h
          cases h
      · rw [sendPass_failed net hAnswer hStatus] at h
        cases h
        cases status with
        | success => exact absurd rfl hStatus
        | error => simp [processResponse, processValues]
        | timeout => simp [processResponse, processValues]

/-- On one that is not, `mp_snmp_query` returns success and the other does not. -/
theorem process_apart (cmds : List QueryCmd) (mem : Targets) {s : Sending}
    (h : ¬JudgedAlike net version (agent (s.pdu :: s.requests))) :
    ∃ sent, sendPass net agent s = .leave sent ∧
      processResponse net cmds mem sent = some (.returned .success mem) ∧
      processValues net version cmds mem sent = some (.error, mem) := by
  simp only [JudgedAlike, not_forall] at h
  obtain ⟨response, hAnswer, hJudged⟩ := h
  by_cases hIndex : response.errindex = 0
  · rw [if_pos hIndex, not_or] at hJudged
    refine ⟨_, sendPass_final net hAnswer hIndex, ?_, ?_⟩
    · simp [processResponse, hJudged.1]
    · simp only [processValues, hJudged.1, hJudged.2, if_false]
  · rw [if_neg hIndex, ne_eq, not_not] at hJudged
    exact ⟨_, sendPass_rejected hAnswer hIndex hJudged, rfl, rfl⟩

/-- An answer the loop gets to and that is not judged alike tells the two apart. -/
theorem not_agree_of_apart {count : Nat} (hBefore : ∀ k < count, Repeated net (answers k))
    (hApart : ¬JudgedAlike net version (answers count)) :
    ¬GetsAgree net version answers.agent cmds mem := by
  intro hAgree
  obtain ⟨s, hReaches, hLength⟩ := reaches_answer net cmds hBefore
  have hAnswer : answers.agent (s.pdu :: s.requests) = answers count := by
    simp [Answers.agent, hLength]
  obtain ⟨sent, hLeave, hQuery, hFetch⟩ :=
    process_apart cmds mem (hAnswer ▸ hApart)
  have hReturns : Returns (sendPass net answers.agent) (Sending.start cmds) sent :=
    hReaches.returns_from (Returns.leave hLeave)
  obtain ⟨hQueryIff, hFetchIff⟩ := leaves_iff mem version hReturns true mem
  obtain ⟨status, hValues, hSuccess⟩ :=
    hFetchIff.mp ((hAgree.returns true mem).mp (hQueryIff.mpr ⟨.success, hQuery, rfl⟩))
  rw [hFetch] at hValues
  cases hValues
  cases hSuccess

end Loops

/-- The implementations agree exactly when the first answer after which the request is
not repeated is judged alike by both. -/
theorem mpSnmpValuesFetch1_agrees_iff (net : NetSnmp) (version : Version) (answers : Answers)
    (cmds : List QueryCmd) (mem : Targets) :
    GetsAgree net version answers.agent cmds mem ↔
      ∀ count, (∀ k < count, Repeated net (answers k)) →
        JudgedAlike net version (answers count) := by
  constructor
  · intro hAgree count hBefore
    by_contra hApart
    exact not_agree_of_apart hBefore hApart hAgree
  · intro hAlike
    refine ⟨fun requests => by rw [fetchPass_eq], fun success mem' => ?_⟩
    have hSent : ∀ sent, Returns (sendPass net answers.agent) (Sending.start cmds) sent →
        (QueryLeaves net answers.agent cmds mem success mem' ↔
          FetchLeaves net version answers.agent cmds mem success mem') := by
      intro sent hReturns
      obtain ⟨hQueryIff, hFetchIff⟩ := leaves_iff mem version hReturns success mem'
      obtain ⟨s, hReaches, hLeave⟩ := hReturns.exists_leave
      rw [hQueryIff, hFetchIff]
      apply process_alike hLeave
      have hJudged := hAlike s.requests.length (repeated_of_reaches hReaches)
      simpa [Answers.agent] using hJudged
    constructor
    · intro hQuery
      obtain ⟨sent, _, hReturns, _⟩ := id hQuery
      exact (hSent sent hReturns).mp hQuery
    · intro hFetch
      obtain ⟨sent, _, hReturns, _⟩ := id hFetch
      rw [fetchPass_eq] at hReturns
      exact (hSent sent hReturns).mpr hFetch

/-- An agent that rejects the only name it is asked for. -/
def rejectingAnswers (oid : Oid) : Answers := fun _ =>
  (.success, some { errstat := .noSuchName, errindex := 1, vars := [⟨oid, .other 5, []⟩] })

theorem mpSnmpValuesFetch1_rejected :
    ¬GetsAgree NetSnmp.reference .v1 (rejectingAnswers [1, 3]).agent [⟨[1, 3], .integer, 0, 8⟩]
      fun _ => .string none := by
  have hBefore : ∀ k < 0, Repeated NetSnmp.reference (rejectingAnswers [1, 3] k) :=
    fun k hk => absurd hk (Nat.not_lt_zero k)
  refine not_agree_of_apart hBefore ?_
  intro hAlike
  exact hAlike _ rfl rfl

end MonitoringPlug.Snmp
