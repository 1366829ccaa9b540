import MonitoringPlug.Redis.Check
import MonitoringPlug.Redis.Info
import MonitoringPlug.Snmp.Ups

/-! `check_redis_slave`: the role, the link to the master and the delay are taken from the
reply to `INFO`. -/
namespace MonitoringPlug.Redis

open CText
open MonitoringPlug.Args MonitoringPlug.Common MonitoringPlug.Perfdata
open MonitoringPlug.Snmp (toInt)

def roleKey : List Char := "role:".toList
def linkStatusKey : List Char := "master_link_status:".toList
def lastIoKey : List Char := "master_last_io_seconds_ago:".toList
def linkDownKey : List Char := "master_link_down_since_seconds:".toList
def slaveRole : List Char := "slave".toList
def upStatus : List Char := "up".toList

structure SlaveInfo where
  role : Option (List Char)
  linkStatus : Option (List Char)
  delay : Int

def SlaveInfo.start : SlaveInfo := { role := none, linkStatus := none, delay := -1 }

def slaveLine (s : SlaveInfo) (line : List Char) : Option SlaveInfo :=
  match behind roleKey line with
  | some role => some { s with role := some role }
  | none =>
      match behind linkStatusKey line with
      | some linkStatus => some { s with linkStatus := some linkStatus }
      | none =>
          match behind lastIoKey line with
          | some delay => some { s with delay := toInt (strtol 10 delay) }
          | none =>
              match behind linkDownKey line with
              | some delay => some { s with delay := toInt (strtol 10 delay) }
              | none => some s

def lateText (delay : Int) : List Char :=
  "Redis Slave is ".toList ++ formatLong delay ++ "s behind.".toList

/-- The `switch` on the status of the delay. -/
def delayExit (delay : Int) (status : Status) (perfdata : Option (List Char)) : Exit :=
  match status with
  | .ok => ⟨.ok, "Redis Slave".toList, perfdata⟩
  | .warning => ⟨.warning, lateText delay, perfdata⟩
  | .critical => ⟨.critical, lateText delay, perfdata⟩
  | _ => ⟨.critical, "You should never reach this point.".toList, perfdata⟩

/-- `main` behind the report of the delay. NULL is compared where the role or the link was
not told. -/
def compareSlave (s : SlaveInfo) (delay : Reported) : Option Exit := do
  let role ← s.role
  if role ≠ slaveRole then
    some ⟨.critical, "Redis is not a Slave (but ".toList ++ role ++ [')'], delay.perfdata⟩
  else
    let linkStatus ← s.linkStatus
    if linkStatus ≠ upStatus then
      some ⟨.critical, "Redis master link is ".toList ++ linkStatus, delay.perfdata⟩
    else some (delayExit s.delay (getStatus s.delay delay.threshold) delay.perfdata)

def slaveExit (s : SlaveInfo) (timeThresholds : Option Thresholds) (showPerfdata : Bool) :
    Option Exit := do
  let delay ← mpPerfdataInt2 "delay".toList s.delay ['s'] timeThresholds true 0 false 0
    showPerfdata none
  compareSlave s delay

def checkRedisSlave (server : Server) (timeThresholds : Option Thresholds) (showPerfdata : Bool) :
    Except (Option Exit) Exit := do
  let reply ← readInfo server
  let s ← (readLines slaveLine SlaveInfo.start reply.str).elim (.error none) .ok
  (slaveExit s timeThresholds showPerfdata).elim (.error none) .ok

/-- The delay in a line, from either of the two keys. -/
def delayOf (line : List Char) : Option Int :=
  (behind lastIoKey line <|> behind linkDownKey line).map fun delay => toInt (strtol 10 delay)

def lastDelay (lines : List (List Char)) : Int := ((lines.filterMap delayOf).getLast?).getD (-1)

def slaveInfo (lines : List (List Char)) : SlaveInfo where
  role := lastField roleKey lines
  linkStatus := lastField linkStatusKey lines
  delay := lastDelay lines

section Lines

variable {line value : List Char} {lines : List (List Char)}

theorem lastDelay_told {delay : Int} (h : delayOf line = some delay) :
    lastDelay (lines ++ [line]) = delay := by
  simp [lastDelay, h]

theorem lastDelay_other (h : delayOf line = none) :
    lastDelay (lines ++ [line]) = lastDelay lines := by
  simp [lastDelay, h]

/-- One line more: the last one counts for every field. -/
theorem slaveLine_slaveInfo (lines : List (List Char)) (line : List Char) :
    slaveLine (slaveInfo lines) line = some (slaveInfo (lines ++ [line])) := by
  rw [slaveLine]
  cases hRole : behind roleKey line with
  | some role =>
      have hLink := behind_other linkStatusKey hRole (by decide) (by decide)
      have hLastIo := behind_other lastIoKey hRole (by decide) (by decide)
      have hLinkDown := behind_other linkDownKey hRole (by decide) (by decide)
      have hDelay : delayOf line = none := by simp [delayOf, hLastIo, hLinkDown]
      simp [slaveInfo, lastField_told hRole, lastField_other hLink, lastDelay_other hDelay]
  | none =>
      cases hLink : behind linkStatusKey line with
      | some linkStatus =>
          have hLastIo := behind_other lastIoKey hLink (by decide) (by decide)
          have hLinkDown := behind_other linkDownKey hLink (by decide) (by decide)
          have hDelay : delayOf line = none := by simp [delayOf, hLastIo, hLinkDown]
          simp [slaveInfo, lastField_other hRole, lastField_told hLink, lastDelay_other hDelay]
      | none =>
          cases hLastIo : behind lastIoKey line with
          | some delay =>
              have hDelay : delayOf line = some (toInt (strtol 10 delay)) := by
                simp [delayOf, hLastIo]
              simp [slaveInfo, lastField_other hRole, lastField_other hLink, lastDelay_told hDelay]
          | none =>
              cases hLinkDown : behind linkDownKey line with
              | some delay =>
                  have hDelay : delayOf line = some (toInt (strtol 10 delay)) := by
                    simp [delayOf, hLastIo, hLinkDown]
                  simp [slaveInfo, lastField_other hRole, lastField_other hLink,
                    lastDelay_told hDelay]
              | none =>
                  have hDelay : delayOf line = none := by simp [delayOf, hLastIo, hLinkDown]
                  simp [slaveInfo, lastField_other hRole, lastField_other hLink,
                    lastDelay_other hDelay]

theorem readLines_slaveLine (str : Option (List Char)) :
    readLines slaveLine SlaveInfo.start str = some (slaveInfo (str.elim [] (tokens crlf))) := by
  rw [readLines]
  generalize str.elim [] (tokens crlf) = lines
  induction lines using List.reverseRecOn with
  | nil => rfl
  | append_singleton lines line ih =>
      rw [List.foldlM_append, ih]
      simpa using slaveLine_slaveInfo lines line

theorem slaveInfo_infoText (h : ∀ line ∈ lines, ∀ c ∈ line, c ∉ crlf) :
    slaveInfo (tokens crlf (infoText lines)) = slaveInfo lines := by
  have hDelay : lastDelay (tokens crlf (infoText lines)) = lastDelay lines := by
    rw [lastDelay, filterMap_infoText rfl h, lastDelay]
  rw [slaveInfo, slaveInfo, hDelay, lastField_infoText (by decide) h,
    lastField_infoText (by decide) h]

end Lines

/-- A slave whose link to its master is up. -/
def Replicates (s : SlaveInfo) : Prop := s.role = some slaveRole ∧ s.linkStatus = some upStatus

section Exit

variable {s : SlaveInfo} {timeThresholds : Option Thresholds} {showPerfdata : Bool} {e : Exit}
  {delay : Reported}

theorem delayExit_status (n : Int) (value : ℚ) (thresholds : Option Thresholds)
    (perfdata : Option (List Char)) :
    (delayExit n (getStatus value thresholds) perfdata).status = getStatus value thresholds := by
  rcases getStatus_cases value thresholds with h | h | h <;> rw [h] <;> rfl

/-- What the comparisons come to. -/
theorem compareSlave_replicates (h : Replicates s) :
    compareSlave s delay =
      some (delayExit s.delay (getStatus s.delay delay.threshold) delay.perfdata) := by
  rw [compareSlave, h.1, h.2, Option.bind_eq_bind, Option.bind_some, if_neg (not_not.mpr rfl),
    Option.bind_some, if_neg (not_not.mpr rfl)]

theorem compareSlave_critical (h : ¬Replicates s) (hExit : compareSlave s delay = some e) :
    e.status = .critical := by
  rw [compareSlave] at hExit
  cases hRole : s.role with
  | none =>
      rw [hRole] at hExit
      cases hExit
  | some role =>
      rw [hRole, Option.bind_eq_bind, Option.bind_some] at hExit
      split at hExit
      · cases hExit
        rfl
      · rename_i hSlave
        cases hLink : s.linkStatus with
        | none =>
            rw [hLink] at hExit
            cases hExit
        | some linkStatus =>
            rw [hLink, Option.bind_some] at hExit
            split at hExit
            · cases hExit
              rfl
            · rename_i hUp
              exact absurd ⟨hRole.trans (congrArg some (not_not.mp hSlave)),
                hLink.trans (congrArg some (not_not.mp hUp))⟩ h

theorem compareSlave_none_iff :
    compareSlave s delay = none ↔
      s.role = none ∨ (s.role = some slaveRole ∧ s.linkStatus = none) := by
  rw [compareSlave]
  cases hRole : s.role with
  | none => exact iff_of_true rfl (.inl rfl)
  | some role =>
      rw [Option.bind_eq_bind, Option.bind_some]
      by_cases hSlave : role = slaveRole
      · rw [if_neg (not_not.mpr hSlave)]
        cases hLink : s.linkStatus with
        | none => exact iff_of_true rfl (.inr ⟨congrArg some hSlave, rfl⟩)
        | some linkStatus =>
            have hTold : ¬(some role = none ∨ (some role = some slaveRole ∧
                some linkStatus = none)) := by
              rintro (hNone | ⟨-, hNone⟩)
              · cases hNone
              · cases hNone
            rw [Option.bind_some]
            split
            · exact iff_of_false (Option.some_ne_none _) hTold
            · exact iff_of_false (Option.some_ne_none _) hTold
      · rw [if_pos hSlave]
        refine iff_of_false (Option.some_ne_none _) ?_
        rintro (hNone | ⟨hRole, -⟩)
        · cases hNone
        · exact hSlave (Option.some.inj hRole)

theorem compareSlave_status (h : compareSlave s delay = some e) :
    (e.status = .ok ↔ Replicates s ∧ getStatus s.delay delay.threshold = .ok) ∧
      (e.status = .warning ↔ Replicates s ∧ getStatus s.delay delay.threshold = .warning) := by
  by_cases hSlave : Replicates s
  · rw [compareSlave_replicates hSlave] at h
    cases h
    rw [delayExit_status]
    simp [hSlave]
  · rw [compareSlave_critical hSlave h]
    simp [hSlave]

end Exit

/-- For every text that the server answers to `INFO`: the last line of each key counts. There
is no exit where NULL is compared. The slave is fine exactly when it is one, its link is up and
the delay raises neither alert, with bounds in percent taken of zero, and with a warning when
that is the only alert. Where the text is made of lines these are lines of its own. -/
theorem checkRedisSlave_exit {server : Server} {reply : Reply} (hInfo : readInfo server = .ok reply)
    (timeThresholds : Option Thresholds) (showPerfdata : Bool) :
    let s := slaveInfo (reply.str.elim [] (tokens crlf))
    (checkRedisSlave server timeThresholds showPerfdata = .error none ↔
        s.role = none ∨ (s.role = some slaveRole ∧ s.linkStatus = none)) ∧
      (∀ e, checkRedisSlave server timeThresholds showPerfdata = .ok e →
        (e.status = .ok ↔ Replicates s ∧ ¬Raises 0 s.delay timeThresholds .critical ∧
          ¬Raises 0 s.delay timeThresholds .warning) ∧
        (e.status = .warning ↔ Replicates s ∧ ¬Raises 0 s.delay timeThresholds .critical ∧
          Raises 0 s.delay timeThresholds .warning)) ∧
      ∀ lines, reply.str = some (infoText lines) → (∀ line ∈ lines, ∀ c ∈ line, c ∉ crlf) →
        s = slaveInfo lines := by
  intro s
  obtain ⟨delay, hDelay, hResolved⟩ := mpPerfdataInt2_threshold "delay".toList ['s'] timeThresholds
    true false showPerfdata none s.delay 0 0
  have hExit : slaveExit s timeThresholds showPerfdata = compareSlave s delay := by
    rw [slaveExit, hDelay]
    rfl
  have hMain : checkRedisSlave server timeThresholds showPerfdata =
      (compareSlave s delay).elim (.error none) .ok := by
    rw [checkRedisSlave, hInfo, ← hExit]
    simp only [bind, Except.bind, readLines_slaveLine, Option.elim_some]
    rfl
  have hStatus : getStatus s.delay delay.threshold = _ := getStatus_eq s.delay delay.threshold
  rw [hMain]
  refine ⟨?_, ?_, ?_⟩
  · have hNone : compareSlave s delay = none ↔ _ := compareSlave_none_iff
    rw [← hNone]
    cases compareSlave s delay <;> simp
  · intro e hEnd
    have hSome : compareSlave s delay = some e := by
      cases hCompared : compareSlave s delay with
      | none => simp [hCompared] at hEnd
      | some other => simpa [hCompared] using hEnd
    obtain ⟨hOk, hWarning⟩ := compareSlave_status hSome
    have hRaises (slot : Slot) :
        Alerting s.delay delay.threshold slot = true ↔ Raises 0 s.delay timeThresholds slot := by
      rw [hResolved]
      exact alerting_resolved_zero s.delay timeThresholds slot
    rw [hOk, hWarning, hStatus, ← hRaises, ← hRaises]
    cases Alerting s.delay delay.threshold .critical <;>
      cases Alerting s.delay delay.threshold .warning <;> simp
  · intro lines hText hLines
    rw [show s = slaveInfo (reply.str.elim [] (tokens crlf)) from rfl, hText]
    exact slaveInfo_infoText hLines

def upLines : List (List Char) :=
  ["# Replication".toList, "role:slave".toList, "master_link_status:up".toList,
    "master_last_io_seconds_ago:3".toList]

def upServer : Server where
  err := none
  ping := some (.status "PONG".toList)
  info := some (.string (infoText upLines))
  config := none
  errstr := []

theorem checkRedisSlave_exit_up :
    checkRedisSlave upServer none true ≠ .error none ∧
      ∀ e, checkRedisSlave upServer none true = .ok e → e.status = .ok := by
  have hInfo : readInfo upServer = .ok (.string (infoText upLines)) := rfl
  obtain ⟨hFault, hStatus, hLines⟩ := checkRedisSlave_exit hInfo none true
  have hAll : (upLines.all fun line => line.all fun c => !crlf.contains c) = true := rfl
  have hClean : ∀ line ∈ upLines, ∀ c ∈ line, c ∉ crlf := by simpa using hAll
  have hUp := hLines upLines rfl hClean
  have hRole : (slaveInfo upLines).role = some slaveRole := rfl
  have hLink : (slaveInfo upLines).linkStatus = some upStatus := rfl
  rw [hUp] at hFault hStatus
  refine ⟨fun hNone => ?_, fun e hExit => ?_⟩
  · rw [hFault, hRole, hLink] at hNone
    simp at hNone
  · refine ((hStatus e hExit).1).mpr ⟨⟨hRole, hLink⟩, ?_, ?_⟩
    · rintro ⟨t, hMem, -⟩
      cases hMem
    · rintro ⟨t, hMem, -⟩
      cases hMem

end MonitoringPlug.Redis
