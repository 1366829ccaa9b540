import Mathlib.Algebra.Order.BigOperators.Group.List
import Mathlib.Data.NNRat.Defs
import Mathlib.Tactic.Linarith
import MonitoringPlug.Common.Severity
import MonitoringPlug.Lib.Rounds
import MonitoringPlug.Perfdata.Report

/-! `check_oping`: the latencies and the losses of the packets, over rounds that may end
early, and the exit for them. -/
namespace MonitoringPlug.Oping

open CLoop MonitoringPlug.Common MonitoringPlug.Args MonitoringPlug.Perfdata

/-- What liboping tells of a host. The counters are of type `uint32_t`. -/
structure PingInfo where
  dropped : Nat
  latency : ℚ
  sequence : Nat

/-- A packet: whether it can be sent, and the hosts of the iterator behind it. It is
`none` where liboping does not tell. -/
inductive PingRound where
  | sendFailed
  | sent (hosts : List (Option PingInfo))

/-- How the program ends: with the loss and the round-trip time it prints, or in front of
them. -/
inductive PingEnd where
  | exit (status : Status) (loss : Nat) (rta : ℚ)
  | failed (status : Status)
  | undefined
deriving DecidableEq

/-- The variables of `main`. -/
structure PingState where
  dropped : Nat
  num : Nat
  rta : ℚ

/-- `rta/num`. -/
def PingState.average (s : PingState) : ℚ := s.rta / s.num

/-- `(dropped*100)/num`. -/
def PingState.loss (s : PingState) : Nat := s.dropped * 100 % 2 ^ 32 / s.num

def readInfo (s : PingState) : Option PingInfo → Except PingEnd PingState
  | none => .error (.failed .unknown)
  | some info =>
      .ok { dropped := info.dropped, rta := s.rta + info.latency, num := info.sequence }

section Main

variable (quick showPerfdata : Bool) (rtaThresholds lostThresholds : Option Thresholds)

/-- The test behind each packet. -/
def isQuick (s : PingState) : Bool :=
  quick && s.num > 0 && getStatus s.average rtaThresholds = .ok &&
    getStatus s.loss lostThresholds = .ok

/-- The loop over the packets that are left. -/
def pingLoop : List PingRound → PingState → Except PingEnd PingState
  | [], s => .ok s
  | .sendFailed :: _, _ => .error (.failed .critical)
  | .sent hosts :: rounds, s => do
      let s ← hosts.foldlM readInfo s
      if isQuick quick rtaThresholds lostThresholds s then .ok s else pingLoop rounds s

/-- `main` behind the loop. -/
def finishPing (s : PingState) : PingEnd :=
  if s.num = 0 then .failed .critical
  else
    match mpPerfdataFloat "rta".toList s.average ['s'] rtaThresholds showPerfdata none with
    | none => .undefined
    | some rta =>
        match mpPerfdataInt "pl".toList s.loss ['%'] lostThresholds showPerfdata rta.perfdata with
        | none => .undefined
        | some lost =>
            let result1 := getStatus s.average rta.threshold
            let result2 := getStatus s.loss lost.threshold
            let result1 := if result1.code > result2.code then result1 else result2
            match result1 with
            | .ok => .exit .ok s.loss s.average
            | .warning => .exit .warning s.loss s.average
            | .critical => .exit .critical s.loss s.average
            | _ => .failed .critical

def checkOping (packets : List PingRound) : PingEnd :=
  let start := { dropped := 0, num := 0, rta := 0 }
  match pingLoop quick rtaThresholds lostThresholds packets start with
  | .error result => result
  | .ok s => finishPing showPerfdata rtaThresholds lostThresholds s

end Main

/-- What comes of a packet. -/
inductive Ping where
  | reply (latency : ℚ≥0)
  | lost
deriving DecidableEq

/-- liboping has -1 for a lost packet. -/
def Ping.latency : Ping → ℚ
  | .reply latency => latency
  | .lost => -1

def replies (pings : List Ping) : List ℚ :=
  pings.filterMap fun
    | .reply latency => some (latency : ℚ)
    | .lost => none

def lostCount (pings : List Ping) : Nat := pings.count .lost

/-- The mean of the latencies, over the replies. -/
def meanLatency (pings : List Ping) : ℚ := (replies pings).sum / (replies pings).length

/-- The loss in percent, rounded down. -/
def lossOf (pings : List Ping) : Nat := 100 * lostCount pings / pings.length

/-- liboping behind the last of these packets: it numbers the packets and counts the
lost ones. -/
def infoBehind (sent : List Ping) (ping : Ping) : PingInfo :=
  { dropped := lostCount (sent ++ [ping]), latency := ping.latency, sequence := sent.length + 1 }

/-- The rounds for one host, behind the packets that were sent before. -/
def rounds (sent : List Ping) : List Ping → List PingRound
  | [] => []
  | ping :: pings => .sent [some (infoBehind sent ping)] :: rounds (sent ++ [ping]) pings

/-- The variables behind these packets. -/
def stateBehind (sent : List Ping) : PingState :=
  { dropped := lostCount sent, num := sent.length, rta := (sent.map Ping.latency).sum }

theorem sum_latency (pings : List Ping) :
    (pings.map Ping.latency).sum = (replies pings).sum - lostCount pings := by
  induction pings with
  | nil => simp [replies, lostCount]
  | cons ping pings ih =>
      cases ping with
      | reply latency =>
          have hReplies : replies (.reply latency :: pings) = (latency : ℚ) :: replies pings := rfl
          have hLost : lostCount (.reply latency :: pings) = lostCount pings :=
            List.count_cons_of_ne Ping.noConfusion
          rw [List.map_cons, List.sum_cons, ih, hReplies, hLost, List.sum_cons, Ping.latency]
          ring
      | lost =>
          have hReplies : replies (.lost :: pings) = replies pings := rfl
          have hLost : lostCount (.lost :: pings) = lostCount pings + 1 := List.count_cons_self
          rw [List.map_cons, List.sum_cons, ih, hReplies, hLost, Ping.latency]
          push_cast
          ring

theorem length_pings (pings : List Ping) :
    pings.length = (replies pings).length + lostCount pings := by
  induction pings with
  | nil => rfl
  | cons ping pings ih =>
      cases ping with
      | reply latency =>
          have hLost : lostCount (.reply latency :: pings) = lostCount pings :=
            List.count_cons_of_ne Ping.noConfusion
          rw [List.length_cons, ih, hLost]
          exact Nat.add_right_comm _ _ 1
      | lost =>
          have hLost : lostCount (.lost :: pings) = lostCount pings + 1 := List.count_cons_self
          rw [List.length_cons, ih, hLost]
          rfl

theorem replies_sum_nonneg (pings : List Ping) : 0 ≤ (replies pings).sum := by
  apply List.sum_nonneg
  intro latency hMem
  obtain ⟨ping, -, hPing⟩ := List.mem_filterMap.mp hMem
  cases ping with
  | reply r =>
      obtain rfl := Option.some.inj hPing
      exact r.coe_nonneg
  | lost => cases hPing

/-- The -1 of a lost packet and its place among those that are divided by make the
average smaller than the mean of the replies. -/
theorem average_lt {sum replied lost : ℚ} (hSum : 0 ≤ sum) (hReplied : 0 < replied)
    (hLost : 0 < lost) : (sum - lost) / (replied + lost) < sum / replied := by
  have hLess : (sum - lost) / (replied + lost) < sum / (replied + lost) := by
    apply div_lt_div_of_pos_right
    · linarith
    · linarith
  have hMore : sum / (replied + lost) ≤ sum / replied := by
    apply div_le_div_of_nonneg_left hSum hReplied
    linarith
  exact hLess.trans_le hMore

theorem average_eq_iff {sent : List Ping} (hSent : sent ≠ []) :
    (stateBehind sent).average = meanLatency sent ↔ lostCount sent = 0 := by
  have hLength := length_pings sent
  have hPos : 0 < sent.length := List.length_pos_iff.mpr hSent
  have hAverage : (stateBehind sent).average = ((replies sent).sum - lostCount sent) /
      ((replies sent).length + lostCount sent) := by
    show (sent.map Ping.latency).sum / (sent.length : ℚ) = _
    rw [sum_latency, hLength, Nat.cast_add]
  rw [hAverage, meanLatency]
  constructor
  · intro hSame
    by_contra hLost
    have hLostPos : (0 : ℚ) < lostCount sent := Nat.cast_pos.mpr (Nat.pos_of_ne_zero hLost)
    cases hReplies : replies sent with
    | nil =>
        rw [hReplies] at hSame
        simp only [List.sum_nil, List.length_nil, Nat.cast_zero, zero_sub, zero_add,
          div_zero] at hSame
        rw [neg_div, div_self hLostPos.ne'] at hSame
        norm_num at hSame
    | cons latency more =>
        have hReplied : (0 : ℚ) < (replies sent).length := by
          rw [hReplies]
          exact Nat.cast_pos.mpr (Nat.succ_pos _)
        exact (average_lt (replies_sum_nonneg sent) hReplied hLostPos).ne hSame
  · intro hLost
    rw [hLost, Nat.cast_zero, sub_zero, add_zero]

theorem lostCount_eq_zero_iff {sent : List Ping} :
    lostCount sent = 0 ↔ ∀ ping ∈ sent, ping ≠ .lost := by
  rw [lostCount, List.count_eq_zero]
  constructor
  · intro hNot ping hMem hLost
    exact hNot (hLost ▸ hMem)
  · intro hAll hMem
    exact hAll _ hMem rfl

theorem loss_of_replies {sent : List Ping} (h : lostCount sent = 0) :
    (stateBehind sent).loss = 0 ∧ lossOf sent = 0 := by
  rw [PingState.loss, lossOf, h]
  constructor
  · show lostCount sent * 100 % 2 ^ 32 / sent.length = 0
    rw [h]
    exact Nat.zero_div _
  · exact Nat.zero_div _

section Run

variable (quick showPerfdata : Bool) (rtaThresholds lostThresholds : Option Thresholds)

/-- What the loop should end at: both statuses are OK for the packets that were sent. -/
def okSoFar (sent : List Ping) : Bool :=
  quick && sent.length > 0 && getStatus (meanLatency sent) rtaThresholds = .ok &&
    getStatus (lossOf sent) lostThresholds = .ok

theorem isQuick_replies {sent : List Ping} (h : ∀ ping ∈ sent, ping ≠ .lost) :
    isQuick quick rtaThresholds lostThresholds (stateBehind sent) =
      okSoFar quick rtaThresholds lostThresholds sent := by
  rw [isQuick, okSoFar]
  cases sent with
  | nil => simp [stateBehind]
  | cons ping pings =>
      have hNone := lostCount_eq_zero_iff.mpr h
      obtain ⟨hLoss, hLossOf⟩ := loss_of_replies hNone
      rw [(average_eq_iff (List.cons_ne_nil ping pings)).mpr hNone, hLoss, hLossOf]
      rfl

theorem readInfo_infoBehind (sent : List Ping) (ping : Ping) :
    [some (infoBehind sent ping)].foldlM readInfo (stateBehind sent) =
      .ok (stateBehind (sent ++ [ping])) := by
  have hSum : ((sent ++ [ping]).map Ping.latency).sum =
      (sent.map Ping.latency).sum + ping.latency := by
    rw [List.map_append, List.sum_append, List.map_singleton, List.sum_singleton]
  rw [stateBehind, stateBehind, List.length_append, hSum]
  rfl

/-- The loop ends behind the first packets for which its test holds. -/
theorem pingLoop_rounds (sent pings : List Ping) :
    pingLoop quick rtaThresholds lostThresholds (rounds sent pings) (stateBehind sent) =
      .ok (stateBehind (takeUntil
        (fun sent => isQuick quick rtaThresholds lostThresholds (stateBehind sent)) sent
        pings)) := by
  induction pings generalizing sent with
  | nil => rfl
  | cons ping pings ih =>
      rw [rounds, pingLoop, readInfo_infoBehind, takeUntil]
      show (if isQuick quick rtaThresholds lostThresholds (stateBehind (sent ++ [ping])) = true
        then _ else _) = _
      split
      · rfl
      · exact ih (sent ++ [ping])

theorem finishPing_exits {s : PingState} (h : s.num ≠ 0) :
    finishPing showPerfdata rtaThresholds lostThresholds s =
      .exit (max (getStatus s.average (mpPerfdataPercentResolv rtaThresholds 0))
        (getStatus s.loss (mpPerfdataPercentResolv lostThresholds 0))) s.loss s.average := by
  obtain ⟨rta, hRta, hRtaThreshold⟩ := mpPerfdataFloat2_threshold "rta".toList ['s'] rtaThresholds
    false false showPerfdata none s.average 0 0
  obtain ⟨lost, hLost, hLostThreshold⟩ := mpPerfdataInt2_threshold "pl".toList ['%']
    lostThresholds false false showPerfdata rta.perfdata s.loss 0 0
  simp only [Bool.false_eq_true, if_false, Int.cast_zero] at hRtaThreshold hLostThreshold
  have hResult1 : Graded (getStatus s.average (mpPerfdataPercentResolv rtaThresholds 0)) :=
    getStatus_cases _ _
  have hResult2 : Graded (getStatus s.loss (mpPerfdataPercentResolv lostThresholds 0)) :=
    getStatus_cases _ _
  rw [finishPing, if_neg h]
  simp only [mpPerfdataFloat, mpPerfdataInt, hRta, hLost, hRtaThreshold, hLostThreshold]
  have hWorse := hResult1.max hResult2
  have hSwap : (if (getStatus s.average (mpPerfdataPercentResolv rtaThresholds 0)).code >
      (getStatus s.loss (mpPerfdataPercentResolv lostThresholds 0)).code then
        getStatus s.average (mpPerfdataPercentResolv rtaThresholds 0)
      else getStatus s.loss (mpPerfdataPercentResolv lostThresholds 0)) = _ :=
    (hResult2.raise hResult1).trans (max_comm _ _)
  rw [hSwap]
  rcases hWorse with hState | hState | hState <;> rw [hState]

/-- The packets that are sent, where both statuses are taken from the replies. -/
def sentByReplies : List Ping → List Ping :=
  takeUntil (okSoFar quick rtaThresholds lostThresholds) []

/-- The values and the exit are made of the packets that were sent, the round-trip time
of their replies, and only two good statuses end the loop early. -/
structure CountsReplies (pings sent : List Ping) : Prop where
  sends : ∃ s, pingLoop quick rtaThresholds lostThresholds (rounds [] pings)
    { dropped := 0, num := 0, rta := 0 } = .ok s ∧ sent = pings.take s.num
  exits : checkOping quick showPerfdata rtaThresholds lostThresholds (rounds [] pings) =
    .exit (max (getStatus (meanLatency sent) rtaThresholds)
      (getStatus (lossOf sent) lostThresholds)) (lossOf sent) (meanLatency sent)
  early : sent ≠ pings → quick = true ∧ getStatus (meanLatency sent) rtaThresholds = .ok ∧
    getStatus (lossOf sent) lostThresholds = .ok

/-- Every packet that is sent is answered, and percent bounds, which reporting takes as
zero, do not change the worse status. -/
structure AllAnswered (pings : List Ping) : Prop where
  answered : ∀ ping ∈ sentByReplies quick rtaThresholds lostThresholds pings, ping ≠ .lost
  percent :
    let mean := meanLatency (sentByReplies quick rtaThresholds lostThresholds pings)
    max (getStatus mean (mpPerfdataPercentResolv rtaThresholds 0))
        (getStatus 0 (mpPerfdataPercentResolv lostThresholds 0)) =
      max (getStatus mean rtaThresholds) (getStatus 0 lostThresholds)

/-- What the loop sends, and the exit behind it. -/
theorem checkOping_rounds {pings : List Ping} (hPings : pings ≠ []) :
    ∃ sent back, pings = sent ++ back ∧ sent ≠ [] ∧
      sent = takeUntil
        (fun sent => isQuick quick rtaThresholds lostThresholds (stateBehind sent)) [] pings ∧
      (back = [] ∨ isQuick quick rtaThresholds lostThresholds (stateBehind sent) = true) ∧
      pingLoop quick rtaThresholds lostThresholds (rounds [] pings)
        { dropped := 0, num := 0, rta := 0 } = .ok (stateBehind sent) ∧
      checkOping quick showPerfdata rtaThresholds lostThresholds (rounds [] pings) =
        .exit (max (getStatus (stateBehind sent).average (mpPerfdataPercentResolv rtaThresholds 0))
          (getStatus (stateBehind sent).loss (mpPerfdataPercentResolv lostThresholds 0)))
          (stateBehind sent).loss (stateBehind sent).average := by
  have hLoop := pingLoop_rounds quick rtaThresholds lostThresholds [] pings
  have hSent := takeUntil_ne_nil
    (fun sent => isQuick quick rtaThresholds lostThresholds (stateBehind sent)) [] hPings
  obtain ⟨sent, back, hSplit, hTaken, hStop⟩ := takeUntil_prefix
    (fun sent => isQuick quick rtaThresholds lostThresholds (stateBehind sent)) [] pings
  rw [List.nil_append] at hTaken hStop
  rw [hTaken] at hLoop hSent
  refine ⟨sent, back, hSplit, hSent, hTaken.symm, hStop, hLoop, ?_⟩
  have hNum : (stateBehind sent).num ≠ 0 := (List.length_pos_iff.mpr hSent).ne'
  rw [checkOping]
  show (match pingLoop _ _ _ _ (stateBehind []) with | .error result => _ | .ok s => _) = _
  rw [hLoop]
  exact finishPing_exits showPerfdata rtaThresholds lostThresholds hNum

/-- The plugin counts only replies exactly if it gets one for every packet it sends: the
first packet that is lost adds -1 to the latencies. -/
theorem checkOping_replies_iff {pings : List Ping} (hReply : ∃ latency, .reply latency ∈ pings) :
    (∃ sent, CountsReplies quick showPerfdata rtaThresholds lostThresholds pings sent) ↔
      AllAnswered quick rtaThresholds lostThresholds pings := by
  obtain ⟨latency, hMem⟩ := hReply
  obtain ⟨sent, back, hSplit, hSent, hTaken, hStop, hLoop, hExit⟩ := checkOping_rounds quick
    showPerfdata rtaThresholds lostThresholds (List.ne_nil_of_mem hMem)
  have hTake : pings.take (stateBehind sent).num = sent := by
    rw [hSplit]
    exact List.take_left
  have hAgree (l : List Ping) (hAll : ∀ ping ∈ l, ping ≠ .lost) :=
    isQuick_replies quick rtaThresholds lostThresholds hAll
  constructor
  · rintro ⟨sent', hSends, hExits, -⟩
    obtain ⟨s, hRun, rfl⟩ := hSends
    obtain rfl := Except.ok.inj (hLoop.symm.trans hRun)
    rw [hTake, hExit] at hExits
    obtain ⟨hStatus, -, hAverage⟩ := PingEnd.exit.inj hExits
    have hNone := (average_eq_iff hSent).mp hAverage
    have hAll := lostCount_eq_zero_iff.mp hNone
    obtain ⟨hLoss, hLossOf⟩ := loss_of_replies hNone
    have hSame : sentByReplies quick rtaThresholds lostThresholds pings = sent := by
      rw [sentByReplies, takeUntil_congr hAgree (hTaken ▸ hAll), ← hTaken]
    refine ⟨hSame ▸ hAll, ?_⟩
    rw [hAverage, hLoss, hLossOf, Nat.cast_zero] at hStatus
    rw [hSame]
    exact hStatus
  · rintro ⟨hAll, hPercent⟩
    have hSame : sent = sentByReplies quick rtaThresholds lostThresholds pings := by
      rw [hTaken, sentByReplies]
      exact takeUntil_congr (fun l h => (hAgree l h).symm) hAll
    rw [← hSame] at hAll hPercent
    have hNone := lostCount_eq_zero_iff.mpr hAll
    obtain ⟨hLoss, hLossOf⟩ := loss_of_replies hNone
    have hAverage := (average_eq_iff hSent).mpr hNone
    refine ⟨sent, ⟨_, hLoop, hTake.symm⟩, ?_, ?_⟩
    · rw [hExit, hAverage, hLoss, hLossOf, Nat.cast_zero]
      exact congrArg (PingEnd.exit · 0 _) hPercent
    · intro hRest
      rcases hStop with rfl | hStop
      · exact absurd (hSplit.trans (List.append_nil sent)).symm hRest
      · rw [hAgree sent hAll, okSoFar] at hStop
        simp only [Bool.and_eq_true, decide_eq_true_eq] at hStop
        exact ⟨hStop.1.1.1, hStop.1.2, hStop.2⟩

end Run

/-- The thresholds of the plugin where no argument changes them. -/
def defaultRta : Thresholds :=
  { warning := some (rangeUpTo 90), critical := some (rangeUpTo 100) }

def defaultLost : Thresholds :=
  { warning := some { defaultRange with end_ := 80 }
    critical := some { defaultRange with end_ := 90 } }

/-- Three packets that are answered. -/
def threeReplies : List Ping := [.reply 10, .reply 31, .reply (5 / 2)]

theorem checkOping_replies_iff_answered :
    ∃ sent, CountsReplies false true (some defaultRta) (some defaultLost) threeReplies sent := by
  have hReply : ∃ latency, .reply latency ∈ threeReplies := ⟨10, List.mem_cons_self⟩
  have hAnswered : ∀ ping ∈ threeReplies, ping ≠ .lost := by decide
  exact (checkOping_replies_iff false true (some defaultRta) (some defaultLost) hReply).mpr
    ⟨hAnswered, by decide +kernel⟩

/-- One packet is lost, the other one takes 151 ms: the time that is judged is 75 ms. -/
theorem checkOping_lost_packet :
    checkOping false false (some defaultRta) (some defaultLost) (rounds [] [.lost, .reply 151]) =
        .exit .ok 50 75 ∧
      meanLatency [.lost, .reply 151] = 151 ∧ getStatus 151 (some defaultRta) = .critical := by
  refine ⟨?_, ?_, ?_⟩
  · decide +kernel
  · decide +kernel
  · decide +kernel

end MonitoringPlug.Oping
