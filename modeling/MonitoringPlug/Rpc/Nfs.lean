import MonitoringPlug.Check.Bonding
import MonitoringPlug.Check.Integer
import MonitoringPlug.Perfdata.Percent
import MonitoringPlug.Rpc.Release
import MonitoringPlug.Snmp.Ups

/-! `check_nfs`: the mount daemon and the NFS server are asked over each transport for each
version, and the answers are sorted into the lists that decide about the exit. -/
namespace MonitoringPlug.Rpc

open CMemory CStream CText Xdr
open MonitoringPlug.Args MonitoringPlug.Common MonitoringPlug.Perfdata MonitoringPlug.Utils
open MonitoringPlug.Check (commaJoined commaJoined_append formatString intArgument)
open MonitoringPlug.Snmp (mpSnprintf)

/-- What one round of the two loops meets: whether `clnt_create` gets a client, what
`clnt_call` hands to `mp_xdr_exports`, if it gets that far, and the ping. All of it comes
before the alarm of the plugin. -/
structure Round where
  version : List Char
  transport : List Char
  connects : Bool
  reply : Option Bytes
  pingSucceeds : Bool
  timeDelta : ℚ

/-- The options, and `program->r_name`. -/
structure NfsOptions where
  program : List Char
  export_ : Option Bytes
  showPerfdata : Bool

/-- The globals of the plugin. -/
structure NfsState where
  noconnection : Option (List Char)
  callfailed : Option (List Char)
  noexport : Option (List Char)
  nfsWarn : Option (List Char)
  nfsCrit : Option (List Char)
  exportok : Option (List Char)
  timeThreshold : Option Thresholds
  perfdata : Option (List Char)

def NfsState.start (timeThreshold : Option Thresholds) : NfsState where
  noconnection := none
  callfailed := none
  noexport := none
  nfsWarn := none
  nfsCrit := none
  exportok := none
  timeThreshold := timeThreshold
  perfdata := none

/-- How the loops can be left early: a label that does not fit into its buffer, where the
plugin exits as critical, and an access outside of an object. -/
inductive NfsStop where
  | snprintf
  | undefined
deriving DecidableEq

/-- A C string in the bytes of a name. -/
def cString (bytes : Bytes) : Bytes := bytes.takeWhile (· != 0)

def mountLabel (program : List Char) (r : Round) : List Char :=
  r.transport ++ ':' :: program ++ 'v' :: formatLong (intArgument r.version)

def nfsLabel (r : Round) : List Char := r.transport ++ ":v".toList ++ r.version

def printed (text : List Char) : Except NfsStop (List Char) :=
  match mpSnprintf 128 text with
  | none => .error .snprintf
  | some buf => .ok buf

def defined {α : Type} : Option α → Except NfsStop α
  | none => .error .undefined
  | some a => .ok a

/-- The walk over the list for `--export`, and the test of an empty list without it. -/
def hasExport (options : NfsOptions) (s : ExportsState) : Option Bool :=
  match options.export_ with
  | some name =>
      (s.exportNodes.find (fun node => node.exDir.any fun dir => cString dir == name)
        (s.exportNodes.length + 1) s.exports).map Option.isSome
  | none => some s.exports.isSome

/-- `check_export`. Each list is freed before the next one is decoded, so there are no
nodes at its start. -/
def checkExport (xdr : Library) (options : NfsOptions) (r : Round) (s : NfsState) :
    Except NfsStop NfsState := do
  let buf ← printed (mountLabel options.program r)
  if !r.connects then
    return { s with noconnection := mpStrcatComma s.noconnection (some buf) }
  match r.reply.map (mpXdrExports xdr noNodes) with
  | some (.ok (exportlist, _)) =>
      let found ← defined (hasExport options exportlist)
      let _ ← defined (mpXdrExportsFree xdr exportlist).toOption
      if found then return { s with exportok := mpStrcatComma s.exportok (some buf) }
      else return { s with noexport := mpStrcatComma s.noexport (some buf) }
  | some (.error .undefined) => .error .undefined
  | _ => return { s with callfailed := mpStrcatComma s.callfailed (some buf) }

/-- The body of the two loops. -/
def nfsRound (xdr : Library) (options : NfsOptions) (s : NfsState) (r : Round) :
    Except NfsStop NfsState := do
  let s ← checkExport xdr options r s
  let tstate := getStatus r.timeDelta s.timeThreshold
  let buf ← printed (nfsLabel r)
  let reported ← defined (mpPerfdataFloat buf r.timeDelta ['s'] s.timeThreshold
    options.showPerfdata s.perfdata)
  let s := { s with timeThreshold := reported.threshold, perfdata := reported.perfdata }
  if !r.pingSucceeds || tstate == .critical then
    return { s with nfsCrit := mpStrcatComma s.nfsCrit (some buf) }
  else if tstate == .warning then
    return { s with nfsWarn := mpStrcatComma s.nfsWarn (some buf) }
  else return s

/-- The text of a critical exit. It is printed as a format; names with a percent sign are
left out here. -/
def nfsCriticalText (s : NfsState) : Option (List Char) :=
  let part (title : List Char) (names out : Option (List Char)) : Option (List Char) :=
    match names with
    | none => out
    | some _ => mpStrcatSpace (mpStrcatSpace out (some title)) names
  part "NFS Warning:".toList s.nfsWarn
    (part "NFS Critical:".toList s.nfsCrit
      (part "No export found by:".toList s.noexport
        (part "Call failed by:".toList s.callfailed
          (part "Can't connect to:".toList s.noconnection none))))

def nfsOkText (options : NfsOptions) (s : NfsState) : List Char :=
  match options.export_ with
  | some name =>
      name.map (fun c => Char.ofNat c.toNat) ++ " exported by ".toList ++ formatString s.exportok
  | none => "mountd export by ".toList ++ formatString s.exportok

/-- `main` behind the loops. -/
def nfsExit (options : NfsOptions) (s : NfsState) : Status × List Char :=
  if s.noconnection.isSome || s.callfailed.isSome || s.noexport.isSome || s.nfsCrit.isSome then
    (.critical, formatString (nfsCriticalText s))
  else
    match s.nfsWarn with
    | some warn => (.warning, "NFS Warning: ".toList ++ warn)
    | none => (.ok, nfsOkText options s)

/-- `main` from the loops on. -/
def checkNfs (xdr : Library) (options : NfsOptions) (timeThreshold : Option Thresholds)
    (rounds : List Round) : Except NfsStop (Status × List Char) := do
  let s ← rounds.foldlM (nfsRound xdr options) (.start timeThreshold)
  return nfsExit options s

/-- What a round says of the mount daemon. -/
inductive Mountd where
  | noConnection
  | callFailed
  | noExport
  | exported
deriving DecidableEq

/-- The exports that a reply is decoded to. -/
def Tells (xdr : Library) (r : Round) (es : List Export) : Prop :=
  ∃ reply ∈ r.reply, ∃ s rest, mpXdrExports xdr noNodes reply = .ok (s, rest) ∧ HasExports s es

/-- What is looked for is there: the path, or any export. -/
def Offers (name : Option Bytes) (es : List Export) : Prop :=
  match name with
  | some name => ∃ e ∈ es, cString e.dir = name
  | none => es ≠ []

def Meets (xdr : Library) (name : Option Bytes) (r : Round) : Mountd → Prop
  | .noConnection => r.connects = false
  | .callFailed => r.connects = true ∧
      ∀ reply ∈ r.reply, mpXdrExports xdr noNodes reply = .error .returnFalse
  | .noExport => r.connects = true ∧ ∃ es, Tells xdr r es ∧ ¬Offers name es
  | .exported => r.connects = true ∧ ∃ es, Tells xdr r es ∧ Offers name es

def NfsState.sort (s : NfsState) (label : List Char) : Mountd → NfsState
  | .noConnection => { s with noconnection := mpStrcatComma s.noconnection (some label) }
  | .callFailed => { s with callfailed := mpStrcatComma s.callfailed (some label) }
  | .noExport => { s with noexport := mpStrcatComma s.noexport (some label) }
  | .exported => { s with exportok := mpStrcatComma s.exportok (some label) }

/-- The lists of the pings. -/
def NfsState.judge (s : NfsState) (label : List Char) : Status → NfsState
  | .critical => { s with nfsCrit := mpStrcatComma s.nfsCrit (some label) }
  | .warning => { s with nfsWarn := mpStrcatComma s.nfsWarn (some label) }
  | _ => s

theorem judge_lists (s : NfsState) (label : List Char) (status : Status) :
    ((s.judge label status).noconnection = s.noconnection ∧
        (s.judge label status).callfailed = s.callfailed ∧
        (s.judge label status).noexport = s.noexport ∧
        (s.judge label status).exportok = s.exportok ∧
        (s.judge label status).timeThreshold = s.timeThreshold) ∧
      (s.judge label status).nfsCrit =
        (if status = .critical then mpStrcatComma s.nfsCrit (some label) else s.nfsCrit) ∧
      (s.judge label status).nfsWarn =
        (if status = .warning then mpStrcatComma s.nfsWarn (some label) else s.nfsWarn) := by
  cases status <;> simp [NfsState.judge]

section Mountd

variable {xdr : Library} {options : NfsOptions} {r : Round}

theorem chain_find_isSome {nodes : List (Nat × ExportNode)}
    {groupNodes : NodeHeap (Option Bytes)} {es : List Export} (name : Bytes)
    (h : List.Forall₂ (IsExport groupNodes) nodes es) :
    (nodes.find? fun entry => entry.2.exDir.any fun dir => cString dir == name).isSome ↔
      ∃ e ∈ es, cString e.dir = name := by
  induction h with
  | nil => simp
  | @cons entry e nodes es hFirst hRest ih =>
      rw [List.find?_cons, hFirst.1, Option.any_some]
      by_cases hName : cString e.dir = name
      · simp [hName]
      · have hNot : (cString e.dir == name) = false := by simpa using hName
        simp only [hNot, ih, List.mem_cons, exists_eq_or_imp, hName, false_or]

theorem hasExport_iff (options : NfsOptions) {s : ExportsState} {es : List Export}
    (h : HasExports s es) :
    ∃ found, hasExport options s = some found ∧ (found = true ↔ Offers options.export_ es) := by
  obtain ⟨nodes, hChain, hContents⟩ := h
  cases hName : options.export_ with
  | none =>
      simp only [hasExport, hName, Offers]
      refine ⟨_, rfl, ?_⟩
      have hEmpty : s.exports = none ↔ es = [] := by
        rw [hChain.pointer_eq_none_iff, ← List.length_eq_zero_iff, hContents.length_eq,
          List.length_eq_zero_iff]
      rw [Option.isSome_iff_ne_none, Ne, hEmpty]
  | some name =>
      simp only [hasExport, hName, Offers,
        hChain.find_eq _ (Nat.lt_succ_of_le hChain.length_le), Option.map_some]
      exact ⟨_, rfl, by rw [Option.isSome_map, chain_find_isSome name hContents]⟩

theorem exists_meets (hBounded : xdr.Bounded) (name : Option Bytes) (r : Round) :
    ∃ m, Meets xdr name r m := by
  cases hConnects : r.connects with
  | false => exact ⟨.noConnection, hConnects⟩
  | true =>
      cases hReply : r.reply with
      | none => exact ⟨.callFailed, hConnects, by simp [hReply]⟩
      | some reply =>
          rcases mpXdrExports_safe hBounded noNodes reply with hFails | ⟨s, rest, hRun, hTaken⟩
          · exact ⟨.callFailed, hConnects, by simpa [hReply] using hFails⟩
          · obtain ⟨nodes, groups, es, hTaken⟩ := hTaken
            have hTells : Tells xdr r es :=
              ⟨reply, hReply, s, rest, hRun, nodes, hTaken.chain, hTaken.contents⟩
            by_cases hOffers : Offers name es
            · exact ⟨.exported, hConnects, es, hTells, hOffers⟩
            · exact ⟨.noExport, hConnects, es, hTells, hOffers⟩

theorem printed_fits {text : List Char} (h : text.length < 128) : printed text = .ok text := by
  rw [printed, mpSnprintf, if_pos h]

/-- A list that was decoded is searched and freed. -/
theorem checkExport_told (hBounded : xdr.Bounded)
    (hFits : (mountLabel options.program r).length < 128) (hConnects : r.connects = true)
    {es : List Export} (hTells : Tells xdr r es) (s : NfsState) :
    ∃ found : Bool, (found = true ↔ Offers options.export_ es) ∧
      checkExport xdr options r s = .ok (s.sort (mountLabel options.program r)
        (if found then .exported else .noExport)) := by
  obtain ⟨reply, hReply, exportlist, rest, hRun, hExports⟩ := hTells
  obtain ⟨found, hFound, hOffers⟩ := hasExport_iff options hExports
  obtain ⟨nodes, groups, done, hTaken⟩ : ∃ nodes groups done,
      ExportsTaken noNodes exportlist nodes groups done := by
    rcases mpXdrExports_safe hBounded noNodes reply with hFails | ⟨s', rest', hRun', hTaken⟩
    · cases hFails.symm.trans hRun
    · cases hRun'.symm.trans hRun
      exact hTaken
  have hFree := mpXdrExportsFree_eq xdr hTaken.chain hTaken.toFreeable
  refine ⟨found, hOffers, ?_⟩
  rw [Option.mem_def] at hReply
  simp only [checkExport, printed_fits hFits, hConnects, hReply, Option.map_some, hRun, hFound,
    hFree, defined, Except.toOption, bind, Except.bind, pure, Except.pure]
  cases found <;> rfl

theorem checkExport_of_meets (hBounded : xdr.Bounded)
    (hFits : (mountLabel options.program r).length < 128) {m : Mountd}
    (h : Meets xdr options.export_ r m) (s : NfsState) :
    checkExport xdr options r s = .ok (s.sort (mountLabel options.program r) m) := by
  cases m with
  | noConnection =>
      have hConnects : r.connects = false := h
      simp only [checkExport, printed_fits hFits, hConnects, bind, Except.bind]
      rfl
  | callFailed =>
      obtain ⟨hConnects, hFails⟩ := h
      simp only [checkExport, printed_fits hFits, hConnects, bind, Except.bind]
      cases hReply : r.reply with
      | none => rfl
      | some reply =>
          rw [Option.map_some, hFails reply hReply]
          rfl
  | noExport =>
      obtain ⟨hConnects, es, hTells, hNot⟩ := h
      obtain ⟨found, hOffers, hCheck⟩ := checkExport_told hBounded hFits hConnects hTells s
      rw [hCheck, if_neg (mt hOffers.mp hNot)]
  | exported =>
      obtain ⟨hConnects, es, hTells, hThere⟩ := h
      obtain ⟨found, hOffers, hCheck⟩ := checkExport_told hBounded hFits hConnects hTells s
      rw [hCheck, if_pos (hOffers.mpr hThere)]

/-- What a round meets is determined. -/
theorem Meets.unique (hBounded : xdr.Bounded) (hFits : (mountLabel options.program r).length < 128)
    {m m' : Mountd} (h : Meets xdr options.export_ r m) (h' : Meets xdr options.export_ r m') :
    m = m' := by
  have hSame := (checkExport_of_meets hBounded hFits h (.start none)).symm.trans
    (checkExport_of_meets hBounded hFits h' (.start none))
  cases m <;> cases m' <;> simp [NfsState.sort, NfsState.start, mpStrcatComma] at hSame ⊢

end Mountd

/-- Each ping with what the thresholds say of its time. Reporting the first one resolves
the bounds in percent. -/
def judged (timeThreshold : Option Thresholds) : List Round → List (Round × Status)
  | [] => []
  | r :: rounds => (r, getStatus r.timeDelta timeThreshold) :: rounds.map fun r =>
      (r, getStatus r.timeDelta (mpPerfdataPercentResolv timeThreshold 0))

def pingStatus (entry : Round × Status) : Status :=
  if !entry.1.pingSucceeds || entry.2 == .critical then .critical
  else if entry.2 == .warning then .warning
  else .ok

theorem pingStatus_cases (entry : Round × Status) :
    pingStatus entry = .ok ∨ pingStatus entry = .warning ∨ pingStatus entry = .critical := by
  rw [pingStatus]
  split_ifs <;> simp

/-- Behind some rounds: the lists name the rounds that belong to them, in their order. -/
structure Sorted (options : NfsOptions) (timeThreshold : Option Thresholds)
    (outcome : Round → Mountd) (done : List Round) (s : NfsState) : Prop where
  noconnection : s.noconnection = commaJoined
    ((done.filter (outcome · = .noConnection)).map (mountLabel options.program))
  callfailed : s.callfailed = commaJoined
    ((done.filter (outcome · = .callFailed)).map (mountLabel options.program))
  noexport : s.noexport = commaJoined
    ((done.filter (outcome · = .noExport)).map (mountLabel options.program))
  exportok : s.exportok = commaJoined
    ((done.filter (outcome · = .exported)).map (mountLabel options.program))
  nfsCrit : s.nfsCrit = commaJoined
    (((judged timeThreshold done).filter (pingStatus · = .critical)).map fun e => nfsLabel e.1)
  nfsWarn : s.nfsWarn = commaJoined
    (((judged timeThreshold done).filter (pingStatus · = .warning)).map fun e => nfsLabel e.1)
  timeThreshold : s.timeThreshold =
    if done = [] then timeThreshold else mpPerfdataPercentResolv timeThreshold 0

section Rounds

variable {xdr : Library} {options : NfsOptions} {t : Option Thresholds} {outcome : Round → Mountd}
  {done : List Round} {s : NfsState} {r : Round}

theorem commaJoined_filter {α : Type} (p : α → Bool) (label : α → List Char) (l : List α) (a : α) :
    commaJoined (((l ++ [a]).filter p).map label) =
      if p a then mpStrcatComma (commaJoined ((l.filter p).map label)) (some (label a))
      else commaJoined ((l.filter p).map label) := by
  rw [List.filter_append, List.map_append]
  cases hP : p a with
  | true => simp [hP, commaJoined_append]
  | false => simp [hP]

theorem judged_append (done : List Round) (r : Round) :
    judged t (done ++ [r]) = judged t done ++ [(r, getStatus r.timeDelta
      (if done = [] then t else mpPerfdataPercentResolv t 0))] := by
  cases done with
  | nil => rfl
  | cons first done => simp [judged]

/-- The lists of the mount daemon. -/
theorem Sorted.sort (h : Sorted options t outcome done s) :
    let s' := s.sort (mountLabel options.program r) (outcome r)
    s'.noconnection = commaJoined
        (((done ++ [r]).filter (outcome · = .noConnection)).map (mountLabel options.program)) ∧
      s'.callfailed = commaJoined
        (((done ++ [r]).filter (outcome · = .callFailed)).map (mountLabel options.program)) ∧
      s'.noexport = commaJoined
        (((done ++ [r]).filter (outcome · = .noExport)).map (mountLabel options.program)) ∧
      s'.exportok = commaJoined
        (((done ++ [r]).filter (outcome · = .exported)).map (mountLabel options.program)) ∧
      s'.nfsCrit = s.nfsCrit ∧ s'.nfsWarn = s.nfsWarn ∧ s'.timeThreshold = s.timeThreshold := by
  simp only [commaJoined_filter, ← h.noconnection, ← h.callfailed, ← h.noexport, ← h.exportok]
  cases outcome r <;> simp [NfsState.sort]

/-- The rest of a round, once the mount daemon was asked. -/
theorem nfsRound_judge {sorted : NfsState} {reported : Reported}
    (hCheck : checkExport xdr options r s = .ok sorted) (hNfs : (nfsLabel r).length < 128)
    (hReport : mpPerfdataFloat (nfsLabel r) r.timeDelta ['s'] sorted.timeThreshold
      options.showPerfdata sorted.perfdata = some reported) :
    nfsRound xdr options s r = .ok (NfsState.judge { sorted with
        timeThreshold := reported.threshold
        perfdata := reported.perfdata }
      (nfsLabel r) (pingStatus (r, getStatus r.timeDelta sorted.timeThreshold))) := by
  simp only [nfsRound, hCheck, printed_fits hNfs, hReport, defined, bind, Except.bind, pingStatus]
  split
  · rfl
  · split <;> rfl

/-- One round more. -/
theorem nfsRound_sorted (hBounded : xdr.Bounded) (h : Sorted options t outcome done s)
    (hMeets : Meets xdr options.export_ r (outcome r))
    (hMount : (mountLabel options.program r).length < 128) (hNfs : (nfsLabel r).length < 128) :
    ∃ s', nfsRound xdr options s r = .ok s' ∧ Sorted options t outcome (done ++ [r]) s' := by
  obtain ⟨hNoConnection, hCallFailed, hNoExport, hExportOk, hCrit, hWarn, hThreshold⟩ :=
    h.sort (r := r)
  have hCheck := checkExport_of_meets hBounded hMount hMeets s
  generalize s.sort (mountLabel options.program r) (outcome r) = sorted at *
  obtain ⟨reported, hReported, hResolved⟩ := mpPerfdataFloat2_threshold (nfsLabel r) ['s']
    sorted.timeThreshold false false options.showPerfdata sorted.perfdata r.timeDelta 0 0
  have hBehind : reported.threshold = mpPerfdataPercentResolv t 0 := by
    rw [hResolved, hThreshold, h.timeThreshold]
    split <;> simp
  refine ⟨_, nfsRound_judge hCheck hNfs hReported, ?_⟩
  rw [hThreshold, h.timeThreshold]
  have hAppend := judged_append (t := t) done r
  generalize getStatus r.timeDelta (if done = [] then t else mpPerfdataPercentResolv t 0) = tstate
    at hAppend
  have hLists := judge_lists { sorted with
    timeThreshold := reported.threshold
    perfdata := reported.perfdata } (nfsLabel r) (pingStatus (r, tstate))
  obtain ⟨hMountd, hCritical, hWarning⟩ := hLists
  constructor
  · rw [hMountd.1, hNoConnection]
  · rw [hMountd.2.1, hCallFailed]
  · rw [hMountd.2.2.1, hNoExport]
  · rw [hMountd.2.2.2.1, hExportOk]
  · rw [hCritical, hAppend, commaJoined_filter, hCrit, h.nfsCrit]
    simp
  · rw [hWarning, hAppend, commaJoined_filter, hWarn, h.nfsWarn]
    simp
  · rw [hMountd.2.2.2.2, hBehind]
    simp

/-- All rounds, behind some that were made. -/
theorem nfsRounds_sorted (hBounded : xdr.Bounded) (h : Sorted options t outcome done s)
    {rounds : List Round} (hMeets : ∀ r ∈ rounds, Meets xdr options.export_ r (outcome r))
    (hFits : ∀ r ∈ rounds, (mountLabel options.program r).length < 128 ∧
      (nfsLabel r).length < 128) :
    ∃ s', rounds.foldlM (nfsRound xdr options) s = .ok s' ∧
      Sorted options t outcome (done ++ rounds) s' := by
  induction rounds generalizing done s with
  | nil => exact ⟨s, rfl, by rwa [List.append_nil]⟩
  | cons r rounds ih =>
      obtain ⟨hFirst, hRest⟩ := List.forall_mem_cons.mp hMeets
      obtain ⟨hFit, hFitRest⟩ := List.forall_mem_cons.mp hFits
      obtain ⟨next, hRound, hNext⟩ := nfsRound_sorted hBounded h hFirst hFit.1 hFit.2
      obtain ⟨s', hRounds, hSorted⟩ := ih hNext hRest hFitRest
      refine ⟨s', ?_, by rwa [List.append_assoc] at hSorted⟩
      rw [List.foldlM_cons, hRound]
      exact hRounds

end Rounds

theorem commaJoined_isSome (texts : List (List Char)) :
    (commaJoined texts).isSome = true ↔ texts ≠ [] := by
  rw [commaJoined]
  split <;> simp [*]

theorem commaJoined_filter_isSome {α : Type} (p : α → Bool) (label : α → List Char) (l : List α) :
    (commaJoined ((l.filter p).map label)).isSome = true ↔ ∃ a ∈ l, p a = true := by
  rw [commaJoined_isSome, Ne, List.map_eq_nil_iff, List.filter_eq_nil_iff]
  simp

theorem nfsOk_text (options : NfsOptions) (s : NfsState) :
    ∃ title, nfsOkText options s = title ++ formatString s.exportok := by
  rw [nfsOkText]
  split
  · exact ⟨_, rfl⟩
  · exact ⟨_, rfl⟩

/-- The test for a critical exit. -/
theorem Sorted.critical_iff {options : NfsOptions} {t : Option Thresholds}
    {outcome : Round → Mountd} {rounds : List Round} {s : NfsState}
    (h : Sorted options t outcome rounds s) :
    (s.noconnection.isSome || s.callfailed.isSome || s.noexport.isSome || s.nfsCrit.isSome) =
        true ↔
      (∃ r ∈ rounds, outcome r ≠ .exported) ∨
        ∃ entry ∈ judged t rounds, pingStatus entry = .critical := by
  simp only [h.noconnection, h.callfailed, h.noexport, h.nfsCrit, Bool.or_eq_true,
    commaJoined_filter_isSome, decide_eq_true_eq, ← exists_or, ← and_or_left]
  refine or_congr_left (exists_congr fun r => and_congr_right fun _ => ?_)
  cases outcome r <;> simp

theorem Sorted.warning_iff {options : NfsOptions} {t : Option Thresholds}
    {outcome : Round → Mountd} {rounds : List Round} {s : NfsState}
    (h : Sorted options t outcome rounds s) :
    s.nfsWarn.isSome = true ↔ ∃ entry ∈ judged t rounds, pingStatus entry = .warning := by
  rw [h.nfsWarn, commaJoined_filter_isSome]
  simp

/-- The first test that holds decides. -/
theorem nfsExit_status (options : NfsOptions) (s : NfsState) : (nfsExit options s).1 =
    if s.noconnection.isSome || s.callfailed.isSome || s.noexport.isSome || s.nfsCrit.isSome then
      .critical
    else if s.nfsWarn.isSome then .warning else .ok := by
  rw [nfsExit]
  split
  · rfl
  · cases s.nfsWarn <;> rfl

theorem nfsExit_text {options : NfsOptions} {s : NfsState} (h : (nfsExit options s).1 = .ok) :
    formatString s.exportok <:+ (nfsExit options s).2 := by
  rw [nfsExit] at h ⊢
  split at h
  · cases h
  · rename_i hGood
    rw [if_neg hGood]
    split at h
    · cases h
    · obtain ⟨title, hText⟩ := nfsOk_text options s
      rw [hText]
      exact List.suffix_append _ _

theorem picked_iff {C W : Prop} [Decidable C] [Decidable W] {status : Status}
    (h : status = if C then .critical else if W then .warning else .ok) :
    (status = .critical ↔ C) ∧ (status = .warning ↔ ¬C ∧ W) ∧ (status = .ok ↔ ¬C ∧ ¬W) := by
  subst h
  split_ifs <;> simp_all

/-- A time without alert is what is left. -/
theorem pingStatus_ok_iff {entries : List (Round × Status)} :
    ((∀ entry ∈ entries, pingStatus entry ≠ .critical) ∧
        ¬∃ entry ∈ entries, pingStatus entry = .warning) ↔
      ∀ entry ∈ entries, pingStatus entry = .ok := by
  constructor
  · rintro ⟨hNone, hQuiet⟩ entry hMem
    rcases pingStatus_cases entry with hOk | hWarns | hCrit
    · exact hOk
    · exact absurd ⟨entry, hMem, hWarns⟩ hQuiet
    · exact absurd hCrit (hNone entry hMem)
  · intro hAll
    refine ⟨fun entry hMem hCrit => ?_, ?_⟩
    · rw [hAll entry hMem] at hCrit
      cases hCrit
    · rintro ⟨entry, hMem, hWarns⟩
      rw [hAll entry hMem] at hWarns
      cases hWarns

/-- The exit of `check_nfs`, for any servers and any number of transports and versions
whose labels fit. It is critical exactly when some round has no connection, no answer, not
the export, no ping or a critical time; it warns exactly when none has and some time is a
warning; it is fine exactly when every round has all of these and a good time, and then it
names every round. -/
theorem checkNfs_status {xdr : Library} (hBounded : xdr.Bounded) (options : NfsOptions)
    (t : Option Thresholds) (rounds : List Round)
    (hFits : ∀ r ∈ rounds, (mountLabel options.program r).length < 128 ∧
      (nfsLabel r).length < 128) :
    ∃ status text, checkNfs xdr options t rounds = .ok (status, text) ∧
      (status = .critical ↔ (∃ r ∈ rounds, ¬Meets xdr options.export_ r .exported) ∨
        ∃ entry ∈ judged t rounds, pingStatus entry = .critical) ∧
      (status = .warning ↔ (∀ r ∈ rounds, Meets xdr options.export_ r .exported) ∧
        (∀ entry ∈ judged t rounds, pingStatus entry ≠ .critical) ∧
        ∃ entry ∈ judged t rounds, pingStatus entry = .warning) ∧
      (status = .ok ↔ (∀ r ∈ rounds, Meets xdr options.export_ r .exported) ∧
        ∀ entry ∈ judged t rounds, pingStatus entry = .ok) ∧
      (status = .ok → formatString (commaJoined (rounds.map (mountLabel options.program))) <:+
        text) := by
  choose outcome hOutcome using exists_meets hBounded options.export_
  have hStart : Sorted options t outcome [] (.start t) := by
    constructor <;> rfl
  obtain ⟨s, hRounds, hSorted⟩ :=
    nfsRounds_sorted hBounded hStart (fun r _ => hOutcome r) hFits
  rw [List.nil_append] at hSorted
  have hExported : ∀ r ∈ rounds,
      (outcome r = .exported ↔ Meets xdr options.export_ r .exported) := by
    intro r hMem
    constructor
    · intro hSame
      exact hSame ▸ hOutcome r
    · intro hMeets
      exact Meets.unique hBounded (hFits r hMem).1 (hOutcome r) hMeets
  have hAny : (∃ r ∈ rounds, outcome r ≠ .exported) ↔
      ∃ r ∈ rounds, ¬Meets xdr options.export_ r .exported :=
    exists_congr fun r => and_congr_right fun hMem => not_congr (hExported r hMem)
  have hCritical := hSorted.critical_iff
  rw [hAny] at hCritical
  have hRun : checkNfs xdr options t rounds = .ok (nfsExit options s) := by
    rw [checkNfs, hRounds]
    rfl
  obtain ⟨hCrit, hWarn, hOk⟩ := picked_iff (nfsExit_status options s)
  have hGood := not_congr hCritical
  simp only [not_or, not_exists, not_and, not_not] at hGood
  refine ⟨(nfsExit options s).1, (nfsExit options s).2, hRun, hCrit.trans hCritical, ?_, ?_, ?_⟩
  · rw [hWarn, hGood, hSorted.warning_iff, and_assoc]
  · rw [hOk, hGood, hSorted.warning_iff, and_assoc]
    exact and_congr_right fun _ => pingStatus_ok_iff
  · intro hFine
    obtain ⟨hAll, _⟩ := hGood.mp (hOk.mp hFine).1
    have hNames : s.exportok = commaJoined (rounds.map (mountLabel options.program)) := by
      rw [hSorted.exportok, List.filter_eq_self.mpr]
      intro r hMem
      simpa using (hExported r hMem).mpr (hAll r hMem)
    rw [← hNames]
    exact nfsExit_text hFine

/-- Over UDP a server exports `/a` and `/d`, but does not answer the ping. -/
def deafServer : Round where
  version := ['3']
  transport := ['u', 'd', 'p']
  connects := true
  reply := some (encodeExports groupsOfFirst)
  pingSucceeds := false
  timeDelta := 0

def mountdOptions : NfsOptions := { program := ['m'], export_ := none, showPerfdata := false }

theorem checkNfs_deafServer :
    ∃ status text, checkNfs standard mountdOptions none [deafServer] = .ok (status, text) ∧
      status = .critical := by
  obtain ⟨status, text, hRun, hCritical, -⟩ :=
    checkNfs_status standard_bounded mountdOptions none [deafServer] (by decide +kernel)
  exact ⟨status, text, hRun, hCritical.mpr (Or.inr ⟨_, List.mem_singleton_self _, rfl⟩)⟩

/-- A server that sends the encoding of its exports is told these exports. -/
theorem tells_encoded (xdr : Library) (r : Round) (es : List Export) (rest : Bytes)
    (hReply : r.reply = some (encodeExports es ++ rest)) : Tells xdr r es := by
  have hStart : ExportsRead { noNodes with exports := none, prev := none, prevGroup := none } []
      [] :=
    { chain := Chain.null
      contents := List.Forall₂.nil
      last := by rintro _ ⟨⟩ }
  have hLoop : Decodes ((encodeExports es ++ rest).length + 1) Stop.returnFalse
      (exportLoop xdr _ _) (encodeExports es) _ := exportLoop_decodes xdr hStart es
  obtain ⟨s, hRun, hExports⟩ := hLoop.whole rest (Nat.lt_succ_self _)
  exact ⟨_, hReply, s, rest, hRun, hExports⟩

end MonitoringPlug.Rpc
