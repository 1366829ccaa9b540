import MonitoringPlug.Common.Subprocess
import MonitoringPlug.Lib.Scanner

/-! `notify_mail`: a mail is written to `sendmail`, with a line of a single dot behind it. The
plugin closes neither end of the pipe. -/
namespace MonitoringPlug.Notify

open Pipes Scanner
open MonitoringPlug.Common

structure NotifyMail where
  from_ : Option (List UInt8)
  bcc : Bool
  email : List (List UInt8)
  packageName : List UInt8
  packageVersion : List UInt8
  out : List UInt8

def headerLine (name value : List UInt8) : List UInt8 :=
  name ++ Scanner.ascii ": " ++ value ++ Scanner.ascii "\n"

def NotifyMail.headers (n : NotifyMail) : List UInt8 :=
  (if n.bcc then (n.from_.map (headerLine (Scanner.ascii "To"))).getD [] else []) ++
    n.email.flatMap (headerLine (if n.bcc then Scanner.ascii "Bcc" else Scanner.ascii "To")) ++
    headerLine (Scanner.ascii "X-Mailer")
      (n.packageName ++ Scanner.ascii " (" ++ n.packageVersion ++ Scanner.ascii ")")

/-- All that is written. -/
def NotifyMail.text (n : NotifyMail) : List UInt8 := n.headers ++ n.out ++ Scanner.ascii ".\n"

/-- The plugin behind `mp_subprocess`: the writes, and then `mp_subprocess_close`. A write
comes into the pipe in any pieces. -/
inductive Mailing where
  | writing (rest : List UInt8)
  | closed (result : Int)

inductive Mailing.Does : Process Mailing where
  | write {bytes rest} (some : bytes ≠ []) :
      Mailing.Does (.writing (bytes ++ rest)) (.write bytes) (.writing rest)
  | close {result} : Mailing.Does (.writing []) (.reap result) (.closed result)

def mailResult (result : Int) : String :=
  if result ≠ 0 then "Send mail failed.\n" else "Mail sent.\n"

variable {State : Type}

/-- The mailer is a child that only reads. -/
abbrev MailConfig (State : Type) : Type := Config Mailing (Reading State)

def mailStart (p : Pipe) (text : List UInt8) (mailer : Consumer State) : MailConfig State :=
  ⟨p, .writing text, .reading mailer.start⟩

abbrev MailRun (capacity : Nat) (mailer : Consumer State) :
    MailConfig State → List (Side × Act) → MailConfig State → Prop :=
  Run capacity Mailing.Does mailer.Does

/-- From here `mp_subprocess_close` can still return. -/
def CanClose (capacity : Nat) (mailer : Consumer State) (c : MailConfig State) : Prop :=
  ∃ events last result, MailRun capacity mailer c events last ∧ last.parent = .closed result

def Mailing.rest : Mailing → List UInt8
  | .writing rest => rest
  | .closed _ => []

/-- What a mailer has seen. It is not at the end of the file. -/
inductive Saw (mailer : Consumer State) (p : Pipe) : Reading State → List UInt8 → Prop where
  | reading {got} (holds : p.reader .child = true) (runs : p.exited .child = none) :
      Saw mailer p (.reading (mailer.feed mailer.start got)) got
  | gone {got status} (enough : mailer.enough (mailer.feed mailer.start got) = some status)
      (exited : p.exited .child = some status) : Saw mailer p .gone got

/-- In every interleaving: the plugin still holds both ends, and what it wrote is in the
pipe or was seen by the mailer. -/
structure Mails (capacity : Nat) (mailer : Consumer State) (text : List UInt8)
    (c : MailConfig State) : Prop where
  writer : c.pipe.writer .parent = true
  reader : c.pipe.reader .parent = true
  fits : c.pipe.content.length ≤ capacity
  saw : ∃ got, got ++ c.pipe.content ++ c.parent.rest = text ∧ Saw mailer c.pipe c.child got
  closed : ∀ result, c.parent = .closed result → c.pipe.exited .child = some result

section Mails

variable {capacity : Nat} {mailer : Consumer State} {text : List UInt8}
  {c next : MailConfig State} {event : Side × Act} {events : List (Side × Act)}

theorem mails_start (capacity : Nat) (mailer : Consumer State) (text : List UInt8) :
    Mails capacity mailer text (mailStart Pipe.shared text mailer) where
  writer := rfl
  reader := rfl
  fits := Nat.zero_le _
  saw := ⟨[], rfl, @Saw.reading _ mailer _ [] rfl rfl⟩
  closed _ h := by cases h

theorem Mails.step (h : Mails capacity mailer text c)
    (hStep : Step capacity Mailing.Does mailer.Does c event next) :
    Mails capacity mailer text next := by
  obtain ⟨got, hText, hSaw⟩ := h.saw
  obtain ⟨p, parent, child⟩ := c
  cases hStep with
  | @parent act after pipe does applies =>
      cases does with
      | @write bytes rest hSome =>
          simp only [Act.apply, Option.ite_none_right_eq_some, Option.some.injEq] at applies
          obtain ⟨⟨-, -, hFits⟩, rfl⟩ := applies
          refine ⟨h.writer, h.reader, by simpa using hFits, ⟨got, ?_, ?_⟩, by simp⟩
          · simpa [Mailing.rest] using hText
          · cases hSaw with
            | reading holds runs => exact .reading holds runs
            | gone enough exited => exact .gone enough exited
      | @close result =>
          simp only [Act.apply, Option.ite_none_right_eq_some, Option.some.injEq] at applies
          obtain ⟨hExited, rfl⟩ := applies
          refine ⟨h.writer, h.reader, h.fits, ⟨got, hText, hSaw⟩, ?_⟩
          rintro _ ⟨⟩
          exact hExited
  | @child act after pipe does applies =>
      cases hSaw with
      | gone _ _ => cases does
      | reading holds runs =>
          cases does with
          | @read _ chunk waits =>
              simp only [Act.apply, Option.ite_none_right_eq_some, Option.some.injEq] at applies
              obtain ⟨⟨-, -, rest, hRest⟩, rfl⟩ := applies
              refine ⟨h.writer, h.reader, ?_, ⟨got ++ chunk, ?_, ?_⟩, h.closed⟩
              · exact Nat.le_trans (by simp) h.fits
              · simpa [← hRest] using hText
              · rw [← Consumer.feed_append]
                exact .reading holds runs
          | endOfFile _ =>
              obtain ⟨hWriter, -⟩ := Act.apply_endOfFile applies
              exact absurd (h.writer.symm.trans hWriter) (by decide)
          | enough ends =>
              cases applies
              refine ⟨h.writer, h.reader, h.fits, ⟨got, hText, .gone ends rfl⟩, ?_⟩
              intro result hClosed
              have hExited := h.closed result hClosed
              exact absurd (runs.symm.trans hExited) (by simp)

theorem Mails.run (h : Mails capacity mailer text c)
    (hRun : MailRun capacity mailer c events next) : Mails capacity mailer text next :=
  hRun.induct h fun _ _ _ hMiddle hLast => hMiddle.step hLast

/-- What the plugin is told is what the mailer made of the mail. -/
theorem Mails.result (h : Mails capacity mailer text c) {result : Int}
    (hClosed : c.parent = .closed result) :
    mailer.enough (mailer.feed mailer.start text) = some result := by
  obtain ⟨got, hText, hSaw⟩ := h.saw
  have hExited := h.closed result hClosed
  obtain ⟨p, parent, child⟩ := c
  cases hSaw with
  | reading _ runs => exact absurd (runs.symm.trans hExited) (by simp)
  | gone enough exited =>
      cases Option.some.inj (exited.symm.trans hExited)
      rw [← hText, List.append_assoc]
      exact Consumer.enough_append enough _

end Mails

section Close

variable {capacity : Nat} {mailer : Consumer State} {p : Pipe} {rest : List UInt8}
  {c next : MailConfig State} {event : Side × Act}

theorem CanClose.step (hStep : Step capacity Mailing.Does mailer.Does c event next)
    (h : CanClose capacity mailer next) : CanClose capacity mailer c := by
  obtain ⟨events, last, result, hRun, hClosed⟩ := h
  exact ⟨_, last, result, (Run.single hStep).trans hRun, hClosed⟩

/-- Once the mailer is gone, what is left to write has to fit. -/
theorem canClose_gone (status : Int) (hWriter : p.writer .parent = true)
    (hReader : p.reader .parent = true) (hExited : p.exited .child = some status)
    (hFits : p.content.length + rest.length ≤ capacity) :
    CanClose capacity mailer ⟨p, .writing rest, .gone⟩ := by
  have hClose : ∀ q : Pipe, q.exited .child = some status →
      CanClose capacity mailer ⟨q, .writing [], .gone⟩ := by
    intro q hQ
    exact ⟨_, _, status, Run.single (.parent .close (if_pos hQ)), rfl⟩
  by_cases hRest : rest = []
  · subst hRest
    exact hClose p hExited
  · have hWrite : Mailing.Does (.writing (rest ++ [])) (.write rest) (.writing []) := .write hRest
    rw [List.append_nil] at hWrite
    exact CanClose.step (.parent hWrite (if_pos ⟨hWriter, .inl hReader, hFits⟩))
      (hClose _ hExited)

/-- Where enough can still come, and what is behind it fits, the plugin can go on. -/
theorem Mails.canClose {text : List UInt8} (hCapacity : 0 < capacity)
    (hEnds : (mailer.enough (mailer.feed mailer.start text)).isSome)
    (hFits : ∀ front back, text = front ++ back →
      (mailer.enough (mailer.feed mailer.start front)).isSome → back.length ≤ capacity)
    (h : Mails capacity mailer text c) : CanClose capacity mailer c := by
  induction hSize : c.pipe.content.length + 2 * c.parent.rest.length using Nat.strongRecOn
    generalizing c with
  | ind size ih =>
      obtain ⟨p, parent, child⟩ := c
      cases parent with
      | closed result => exact ⟨[], _, result, .start, rfl⟩
      | writing rest =>
          obtain ⟨got, hText, hSaw⟩ := h.saw
          have hBehind (hEnough : (mailer.enough (mailer.feed mailer.start got)).isSome) :
              p.content.length + rest.length ≤ capacity := by
            have hBack := hFits got (p.content ++ rest) (by simpa [Mailing.rest] using hText.symm)
              hEnough
            rwa [List.length_append] at hBack
          cases hSaw with
          | gone enough exited =>
              exact canClose_gone _ h.writer h.reader exited
                (hBehind (Option.isSome_of_eq_some enough))
          | reading holds runs =>
              cases hEnough : mailer.enough (mailer.feed mailer.start got) with
              | some status =>
                  refine CanClose.step (.child (.enough hEnough) rfl) ?_
                  exact canClose_gone status h.writer h.reader rfl
                    (hBehind (Option.isSome_of_eq_some hEnough))
              | none =>
                  by_cases hEmpty : p.content = []
                  · cases rest with
                    | nil =>
                        obtain rfl : got = text := by simpa [hEmpty, Mailing.rest] using hText
                        rw [hEnough] at hEnds
                        cases hEnds
                    | cons byte rest =>
                        -- One byte fits, and nobody has it yet.
                        have hWrite : Mailing.Does (.writing ([byte] ++ rest)) (.write [byte])
                            (.writing rest) := .write (by simp)
                        have hStep : Step capacity Mailing.Does mailer.Does
                            ⟨p, .writing (byte :: rest),
                              .reading (mailer.feed mailer.start got)⟩ _ _ :=
                          .parent hWrite (if_pos ⟨h.writer, .inl h.reader, by simpa [hEmpty]⟩)
                        refine CanClose.step hStep (ih _ ?_ (h.step hStep) rfl)
                        rw [← hSize]
                        simp only [hEmpty, Mailing.rest, List.nil_append, List.length_cons,
                          List.length_nil]
                        omega
                  · have hStep : Step capacity Mailing.Does mailer.Does
                        ⟨p, .writing rest, .reading (mailer.feed mailer.start got)⟩ _ _ :=
                      .child (.read hEnough) (if_pos ⟨holds, hEmpty, List.prefix_rfl⟩)
                    refine CanClose.step hStep (ih _ ?_ (h.step hStep) rfl)
                    have hSome : 0 < p.content.length := List.length_pos_iff.mpr hEmpty
                    rw [← hSize]
                    simp only [List.drop_length, List.length_nil]
                    omega

/-- A mailer that reads byte by byte takes none behind those that are enough. -/
theorem exists_byteRun (hCapacity : 0 < capacity) (mailer : Consumer State)
    (front back : List UInt8) :
    ∃ seen unseen events, front = seen ++ unseen ∧
      (unseen ≠ [] → (mailer.enough (mailer.feed mailer.start seen)).isSome) ∧
      MailRun capacity mailer (mailStart Pipe.shared (front ++ back) mailer) events
        ⟨Pipe.shared, .writing (unseen ++ back), .reading (mailer.feed mailer.start seen)⟩ := by
  induction front using List.reverseRecOn generalizing back with
  | nil => exact ⟨[], [], [], rfl, fun h => absurd rfl h, .start⟩
  | append_singleton front byte ih =>
      obtain ⟨seen, unseen, events, rfl, hEnough, hRun⟩ := ih (byte :: back)
      have hStart : seen ++ unseen ++ [byte] ++ back = seen ++ unseen ++ byte :: back := by simp
      rw [hStart]
      by_cases hDone : (mailer.enough (mailer.feed mailer.start seen)).isSome
      · refine ⟨seen, unseen ++ [byte], events, by simp, fun _ => hDone, ?_⟩
        simpa using hRun
      · obtain rfl : unseen = [] := by
          by_contra hUnseen
          exact hDone (hEnough hUnseen)
        have hWaits : mailer.enough (mailer.feed mailer.start seen) = none := by simpa using hDone
        have hWrite : Mailing.Does (.writing ([byte] ++ back)) (.write [byte]) (.writing back) :=
          .write (by simp)
        have hWritten := hRun.step
          (.parent hWrite (if_pos ⟨rfl, .inl rfl, Nat.succ_le_of_lt hCapacity⟩))
        have hRead := hWritten.step (.child (.read hWaits)
          (if_pos ⟨rfl, List.cons_ne_nil byte [], List.prefix_rfl⟩))
        rw [← Consumer.feed_append] at hRead
        exact ⟨seen ++ [byte], [], _, by simp, fun h => absurd rfl h, hRead⟩

/-- And without a mailer all that is left has to fit. -/
theorem fits_of_canClose {content : List UInt8} (hContent : p.content = content)
    (hFits : content.length ≤ capacity)
    (h : CanClose capacity mailer ⟨p, .writing rest, .gone⟩) :
    content.length + rest.length ≤ capacity := by
  obtain ⟨events, last, result, hRun, hClosed⟩ := h
  have hGone : last.child = .gone ∧ last.pipe.content ++ last.parent.rest = content ++ rest ∧
      last.pipe.content.length ≤ capacity := by
    refine hRun.induct (motive := fun c => c.child = .gone ∧
      c.pipe.content ++ c.parent.rest = content ++ rest ∧ c.pipe.content.length ≤ capacity)
      ⟨rfl, by rw [← hContent]; rfl, by rwa [hContent]⟩ ?_
    rintro ⟨q, parent, child⟩ event next ⟨hChild, hText, hLength⟩ hStep
    obtain rfl : child = .gone := hChild
    cases hStep with
    | child does _ => cases does
    | parent does applies =>
        cases does with
        | write _ =>
            simp only [Act.apply, Option.ite_none_right_eq_some, Option.some.injEq] at applies
            obtain ⟨⟨-, -, hNext⟩, rfl⟩ := applies
            exact ⟨rfl, by simpa [Mailing.rest] using hText, by simpa using hNext⟩
        | close =>
            simp only [Act.apply, Option.ite_none_right_eq_some, Option.some.injEq] at applies
            obtain ⟨-, rfl⟩ := applies
            exact ⟨rfl, hText, hLength⟩
  obtain ⟨-, hText, hLength⟩ := hGone
  rw [hClosed] at hText
  have hAll := congrArg List.length hText
  simp only [Mailing.rest, List.append_nil, List.length_append] at hAll
  omega

end Close

/-- Whatever the order of the steps, `mp_subprocess_close` can always still return exactly
when the mailer has had enough of the mail at its end at the latest and what is written
behind that place fits into the pipe. Nothing else can make the mailer end, as the plugin
keeps the write end. -/
theorem notifyMail_canClose_iff {launch : Launch} {p : Pipe}
    (hLaunch : mpSubprocess launch = some p) {capacity : Nat} (hCapacity : 0 < capacity)
    (mailer : Consumer State) (text : List UInt8) :
    (∀ events c, MailRun capacity mailer (mailStart p text mailer) events c →
        CanClose capacity mailer c) ↔
      (mailer.enough (mailer.feed mailer.start text)).isSome ∧
        ∀ front back, text = front ++ back →
          (mailer.enough (mailer.feed mailer.start front)).isSome → back.length ≤ capacity := by
  obtain rfl := mpSubprocess_shared hLaunch
  constructor
  · intro hAlways
    refine ⟨?_, ?_⟩
    · obtain ⟨events, last, result, hRun, hClosed⟩ := hAlways [] _ .start
      exact Option.isSome_of_eq_some (((mails_start _ _ _).run hRun).result hClosed)
    · rintro front back rfl hEnough
      obtain ⟨seen, unseen, events, rfl, hSeen, hRun⟩ :=
        exists_byteRun hCapacity mailer front back
      have hDone : (mailer.enough (mailer.feed mailer.start seen)).isSome := by
        by_cases hUnseen : unseen = []
        · subst hUnseen
          rwa [List.append_nil] at hEnough
        · exact hSeen hUnseen
      obtain ⟨status, hStatus⟩ := Option.isSome_iff_exists.mp hDone
      have hGone := hAlways _ _ (hRun.step (.child (.enough hStatus) rfl))
      have hLeft := fits_of_canClose rfl (Nat.zero_le _) hGone
      simp only [List.length_append] at hLeft
      omega
  · rintro ⟨hEnds, hFits⟩ events c hRun
    exact ((mails_start _ _ _).run hRun).canClose hCapacity hEnds hFits

/-- A mailer that reads to the end of the file, as `cat` does. -/
def wholeFile : Consumer (List UInt8) where
  start := []
  take seen byte := seen ++ [byte]
  enough _ := none
  atEnd _ := 0

/-- It is waited for whatever the mail is. -/
theorem notifyMail_canClose_wholeFile :
    ¬∀ events c, MailRun 65536 wholeFile
      (mailStart Pipe.shared (Scanner.ascii "To: a\n\n.\n") wholeFile) events c →
        CanClose 65536 wholeFile c :=
  fun hAlways => by
    cases ((notifyMail_canClose_iff started_shared (by decide) wholeFile _).mp hAlways).1

def newline : UInt8 := 10

def dot : UInt8 := 46

def AtLineStart (bytes : List UInt8) : Prop := bytes = [] ∨ bytes.getLast? = some newline

/-- A line has begun with a dot. -/
def DotSeen (bytes : List UInt8) : Prop := ∃ front, bytes = front ++ [dot] ∧ AtLineStart front

/-- There is a line of a single dot. -/
def HasDotLine (bytes : List UInt8) : Prop :=
  ∃ front back, bytes = front ++ [dot, newline] ++ back ∧ AtLineStart front

section DotLine

variable {bytes front back : List UInt8} {byte : UInt8}

theorem HasDotLine.append (h : HasDotLine front) (back : List UInt8) :
    HasDotLine (front ++ back) := by
  obtain ⟨early, later, rfl, hStart⟩ := h
  exact ⟨early, later ++ back, by simp, hStart⟩

theorem hasDotLine_concat_iff :
    HasDotLine (bytes ++ [byte]) ↔
      HasDotLine bytes ∨ byte = newline ∧ DotSeen bytes := by
  constructor
  · rintro ⟨front, back, hBytes, hStart⟩
    cases back using List.reverseRecOn with
    | nil =>
        rw [List.append_nil, List.append_cons front] at hBytes
        obtain ⟨rfl, hByte⟩ := List.append_inj' hBytes rfl
        exact .inr ⟨List.singleton_inj.mp hByte, front, rfl, hStart⟩
    | append_singleton back last =>
        rw [← List.append_assoc] at hBytes
        obtain ⟨rfl, -⟩ := List.append_inj' hBytes rfl
        exact .inl ⟨front, back, rfl, hStart⟩
  · rintro (h | ⟨rfl, front, rfl, hStart⟩)
    · exact h.append [byte]
    · exact ⟨front, [], by simp, hStart⟩

theorem hasDotLine_dot_iff (bytes : List UInt8) :
    HasDotLine (bytes ++ [dot, newline]) ↔ HasDotLine bytes ∨ AtLineStart bytes := by
  rw [List.append_cons, hasDotLine_concat_iff, hasDotLine_concat_iff]
  constructor
  · rintro ((h | ⟨hDot, -⟩) | ⟨-, front, hFront, hStart⟩)
    · exact .inl h
    · exact absurd hDot (by decide)
    · obtain ⟨rfl, -⟩ := List.append_inj' hFront rfl
      exact .inr hStart
  · rintro (h | h)
    · exact .inl (.inl h)
    · exact .inr ⟨rfl, bytes, rfl, h⟩

theorem atLineStart_append (h : front.getLast? = some newline) :
    AtLineStart (front ++ bytes) ↔ AtLineStart bytes := by
  cases bytes using List.reverseRecOn with
  | nil => simp [AtLineStart, h]
  | append_singleton bytes last => simp [AtLineStart, ← List.append_assoc]

end DotLine

theorem NotifyMail.headers_last (n : NotifyMail) : n.headers.getLast? = some newline := by
  rw [headers, headerLine, ← List.append_assoc, ← List.append_assoc]
  exact List.getLast?_concat

/-- A mailer that ends at a line of a single dot gets its end exactly when the message ends
its last line, and then in every order of the steps. With any other message the plugin waits
for the mailer, and the mailer for the plugin, in all of them. -/
theorem notifyMail_dot_iff {launch : Launch} {p : Pipe} (hLaunch : mpSubprocess launch = some p)
    {capacity : Nat} (hCapacity : 0 < capacity) (mailer : Consumer State)
    (hDot : ∀ bytes, (mailer.enough (mailer.feed mailer.start bytes)).isSome ↔ HasDotLine bytes)
    (n : NotifyMail) (hFree : ¬HasDotLine (n.headers ++ n.out)) :
    ((∀ events c, MailRun capacity mailer (mailStart p n.text mailer) events c →
        CanClose capacity mailer c) ↔ AtLineStart n.out) ∧
      (CanClose capacity mailer (mailStart p n.text mailer) ↔ AtLineStart n.out) := by
  obtain rfl := mpSubprocess_shared hLaunch
  have hText : HasDotLine n.text ↔ AtLineStart n.out := by
    have hBoth := hasDotLine_dot_iff (n.headers ++ n.out)
    rw [atLineStart_append n.headers_last] at hBoth
    exact hBoth.trans (or_iff_right hFree)
  have hFits : ∀ front back, n.text = front ++ back → HasDotLine front →
      back.length ≤ capacity := by
    intro front back hParts hFront
    cases back using List.reverseRecOn with
    | nil => exact Nat.zero_le _
    | append_singleton back last =>
        have hBytes : n.headers ++ n.out ++ [dot] ++ [newline] = front ++ back ++ [last] := by
          rw [List.append_assoc front, ← hParts, List.append_assoc _ [dot]]
          rfl
        obtain ⟨hFront', -⟩ := List.append_inj' hBytes rfl
        have hDotted : HasDotLine (n.headers ++ n.out ++ [dot]) := hFront' ▸ hFront.append back
        rcases hasDotLine_concat_iff.mp hDotted with hBody | ⟨hNewline, -⟩
        · exact absurd hBody hFree
        · exact absurd hNewline (by decide)
  have hAlways (hStart : AtLineStart n.out) (events : List (Side × Act)) (c : MailConfig State)
      (hRun : MailRun capacity mailer (mailStart Pipe.shared n.text mailer) events c) :
      CanClose capacity mailer c :=
    ((mails_start _ _ _).run hRun).canClose hCapacity ((hDot n.text).mpr (hText.mpr hStart))
      fun front back hParts hEnough => hFits front back hParts ((hDot front).mp hEnough)
  have hOnly : CanClose capacity mailer (mailStart Pipe.shared n.text mailer) →
      AtLineStart n.out := by
    rintro ⟨events, last, result, hRun, hClosed⟩
    have hResult := ((mails_start _ _ _).run hRun).result hClosed
    exact hText.mp ((hDot n.text).mp (Option.isSome_of_eq_some hResult))
  exact ⟨⟨fun h => hOnly (h [] _ .start), hAlways⟩, hOnly,
    fun hStart => hAlways hStart [] _ .start⟩

section Sample

/-! A mailer that ends at a line of a single dot. -/

inductive DotState where
  | lineStart
  | dotSeen
  | inside
  | ended
deriving DecidableEq

def dotTake : DotState → UInt8 → DotState
  | .lineStart, byte =>
      if byte = newline then .lineStart else if byte = dot then .dotSeen else .inside
  | .dotSeen, byte => if byte = newline then .ended else .inside
  | .inside, byte => if byte = newline then .lineStart else .inside
  | .ended, _ => .ended

def dotMailer : Consumer DotState where
  start := .lineStart
  take := dotTake
  enough s := if s = .ended then some 0 else none
  atEnd _ := 0

/-- What the state tells about the bytes in front of it. -/
structure DotState.Tells (s : DotState) (bytes : List UInt8) : Prop where
  dotLine : HasDotLine bytes ↔ s = .ended
  lineStart : s ≠ .ended → (AtLineStart bytes ↔ s = .lineStart)
  dotSeen : s ≠ .ended → (DotSeen bytes ↔ s = .dotSeen)

theorem atLineStart_concat_iff {bytes : List UInt8} {byte : UInt8} :
    AtLineStart (bytes ++ [byte]) ↔ byte = newline := by
  simp [AtLineStart]

theorem dotSeen_concat_iff {bytes : List UInt8} {byte : UInt8} :
    DotSeen (bytes ++ [byte]) ↔ byte = dot ∧ AtLineStart bytes := by
  constructor
  · rintro ⟨front, hBytes, hStart⟩
    obtain ⟨rfl, hByte⟩ := List.append_inj' hBytes rfl
    exact ⟨List.singleton_inj.mp hByte, hStart⟩
  · rintro ⟨rfl, hStart⟩
    exact ⟨bytes, rfl, hStart⟩

theorem DotState.tells_take {s : DotState} {bytes : List UInt8} (h : s.Tells bytes) (byte : UInt8) :
    (dotTake s byte).Tells (bytes ++ [byte]) := by
  have hNe : dot ≠ newline := by decide
  obtain ⟨hLine, hStart, hSeen⟩ := h
  by_cases hNewline : byte = newline
  · subst hNewline
    cases s <;> constructor <;>
      simp_all [dotTake, hasDotLine_concat_iff, atLineStart_concat_iff, dotSeen_concat_iff, eq_comm]
  · by_cases hDot : byte = dot
    · subst hDot
      cases s <;> constructor <;>
        simp_all [dotTake, hasDotLine_concat_iff, atLineStart_concat_iff, dotSeen_concat_iff]
    · cases s <;> constructor <;>
        simp_all [dotTake, hasDotLine_concat_iff, atLineStart_concat_iff, dotSeen_concat_iff]

theorem DotState.tells_feed (bytes : List UInt8) :
    (dotMailer.feed dotMailer.start bytes).Tells bytes := by
  induction bytes using List.reverseRecOn with
  | nil =>
      refine ⟨⟨?_, by rintro ⟨⟩⟩, fun _ => ⟨fun _ => rfl, fun _ => .inl rfl⟩,
        fun _ => ⟨?_, by rintro ⟨⟩⟩⟩
      · rintro ⟨front, back, hBytes, -⟩
        simp at hBytes
      · rintro ⟨front, hBytes, -⟩
        simp at hBytes
  | append_singleton bytes byte ih =>
      rw [Consumer.feed_append]
      generalize dotMailer.feed dotMailer.start bytes = s at ih ⊢
      rw [Consumer.feed, Consumer.feed]
      have hTaken := tells_take ih byte
      cases s <;> exact hTaken

theorem dotMailer_dot (bytes : List UInt8) :
    (dotMailer.enough (dotMailer.feed dotMailer.start bytes)).isSome ↔ HasDotLine bytes := by
  rw [(DotState.tells_feed bytes).dotLine]
  simp [dotMailer]

def plainMail (out : List UInt8) : NotifyMail where
  from_ := none
  bcc := false
  email := [Scanner.ascii "a"]
  packageName := Scanner.ascii "mp"
  packageVersion := Scanner.ascii "1"
  out := out

/-- With a newline behind it the message is sent in any case, and without it in none. -/
theorem notifyMail_dot_plain :
    (∀ events c, MailRun 1 dotMailer
        (mailStart Pipe.shared (plainMail (Scanner.ascii "\nb\n")).text dotMailer) events c →
          CanClose 1 dotMailer c) ∧
      ¬CanClose 1 dotMailer
        (mailStart Pipe.shared (plainMail (Scanner.ascii "\nb")).text dotMailer) := by
  have hFree (n : NotifyMail) (h : (dotMailer.enough (dotMailer.feed dotMailer.start
      (n.headers ++ n.out))).isSome = false) : ¬HasDotLine (n.headers ++ n.out) := by
    rw [← dotMailer_dot, h]
    simp
  have hEnded := notifyMail_dot_iff started_shared Nat.one_pos dotMailer dotMailer_dot
    (plainMail (Scanner.ascii "\nb\n")) (hFree _ (by decide +kernel))
  have hOpen := notifyMail_dot_iff started_shared Nat.one_pos dotMailer dotMailer_dot
    (plainMail (Scanner.ascii "\nb")) (hFree _ (by decide +kernel))
  refine ⟨hEnded.1.mpr (.inr (by decide)), fun hClose => ?_⟩
  rcases hOpen.2.mp hClose with hEmpty | hLast
  · revert hEmpty
    decide
  · revert hLast
    decide

end Sample

end MonitoringPlug.Notify
