import MonitoringPlug.Common
import MonitoringPlug.Lib.Scanner
import MonitoringPlug.Lib.Search
import MonitoringPlug.Net.Dialogue

/-! The plain text in front of the TLS handshake of `check_ssl_cert`: what the check
says to an SMTP, POP or IMAP server, and when the handshake starts. -/
namespace MonitoringPlug.Gnutls

open CText Scanner Dialogue
open MonitoringPlug.Common MonitoringPlug.Net

/-- How the server lists what it can do. The functions are on the line as it was
received; no offer is an access behind it. -/
structure Listing where
  request : List UInt8
  refused : List UInt8 → Bool
  refusal : List UInt8
  offers : List UInt8 → Option Bool
  last : List UInt8
  missing : List UInt8

/-- The constants of one branch. -/
structure Protocol where
  greeting : List UInt8
  stranger : List UInt8
  listing : Option Listing
  request : List UInt8
  accepted : List UInt8

/-- The calls of `mp_recv_line`. -/
inductive Waiting where
  | banner
  | listing (l : Listing) (hasStarttls : Bool)
  | answer

inductive Negotiated where
  | handshake
  | exit (status : Status) (text : List UInt8)
deriving DecidableEq

/-- Behind a shorter line `line+4` is a byte of the object that was never written. -/
def smtpOffers (line : List UInt8) : Option Bool :=
  if line.length < 4 then none
  else some ((ascii "STARTTLS").isPrefixOf ((chomped line).drop 4))

/-- `hostname` is what `gethostname` stores. -/
def smtp (hostname : List UInt8) : Protocol where
  greeting := ascii "220 "
  stranger := ascii "Don't looks like smtp: "
  listing := some {
    request := ascii "EHLO " ++ hostname ++ ascii "\n"
    refused := fun line => !decide (Says (ascii "250") line)
    refusal := ascii "EHLO failed: "
    offers := smtpOffers
    last := ascii "250 "
    missing := ascii "SMTP Server do not offer STARTTLS" }
  request := ascii "STARTTLS\n"
  accepted := ascii "220 "

def pop : Protocol where
  greeting := ascii "+OK "
  stranger := ascii "Don't looks like pop: "
  listing := none
  request := ascii "STLS\n"
  accepted := ascii "+OK "

def imap : Protocol where
  -- Four of the five bytes of the literal are compared.
  greeting := ascii "* OK"
  stranger := ascii "Don't looks like imap: "
  listing := some {
    request := ascii "a001 CAPABILITY\n"
    refused := fun line => decide (Says (ascii "a001 BAD") line)
    refusal := ascii "CAPABILITY failed: "
    offers := fun line => some (strstr (ascii "STARTTLS") (chomped line)).isSome
    last := ascii "a001 OK "
    missing := ascii "IMAP Server do not offer STARTTLS" }
  request := ascii "a002 STARTTLS\n"
  accepted := ascii "a002 OK "

/-- A branch under `if (starttls)`. -/
def negotiate (p : Protocol) : Client Waiting (List UInt8) (List UInt8) Negotiated
  | .banner, line => do
      let text ← chomp line
      if Says p.greeting line then
        match p.listing with
        | some l => some (.go (.listing l false) [l.request])
        | none => some (.go .answer [p.request])
      else some (.stop (.exit .unknown (p.stranger ++ text)))
  | .listing l hasStarttls, line => do
      let text ← chomp line
      if l.refused line then some (.stop (.exit .critical (l.refusal ++ text)))
      else
        let offered ← l.offers line
        let hasStarttls := hasStarttls || offered
        if Says l.last line then
          if hasStarttls then some (.go .answer [p.request])
          else some (.stop (.exit .critical l.missing))
        else some (.go (.listing l hasStarttls) [])
  | .answer, line => do
      let text ← chomp line
      if Says p.accepted line then some (.stop .handshake)
      else some (.stop (.exit .unknown (ascii "STARTTLS Error: " ++ text)))

/-- The comparisons of the value of `--starttls`. -/
def protocolOf (hostname name : List UInt8) : Option Protocol :=
  if name = ascii "smtp" then some (smtp hostname)
  else if name = ascii "pop" then some pop
  else if name = ascii "imap" then some imap
  else none

/-- `main` between `mp_connect` and `gnutls_global_init`. -/
inductive Opens (hostname : List UInt8) (chunks : List Chunk) : Option (List UInt8) →
    Ending Connection (List UInt8) (List UInt8) Negotiated → Prop where
  | direct : Opens hostname chunks none ⟨.ended .handshake, .fresh chunks, []⟩
  | branch {name p ending} (known : protocolOf hostname name = some p)
      (ends : CLoop.Returns (pass (negotiate p) Connection.recvLine)
        ⟨.banner, .fresh chunks, []⟩ ending) : Opens hostname chunks (some name) ending
  | other {name} (known : protocolOf hostname name = none) :
      Opens hostname chunks (some name)
        ⟨.ended (.exit .unknown (ascii "STARTTLS protocoll " ++ name ++ ascii " not known.")),
          .fresh chunks, []⟩

/-- A line of the listing that is neither refused nor read behind. -/
def Listed (l : Listing) (line : List UInt8) : Prop :=
  line ≠ [] ∧ l.refused line = false ∧ (l.offers line).isSome

/-- What is left of a listing that offers what is asked for, or did so before. -/
structure Lists (l : Listing) (offered : Prop) (replies : List (List UInt8))
    (last : List UInt8) : Prop where
  listed : ∀ line ∈ replies ++ [last], Listed l line
  goesOn : ∀ line ∈ replies, ¬Says l.last line
  ends : Says l.last last
  offers : offered ∨ ∃ line ∈ replies ++ [last], l.offers line = some true

/-- What the server has to say before a handshake. -/
structure Exchange (p : Protocol) where
  banner : List UInt8
  listing : List (List UInt8)
  answer : List UInt8
  greets : banner ≠ [] ∧ Says p.greeting banner
  lists : match p.listing with
    | none => listing = []
    | some l => ∃ replies last, listing = replies ++ [last] ∧ Lists l False replies last
  accepts : answer ≠ [] ∧ Says p.accepted answer

section Replies

variable {p : Protocol} {l : Listing} {hasStarttls : Bool} {line : List UInt8}
  {lines rest : List (List UInt8)} {events : List (Event (List UInt8) (List UInt8))}

@[simp] theorem negotiate_empty (s : Waiting) : negotiate p s [] = none := by
  cases s <;> rfl

theorem negotiate_banner (h : line ≠ []) (hSays : Says p.greeting line) :
    negotiate p .banner line = match p.listing with
      | some l => some (.go (.listing l false) [l.request])
      | none => some (.go .answer [p.request]) := by
  simp [negotiate, chomp_nonempty h, hSays]

theorem negotiate_stranger (h : line ≠ []) (hSays : ¬Says p.greeting line) :
    negotiate p .banner line = some (.stop (.exit .unknown (p.stranger ++ chomped line))) := by
  simp [negotiate, chomp_nonempty h, hSays]

theorem negotiate_accepted (h : line ≠ []) (hSays : Says p.accepted line) :
    negotiate p .answer line = some (.stop .handshake) := by
  simp [negotiate, chomp_nonempty h, hSays]

theorem negotiate_declined (h : line ≠ []) (hSays : ¬Says p.accepted line) :
    negotiate p .answer line =
      some (.stop (.exit .unknown (ascii "STARTTLS Error: " ++ chomped line))) := by
  simp [negotiate, chomp_nonempty h, hSays]

theorem negotiate_listed {offered : Bool} (h : line ≠ []) (hRefused : l.refused line = false)
    (hOffers : l.offers line = some offered) :
    negotiate p (.listing l hasStarttls) line =
      if Says l.last line then
        if hasStarttls || offered then some (.go .answer [p.request])
        else some (.stop (.exit .critical l.missing))
      else some (.go (.listing l (hasStarttls || offered)) []) := by
  simp [negotiate, chomp_nonempty h, hRefused, hOffers]

/-- Only a line that is listed is not the end. -/
theorem listed_of_go {next : Waiting} {messages : List (List UInt8)}
    (h : negotiate p (.listing l hasStarttls) line = some (.go next messages)) : Listed l line := by
  by_cases hEmpty : line = []
  · subst hEmpty
    simp at h
  · cases hRefused : l.refused line with
    | true => simp [negotiate, chomp_nonempty hEmpty, hRefused] at h
    | false =>
        cases hOffers : l.offers line with
        | none => simp [negotiate, chomp_nonempty hEmpty, hRefused, hOffers] at h
        | some offered => exact ⟨hEmpty, hRefused, by simp [hOffers]⟩

/-- A listing is left for an answer, never for the handshake. -/
theorem listing_exits {result : Negotiated}
    (h : negotiate p (.listing l hasStarttls) line = some (.stop result)) :
    result ≠ .handshake := by
  by_cases hEmpty : line = []
  · subst hEmpty
    simp at h
  · simp only [negotiate, chomp_nonempty hEmpty, Option.bind_eq_bind, Option.bind_some] at h
    split at h
    · cases h
      simp
    · cases hOffers : l.offers line with
      | none => simp [hOffers] at h
      | some offers =>
          rw [hOffers, Option.bind_some] at h
          split at h
          · split at h <;> cases h
            simp
          · cases h

theorem converse_answer :
    converse (negotiate p) .answer lines = ⟨.ended .handshake, rest, events⟩ ↔
      ∃ answer, lines = answer :: rest ∧ (answer ≠ [] ∧ Says p.accepted answer) ∧
        events = [.heard answer] := by
  cases lines with
  | nil => simp
  | cons line lines =>
      by_cases hEmpty : line = []
      · subst hEmpty
        simp [converse_outside (negotiate_empty (p := p) .answer)]
      · by_cases hSays : Says p.accepted line
        · rw [converse_stop (negotiate_accepted hEmpty hSays)]
          simp [hEmpty, hSays, eq_comm]
        · rw [converse_stop (negotiate_declined hEmpty hSays)]
          simp [hSays]

end Replies

section Listing

variable {p : Protocol} {l : Listing} {offered : Prop} {line last : List UInt8}
  {replies lines rest : List (List UInt8)} {events : List (Event (List UInt8) (List UInt8))}

theorem lists_nil : Lists l offered [] last ↔
    Listed l last ∧ Says l.last last ∧ (offered ∨ l.offers last = some true) := by
  constructor
  · intro h
    exact ⟨h.listed last (by simp), h.ends, by simpa using h.offers⟩
  · rintro ⟨hListed, hEnds, hOffers⟩
    exact ⟨by simpa using hListed, by simp, hEnds, by simpa using hOffers⟩

theorem lists_cons : Lists l offered (line :: replies) last ↔
    Listed l line ∧ ¬Says l.last line ∧
      Lists l (offered ∨ l.offers line = some true) replies last := by
  constructor
  · intro h
    refine ⟨h.listed line (by simp), h.goesOn line (by simp), ?_⟩
    refine ⟨fun other hOther => h.listed other (by simp [hOther]),
      fun other hOther => h.goesOn other (by simp [hOther]), h.ends, ?_⟩
    simpa only [List.cons_append, List.mem_cons, exists_eq_or_imp, ← or_assoc] using h.offers
  · rintro ⟨hListed, hGoesOn, h⟩
    refine ⟨?_, ?_, h.ends, ?_⟩
    · rw [List.cons_append, List.forall_mem_cons]
      exact ⟨hListed, h.listed⟩
    · rw [List.forall_mem_cons]
      exact ⟨hGoesOn, h.goesOn⟩
    · simpa only [List.cons_append, List.mem_cons, exists_eq_or_imp, ← or_assoc] using h.offers

theorem negotiate_going {offers : Bool} {hasStarttls : Bool} (hListed : Listed l line)
    (hOffers : l.offers line = some offers) (hLast : ¬Says l.last line) :
    negotiate p (.listing l hasStarttls) line =
      some (.go (.listing l (hasStarttls || offers)) []) := by
  rw [negotiate_listed hListed.1 hListed.2.1 hOffers, if_neg hLast]

theorem negotiate_last {offers : Bool} {hasStarttls : Bool} (hListed : Listed l line)
    (hOffers : l.offers line = some offers) (hLast : Says l.last line) :
    negotiate p (.listing l hasStarttls) line =
      if hasStarttls || offers then some (.go .answer [p.request])
      else some (.stop (.exit .critical l.missing)) := by
  rw [negotiate_listed hListed.1 hListed.2.1 hOffers, if_pos hLast]

/-- The loop over the listing, from any line of it on: forwards by its lines. -/
theorem lists_of_converse {hasStarttls : Bool}
    (h : converse (negotiate p) (.listing l hasStarttls) lines =
      ⟨.ended .handshake, rest, events⟩) :
    ∃ replies last answer, Lists l (hasStarttls = true) replies last ∧
      (answer ≠ [] ∧ Says p.accepted answer) ∧ lines = replies ++ last :: answer :: rest ∧
      events = replies.map .heard ++ [.heard last, .said p.request, .heard answer] := by
  induction lines generalizing hasStarttls events with
  | nil => simp at h
  | cons line lines ih =>
      cases hReply : negotiate p (.listing l hasStarttls) line with
      | none => simp [converse_outside hReply] at h
      | some reply =>
          cases reply with
          | stop result =>
              rw [converse_stop hReply] at h
              cases h
              exact absurd rfl (listing_exits hReply)
          | go next messages =>
              have hListed := listed_of_go hReply
              obtain ⟨offers, hOffers⟩ := Option.isSome_iff_exists.mp hListed.2.2
              obtain ⟨later, hLater, rfl⟩ := (converse_go_iff hReply).mp h
              by_cases hLast : Says l.last line
              · rw [negotiate_last hListed hOffers hLast] at hReply
                split at hReply
                · rename_i hOffered
                  cases hReply
                  obtain ⟨answer, rfl, hAnswer, rfl⟩ := converse_answer.mp hLater
                  refine ⟨[], line, answer, lists_nil.mpr ⟨hListed, hLast, ?_⟩, hAnswer, rfl, rfl⟩
                  simpa [hOffers] using hOffered
                · cases hReply
              · rw [negotiate_going hListed hOffers hLast] at hReply
                cases hReply
                obtain ⟨replies, last, answer, hLists, hAnswer, rfl, rfl⟩ := ih hLater
                refine ⟨line :: replies, last, answer, lists_cons.mpr ⟨hListed, hLast, ?_⟩,
                  hAnswer, rfl, rfl⟩
                simpa [hOffers] using hLists

/-- And backwards by its replies. -/
theorem converse_of_lists {hasStarttls : Bool} {answer : List UInt8}
    (h : Lists l (hasStarttls = true) replies last)
    (hAnswer : answer ≠ [] ∧ Says p.accepted answer) (rest : List (List UInt8)) :
    converse (negotiate p) (.listing l hasStarttls) (replies ++ last :: answer :: rest) =
      ⟨.ended .handshake, rest,
        replies.map .heard ++ [.heard last, .said p.request, .heard answer]⟩ := by
  induction replies generalizing hasStarttls with
  | nil =>
      obtain ⟨hListed, hLast, hOffered⟩ := lists_nil.mp h
      obtain ⟨offers, hOffers⟩ := Option.isSome_iff_exists.mp hListed.2.2
      have hReply : negotiate p (.listing l hasStarttls) last = _ :=
        negotiate_last hListed hOffers hLast
      rw [if_pos (by simpa [hOffers] using hOffered)] at hReply
      exact (converse_go_iff hReply).mpr
        ⟨[.heard answer], converse_answer.mpr ⟨answer, rfl, hAnswer, rfl⟩, rfl⟩
  | cons line replies ih =>
      obtain ⟨hListed, hLast, hLists⟩ := lists_cons.mp h
      obtain ⟨offers, hOffers⟩ := Option.isSome_iff_exists.mp hListed.2.2
      have hOffered : Lists l ((hasStarttls || offers) = true) replies last := by
        simpa [hOffers] using hLists
      have hRest := ih hOffered
      exact (converse_go_iff (negotiate_going hListed hOffers hLast)).mpr ⟨_, hRest, rfl⟩

end Listing

section Exchange



variable {p : Protocol}

def Exchange.lines (e : Exchange p) : List (List UInt8) := e.banner :: (e.listing ++ [e.answer])

/-- The lines, each with what the check says to it. -/
def Exchange.events (e : Exchange p) : List (Event (List UInt8) (List UInt8)) :=
  .heard e.banner :: (p.listing.toList.map fun l => .said l.request) ++
    e.listing.map .heard ++ [.said p.request, .heard e.answer]

/-- The handshake starts exactly behind an exchange, and with nothing else said. -/
theorem converse_handshake_iff {lines rest : List (List UInt8)}
    {events : List (Event (List UInt8) (List UInt8))} :
    converse (negotiate p) .banner lines = ⟨.ended .handshake, rest, events⟩ ↔
      ∃ e : Exchange p, lines = e.lines ++ rest ∧ events = e.events := by
  constructor
  · intro h
    cases lines with
    | nil => simp at h
    | cons banner lines =>
        by_cases hEmpty : banner = []
        · subst hEmpty
          simp [converse_outside (negotiate_empty (p := p) .banner)] at h
        by_cases hSays : Says p.greeting banner
        · have hReply := negotiate_banner hEmpty hSays
          cases hListing : p.listing with
          | none =>
              rw [hListing] at hReply
              obtain ⟨later, hLater, rfl⟩ := (converse_go_iff hReply).mp h
              obtain ⟨answer, rfl, hAnswer, rfl⟩ := converse_answer.mp hLater
              refine ⟨⟨banner, [], answer, ⟨hEmpty, hSays⟩, by rw [hListing], hAnswer⟩, rfl, ?_⟩
              simp [Exchange.events, hListing]
          | some l =>
              rw [hListing] at hReply
              obtain ⟨later, hLater, rfl⟩ := (converse_go_iff hReply).mp h
              obtain ⟨replies, last, answer, hLists, hAnswer, rfl, rfl⟩ := lists_of_converse hLater
              refine ⟨⟨banner, replies ++ [last], answer, ⟨hEmpty, hSays⟩, ?_, hAnswer⟩, ?_, ?_⟩
              · rw [hListing]
                exact ⟨replies, last, rfl, by simpa using hLists⟩
              · simp [Exchange.lines]
              · simp [Exchange.events, hListing]
        · rw [converse_stop (negotiate_stranger hEmpty hSays)] at h
          cases h
  · rintro ⟨⟨banner, listing, answer, ⟨hEmpty, hSays⟩, hLists, hAnswer⟩, rfl, rfl⟩
    have hReply := negotiate_banner hEmpty hSays
    cases hListing : p.listing with
    | none =>
        have hNone := hLists
        rw [hListing] at hReply hNone
        obtain rfl : listing = [] := hNone
        refine (converse_go_iff hReply).mpr
          ⟨[.heard answer], converse_answer.mpr ⟨answer, rfl, hAnswer, rfl⟩, ?_⟩
        simp [Exchange.events, hListing]
    | some l =>
        have hSome := hLists
        rw [hListing] at hReply hSome
        obtain ⟨replies, last, rfl, hReplies⟩ := hSome
        have hOffered : Lists l (false = true) replies last := by simpa using hReplies
        have hRest := converse_of_lists hOffered hAnswer rest
        rw [show replies ++ last :: answer :: rest = replies ++ [last] ++ [answer] ++ rest by simp]
          at hRest
        refine (converse_go_iff hReply).mpr ⟨_, hRest, ?_⟩
        simp [Exchange.events, hListing]

end Exchange

/-- However the server's bytes are cut into pieces, the check goes into the TLS handshake
exactly when its lines begin with an exchange. It has said what belongs to the exchange,
and what is behind the answer is partly in the static buffer, where the TLS layer does not
look, and partly still to be received. -/
theorem opens_handshake_iff (hostname : List UInt8) (chunks : List Chunk) {name : List UInt8}
    {p : Protocol} (hKnown : protocolOf hostname name = some p)
    (events : List (Event (List UInt8) (List UInt8))) (rest : List (List UInt8) × List UInt8) :
    (∃ ending, Opens hostname chunks (some name) ending ∧
        ending.outcome = .ended .handshake ∧ ending.events = events ∧
        streamLines ending.source.arriving = rest) ↔
      ∃ e : Exchange p, events = e.events ∧
        streamLines (Connection.fresh chunks).arriving = (e.lines ++ rest.1, rest.2) := by
  obtain ⟨shown, hReturns, hOutcome, hEvents, hSource⟩ :=
    recvLine_shows.converses (negotiate p) .banner (.fresh chunks)
  generalize streamLines (Connection.fresh chunks).arriving = stream at hOutcome hEvents hSource ⊢
  constructor
  · rintro ⟨ending, hOpens, hEnded, rfl, rfl⟩
    cases hOpens with
    | other hOther =>
        rw [hKnown] at hOther
        cases hOther
    | branch hSame hEnds =>
        rw [hKnown] at hSame
        cases hSame
        cases hEnds.unique hReturns
        obtain ⟨e, hLines, hSaid⟩ := converse_handshake_iff.mp
          (show converse (negotiate p) .banner stream.1 =
              ⟨.ended .handshake, (streamLines shown.source.arriving).1, shown.events⟩ by
            rw [hSource, hEvents, ← hEnded, hOutcome])
        refine ⟨e, hSaid, ?_⟩
        rw [← hLines, hSource]
  · rintro ⟨e, rfl, rfl⟩
    have hEnding : converse (negotiate p) .banner (e.lines ++ rest.1) =
        ⟨.ended .handshake, rest.1, e.events⟩ := converse_handshake_iff.mpr ⟨e, rfl, rfl⟩
    rw [hEnding] at hOutcome hEvents hSource
    exact ⟨shown, .branch hKnown hReturns, hOutcome, hEvents, hSource⟩

/-- A POP server that says more than its answer: the handshake starts, and the line behind
the answer came with it. -/
theorem opens_pop_handshake :
    ∃ ending, Opens [] [⟨ascii "+OK ready\r\n+O", by decide, by decide⟩,
        ⟨ascii "K go\r\nplain\n", by decide, by decide⟩] (some (ascii "pop")) ending ∧
      ending.outcome = .ended .handshake ∧
      ending.events = [.heard (ascii "+OK ready\r"), .said (ascii "STLS\n"),
        .heard (ascii "+OK go\r")] ∧
      streamLines ending.source.arriving = ([ascii "plain"], []) :=
  (opens_handshake_iff [] _ rfl _ _).mpr
    ⟨⟨ascii "+OK ready\r", [], ascii "+OK go\r", by decide, rfl, by decide⟩, by decide, by decide⟩

section Asking

variable {p : Protocol} {l : Listing} {lines : List (List UInt8)}

theorem answer_quiet (message : List UInt8) :
    .said message ∉ (converse (negotiate p) .answer lines).events := by
  cases lines with
  | nil => simp
  | cons line lines =>
      by_cases hEmpty : line = []
      · subst hEmpty
        simp [converse_outside (negotiate_empty (p := p) .answer)]
      · by_cases hSays : Says p.accepted line
        · simp [converse_stop (negotiate_accepted hEmpty hSays)]
        · simp [converse_stop (negotiate_declined hEmpty hSays)]

/-- Whatever comes of it, what is asked for was offered in a listing that is complete. -/
theorem lists_of_asked {hasStarttls : Bool}
    (h : .said p.request ∈ (converse (negotiate p) (.listing l hasStarttls) lines).events) :
    ∃ replies last later, Lists l (hasStarttls = true) replies last ∧
      (converse (negotiate p) (.listing l hasStarttls) lines).events =
        (replies ++ [last]).map .heard ++ .said p.request :: later ∧
      ∀ message, .said message ∉ later := by
  induction lines generalizing hasStarttls with
  | nil => simp at h
  | cons line lines ih =>
      cases hReply : negotiate p (.listing l hasStarttls) line with
      | none => simp [converse_outside hReply] at h
      | some reply =>
          cases reply with
          | stop result => simp [converse_stop hReply] at h
          | go next messages =>
              have hListed := listed_of_go hReply
              obtain ⟨offers, hOffers⟩ := Option.isSome_iff_exists.mp hListed.2.2
              rw [converse_go hReply] at h ⊢
              by_cases hLast : Says l.last line
              · rw [negotiate_last hListed hOffers hLast] at hReply
                split at hReply
                · rename_i hOffered
                  cases hReply
                  exact ⟨[], line, _,
                    lists_nil.mpr ⟨hListed, hLast, by simpa [hOffers] using hOffered⟩, rfl,
                    fun message => answer_quiet message⟩
                · cases hReply
              · rw [negotiate_going hListed hOffers hLast] at hReply
                cases hReply
                obtain ⟨replies, last, later, hLists, hEvents, hQuiet⟩ := ih (by simpa using h)
                refine ⟨line :: replies, last, later, lists_cons.mpr ⟨hListed, hLast, ?_⟩, ?_,
                  hQuiet⟩
                · simpa [hOffers] using hLists
                · simp [hEvents]

theorem asks_after_listing (hListing : p.listing = some l) (hOther : l.request ≠ p.request)
    (h : .said p.request ∈ (converse (negotiate p) .banner lines).events) :
    ∃ banner replies last later, Says p.greeting banner ∧ Lists l False replies last ∧
      (converse (negotiate p) .banner lines).events = .heard banner :: .said l.request ::
        ((replies ++ [last]).map .heard ++ .said p.request :: later) ∧
      ∀ message, .said message ∉ later := by
  cases lines with
  | nil => simp at h
  | cons banner lines =>
      by_cases hEmpty : banner = []
      · subst hEmpty
        simp [converse_outside (negotiate_empty (p := p) .banner)] at h
      by_cases hSays : Says p.greeting banner
      · have hReply := negotiate_banner hEmpty hSays
        rw [hListing] at hReply
        rw [converse_go hReply] at h ⊢
        have hAsked :
            .said p.request ∈ (converse (negotiate p) (.listing l false) lines).events := by
          simpa [Ne.symm hOther] using h
        obtain ⟨replies, last, later, hLists, hEvents, hQuiet⟩ := lists_of_asked hAsked
        exact ⟨banner, replies, last, later, hSays, by simpa using hLists, by simp [hEvents],
          hQuiet⟩
      · rw [converse_stop (negotiate_stranger hEmpty hSays)] at h
        simp at h

end Asking

theorem protocolOf_requests {hostname name : List UInt8} {p : Protocol} {l : Listing}
    (hKnown : protocolOf hostname name = some p) (hListing : p.listing = some l) :
    l.request ≠ p.request := by
  simp only [protocolOf] at hKnown
  split at hKnown
  · cases hKnown
    cases hListing
    intro hSame
    have hFirst := congrArg List.head? hSame
    revert hFirst
    exact (by decide : some (69 : UInt8) ≠ some 83)
  · split at hKnown
    · cases hKnown
      cases hListing
    · split at hKnown
      · cases hKnown
        cases hListing
        decide
      · cases hKnown

/-- The plain text never asks for TLS before the server, in answer to the check's own
question, listed it, and after that nothing more is said in plain text. This is for any
server, also one that the handshake is never reached with. -/
theorem opens_asks {hostname name : List UInt8} {chunks : List Chunk} {p : Protocol}
    {l : Listing} {ending : Ending Connection (List UInt8) (List UInt8) Negotiated}
    (hOpens : Opens hostname chunks (some name) ending)
    (hKnown : protocolOf hostname name = some p) (hListing : p.listing = some l)
    (hSaid : .said p.request ∈ ending.events) :
    ∃ banner replies last later, Says p.greeting banner ∧ Lists l False replies last ∧
      ending.events = .heard banner :: .said l.request ::
        ((replies ++ [last]).map .heard ++ .said p.request :: later) ∧
      ∀ message, .said message ∉ later := by
  obtain ⟨shown, hReturns, -, hEvents, -⟩ :=
    recvLine_shows.converses (negotiate p) .banner (.fresh chunks)
  cases hOpens with
  | other hOther =>
      rw [hKnown] at hOther
      cases hOther
  | branch hSame hEnds =>
      rw [hKnown] at hSame
      cases hSame
      cases hEnds.unique hReturns
      generalize (streamLines (Connection.fresh chunks).arriving).1 = lines at hEvents
      rw [hEvents] at hSaid ⊢
      exact asks_after_listing hListing (protocolOf_requests hKnown hListing) hSaid

/-- An SMTP server that offers and then declines: it was asked once, behind its listing. -/
theorem opens_smtp_asks :
    ∃ ending, Opens [104] [⟨ascii "220 m\r\n250-m\n250 STAR", by decide, by decide⟩,
        ⟨ascii "TTLS\r\n454 no\r\n", by decide, by decide⟩] (some (ascii "smtp")) ending ∧
      ending.outcome = .ended (.exit .unknown (ascii "STARTTLS Error: 454 no")) ∧
      ∃ banner replies last later, Says (ascii "220 ") banner ∧
        Lists ((smtp [104]).listing.get rfl) False replies last ∧
        ending.events = .heard banner :: .said (ascii "EHLO h\n") ::
          ((replies ++ [last]).map .heard ++ .said (ascii "STARTTLS\n") :: later) ∧
        ∀ message, .said message ∉ later := by
  obtain ⟨shown, hReturns, hOutcome, hEvents, -⟩ :=
    recvLine_shows.converses (negotiate (smtp [104])) .banner
      (.fresh [⟨ascii "220 m\r\n250-m\n250 STAR", by decide, by decide⟩,
        ⟨ascii "TTLS\r\n454 no\r\n", by decide, by decide⟩])
  have hOpens := Opens.branch (rfl : protocolOf [104] (ascii "smtp") = _) hReturns
  exact ⟨shown, hOpens, hOutcome.trans (by decide),
    opens_asks hOpens rfl rfl (by rw [hEvents]; decide)⟩

end MonitoringPlug.Gnutls
