import MonitoringPlug.Common
import MonitoringPlug.Dhcp.Receive
import MonitoringPlug.Lib.Format
import MonitoringPlug.Lib.Rounds

/-! `check_dhcp`: from the options to the exit state, for any packets that
`mp_dhcp_recv` returns. The resolver, the tests for names and addresses and what
the system lets the plugin do are parameters. -/
namespace MonitoringPlug.Dhcp

open CLoop CMemory CText Common

def dhcpoptMessageType : UInt8 := 53
def dhcpoptServerId : UInt8 := 54

def dhcpOffer : UInt8 := 2
def dhcpAck : UInt8 := 5
def dhcpNak : UInt8 := 6

/-- `struct in_addr`, by its bytes. -/
structure InAddr where
  first : UInt8
  second : UInt8
  third : UInt8
  fourth : UInt8
deriving DecidableEq

/-- A packet with the string that starts at `sname`. -/
structure Reply extends DhcpPkt where
  sname : List Char
deriving DecidableEq

/-- The options that are looked at later. -/
inductive Argument where
  | timeout (optarg : List Char)
  | hostname (optarg : List Char)
  | mac
  | unicast
  | broadcast
  | request (optarg : List Char)
  | type (optarg : List Char)

structure Environment where
  isHostname : List Char → Bool
  isHostaddr : List Char → Bool
  inetAddr : List Char → UInt32
  isRoot : Bool
  /-- What `gethostbyname` says before the setup, in it, and behind it. -/
  lookup : Option InAddr
  setupLookup : Option InAddr
  lastLookup : Option InAddr
  /-- Socket and options could be set up, and the request sent. -/
  opened : Bool
  sent : Bool
  /-- What comes before the alarm, and whether `select` or `recvmsg` fails behind it. -/
  packets : List Reply
  recvFails : Bool

/-- The variables `process_arguments` sets, `mp_timeout` among them. -/
structure Options where
  timeout : UInt32
  hostname : Option (List Char)
  unicast : Bool
  request : UInt32
  type : UInt8

def strcasecmpEq (s t : List Char) : Bool := s.map Char.toLower == t.map Char.toLower

/-- `-T`; `none` is a usage error. -/
def messageTypeOf (optarg : List Char) : Option UInt8 :=
  if strcasecmpEq optarg ['o', 'f', 'f', 'e', 'r'] then some dhcpOffer
  else if strcasecmpEq optarg ['a', 'c', 'k'] then some dhcpAck
  else if strcasecmpEq optarg ['n', 'a', 'k'] then some dhcpNak
  else none

def processArgument (env : Environment) (o : Options) : Argument → Option Options
  | .timeout optarg => some { o with timeout := UInt32.ofInt (strtol 10 optarg) }
  | .hostname optarg =>
      if !env.isHostname optarg && !env.isHostaddr optarg then none
      else some { o with hostname := some optarg }
  -- Behind `case 'm'` there is no `break`.
  | .mac => some { o with unicast := true }
  | .unicast => some { o with unicast := true }
  | .broadcast => some { o with unicast := false }
  | .request optarg =>
      if env.isHostaddr optarg then some { o with request := env.inetAddr optarg } else none
  | .type optarg => (messageTypeOf optarg).map fun type => { o with type := type }

/-- `process_arguments`; `none` is a usage error. -/
def processArguments (env : Environment) (arguments : List Argument) : Option Options := do
  let o ← arguments.foldlM (processArgument env)
    { timeout := 10, hostname := none, unicast := false, request := 0, type := 0 }
  if o.unicast && o.hostname.isNone then none
  else if o.type = 0 then
    some { o with type := if o.request ≠ 0 then dhcpAck else dhcpOffer }
  else some o

/-- The exit switch: it has a case for these types. -/
def isAnswer (type : UInt8) : Bool := type == dhcpOffer || type == dhcpAck || type == dhcpNak

/-- `opt->data.uint8` of the MessageType option, if there is one. No result for a
read outside the options. -/
def messageType (pkt : Reply) : Option (Option UInt8) := do
  match ← mpDhcpPktGetopt pkt.toDhcpPkt dhcpoptMessageType with
  | none => some none
  | some i => (load pkt.opts (i + 2)).map some

def loadAddr (b : Block) (i : Nat) : Option InAddr := do
  some { first := ← load b i, second := ← load b (i + 1), third := ← load b (i + 2),
         fourth := ← load b (i + 3) }

/-- The test of the server in host mode. -/
def fromServer (hostname : List Char) (address : InAddr) (pkt : Reply) : Option Bool := do
  match ← mpDhcpPktGetopt pkt.toDhcpPkt dhcpoptServerId with
  | some i => (loadAddr pkt.opts (i + 2)).map fun found => found == address
  | none => some (hostname == pkt.sname)

/-- Whether the loop exits with OK on a packet. `host` is the name with its address,
given when there is a host name and the last lookup of it went well. -/
def accepts (host : Option (List Char × InAddr)) (type : UInt8) (pkt : Reply) : Option Bool :=
  match host with
  | some (hostname, address) => do
      if ← fromServer hostname address pkt then
        match ← messageType pkt with
        | none => some false
        | some found =>
            if found = type then some (isAnswer type)
            else some (isAnswer found)
      else some false
  | none => do
      match ← messageType pkt with
      | none => some false
      | some found => if found = type then some (isAnswer type) else some false

/-- How the plugin ends, and the packets it received. No status stands for a
crash. -/
structure Ending where
  status : Option Status
  received : List Reply

/-- The exits behind the loop. -/
def exitBehind (hostname : Option (List Char)) (type : UInt8) : Status :=
  if hostname.isSome then .critical else if isAnswer type then .ok else .critical

/-- The loop, and what comes behind it. `ends` tells that `mp_dhcp_recv` returns NULL at last;
if it does not, the alarm ends the plugin. -/
def receiveLoop (ends : Bool) (hostname : Option (List Char))
    (host : Option (List Char × InAddr)) (type : UInt8) : List Reply → Ending
  | [] => { status := some (if ends then exitBehind hostname type else .critical), received := [] }
  | pkt :: packets =>
      match accepts host type pkt with
      | none => { status := none, received := [pkt] }
      | some true => { status := some .ok, received := [pkt] }
      | some false =>
          let ending := receiveLoop ends hostname host type packets
          { ending with received := pkt :: ending.received }

/-- `mp_dhcp_recv` returns NULL where it fails. Its `select` is only over before the alarm
where there is none: both take `mp_timeout`, and 0 is no alarm and no waiting. -/
def recvEnds (env : Environment) (o : Options) : Bool := env.recvFails || o.timeout == 0

/-- An exit before the first packet. -/
def earlyExit (env : Environment) (o : Options) : Option Status :=
  if !env.isRoot then some .unknown
  else if o.hostname.isSome && env.lookup.isNone then some .unknown
  else if o.unicast && env.setupLookup.isNone then some .warning
  else if !env.opened then some .critical
  else if !env.sent then some .warning
  else none

def hostOf (env : Environment) (o : Options) : Option (List Char × InAddr) :=
  o.hostname.bind fun hostname => env.lastLookup.map fun address => (hostname, address)

/-- `main`. -/
def checkDhcp (env : Environment) (arguments : List Argument) : Ending :=
  match processArguments env arguments with
  | none => { status := some .unknown, received := [] }
  | some o =>
      match earlyExit env o with
      | some status => { status := some status, received := [] }
      | none => receiveLoop (recvEnds env o) o.hostname (hostOf env o) o.type env.packets

/-- The address `-H` was resolved to, the last time that it was. -/
def resolved (env : Environment) : Option InAddr := env.lastLookup.or env.lookup

/-- A packet that was asked for: of the expected type, and from the host that was
given. -/
def AskedFor (env : Environment) (o : Options) (pkt : Reply) : Prop :=
  messageType pkt = some (some o.type) ∧ ∀ hostname, o.hostname = some hostname →
    ∃ address, resolved env = some address ∧ fromServer hostname address pkt = some true

/-- OK is only reported for a packet that was asked for. -/
def ReportsAskedFor (env : Environment) (arguments : List Argument) : Prop :=
  (checkDhcp env arguments).status = some .ok →
    ∃ o, processArguments env arguments = some o ∧
      ∃ pkt ∈ (checkDhcp env arguments).received, AskedFor env o pkt

/-- The first packet the loop does not pass over. -/
def firstTaken (host : Option (List Char × InAddr)) (type : UInt8) (packets : List Reply) :
    Option Reply :=
  packets.find? fun pkt => accepts host type pkt != some false

/-- Without a host name there is an alarm and no call fails before it, or some packet has
the expected type, or cannot be read. With one, the first packet from the host that is an
answer has that type; and if the last lookup failed, the first packet of the type is from
the host. -/
def Settled (env : Environment) (o : Options) : Prop :=
  match o.hostname, env.lastLookup with
  | none, _ =>
      (o.timeout ≠ 0 ∧ env.recvFails = false) ∨
        ∃ pkt ∈ env.packets, messageType pkt = some (some o.type) ∨ messageType pkt = none
  | some hostname, some address =>
      ∀ pkt, firstTaken (some (hostname, address)) o.type env.packets = some pkt →
        fromServer hostname address pkt = some true →
        ∀ found, messageType pkt = some (some found) → found = o.type
  | some hostname, none =>
      ∀ pkt, firstTaken none o.type env.packets = some pkt →
        messageType pkt = some (some o.type) →
        ∃ address, env.lookup = some address ∧ fromServer hostname address pkt = some true

section Arguments

variable {env : Environment}

theorem messageTypeOf_isAnswer {optarg : List Char} {type : UInt8}
    (h : messageTypeOf optarg = some type) : isAnswer type = true := by
  unfold messageTypeOf at h
  split_ifs at h
  · cases h
    rfl
  · cases h
    rfl
  · cases h
    rfl

/-- A type that was set is one of the exit switch. -/
theorem processArgument_type {o o' : Options} {argument : Argument}
    (h : processArgument env o argument = some o') (hType : o.type = 0 ∨ isAnswer o.type = true) :
    o'.type = 0 ∨ isAnswer o'.type = true := by
  cases argument with
  | timeout optarg =>
      cases h
      exact hType
  | hostname optarg =>
      simp only [processArgument] at h
      split_ifs at h
      cases h
      exact hType
  | mac =>
      cases h
      exact hType
  | unicast =>
      cases h
      exact hType
  | broadcast =>
      cases h
      exact hType
  | request optarg =>
      simp only [processArgument] at h
      split_ifs at h
      cases h
      exact hType
  | type optarg =>
      obtain ⟨type, hSome, rfl⟩ := Option.map_eq_some_iff.mp h
      exact Or.inr (messageTypeOf_isAnswer hSome)

theorem foldlM_type (arguments : List Argument) {o o' : Options}
    (h : arguments.foldlM (processArgument env) o = some o')
    (hType : o.type = 0 ∨ isAnswer o.type = true) : o'.type = 0 ∨ isAnswer o'.type = true := by
  apply foldlM_invariant (P := fun o => o.type = 0 ∨ isAnswer o.type = true) _ hType h
  intro o argument next hBefore hNext
  exact processArgument_type hNext hBefore

/-- The expected type is one of the exit switch. -/
theorem processArguments_isAnswer {arguments : List Argument} {o : Options}
    (h : processArguments env arguments = some o) : isAnswer o.type = true := by
  obtain ⟨set, hSet, hRest⟩ := Option.bind_eq_some_iff.mp h
  have hType := foldlM_type arguments hSet (Or.inl rfl)
  split_ifs at hRest with hUsage hUnset hRequest
  · cases hRest
    rfl
  · cases hRest
    rfl
  · cases hRest
    exact hType.resolve_left hUnset

theorem earlyExit_ne_ok {o : Options} {status : Status} (h : earlyExit env o = some status) :
    status ≠ .ok := by
  unfold earlyExit at h
  split_ifs at h
  · cases h
    exact nofun
  · cases h
    exact nofun
  · cases h
    exact nofun
  · cases h
    exact nofun
  · cases h
    exact nofun

end Arguments

section Loop

variable {type : UInt8} {pkt : Reply} {hostname : List Char} {address : InAddr}

theorem accepts_anyone (hType : isAnswer type = true) :
    accepts none type pkt = (messageType pkt).map fun found => found == some type := by
  cases hMessage : messageType pkt with
  | none => simp [accepts, hMessage]
  | some found =>
      cases found with
      | none => simp [accepts, hMessage]
      | some code =>
          by_cases hSame : code = type
          · simp [accepts, hMessage, hSame, hType]
          · simp [accepts, hMessage, hSame]

/-- In host mode any answer of the server is accepted: the type that was asked for
makes no difference. -/
theorem accepts_host :
    accepts (some (hostname, address)) type pkt =
      (fromServer hostname address pkt).bind fun same =>
        if same then (messageType pkt).map fun found => found.any isAnswer else some false := by
  cases hServer : fromServer hostname address pkt with
  | none => simp [accepts, hServer]
  | some same =>
      cases same with
      | false => simp [accepts, hServer]
      | true =>
          cases hMessage : messageType pkt with
          | none => simp [accepts, hServer, hMessage]
          | some found =>
              cases found with
              | none => simp [accepts, hServer, hMessage]
              | some code =>
                  by_cases hSame : code = type
                  · simp [accepts, hServer, hMessage, hSame]
                  · simp [accepts, hServer, hMessage, hSame]

/-- The loop passes over all packets. -/
structure PassesAll (ends : Bool) (given : Option (List Char))
    (host : Option (List Char × InAddr)) (type : UInt8) (packets : List Reply) : Prop where
  first : firstTaken host type packets = none
  status : (receiveLoop ends given host type packets).status =
    some (if ends && given.isNone then .ok else .critical)
  passed : ∀ pkt ∈ (receiveLoop ends given host type packets).received,
    accepts host type pkt = some false

/-- The loop ends on a packet, and passes over those in front of it. -/
structure EndsOn (ends : Bool) (given : Option (List Char))
    (host : Option (List Char × InAddr)) (type : UInt8) (packets : List Reply)
    (pkt : Reply) : Prop where
  first : firstTaken host type packets = some pkt
  mem : pkt ∈ packets
  taken : accepts host type pkt ≠ some false
  status : (receiveLoop ends given host type packets).status = some .ok ↔
    accepts host type pkt = some true
  received : pkt ∈ (receiveLoop ends given host type packets).received
  passed : ∀ other ∈ (receiveLoop ends given host type packets).received,
    other = pkt ∨ accepts host type other = some false

variable {ends : Bool} {given : Option (List Char)} {host : Option (List Char × InAddr)} {packets : List Reply}

theorem firstTaken_passed (packets : List Reply) (h : accepts host type pkt = some false) :
    firstTaken host type (pkt :: packets) = firstTaken host type packets := by
  simp [firstTaken, h]

theorem receiveLoop_passed (ends : Bool) (given : Option (List Char)) (packets : List Reply)
    (h : accepts host type pkt = some false) :
    receiveLoop ends given host type (pkt :: packets) =
      { status := (receiveLoop ends given host type packets).status
        received := pkt :: (receiveLoop ends given host type packets).received } := by
  simp [receiveLoop, h]

theorem endsOn_head (h : accepts host type pkt ≠ some false) :
    EndsOn ends given host type (pkt :: packets) pkt := by
  have hFirst : firstTaken host type (pkt :: packets) = some pkt := by simp [firstTaken, h]
  cases hAccepts : accepts host type pkt with
  | none =>
      exact ⟨hFirst, List.mem_cons_self, h, by simp [receiveLoop, hAccepts],
        by simp [receiveLoop, hAccepts], by simp [receiveLoop, hAccepts]⟩
  | some taken =>
      cases taken with
      | false => exact absurd hAccepts h
      | true =>
          exact ⟨hFirst, List.mem_cons_self, h, by simp [receiveLoop, hAccepts],
            by simp [receiveLoop, hAccepts], by simp [receiveLoop, hAccepts]⟩

/-- How the loop ends, by the first packet it does not pass over. -/
theorem receiveLoop_ends (ends : Bool) (given : Option (List Char))
    (host : Option (List Char × InAddr)) (hType : isAnswer type = true) (packets : List Reply) :
    PassesAll ends given host type packets ∨ ∃ pkt, EndsOn ends given host type packets pkt := by
  induction packets with
  | nil =>
      refine Or.inl ⟨rfl, ?_, by simp [receiveLoop]⟩
      rw [receiveLoop, exitBehind, hType]
      cases ends <;> cases given <;> rfl
  | cons pkt packets ih =>
      by_cases hPassed : accepts host type pkt = some false
      · have hFirst := firstTaken_passed packets hPassed
        have hLoop := receiveLoop_passed ends given packets hPassed
        rcases ih with hAll | ⟨taken, hEnds⟩
        · refine Or.inl ⟨hFirst.trans hAll.first, by rw [hLoop]; exact hAll.status, ?_⟩
          rw [hLoop]
          intro other hOther
          rcases List.mem_cons.mp hOther with rfl | hMore
          · exact hPassed
          · exact hAll.passed other hMore
        · refine Or.inr ⟨taken, hFirst.trans hEnds.first, List.mem_cons_of_mem _ hEnds.mem,
            hEnds.taken, by rw [hLoop]; exact hEnds.status, ?_, ?_⟩
          · rw [hLoop]
            exact List.mem_cons_of_mem _ hEnds.received
          · rw [hLoop]
            intro other hOther
            rcases List.mem_cons.mp hOther with rfl | hMore
            · exact Or.inr hPassed
            · exact hEnds.passed other hMore
      · exact Or.inr ⟨pkt, endsOn_head hPassed⟩

end Loop

section Report

variable {env : Environment} {o : Options} {pkt : Reply}

theorem hostOf_anyone (hName : o.hostname = none) : hostOf env o = none := by
  simp [hostOf, hName]

theorem hostOf_unresolved (hLast : env.lastLookup = none) : hostOf env o = none := by
  simp [hostOf, hLast]

theorem hostOf_server {hostname : List Char} {address : InAddr}
    (hName : o.hostname = some hostname) (hLast : env.lastLookup = some address) :
    hostOf env o = some (hostname, address) := by
  simp [hostOf, hName, hLast]

/-- The loop does not pass over a packet that was asked for. -/
theorem AskedFor.not_passed (h : AskedFor env o pkt) (hType : isAnswer o.type = true) :
    accepts (hostOf env o) o.type pkt ≠ some false := by
  obtain ⟨hMessage, hHost⟩ := h
  cases hGiven : hostOf env o with
  | none =>
      rw [accepts_anyone hType, hMessage]
      simp
  | some host =>
      obtain ⟨hostname, hName, hLast⟩ := Option.bind_eq_some_iff.mp hGiven
      obtain ⟨address, hAddress, rfl⟩ := Option.map_eq_some_iff.mp hLast
      obtain ⟨same, hResolved, hServer⟩ := hHost hostname hName
      rw [resolved, hAddress, Option.some_or] at hResolved
      cases hResolved
      rw [accepts_host, hServer, hMessage]
      simp [hType]

/-- Of the packet the loop ends on with OK: it was asked for just when the
condition holds for it. -/
theorem settled_iff_of_accepted (hType : isAnswer o.type = true)
    (hFirst : firstTaken (hostOf env o) o.type env.packets = some pkt) (hMem : pkt ∈ env.packets)
    (hAccepts : accepts (hostOf env o) o.type pkt = some true) :
    AskedFor env o pkt ↔ Settled env o := by
  unfold Settled
  cases hName : o.hostname with
  | none =>
      rw [hostOf_anyone hName, accepts_anyone hType] at hAccepts
      have hMessage : messageType pkt = some (some o.type) := by simpa using hAccepts
      have hAsked : AskedFor env o pkt := ⟨hMessage, fun hostname hSome => by simp [hName] at hSome⟩
      exact ⟨fun _ => Or.inr ⟨pkt, hMem, Or.inl hMessage⟩, fun _ => hAsked⟩
  | some hostname =>
      cases hLast : env.lastLookup with
      | none =>
          rw [hostOf_unresolved hLast] at hFirst hAccepts
          rw [accepts_anyone hType] at hAccepts
          have hMessage : messageType pkt = some (some o.type) := by simpa using hAccepts
          simp only [AskedFor, resolved, hName, hLast, Option.none_or, hFirst]
          constructor
          · rintro ⟨_, hServer⟩ other hOther _
            cases hOther
            exact hServer hostname rfl
          · intro hSettled
            refine ⟨hMessage, fun other hOther => ?_⟩
            cases hOther
            exact hSettled pkt rfl hMessage
      | some address =>
          rw [hostOf_server hName hLast] at hFirst hAccepts
          rw [accepts_host] at hAccepts
          obtain ⟨same, hServer, hRest⟩ := Option.bind_eq_some_iff.mp hAccepts
          cases same with
          | false => simp at hRest
          | true =>
              obtain ⟨found, hMessage, hAnswer⟩ := Option.map_eq_some_iff.mp hRest
              simp only [AskedFor, resolved, hName, hLast, Option.some_or, hFirst]
              constructor
              · rintro ⟨hSame, _⟩ other hOther _ code hCode
                cases hOther
                rw [hSame] at hCode
                cases hCode
                rfl
              · intro hSettled
                cases found with
                | none => simp at hAnswer
                | some code =>
                    rw [hSettled pkt rfl hServer code hMessage] at hMessage
                    refine ⟨hMessage, fun other hOther => ?_⟩
                    cases hOther
                    exact ⟨address, rfl, hServer⟩

/-- A packet that cannot be read ends the plugin without a report. -/
theorem settled_of_fault (hType : isAnswer o.type = true)
    (hFirst : firstTaken (hostOf env o) o.type env.packets = some pkt) (hMem : pkt ∈ env.packets)
    (hFault : accepts (hostOf env o) o.type pkt = none) : Settled env o := by
  unfold Settled
  cases hName : o.hostname with
  | none =>
      rw [hostOf_anyone hName, accepts_anyone hType, Option.map_eq_none_iff] at hFault
      exact Or.inr ⟨pkt, hMem, Or.inr hFault⟩
  | some hostname =>
      cases hLast : env.lastLookup with
      | none =>
          rw [hostOf_unresolved hLast] at hFirst hFault
          rw [accepts_anyone hType, Option.map_eq_none_iff] at hFault
          intro other hOther hMessage
          rw [hFirst] at hOther
          cases hOther
          rw [hFault] at hMessage
          cases hMessage
      | some address =>
          rw [hostOf_server hName hLast] at hFirst hFault
          intro other hOther hServer found hMessage
          rw [hFirst] at hOther
          cases hOther
          rw [accepts_host, hServer, hMessage] at hFault
          cases hFault

theorem recvEnds_eq_false : recvEnds env o = false ↔ o.timeout ≠ 0 ∧ env.recvFails = false := by
  rw [recvEnds, Bool.or_eq_false_iff, beq_eq_false_iff_ne, and_comm]

theorem settled_of_none (hType : isAnswer o.type = true)
    (hFirst : firstTaken (hostOf env o) o.type env.packets = none) :
    Settled env o ↔ (recvEnds env o && o.hostname.isNone) = false := by
  unfold Settled
  cases hName : o.hostname with
  | none =>
      rw [hostOf_anyone hName, firstTaken, List.find?_eq_none] at hFirst
      rw [Option.isNone_none, Bool.and_true, recvEnds_eq_false, or_iff_left]
      rintro ⟨pkt, hMem, hMessage⟩
      have hPassed := hFirst pkt hMem
      rw [accepts_anyone hType] at hPassed
      rcases hMessage with hMessage | hMessage
      · simp [hMessage] at hPassed
      · simp [hMessage] at hPassed
  | some hostname =>
      cases hLast : env.lastLookup with
      | none =>
          rw [hostOf_unresolved hLast] at hFirst
          simp [hFirst]
      | some address =>
          rw [hostOf_server hName hLast] at hFirst
          simp [hFirst]

/-- The loop reports OK only for a packet that was asked for just when the packets
settle it. -/
theorem receiveLoop_reports_iff (env : Environment) (hType : isAnswer o.type = true) :
    let ending := receiveLoop (recvEnds env o) o.hostname (hostOf env o) o.type env.packets
    (ending.status = some .ok → ∃ pkt ∈ ending.received, AskedFor env o pkt) ↔ Settled env o := by
  intro ending
  rcases receiveLoop_ends (recvEnds env o) o.hostname (hostOf env o) hType env.packets with
    hAll | ⟨pkt, hEnds⟩
  · have hStatus : ending.status = _ := hAll.status
    rw [settled_of_none hType hAll.first, hStatus]
    cases recvEnds env o && o.hostname.isNone with
    | false => simp
    | true =>
        refine iff_of_false (fun hReports => ?_) (by simp)
        obtain ⟨pkt, hMem, hAsked⟩ := hReports rfl
        exact hAsked.not_passed hType (hAll.passed pkt hMem)
  · have hStatus : ending.status = some .ok ↔ _ := hEnds.status
    cases hAccepts : accepts (hostOf env o) o.type pkt with
    | none =>
        have hSettled := settled_of_fault hType hEnds.first hEnds.mem hAccepts
        rw [hAccepts] at hStatus
        refine ⟨fun _ => hSettled, fun _ hOk => ?_⟩
        cases hStatus.mp hOk
    | some taken =>
        cases taken with
        | false => exact absurd hAccepts hEnds.taken
        | true =>
            rw [← settled_iff_of_accepted hType hEnds.first hEnds.mem hAccepts]
            constructor
            · intro hReports
              obtain ⟨other, hOther, hAsked⟩ := hReports (hStatus.mpr hAccepts)
              rcases hEnds.passed other hOther with rfl | hPassed
              · exact hAsked
              · exact absurd hPassed (hAsked.not_passed hType)
            · exact fun hAsked _ => ⟨pkt, hEnds.received, hAsked⟩

/-- A root's surroundings in which everything goes well. -/
def sampleEnvironment (packets : List Reply) : Environment where
  isHostname _ := true
  isHostaddr _ := false
  inetAddr _ := 0
  isRoot := true
  lookup := some ⟨10, 0, 0, 1⟩
  setupLookup := some ⟨10, 0, 0, 1⟩
  lastLookup := some ⟨10, 0, 0, 1⟩
  opened := true
  sent := true
  packets := packets
  recvFails := false

/-- A NAK of the server. -/
def refusal : Reply where
  opts := [some 53, some 1, some 6, some 54, some 4, some 10, some 0, some 0, some 1, some 255]
  optlen := 10
  sname := []

/-- Nobody answers: the alarm ends the plugin, which reports OK only where there is none. -/
example :
    (checkDhcp (sampleEnvironment []) []).status = some .critical ∧
      (checkDhcp (sampleEnvironment []) [.timeout ['0']]).status = some .ok := by
  decide

end Report

end MonitoringPlug.Dhcp
