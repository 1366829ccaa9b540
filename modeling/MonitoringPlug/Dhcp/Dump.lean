import MonitoringPlug.Dhcp.Check

/-! `mp_dhcp_pkt_dump`. The index of its walk is a `uint8_t`, `optlen` is an `int`; an
access outside of the options or of the table of message types has no result. -/
namespace MonitoringPlug.Dhcp

open CMemory CLoop

def bootrequest : UInt8 := 1

def dhcpoptSubnetmask : UInt8 := 1
def dhcpoptRouter : UInt8 := 3
def dhcpoptDNS : UInt8 := 6
def dhcpoptHostname : UInt8 := 12
def dhcpoptBroadcast : UInt8 := 28
def dhcpoptClass : UInt8 := 60

def mpDhcpMessageTypes : List String :=
  ["", "Discover", "Offer", "Request", "Decline", "Ack", "Nak", "Release", "Inform"]

/-- The line of the header that names the message. -/
inductive Heading where
  | dhcp (name : String)
  | bootpRequest
  | bootpReply
deriving DecidableEq

/-- A line of the walk. -/
inductive DumpLine where
  | pad
  | address (label : String) (address : InAddr)
  | text (label : String) (bytes : List UInt8)
  | type (name : String)
  | other (code len : UInt8)
  | endMark
deriving DecidableEq

/-- `%.*s`: up to a NUL, but not more than `count` bytes. -/
def loadText (b : Block) (i : Nat) : Nat → Option (List UInt8)
  | 0 => some []
  | count + 1 => do
      let c ← load b i
      if c = 0 then some [] else (loadText b (i + 1) count).map (c :: ·)

/-- `mp_dhcp_message_types[opt->data.uint8]`, for the option at `i`. -/
def messageTypeName (b : Block) (i : Nat) : Option String := do
  let type ← load b (i + 2)
  mpDhcpMessageTypes[type.toNat]?

def dumpHeading (op : UInt8) (pkt : DhcpPkt) : Option Heading := do
  match ← mpDhcpPktGetopt pkt dhcpoptMessageType with
  | some i => (messageTypeName pkt.opts i).map .dhcp
  | none => some (if op = bootrequest then .bootpRequest else .bootpReply)

/-- The `switch`, for an option that is neither Pad nor End. -/
def dumpOption (b : Block) (i : Nat) (code len : UInt8) : Option DumpLine :=
  let address (label : String) := (loadAddr b (i + 2)).map (.address label)
  let text (label : String) := (loadText b (i + 2) len.toNat).map (.text label)
  if code = dhcpoptSubnetmask then address "Subnetmask"
  else if code = dhcpoptRouter then address "Router"
  else if code = dhcpoptDNS then address "Name Server"
  else if code = dhcpoptBroadcast then address "Broadcast"
  else if code = dhcpoptHostname then text "Host Name"
  else if code = dhcpoptMessageType then (messageTypeName b i).map .type
  else if code = dhcpoptServerId then address "DHCPD ID"
  else if code = dhcpoptClass then text "Client Class"
  else some (.other code len)

/-- The index of the walk and the lines printed so far. -/
structure Dumping where
  i : UInt8
  lines : List DumpLine

/-- One pass of the walk. Every assignment to the index is modulo 256. -/
def dumpPass (pkt : DhcpPkt) (s : Dumping) : Pass Dumping (Option (List DumpLine)) :=
  if (s.i.toNat : Int) < pkt.optlen then
    match load pkt.opts s.i.toNat with
    | none => .leave none
    | some code =>
        if code = dhcpoptPad then .again { i := s.i + 1, lines := s.lines ++ [.pad] }
        else if code = dhcpoptEnd then
          .again { i := UInt8.ofNat (pkt.optlen + 1).toNat, lines := s.lines ++ [.endMark] }
        else
          match load pkt.opts (s.i.toNat + 1) with
          | none => .leave none
          | some len =>
              match dumpOption pkt.opts s.i.toNat code len with
              | none => .leave none
              | some line => .again { i := s.i + (len + 2), lines := s.lines ++ [line] }
  else .leave (some s.lines)

/-- The dump comes to an end and has printed this. -/
def Dumps (op : UInt8) (pkt : DhcpPkt) (heading : Heading) (lines : List DumpLine) : Prop :=
  dumpHeading op pkt = some heading ∧
    if 0 < pkt.optlen then Returns (dumpPass pkt) { i := 0, lines := [] } (some lines)
    else lines = []

/-- The line for an item that lies at `offset`. -/
def itemLine (b : Block) (offset : Nat) : Item → Option DumpLine
  | .pad => some .pad
  | .option o => dumpOption b offset o.code (UInt8.ofNat o.data.length)

/-- The lines for items one behind the other. -/
def itemLines (b : Block) : Nat → List Item → Option (List DumpLine)
  | _, [] => some []
  | offset, item :: items => do
      let line ← itemLine b offset item
      let lines ← itemLines b (offset + item.bytes.length) items
      some (line :: lines)

section Walk

variable {pkt : DhcpPkt} {tail : List UInt8}

theorem toNat_ofNat_of_le {n : Nat} (h : n ≤ 255) : (UInt8.ofNat n).toNat = n := by
  rw [UInt8.toNat_ofNat']
  omega

/-- The index behind an option, as the code steps over its data. -/
theorem index_behind_option (front : List UInt8) (o : DhcpOption) :
    UInt8.ofNat front.length + (UInt8.ofNat o.data.length + 2) =
      UInt8.ofNat (front ++ o.bytes).length := by
  have hLength : o.bytes.length = o.data.length + 2 := rfl
  rw [List.length_append, hLength, UInt8.ofNat_add, UInt8.ofNat_add]
  rfl

/-- One item is one line, unless its data cannot be printed. -/
theorem dumpPass_item {front back : List UInt8} (item : Item)
    (h : pkt.HasArea (front ++ (item.bytes ++ back))) (hSmall : front.length ≤ 255)
    (lines : List DumpLine) :
    dumpPass pkt { i := UInt8.ofNat front.length, lines := lines } =
      match itemLine pkt.opts front.length item with
      | none => .leave none
      | some line =>
          .again { i := UInt8.ofNat (front ++ item.bytes).length, lines := lines ++ [line] } := by
  have hIndex := toNat_ofNat_of_le hSmall
  cases item with
  | pad =>
      simp only [Item.bytes, List.cons_append, List.nil_append] at h
      simp [dumpPass, hIndex, h.inside, load_area h.holds, Item.bytes, itemLine]
  | option o =>
      have hNext := index_behind_option front o
      simp only [Item.bytes, DhcpOption.bytes, List.cons_append] at h
      simp only [dumpPass, hIndex, if_pos h.inside, load_area h.holds, load_area_succ h.holds,
        if_neg o.notPad, if_neg o.notEnd, hNext, itemLine, Item.bytes]

theorem dumpPass_end {front : List UInt8} (h : pkt.HasArea (front ++ dhcpoptEnd :: tail))
    (hSmall : front.length ≤ 255) (lines : List DumpLine) :
    dumpPass pkt { i := UInt8.ofNat front.length, lines := lines } =
      .again { i := UInt8.ofNat (pkt.optlen + 1).toNat, lines := lines ++ [.endMark] } := by
  simp only [dumpPass, toNat_ofNat_of_le hSmall, if_pos h.inside, load_area h.holds,
    if_neg dhcpoptEnd_ne_pad, if_true]

/-- As long as the index cannot wrap, the walk prints one line for each item and one for
the End, or gets stuck where an item cannot be printed. -/
theorem returns_dump (items : List Item) {front : List UInt8} (hSmall : pkt.optlen ≤ 254)
    (h : pkt.HasArea (front ++ (areaBytes items ++ dhcpoptEnd :: tail)))
    (lines : List DumpLine) :
    Returns (dumpPass pkt) { i := UInt8.ofNat front.length, lines := lines }
      ((itemLines pkt.opts front.length items).map fun more => lines ++ more ++ [.endMark]) := by
  have hFront : front.length ≤ 255 := by
    have hOptlen := h.optlen
    rw [List.length_append] at hOptlen
    omega
  induction items generalizing front lines with
  | nil =>
      have hAtEnd : pkt.HasArea (front ++ dhcpoptEnd :: tail) := by
        simpa [areaBytes] using h
      have hEnd := dumpPass_end hAtEnd hFront lines
      have hPast : dumpPass pkt
          { i := UInt8.ofNat (pkt.optlen + 1).toNat, lines := lines ++ [.endMark] } =
            .leave (some (lines ++ [.endMark])) := by
        have hPos : 0 ≤ pkt.optlen := by
          rw [h.optlen]
          omega
        rw [dumpPass, toNat_ofNat_of_le (by omega), if_neg (by omega)]
      simpa [itemLines] using (Returns.leave hPast).again hEnd
  | cons item items ih =>
      rw [areaBytes_cons, List.append_assoc] at h
      have hPass := dumpPass_item item h hFront lines
      rw [← List.append_assoc] at h
      have hNext : (front ++ item.bytes).length ≤ 255 := by
        have hOptlen := h.optlen
        rw [List.length_append] at hOptlen
        omega
      cases hLine : itemLine pkt.opts front.length item with
      | none =>
          rw [hLine] at hPass
          simpa [itemLines, hLine] using Returns.leave hPass
      | some line =>
          rw [hLine] at hPass
          have hRest := (ih h (lines ++ [line]) hNext).again hPass
          rw [List.length_append] at hRest
          cases hLines : itemLines pkt.opts (front.length + item.bytes.length) items with
          | none => simpa [itemLines, hLine, hLines] using hRest
          | some more => simpa [itemLines, hLine, hLines] using hRest

/-- Inside of the area the walk is only left by an access outside. -/
theorem leave_inside {s : Dumping} (hInside : (s.i.toNat : Int) < pkt.optlen)
    {result : Option (List DumpLine)} (h : dumpPass pkt s = .leave result) : result = none := by
  rw [dumpPass, if_pos hInside] at h
  split at h
  · cases h
    rfl
  · split_ifs at h
    split at h
    · cases h
      rfl
    · split at h
      · cases h
        rfl
      · cases h

/-- The End of 255 bytes of options sends the walk back to their start. -/
theorem dump_restarts {items : List Item} (hLong : pkt.optlen = 255)
    (h : pkt.HasArea (areaBytes items ++ dhcpoptEnd :: tail)) {finish : Dumping}
    (hReaches : Reaches (dumpPass pkt) { i := 0, lines := [] } finish) :
    ∃ front back, items = front ++ back ∧ finish.i = UInt8.ofNat (areaBytes front).length := by
  have hFits : (areaBytes items).length ≤ 254 := by
    have hOptlen := h.optlen
    rw [hLong, List.length_append, List.length_cons] at hOptlen
    omega
  refine hReaches.invariant
    (fun s => ∃ front back, items = front ++ back ∧ s.i = UInt8.ofNat (areaBytes front).length)
    ⟨[], items, rfl, rfl⟩ ?_
  rintro ⟨i, lines⟩ next - ⟨front, back, hItems, hIndex⟩ hPass
  simp only at hIndex
  subst hIndex
  have hFront : (areaBytes front).length ≤ 254 := by
    rw [hItems, areaBytes_append, List.length_append] at hFits
    omega
  rw [hItems, areaBytes_append, List.append_assoc] at h
  cases back with
  | nil =>
      have hAtEnd : pkt.HasArea (areaBytes front ++ dhcpoptEnd :: tail) := by
        simpa [areaBytes] using h
      rw [dumpPass_end hAtEnd (by omega)] at hPass
      cases hPass
      refine ⟨[], items, rfl, ?_⟩
      rw [hLong]
      rfl
  | cons item back =>
      rw [areaBytes_cons, List.append_assoc] at h
      rw [dumpPass_item item h (by omega)] at hPass
      split at hPass
      · cases hPass
      · cases hPass
        refine ⟨front ++ [item], back, by simp [hItems], ?_⟩
        simp [areaBytes]

/-- From 255 bytes of options on the walk never ends by itself. -/
theorem dump_long {items : List Item} (hLong : 255 ≤ pkt.optlen)
    (h : pkt.HasArea (areaBytes items ++ dhcpoptEnd :: tail)) {result : Option (List DumpLine)}
    (hReturns : Returns (dumpPass pkt) { i := 0, lines := [] } result) : result = none := by
  obtain ⟨finish, hReaches, hLeave⟩ := hReturns.exists_leave
  refine leave_inside ?_ hLeave
  have hByte := finish.i.toNat_lt
  by_cases hExact : pkt.optlen = 255
  · obtain ⟨front, back, hItems, hIndex⟩ := dump_restarts hExact h hReaches
    have hOptlen := h.optlen
    rw [hItems, areaBytes_append, List.length_append, List.length_append,
      List.length_cons] at hOptlen
    rw [hIndex, toNat_ofNat_of_le (by omega)]
    omega
  · omega

end Walk

/-- The options that are printed as an address. -/
def isAddress (code : UInt8) : Bool :=
  [dhcpoptSubnetmask, dhcpoptRouter, dhcpoptDNS, dhcpoptBroadcast, dhcpoptServerId].contains code

/-- What the dump needs of an option at `offset`: the type is one with a name, and the four
bytes of an address lie in the object. -/
structure Printable (b : Block) (offset : Nat) (o : DhcpOption) : Prop where
  type : o.code = dhcpoptMessageType → ∃ type, load b (offset + 2) = some type ∧ type.toNat < 9
  address : isAddress o.code = true → ∃ address, loadAddr b (offset + 2) = some address

section Printed

variable {b : Block} {front back : List UInt8}

theorem loadText_area {bytes : List UInt8} (h : Holds b (front ++ (bytes ++ back))) :
    ∃ text, loadText b front.length bytes.length = some text := by
  induction bytes generalizing front with
  | nil => exact ⟨[], rfl⟩
  | cons c bytes ih =>
      rw [List.cons_append] at h
      have hByte : load b front.length = some c := by
        rw [h.load (by simp)]
        simp
      have hMore : Holds b (front ++ [c] ++ (bytes ++ back)) := by
        simpa using h
      obtain ⟨text, hText⟩ := ih hMore
      rw [List.length_append, List.length_singleton] at hText
      rw [List.length_cons, loadText, hByte]
      by_cases hZero : c = 0
      · exact ⟨[], by simp [hZero]⟩
      · exact ⟨c :: text, by simp [hZero, hText]⟩

theorem messageTypeName_isSome (b : Block) (offset : Nat) :
    (messageTypeName b offset).isSome ↔
      ∃ type, load b (offset + 2) = some type ∧ type.toNat < 9 := by
  have hNames : mpDhcpMessageTypes.length = 9 := rfl
  cases hType : load b (offset + 2) with
  | none => simp [messageTypeName, hType]
  | some type => simp [messageTypeName, hType, hNames]

theorem dumpOption_type (i : Nat) (len : UInt8) :
    dumpOption b i dhcpoptMessageType len = (messageTypeName b i).map .type := rfl

theorem dumpOption_address {code : UInt8} (h : isAddress code = true) (i : Nat) (len : UInt8) :
    ∃ label, dumpOption b i code len = (loadAddr b (i + 2)).map (.address label) := by
  simp only [isAddress, List.contains_iff_mem, List.mem_cons, List.not_mem_nil, or_false] at h
  rcases h with rfl | rfl | rfl | rfl | rfl
  · exact ⟨"Subnetmask", rfl⟩
  · exact ⟨"Router", rfl⟩
  · exact ⟨"Name Server", rfl⟩
  · exact ⟨"Broadcast", rfl⟩
  · exact ⟨"DHCPD ID", rfl⟩

/-- Any other option is printed as a text, or by its code and length. -/
theorem dumpOption_other {code : UInt8} (hType : code ≠ dhcpoptMessageType)
    (hAddress : isAddress code ≠ true) (i : Nat) (len : UInt8) :
    (∃ label, dumpOption b i code len = (loadText b (i + 2) len.toNat).map (.text label)) ∨
      dumpOption b i code len = some (.other code len) := by
  simp only [ne_eq, isAddress, List.contains_iff_mem, List.mem_cons, List.not_mem_nil, or_false,
    not_or] at hAddress
  obtain ⟨hMask, hRouter, hDNS, hBroadcast, hServer⟩ := hAddress
  rw [dumpOption, if_neg hMask, if_neg hRouter, if_neg hDNS, if_neg hBroadcast]
  by_cases hHost : code = dhcpoptHostname
  · exact Or.inl ⟨"Host Name", if_pos hHost⟩
  · rw [if_neg hHost, if_neg hType, if_neg hServer]
    by_cases hClass : code = dhcpoptClass
    · exact Or.inl ⟨"Client Class", if_pos hClass⟩
    · exact Or.inr (if_neg hClass)

theorem dumpOption_isSome (o : DhcpOption) (h : Holds b (front ++ (o.bytes ++ back))) :
    (dumpOption b front.length o.code (UInt8.ofNat o.data.length)).isSome ↔
      Printable b front.length o := by
  by_cases hType : o.code = dhcpoptMessageType
  · have hNone : isAddress o.code ≠ true := by
      rw [hType]
      decide
    rw [hType, dumpOption_type, Option.isSome_map, messageTypeName_isSome]
    exact ⟨fun hName => ⟨fun _ => hName, fun hAddress => absurd hAddress hNone⟩,
      fun hPrintable => hPrintable.type hType⟩
  · by_cases hAddress : isAddress o.code = true
    · obtain ⟨label, hLine⟩ := dumpOption_address (b := b) hAddress front.length
        (UInt8.ofNat o.data.length)
      rw [hLine, Option.isSome_map, Option.isSome_iff_exists]
      exact ⟨fun hLoad => ⟨fun hCode => absurd hCode hType, fun _ => hLoad⟩,
        fun hPrintable => hPrintable.address hAddress⟩
    · have hPrintable : Printable b front.length o :=
        ⟨fun hCode => absurd hCode hType, fun hCode => absurd hCode hAddress⟩
      obtain ⟨text, hText⟩ : ∃ text, loadText b (front.length + 2) o.data.length = some text := by
        have hData : Holds b
            ((front ++ [o.code, UInt8.ofNat o.data.length]) ++ (o.data ++ back)) := by
          simpa [DhcpOption.bytes] using h
        simpa using loadText_area hData
      refine ⟨fun _ => hPrintable, fun _ => ?_⟩
      rcases dumpOption_other (b := b) hType hAddress front.length
        (UInt8.ofNat o.data.length) with ⟨label, hLine⟩ | hLine
      · rw [hLine, o.len_toNat, hText]
        rfl
      · rw [hLine]
        rfl

/-- The items can be shown when each option among them can. -/
theorem itemLines_isSome (items : List Item) (h : Holds b (front ++ (areaBytes items ++ back))) :
    (itemLines b front.length items).isSome ↔
      ∀ before o after, items = before ++ Item.option o :: after →
        Printable b (front ++ areaBytes before).length o := by
  induction items generalizing front with
  | nil => simp [itemLines]
  | cons item items ih =>
      rw [areaBytes_cons, List.append_assoc] at h
      have hBehind : Holds b (front ++ item.bytes ++ (areaBytes items ++ back)) := by
        simpa using h
      have hRest := ih hBehind
      have hFirst : (itemLine b front.length item).isSome ↔
          ∀ o, item = .option o → Printable b front.length o := by
        cases item with
        | pad => simp [itemLine]
        | option o =>
            rw [itemLine, dumpOption_isSome o h]
            simp
      have hBoth : (itemLines b front.length (item :: items)).isSome ↔
          (itemLine b front.length item).isSome ∧
            (itemLines b (front ++ item.bytes).length items).isSome := by
        rw [List.length_append]
        cases hLine : itemLine b front.length item <;>
          cases hLines : itemLines b (front.length + item.bytes.length) items <;>
          simp [itemLines, hLine, hLines]
      rw [hBoth, hFirst, hRest]
      constructor
      · rintro ⟨hOwn, hLater⟩ before o after hSplit
        cases before with
        | nil =>
            cases hSplit
            simpa [areaBytes] using hOwn o rfl
        | cons first before =>
            cases hSplit
            simpa [areaBytes] using hLater before o after rfl
      · intro hAll
        refine ⟨fun o hItem => ?_, fun before o after hSplit => ?_⟩
        · simpa [areaBytes] using hAll [] o items (by rw [hItem]; rfl)
        · simpa [areaBytes] using hAll (item :: before) o after (by rw [hSplit]; rfl)

end Printed

/-- The dump comes to an end, prints each option in front of the End once and in order, and
takes the names of message types from the table only. -/
def DumpsOptions (op : UInt8) (pkt : DhcpPkt) : Prop :=
  ∃ heading lines, Dumps op pkt heading lines ∧
    ∀ items tail, pkt.HasArea (areaBytes items ++ dhcpoptEnd :: tail) →
      ∃ shown, itemLines pkt.opts 0 items = some shown ∧ lines = shown ++ [.endMark]

/-- Less than 255 bytes of options, all of them printable. -/
def Dumpable (pkt : DhcpPkt) : Prop :=
  pkt.optlen ≤ 254 ∧ ∀ front o back tail,
    pkt.HasArea (areaBytes (front ++ Item.option o :: back) ++ dhcpoptEnd :: tail) →
      Printable pkt.opts (areaBytes front).length o

/-- A packet that `mp_dhcp_recv` returns, or that `mp_dhcp_pkt_opt` built. -/
def ReceivedOrBuilt (pkt : DhcpPkt) : Prop :=
  (∃ xid arrivals, mpDhcpRecv xid arrivals = some (some pkt)) ∨
    ∃ calls, appendOpts calls emptyPkt = some pkt

/-- A packet without options, or with items in front of an End. -/
def WellFormed (pkt : DhcpPkt) : Prop :=
  pkt.optlen ≤ 0 ∨ ∃ items tail, pkt.HasArea (areaBytes items ++ dhcpoptEnd :: tail)

section Sources

theorem Acceptable.wellFormed {buffer datagram : List UInt8} (h : Acceptable datagram) :
    WellFormed (receivedPkt buffer datagram) := by
  by_cases hNone : receivedArea datagram = []
  · refine Or.inl (Int.not_lt.mp fun hPos => ?_)
    exact (receivedPkt_optlen_pos buffer datagram).mp hPos hNone
  · obtain ⟨-, items, tail, hArea⟩ := h.resolve_left hNone
    exact Or.inr ⟨items, tail, hArea ▸ receivedPkt_hasArea buffer hNone⟩

/-- What one pass of the receive loop returns is acceptable. -/
theorem receive_returned {xid datagram : List UInt8} {pkt : DhcpPkt}
    (h : receive zeroBuffer xid datagram = some (some pkt)) :
    Acceptable datagram ∧ pkt = receivedPkt zeroBuffer datagram := by
  have hOp : headerOp datagram = bootreply := by
    by_contra hOther
    simp [receive, hOther] at h
  have hXid : headerXid datagram = xid := by
    by_contra hOther
    simp [receive, hOp, hOther] at h
  have hSafe : ¬ ReadsBehindBuffer datagram := by
    rintro ⟨hCookie, hLone⟩
    rw [receive_loneCode hOp hXid zeroBuffer_length hLone hCookie] at h
    cases h
  rcases receive_dropped_or_returned xid hSafe with hDropped | ⟨-, -, hAccept, hReturned⟩
  · rw [hDropped] at h
    cases h
  · rw [hReturned] at h
    cases h
    exact ⟨hAccept, rfl⟩

/-- Every packet the loop returns is one of the datagrams, and acceptable. -/
theorem mpDhcpRecv_acceptable {xid : List UInt8} {arrivals : List Arrival} {pkt : DhcpPkt}
    (h : mpDhcpRecv xid arrivals = some (some pkt)) :
    ∃ datagram, Acceptable datagram ∧ pkt = receivedPkt zeroBuffer datagram := by
  induction arrivals with
  | nil => cases h
  | cons arrival arrivals ih =>
      cases arrival with
      | error => cases h
      | datagram datagram =>
          rw [mpDhcpRecv] at h
          cases hOne : receive zeroBuffer xid datagram with
          | none =>
              rw [hOne] at h
              cases h
          | some verdict =>
              rw [hOne] at h
              cases verdict with
              | none => exact ih h
              | some found =>
                  cases h
                  exact ⟨datagram, receive_returned hOne⟩

theorem ReceivedOrBuilt.wellFormed {pkt : DhcpPkt} (h : ReceivedOrBuilt pkt) :
    WellFormed pkt := by
  rcases h with ⟨xid, arrivals, hReceived⟩ | ⟨calls, hBuilt⟩
  · obtain ⟨datagram, hAccept, rfl⟩ := mpDhcpRecv_acceptable hReceived
    exact hAccept.wellFormed
  · have hStart : emptyPkt.HasArea (builtArea []) := ⟨Holds.nil _, rfl⟩
    obtain ⟨pkt', hRun, hArea⟩ := appendOpts_area calls hStart
    cases hBuilt.symm.trans hRun
    rw [List.nil_append, builtArea] at hArea
    split at hArea
    · refine Or.inl ?_
      rw [hArea.optlen]
      simp
    · exact Or.inr ⟨_, [], hArea⟩

end Sources

theorem dumpHeading_no_options (op : UInt8) {pkt : DhcpPkt} (h : pkt.optlen ≤ 0) :
    ∃ heading, dumpHeading op pkt = some heading := by
  simp [dumpHeading, getopt_no_options (Int.not_lt.mpr h)]

/-- The type that the heading names is that of the first MessageType option. -/
theorem dumpHeading_area (op : UInt8) {pkt : DhcpPkt} {items : List Item} {tail : List UInt8}
    (h : pkt.HasArea (areaBytes items ++ dhcpoptEnd :: tail))
    (hPrintable : ∀ front o back, items = front ++ Item.option o :: back →
      Printable pkt.opts (areaBytes front).length o) :
    ∃ heading, dumpHeading op pkt = some heading := by
  have hPad : dhcpoptMessageType ≠ dhcpoptPad := by decide
  rcases getopt_area h hPad (by decide) with
    ⟨-, hNull⟩ | ⟨front, o, back, hSplit, hCode, -, hFound⟩
  · simp [dumpHeading, hNull]
  · have hName := (hPrintable front o back hSplit).type hCode
    rw [← messageTypeName_isSome, Option.isSome_iff_exists] at hName
    obtain ⟨name, hName⟩ := hName
    simp [dumpHeading, hFound, hName]

theorem long_not_dumped (op : UInt8) {pkt : DhcpPkt} {items : List Item} {tail : List UInt8}
    (h : pkt.HasArea (areaBytes items ++ dhcpoptEnd :: tail)) (hLong : 255 ≤ pkt.optlen) :
    ¬ DumpsOptions op pkt := by
  rintro ⟨heading, lines, ⟨-, hWalk⟩, -⟩
  rw [if_pos (by omega)] at hWalk
  cases dump_long hLong h hWalk

/-- A received or built packet is dumped as it should be exactly when it has less than 255
bytes of options, the value of each MessageType option has a name and each address lies in
the object. -/
theorem dumpsOptions_iff (op : UInt8) {pkt : DhcpPkt} (h : ReceivedOrBuilt pkt) :
    DumpsOptions op pkt ↔ Dumpable pkt := by
  rcases h.wellFormed with hNone | ⟨items, tail, hArea⟩
  · have hNoArea : ∀ items tail, ¬ pkt.HasArea (areaBytes items ++ dhcpoptEnd :: tail) := by
      intro items tail hArea
      have hOptlen := hArea.optlen
      rw [List.length_append, List.length_cons] at hOptlen
      omega
    obtain ⟨heading, hHeading⟩ := dumpHeading_no_options op hNone
    have hDumps : Dumps op pkt heading [] := by
      refine ⟨hHeading, ?_⟩
      rw [if_neg (Int.not_lt.mpr hNone)]
    exact ⟨fun _ => ⟨by omega, fun front o back tail hArea => absurd hArea (hNoArea _ _)⟩,
      fun _ => ⟨heading, [], hDumps, fun items tail hArea => absurd hArea (hNoArea _ _)⟩⟩
  · have hPos : 0 < pkt.optlen := by
      rw [hArea.optlen, List.length_append, List.length_cons]
      omega
    constructor
    · intro hDumps
      have hShort : pkt.optlen ≤ 254 := by
        by_contra hLong
        exact long_not_dumped op hArea (by omega) hDumps
      obtain ⟨heading, lines, -, hLines⟩ := hDumps
      refine ⟨hShort, fun front o back tail hOther => ?_⟩
      obtain ⟨shown, hShown, -⟩ := hLines _ tail hOther
      have hHolds : Holds pkt.opts ([] ++ _) := hOther.holds
      have hAll := (itemLines_isSome _ hHolds).mp (by
        rw [List.length_nil, hShown]
        rfl)
      exact hAll front o back rfl
    · rintro ⟨hShort, hPrintable⟩
      have hOwn : ∀ front o back, items = front ++ Item.option o :: back →
          Printable pkt.opts (areaBytes front).length o := by
        rintro front o back rfl
        exact hPrintable front o back tail hArea
      obtain ⟨heading, hHeading⟩ := dumpHeading_area op hArea hOwn
      have hStart : pkt.HasArea ([] ++ (areaBytes items ++ dhcpoptEnd :: tail)) := hArea
      have hSome := (itemLines_isSome items hStart.holds).mpr hOwn
      obtain ⟨shown, hShown⟩ := Option.isSome_iff_exists.mp hSome
      have hWalk := returns_dump items hShort hStart []
      rw [hShown] at hWalk
      refine ⟨heading, shown ++ [.endMark], ⟨hHeading, ?_⟩, fun items' tail' hOther => ?_⟩
      · rw [if_pos hPos]
        exact hWalk
      · -- The walk is the same one, so other items would be printed as the same lines.
        have hStart' : pkt.HasArea ([] ++ (areaBytes items' ++ dhcpoptEnd :: tail')) := hOther
        have hSame := hWalk.unique (returns_dump items' hShort hStart' [])
        cases hShown' : itemLines pkt.opts 0 items' with
        | none => simp [hShown'] at hSame
        | some shown' => exact ⟨shown', rfl, by simpa [hShown'] using hSame⟩

theorem discover_short : [(1 : UInt8)].length ≤ 255 := by decide

/-- A request with its type alone. -/
def discoverCalls : List DhcpOption :=
  [{ code := dhcpoptMessageType, data := [1], notPad := by decide, notEnd := by decide,
     short := discover_short }]

def discoverPkt : DhcpPkt := { opts := [some 53, some 1, some 1, some 255], optlen := 4 }

theorem discoverPkt_hasArea :
    discoverPkt.HasArea (areaBytes (optItems discoverCalls) ++ dhcpoptEnd :: []) :=
  ⟨⟨[], rfl⟩, rfl⟩

theorem dumpsOptions_discover : DumpsOptions bootrequest discoverPkt := by
  have hBuilt : ReceivedOrBuilt discoverPkt := Or.inr ⟨discoverCalls, rfl⟩
  refine (dumpsOptions_iff bootrequest hBuilt).mpr ⟨by decide, fun front o back tail hArea => ?_⟩
  obtain ⟨hItems, -⟩ := areaBytes_end_inj (hArea.unique discoverPkt_hasArea)
  cases front with
  | nil =>
      cases hItems
      exact ⟨fun _ => ⟨1, rfl, by decide⟩, fun hAddress => absurd hAddress (by decide)⟩
  | cons first front =>
      injection hItems with _ hNone
      cases front <;> cases hNone

/-- A received packet whose options are items in front of an End. -/
theorem received_replyWith {items : List Item} {tail : List UInt8}
    (hFits : (areaBytes items ++ dhcpoptEnd :: tail).length ≤ dhcpminoptlen) :
    mpDhcpRecv [0, 0, 0, 0] [.datagram (replyWith (areaBytes items ++ dhcpoptEnd :: tail))] =
        some (some (receivedPkt zeroBuffer (replyWith (areaBytes items ++ dhcpoptEnd :: tail)))) ∧
      (receivedPkt zeroBuffer (replyWith (areaBytes items ++ dhcpoptEnd :: tail))).HasArea
        (areaBytes items ++ dhcpoptEnd :: tail) := by
  have hArea := receivedArea_replyWith hFits
  have hSome : receivedArea (replyWith (areaBytes items ++ dhcpoptEnd :: tail)) ≠ [] := by
    rw [hArea]
    simp
  have hHolds := receivedPkt_hasArea zeroBuffer hSome
  rw [hArea] at hHolds
  refine ⟨?_, hHolds⟩
  have hReceive : receive zeroBuffer [0, 0, 0, 0]
      (replyWith (areaBytes items ++ dhcpoptEnd :: tail)) = some (some _) :=
    receive_end (by rfl) (by rfl) hArea (by rfl)
  rw [mpDhcpRecv, hReceive]
  rfl

/-- An offer in a buffer that is filled up with zeros. -/
def offerItems : List Item :=
  [.option { code := dhcpoptMessageType, data := [dhcpOffer], notPad := by decide,
             notEnd := by decide, short := by decide }]

def padding : List UInt8 := List.replicate 308 dhcpoptPad

/-- The index that the End sets is 313 modulo 256, and the walk goes on from there. -/
theorem paddedOffer_not_dumped :
    ∃ pkt, mpDhcpRecv [0, 0, 0, 0]
        [.datagram (replyWith (areaBytes offerItems ++ dhcpoptEnd :: padding))] =
          some (some pkt) ∧ ¬ DumpsOptions bootreply pkt := by
  have hLength : (areaBytes offerItems ++ dhcpoptEnd :: padding).length = dhcpminoptlen := by
    rw [List.length_append, List.length_cons, padding, List.length_replicate]
    rfl
  obtain ⟨hReceived, hArea⟩ := received_replyWith (Nat.le_of_eq hLength)
  have hLong := hArea.optlen
  rw [hLength] at hLong
  exact ⟨_, hReceived, long_not_dumped bootreply hArea (by rw [hLong]; decide)⟩

end MonitoringPlug.Dhcp
