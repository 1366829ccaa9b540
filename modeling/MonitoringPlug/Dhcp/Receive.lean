import MonitoringPlug.Dhcp.Options

/-! Receiving a DHCP reply: a datagram is scattered over the fixed header, the
cookie and an options buffer of fixed size, checked, and dropped or returned. The
content of the buffer before the read is a parameter, so that what a decision
depends on can be stated; the source passes zeros. -/
namespace MonitoringPlug.Dhcp

open CMemory CLoop

def bootreply : UInt8 := 2
def magickcookie : List UInt8 := [0x63, 0x82, 0x53, 0x63]
def dhcpminoptlen : Nat := 312

/-- Bytes in front of the options: 236 of the header and 4 of the cookie. -/
def optsOffset : Nat := 240

/-- Read into a zeroed object of this size. -/
def zeroFilled (size : Nat) (bytes : List UInt8) : List UInt8 :=
  bytes.take size ++ List.replicate (size - bytes.length) 0

def headerOp (datagram : List UInt8) : UInt8 := (zeroFilled 236 datagram).headD 0

/-- The four bytes of `xid` as they lie in memory. -/
def headerXid (datagram : List UInt8) : List UInt8 := ((zeroFilled 236 datagram).drop 4).take 4

/-- The cookie is looked at only when more than 240 bytes arrived. -/
def receivedCookie (datagram : List UInt8) : List UInt8 := (datagram.drop 236).take 4

/-- The option bytes that arrived. What does not fit the buffer is cut off. -/
def receivedArea (datagram : List UInt8) : List UInt8 :=
  (datagram.drop optsOffset).take dhcpminoptlen

/-- What `recvmsg` returns: the bytes it placed. -/
def receivedLen (datagram : List UInt8) : Nat := min datagram.length (optsOffset + dhcpminoptlen)

def receivedPkt (buffer datagram : List UInt8) : DhcpPkt :=
  { opts := (receivedArea datagram ++ buffer.drop (receivedArea datagram).length).map some
    optlen := (receivedLen datagram : Int) - optsOffset }

/-- One pass of the receive loop behind `recvmsg`: the packet, or `none` inside
when the datagram is dropped. A read outside the buffer has no result. -/
def receive (buffer xid datagram : List UInt8) : Option (Option DhcpPkt) :=
  let pkt := receivedPkt buffer datagram
  if headerOp datagram ≠ bootreply then some none
  else if headerXid datagram ≠ xid then some none
  else if 0 < pkt.optlen ∧ receivedCookie datagram ≠ magickcookie then some none
  else (acceptsOpts pkt).map fun accepted => if accepted then some pkt else none

/-- The buffer as the source hands it to `recvmsg`. -/
def zeroBuffer : List UInt8 := List.replicate dhcpminoptlen 0

/-- What a pass of the receive loop gets from the socket. -/
inductive Arrival where
  | datagram (bytes : List UInt8)
  | error

/-- The receive loop over what arrives before the timeout. -/
def mpDhcpRecv (xid : List UInt8) : List Arrival → Option (Option DhcpPkt)
  | [] => some none
  | .error :: _ => some none
  | .datagram bytes :: arrivals =>
      (receive zeroBuffer xid bytes).bind fun
        | some pkt => some (some pkt)
        | none => mpDhcpRecv xid arrivals

theorem receivedArea_length (datagram : List UInt8) :
    (receivedArea datagram).length = receivedLen datagram - optsOffset := by
  simp only [receivedArea, receivedLen, List.length_take, List.length_drop]
  omega

theorem receivedPkt_optlen_pos (buffer datagram : List UInt8) :
    0 < (receivedPkt buffer datagram).optlen ↔ receivedArea datagram ≠ [] := by
  have hLength := receivedArea_length datagram
  rw [← List.length_pos_iff, hLength, receivedPkt]
  simp only
  omega

theorem receivedPkt_hasArea (buffer : List UInt8) {datagram : List UInt8}
    (hSome : receivedArea datagram ≠ []) :
    (receivedPkt buffer datagram).HasArea (receivedArea datagram) := by
  refine ⟨?_, ?_⟩
  · rw [receivedPkt, List.map_append]
    exact List.prefix_append _ _
  · have hPos := List.length_pos_iff.mpr hSome
    have hLength := receivedArea_length datagram
    rw [receivedPkt]
    simp only
    omega

theorem receivedArea_length_le (datagram : List UInt8) :
    (receivedArea datagram).length ≤ dhcpminoptlen := by
  rw [receivedArea]
  exact List.length_take_le _ _

theorem receivedPkt_opts_length {buffer : List UInt8} (hBuffer : buffer.length = dhcpminoptlen)
    (datagram : List UInt8) :
    (receivedPkt buffer datagram).opts.length = dhcpminoptlen := by
  have hLength := receivedArea_length_le datagram
  simp only [receivedPkt, List.length_map, List.length_append, List.length_drop, hBuffer]
  omega

/-- The buffer is readable as a whole. -/
theorem load_receivedPkt {buffer : List UInt8} (hBuffer : buffer.length = dhcpminoptlen)
    (datagram : List UInt8) {i : Nat} (hInside : i < dhcpminoptlen) :
    ∃ byte, load (receivedPkt buffer datagram).opts i = some byte := by
  have hLength := receivedPkt_opts_length hBuffer datagram
  rw [receivedPkt, List.length_map] at hLength
  rw [receivedPkt, load, List.getElem?_map, List.getElem?_eq_getElem (by omega)]
  exact ⟨_, rfl⟩

/-- Bytes that break off before a complete item or an End. -/
inductive BrokenOff : List UInt8 → Prop where
  | nothing : BrokenOff []
  | code (code : UInt8) (notPad : code ≠ dhcpoptPad) (notEnd : code ≠ dhcpoptEnd) :
      BrokenOff [code]
  | data (code len : UInt8) (bytes : List UInt8) (notPad : code ≠ dhcpoptPad)
      (notEnd : code ≠ dhcpoptEnd) (short : bytes.length < len.toNat) :
      BrokenOff (code :: len :: bytes)

theorem option_of_bytes {code len : UInt8} {bytes : List UInt8} (notPad : code ≠ dhcpoptPad)
    (notEnd : code ≠ dhcpoptEnd) (hLong : len.toNat ≤ bytes.length) :
    ∃ o : DhcpOption, code :: len :: bytes = o.bytes ++ bytes.drop len.toNat := by
  have hLength : (bytes.take len.toNat).length = len.toNat := by simp [hLong]
  have hLess := len.toNat_lt
  refine ⟨⟨code, bytes.take len.toNat, notPad, notEnd, by omega⟩, ?_⟩
  have hLen : UInt8.ofNat (bytes.take len.toNat).length = len := by
    rw [hLength, UInt8.ofNat_toNat]
  simp only [DhcpOption.bytes, hLen, List.cons_append, List.take_append_drop]

/-- Every byte string is complete items followed by an End or by bytes that
break off. -/
theorem area_split (area : List UInt8) :
    ∃ items rest, area = areaBytes items ++ rest ∧
      ((∃ tail, rest = dhcpoptEnd :: tail) ∨ BrokenOff rest) := by
  induction hm : area.length using Nat.strongRecOn generalizing area with
  | ind bound ih =>
      -- an item in front of a shorter area that splits
      have hStep : ∀ (item : Item) (back : List UInt8), area = item.bytes ++ back →
          back.length < area.length → ∃ items rest, area = areaBytes items ++ rest ∧
            ((∃ tail, rest = dhcpoptEnd :: tail) ∨ BrokenOff rest) := by
        intro item back hArea hLess
        obtain ⟨items, rest, hSplit, hRest⟩ := ih back.length (by omega) back rfl
        exact ⟨item :: items, rest, by simp [hArea, hSplit], hRest⟩
      rcases area with _ | ⟨code, _ | ⟨len, bytes⟩⟩
      · exact ⟨[], [], rfl, Or.inr .nothing⟩
      · by_cases hPad : code = dhcpoptPad
        · exact hStep .pad [] (by simp [Item.bytes, hPad]) (by simp)
        · by_cases hEnd : code = dhcpoptEnd
          · exact ⟨[], [code], rfl, Or.inl ⟨[], by rw [hEnd]⟩⟩
          · exact ⟨[], [code], rfl, Or.inr (.code code hPad hEnd)⟩
      · by_cases hPad : code = dhcpoptPad
        · exact hStep .pad (len :: bytes) (by simp [Item.bytes, hPad]) (by simp)
        · by_cases hEnd : code = dhcpoptEnd
          · exact ⟨[], code :: len :: bytes, rfl, Or.inl ⟨len :: bytes, by rw [hEnd]⟩⟩
          · by_cases hLong : len.toNat ≤ bytes.length
            · obtain ⟨o, hBytes⟩ := option_of_bytes hPad hEnd hLong
              exact hStep (.option o) (bytes.drop len.toNat) hBytes (by simp; omega)
            · exact ⟨[], code :: len :: bytes, rfl,
                Or.inr (.data code len bytes hPad hEnd (by omega))⟩

section Check

variable {pkt : DhcpPkt} {items : List Item}

/-- Once the index has left the area the check is over. -/
theorem returns_check_past {i : Nat} (h : pkt.optlen ≤ i) :
    Returns (checkPass pkt) i (some i) := by
  apply Returns.leave
  rw [checkPass, if_neg (by omega)]

/-- Where the area breaks off, the check runs past it, provided the byte it takes
for the length lies in the object. -/
theorem checkOpts_brokenOff {rest : List UInt8} (h : pkt.HasArea (areaBytes items ++ rest))
    (hRest : BrokenOff rest) (hByte : rest.length = 1 →
      ∃ len, load pkt.opts ((areaBytes items).length + 1) = some len) :
    ∃ stop, checkOpts pkt = some stop ∧ pkt.optlen ≤ stop := by
  have hOptlen : pkt.optlen = (areaBytes items).length + rest.length := by simp [h.optlen]
  suffices hReturns : ∃ stop, Returns (checkPass pkt) (areaBytes items).length (some stop) ∧
      pkt.optlen ≤ stop by
    obtain ⟨stop, hStop, hPast⟩ := hReturns
    exact ⟨stop, checkOpts_eq (returns_check_items items [] h hStop), hPast⟩
  cases hRest with
  | nothing =>
      have hPast : pkt.optlen ≤ (areaBytes items).length := by simp [hOptlen]
      exact ⟨_, returns_check_past hPast, hPast⟩
  | code code notPad notEnd =>
      obtain ⟨len, hLen⟩ := hByte rfl
      have hPass : checkPass pkt (areaBytes items).length =
          .again ((areaBytes items).length + (len.toNat + 2)) := by
        simp [checkPass, h.inside, load_area h.holds, hLen, notPad, notEnd]
      have hPast : pkt.optlen ≤ ((areaBytes items).length + (len.toNat + 2) : Nat) := by
        rw [hOptlen]
        simp
        omega
      exact ⟨_, (returns_check_past hPast).again hPass, hPast⟩
  | data code len bytes notPad notEnd short =>
      have hPass : checkPass pkt (areaBytes items).length =
          .again ((areaBytes items).length + (len.toNat + 2)) := by
        simp [checkPass, h.inside, load_area h.holds, load_area_succ h.holds, notPad, notEnd]
      have hPast : pkt.optlen ≤ ((areaBytes items).length + (len.toNat + 2) : Nat) := by
        rw [hOptlen]
        simp
        omega
      exact ⟨_, (returns_check_past hPast).again hPass, hPast⟩

/-- An area that fills its object and ends in a lone code: the byte taken for
the length lies behind the object. -/
theorem checkOpts_loneCode {code : UInt8} (h : pkt.HasArea (areaBytes items ++ [code]))
    (hFull : pkt.opts.length = (areaBytes items ++ [code]).length) (notPad : code ≠ dhcpoptPad)
    (notEnd : code ≠ dhcpoptEnd) : checkOpts pkt = none := by
  apply checkOpts_eq
  apply returns_check_items items [] h
  apply Returns.leave
  have hOutside : load pkt.opts ((areaBytes items).length + 1) = none := by
    apply load_eq_none_of_length_le
    simp [hFull]
  simp [checkPass, h.inside, load_area h.holds, hOutside, notPad, notEnd]

end Check

/-- The option bytes fill the buffer and end in a code without a length byte. -/
def FullWithLoneCode (area : List UInt8) : Prop :=
  area.length = dhcpminoptlen ∧ ∃ items code, area = areaBytes items ++ [code] ∧
    code ≠ dhcpoptPad ∧ code ≠ dhcpoptEnd

/-- The datagrams on which the check takes the byte behind the buffer for a
length. -/
def ReadsBehindBuffer (datagram : List UInt8) : Prop :=
  receivedCookie datagram = magickcookie ∧ FullWithLoneCode (receivedArea datagram)

/-- No options at all, or the cookie and an End behind complete items. -/
def Acceptable (datagram : List UInt8) : Prop :=
  receivedArea datagram = [] ∨ receivedCookie datagram = magickcookie ∧
    ∃ items tail, receivedArea datagram = areaBytes items ++ dhcpoptEnd :: tail

section Verdict

variable {buffer xid datagram : List UInt8} (hOp : headerOp datagram = bootreply)
  (hXid : headerXid datagram = xid)

include hOp hXid

theorem receive_no_options (hArea : receivedArea datagram = []) :
    receive buffer xid datagram = some (some (receivedPkt buffer datagram)) := by
  have hOptlen : ¬0 < (receivedPkt buffer datagram).optlen := by
    rw [receivedPkt_optlen_pos]
    simpa using hArea
  simp [receive, acceptsOpts, hOp, hXid, hOptlen]

theorem receive_wrong_cookie (hArea : receivedArea datagram ≠ [])
    (hCookie : receivedCookie datagram ≠ magickcookie) :
    receive buffer xid datagram = some none := by
  have hOptlen := (receivedPkt_optlen_pos buffer datagram).mpr hArea
  simp [receive, hOp, hXid, hOptlen, hCookie]

/-- Behind the cookie only the option check decides. -/
theorem receive_checked (hArea : receivedArea datagram ≠ [])
    (hCookie : receivedCookie datagram = magickcookie) :
    receive buffer xid datagram = (checkOpts (receivedPkt buffer datagram)).map fun i : Nat =>
      if (i : Int) < (receivedPkt buffer datagram).optlen then
        some (receivedPkt buffer datagram) else none := by
  have hOptlen := (receivedPkt_optlen_pos buffer datagram).mpr hArea
  cases hCheck : checkOpts (receivedPkt buffer datagram) with
  | none => simp [receive, acceptsOpts, hOp, hXid, hOptlen, hCookie, hCheck]
  | some i => simp [receive, acceptsOpts, hOp, hXid, hOptlen, hCookie, hCheck]

/-- The walk ends in an End: accepted. -/
theorem receive_end {items : List Item} {tail : List UInt8}
    (hArea : receivedArea datagram = areaBytes items ++ dhcpoptEnd :: tail)
    (hCookie : receivedCookie datagram = magickcookie) :
    receive buffer xid datagram = some (some (receivedPkt buffer datagram)) := by
  have hSome : receivedArea datagram ≠ [] := by simp [hArea]
  have hPkt := receivedPkt_hasArea buffer hSome
  rw [hArea] at hPkt
  rw [receive_checked hOp hXid hSome hCookie, checkOpts_eq (returns_check_end items hPkt)]
  simp [hPkt.inside]

/-- The walk runs past what arrived: dropped, whatever the buffer held. -/
theorem receive_brokenOff (hBuffer : buffer.length = dhcpminoptlen) {items : List Item}
    {rest : List UInt8} (hArea : receivedArea datagram = areaBytes items ++ rest)
    (hRest : BrokenOff rest) (hLone : ¬FullWithLoneCode (receivedArea datagram))
    (hSome : receivedArea datagram ≠ []) (hCookie : receivedCookie datagram = magickcookie) :
    receive buffer xid datagram = some none := by
  have hPkt := receivedPkt_hasArea buffer hSome
  rw [hArea] at hPkt
  have hByte : rest.length = 1 →
      ∃ len, load (receivedPkt buffer datagram).opts ((areaBytes items).length + 1) = some len := by
    intro hOne
    have hLength : (receivedArea datagram).length = (areaBytes items).length + 1 := by
      rw [hArea, List.length_append, hOne]
    have hNotFull : (receivedArea datagram).length ≠ dhcpminoptlen := by
      intro hFull
      cases hRest with
      | nothing => simp at hOne
      | code code notPad notEnd => exact hLone ⟨hFull, items, code, hArea, notPad, notEnd⟩
      | data code len bytes notPad notEnd short => simp at hOne
    have hFits := receivedArea_length_le datagram
    exact load_receivedPkt hBuffer datagram (by omega)
  obtain ⟨stop, hStop, hPast⟩ := checkOpts_brokenOff hPkt hRest hByte
  rw [receive_checked hOp hXid hSome hCookie, hStop, Option.map_some, if_neg (by omega)]

/-- A full buffer that ends in a lone code: the byte behind the buffer is read. -/
theorem receive_loneCode (hBuffer : buffer.length = dhcpminoptlen)
    (hLone : FullWithLoneCode (receivedArea datagram))
    (hCookie : receivedCookie datagram = magickcookie) :
    receive buffer xid datagram = none := by
  obtain ⟨hFull, items, code, hArea, notPad, notEnd⟩ := hLone
  have hSome : receivedArea datagram ≠ [] := by simp [hArea]
  have hPkt := receivedPkt_hasArea buffer hSome
  have hLength : (receivedPkt buffer datagram).opts.length =
      (areaBytes items ++ [code]).length := by
    rw [receivedPkt_opts_length hBuffer datagram, ← hArea, hFull]
  rw [hArea] at hPkt
  rw [receive_checked hOp hXid hSome hCookie, checkOpts_loneCode hPkt hLength notPad notEnd]
  rfl

theorem receive_acceptable (hAccept : Acceptable datagram) :
    receive buffer xid datagram = some (some (receivedPkt buffer datagram)) := by
  rcases hAccept with hNone | ⟨hCookie, items, tail, hArea⟩
  · exact receive_no_options hOp hXid hNone
  · exact receive_end hOp hXid hArea hCookie

theorem receive_not_acceptable (hBuffer : buffer.length = dhcpminoptlen)
    (hSafe : ¬ReadsBehindBuffer datagram) (hReject : ¬Acceptable datagram) :
    receive buffer xid datagram = some none := by
  rw [Acceptable, not_or] at hReject
  obtain ⟨hSome, hForm⟩ := hReject
  by_cases hCookie : receivedCookie datagram = magickcookie
  · obtain ⟨items, rest, hArea, ⟨tail, rfl⟩ | hRest⟩ := area_split (receivedArea datagram)
    · exact (hForm ⟨hCookie, items, tail, hArea⟩).elim
    · have hLone : ¬FullWithLoneCode (receivedArea datagram) := fun h => hSafe ⟨hCookie, h⟩
      exact receive_brokenOff hOp hXid hBuffer hArea hRest hLone hSome hCookie
  · exact receive_wrong_cookie hOp hXid hSome hCookie

end Verdict

/-- What validation promises of a verdict on a datagram: acceptance with options
is exactly well-formedness in front of an End, no byte behind the received ones
decides, and every lookup in an accepted packet ends with NULL or with an option
in front of the End at which the check stopped. -/
structure ProtectsLookup (xid datagram : List UInt8) (verdict : Option DhcpPkt) : Prop where
  accepted : (∃ pkt, verdict = some pkt ∧ 0 < pkt.optlen) ↔
    receivedCookie datagram = magickcookie ∧
      ∃ items tail, receivedArea datagram = areaBytes items ++ dhcpoptEnd :: tail
  decided : ∀ buffer, buffer.length = dhcpminoptlen →
    (receive buffer xid datagram).map Option.isSome = some verdict.isSome
  lookup : ∀ pkt, verdict = some pkt → ∀ code, code ≠ dhcpoptPad → code ≠ dhcpoptEnd →
    mpDhcpPktGetopt pkt code = some none ∨
      ∃ front o back tail,
        receivedArea datagram =
          areaBytes (front ++ Item.option o :: back) ++ dhcpoptEnd :: tail ∧
        checkOpts pkt = some (areaBytes (front ++ Item.option o :: back)).length ∧
        o.code = code ∧ mpDhcpPktGetopt pkt code = some (some (areaBytes front).length)

theorem getopt_no_options {pkt : DhcpPkt} (h : ¬0 < pkt.optlen) (code : UInt8) :
    mpDhcpPktGetopt pkt code = some none := by
  apply mpDhcpPktGetopt_eq
  apply Returns.leave
  rw [getoptPass, if_neg (by simpa using h)]

theorem lookup_acceptable {buffer datagram : List UInt8} (hAccept : Acceptable datagram)
    {code : UInt8} (hPad : code ≠ dhcpoptPad) (hEnd : code ≠ dhcpoptEnd) :
    mpDhcpPktGetopt (receivedPkt buffer datagram) code = some none ∨
      ∃ front o back tail,
        receivedArea datagram =
          areaBytes (front ++ Item.option o :: back) ++ dhcpoptEnd :: tail ∧
        checkOpts (receivedPkt buffer datagram) =
          some (areaBytes (front ++ Item.option o :: back)).length ∧
        o.code = code ∧
        mpDhcpPktGetopt (receivedPkt buffer datagram) code =
          some (some (areaBytes front).length) := by
  rcases hAccept with hNone | ⟨-, items, tail, hArea⟩
  · left
    apply getopt_no_options
    rw [receivedPkt_optlen_pos]
    simpa using hNone
  · have hPkt := receivedPkt_hasArea buffer (by simp [hArea] : receivedArea datagram ≠ [])
    rw [hArea] at hPkt
    rcases getopt_area hPkt hPad hEnd with ⟨-, hNull⟩ | ⟨front, o, back, rfl, hCode, -, hFound⟩
    · exact Or.inl hNull
    · exact Or.inr ⟨front, o, back, tail, hArea, checkOpts_eq (returns_check_end _ hPkt),
        hCode, hFound⟩

theorem zeroBuffer_length : zeroBuffer.length = dhcpminoptlen := by
  simp [zeroBuffer]

theorem receive_safe {xid datagram : List UInt8} (hOp : headerOp datagram = bootreply)
    (hXid : headerXid datagram = xid) (hSafe : ¬ReadsBehindBuffer datagram) :
    ∃ verdict, receive zeroBuffer xid datagram = some verdict ∧
      ProtectsLookup xid datagram verdict := by
  by_cases hAccept : Acceptable datagram
  · refine ⟨_, receive_acceptable hOp hXid hAccept, ?_, ?_, ?_⟩
    · simp only [Option.some.injEq, exists_eq_left', receivedPkt_optlen_pos]
      rcases hAccept with hNone | hForm
      · simp [hNone]
      · simp only [hForm]
        obtain ⟨-, items, tail, hArea⟩ := hForm
        simp [hArea]
    · intro buffer _
      simp [receive_acceptable hOp hXid hAccept]
    · intro pkt hPkt code hPad hEnd
      cases hPkt
      exact lookup_acceptable hAccept hPad hEnd
  · refine ⟨none, receive_not_acceptable hOp hXid zeroBuffer_length hSafe hAccept, ?_, ?_, ?_⟩
    · rw [Acceptable, not_or] at hAccept
      simp [hAccept.2]
    · intro buffer hBuffer
      simp [receive_not_acceptable hOp hXid hBuffer hSafe hAccept]
    · intro pkt hPkt
      cases hPkt

/-- For a reply with the right transaction: validation reads only inside the
options buffer, decides as it should and protects every lookup, unless the cookie
matches and the options fill the buffer and end in a code without a length. Then
the byte behind the buffer is read. -/
theorem receive_protectsLookup_iff (xid datagram : List UInt8)
    (hOp : headerOp datagram = bootreply) (hXid : headerXid datagram = xid) :
    (∃ verdict, receive zeroBuffer xid datagram = some verdict ∧
        ProtectsLookup xid datagram verdict) ↔
      ¬(receivedCookie datagram = magickcookie ∧ FullWithLoneCode (receivedArea datagram)) := by
  constructor
  · rintro ⟨verdict, hVerdict, -⟩ ⟨hCookie, hLone⟩
    rw [receive_loneCode hOp hXid zeroBuffer_length hLone hCookie] at hVerdict
    cases hVerdict
  · intro hSafe
    exact receive_safe hOp hXid hSafe

/-- A reply to transaction zero with these options. -/
def replyWith (area : List UInt8) : List UInt8 :=
  bootreply :: List.replicate 235 0 ++ magickcookie ++ area

theorem receivedArea_replyWith {area : List UInt8} (hFits : area.length ≤ dhcpminoptlen) :
    receivedArea (replyWith area) = area := by
  have hFront : (bootreply :: List.replicate 235 0 ++ magickcookie).length = optsOffset := by rfl
  rw [receivedArea, replyWith, ← hFront, List.drop_left, List.take_of_length_le hFits]

theorem areaBytes_pads (count : Nat) :
    areaBytes (List.replicate count Item.pad) = List.replicate count dhcpoptPad := by
  induction count with
  | zero => rfl
  | succ count ih =>
      rw [List.replicate_succ, areaBytes_cons, ih, List.replicate_succ]
      rfl

theorem receive_protectsLookup_iff_offer :
    ∃ verdict, receive zeroBuffer [0, 0, 0, 0] (replyWith [53, 1, 2, 0, 255]) = some verdict ∧
      ProtectsLookup [0, 0, 0, 0] (replyWith [53, 1, 2, 0, 255]) verdict := by
  apply (receive_protectsLookup_iff _ _ (by decide) (by decide)).mpr
  rintro ⟨-, hFull, -⟩
  rw [receivedArea_replyWith (by decide)] at hFull
  cases hFull

/-- 311 Pads and a lone code. -/
def loneCodeArea : List UInt8 := areaBytes (List.replicate 311 Item.pad) ++ [53]

theorem loneCodeArea_length : loneCodeArea.length = dhcpminoptlen := by
  rw [loneCodeArea, areaBytes_pads, List.length_append, List.length_replicate]
  rfl

/-- The check reads `opts[312]`. -/
theorem receive_loneCode_unprotected :
    ¬∃ verdict, receive zeroBuffer [0, 0, 0, 0] (replyWith loneCodeArea) = some verdict ∧
      ProtectsLookup [0, 0, 0, 0] (replyWith loneCodeArea) verdict := by
  have hLone : FullWithLoneCode (receivedArea (replyWith loneCodeArea)) := by
    rw [receivedArea_replyWith (Nat.le_of_eq loneCodeArea_length)]
    exact ⟨loneCodeArea_length, _, _, rfl, by decide, by decide⟩
  rintro ⟨verdict, hVerdict, -⟩
  rw [receive_loneCode (by decide) (by decide) zeroBuffer_length hLone (by decide)] at hVerdict
  cases hVerdict

/-- One pass on any datagram that is safe to check. -/
theorem receive_dropped_or_returned (xid : List UInt8) {datagram : List UInt8}
    (hSafe : ¬ReadsBehindBuffer datagram) :
    receive zeroBuffer xid datagram = some none ∨
      headerOp datagram = bootreply ∧ headerXid datagram = xid ∧ Acceptable datagram ∧
        receive zeroBuffer xid datagram = some (some (receivedPkt zeroBuffer datagram)) := by
  by_cases hOp : headerOp datagram = bootreply
  · by_cases hXid : headerXid datagram = xid
    · by_cases hAccept : Acceptable datagram
      · exact Or.inr ⟨hOp, hXid, hAccept, receive_acceptable hOp hXid hAccept⟩
      · exact Or.inl (receive_not_acceptable hOp hXid zeroBuffer_length hSafe hAccept)
    · exact Or.inl (by simp [receive, hOp, hXid])
  · exact Or.inl (by simp [receive, hOp])

/-- The receive loop over any arrivals: unless one of them makes the check read
behind the buffer it returns, and a packet it returns is an acceptable reply to
the transaction that arrived. -/
theorem mpDhcpRecv_returned (xid : List UInt8) (arrivals : List Arrival)
    (hSafe : ∀ datagram, Arrival.datagram datagram ∈ arrivals → ¬ReadsBehindBuffer datagram) :
    ∃ result, mpDhcpRecv xid arrivals = some result ∧
      ∀ pkt, result = some pkt → ∃ datagram, Arrival.datagram datagram ∈ arrivals ∧
        headerOp datagram = bootreply ∧ headerXid datagram = xid ∧ Acceptable datagram ∧
        pkt = receivedPkt zeroBuffer datagram := by
  induction arrivals with
  | nil => exact ⟨none, rfl, nofun⟩
  | cons arrival arrivals ih =>
      cases arrival with
      | error => exact ⟨none, rfl, nofun⟩
      | datagram datagram =>
          rcases receive_dropped_or_returned xid (hSafe datagram List.mem_cons_self) with
            hDropped | ⟨hOp, hXid, hAccept, hReturned⟩
          · obtain ⟨result, hRun, hResult⟩ := ih fun d hd => hSafe d (List.mem_cons_of_mem _ hd)
            refine ⟨result, by simp [mpDhcpRecv, hDropped, hRun], ?_⟩
            intro pkt hPkt
            obtain ⟨d, hMem, hRest⟩ := hResult pkt hPkt
            exact ⟨d, List.mem_cons_of_mem _ hMem, hRest⟩
          · refine ⟨some (receivedPkt zeroBuffer datagram), by simp [mpDhcpRecv, hReturned], ?_⟩
            intro pkt hPkt
            cases hPkt
            exact ⟨datagram, List.mem_cons_self, hOp, hXid, hAccept, rfl⟩

end MonitoringPlug.Dhcp
