import MonitoringPlug.Dhcp.Check
import MonitoringPlug.Lib.Checksum

/-! The frame of `mp_dhcp_send` for a broadcast. The allocated header is seen as the code
sees it: 14 bytes, a `struct ip` and a `struct udphdr`, on a little-endian host. A field that
is not assigned keeps what the memory held before. -/
namespace MonitoringPlug.Dhcp

open Checksum

/-- The two bytes of a 16-bit field in memory. -/
def fieldBytes (v : UInt16) : List UInt8 :=
  [UInt8.ofNat (v.toNat % 256), UInt8.ofNat (v.toNat / 256)]

/-- `htons` and `ntohs`. -/
def htons (v : UInt16) : UInt16 := UInt16.ofNat (swap v.toNat)

def InAddr.bytes (a : InAddr) : List UInt8 := [a.first, a.second, a.third, a.fourth]

/-- `struct ip`. -/
structure Ip where
  ipV : BitVec 4
  ipHl : BitVec 4
  ipTos : UInt8
  ipLen : UInt16
  ipId : UInt16
  ipOff : UInt16
  ipTtl : UInt8
  ipP : UInt8
  ipSum : UInt16
  ipSrc : InAddr
  ipDst : InAddr
deriving DecidableEq

def Ip.bytes (h : Ip) : List UInt8 :=
  [UInt8.ofNat (h.ipV.toNat * 16 + h.ipHl.toNat), h.ipTos] ++ fieldBytes h.ipLen ++
    fieldBytes h.ipId ++ fieldBytes h.ipOff ++ [h.ipTtl, h.ipP] ++ fieldBytes h.ipSum ++
    h.ipSrc.bytes ++ h.ipDst.bytes

/-- `struct udphdr`. -/
structure Udp where
  source : UInt16
  dest : UInt16
  len : UInt16
  check : UInt16
deriving DecidableEq

def Udp.bytes (h : Udp) : List UInt8 :=
  fieldBytes h.source ++ fieldBytes h.dest ++ fieldBytes h.len ++ fieldBytes h.check

/-- The object behind `buf`; `dhost` to `type` are its first 14 bytes. -/
structure Header where
  dhost : Vector UInt8 6
  shost : Vector UInt8 6
  type : Vector UInt8 2
  ipHdr : Ip
  udpHdr : Udp
deriving DecidableEq

def Header.bytes (h : Header) : List UInt8 :=
  h.dhost.toList ++ (h.shost.toList ++ (h.type.toList ++ (h.ipHdr.bytes ++ h.udpHdr.bytes)))

/-- The parts of `struct sockaddr_in` that are copied, as they lie in memory. -/
structure SockaddrIn where
  sinPort : UInt16
  sinAddr : InAddr

/-- The packet: the 236 bytes in front of `opts`, and the `optlen` bytes there. -/
structure OutPkt where
  fixed : Vector UInt8 236
  opts : List UInt8

def OutPkt.optlen (pkt : OutPkt) : Nat := pkt.opts.length

/-- The first six bytes of `chaddr`. -/
def OutPkt.mac (pkt : OutPkt) : Vector UInt8 6 := pkt.fixed.extract 28 34

def word (low high : UInt8) : UInt16 := UInt16.ofNat (low.toNat + 256 * high.toNat)

/-- Bytes read as an array of `unsigned short`. -/
def halfWords : List UInt8 → List UInt16
  | low :: high :: rest => word low high :: halfWords rest
  | _ => []

/-- The loop of `mp_ip_csum`: `len` falls by two for each word. -/
def csumLoop (sum : Int) (len : Int) : List UInt16 → Int
  | [] => sum
  | w :: rest => if 0 < len then csumLoop (sum + w.toNat) (len - 2) rest else sum

def mpIpCsum (addr : List UInt16) (len : Int) : UInt16 :=
  let sum := csumLoop 0 len addr
  let sum := sum / 2 ^ 16 + sum % 2 ^ 16
  let sum := sum + sum / 2 ^ 16
  UInt16.ofInt (-sum - 1)

def ethPIp : Nat := 0x0800

def ipprotoUdp : UInt8 := 17

/-- The header, assigned field by field in what the allocation holds. The size of what
`bzero` clears is that of a `char`. -/
def buildHeader (buf : Header) (pkt : OutPkt) (sinFrom sinTo : SockaddrIn) : Header :=
  let buf := { buf with dhost := buf.dhost.set 0 0 }
  let buf := { buf with dhost := Vector.replicate 6 0xFF }
  let buf := { buf with shost := pkt.mac }
  let buf := { buf with type := #v[UInt8.ofNat (ethPIp / 256), UInt8.ofNat (ethPIp % 256)] }
  let ipHdr := { buf.ipHdr with ipV := 4, ipHl := 5, ipTos := 0, ipLen := 20 + 8 + 236 }
  let ipHdr :=
    if 0 < pkt.optlen then
      { ipHdr with ipLen := UInt16.ofNat (ipHdr.ipLen.toNat + (pkt.optlen + 4)) }
    else ipHdr
  let ipHdr := { ipHdr with ipLen := htons ipHdr.ipLen }
  let ipHdr := { ipHdr with ipOff := 0, ipTtl := 20, ipP := ipprotoUdp,
                            ipSrc := sinFrom.sinAddr, ipDst := sinTo.sinAddr, ipSum := 0 }
  let ipHdr := { ipHdr with ipSum := mpIpCsum (halfWords ipHdr.bytes) 20 }
  let udpHdr := { buf.udpHdr with
    source := sinFrom.sinPort
    dest := sinTo.sinPort
    len := htons (UInt16.ofInt ((htons ipHdr.ipLen).toNat - 20)) }
  { buf with ipHdr := ipHdr, udpHdr := udpHdr }

/-- What `sendmsg` gets: the header, the packet, and with options the cookie and these. -/
def mpDhcpSend (buf : Header) (pkt : OutPkt) (sinFrom sinTo : SockaddrIn) : List UInt8 :=
  (buildHeader buf pkt sinFrom sinTo).bytes ++ pkt.fixed.toList ++
    if 0 < pkt.optlen then magickcookie ++ pkt.opts else []

/-- The bytes behind the Ethernet header. -/
def totalLength (optlen : Nat) : Nat := 28 + 236 + if 0 < optlen then 4 + optlen else 0

/-- The words of a header as they are sent. -/
def netWords (bytes : List UInt8) : List Nat := (halfWords bytes).map fun w => swap w.toNat

structure ValidHeader (h : Header) (optlen : Nat) : Prop where
  ipLength : (htons h.ipHdr.ipLen).toNat = totalLength optlen
  udpLength : (htons h.udpHdr.len).toNat = totalLength optlen - 20
  checksum : onesSum (netWords h.ipHdr.bytes) = 0xFFFF
  unused : h.udpHdr.check = 0

section Fields

theorem swap_lt {n : Nat} (h : n < 65536) : swap n < 65536 := by
  rw [swap]
  omega

theorem swap_swap {n : Nat} (h : n < 65536) : swap (swap n) = n := by
  rw [swap, swap]
  omega

theorem htons_toNat (v : UInt16) : (htons v).toNat = swap v.toNat := by
  have hLess := v.toNat_lt
  rw [htons, UInt16.toNat_ofNat', Nat.mod_eq_of_lt (swap_lt hLess)]

theorem htons_htons (v : UInt16) : htons (htons v) = v := by
  rw [← UInt16.toNat_inj, htons_toNat, htons_toNat, swap_swap v.toNat_lt]

theorem word_fieldBytes (v : UInt16) :
    word (UInt8.ofNat (v.toNat % 256)) (UInt8.ofNat (v.toNat / 256)) = v := by
  have hLess := v.toNat_lt
  rw [word, ← UInt16.toNat_inj, UInt16.toNat_ofNat', UInt8.toNat_ofNat', UInt8.toNat_ofNat']
  omega

theorem fieldBytes_word (low high : UInt8) : fieldBytes (word low high) = [low, high] := by
  have hLow := low.toNat_lt
  have hHigh := high.toNat_lt
  have hValue : (word low high).toNat = low.toNat + 256 * high.toNat := by
    rw [word, UInt16.toNat_ofNat']
    omega
  have hFirst : (low.toNat + 256 * high.toNat) % 256 = low.toNat := by omega
  have hSecond : (low.toNat + 256 * high.toNat) / 256 = high.toNat := by omega
  rw [fieldBytes, hValue, hFirst, hSecond, UInt8.ofNat_toNat, UInt8.ofNat_toNat]

theorem fieldBytes_inj {v w : UInt16} (h : fieldBytes v = fieldBytes w) : v = w := by
  injection h with hLow hRest
  injection hRest with hHigh
  rw [← word_fieldBytes v, hLow, hHigh, word_fieldBytes w]

/-- The ten words of an IP header. -/
theorem halfWords_ip (h : Ip) :
    halfWords h.bytes =
      [word (UInt8.ofNat (h.ipV.toNat * 16 + h.ipHl.toNat)) h.ipTos, h.ipLen, h.ipId, h.ipOff,
        word h.ipTtl h.ipP, h.ipSum, word h.ipSrc.first h.ipSrc.second,
        word h.ipSrc.third h.ipSrc.fourth, word h.ipDst.first h.ipDst.second,
        word h.ipDst.third h.ipDst.fourth] := by
  simp only [Ip.bytes, InAddr.bytes, fieldBytes, List.cons_append, List.nil_append, halfWords,
    word_fieldBytes]

end Fields

section Sum

def wordSum (words : List UInt16) : Nat := (words.map UInt16.toNat).sum

theorem wordSum_le (words : List UInt16) : wordSum words ≤ words.length * 65535 := by
  induction words with
  | nil => exact Nat.le_refl 0
  | cons w words ih =>
      have hLess := w.toNat_lt
      simp only [wordSum, List.map_cons, List.sum_cons, List.length_cons] at ih ⊢
      omega

theorem words_lt (words : List UInt16) : ∀ w ∈ words.map UInt16.toNat, w < 65536 := by
  intro w hW
  obtain ⟨word, -, rfl⟩ := List.mem_map.mp hW
  exact word.toNat_lt

theorem csumLoop_all {words : List UInt16} {len : Int} (h : 2 * (words.length : Int) ≤ len + 1)
    (sum : Int) : csumLoop sum len words = sum + wordSum words := by
  induction words generalizing sum len with
  | nil => simp [csumLoop, wordSum]
  | cons w words ih =>
      rw [List.length_cons] at h
      rw [csumLoop, if_pos (by omega), ih (by omega)]
      simp only [wordSum, List.map_cons, List.sum_cons]
      omega

/-- `~sum` cut to 16 bits. -/
theorem complement_toNat (n : Nat) :
    (UInt16.ofInt (-(n : Int) - 1)).toNat = 65535 - n % 65536 := by
  have hInt : (2 : Int) ^ 16 = 65536 := rfl
  rw [UInt16.ofInt, UInt16.toNat_ofNat', hInt]
  omega

/-- Two folds bring the sum of up to 32768 words under 65536 without changing what it is
modulo 65535. -/
theorem folded_modEq {sum : Nat} (h : sum ≤ 2147450880) :
    sum + (65535 - (sum / 65536 + sum % 65536 + (sum / 65536 + sum % 65536) / 65536) % 65536) ≡
      0 [MOD 65535] := by
  have hSplit := Nat.mod_add_div sum 65536
  generalize hFold : sum / 65536 + sum % 65536 = fold
  have hLess : fold < 131071 := by omega
  have hCarry : (fold + fold / 65536) % 65536 = if fold < 65536 then fold else fold - 65535 := by
    split <;> omega
  have hMultiple : sum = 65535 * (sum / 65536) + fold := by omega
  rw [hCarry, Nat.ModEq]
  split <;> omega

theorem mpIpCsum_toNat {words : List UInt16} {len : Int}
    (hAll : 2 * (words.length : Int) ≤ len + 1) :
    (mpIpCsum words len).toNat =
      65535 - (wordSum words / 65536 + wordSum words % 65536 +
        (wordSum words / 65536 + wordSum words % 65536) / 65536) % 65536 := by
  have hFold : ∀ n : Nat,
      (n : Int) / 2 ^ 16 + (n : Int) % 2 ^ 16 = ((n / 65536 + n % 65536 : Nat) : Int) := by
    intro n
    push_cast
    rfl
  have hCarry : ∀ n : Nat, (n : Int) + (n : Int) / 2 ^ 16 = ((n + n / 65536 : Nat) : Int) := by
    intro n
    push_cast
    rfl
  rw [mpIpCsum, csumLoop_all hAll, Int.zero_add]
  simp only [hFold, hCarry, complement_toNat]

/-- The checksum stands in for a word that was zero: all words then sum to 0xFFFF. -/
theorem mpIpCsum_verifies {front back : List UInt16} {len : Int}
    (hAll : 2 * ((front ++ 0 :: back).length : Int) ≤ len + 1)
    (h : (front ++ 0 :: back).length ≤ 32768) :
    onesSum ((front ++ mpIpCsum (front ++ 0 :: back) len :: back).map UInt16.toNat) = 0xFFFF := by
  have hToNat := mpIpCsum_toNat hAll
  generalize mpIpCsum (front ++ 0 :: back) len = csum at hToNat ⊢
  have hBound := wordSum_le (front ++ 0 :: back)
  have hTotal : wordSum (front ++ csum :: back) = wordSum (front ++ 0 :: back) + csum.toNat := by
    simp only [wordSum, List.map_append, List.map_cons, List.sum_append, List.sum_cons,
      UInt16.toNat_zero]
    omega
  rw [onesSum_eq_iff (words_lt _), ← wordSum, hTotal]
  constructor
  · rw [hToNat]
    exact folded_modEq (by omega)
  · -- the complement of an empty sum is not zero
    omega

/-- The checksum is one of the ten words of its header. -/
theorem halfWords_ipSum (h : Ip) :
    ∃ front back, (front ++ 0 :: back).length = 10 ∧
      ∀ csum, halfWords { h with ipSum := csum }.bytes = front ++ csum :: back := by
  refine ⟨(halfWords h.bytes).take 5, (halfWords h.bytes).drop 6, ?_, ?_⟩
  · rw [halfWords_ip]
    rfl
  · intro csum
    rw [halfWords_ip, halfWords_ip]
    rfl

/-- A header with the checksum over it set to zero verifies. -/
theorem ipSum_verifies {h : Ip} (hZero : h.ipSum = 0) :
    onesSum (netWords { h with ipSum := mpIpCsum (halfWords h.bytes) 20 }.bytes) = 0xFFFF := by
  obtain ⟨front, back, hLength, hSplit⟩ := halfWords_ipSum h
  have hHeader : halfWords h.bytes = front ++ 0 :: back := by
    rw [← hSplit 0, ← hZero]
  have hHost : onesSum ((halfWords
      { h with ipSum := mpIpCsum (halfWords h.bytes) 20 }.bytes).map UInt16.toNat) = 0xFFFF := by
    rw [hSplit, hHeader]
    exact mpIpCsum_verifies (by omega) (by omega)
  have hNet := onesSum_swap (words_lt _) hHost
  rw [List.map_map] at hNet
  exact hNet

end Sum

section Frame

variable {heap heap' : Header} {pkt : OutPkt} {sinFrom sinTo : SockaddrIn}

theorem ipId_buildHeader :
    (buildHeader heap pkt sinFrom sinTo).ipHdr.ipId = heap.ipHdr.ipId := by
  simp only [buildHeader]
  split <;> rfl

/-- Two fields are left to the heap. -/
theorem buildHeader_congr (hId : heap.ipHdr.ipId = heap'.ipHdr.ipId)
    (hCheck : heap.udpHdr.check = heap'.udpHdr.check) :
    buildHeader heap pkt sinFrom sinTo = buildHeader heap' pkt sinFrom sinTo := by
  simp only [buildHeader, hId, hCheck]
  split <;> rfl

theorem htons_ipLen (hLength : pkt.optlen ≤ 1000) :
    (htons (buildHeader heap pkt sinFrom sinTo).ipHdr.ipLen).toNat = totalLength pkt.optlen := by
  have hLen : (buildHeader heap pkt sinFrom sinTo).ipHdr.ipLen =
      htons (UInt16.ofNat (totalLength pkt.optlen)) := by
    have hFixed : (20 + 8 + 236 : UInt16).toNat = 28 + 236 := rfl
    have hCookie : 4 + pkt.optlen = pkt.optlen + 4 := Nat.add_comm _ _
    simp only [buildHeader, totalLength, hFixed, hCookie]
    split <;> rfl
  rw [hLen, htons_htons, UInt16.toNat_ofNat', totalLength]
  split <;> omega

theorem htons_udpLen (hLength : pkt.optlen ≤ 1000) :
    (htons (buildHeader heap pkt sinFrom sinTo).udpHdr.len).toNat =
      totalLength pkt.optlen - 20 := by
  have hIp : (htons (buildHeader heap pkt sinFrom sinTo).ipHdr.ipLen).toNat =
      totalLength pkt.optlen := htons_ipLen hLength
  have hTotal : totalLength pkt.optlen ≤ 1268 ∧ 264 ≤ totalLength pkt.optlen := by
    rw [totalLength]
    split <;> omega
  have hLen : (buildHeader heap pkt sinFrom sinTo).udpHdr.len =
      htons (UInt16.ofInt
        ((htons (buildHeader heap pkt sinFrom sinTo).ipHdr.ipLen).toNat - 20)) := rfl
  have hInt : (2 : Int) ^ 16 = 65536 := rfl
  rw [hLen, htons_htons, hIp, UInt16.ofInt, UInt16.toNat_ofNat', hInt]
  omega

theorem checksum_buildHeader :
    onesSum (netWords (buildHeader heap pkt sinFrom sinTo).ipHdr.bytes) = 0xFFFF :=
  ipSum_verifies rfl

/-- Valid but for the last field. -/
theorem validHeader_iff (hLength : pkt.optlen ≤ 1000) :
    ValidHeader (buildHeader heap pkt sinFrom sinTo) pkt.optlen ↔ heap.udpHdr.check = 0 := by
  constructor
  · intro h
    exact h.unused
  · intro h
    exact
      { ipLength := htons_ipLen hLength
        udpLength := htons_udpLen hLength
        checksum := checksum_buildHeader
        unused := h }

end Frame

section Bytes

theorem Header.length_bytes (h : Header) : h.bytes.length = 42 := by
  simp only [Header.bytes, List.length_append, Vector.length_toList]
  rfl

theorem Header.bytes_parts {h h' : Header} (hBytes : h.bytes = h'.bytes) :
    h.ipHdr.ipId = h'.ipHdr.ipId ∧ h.udpHdr.check = h'.udpHdr.check := by
  have hPrefix : ∀ {n : Nat} {v v' : Vector UInt8 n}, v.toList.length = v'.toList.length := by
    intro n v v'
    rw [Vector.length_toList, Vector.length_toList]
  obtain ⟨-, hRest⟩ := List.append_inj hBytes hPrefix
  obtain ⟨-, hRest⟩ := List.append_inj hRest hPrefix
  obtain ⟨-, hRest⟩ := List.append_inj hRest hPrefix
  obtain ⟨hIp, hUdp⟩ := List.append_inj hRest rfl
  exact ⟨fieldBytes_inj (congrArg (fun l => (l.drop 4).take 2) hIp),
    fieldBytes_inj (congrArg (fun l => l.drop 6) hUdp)⟩

/-- Any twenty bytes are a `struct ip`. -/
theorem exists_ip {l : List UInt8} (h : l.length = 20) : ∃ ip : Ip, ip.bytes = l := by
  match l, h with
  | [vHl, tos, l₀, l₁, i₀, i₁, o₀, o₁, ttl, p, c₀, c₁, s₀, s₁, s₂, s₃, d₀, d₁, d₂, d₃], _ =>
      refine ⟨{ ipV := BitVec.ofNat 4 (vHl.toNat / 16), ipHl := BitVec.ofNat 4 vHl.toNat
                ipTos := tos, ipLen := word l₀ l₁, ipId := word i₀ i₁, ipOff := word o₀ o₁
                ipTtl := ttl, ipP := p, ipSum := word c₀ c₁
                ipSrc := ⟨s₀, s₁, s₂, s₃⟩, ipDst := ⟨d₀, d₁, d₂, d₃⟩ }, ?_⟩
      have hLess := vHl.toNat_lt
      have hNibbles : vHl.toNat / 16 % 2 ^ 4 * 16 + vHl.toNat % 2 ^ 4 = vHl.toNat := by omega
      simp only [Ip.bytes, InAddr.bytes, fieldBytes_word, BitVec.toNat_ofNat, hNibbles,
        UInt8.ofNat_toNat, List.cons_append, List.nil_append]

theorem exists_udp {l : List UInt8} (h : l.length = 8) : ∃ udp : Udp, udp.bytes = l := by
  match l, h with
  | [s₀, s₁, d₀, d₁, l₀, l₁, c₀, c₁], _ =>
      refine ⟨{ source := word s₀ s₁, dest := word d₀ d₁, len := word l₀ l₁
                check := word c₀ c₁ }, ?_⟩
      simp only [Udp.bytes, fieldBytes_word, List.cons_append, List.nil_append]

/-- Whatever the memory held, it was some header. -/
theorem exists_header {l : List UInt8} (h : l.length = 42) : ∃ buf : Header, buf.bytes = l := by
  obtain ⟨ip, hIp⟩ := exists_ip (l := (l.drop 14).take 20) (by simp [h])
  obtain ⟨udp, hUdp⟩ := exists_udp (l := l.drop 34) (by simp [h])
  refine ⟨{ dhost := ⟨(l.take 6).toArray, by simp [h]⟩
            shost := ⟨((l.drop 6).take 6).toArray, by simp [h]⟩
            type := ⟨((l.drop 12).take 2).toArray, by simp [h]⟩
            ipHdr := ip, udpHdr := udp }, ?_⟩
  have hThird : (l.drop 14).take 20 ++ l.drop 34 = l.drop 14 := by
    rw [show 34 = 14 + 20 from rfl, ← List.drop_drop]
    exact List.take_append_drop 20 _
  have hSecond : (l.drop 12).take 2 ++ l.drop 14 = l.drop 12 := by
    rw [show 14 = 12 + 2 from rfl, ← List.drop_drop]
    exact List.take_append_drop 2 _
  have hFirst : (l.drop 6).take 6 ++ l.drop 12 = l.drop 6 := by
    rw [show 12 = 6 + 6 from rfl, ← List.drop_drop]
    exact List.take_append_drop 6 _
  simp only [Header.bytes, hIp, hUdp, Vector.toList, hThird, hSecond, hFirst]
  exact List.take_append_drop 6 l

end Bytes

/-- The first 42 bytes that are sent. -/
def sentHeader (heap : Header) (pkt : OutPkt) (sinFrom sinTo : SockaddrIn) : List UInt8 :=
  (mpDhcpSend heap pkt sinFrom sinTo).take 42

theorem sentHeader_eq {heap : Header} {pkt : OutPkt} {sinFrom sinTo : SockaddrIn} :
    sentHeader heap pkt sinFrom sinTo = (buildHeader heap pkt sinFrom sinTo).bytes := by
  rw [sentHeader, mpDhcpSend, List.append_assoc]
  exact List.take_left' (Header.length_bytes _)

/-- The length in the IP header is that of what follows the Ethernet header. -/
theorem length_mpDhcpSend {heap : Header} {pkt : OutPkt} {sinFrom sinTo : SockaddrIn} :
    (mpDhcpSend heap pkt sinFrom sinTo).length = 14 + totalLength pkt.optlen := by
  rw [mpDhcpSend, List.length_append, List.length_append, Header.length_bytes,
    Vector.length_toList, totalLength]
  split
  · have hCookie : magickcookie.length = 4 := rfl
    rw [List.length_append, OutPkt.optlen, hCookie]
    omega
  · rfl

/-- Two runs send the same valid header just when the two allocations held the same bytes at
`ip_id` and zeros at the checksum of UDP. -/
theorem sentHeader_determined_iff {pkt : OutPkt} (hLength : pkt.optlen ≤ 1000)
    (sinFrom sinTo : SockaddrIn) (heap heap' : Header) :
    (sentHeader heap pkt sinFrom sinTo = sentHeader heap' pkt sinFrom sinTo ∧
        ValidHeader (buildHeader heap pkt sinFrom sinTo) pkt.optlen ∧
        ValidHeader (buildHeader heap' pkt sinFrom sinTo) pkt.optlen) ↔
      heap.ipHdr.ipId = heap'.ipHdr.ipId ∧ heap.udpHdr.check = 0 ∧ heap'.udpHdr.check = 0 := by
  rw [validHeader_iff hLength, validHeader_iff hLength, sentHeader_eq, sentHeader_eq]
  constructor
  · rintro ⟨hSame, hCheck⟩
    have hId := (Header.bytes_parts hSame).1
    rw [ipId_buildHeader, ipId_buildHeader] at hId
    exact ⟨hId, hCheck⟩
  · rintro ⟨hId, hCheck, hCheck'⟩
    exact ⟨congrArg Header.bytes (buildHeader_congr hId (hCheck.trans hCheck'.symm)),
      hCheck, hCheck'⟩

def anyAddress : InAddr := ⟨0, 0, 0, 0⟩

/-- What `calloc` would give. -/
def zeroHeader : Header where
  dhost := Vector.replicate 6 0
  shost := Vector.replicate 6 0
  type := Vector.replicate 2 0
  ipHdr := ⟨0, 0, 0, 0, 0, 0, 0, 0, 0, anyAddress, anyAddress⟩
  udpHdr := ⟨0, 0, 0, 0⟩

/-- The same with bytes left over at `ip_id` and at the checksum of UDP. -/
def usedHeader : Header :=
  { zeroHeader with
    ipHdr := { zeroHeader.ipHdr with ipId := 0x5555 }
    udpHdr := { zeroHeader.udpHdr with check := 0x5555 } }

/-- A DISCOVER without more than its message type. -/
def discover : OutPkt where
  fixed := Vector.replicate 236 0
  opts := [dhcpoptMessageType, 1, 1, 255]

theorem sentHeader_determined_discover :
    (sentHeader zeroHeader discover ⟨htons 68, anyAddress⟩ ⟨htons 67, ⟨255, 255, 255, 255⟩⟩ =
        sentHeader zeroHeader discover ⟨htons 68, anyAddress⟩
          ⟨htons 67, ⟨255, 255, 255, 255⟩⟩ ∧
      ValidHeader (buildHeader zeroHeader discover ⟨htons 68, anyAddress⟩
        ⟨htons 67, ⟨255, 255, 255, 255⟩⟩) discover.optlen ∧
      ValidHeader (buildHeader zeroHeader discover ⟨htons 68, anyAddress⟩
        ⟨htons 67, ⟨255, 255, 255, 255⟩⟩) discover.optlen) :=
  (sentHeader_determined_iff (by decide) _ _ zeroHeader zeroHeader).mpr ⟨rfl, rfl, rfl⟩

/-- A fresh block and a used one: the headers differ, and the second carries a checksum that
nobody computed. -/
theorem usedHeader_sent :
    sentHeader zeroHeader discover ⟨htons 68, anyAddress⟩ ⟨htons 67, ⟨255, 255, 255, 255⟩⟩ ≠
        sentHeader usedHeader discover ⟨htons 68, anyAddress⟩
          ⟨htons 67, ⟨255, 255, 255, 255⟩⟩ ∧
      ¬ ValidHeader (buildHeader usedHeader discover ⟨htons 68, anyAddress⟩
        ⟨htons 67, ⟨255, 255, 255, 255⟩⟩) discover.optlen := by
  have hLength : discover.optlen ≤ 1000 := by decide
  constructor
  · intro hSame
    rw [sentHeader_eq, sentHeader_eq] at hSame
    have hId := (Header.bytes_parts hSame).1
    rw [ipId_buildHeader, ipId_buildHeader] at hId
    exact absurd hId (by decide)
  · rw [validHeader_iff hLength]
    decide

end MonitoringPlug.Dhcp
