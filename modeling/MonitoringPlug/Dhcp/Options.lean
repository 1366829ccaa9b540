import MonitoringPlug.Lib.Block
import MonitoringPlug.Lib.Loop
import Mathlib.Algebra.GroupWithZero.Nat

/-! The option area of a DHCP packet: appending options, the walk that validates
a received area, and the lookup. The area lies in an allocated object; a write or
a read outside it has no result. -/
namespace MonitoringPlug.Dhcp

open CMemory CLoop

def dhcpoptPad : UInt8 := 0
def dhcpoptEnd : UInt8 := 255

theorem dhcpoptEnd_ne_pad : dhcpoptEnd ≠ dhcpoptPad := by decide

/-- The parts of `struct dhcp_pkt` that the option functions use. -/
structure DhcpPkt where
  opts : Block
  optlen : Int
deriving DecidableEq

/-- A write at an `int` index. -/
def storeAt (b : Block) (index : Int) (bytes : List UInt8) : Option Block :=
  if 0 ≤ index then store b index.toNat bytes else none

/-- The allocation in front of an append: room for code, length, data and End
in a new area, and for all but the code byte behind an old one, whose End byte is
overwritten. -/
def reserveOpt (pkt : DhcpPkt) (len : Nat) : DhcpPkt :=
  if pkt.optlen = 0 then { opts := malloc (len + 3), optlen := 1 }
  else { pkt with opts := realloc pkt.opts (pkt.optlen + len + 2).toNat }

/-- Length and data, written only when there is data. -/
def writeData (pkt : DhcpPkt) (data : List UInt8) : Option DhcpPkt :=
  if data.length = 0 then some pkt
  else
    (storeAt pkt.opts pkt.optlen [UInt8.ofNat data.length]).bind fun opts =>
      (storeAt opts (pkt.optlen + 1) data).map fun opts =>
        { opts := opts, optlen := pkt.optlen + (2 + data.length) }

/-- Write over the byte in front of `optlen`. -/
def writeLast (pkt : DhcpPkt) (byte : UInt8) : Option DhcpPkt :=
  (storeAt pkt.opts (pkt.optlen - 1) [byte]).map fun opts => { pkt with opts := opts }

/-- Append an option over the End byte and write a new End. The `len` of the
source is the length of `data`, a `uint8_t`. -/
def mpDhcpPktOpt (pkt : DhcpPkt) (code : UInt8) (data : List UInt8) : Option DhcpPkt :=
  (writeLast (reserveOpt pkt data.length) code).bind fun pkt =>
    (writeData pkt data).bind fun pkt => writeLast pkt dhcpoptEnd

/-- One pass of the option check in `mp_dhcp_recv`. The loop is left with the
index it stopped at, or with `none` by a read outside the object. -/
def checkPass (pkt : DhcpPkt) (i : Nat) : Pass Nat (Option Nat) :=
  if (i : Int) < pkt.optlen then
    match load pkt.opts i with
    | none => .leave none
    | some code =>
        if code = dhcpoptPad then .again (i + 1)
        else if code = dhcpoptEnd then .leave (some i)
        else
          match load pkt.opts (i + 1) with
          | none => .leave none
          | some len => .again (i + (len.toNat + 2))
  else .leave (some i)

/-- One pass of the lookup in `mp_dhcp_pkt_getopt`. The loop is left with the
offset of the option or NULL, or with `none` by a read outside the object. -/
def getoptPass (pkt : DhcpPkt) (code : UInt8) (i : Nat) : Pass Nat (Option (Option Nat)) :=
  if (i : Int) < pkt.optlen then
    match load pkt.opts i with
    | none => .leave none
    | some found =>
        if found = code then .leave (some (some i))
        else if found = dhcpoptPad then .again (i + 1)
        else if found = dhcpoptEnd then .leave (some none)
        else
          match load pkt.opts (i + 1) with
          | none => .leave none
          | some len => .again (i + (2 + len.toNat))
  else .leave (some none)

/-- The index the option check stops at. Every pass moves forward, so `optlen`
passes reach the end. -/
def checkOpts (pkt : DhcpPkt) : Option Nat :=
  (runFor (checkPass pkt) (pkt.optlen.toNat + 1) 0).join

/-- The option check of `mp_dhcp_recv`, made only on a non-empty area. -/
def acceptsOpts (pkt : DhcpPkt) : Option Bool :=
  if 0 < pkt.optlen then (checkOpts pkt).map fun i => decide ((i : Int) < pkt.optlen)
  else some true

/-- The offset of the option, or NULL. The test for an empty area in front of
the loop agrees with the first test of the loop. -/
def mpDhcpPktGetopt (pkt : DhcpPkt) (code : UInt8) : Option (Option Nat) :=
  (runFor (getoptPass pkt code) (pkt.optlen.toNat + 1) 0).join

theorem checkPass_advances (pkt : DhcpPkt) (i next : Nat) (h : checkPass pkt i = .again next) :
    pkt.optlen.toNat - next < pkt.optlen.toNat - i := by
  unfold checkPass at h
  split at h
  · split at h
    · cases h
    · split at h
      · cases h
        omega
      · split at h
        · cases h
        · split at h
          · cases h
          · cases h
            omega
  · cases h

theorem getoptPass_advances (pkt : DhcpPkt) (code : UInt8) (i next : Nat)
    (h : getoptPass pkt code i = .again next) :
    pkt.optlen.toNat - next < pkt.optlen.toNat - i := by
  unfold getoptPass at h
  split at h
  · split at h
    · cases h
    · split at h
      · cases h
      · split at h
        · cases h
          omega
        · split at h
          · cases h
          · split at h
            · cases h
            · cases h
              omega
  · cases h

theorem checkOpts_eq {pkt : DhcpPkt} {result : Option Nat}
    (h : Returns (checkPass pkt) 0 result) : checkOpts pkt = result := by
  have hRun : runFor (checkPass pkt) (pkt.optlen.toNat + 1) 0 = some result :=
    h.runFor_measure (fun i => pkt.optlen.toNat - i) (checkPass_advances pkt)
  rw [checkOpts, hRun]
  rfl

theorem mpDhcpPktGetopt_eq {pkt : DhcpPkt} {code : UInt8} {result : Option (Option Nat)}
    (h : Returns (getoptPass pkt code) 0 result) : mpDhcpPktGetopt pkt code = result := by
  have hRun : runFor (getoptPass pkt code) (pkt.optlen.toNat + 1) 0 = some result :=
    h.runFor_measure (fun i => pkt.optlen.toNat - i) (getoptPass_advances pkt code)
  rw [mpDhcpPktGetopt, hRun]
  rfl

/-- An option that is neither Pad nor End. -/
structure DhcpOption where
  code : UInt8
  data : List UInt8
  notPad : code ≠ dhcpoptPad
  notEnd : code ≠ dhcpoptEnd
  short : data.length ≤ 255

def DhcpOption.bytes (o : DhcpOption) : List UInt8 :=
  o.code :: UInt8.ofNat o.data.length :: o.data

/-- What an option area consists of before its End. -/
inductive Item where
  | pad
  | option (o : DhcpOption)

def Item.bytes : Item → List UInt8
  | .pad => [dhcpoptPad]
  | .option o => o.bytes

def areaBytes (items : List Item) : List UInt8 := items.flatMap Item.bytes

@[simp] theorem areaBytes_append (front back : List Item) :
    areaBytes (front ++ back) = areaBytes front ++ areaBytes back := by
  simp [areaBytes]

@[simp] theorem areaBytes_cons (item : Item) (items : List Item) :
    areaBytes (item :: items) = item.bytes ++ areaBytes items := by
  simp [areaBytes]

theorem DhcpOption.len_toNat (o : DhcpOption) :
    (UInt8.ofNat o.data.length).toNat = o.data.length := by
  have hShort := o.short
  simp
  omega

theorem Item.bytes_inj {item item' : Item} {back back' : List UInt8}
    (h : item.bytes ++ back = item'.bytes ++ back') : item = item' ∧ back = back' := by
  cases item with
  | pad =>
      cases item' with
      | pad => simpa [Item.bytes] using h
      | option o =>
          injection h with hCode
          exact absurd hCode.symm o.notPad
  | option o =>
      cases item' with
      | pad =>
          injection h with hCode
          exact absurd hCode o.notPad
      | option o' =>
          injection h with hCode hTail
          injection hTail with hLen hData
          have hLength : o.data.length = o'.data.length := by
            rw [← o.len_toNat, hLen, o'.len_toNat]
          obtain ⟨hSame, hBack⟩ := List.append_inj hData hLength
          obtain ⟨code, data, notPad, notEnd, short⟩ := o
          obtain ⟨code', data', notPad', notEnd', short'⟩ := o'
          cases hCode
          cases hSame
          exact ⟨rfl, hBack⟩

theorem Item.bytes_ne_end (item : Item) (back tail : List UInt8) :
    item.bytes ++ back ≠ dhcpoptEnd :: tail := by
  intro h
  cases item with
  | pad =>
      injection h with hCode
      exact dhcpoptEnd_ne_pad hCode.symm
  | option o =>
      injection h with hCode
      exact o.notEnd hCode

/-- The items in front of the first End of an area are determined. -/
theorem areaBytes_end_inj {items items' : List Item} {tail tail' : List UInt8}
    (h : areaBytes items ++ dhcpoptEnd :: tail = areaBytes items' ++ dhcpoptEnd :: tail') :
    items = items' ∧ tail = tail' := by
  induction items generalizing items' with
  | nil =>
      cases items' with
      | nil => simpa [areaBytes] using h
      | cons item' items' =>
          rw [areaBytes_cons, List.append_assoc] at h
          exact absurd h.symm (item'.bytes_ne_end _ _)
  | cons item items ih =>
      rw [areaBytes_cons, List.append_assoc] at h
      cases items' with
      | nil => exact absurd h (item.bytes_ne_end _ _)
      | cons item' items' =>
          rw [areaBytes_cons, List.append_assoc] at h
          obtain ⟨rfl, hRest⟩ := Item.bytes_inj h
          obtain ⟨rfl, rfl⟩ := ih hRest
          exact ⟨rfl, rfl⟩

section Walks

/-! Both loops step over a complete item in one pass, as long as the object
holds the area the item lies in. -/

variable {pkt : DhcpPkt} {area : List UInt8}

/-- The object starts with the area and `optlen` is its length. -/
structure DhcpPkt.HasArea (pkt : DhcpPkt) (area : List UInt8) : Prop where
  holds : Holds pkt.opts area
  optlen : pkt.optlen = area.length

theorem DhcpPkt.HasArea.unique {other : List UInt8} (h : pkt.HasArea area)
    (h' : pkt.HasArea other) : area = other := by
  have hLength : area.length = other.length := by
    have hOptlen := h.optlen.symm.trans h'.optlen
    omega
  have hMap : area.map some = other.map some :=
    (List.prefix_of_prefix_length_le h.holds h'.holds (by simp [hLength])).eq_of_length
      (by simp [hLength])
  exact (List.map_inj_right fun _ _ hSame => Option.some.inj hSame).mp hMap

theorem DhcpPkt.HasArea.inside {front back : List UInt8} {byte : UInt8}
    (h : pkt.HasArea (front ++ byte :: back)) : (front.length : Int) < pkt.optlen := by
  rw [h.optlen, List.length_append, List.length_cons]
  omega

theorem load_area {front back : List UInt8} {byte : UInt8}
    (h : Holds pkt.opts (front ++ byte :: back)) : load pkt.opts front.length = some byte := by
  rw [h.load (by simp)]
  simp

theorem load_area_succ {front back : List UInt8} {first byte : UInt8}
    (h : Holds pkt.opts (front ++ first :: byte :: back)) :
    load pkt.opts (front.length + 1) = some byte := by
  rw [h.load (by simp)]
  simp

theorem checkPass_item {front back : List UInt8} (item : Item)
    (h : pkt.HasArea (front ++ (item.bytes ++ back))) :
    checkPass pkt front.length = .again (front ++ item.bytes).length := by
  cases item with
  | pad =>
      simp only [Item.bytes, List.cons_append, List.nil_append] at h
      simp [checkPass, h.inside, load_area h.holds, Item.bytes]
  | option o =>
      simp only [Item.bytes, DhcpOption.bytes, List.cons_append] at h
      simp [checkPass, h.inside, load_area h.holds, load_area_succ h.holds, o.notPad, o.notEnd,
        o.len_toNat, Item.bytes, DhcpOption.bytes, -UInt8.toNat_ofNat']

/-- The option check runs over complete items. -/
theorem returns_check_items (items : List Item) (front : List UInt8) {back : List UInt8}
    (h : pkt.HasArea (front ++ (areaBytes items ++ back))) {result : Option Nat}
    (hRest : Returns (checkPass pkt) (front ++ areaBytes items).length result) :
    Returns (checkPass pkt) front.length result := by
  induction items generalizing front with
  | nil => simpa [areaBytes] using hRest
  | cons item items ih =>
      rw [areaBytes_cons, List.append_assoc] at h
      refine (ih (front ++ item.bytes) ?_ ?_).again (checkPass_item item h)
      · rwa [List.append_assoc]
      · rwa [areaBytes_cons, ← List.append_assoc] at hRest

/-- The item is an option with this code. -/
def Item.HasCode (code : UInt8) : Item → Prop
  | .pad => False
  | .option o => o.code = code

instance (code : UInt8) (item : Item) : Decidable (item.HasCode code) :=
  match item with
  | .pad => inferInstanceAs (Decidable False)
  | .option o => inferInstanceAs (Decidable (o.code = code))

theorem getoptPass_item {front back : List UInt8} (item : Item) {code : UInt8}
    (hPad : code ≠ dhcpoptPad) (hOther : ¬item.HasCode code)
    (h : pkt.HasArea (front ++ (item.bytes ++ back))) :
    getoptPass pkt code front.length = .again (front ++ item.bytes).length := by
  cases item with
  | pad =>
      simp only [Item.bytes, List.cons_append, List.nil_append] at h
      simp [getoptPass, h.inside, load_area h.holds, Item.bytes, hPad.symm]
  | option o =>
      have hCode : o.code ≠ code := hOther
      simp only [Item.bytes, DhcpOption.bytes, List.cons_append] at h
      simp [getoptPass, h.inside, load_area h.holds, load_area_succ h.holds, hCode, o.notPad,
        o.notEnd, o.len_toNat, Item.bytes, DhcpOption.bytes, -UInt8.toNat_ofNat']
      omega

/-- The lookup runs over complete items with other codes. -/
theorem returns_getopt_items (items : List Item) {code : UInt8} (hPad : code ≠ dhcpoptPad)
    (hOther : ∀ item ∈ items, ¬item.HasCode code) (front : List UInt8) {back : List UInt8}
    (h : pkt.HasArea (front ++ (areaBytes items ++ back))) {result : Option (Option Nat)}
    (hRest : Returns (getoptPass pkt code) (front ++ areaBytes items).length result) :
    Returns (getoptPass pkt code) front.length result := by
  induction items generalizing front with
  | nil => simpa [areaBytes] using hRest
  | cons item items ih =>
      rw [areaBytes_cons, List.append_assoc] at h
      have hItem := getoptPass_item item hPad (hOther item List.mem_cons_self) h
      have hLater : ∀ x ∈ items, ¬x.HasCode code :=
        fun x hx => hOther x (List.mem_cons_of_mem _ hx)
      refine (ih hLater (front ++ item.bytes) ?_ ?_).again hItem
      · rwa [List.append_assoc]
      · rwa [areaBytes_cons, ← List.append_assoc] at hRest

/-- An End byte behind complete items: the check stops on it. -/
theorem returns_check_end (items : List Item) {back : List UInt8}
    (h : pkt.HasArea (areaBytes items ++ dhcpoptEnd :: back)) :
    Returns (checkPass pkt) 0 (some (areaBytes items).length) := by
  refine returns_check_items items [] h (Returns.leave ?_)
  simp [checkPass, h.inside, load_area h.holds, dhcpoptEnd_ne_pad]

/-- The lookup finds the first option with the code, whatever follows it. -/
theorem returns_getopt_found (items : List Item) (o : DhcpOption)
    (hOther : ∀ item ∈ items, ¬item.HasCode o.code) {back : List UInt8}
    (h : pkt.HasArea (areaBytes items ++ (o.bytes ++ back))) :
    Returns (getoptPass pkt o.code) 0 (some (some (areaBytes items).length)) := by
  refine returns_getopt_items items o.notPad hOther [] h (Returns.leave ?_)
  simp only [DhcpOption.bytes, List.cons_append] at h
  simp [getoptPass, h.inside, load_area h.holds]

/-- Without such an option the lookup stops on the End byte. -/
theorem returns_getopt_end (items : List Item) {code : UInt8} (hPad : code ≠ dhcpoptPad)
    (hEnd : code ≠ dhcpoptEnd) (hOther : ∀ item ∈ items, ¬item.HasCode code) {back : List UInt8}
    (h : pkt.HasArea (areaBytes items ++ dhcpoptEnd :: back)) :
    Returns (getoptPass pkt code) 0 (some none) := by
  refine returns_getopt_items items hPad hOther [] h (Returns.leave ?_)
  simp [getoptPass, h.inside, load_area h.holds, hEnd.symm, dhcpoptEnd_ne_pad]

/-- On complete items in front of an End the lookup ends, with NULL or with the
first of them that has the code. -/
theorem getopt_area {items : List Item} {tail : List UInt8}
    (h : pkt.HasArea (areaBytes items ++ dhcpoptEnd :: tail)) {code : UInt8}
    (hPad : code ≠ dhcpoptPad) (hEnd : code ≠ dhcpoptEnd) :
    (items.find? (fun item => decide (item.HasCode code)) = none ∧
      mpDhcpPktGetopt pkt code = some none) ∨
    ∃ front o back, items = front ++ Item.option o :: back ∧ o.code = code ∧
      items.find? (fun item => decide (item.HasCode code)) = some (.option o) ∧
      mpDhcpPktGetopt pkt code = some (some (areaBytes front).length) := by
  cases hFind : items.find? (fun item => decide (item.HasCode code)) with
  | none =>
      left
      refine ⟨rfl, mpDhcpPktGetopt_eq (returns_getopt_end items hPad hEnd ?_ h)⟩
      intro item hItem
      simpa using List.find?_eq_none.mp hFind item hItem
  | some item =>
      right
      obtain ⟨hCode, front, back, hSplit, hFront⟩ := List.find?_eq_some_iff_append.mp hFind
      cases item with
      | pad => exact (of_decide_eq_true hCode).elim
      | option o =>
          have hSame : o.code = code := of_decide_eq_true hCode
          refine ⟨front, o, back, hSplit, hSame, rfl, ?_⟩
          subst hSame
          apply mpDhcpPktGetopt_eq
          apply returns_getopt_found front o
          · intro item hItem
            simpa using hFront item hItem
          · simpa [hSplit, Item.bytes] using h

end Walks

section Build

/-- The packet before any option was appended. -/
def emptyPkt : DhcpPkt := { opts := [], optlen := 0 }

def appendOpts : List DhcpOption → DhcpPkt → Option DhcpPkt
  | [], pkt => some pkt
  | o :: calls, pkt => (mpDhcpPktOpt pkt o.code o.data).bind (appendOpts calls)

/-- The options that leave something in the area: a call without data does not. -/
def keptOpts (calls : List DhcpOption) : List DhcpOption :=
  calls.filter fun o => !o.data.isEmpty

def optItems (options : List DhcpOption) : List Item := options.map Item.option

theorem storeAt_natCast (b : Block) (index : Nat) (bytes : List UInt8) :
    storeAt b (index : Int) bytes = store b index bytes := by
  simp [storeAt]

/-- The area holds `front`, and one byte that may be overwritten is counted. -/
structure DhcpPkt.Open (pkt : DhcpPkt) (front : List UInt8) : Prop where
  holds : Holds pkt.opts front
  optlen : pkt.optlen = front.length + 1

variable {pkt : DhcpPkt} {front : List UInt8}

theorem writeLast_open (h : pkt.Open front) (byte : UInt8)
    (hRoom : front.length + 1 ≤ pkt.opts.length) :
    ∃ pkt', writeLast pkt byte = some pkt' ∧ pkt'.HasArea (front ++ [byte]) ∧
      pkt'.opts.length = pkt.opts.length := by
  obtain ⟨opts, hStore, hHolds, hLength⟩ := h.holds.store [byte] (by simpa using hRoom)
  refine ⟨{ pkt with opts := opts }, ?_, ⟨hHolds, by simp [h.optlen]⟩, hLength⟩
  rw [writeLast, h.optlen, Int.add_sub_cancel, storeAt_natCast, hStore]
  rfl

theorem writeData_area {code : UInt8} (h : pkt.HasArea (front ++ [code])) (o : DhcpOption)
    (hCode : code = o.code) (hRoom : front.length + o.data.length + 2 ≤ pkt.opts.length) :
    ∃ pkt', writeData pkt o.data = some pkt' ∧
      pkt'.Open (front ++ if o.data.length = 0 then [] else o.bytes) ∧
      pkt'.opts.length = pkt.opts.length := by
  have hOptlen : pkt.optlen = ((front ++ [code]).length : Nat) := h.optlen
  rw [writeData]
  split
  · refine ⟨pkt, rfl, ⟨?_, ?_⟩, rfl⟩
    · simpa using h.holds.of_append
    · simp [hOptlen]
  · obtain ⟨opts, hLen, hLenHolds, hLenLength⟩ :=
      h.holds.store [UInt8.ofNat o.data.length] (by simp; omega)
    obtain ⟨opts', hData, hDataHolds, hDataLength⟩ := hLenHolds.store o.data (by simp; omega)
    have hBytes : front ++ [code] ++ [UInt8.ofNat o.data.length] ++ o.data = front ++ o.bytes := by
      simp [DhcpOption.bytes, hCode]
    refine ⟨{ opts := opts', optlen := pkt.optlen + (2 + o.data.length) }, ?_, ⟨?_, ?_⟩, ?_⟩
    · have hNext : pkt.optlen + 1 =
          ((front ++ [code] ++ [UInt8.ofNat o.data.length]).length : Nat) := by
        simp only [hOptlen, List.length_append, List.length_singleton]
        omega
      rw [hNext, hOptlen, storeAt_natCast, hLen, Option.bind_some, storeAt_natCast, hData]
      rfl
    · rwa [← hBytes]
    · simp [hOptlen, DhcpOption.bytes]
      omega
    · rw [hDataLength, hLenLength]

/-- One call on a packet that is empty or ends in End: all writes stay inside,
and the option, if it has data, stands in front of the new End. -/
theorem mpDhcpPktOpt_area (o : DhcpOption)
    (h : pkt.optlen = 0 ∧ front = [] ∨ pkt.HasArea (front ++ [dhcpoptEnd])) :
    ∃ pkt', mpDhcpPktOpt pkt o.code o.data = some pkt' ∧
      pkt'.HasArea (front ++ (if o.data.length = 0 then [] else o.bytes) ++ [dhcpoptEnd]) := by
  have hReserved : (reserveOpt pkt o.data.length).Open front ∧
      front.length + o.data.length + 3 = (reserveOpt pkt o.data.length).opts.length := by
    rw [reserveOpt]
    rcases h with ⟨hEmpty, rfl⟩ | hArea
    · rw [if_pos hEmpty]
      exact ⟨⟨Holds.nil _, rfl⟩, by simp⟩
    · have hOptlen : pkt.optlen = (front.length + 1 : Nat) := by simpa using hArea.optlen
      have hSize : (pkt.optlen + o.data.length + 2).toNat = front.length + o.data.length + 3 := by
        omega
      rw [if_neg (by omega), hSize]
      exact ⟨⟨hArea.holds.of_append.realloc (by omega), hOptlen⟩, by simp⟩
  obtain ⟨hOpen, hRoom⟩ := hReserved
  obtain ⟨pkt₁, hCode, hArea₁, hLength₁⟩ := writeLast_open hOpen o.code (by omega)
  obtain ⟨pkt₂, hData, hOpen₂, hLength₂⟩ := writeData_area hArea₁ o rfl (by omega)
  obtain ⟨pkt₃, hEnd, hArea₃, _⟩ := writeLast_open hOpen₂ dhcpoptEnd (by
    rw [List.length_append]
    split <;> simp [DhcpOption.bytes] <;> omega)
  refine ⟨pkt₃, ?_, hArea₃⟩
  simp [mpDhcpPktOpt, hCode, hData, hEnd]

/-- The area after these calls. Without any call there is no area at all. -/
def builtArea (calls : List DhcpOption) : List UInt8 :=
  if calls = [] then [] else areaBytes (optItems (keptOpts calls)) ++ [dhcpoptEnd]

theorem keptOpts_append (front back : List DhcpOption) :
    keptOpts (front ++ back) = keptOpts front ++ keptOpts back := by
  simp [keptOpts]

theorem areaBytes_keptOpts_singleton (o : DhcpOption) :
    areaBytes (optItems (keptOpts [o])) = if o.data.length = 0 then [] else o.bytes := by
  by_cases hData : o.data = []
  · simp [keptOpts, optItems, areaBytes, hData]
  · have hLength : o.data.length ≠ 0 := by simpa using hData
    simp [keptOpts, optItems, areaBytes, hData, Item.bytes]

/-- Every run of calls from an area that is empty or ends in End succeeds and
appends the kept options. -/
theorem appendOpts_area (calls : List DhcpOption) {before : List DhcpOption} {pkt : DhcpPkt}
    (h : pkt.HasArea (builtArea before)) :
    ∃ pkt', appendOpts calls pkt = some pkt' ∧ pkt'.HasArea (builtArea (before ++ calls)) := by
  induction calls generalizing before pkt with
  | nil => exact ⟨pkt, rfl, by simpa using h⟩
  | cons o calls ih =>
      have hStart : pkt.optlen = 0 ∧ areaBytes (optItems (keptOpts before)) = [] ∨
          pkt.HasArea (areaBytes (optItems (keptOpts before)) ++ [dhcpoptEnd]) := by
        by_cases hNone : before = []
        · exact Or.inl ⟨by simpa [builtArea, hNone] using h.optlen, by rw [hNone]; rfl⟩
        · exact Or.inr (by simpa [builtArea, hNone] using h)
      obtain ⟨pkt₁, hCall, hArea⟩ := mpDhcpPktOpt_area o hStart
      have hBuilt : pkt₁.HasArea (builtArea (before ++ [o])) := by
        rw [← areaBytes_keptOpts_singleton] at hArea
        rw [builtArea, if_neg (by simp), keptOpts_append, optItems, List.map_append,
          areaBytes_append]
        exact hArea
      obtain ⟨pkt', hRun, hEnd⟩ := ih hBuilt
      refine ⟨pkt', ?_, by simpa using hEnd⟩
      rw [appendOpts, hCall, Option.bind_some, hRun]

theorem builtArea_length (calls : List DhcpOption) :
    (builtArea calls).length = if calls = [] then 0
      else 1 + ((keptOpts calls).map fun o => 2 + o.data.length).sum := by
  have hBytes : ∀ options : List DhcpOption, (areaBytes (optItems options)).length =
      (options.map fun o => 2 + o.data.length).sum := by
    intro options
    induction options with
    | nil => rfl
    | cons o options ih =>
        simp only [optItems, List.map_cons, areaBytes_cons, List.length_append, List.sum_cons,
          Item.bytes, DhcpOption.bytes, List.length_cons] at ih ⊢
        omega
  rw [builtArea]
  split
  · rfl
  · rw [List.length_append, hBytes, List.length_singleton]
    omega

/-- Among options, the first item with a code is the first option with it. -/
theorem find_optItems (options : List DhcpOption) (code : UInt8) :
    (optItems options).find? (fun item => decide (item.HasCode code)) =
      (options.find? fun o => o.code == code).map Item.option := by
  rw [optItems, List.find?_map]
  rfl

/-- What the lookup gives on a built packet. -/
theorem getopt_built {calls : List DhcpOption} {pkt : DhcpPkt}
    (h : pkt.HasArea (builtArea calls)) {code : UInt8} (hPad : code ≠ dhcpoptPad)
    (hEnd : code ≠ dhcpoptEnd) :
    match (keptOpts calls).find? (fun o => o.code == code) with
    | none => mpDhcpPktGetopt pkt code = some none
    | some o => ∃ offset, mpDhcpPktGetopt pkt code = some (some offset) ∧
        offset + o.bytes.length < pkt.optlen ∧ Holds (pkt.opts.drop offset) o.bytes := by
  by_cases hNone : calls = []
  · subst hNone
    have hEmpty : pkt.optlen = 0 := by simpa [builtArea] using h.optlen
    refine mpDhcpPktGetopt_eq (Returns.leave ?_)
    simp [getoptPass, hEmpty]
  · rw [builtArea, if_neg hNone] at h
    rcases getopt_area h hPad hEnd with
      ⟨hFind, hNull⟩ | ⟨front, o, back, hSplit, hCode, hFind, hFound⟩
    · rw [find_optItems, Option.map_eq_none_iff] at hFind
      rw [hFind]
      exact hNull
    · rw [find_optItems, Option.map_eq_some_iff] at hFind
      obtain ⟨o', hFirst, hOption⟩ := hFind
      cases hOption
      rw [hFirst]
      rw [hSplit, areaBytes_append, areaBytes_cons, Item.bytes, List.append_assoc,
        List.append_assoc] at h
      refine ⟨_, hFound, ?_, h.holds.drop⟩
      rw [h.optlen]
      simp only [List.length_append, List.length_singleton]
      omega

theorem acceptsOpts_built {calls : List DhcpOption} {pkt : DhcpPkt}
    (h : pkt.HasArea (builtArea calls)) : acceptsOpts pkt = some true := by
  rw [acceptsOpts]
  split
  · rename_i hPositive
    have hSome : calls ≠ [] := by
      rintro rfl
      have hOptlen := h.optlen
      simp only [builtArea, if_true, List.length_nil] at hOptlen
      omega
    rw [builtArea, if_neg hSome] at h
    rw [checkOpts_eq (returns_check_end _ h)]
    simp [h.inside]
  · rfl

end Build

/-- Building, validating and looking up options. Every sequence of calls stays
inside the memory it allocates. The area is the kept options in call order and
one End byte once anything was called, `optlen` is its length, the walk of the
receiver accepts it, and a lookup returns the first kept option with the code,
bytes and all, or NULL. -/
theorem appendOpts_roundTrip (calls : List DhcpOption) :
    ∃ pkt, appendOpts calls emptyPkt = some pkt ∧
      Holds pkt.opts (builtArea calls) ∧
      pkt.optlen = (if calls = [] then 0
        else 1 + ((keptOpts calls).map fun o => 2 + o.data.length).sum : Nat) ∧
      acceptsOpts pkt = some true ∧
      ∀ code, code ≠ dhcpoptPad → code ≠ dhcpoptEnd →
        match (keptOpts calls).find? (fun o => o.code == code) with
        | none => mpDhcpPktGetopt pkt code = some none
        | some o => ∃ offset, mpDhcpPktGetopt pkt code = some (some offset) ∧
            offset + o.bytes.length < pkt.optlen ∧ Holds (pkt.opts.drop offset) o.bytes := by
  have hStart : emptyPkt.HasArea (builtArea []) := ⟨Holds.nil _, rfl⟩
  obtain ⟨pkt, hRun, hArea⟩ := appendOpts_area calls hStart
  rw [List.nil_append] at hArea
  refine ⟨pkt, hRun, hArea.holds, ?_, acceptsOpts_built hArea, ?_⟩
  · rw [hArea.optlen, builtArea_length]
  · intro code hPad hEnd
    exact getopt_built hArea hPad hEnd

/-- A message type and an empty option, in this order. -/
def messageTypeCalls : List DhcpOption :=
  [{ code := 53, data := [1], notPad := by decide, notEnd := by decide, short := by decide },
   { code := 80, data := [], notPad := by decide, notEnd := by decide, short := by decide }]

theorem appendOpts_roundTrip_messageType :
    ∃ pkt, appendOpts messageTypeCalls emptyPkt = some pkt ∧ pkt.optlen = 4 ∧
      acceptsOpts pkt = some true ∧ mpDhcpPktGetopt pkt 80 = some none := by
  obtain ⟨pkt, hRun, -, hOptlen, hAccepts, hGetopt⟩ := appendOpts_roundTrip messageTypeCalls
  exact ⟨pkt, hRun, hOptlen, hAccepts, hGetopt 80 (by decide) (by decide)⟩

/-- Without any call there is no End byte: the packet keeps `optlen` 0. -/
theorem appendOpts_nil_no_end :
    ¬∀ calls : List DhcpOption, ∃ pkt, appendOpts calls emptyPkt = some pkt ∧
      Holds pkt.opts (areaBytes (optItems (keptOpts calls)) ++ [dhcpoptEnd]) ∧
      pkt.optlen = (1 + ((keptOpts calls).map fun o => 2 + o.data.length).sum : Nat) := by
  intro h
  obtain ⟨pkt, hRun, -, hOptlen⟩ := h []
  cases Option.some.inj hRun
  simp [emptyPkt, keptOpts] at hOptlen

end MonitoringPlug.Dhcp
