import MonitoringPlug.Dhcp.Dump

/-! How much of an option's data `check_dhcp` and `mp_dhcp_pkt_dump` use, compared with the
length the option says it has. -/
namespace MonitoringPlug.Dhcp

open CMemory CLoop

/-- The bytes of its data that an option is printed from. A text is as long as the option. -/
def printedBytes (code : UInt8) : Nat :=
  if code = dhcpoptMessageType then 1 else if isAddress code then 4 else 0

/-- Where the walk of the dump goes from an index. Only codes and lengths decide it. -/
def walkNext (pkt : DhcpPkt) (i : UInt8) : Option UInt8 :=
  if (i.toNat : Int) < pkt.optlen then do
    let code ← load pkt.opts i.toNat
    if code = dhcpoptPad then some (i + 1)
    else if code = dhcpoptEnd then some (UInt8.ofNat (pkt.optlen + 1).toNat)
    else do
      let len ← load pkt.opts (i.toNat + 1)
      some (i + (len + 2))
  else none

/-- The indices the walk comes to. -/
inductive Visits (pkt : DhcpPkt) : UInt8 → Prop where
  | start : Visits pkt 0
  | next {i j : UInt8} (prior : Visits pkt i) (last : walkNext pkt i = some j) : Visits pkt j

/-- `check_dhcp` uses this many bytes of the data of the option at `offset`. With a host the
server is compared first, and the type is looked at when it is the right one. -/
inductive CheckUses (pkt : Reply) : Option (List Char × InAddr) → Nat → Nat → Prop where
  | server {host : List Char × InAddr} {offset : Nat}
      (found : mpDhcpPktGetopt pkt.toDhcpPkt dhcpoptServerId = some (some offset)) :
      CheckUses pkt (some host) offset 4
  | answer {hostname : List Char} {address : InAddr} {offset : Nat}
      (same : fromServer hostname address pkt = some true)
      (found : mpDhcpPktGetopt pkt.toDhcpPkt dhcpoptMessageType = some (some offset)) :
      CheckUses pkt (some (hostname, address)) offset 1
  | type {offset : Nat}
      (found : mpDhcpPktGetopt pkt.toDhcpPkt dhcpoptMessageType = some (some offset)) :
      CheckUses pkt none offset 1

/-- And so does `mp_dhcp_pkt_dump`. -/
inductive DumpUses (pkt : DhcpPkt) : Nat → Nat → Prop where
  | heading {offset : Nat}
      (found : mpDhcpPktGetopt pkt dhcpoptMessageType = some (some offset)) :
      DumpUses pkt offset 1
  | printed {i code : UInt8} (visited : Visits pkt i) (inside : (i.toNat : Int) < pkt.optlen)
      (loaded : load pkt.opts i.toNat = some code) :
      DumpUses pkt i.toNat (printedBytes code)

/-- No consumer uses more of an option in front of the End than its length says. -/
def UsesInside (pkt : Reply) : Prop :=
  ∀ front o back tail,
    pkt.HasArea (areaBytes (front ++ Item.option o :: back) ++ dhcpoptEnd :: tail) →
      ∀ host count, CheckUses pkt host (areaBytes front).length count ∨
          DumpUses pkt.toDhcpPkt (areaBytes front).length count →
        count ≤ o.data.length

/-- An option that is looked up or that the walk comes to has the length it is used with. -/
def LongEnough (pkt : DhcpPkt) : Prop :=
  ∀ front o back tail,
    pkt.HasArea (areaBytes (front ++ Item.option o :: back) ++ dhcpoptEnd :: tail) →
      (areaBytes front).length ≤ 255 ∨
        (o.code = dhcpoptServerId ∨ o.code = dhcpoptMessageType) ∧
          (∀ item ∈ front, ¬ item.HasCode o.code) →
        printedBytes o.code ≤ o.data.length

section Positions

variable {pkt : DhcpPkt} {tail : List UInt8}

theorem walkNext_item {front back : List UInt8} (item : Item)
    (h : pkt.HasArea (front ++ (item.bytes ++ back))) (hSmall : front.length ≤ 255) :
    walkNext pkt (UInt8.ofNat front.length) =
      some (UInt8.ofNat (front ++ item.bytes).length) := by
  have hIndex := toNat_ofNat_of_le hSmall
  cases item with
  | pad =>
      simp only [Item.bytes, List.cons_append, List.nil_append] at h
      simp [walkNext, hIndex, h.inside, load_area h.holds, Item.bytes]
  | option o =>
      have hNext := index_behind_option front o
      simp only [Item.bytes, DhcpOption.bytes, List.cons_append] at h
      simp only [walkNext, hIndex, if_pos h.inside, load_area h.holds, load_area_succ h.holds,
        if_neg o.notPad, if_neg o.notEnd, Option.bind_eq_bind, Option.bind_some, hNext,
        Item.bytes]

/-- The walk comes to every item whose offset an index can be. -/
theorem visits_item (front : List Item) {back : List Item}
    (h : pkt.HasArea (areaBytes (front ++ back) ++ dhcpoptEnd :: tail))
    (hSmall : (areaBytes front).length ≤ 255) :
    Visits pkt (UInt8.ofNat (areaBytes front).length) := by
  induction front using List.reverseRecOn generalizing back with
  | nil => exact Visits.start
  | append_singleton front item ih =>
      rw [areaBytes_append, List.length_append] at hSmall
      rw [List.append_assoc] at h
      have hPrior := @ih ([item] ++ back) h (by omega)
      refine hPrior.next ?_
      have hItem : pkt.HasArea
          (areaBytes front ++ (item.bytes ++ (areaBytes back ++ dhcpoptEnd :: tail))) := by
        simpa using h
      rw [walkNext_item item hItem (by omega), areaBytes_append]
      simp [areaBytes]

/-- The first option with a code is the one that is looked up. -/
theorem getopt_first {front back : List Item} {o : DhcpOption}
    (h : pkt.HasArea (areaBytes (front ++ Item.option o :: back) ++ dhcpoptEnd :: tail))
    (hFirst : ∀ item ∈ front, ¬ item.HasCode o.code) :
    mpDhcpPktGetopt pkt o.code = some (some (areaBytes front).length) := by
  have hArea : pkt.HasArea
      (areaBytes front ++ (o.bytes ++ (areaBytes back ++ dhcpoptEnd :: tail))) := by
    simpa [Item.bytes] using h
  exact mpDhcpPktGetopt_eq (returns_getopt_found front o hFirst hArea)

/-- At the offset of an option lies its code. -/
theorem option_at_offset {front back : List Item} {o : DhcpOption}
    (h : pkt.HasArea (areaBytes (front ++ Item.option o :: back) ++ dhcpoptEnd :: tail)) :
    ((areaBytes front).length : Int) < pkt.optlen ∧
      load pkt.opts (areaBytes front).length = some o.code := by
  have hItem : pkt.HasArea (areaBytes front ++ o.code :: (UInt8.ofNat o.data.length :: o.data ++
      (areaBytes back ++ dhcpoptEnd :: tail))) := by
    simpa [Item.bytes, DhcpOption.bytes] using h
  exact ⟨hItem.inside, load_area hItem.holds⟩

theorem Item.bytes_length_pos (item : Item) : 0 < item.bytes.length := by
  cases item with
  | pad => exact Nat.one_pos
  | option o => exact Nat.succ_pos _

/-- Items at the same offset are the same. -/
theorem items_at_offset {front front' back back' : List Item} {item item' : Item}
    (h : front ++ item :: back = front' ++ item' :: back')
    (hOffset : (areaBytes front).length = (areaBytes front').length) :
    front = front' ∧ item = item' := by
  have hNone : ∀ more : List Item, (areaBytes more).length = 0 → more = [] := by
    intro more hEmpty
    cases more with
    | nil => rfl
    | cons first more =>
        have hPos := first.bytes_length_pos
        rw [areaBytes_cons, List.length_append] at hEmpty
        omega
  rcases List.append_eq_append_iff.mp h with ⟨more, rfl, hRest⟩ | ⟨more, rfl, hRest⟩
  · have hMore := hNone more (by simpa using hOffset)
    subst hMore
    cases hRest
    exact ⟨by simp, rfl⟩
  · have hMore := hNone more (by simpa using hOffset)
    subst hMore
    cases hRest
    exact ⟨by simp, rfl⟩

/-- What is looked up at the offset of an option is that option, the first with its code. -/
theorem getopt_offset {front back : List Item} {o : DhcpOption}
    (h : pkt.HasArea (areaBytes (front ++ Item.option o :: back) ++ dhcpoptEnd :: tail))
    {code : UInt8} (hPad : code ≠ dhcpoptPad) (hEnd : code ≠ dhcpoptEnd)
    (hFound : mpDhcpPktGetopt pkt code = some (some (areaBytes front).length)) :
    o.code = code ∧ ∀ item ∈ front, ¬ item.HasCode code := by
  cases hFind : (front ++ Item.option o :: back).find?
      (fun item => decide (item.HasCode code)) with
  | none =>
      have hOther : ∀ item ∈ front ++ Item.option o :: back, ¬ item.HasCode code := by
        intro item hItem
        simpa using List.find?_eq_none.mp hFind item hItem
      rw [mpDhcpPktGetopt_eq (returns_getopt_end _ hPad hEnd hOther h)] at hFound
      cases hFound
  | some item =>
      obtain ⟨hCode, front', back', hSplit, hFront⟩ := List.find?_eq_some_iff_append.mp hFind
      cases item with
      | pad => exact (of_decide_eq_true hCode).elim
      | option o' =>
          have hSame : o'.code = code := of_decide_eq_true hCode
          have hNone : ∀ item ∈ front', ¬ item.HasCode o'.code := by
            intro item hItem
            simpa [hSame] using hFront item hItem
          subst hSame
          rw [hSplit] at h
          rw [getopt_first h hNone] at hFound
          obtain ⟨rfl, hItem⟩ := items_at_offset hSplit
            (by simpa using hFound.symm)
          cases hItem
          exact ⟨rfl, hNone⟩

/-- The dump goes where the walk goes, as long as it can print. -/
theorem dumpPass_walkNext {s next : Dumping} (h : dumpPass pkt s = .again next) :
    walkNext pkt s.i = some next.i := by
  unfold dumpPass at h
  unfold walkNext
  split at h
  · rename_i hInside
    rw [if_pos hInside]
    split at h
    · cases h
    · rename_i code hCode
      simp only [hCode, Option.bind_eq_bind, Option.bind_some]
      split_ifs at h ⊢
      · cases h
        rfl
      · cases h
        rfl
      · split at h
        · cases h
        · rename_i len hLen
          split at h
          · cases h
          · cases h
            simp [hLen]
  · cases h

theorem reaches_visits {s : Dumping} (h : Reaches (dumpPass pkt) { i := 0, lines := [] } s) :
    Visits pkt s.i := by
  induction h with
  | start => exact Visits.start
  | pass prior last ih => exact ih.next (dumpPass_walkNext last)

end Positions

theorem printedBytes_server : printedBytes dhcpoptServerId = 4 := by decide

theorem printedBytes_type : printedBytes dhcpoptMessageType = 1 := by decide

/-- The consumers stay inside of the options exactly when each option that is looked up,
and each one at an offset of the walk, is as long as it is used. -/
theorem usesInside_iff (pkt : Reply) : UsesInside pkt ↔ LongEnough pkt.toDhcpPkt := by
  constructor
  · intro hUses front o back tail hArea hReached
    have hCount := hUses front o back tail hArea
    rcases hReached with hSmall | ⟨hCode, hFirst⟩
    · have hIndex := toNat_ofNat_of_le hSmall
      have hVisits := visits_item front hArea hSmall
      obtain ⟨hInside, hCode⟩ := option_at_offset hArea
      have hUse := DumpUses.printed hVisits (by rw [hIndex]; exact hInside)
        (by rw [hIndex]; exact hCode)
      rw [hIndex] at hUse
      exact hCount none _ (Or.inr hUse)
    · have hFound := getopt_first hArea hFirst
      rcases hCode with hServer | hType
      · rw [hServer] at hFound ⊢
        rw [printedBytes_server]
        exact hCount (some ([], ⟨0, 0, 0, 0⟩)) 4 (Or.inl (CheckUses.server hFound))
      · rw [hType] at hFound ⊢
        rw [printedBytes_type]
        exact hCount none 1 (Or.inl (CheckUses.type hFound))
  · intro hLong front o back tail hArea host count hUse
    have hOwn := hLong front o back tail hArea
    -- What is looked up here is the first option with its code.
    have hLooked : ∀ code, code = dhcpoptServerId ∨ code = dhcpoptMessageType →
        mpDhcpPktGetopt pkt.toDhcpPkt code = some (some (areaBytes front).length) →
          printedBytes code ≤ o.data.length := by
      intro code hCode hFound
      have hOption : code ≠ dhcpoptPad ∧ code ≠ dhcpoptEnd := by
        rcases hCode with rfl | rfl
        · exact ⟨by decide, by decide⟩
        · exact ⟨by decide, by decide⟩
      obtain ⟨rfl, hFirst⟩ := getopt_offset hArea hOption.1 hOption.2 hFound
      exact hOwn (Or.inr ⟨hCode, hFirst⟩)
    rcases hUse with hCheck | hDump
    · cases hCheck with
      | server hFound => exact hLooked _ (Or.inl rfl) hFound
      | answer hSame hFound => exact hLooked _ (Or.inr rfl) hFound
      | type hFound => exact hLooked _ (Or.inr rfl) hFound
    · generalize hOffset : (areaBytes front).length = offset at hDump
      cases hDump with
      | heading hFound =>
          subst hOffset
          exact hLooked _ (Or.inr rfl) hFound
      | @printed i code hVisited hInside hLoaded =>
          have hCode := (option_at_offset hArea).2
          rw [hOffset, hLoaded] at hCode
          cases hCode
          have hByte := i.toNat_lt
          exact hOwn (Or.inl (by omega))

theorem nil_short : ([] : List UInt8).length ≤ 255 := by decide

/-- A server identifier without data. -/
def emptyServerId : DhcpOption where
  code := dhcpoptServerId
  data := []
  notPad := by decide
  notEnd := by decide
  short := nil_short

/-- In front of an End it is accepted, and compared over four bytes. -/
theorem emptyServerId_not_inside :
    ∃ pkt, mpDhcpRecv [0, 0, 0, 0]
        [.datagram (replyWith (areaBytes [.option emptyServerId] ++ dhcpoptEnd :: []))] =
          some (some pkt) ∧ ¬ UsesInside { pkt with sname := [] } := by
  obtain ⟨hReceived, hArea⟩ :=
    @received_replyWith [.option emptyServerId] [] (by decide)
  refine ⟨_, hReceived, fun hInside => ?_⟩
  have hFound := getopt_first hArea (List.forall_mem_nil _)
  have hCount := hInside [] emptyServerId [] [] hArea (some ([], ⟨0, 0, 0, 0⟩)) 4
    (Or.inl (CheckUses.server hFound))
  exact absurd hCount (by decide)

end MonitoringPlug.Dhcp
