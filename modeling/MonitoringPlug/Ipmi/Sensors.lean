import MonitoringPlug.Args.Range
import MonitoringPlug.Lib.Chain
import MonitoringPlug.Lib.Loop
import MonitoringPlug.Lib.Rounds

/-! The list of IPMI sensors: how OpenIPMI's callbacks build it, what
`mp_ipmi_domain_up` takes out of it, and the search of `check_ipmi_fan`. -/
namespace MonitoringPlug.Ipmi

open CMemory CLoop MonitoringPlug.Args

/-- `struct mp_ipmi_sensor_list` without its pointer to the next one. `sensor` and
`states` are pointers of OpenIPMI. -/
structure MpIpmiSensor where
  sensor : Nat
  name : Option (List Char)
  value : ℚ
  states : Option Nat
  sensorThresholds : Option Thresholds
deriving DecidableEq

/-- `enum ipmi_update_e`. -/
inductive Update where
  | added
  | deleted
  | changed
deriving DecidableEq

/-- `enum ipmi_value_present_e`. -/
inductive ValuePresent where
  | noValues
  | rawValue
  | bothValues
deriving DecidableEq

/-- What OpenIPMI tells about a sensor: `id` is what `ipmi_sensor_get_id` writes. -/
structure SensorInfo where
  sensor : Nat
  id : List Char
  readable : Bool
  eventReadingType : Nat

/-- What `ipmi_threshold_get` yields for the four thresholds that are asked for. -/
structure SensorBounds where
  lowerCritical : Option ℚ
  lowerNonCritical : Option ℚ
  upperCritical : Option ℚ
  upperNonCritical : Option ℚ

/-- The callbacks a sensor can be handed to. -/
inductive Request where
  | reading
  | thresholds
  | states
deriving DecidableEq

/-- The list and its head, and what OpenIPMI was asked to call back, with the
pointer it passes on. -/
structure SensorState where
  heap : NodeHeap MpIpmiSensor
  mpIpmiSensors : Option Nat
  requested : List (Request × Nat)

/-- The callbacks as OpenIPMI makes them. -/
inductive Event where
  | sensorChange (op : Update) (sensor : SensorInfo)
  | read (userData : Nat) (valuePresent : ValuePresent) (scanningEnabled : Bool)
      (initialUpdateInProgress : Bool) (value : ℚ)
  | thresholds (userData : Nat) (err : Int) (bounds : SensorBounds)
  | states (userData : Nat) (err : Int) (states : Nat)

def eventReadingTypeThreshold : Nat := 1

/-- `readingtype` is `mp_ipmi_readingtype`, 0 for any. -/
def mpIpmiSensorChange (readingtype : Nat) (op : Update) (sensor : SensorInfo)
    (st : SensorState) : SensorState :=
  if op ≠ .added ∨ sensor.readable = false then st
  else
    let s : MpIpmiSensor := { sensor := sensor.sensor, name := some sensor.id, value := 0,
                              states := none, sensorThresholds := none }
    let (address, heap) := st.heap.alloc { value := s, next := st.mpIpmiSensors }
    let st := { st with heap := heap, mpIpmiSensors := some address }
    if readingtype ≠ 0 ∧ sensor.eventReadingType ≠ readingtype then st
    else if sensor.eventReadingType = eventReadingTypeThreshold then
      { st with requested := (.reading, address) :: (.thresholds, address) :: st.requested }
    else { st with requested := (.states, address) :: st.requested }

/-- The reading gives no value that could be checked. -/
def unreadable (valuePresent : ValuePresent) (scanningEnabled initialUpdateInProgress : Bool) :
    Bool :=
  valuePresent == .noValues || !scanningEnabled || initialUpdateInProgress

def mpIpmiSensorReadHandler (valuePresent : ValuePresent)
    (scanningEnabled initialUpdateInProgress : Bool) (value : ℚ) (s : MpIpmiSensor) :
    MpIpmiSensor :=
  if unreadable valuePresent scanningEnabled initialUpdateInProgress then { s with name := none }
  else { s with value := value }

def setStart (bound : Option ℚ) (range : Range) : Range :=
  match bound with
  | none => range
  | some val => { range with start := val, startInfinity := false }

def setEnd (bound : Option ℚ) (range : Range) : Range :=
  match bound with
  | none => range
  | some val => { range with end_ := val, endInfinity := false }

def mpIpmiSensorThresholdsHandler (err : Int) (bounds : SensorBounds) (s : MpIpmiSensor) :
    MpIpmiSensor :=
  if err ≠ 0 then s
  else
    let t := (mpThresholdSetWarning s.sensorThresholds ['~', ':'] .noext).2
    let t := (mpThresholdSetCritical (some t) ['~', ':'] .noext).2
    let warning := t.warning.map (setEnd bounds.upperNonCritical ∘ setStart bounds.lowerNonCritical)
    let critical := t.critical.map (setEnd bounds.upperCritical ∘ setStart bounds.lowerCritical)
    { s with sensorThresholds := some { warning := warning, critical := critical } }

def mpIpmiSensorStatesHandler (err : Int) (states : Nat) (s : MpIpmiSensor) : MpIpmiSensor :=
  if err ≠ 0 then s else { s with states := some states }

/-- A handler works on the sensor its `user_data` points to. OpenIPMI only calls
back what it was asked for. -/
def callBack (request : Request) (userData : Nat) (handler : MpIpmiSensor → MpIpmiSensor)
    (st : SensorState) : Option SensorState := do
  guard ((request, userData) ∈ st.requested)
  let node ← st.heap.load userData
  let heap ← st.heap.store userData { node with value := handler node.value }
  some { st with heap := heap }

def eventStep (readingtype : Nat) (st : SensorState) : Event → Option SensorState
  | .sensorChange op sensor => some (mpIpmiSensorChange readingtype op sensor st)
  | .read userData valuePresent scanningEnabled initialUpdateInProgress value =>
      callBack .reading userData
        (mpIpmiSensorReadHandler valuePresent scanningEnabled initialUpdateInProgress value) st
  | .thresholds userData err bounds =>
      callBack .thresholds userData (mpIpmiSensorThresholdsHandler err bounds) st
  | .states userData err states =>
      callBack .states userData (mpIpmiSensorStatesHandler err states) st

/-- What a sequence of callbacks leaves, from the empty list on. -/
def runEvents (readingtype : Nat) (events : List Event) : Option SensorState :=
  events.foldlM (eventStep readingtype) { heap := [], mpIpmiSensors := none, requested := [] }

/-- One test of the `while` in `mp_ipmi_domain_up` and what follows from it. A
pointer that is not allocated ends in no heap. -/
def cleanPass : NodeHeap MpIpmiSensor × Option Nat →
    Pass (NodeHeap MpIpmiSensor × Option Nat) (Option (NodeHeap MpIpmiSensor))
  | (heap, none) => .leave (some heap)
  | (heap, some s) =>
      match heap.load s with
      | none => .leave none
      | some node =>
          match node.next with
          | none => .again (heap, none)
          | some next =>
              match heap.load next with
              | none => .leave none
              | some behind =>
                  if behind.value.name.isSome then .again (heap, some next)
                  else
                    match heap.free next >>= (·.store s { node with next := behind.next }) with
                    | none => .leave none
                    | some heap => .again (heap, some s)

/-- The search of `check_ipmi_fan` for one of the fans it is given. `strcmp` on a
NULL name has no result. -/
def fanPass (fan : List Char) (heap : NodeHeap MpIpmiSensor) : Option Nat →
    Pass (Option Nat) (Option (Option Nat))
  | none => .leave (some none)
  | some s =>
      match heap.load s with
      | none => .leave none
      | some node =>
          match node.value.name with
          | none => .leave none
          | some name => if name = fan then .leave (some (some s)) else .again node.next

/-- The sensor still has its name. -/
def named (entry : Nat × MpIpmiSensor) : Bool := entry.2.name.isSome

theorem named_eq_false {entry : Nat × MpIpmiSensor} :
    named entry = false ↔ entry.2.name = none := by
  simp [named]

theorem cleanPass_named {heap : NodeHeap MpIpmiSensor} {s next : Nat}
    {value : MpIpmiSensor} {behind : Node MpIpmiSensor}
    (hHere : heap.load s = some { value := value, next := some next })
    (hBehind : heap.load next = some behind) (hNamed : behind.value.name.isSome) :
    cleanPass (heap, some s) = .again (heap, some next) := by
  simp only [cleanPass, hHere, hBehind, if_pos hNamed]

theorem cleanPass_cleared {heap : NodeHeap MpIpmiSensor} {s next : Nat}
    {value : MpIpmiSensor} {behind : Node MpIpmiSensor}
    (hHere : heap.load s = some { value := value, next := some next })
    (hBehind : heap.load next = some behind) (hCleared : behind.value.name = none)
    (hOther : s ≠ next) :
    cleanPass (heap, some s) =
      .again (List.set (heap.set next none) s (some { value := value, next := behind.next }),
        some s) := by
  have hStill : NodeHeap.load (heap.set next none) s =
      some { value := value, next := some next } := by
    rw [NodeHeap.load_set, if_neg fun hBoth => hOther hBoth.1, hHere]
  have hFree := NodeHeap.free_eq hBehind
  have hStore := NodeHeap.store_eq hStill { value := value, next := behind.next }
  simp [cleanPass, hHere, hBehind, hCleared, hFree, hStore]

/-- From a sensor on, all that have lost their name are taken out, but not that
sensor itself. -/
theorem clean_from {heap : NodeHeap MpIpmiSensor} {s : Nat} {value : MpIpmiSensor}
    {rest : List (Nat × MpIpmiSensor)} (h : Chain heap (some s) ((s, value) :: rest)) :
    ∃ heap', Returns cleanPass (heap, some s) (some heap') ∧
      Chain heap' (some s) ((s, value) :: rest.filter named) ∧
      ∀ address, address ∉ ((s, value) :: rest).map Prod.fst →
        heap'.load address = heap.load address := by
  induction rest generalizing heap s value with
  | nil =>
      refine ⟨heap, ?_, h, fun _ _ => rfl⟩
      cases h with
      | node here behind =>
          cases behind with
          | null =>
              have hPass : cleanPass (heap, some s) = .again (heap, none) := by
                simp only [cleanPass, here]
              exact Returns.again hPass (Returns.leave rfl)
  | cons entry rest ih =>
      obtain ⟨next, behind⟩ := entry
      have hOther : s ≠ next := fun hSame => h.address_notMem (by simp [hSame])
      cases hChain : h with
      | @node _ _ pointer _ hHere hRest =>
          cases hRest with
          | @node _ _ pointer' _ hBehind hLast =>
              cases hNamed : named (next, behind) with
              | false =>
                  have hCleared : behind.name = none := named_eq_false.mp hNamed
                  obtain ⟨heap', hReturns, hChain', hFrame⟩ := ih (h.unlink hHere hBehind)
                  refine ⟨heap', ?_, ?_, ?_⟩
                  · exact Returns.again (cleanPass_cleared hHere hBehind hCleared hOther) hReturns
                  · rw [List.filter_cons_of_neg (by simp [hNamed])]
                    exact hChain'
                  · intro address hNotMem
                    simp only [List.map_cons, List.mem_cons, not_or] at hNotMem
                    rw [hFrame address (by simp [hNotMem.1, hNotMem.2.2]), NodeHeap.load_set,
                      if_neg (by simp [hNotMem.1]), NodeHeap.load_set,
                      if_neg (by simp [hNotMem.2.1])]
              | true =>
                  obtain ⟨heap', hReturns, hChain', hFrame⟩ :=
                    ih (Chain.node hBehind hLast)
                  refine ⟨heap', ?_, ?_, ?_⟩
                  · exact Returns.again (cleanPass_named hHere hBehind hNamed) hReturns
                  · rw [List.filter_cons_of_pos hNamed]
                    apply Chain.node _ hChain'
                    rw [hFrame s h.address_notMem, hHere]
                  · intro address hNotMem
                    apply hFrame
                    intro hMem
                    exact hNotMem (List.mem_cons_of_mem _ hMem)

/-- The list as `mp_ipmi_domain_up` leaves it: the first sensor stays in any case. -/
def keptBy (nodes : List (Nat × MpIpmiSensor)) : List (Nat × MpIpmiSensor) :=
  nodes.head?.toList ++ nodes.tail.filter named

theorem clean_returns {heap : NodeHeap MpIpmiSensor} {pointer : Option Nat}
    {nodes : List (Nat × MpIpmiSensor)} (h : Chain heap pointer nodes) :
    ∃ heap', Returns cleanPass (heap, pointer) (some heap') ∧
      Chain heap' pointer (keptBy nodes) := by
  cases hChain : h with
  | null => exact ⟨heap, Returns.leave rfl, Chain.null⟩
  | node here behind =>
      obtain ⟨heap', hReturns, hKept, -⟩ := clean_from h
      exact ⟨heap', hReturns, hKept⟩

theorem keptBy_eq_filter_iff (nodes : List (Nat × MpIpmiSensor)) :
    keptBy nodes = nodes.filter named ↔ ∀ entry ∈ nodes.head?, named entry = true := by
  cases nodes with
  | nil => simp [keptBy]
  | cons entry rest =>
      cases hNamed : named entry with
      | true => simp [keptBy, hNamed]
      | false =>
          have hLength := (rest.filter_sublist (p := named)).length_le
          simp only [keptBy, List.head?_cons, Option.toList_some, List.tail_cons,
            List.singleton_append, List.filter_cons_of_neg (by simp [hNamed] : ¬named entry = true),
            Option.mem_some_iff, forall_eq', hNamed, Bool.false_eq_true, iff_false]
          intro hSame
          have := congrArg List.length hSame
          simp at this

/-- The search ends on a list whose sensors all have names. -/
theorem fan_returns_of_named {heap : NodeHeap MpIpmiSensor} {pointer : Option Nat}
    {nodes : List (Nat × MpIpmiSensor)} (h : Chain heap pointer nodes)
    (hNamed : ∀ entry ∈ nodes, named entry = true) (fan : List Char) :
    ∃ found, Returns (fanPass fan heap) pointer (some found) := by
  induction h with
  | null => exact ⟨none, Returns.leave rfl⟩
  | @node s value next rest here behind ih =>
      have hSome : value.name.isSome := hNamed (s, value) (List.mem_cons_self ..)
      obtain ⟨name, hName⟩ := Option.isSome_iff_exists.mp hSome
      by_cases hFan : name = fan
      · refine ⟨some s, Returns.leave ?_⟩
        simp only [fanPass, here, hName, if_pos hFan]
      · obtain ⟨found, hFound⟩ :=
          ih fun entry hEntry => hNamed entry (List.mem_cons_of_mem _ hEntry)
        refine ⟨found, Returns.again ?_ hFound⟩
        simp only [fanPass, here, hName, if_neg hFan]

/-- It ends in `strcmp` on NULL when the first one has lost its name. -/
theorem fan_faults_of_cleared {heap : NodeHeap MpIpmiSensor} {s : Nat} {value : MpIpmiSensor}
    {rest : List (Nat × MpIpmiSensor)} (h : Chain heap (some s) ((s, value) :: rest))
    (hCleared : value.name = none) (fan : List Char) :
    Returns (fanPass fan heap) (some s) none := by
  cases h with
  | node here behind =>
      apply Returns.leave
      simp only [fanPass, here, hCleared]

/-- Behind the clean-up only the first sensor can make the search fault. -/
theorem fan_returns_iff {heap : NodeHeap MpIpmiSensor} {pointer : Option Nat}
    {nodes : List (Nat × MpIpmiSensor)} (h : Chain heap pointer (keptBy nodes)) :
    (∀ fan, ∃ found, Returns (fanPass fan heap) pointer (some found)) ↔
      ∀ entry ∈ nodes.head?, named entry = true := by
  constructor
  · intro hSearch entry hFirst
    obtain ⟨rest, rfl⟩ : ∃ rest, nodes = entry :: rest := List.head?_eq_some_iff.mp hFirst
    obtain ⟨s, value⟩ := entry
    by_contra hNot
    have hCleared : value.name = none := named_eq_false.mp (by simpa using hNot)
    obtain ⟨found, hFound⟩ := hSearch []
    cases hPointer : pointer with
    | none =>
        rw [hPointer] at h
        cases h
    | some address =>
        rw [hPointer] at h hFound
        obtain rfl : address = s := by
          cases h
          rfl
        cases hFound.unique (fan_faults_of_cleared h hCleared [])
  · intro hNamed fan
    apply fan_returns_of_named h
    intro entry hEntry
    rcases List.mem_append.mp hEntry with hFirst | hRest
    · exact hNamed entry (by simpa using hFirst)
    · exact (List.mem_filter.mp hRest).2

/-- The event adds a sensor to the list. -/
def adds : Event → Bool
  | .sensorChange op sensor => op == .added && sensor.readable
  | _ => false

/-- The event takes the name of the sensor at this address. -/
def clears (address : Nat) : Event → Bool
  | .read userData valuePresent scanningEnabled initialUpdateInProgress _ =>
      userData == address && unreadable valuePresent scanningEnabled initialUpdateInProgress
  | _ => false

/-- The sensor added last has not lost its name. Sensors are numbered as they are
added, from 0. -/
def NewestKept (events : List Event) : Prop :=
  ∀ e ∈ events, clears (events.countP adds - 1) e = false

/-- What is true of the list after any callbacks. -/
structure Tracks (events : List Event) (st : SensorState) : Prop where
  length : st.heap.length = events.countP adds
  chain : ∃ nodes, Chain st.heap st.mpIpmiSensors nodes ∧
    nodes.map Prod.fst = (List.range st.heap.length).reverse
  allocated : ∀ address < st.heap.length, ∃ node, st.heap.load address = some node
  requested : ∀ request ∈ st.requested, request.2 < st.heap.length
  cleared : ∀ address node, st.heap.load address = some node →
    (node.value.name = none ↔ ∃ e ∈ events, clears address e = true)
  earlier : ∀ e ∈ events, ∀ address, clears address e = true → address < st.heap.length

theorem Tracks.head {events : List Event} {st : SensorState} (h : Tracks events st)
    {nodes : List (Nat × MpIpmiSensor)} (hChain : Chain st.heap st.mpIpmiSensors nodes) :
    nodes.map Prod.fst = (List.range st.heap.length).reverse := by
  obtain ⟨nodes', hChain', hAddresses⟩ := h.chain
  rw [hChain.unique hChain', hAddresses]

theorem adds_sensorChange (op : Update) (sensor : SensorInfo) :
    adds (.sensorChange op sensor) = true ↔ ¬(op ≠ .added ∨ sensor.readable = false) := by
  cases op <;> simp [adds]

/-- A sensor that is added, whatever is asked for it. -/
theorem mpIpmiSensorChange_of_adds (readingtype : Nat) {op : Update} {sensor : SensorInfo}
    (st : SensorState) (hAdds : adds (.sensorChange op sensor) = true) :
    let s : MpIpmiSensor := { sensor := sensor.sensor, name := some sensor.id, value := 0,
                              states := none, sensorThresholds := none }
    let st' := mpIpmiSensorChange readingtype op sensor st
    st'.heap = (st.heap.alloc { value := s, next := st.mpIpmiSensors }).2 ∧
      st'.mpIpmiSensors = some st.heap.length ∧
      ∀ request ∈ st'.requested, request ∈ st.requested ∨ request.2 = st.heap.length := by
  rw [adds_sensorChange] at hAdds
  simp only [mpIpmiSensorChange, if_neg hAdds]
  split_ifs
  · exact ⟨rfl, rfl, fun request hMem => Or.inl hMem⟩
  · refine ⟨rfl, rfl, fun request hMem => ?_⟩
    simp only [List.mem_cons] at hMem
    rcases hMem with rfl | rfl | hMem
    · exact Or.inr rfl
    · exact Or.inr rfl
    · exact Or.inl hMem
  · refine ⟨rfl, rfl, fun request hMem => ?_⟩
    simp only [List.mem_cons] at hMem
    rcases hMem with rfl | hMem
    · exact Or.inr rfl
    · exact Or.inl hMem

theorem mpIpmiSensorChange_of_not_adds {readingtype : Nat} {op : Update} {sensor : SensorInfo}
    (st : SensorState) (hAdds : adds (.sensorChange op sensor) = false) :
    mpIpmiSensorChange readingtype op sensor st = st := by
  have hNot : op ≠ .added ∨ sensor.readable = false := by
    by_contra hNeither
    rw [(adds_sensorChange op sensor).mpr hNeither] at hAdds
    cases hAdds
  rw [mpIpmiSensorChange, if_pos hNot]

theorem Tracks.sensorChange {events : List Event} {st : SensorState} (h : Tracks events st)
    (readingtype : Nat) (op : Update) (sensor : SensorInfo) :
    Tracks (events ++ [.sensorChange op sensor]) (mpIpmiSensorChange readingtype op sensor st) := by
  have hClears (address : Nat) : (∃ e ∈ events ++ [.sensorChange op sensor],
      clears address e = true) ↔ ∃ e ∈ events, clears address e = true := by
    simp [or_and_right, exists_or, clears]
  cases hAdds : adds (.sensorChange op sensor) with
  | false =>
      rw [mpIpmiSensorChange_of_not_adds st hAdds]
      refine ⟨?_, h.chain, h.allocated, h.requested, ?_, ?_⟩
      · simp [hAdds, h.length]
      · intro address node hLoad
        rw [hClears]
        exact h.cleared address node hLoad
      · intro e hMem address hClear
        obtain ⟨e', hMem', hClear'⟩ := (hClears address).mp ⟨e, hMem, hClear⟩
        exact h.earlier e' hMem' address hClear'
  | true =>
      obtain ⟨hHeap, hHead, hRequested⟩ :=
        mpIpmiSensorChange_of_adds readingtype st hAdds
      have hLength : (mpIpmiSensorChange readingtype op sensor st).heap.length =
          st.heap.length + 1 := by
        rw [hHeap]
        simp [NodeHeap.alloc]
      constructor
      · rw [hLength, List.countP_append, h.length]
        simp [hAdds]
      · obtain ⟨nodes, hChain, hAddresses⟩ := h.chain
        rw [hHead, hLength, hHeap]
        refine ⟨_, hChain.push _, ?_⟩
        rw [List.map_cons, hAddresses, List.range_succ, List.reverse_append]
        rfl
      · intro address hInside
        rw [hLength] at hInside
        rw [hHeap]
        rcases Nat.lt_succ_iff_lt_or_eq.mp hInside with hOld | rfl
        · obtain ⟨node, hLoad⟩ := h.allocated address hOld
          exact ⟨node, NodeHeap.load_alloc_of_load hLoad _⟩
        · exact ⟨_, NodeHeap.load_alloc_self _⟩
      · intro request hMem
        rw [hLength]
        rcases hRequested request hMem with hOld | hNew
        · exact Nat.lt_succ_of_lt (h.requested request hOld)
        · omega
      · intro address node hLoad
        rw [hClears]
        rw [hHeap] at hLoad
        by_cases hOld : address < st.heap.length
        · apply h.cleared address node
          rwa [NodeHeap.load, NodeHeap.alloc, List.getElem?_append_left hOld] at hLoad
        · have hNew : address = st.heap.length := by
            have hInside := NodeHeap.lt_length_of_load hLoad
            simp only [NodeHeap.alloc, List.length_append, List.length_singleton] at hInside
            omega
          subst hNew
          obtain rfl := Option.some.inj ((NodeHeap.load_alloc_self _).symm.trans hLoad)
          constructor
          · intro hNone
            cases hNone
          · intro hCleared
            obtain ⟨e, hMem, hClear⟩ := hCleared
            exact absurd (h.earlier e hMem _ hClear) (Nat.lt_irrefl _)
      · intro e hMem address hClear
        obtain ⟨e', hMem', hClear'⟩ := (hClears address).mp ⟨e, hMem, hClear⟩
        have := h.earlier e' hMem' address hClear'
        omega

/-- What a callback that finds its sensor does. -/
theorem callBack_cases {request : Request} {userData : Nat}
    {handler : MpIpmiSensor → MpIpmiSensor} {st st' : SensorState}
    (h : callBack request userData handler st = some st') :
    (request, userData) ∈ st.requested ∧ ∃ node, st.heap.load userData = some node ∧
      st' = { st with
        heap := st.heap.set userData (some { node with value := handler node.value }) } := by
  simp only [callBack, Option.bind_eq_bind, Option.bind_eq_some_iff, guard] at h
  obtain ⟨_, hGuard, node, hLoad, heap, hStore, hEq⟩ := h
  have hRequested : (request, userData) ∈ st.requested := by
    by_contra hNot
    rw [if_neg hNot] at hGuard
    cases hGuard
  rw [NodeHeap.store_eq hLoad] at hStore
  obtain rfl := Option.some.inj hStore
  exact ⟨hRequested, node, hLoad, (Option.some.inj hEq).symm⟩

/-- A callback keeps the list, and the names as far as its handler does. -/
theorem Tracks.callBack {events : List Event} {st st' : SensorState} (h : Tracks events st)
    {request : Request} {userData : Nat} {handler : MpIpmiSensor → MpIpmiSensor} {event : Event}
    (hCall : callBack request userData handler st = some st') (hAdds : adds event = false)
    (hHandler : ∀ s : MpIpmiSensor, (handler s).name = none ↔
      s.name = none ∨ clears userData event = true)
    (hOnly : ∀ address, clears address event = true → address = userData) :
    Tracks (events ++ [event]) st' := by
  obtain ⟨hRequested, node, hLoad, rfl⟩ := callBack_cases hCall
  have hClears (address : Nat) : (∃ e ∈ events ++ [event], clears address e = true) ↔
      (∃ e ∈ events, clears address e = true) ∨ clears address event = true := by
    simp [or_and_right, exists_or]
  constructor
  · show (st.heap.set _ _).length = _
    rw [List.length_set, List.countP_append, h.length]
    simp [hAdds]
  · obtain ⟨nodes, hChain, hAddresses⟩ := h.chain
    refine ⟨_, hChain.set_value hLoad _, ?_⟩
    show _ = (List.range (st.heap.set _ _).length).reverse
    rw [List.length_set, ← hAddresses, List.map_map]
    apply List.map_congr_left
    intro entry _
    show (if entry.1 = userData then (userData, _) else entry).1 = entry.1
    split
    · next hSame => exact hSame.symm
    · rfl
  · intro address hInside
    replace hInside : address < (st.heap.set userData _).length := hInside
    rw [List.length_set] at hInside
    show ∃ node', NodeHeap.load (st.heap.set userData _) address = some node'
    rw [NodeHeap.load_set]
    split
    · exact ⟨_, rfl⟩
    · exact h.allocated address hInside
  · intro r hMem
    show _ < (st.heap.set _ _).length
    rw [List.length_set]
    exact h.requested r hMem
  · intro address node' hLoad'
    rw [hClears]
    replace hLoad' : NodeHeap.load (st.heap.set userData _) address = some node' := hLoad'
    rw [NodeHeap.load_set] at hLoad'
    by_cases hSame : address = userData
    · subst hSame
      rw [if_pos ⟨rfl, NodeHeap.lt_length_of_load hLoad⟩] at hLoad'
      obtain rfl := Option.some.inj hLoad'
      show (handler node.value).name = none ↔ _
      rw [hHandler, h.cleared address node hLoad]
    · rw [if_neg fun hBoth => hSame hBoth.1] at hLoad'
      rw [h.cleared address node' hLoad']
      constructor
      · exact Or.inl
      · intro hEither
        rcases hEither with hOld | hNew
        · exact hOld
        · exact absurd (hOnly address hNew) hSame
  · intro e hMem address hClear
    show _ < (st.heap.set _ _).length
    rw [List.length_set]
    rcases List.mem_append.mp hMem with hOld | hNew
    · exact h.earlier e hOld address hClear
    · rw [List.mem_singleton.mp hNew] at hClear
      rw [hOnly address hClear]
      exact h.requested _ hRequested

theorem name_mpIpmiSensorThresholdsHandler (err : Int) (bounds : SensorBounds)
    (s : MpIpmiSensor) : (mpIpmiSensorThresholdsHandler err bounds s).name = s.name := by
  simp only [mpIpmiSensorThresholdsHandler]
  split_ifs <;> rfl

theorem name_mpIpmiSensorStatesHandler (err : Int) (states : Nat) (s : MpIpmiSensor) :
    (mpIpmiSensorStatesHandler err states s).name = s.name := by
  rw [mpIpmiSensorStatesHandler]
  split_ifs <;> rfl

theorem Tracks.step {events : List Event} {st st' : SensorState} (h : Tracks events st)
    {readingtype : Nat} {event : Event} (hStep : eventStep readingtype st event = some st') :
    Tracks (events ++ [event]) st' := by
  cases event with
  | sensorChange op sensor =>
      obtain rfl := Option.some.inj hStep
      exact h.sensorChange readingtype op sensor
  | read userData valuePresent scanningEnabled initialUpdateInProgress value =>
      apply h.callBack hStep rfl
      · intro s
        rw [mpIpmiSensorReadHandler]
        split_ifs with hUnreadable
        · simp [clears, hUnreadable]
        · simp [clears, hUnreadable]
      · intro address hClear
        simp only [clears, Bool.and_eq_true, beq_iff_eq] at hClear
        exact hClear.1.symm
  | thresholds userData err bounds =>
      apply h.callBack hStep rfl
      · intro s
        rw [name_mpIpmiSensorThresholdsHandler]
        simp [clears]
      · intro address hClear
        cases hClear
  | states userData err states =>
      apply h.callBack hStep rfl
      · intro s
        rw [name_mpIpmiSensorStatesHandler]
        simp [clears]
      · intro address hClear
        cases hClear

theorem tracks_runEvents {readingtype : Nat} {events : List Event} {st : SensorState}
    (hRun : runEvents readingtype events = some st) : Tracks events st := by
  rw [runEvents] at hRun
  apply foldlM_carries (P := Tracks) (fun _ _ _ _ hBefore => hBefore.step) [] _ hRun
  constructor
  · rfl
  · exact ⟨[], Chain.null, rfl⟩
  · intro address hInside
    cases hInside
  · intro request hMem
    cases hMem
  · intro address node hLoad
    cases hLoad
  · intro e hMem
    cases hMem

/-- A callback that was asked for finds its sensor: nothing else ends a run. -/
theorem callBack_isSome_iff {events : List Event} {st : SensorState} (h : Tracks events st)
    (request : Request) (userData : Nat) (handler : MpIpmiSensor → MpIpmiSensor) :
    (callBack request userData handler st).isSome ↔ (request, userData) ∈ st.requested := by
  constructor
  · intro hSome
    obtain ⟨st', hCall⟩ := Option.isSome_iff_exists.mp hSome
    exact (callBack_cases hCall).1
  · intro hRequested
    obtain ⟨node, hLoad⟩ := h.allocated userData (h.requested _ hRequested)
    simp [callBack, guard, hRequested, hLoad, NodeHeap.store_eq hLoad]

/-- The first sensor of the list has lost its name exactly if the one added last has. -/
theorem head_named_iff {events : List Event} {st : SensorState} (h : Tracks events st)
    {nodes : List (Nat × MpIpmiSensor)} (hChain : Chain st.heap st.mpIpmiSensors nodes) :
    (∀ entry ∈ nodes.head?, named entry = true) ↔ NewestKept events := by
  have hAddresses := h.head hChain
  generalize st.mpIpmiSensors = pointer at hChain
  cases hChain with
  | null =>
      have hEmpty : st.heap.length = 0 := by simpa using hAddresses
      simp only [List.head?_nil, Option.mem_def, reduceCtorEq, false_imp_iff, implies_true,
        true_iff]
      intro e hMem
      by_contra hClear
      have := h.earlier e hMem _ (Bool.eq_true_of_not_eq_false hClear)
      omega
  | @node s value next rest here behind =>
      have hLast : s = events.countP adds - 1 := by
        have hLength := NodeHeap.lt_length_of_load here
        have hHead := congrArg List.head? hAddresses
        rw [List.map_cons, List.head?_cons, List.head?_reverse, List.getLast?_range,
          if_neg (by omega)] at hHead
        rw [← h.length]
        exact Option.some.inj hHead
      have hCleared := h.cleared s _ here
      show (∀ entry ∈ some (s, value), named entry = true) ↔ _
      rw [hLast] at hCleared
      constructor
      · intro hNamed e hMem
        have hSome : value.name.isSome := hNamed (s, value) rfl
        by_contra hClear
        rw [hCleared.mpr ⟨e, hMem, Bool.eq_true_of_not_eq_false hClear⟩] at hSome
        cases hSome
      · intro hKept entry hEntry
        obtain rfl := Option.some.inj hEntry
        by_contra hNot
        obtain ⟨e, hMem, hClear⟩ := hCleared.mp (named_eq_false.mp (by simpa using hNot))
        rw [hKept e hMem] at hClear
        cases hClear

/-- After any callbacks the clean-up ends. It leaves the sensors that have a name, in
their order, exactly if the sensor added last has one, and exactly then no search for
a fan compares with NULL. -/
theorem domainUp_keeps_named_iff {readingtype : Nat} {events : List Event} {st : SensorState}
    (hRun : runEvents readingtype events = some st) :
    ∃ nodes heap, Chain st.heap st.mpIpmiSensors nodes ∧
      Returns cleanPass (st.heap, st.mpIpmiSensors) (some heap) ∧
      (Chain heap st.mpIpmiSensors (nodes.filter named) ↔ NewestKept events) ∧
      ((∀ fan, ∃ found, Returns (fanPass fan heap) st.mpIpmiSensors (some found)) ↔
        NewestKept events) := by
  have hTracks := tracks_runEvents hRun
  obtain ⟨nodes, hChain, -⟩ := hTracks.chain
  obtain ⟨heap, hReturns, hKept⟩ := clean_returns hChain
  have hHead := head_named_iff hTracks hChain
  refine ⟨nodes, heap, hChain, hReturns, ?_, ?_⟩
  · rw [← hHead, ← keptBy_eq_filter_iff]
    constructor
    · exact hKept.unique
    · intro hSame
      rwa [← hSame]
  · rw [← hHead]
    exact fan_returns_iff hKept

/-- A fan whose speed is read. -/
def fan1 : SensorInfo :=
  { sensor := 7, id := ['F', 'A', 'N', ' ', '1'], readable := true,
    eventReadingType := eventReadingTypeThreshold }

/-- Its entry in the list, before anything is read. -/
def fan1Entry : MpIpmiSensor :=
  { sensor := 7, name := some ['F', 'A', 'N', ' ', '1'], value := 0, states := none,
    sensorThresholds := none }

/-- Two more fans, the last of which runs. -/
def fan2 : SensorInfo := { fan1 with sensor := 8, id := ['F', 'A', 'N', ' ', '2'] }

def fan3 : SensorInfo := { fan1 with sensor := 9, id := ['F', 'A', 'N', ' ', '3'] }

def fan3Read : MpIpmiSensor :=
  { fan1Entry with sensor := 9, name := some ['F', 'A', 'N', ' ', '3'], value := 3200 }

def threeFans : List Event :=
  [.sensorChange .added fan1, .sensorChange .added fan2, .sensorChange .added fan3,
    .read 1 .noValues true false 0, .read 2 .bothValues true false 3200]

/-- The fan in the middle has no value: it is taken out, and any fan can be searched for. -/
theorem domainUp_keeps_named_iff_three :
    ∃ st heap, runEvents eventReadingTypeThreshold threeFans = some st ∧
      Returns cleanPass (st.heap, st.mpIpmiSensors) (some heap) ∧
      Chain heap st.mpIpmiSensors [(2, fan3Read), (0, fan1Entry)] ∧
      ∀ fan, ∃ found, Returns (fanPass fan heap) st.mpIpmiSensors (some found) := by
  obtain ⟨st, hRun⟩ : ∃ st, runEvents eventReadingTypeThreshold threeFans = some st := ⟨_, rfl⟩
  have hNewest : NewestKept threeFans := by
    unfold NewestKept
    decide
  obtain ⟨nodes, heap, hChain, hReturns, hKept, hSearch⟩ := domainUp_keeps_named_iff hRun
  obtain rfl := Option.some.inj hRun
  have hNodes := hChain.unique (Chain.node rfl (Chain.node rfl (Chain.node rfl Chain.null)))
  refine ⟨_, heap, rfl, hReturns, ?_, hSearch.mpr hNewest⟩
  have hFiltered := hKept.mpr hNewest
  rw [hNodes] at hFiltered
  exact hFiltered

/-- The only sensor has no value: it stays in the list without its name, and the
search for it compares with NULL. -/
theorem domainUp_keeps_cleared_fan1 :
    ∃ st, runEvents eventReadingTypeThreshold
        [.sensorChange .added fan1, .read 0 .noValues true false 0] = some st ∧
      Chain st.heap st.mpIpmiSensors [(0, { fan1Entry with name := none })] ∧
      Returns cleanPass (st.heap, st.mpIpmiSensors) (some st.heap) ∧
      ¬Chain st.heap st.mpIpmiSensors ([(0, { fan1Entry with name := none })].filter named) ∧
      Returns (fanPass fan1.id st.heap) st.mpIpmiSensors none := by
  refine ⟨{ heap := [some { value := { fan1Entry with name := none }, next := none }],
            mpIpmiSensors := some 0, requested := [(.reading, 0), (.thresholds, 0)] }, rfl,
    Chain.node rfl Chain.null, ?_, ?_, Returns.leave rfl⟩
  · exact Returns.again rfl (Returns.leave rfl)
  · intro hEmpty
    cases hEmpty

end MonitoringPlug.Ipmi
