import MonitoringPlug.Lib.Rounds
import MonitoringPlug.Rhcs.Conf

/-! What a parse of the cluster configuration keeps, and how far it depends on the
counters it starts from. -/
namespace MonitoringPlug.Rhcs

open CLoop CMemory

/-- All arrays are terminated. -/
structure Conf.Initialised (conf : Conf) : Prop where
  node : conf.node.Terminated
  fodomain : conf.fodomain.Terminated
  members : ∀ fodom ∈ conf.allocated, fodom.node.Terminated
  service : conf.service.Terminated

/-- A counter is zero as long as its array is NULL. -/
structure ConfState.Invariant (s : ConfState) : Prop where
  initialised : s.conf.Initialised
  nodes : s.conf.node = [] → s.counters.nodes = 0
  fodomains : s.conf.fodomain = [] → s.counters.fodomains = 0
  services : s.conf.service = [] → s.counters.services = 0
  /-- The domain that is open has its members counted from zero. -/
  members : ∀ fodom, s.conf.fodom s.counters.fodomains = some fodom → fodom.node = [] →
    s.counters.fodomainNodes = 0
  /-- The array ends at the counter. -/
  ahead : ∀ i, s.counters.fodomains < i → s.conf.fodomain.deref i = none

theorem confAttribute_arrays (atts : Attributes) (conf : Conf) :
    ∃ name aliasName version, atts.foldl confAttribute conf =
      { conf with name := name, aliasName := aliasName, version := version } := by
  induction atts generalizing conf with
  | nil => exact ⟨conf.name, conf.aliasName, conf.version, rfl⟩
  | cons att atts ih =>
      obtain ⟨name, aliasName, version, hFirst⟩ : ∃ name aliasName version,
          confAttribute conf att =
            { conf with name := name, aliasName := aliasName, version := version } := by
        unfold confAttribute
        split
        split_ifs
        · exact ⟨_, conf.aliasName, conf.version, rfl⟩
        · exact ⟨conf.name, _, conf.version, rfl⟩
        · exact ⟨conf.name, conf.aliasName, _, rfl⟩
        · exact ⟨conf.name, conf.aliasName, conf.version, rfl⟩
      rw [List.foldl_cons, hFirst]
      exact ih _

theorem fodomAttribute_node (atts : Attributes) (fodom : ConfFodom) :
    (atts.foldl fodomAttribute fodom).node = fodom.node := by
  induction atts generalizing fodom with
  | nil => rfl
  | cons att atts ih =>
      have hFirst : (fodomAttribute fodom att).node = fodom.node := by
        unfold fodomAttribute
        split
        split_ifs
        · rfl
        · rfl
        · rfl
        · rfl
        · rfl
      rw [List.foldl_cons, ih, hFirst]

section Handlers

variable {s s' : ConfState} {atts : Attributes}

theorem startCluster_invariant (h : s.Invariant) : (startCluster s atts).Invariant := by
  obtain ⟨name, aliasName, version, hConf⟩ := confAttribute_arrays atts s.conf
  rw [startCluster, hConf]
  exact ⟨⟨h.initialised.node, h.initialised.fodomain, h.initialised.members,
    h.initialised.service⟩, h.nodes, h.fodomains, h.services, h.members, h.ahead⟩

theorem startClusternode_invariant (h : s.Invariant) : (startClusternode s atts).Invariant := by
  exact ⟨⟨h.initialised.node.put h.nodes, h.initialised.fodomain, h.initialised.members,
    h.initialised.service⟩, fun hNil => absurd hNil Slots.put_ne_nil, h.fodomains, h.services,
    h.members, h.ahead⟩

theorem deref_put_of_gt {α : Type} {slots : Slots α} {index i : Nat} {a : α} (h : index < i) :
    (slots.put index a).deref i = if i = index + 1 then none else slots.deref i := by
  split
  · rename_i hNext
    rw [hNext, Slots.deref, Slots.getElem?_put_succ]
  · rw [Slots.deref, Slots.getElem?_put_of_gt (by omega)]
    rfl

theorem startFailoverdomain_invariant (h : s.Invariant) :
    (startFailoverdomain s atts).Invariant := by
  refine ⟨⟨h.initialised.node, h.initialised.fodomain.put h.fodomains, ?_, h.initialised.service⟩,
    h.nodes, fun hNil => absurd hNil Slots.put_ne_nil, h.services, fun _ _ _ => rfl, ?_⟩
  · intro fodom hFodom
    rcases List.mem_append.mp hFodom with hOld | hNew
    · exact h.initialised.members fodom hOld
    · rw [List.mem_singleton.mp hNew, fodomAttribute_node]
      exact Or.inl rfl
  · intro i hi
    have hAhead : s.counters.fodomains < i := hi
    show (s.conf.fodomain.put s.counters.fodomains s.conf.allocated.length).deref i = none
    rw [deref_put_of_gt hAhead]
    split
    · rfl
    · exact h.ahead i hAhead

theorem startFailoverdomainnode_invariant (h : s.Invariant)
    (hStart : startFailoverdomainnode s atts = some s') : s'.Invariant := by
  obtain ⟨id, hId, hRest⟩ := Option.bind_eq_some_iff.mp hStart
  obtain ⟨fodom, hFodom, hRest⟩ := Option.bind_eq_some_iff.mp hRest
  obtain ⟨member, _, hSome⟩ := Option.bind_eq_some_iff.mp hRest
  cases hSome
  have hOpen : s.conf.fodom s.counters.fodomains = some fodom := by
    rw [Conf.fodom, hId]
    exact hFodom
  have hMember : (fodom.node.put s.counters.fodomainNodes member).Terminated :=
    (h.initialised.members fodom (List.mem_of_getElem? hFodom)).put (h.members fodom hOpen)
  refine ⟨⟨h.initialised.node, h.initialised.fodomain, ?_, h.initialised.service⟩,
    h.nodes, h.fodomains, h.services, ?_, h.ahead⟩
  · intro other hOther
    rcases List.mem_or_eq_of_mem_set hOther with hOld | rfl
    · exact h.initialised.members other hOld
    · exact hMember
  · intro other hOther hNil
    have hInside : id < s.conf.allocated.length := (List.getElem?_eq_some_iff.mp hFodom).1
    have hSame : other = { fodom with node := fodom.node.put s.counters.fodomainNodes member } := by
      simp only [Conf.fodom, hId, Option.bind_some] at hOther
      rw [List.getElem?_set_self hInside] at hOther
      exact (Option.some.inj hOther).symm
    rw [hSame] at hNil
    exact absurd hNil Slots.put_ne_nil

theorem startService_invariant (h : s.Invariant) (hStart : startService s atts = some s') :
    s'.Invariant := by
  obtain ⟨service, _, rfl⟩ := Option.map_eq_some_iff.mp hStart
  exact ⟨⟨h.initialised.node, h.initialised.fodomain, h.initialised.members,
    h.initialised.service.put h.services⟩, h.nodes, h.fodomains,
    fun hNil => absurd hNil Slots.put_ne_nil, h.members, h.ahead⟩

theorem confStartElement_invariant {name : List Char} (h : s.Invariant)
    (hStart : confStartElement s name atts = some s') : s'.Invariant := by
  unfold confStartElement at hStart
  split_ifs at hStart
  · cases hStart
    exact startCluster_invariant h
  · cases hStart
    exact startClusternode_invariant h
  · cases hStart
    exact startFailoverdomain_invariant h
  · exact startFailoverdomainnode_invariant h hStart
  · exact startService_invariant h hStart
  · cases hStart
    exact h

/-- A domain that stops was started, so that its array is there. -/
theorem confStopElement_invariant {name : List Char} (h : s.Invariant)
    (hStarted : name = elementFailoverdomain → s.conf.fodomain ≠ []) :
    (confStopElement s name).Invariant := by
  unfold confStopElement
  split
  · rename_i hName
    refine ⟨h.initialised, h.nodes, fun hNil => absurd hNil (hStarted hName), h.services, ?_, ?_⟩
    · intro fodom hFodom
      have hNone : s.conf.fodom (s.counters.fodomains + 1) = none := by
        rw [Conf.fodom, h.ahead _ (Nat.lt_succ_self _)]
        rfl
      exact absurd (hNone.symm.trans hFodom) (by simp)
    · intro i hi
      exact h.ahead i (Nat.lt_of_succ_lt hi)
  · exact h

end Handlers

section Events

variable {s s' : ConfState} {events : List Event}

theorem confEvents_cons {e : Event} (h : confEvents (e :: events) s = some s') :
    ∃ next, confEvent s e = some next ∧ confEvents events next = some s' := by
  rw [confEvents] at h
  exact foldlM_cons_eq_some_iff.mp h

theorem confEvents_append {front back : List Event}
    (h : confEvents (front ++ back) s = some s') :
    ∃ next, confEvents front s = some next ∧ confEvents back next = some s' := by
  rw [confEvents, List.foldlM_append] at h
  exact Option.bind_eq_some_iff.mp h

/-- How a single event may change the array of the domains. -/
theorem confEvent_fodomain {e : Event} (h : confEvent s e = some s') :
    (∃ atts, e = .start elementFailoverdomain atts ∧
      s'.conf.fodomain = s.conf.fodomain.put s.counters.fodomains s.conf.allocated.length ∧
      s'.counters.fodomains = s.counters.fodomains) ∨
    (s'.conf.fodomain = s.conf.fodomain ∧
      s'.counters.fodomains = s.counters.fodomains +
        if e = .stop elementFailoverdomain then 1 else 0) := by
  cases e with
  | stop name =>
      cases h
      right
      simp only [confStopElement, Event.stop.injEq]
      split
      · exact ⟨rfl, rfl⟩
      · exact ⟨rfl, rfl⟩
  | start name atts =>
      simp only [confEvent, confStartElement] at h
      split_ifs at h with _ _ hDomain
      · cases h
        obtain ⟨_, _, _, hConf⟩ := confAttribute_arrays atts s.conf
        exact Or.inr ⟨by rw [startCluster, hConf], rfl⟩
      · cases h
        exact Or.inr ⟨rfl, rfl⟩
      · cases h
        exact Or.inl ⟨atts, by rw [hDomain], rfl, rfl⟩
      · obtain ⟨_, _, hRest⟩ := Option.bind_eq_some_iff.mp h
        obtain ⟨_, _, hRest⟩ := Option.bind_eq_some_iff.mp hRest
        obtain ⟨_, _, hSome⟩ := Option.bind_eq_some_iff.mp hRest
        cases hSome
        exact Or.inr ⟨rfl, rfl⟩
      · obtain ⟨_, _, rfl⟩ := Option.map_eq_some_iff.mp h
        exact Or.inr ⟨rfl, rfl⟩
      · cases h
        exact Or.inr ⟨rfl, rfl⟩

theorem confEvent_fodomains {e : Event} (h : confEvent s e = some s') :
    s'.counters.fodomains = s.counters.fodomains +
      if e = .stop elementFailoverdomain then 1 else 0 := by
  rcases confEvent_fodomain h with ⟨_, rfl, _, hCount⟩ | ⟨_, hCount⟩
  · simpa using hCount
  · exact hCount

/-- A property of the array and its counter that holds after the start of a domain
and over its stop holds on. -/
theorem confEvents_fodomain (P : Slots Nat → Nat → Prop)
    (hPut : ∀ slots count id, P slots count → P (slots.put count id) count)
    (hStop : ∀ slots count, P slots count → P slots (count + 1))
    (h : P s.conf.fodomain s.counters.fodomains) (hEvents : confEvents events s = some s') :
    P s'.conf.fodomain s'.counters.fodomains := by
  induction events generalizing s with
  | nil =>
      cases hEvents
      exact h
  | cons e events ih =>
      obtain ⟨next, hNext, hRest⟩ := confEvents_cons hEvents
      refine ih ?_ hRest
      rcases confEvent_fodomain hNext with ⟨_, _, hArray, hCount⟩ | ⟨hArray, hCount⟩
      · rw [hArray, hCount]
        exact hPut _ _ _ h
      · rw [hArray, hCount]
        split
        · exact hStop _ _ h
        · exact h

/-- An array of domains stays. -/
theorem confEvents_fodomain_ne_nil (h : s.conf.fodomain ≠ [])
    (hEvents : confEvents events s = some s') : s'.conf.fodomain ≠ [] :=
  confEvents_fodomain (fun slots _ => slots ≠ []) (fun _ _ _ _ => Slots.put_ne_nil)
    (fun _ _ hSome => hSome) h hEvents

/-- The counter counts the domains that stopped. -/
theorem confEvents_fodomains (hEvents : confEvents events s = some s') :
    s'.counters.fodomains =
      s.counters.fodomains + events.count (.stop elementFailoverdomain) := by
  induction events generalizing s with
  | nil =>
      cases hEvents
      rfl
  | cons e events ih =>
      obtain ⟨next, hNext, hRest⟩ := confEvents_cons hEvents
      rw [ih hRest, List.count_cons, confEvent_fodomains hNext]
      simp only [beq_iff_eq]
      omega

/-- The invariant holds through the elements of a document. -/
theorem Balanced.confEvents_invariant (hBalanced : Balanced events) (h : s.Invariant)
    (hEvents : confEvents events s = some s') : s'.Invariant := by
  induction hBalanced generalizing s s' with
  | none =>
      cases hEvents
      exact h
  | element name atts within behind ihWithin ihBehind =>
      obtain ⟨started, hStart, hRest⟩ := confEvents_cons hEvents
      obtain ⟨inside, hInside, hRest⟩ := confEvents_append hRest
      obtain ⟨stopped, hStop, hBehind⟩ := confEvents_cons hRest
      have hStarted : started.Invariant := confStartElement_invariant h hStart
      have hWithin : inside.Invariant := ihWithin hStarted hInside
      cases hStop
      refine ihBehind (confStopElement_invariant hWithin fun hName => ?_) hBehind
      subst hName
      cases hStart
      exact confEvents_fodomain_ne_nil Slots.put_ne_nil hInside

end Events

/-- An event that has nothing to do with the array of domains. -/
def Event.DomainFree : Event → Prop
  | .start name atts =>
      name ≠ elementFailoverdomain ∧ (name = elementService → ∀ att ∈ atts, att.1 ≠ keyDomain)
  | .stop name => name ≠ elementFailoverdomain

section Agreement

/-- Two states that only differ in counters whose array is NULL. -/
structure Agree (s s' : ConfState) : Prop where
  conf : s.conf = s'.conf
  nodes : s.counters.nodes = s'.counters.nodes
  services : s.counters.services = s'.counters.services
  fodomains : s.counters.fodomains = s'.counters.fodomains ∨ s.conf.fodomain = []
  members : s.counters.fodomainNodes = s'.counters.fodomainNodes ∨ s.conf.fodomain = []

/-- What two states make of the same events: both fault, or they still agree. -/
inductive AgreeAfter : Option ConfState → Option ConfState → Prop where
  | fault : AgreeAfter none none
  | go {t t' : ConfState} (agree : Agree t t') : AgreeAfter (some t) (some t')

variable {s s' : ConfState} {atts : Attributes}

theorem Agree.fodomNodeAttribute_eq (h : Agree s s') :
    fodomNodeAttribute s = fodomNodeAttribute s' := by
  funext member att
  simp only [fodomNodeAttribute, h.conf, h.nodes]

theorem Agree.serviceAttribute_eq (h : Agree s s')
    (hCount : s.counters.fodomains = s'.counters.fodomains) :
    serviceAttribute s = serviceAttribute s' := by
  funext service att
  simp only [serviceAttribute, serviceDomain, h.conf, hCount]

/-- A service without a domain does not look at the counter. -/
theorem serviceAttributes_free (s s' : ConfState)
    (hFree : ∀ att ∈ atts, att.1 ≠ keyDomain) (service : ConfService) :
    atts.foldlM (serviceAttribute s) service = atts.foldlM (serviceAttribute s') service := by
  induction atts generalizing service with
  | nil => rfl
  | cons att atts ih =>
      have hKey := hFree att List.mem_cons_self
      have hFirst : serviceAttribute s service att = serviceAttribute s' service att := by
        simp only [serviceAttribute, hKey, if_false]
      rw [List.foldlM_cons, List.foldlM_cons, hFirst]
      congr 1
      funext next
      exact ih (fun other hOther => hFree other (List.mem_cons_of_mem _ hOther)) next

theorem Agree.failoverdomainnode (h : Agree s s') :
    AgreeAfter (startFailoverdomainnode s atts) (startFailoverdomainnode s' atts) := by
  by_cases hNil : s.conf.fodomain = []
  · have hNone : ∀ t : ConfState, t.conf = s.conf →
        startFailoverdomainnode t atts = none := by
      intro t hConf
      rw [startFailoverdomainnode, hConf, hNil]
      rfl
    rw [hNone s rfl, hNone s' h.conf.symm]
    exact AgreeAfter.fault
  · have hCount := h.fodomains.resolve_right hNil
    have hMembers := h.members.resolve_right hNil
    rw [startFailoverdomainnode, startFailoverdomainnode, ← h.fodomNodeAttribute_eq,
      ← h.conf, ← hCount, ← hMembers]
    cases s.conf.fodomain.deref s.counters.fodomains with
    | none => exact AgreeAfter.fault
    | some id =>
        cases hFodom : s.conf.allocated[id]? with
        | none =>
            simp only [Option.bind_eq_bind, Option.bind_some, hFodom]
            exact AgreeAfter.fault
        | some fodom =>
            simp only [Option.bind_eq_bind, Option.bind_some, hFodom]
            cases atts.foldlM (fodomNodeAttribute s) { node := none, priority := 0 } with
            | none => exact AgreeAfter.fault
            | some member =>
                exact AgreeAfter.go ⟨rfl, h.nodes, h.services, Or.inl hCount, Or.inl rfl⟩

theorem Agree.service_start (h : Agree s s')
    (hFree : s.counters.fodomains = s'.counters.fodomains ∨ ∀ att ∈ atts, att.1 ≠ keyDomain) :
    AgreeAfter (startService s atts) (startService s' atts) := by
  have hService : atts.foldlM (serviceAttribute s) newService =
      atts.foldlM (serviceAttribute s') newService := by
    rcases hFree with hCount | hFree
    · rw [h.serviceAttribute_eq hCount]
    · exact serviceAttributes_free s s' hFree _
  rw [startService, startService, hService, h.conf, h.services]
  cases atts.foldlM (serviceAttribute s') newService with
  | none => exact AgreeAfter.fault
  | some service =>
      exact AgreeAfter.go ⟨rfl, h.nodes, rfl, h.conf ▸ h.fodomains, h.conf ▸ h.members⟩

/-- States that agree still do after an event, unless the counters of the domains
differ and the event has to do with them. -/
theorem Agree.event (h : Agree s s') {e : Event}
    (hFree : s.counters.fodomains = s'.counters.fodomains ∨ e.DomainFree) :
    AgreeAfter (confEvent s e) (confEvent s' e) := by
  cases e with
  | stop name =>
      apply AgreeAfter.go
      by_cases hName : name = elementFailoverdomain
      · have hCount := hFree.resolve_right fun hOther => hOther hName
        simp only [confStopElement, if_pos hName]
        exact ⟨h.conf, h.nodes, h.services, Or.inl (congrArg (· + 1) hCount), h.members⟩
      · simp only [confStopElement, if_neg hName]
        exact h
  | start name atts =>
      simp only [confEvent, confStartElement]
      split_ifs with _ _ hDomain _ hService
      · obtain ⟨name, aliasName, version, hConf⟩ := confAttribute_arrays atts s'.conf
        have hArray : (atts.foldl confAttribute s'.conf).fodomain = s.conf.fodomain := by
          rw [hConf, h.conf]
        apply AgreeAfter.go
        simp only [startCluster, h.conf]
        exact ⟨rfl, h.nodes, h.services, hArray ▸ h.fodomains, hArray ▸ h.members⟩
      · apply AgreeAfter.go
        simp only [startClusternode, h.conf, h.nodes]
        exact ⟨rfl, rfl, h.services, h.conf ▸ h.fodomains, h.conf ▸ h.members⟩
      · have hCount := hFree.resolve_right fun hOther => hOther.1 hDomain
        apply AgreeAfter.go
        simp only [startFailoverdomain, h.conf, hCount]
        exact ⟨rfl, h.nodes, h.services, Or.inl rfl, Or.inl rfl⟩
      · exact h.failoverdomainnode
      · exact h.service_start (hFree.imp_right fun hOther => hOther.2 hService)
      · exact AgreeAfter.go h

theorem Agree.events (h : Agree s s') (events : List Event)
    (hFree : s.counters.fodomains = s'.counters.fodomains ∨ ∀ e ∈ events, e.DomainFree) :
    AgreeAfter (confEvents events s) (confEvents events s') := by
  induction events generalizing s s' with
  | nil => exact AgreeAfter.go h
  | cons e events ih =>
      have hFirst := h.event (e := e) (hFree.imp_right fun hAll => hAll e List.mem_cons_self)
      rw [confEvents, confEvents, List.foldlM_cons, List.foldlM_cons]
      generalize hLeft : confEvent s e = left at hFirst ⊢
      generalize hRight : confEvent s' e = right at hFirst ⊢
      cases hFirst with
      | fault => exact AgreeAfter.fault
      | go hAgree =>
          apply ih hAgree
          rcases hFree with hCount | hAll
          · exact Or.inl (by rw [confEvent_fodomains hLeft, confEvent_fodomains hRight, hCount])
          · exact Or.inr fun other hOther => hAll other (List.mem_cons_of_mem _ hOther)

end Agreement

end MonitoringPlug.Rhcs
