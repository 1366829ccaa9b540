import MonitoringPlug.Lib.Rounds
import MonitoringPlug.Rhcs.Clustat
import MonitoringPlug.Rhcs.Counters

/-! Calls of the two parsers one after the other in one process, and what a call
would return as the first one. -/
namespace MonitoringPlug.Rhcs

open CLoop CMemory

inductive Call where
  | clustat (doc : Document)
  | conf (doc : Document)

inductive Parsed where
  | clustat (clustat : Clustat)
  | conf (conf : Conf)
deriving DecidableEq

def Parsed.Initialised : Parsed → Prop
  | .clustat parsed => Clustat.Initialised parsed
  | .conf parsed => Conf.Initialised parsed

/-- One call; no result where it faults. `clustat` leaves the counters of the
failover domains alone. -/
def parse (g : Counters) : Call → Option (Counters × Parsed)
  | .clustat doc =>
      (clustatOf doc).map fun s =>
        ({ g with nodes := s.nodes, services := s.services }, .clustat s.clustat)
  | .conf doc => (parseRhcsConf g doc).map fun s => (s.counters, .conf s.conf)

/-- What the calls of a process return, up to a fault. -/
def results : Counters → List Call → List (Option Parsed)
  | _, [] => []
  | g, call :: calls =>
      match parse g call with
      | none => [none]
      | some (g, parsed) => some parsed :: results g calls

/-- What each would return as the first call. -/
def firstResults : List Call → List (Option Parsed)
  | [] => []
  | call :: calls =>
      match parse .zero call with
      | none => [none]
      | some (_, parsed) => some parsed :: firstResults calls

/-- A failover domain is configured. -/
def Document.HasDomain (doc : Document) : Prop :=
  ∃ atts, .start elementFailoverdomain atts ∈ doc.events

/-- No failover domain is configured, and no service names one. -/
def Document.DomainFree (doc : Document) : Prop := ∀ e ∈ doc.events, e.DomainFree

def Call.HasDomain : Call → Prop
  | .clustat _ => False
  | .conf doc => doc.HasDomain

/-- Behind a configuration with failover domains, configurations have nothing to
do with them. -/
def OnceOnly (calls : List Call) : Prop :=
  ∀ front doc back, calls = front ++ .conf doc :: back → (∃ call ∈ front, call.HasDomain) →
    doc.DomainFree

section Parse

variable {g : Counters} {doc : Document}

theorem parseRhcsConf_agree (hFree : g.fodomains = 0 ∨ doc.DomainFree) :
    AgreeAfter (parseRhcsConf g doc) (parseRhcsConf .zero doc) := by
  have hStart : Agree { counters := { g with nodes := 0, services := 0 }, conf := emptyConf }
      { counters := .zero, conf := emptyConf } :=
    ⟨rfl, rfl, rfl, Or.inr rfl, Or.inr rfl⟩
  exact hStart.events doc.events hFree

theorem parseRhcsConf_initialised {s : ConfState} (h : parseRhcsConf .zero doc = some s) :
    s.conf.Initialised := by
  have hStart : ({ counters := .zero, conf := emptyConf } : ConfState).Invariant :=
    ⟨⟨Or.inl rfl, Or.inl rfl, fun _ hNone => absurd hNone (by simp [emptyConf]), Or.inl rfl⟩,
      fun _ => rfl, fun _ => rfl, fun _ => rfl, fun _ _ _ => rfl, fun _ _ => rfl⟩
  exact (doc.balanced.confEvents_invariant hStart h).initialised

/-- The counter of the domains moves just for a configuration with domains. -/
theorem parseRhcsConf_fodomains {s : ConfState} (h : parseRhcsConf g doc = some s) :
    g.fodomains ≤ s.counters.fodomains ∧
      (g.fodomains < s.counters.fodomains ↔ doc.HasDomain) := by
  have hCount := confEvents_fodomains h
  have hStops : 0 < doc.events.count (.stop elementFailoverdomain) ↔ doc.HasDomain := by
    rw [List.count_pos_iff]
    exact doc.balanced.mem_stop_iff elementFailoverdomain
  simp only at hCount
  rw [← hStops]
  omega

theorem HasDomain.fodomain_ne_nil (h : doc.HasDomain) {s : ConfState}
    (hParse : parseRhcsConf g doc = some s) : s.conf.fodomain ≠ [] := by
  obtain ⟨atts, hMem⟩ := h
  obtain ⟨front, back, hSplit⟩ := List.append_of_mem hMem
  rw [parseRhcsConf, hSplit] at hParse
  obtain ⟨middle, _, hRest⟩ := confEvents_append hParse
  obtain ⟨started, hStart, hBack⟩ := confEvents_cons hRest
  cases hStart
  exact confEvents_fodomain_ne_nil Slots.put_ne_nil hBack

/-- With a counter that has moved on, the first pointers are left out. -/
theorem parseRhcsConf_leaves_out (hCount : g.fodomains ≠ 0) {s : ConfState}
    (hParse : parseRhcsConf g doc = some s) (hSome : s.conf.fodomain ≠ []) :
    s.conf.fodomain[0]? = some .indeterminate := by
  have hLast := confEvents_fodomain
    (fun slots count => 0 < count ∧ (slots ≠ [] → slots[0]? = some .indeterminate))
    (s := { counters := { g with nodes := 0, services := 0 }, conf := emptyConf })
    (fun slots count id hSlots => ⟨hSlots.1, fun _ => by
      rw [Slots.getElem?_put_of_lt hSlots.1]
      split
      · exact hSlots.2 (List.ne_nil_of_length_pos ‹_›)
      · rfl⟩)
    (fun slots count hSlots => ⟨Nat.succ_pos count, hSlots.2⟩)
    ⟨Nat.pos_of_ne_zero hCount, fun hNil => absurd rfl hNil⟩ hParse
  exact hLast.2 hSome

theorem Terminated.first_ne {α : Type} {slots : Slots α} (h : slots.Terminated)
    (hFirst : slots[0]? = some .indeterminate) : False := by
  rcases h with rfl | ⟨count, hNull, hFront⟩
  · cases hFirst
  · cases count with
    | zero =>
        rw [hFirst] at hNull
        cases hNull
    | succ count =>
        obtain ⟨a, hPoints⟩ := hFront 0 (Nat.succ_pos count)
        rw [hFirst] at hPoints
        cases hPoints

/-- Without an array of domains the lookup of a service's domain faults as soon as
the counter has moved on. -/
theorem startService_fault {s : ConfState} {atts : Attributes} (hNil : s.conf.fodomain = [])
    (hCount : s.counters.fodomains ≠ 0) (hDomain : ∃ att ∈ atts, att.1 = keyDomain) :
    startService s atts = none := by
  obtain ⟨⟨key, value⟩, hMem, rfl⟩ := hDomain
  have hLookup : ∀ current, serviceDomain s value current = none := by
    intro current
    have hFirst : 0 ∈ List.range s.counters.fodomains :=
      List.mem_range.mpr (Nat.pos_of_ne_zero hCount)
    apply foldlM_fault hFirst
    intro found
    simp [Conf.fodomName, Conf.fodom, hNil]
  have hKey : keyDomain ≠ keyName := by decide
  have hService : ∀ service, serviceAttribute s service (keyDomain, value) = none := by
    intro service
    simp [serviceAttribute, hKey, hLookup]
  rw [startService, foldlM_fault hMem hService]
  rfl

theorem confEvents_fodomain_eq {events : List Event} {s s' : ConfState}
    (hNone : ∀ atts, .start elementFailoverdomain atts ∉ events)
    (hEvents : confEvents events s = some s') : s'.conf.fodomain = s.conf.fodomain := by
  induction events generalizing s with
  | nil =>
      cases hEvents
      rfl
  | cons e events ih =>
      obtain ⟨next, hNext, hRest⟩ := confEvents_cons hEvents
      rw [ih (fun atts hMem => hNone atts (List.mem_cons_of_mem _ hMem)) hRest]
      rcases confEvent_fodomain hNext with ⟨atts, rfl, _⟩ | ⟨hArray, _⟩
      · exact absurd List.mem_cons_self (hNone atts)
      · exact hArray

/-- A configuration that has to do with domains does not parse the same once the
counter has moved on. -/
theorem parseRhcsConf_differs (hCount : g.fodomains ≠ 0) (hUses : ¬doc.DomainFree)
    {s first : ConfState} (hFirst : parseRhcsConf .zero doc = some first)
    (hParse : parseRhcsConf g doc = some s) : s.conf ≠ first.conf := by
  by_cases hDomain : doc.HasDomain
  · intro hSame
    have hLeft := parseRhcsConf_leaves_out hCount hParse (HasDomain.fodomain_ne_nil hDomain hParse)
    rw [hSame] at hLeft
    exact Terminated.first_ne (parseRhcsConf_initialised hFirst).fodomain hLeft
  · -- Some service names a domain, and its lookup faults.
    have hNone : ∀ atts, .start elementFailoverdomain atts ∉ doc.events :=
      fun atts hMem => hDomain ⟨atts, hMem⟩
    obtain ⟨e, hMem, hEvent⟩ : ∃ e ∈ doc.events, ¬e.DomainFree := by
      simpa [Document.DomainFree] using hUses
    cases e with
    | stop name =>
        have hName : name = elementFailoverdomain := by simpa [Event.DomainFree] using hEvent
        rw [hName] at hMem
        exact absurd ((doc.balanced.mem_stop_iff _).mp hMem) hDomain
    | start name atts =>
        have hOther : name ≠ elementFailoverdomain := fun hName => hNone atts (hName ▸ hMem)
        obtain ⟨hName, hAtt⟩ : name = elementService ∧ ∃ att ∈ atts, att.1 = keyDomain := by
          simpa [Event.DomainFree, hOther] using hEvent
        obtain ⟨front, back, hSplit⟩ := List.append_of_mem hMem
        rw [parseRhcsConf, hSplit] at hParse
        obtain ⟨middle, hFront, hRest⟩ := confEvents_append hParse
        obtain ⟨next, hStart, _⟩ := confEvents_cons hRest
        have hNil : middle.conf.fodomain = [] := by
          have hInFront : ∀ atts, .start elementFailoverdomain atts ∉ front := by
            intro other hOther
            exact hNone other (by rw [hSplit]; exact List.mem_append_left _ hOther)
          exact confEvents_fodomain_eq hInFront hFront
        have hMoved : middle.counters.fodomains ≠ 0 := by
          have hSum := confEvents_fodomains hFront
          simp only at hSum
          omega
        have hFault := startService_fault hNil hMoved hAtt
        subst hName
        exact absurd (hFault.symm.trans hStart) (by simp)

end Parse

section Runs

variable {g g' : Counters} {call : Call} {calls : List Call} {parsed : Parsed}

/-- Nothing is left of the calls before, or the call has nothing to do with it. -/
theorem parse_same (hFree : g.fodomains ≠ 0 → ∀ doc, call = .conf doc → doc.DomainFree) :
    (parse g call).map Prod.snd = (parse .zero call).map Prod.snd := by
  cases call with
  | clustat doc =>
      simp only [parse]
      cases clustatOf doc with
      | none => rfl
      | some s => rfl
  | conf doc =>
      have hCases : g.fodomains = 0 ∨ doc.DomainFree := by
        by_cases hZero : g.fodomains = 0
        · exact Or.inl hZero
        · exact Or.inr (hFree hZero doc rfl)
      have hAgree := parseRhcsConf_agree hCases
      simp only [parse]
      generalize parseRhcsConf g doc = left at hAgree ⊢
      generalize parseRhcsConf .zero doc = right at hAgree ⊢
      cases hAgree with
      | fault => rfl
      | go hStates => simp [hStates.conf]

theorem parse_initialised (h : parse .zero call = some (g, parsed)) : parsed.Initialised := by
  cases call with
  | clustat doc =>
      obtain ⟨s, hParse, hSame⟩ := Option.map_eq_some_iff.mp h
      cases hSame
      exact clustatOf_initialised hParse
  | conf doc =>
      obtain ⟨s, hParse, hSame⟩ := Option.map_eq_some_iff.mp h
      cases hSame
      exact parseRhcsConf_initialised hParse

/-- The counter of the domains is not zero behind a call that has some. -/
theorem parse_fodomains (h : parse g call = some (g', parsed)) :
    g'.fodomains ≠ 0 ↔ g.fodomains ≠ 0 ∨ call.HasDomain := by
  cases call with
  | clustat doc =>
      obtain ⟨s, _, hSame⟩ := Option.map_eq_some_iff.mp h
      cases hSame
      simp [Call.HasDomain]
  | conf doc =>
      obtain ⟨s, hParse, hSame⟩ := Option.map_eq_some_iff.mp h
      cases hSame
      obtain ⟨hLe, hLess⟩ := parseRhcsConf_fodomains hParse
      simp only [Call.HasDomain, ← hLess]
      omega

theorem parse_differs (hCount : g.fodomains ≠ 0) {doc : Document} (hUses : ¬doc.DomainFree)
    (hFirst : (parse .zero (.conf doc)).isSome) :
    (parse g (.conf doc)).map Prod.snd ≠ (parse .zero (.conf doc)).map Prod.snd := by
  obtain ⟨_, hSome⟩ := Option.isSome_iff_exists.mp hFirst
  obtain ⟨first, hParse, _⟩ := Option.map_eq_some_iff.mp hSome
  simp only [parse, hParse, Option.map_some, ne_eq]
  cases hLater : parseRhcsConf g doc with
  | none => exact nofun
  | some s =>
      have hOther := parseRhcsConf_differs hCount hUses hParse hLater
      simpa using hOther

/-- `OnceOnly` in a process whose counters stand at `g`. -/
def OnceBehind (g : Counters) (calls : List Call) : Prop :=
  ∀ front doc back, calls = front ++ .conf doc :: back →
    (g.fodomains ≠ 0 ∨ ∃ call ∈ front, call.HasDomain) → doc.DomainFree

theorem onceBehind_cons (h : parse g call = some (g', parsed)) :
    OnceBehind g (call :: calls) ↔
      (g.fodomains ≠ 0 → ∀ doc, call = .conf doc → doc.DomainFree) ∧ OnceBehind g' calls := by
  have hCount := parse_fodomains h
  constructor
  · intro hOnce
    constructor
    · intro hMoved doc hCall
      exact hOnce [] doc calls (by rw [hCall]; rfl) (Or.inl hMoved)
    · intro front doc back hSplit hSeen
      apply hOnce (call :: front) doc back (by rw [hSplit]; rfl)
      rcases hSeen with hMoved | ⟨other, hOther, hDomain⟩
      · rcases hCount.mp hMoved with hBefore | hHere
        · exact Or.inl hBefore
        · exact Or.inr ⟨call, List.mem_cons_self, hHere⟩
      · exact Or.inr ⟨other, List.mem_cons_of_mem _ hOther, hDomain⟩
  · rintro ⟨hHead, hOnce⟩ front doc back hSplit hSeen
    cases front with
    | nil =>
        cases hSplit
        rcases hSeen with hMoved | ⟨_, hNone, _⟩
        · exact hHead hMoved doc rfl
        · cases hNone
    | cons first front =>
        cases hSplit
        apply hOnce front doc back rfl
        rcases hSeen with hMoved | ⟨other, hOther, hDomain⟩
        · exact Or.inl (hCount.mpr (Or.inl hMoved))
        · rcases List.mem_cons.mp hOther with rfl | hBehind
          · exact Or.inl (hCount.mpr (Or.inr hDomain))
          · exact Or.inr ⟨other, hBehind, hDomain⟩

/-- The results of calls go on behind a first one that returns the same. -/
theorem results_cons_iff
    (hSame : (parse g call).map Prod.snd = (parse .zero call).map Prod.snd) :
    results g (call :: calls) = firstResults (call :: calls) ↔
      ∀ g' parsed, parse g call = some (g', parsed) → results g' calls = firstResults calls := by
  rw [results, firstResults]
  cases hLeft : parse g call with
  | none =>
      rw [hLeft] at hSame
      have hRight := Option.map_eq_none_iff.mp hSame.symm
      simp [hRight]
  | some pair =>
      rw [hLeft] at hSame
      obtain ⟨other, hRight, hParsed⟩ := Option.map_eq_some_iff.mp hSame.symm
      obtain ⟨g', parsed⟩ := pair
      obtain ⟨first, parsed'⟩ := other
      simp only at hParsed
      simp [hRight, hParsed]

theorem results_of_once (h : OnceBehind g calls) : results g calls = firstResults calls := by
  induction calls generalizing g with
  | nil => rfl
  | cons call calls ih =>
      have hHead : g.fodomains ≠ 0 → ∀ doc, call = .conf doc → doc.DomainFree :=
        fun hMoved doc hCall => h [] doc calls (by rw [hCall]; rfl) (Or.inl hMoved)
      rw [results_cons_iff (parse_same hHead)]
      intro g' parsed hParse
      exact ih ((onceBehind_cons hParse).mp h).2

theorem once_of_results (hReturns : ∀ call ∈ calls, (parse .zero call).isSome)
    (h : results g calls = firstResults calls) : OnceBehind g calls := by
  induction calls generalizing g with
  | nil =>
      intro front doc back hSplit
      cases front with
      | nil => cases hSplit
      | cons _ _ => cases hSplit
  | cons call calls ih =>
      have hFirst := hReturns call List.mem_cons_self
      obtain ⟨⟨after, first⟩, hZero⟩ := Option.isSome_iff_exists.mp hFirst
      have hHeads := h
      rw [results, firstResults, hZero] at hHeads
      cases hParse : parse g call with
      | none => simp [hParse] at hHeads
      | some pair =>
          obtain ⟨g', parsed⟩ := pair
          have hSame : (parse g call).map Prod.snd = (parse .zero call).map Prod.snd := by
            simp only [hParse, List.cons.injEq, Option.some.injEq] at hHeads
            rw [hParse, hZero, Option.map_some, Option.map_some, hHeads.1]
          have hRest := (results_cons_iff hSame).mp h g' parsed hParse
          refine (onceBehind_cons hParse).mpr ⟨?_, ih
            (fun other hOther => hReturns other (List.mem_cons_of_mem _ hOther)) hRest⟩
          intro hMoved doc hCall
          subst hCall
          by_contra hUses
          exact parse_differs hMoved hUses hFirst hSame

/-- Every structure is the one of a first call, and its arrays are initialised. -/
def Independent (calls : List Call) : Prop :=
  results .zero calls = firstResults calls ∧
    ∀ parsed, some parsed ∈ results .zero calls → parsed.Initialised

theorem firstResults_initialised (h : some parsed ∈ firstResults calls) : parsed.Initialised := by
  induction calls with
  | nil => cases h
  | cons call calls ih =>
      rw [firstResults] at h
      cases hParse : parse .zero call with
      | none =>
          rw [hParse] at h
          simp at h
      | some pair =>
          rw [hParse] at h
          rcases List.mem_cons.mp h with hHead | hRest
          · cases hHead
            exact parse_initialised hParse
          · exact ih hRest

/-- Calls are independent when behind a configuration with failover domains no
other has to do with them; and among configurations that a first call can parse
only then. -/
theorem results_independent (calls : List Call) :
    (OnceOnly calls → Independent calls) ∧
      ((∀ call ∈ calls, (parse .zero call).isSome) → Independent calls → OnceOnly calls) := by
  have hOnce : OnceBehind .zero calls ↔ OnceOnly calls := by
    have hZero : ¬Counters.zero.fodomains ≠ 0 := fun hMoved => hMoved rfl
    simp only [OnceBehind, OnceOnly, hZero, false_or]
  constructor
  · intro h
    have hSame := results_of_once (hOnce.mpr h)
    exact ⟨hSame, fun parsed hParsed => firstResults_initialised (hSame ▸ hParsed)⟩
  · intro hReturns h
    exact hOnce.mp (once_of_results hReturns h.1)

/-- A configuration with one failover domain. -/
def domainDocument : Document where
  events := [.start elementCluster [], .start elementFailoverdomain [(keyName, ['a'])],
    .stop elementFailoverdomain, .stop elementCluster]
  balanced := Balanced.element elementCluster []
    (Balanced.element elementFailoverdomain [(keyName, ['a'])] Balanced.none Balanced.none)
    Balanced.none

/-- Parsed a second time, its array starts with a pointer that was never written. -/
theorem domainDocument_twice : ¬Independent [.conf domainDocument, .conf domainDocument] := by
  intro h
  exact absurd h.1 (by decide)

/-- A configuration with a node and a service and no failover domain. -/
def serviceDocument : Document where
  events := [.start elementClusternode [(keyName, ['a'])], .stop elementClusternode,
    .start elementService [(keyName, ['w'])], .stop elementService]
  balanced := @Balanced.element _ _ [] _ Balanced.none
    (@Balanced.element _ _ [] _ Balanced.none Balanced.none)

/-- What `clustat` tells about a node. -/
def nodeDocument : Document where
  events := [.start "node".toList [(keyName, ['a'])], .stop "node".toList]
  balanced := @Balanced.element _ _ [] _ Balanced.none Balanced.none

theorem serviceDocument_domainFree : serviceDocument.DomainFree := by
  simp [Document.DomainFree, serviceDocument, Event.DomainFree, elementClusternode,
    elementFailoverdomain, elementService, elementCluster, keyName, keyDomain]

/-- The configuration with a failover domain has others in front of it and behind. -/
theorem results_independent_sample :
    Independent [.conf serviceDocument, .clustat nodeDocument, .conf domainDocument,
      .clustat nodeDocument, .conf serviceDocument] := by
  apply (results_independent _).1
  intro front doc back hSplit hSeen
  have hFree : ¬serviceDocument.HasDomain := fun ⟨_, hMem⟩ =>
    (serviceDocument_domainFree _ hMem).1 rfl
  have hFront : ¬∃ call ∈ [.conf serviceDocument, .clustat nodeDocument], Call.HasDomain call := by
    simp [Call.HasDomain, hFree]
  match front, hSplit with
  | [], hSplit | [_, _, _, _], hSplit =>
      cases hSplit
      exact serviceDocument_domainFree
  | [_, _], hSplit =>
      cases hSplit
      exact absurd hSeen hFront
  | [_], hSplit | [_, _, _], hSplit => cases hSplit
  | _ :: _ :: _ :: _ :: _ :: _, hSplit => simp at hSplit

end Runs

end MonitoringPlug.Rhcs
