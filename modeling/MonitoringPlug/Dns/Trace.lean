import MonitoringPlug.Common
import MonitoringPlug.Lib.Trust

/-! `check_dnssec_trace`: from the trusted keys of a zone down to the domain, the valid keys
of each zone are added, and the signatures of the domain are verified with all of them. What
ldns does with names, keys and signatures is a parameter. -/
namespace MonitoringPlug.Dns

open MonitoringPlug.Common
open Trust

inductive Rcode where
  | noError
  | nxDomain
  | other
deriving DecidableEq

/-- What is taken from an answer: the records of the domain and the signatures over them. A
list without entries stands for NULL too. -/
structure Answer (Rr Sig : Type) where
  rrs : List Rr
  rrsigs : List Sig

/-- Names are the lists of their labels, the outermost last; `server` and `resolver` say
whether the two resolvers can be set up. -/
structure DnssecTrace (Label Key Rr Sig : Type) where
  domainname : List Char
  domaintrace : List Char
  domain : Option (List Label)
  trace : Option (List Label)
  trustedKeys : List Key
  owner : Key → List Label
  isSubdomain : List Label → List Label → Bool
  server : Bool
  resolver : Bool
  soa : Option (Rcode × Answer Rr Sig)
  ns : Answer Rr Sig
  fetchValidDomainKeys : List Label → List Key → List Key
  verifyRrsigKeylist : List Rr → Sig → List Key → Bool

variable {Label Key Rr Sig : Type}

/-- `soa_valid` or `ns_valid`. -/
def DnssecTrace.valid (t : DnssecTrace Label Key Rr Sig) (answer : Answer Rr Sig)
    (keys : List Key) : Nat :=
  answer.rrsigs.countP fun sig => t.verifyRrsigKeylist answer.rrs sig keys

def DnssecTrace.validate (t : DnssecTrace Label Key Rr Sig) (soa : Answer Rr Sig)
    (keys : List Key) : Exit :=
  if t.valid soa keys = 0 then
    ⟨.critical, "No valid Signatur for SOA of '".toList ++ t.domainname ++ ['\''], none⟩
  else if t.valid t.ns keys = 0 then
    ⟨.critical, "No valid Signatur for NS of '".toList ++ t.domainname ++ ['\''], none⟩
  else
    ⟨.ok, "Trust for '".toList ++ t.domainname ++ "' successfull traces from '".toList ++
      t.domaintrace ++ ['\''], none⟩

/-- The names from the trace start down to the domain. -/
def path (domain trace : List Label) : List (List Label) :=
  (List.range (domain.length + 1 - trace.length)).reverse.map fun i => domain.drop i

section Keys

variable [DecidableEq Label]

/-- `rrl_valid_keys` in front of the trace. -/
def DnssecTrace.anchors (t : DnssecTrace Label Key Rr Sig) (trace : List Label) : List Key :=
  t.trustedKeys.filter fun key => t.owner key = trace

def DnssecTrace.validKeys (t : DnssecTrace Label Key Rr Sig) (domain trace : List Label) :
    List Key :=
  gather t.fetchValidDomainKeys (t.anchors trace) (path domain trace)

/-- `main`. A domain that is not signed ends in `free` of the trace name, which `malloc` has
not given. -/
def checkDnssecTrace (t : DnssecTrace Label Key Rr Sig) : Option Exit :=
  match t.domain, t.trace with
  | none, _ => some ⟨.unknown, "Illegal domain name".toList, none⟩
  | some _, none => some ⟨.unknown, "Illegal trace domain name".toList, none⟩
  | some domain, some trace =>
      if t.isSubdomain domain trace = false then
        some ⟨.unknown, ['\''] ++ t.domainname ++ "' is not a subdomain of '".toList ++
          t.domaintrace ++ "'.".toList, none⟩
      else if t.anchors trace = [] then
        some ⟨.critical, "No trusted key for trace start '".toList ++ t.domaintrace ++ ['\''],
          none⟩
      else if t.server = false then some ⟨.unknown, "Creating resolver failed.".toList, none⟩
      else
        match t.soa with
        | none => some ⟨.critical, "Unable to get SOA for ".toList ++ t.domainname ++ ['.'], none⟩
        | some (rcode, soa) =>
            if rcode = .nxDomain then
              some ⟨.critical, "Domain '".toList ++ t.domainname ++ "' don't exist.".toList, none⟩
            else if rcode ≠ .noError then
              some ⟨.critical, "Unable to get SOA for ".toList ++ t.domainname ++ ['.'], none⟩
            else if soa.rrs = [] then
              some ⟨.critical, "Domain '".toList ++ t.domainname ++ "' not found.".toList, none⟩
            else if soa.rrsigs = [] then none
            else if t.resolver = false then
              some ⟨.unknown, "Creating resolver failed.".toList, none⟩
            else some (t.validate soa (t.validKeys domain trace))

end Keys

/-- The zones from the trace start down to the domain, each with one label more. -/
def zones (front trace : List Label) : List (List Label) :=
  front.tails.reverse.map fun labels => labels ++ trace

theorem range_drop_front (front trace : List Label) :
    (List.range (front.length + 1)).map (fun i => (front ++ trace).drop i) =
      front.tails.map fun labels => labels ++ trace := by
  induction front with
  | nil => rfl
  | cons label front ih =>
      rw [List.length_cons, List.range_succ_eq_map, List.map_cons, List.map_map, List.tails,
        List.map_cons, ← ih]
      rfl

theorem path_below (front trace : List Label) :
    path (front ++ trace) trace = zones front trace := by
  have hLength : (front ++ trace).length + 1 - trace.length = front.length + 1 := by
    rw [List.length_append]
    omega
  rw [path, hLength, zones, List.map_reverse, List.map_reverse, range_drop_front]

section Signed

variable [DecidableEq Label]

/-- A chain of keys from the trusted ones down the zones, and a signature by its last key. -/
def DnssecTrace.Signed (t : DnssecTrace Label Key Rr Sig)
    (vouches : List Label → Key → Key → Prop) (signs : Key → List Rr → Sig → Prop)
    (front trace : List Label) (answer : Answer Rr Sig) : Prop :=
  ∃ sig ∈ answer.rrsigs, ∃ key,
    Chain vouches (t.anchors trace) (zones front trace) key ∧ signs key answer.rrs sig

/-- All that has to go well in front of the trace. -/
structure DnssecTrace.Answered (t : DnssecTrace Label Key Rr Sig) (domain trace : List Label)
    (soa : Answer Rr Sig) : Prop where
  named : t.domain = some domain
  start : t.trace = some trace
  below : t.isSubdomain domain trace = true
  trusted : t.anchors trace ≠ []
  server : t.server = true
  asked : t.soa = some (.noError, soa)
  found : soa.rrs ≠ []
  signed : soa.rrsigs ≠ []
  resolver : t.resolver = true

end Signed

section Validate

variable {t : DnssecTrace Label Key Rr Sig} {answer soa : Answer Rr Sig} {keys : List Key}

theorem valid_ne_zero_iff : t.valid answer keys ≠ 0 ↔
    ∃ sig ∈ answer.rrsigs, t.verifyRrsigKeylist answer.rrs sig keys = true := by
  rw [DnssecTrace.valid, ← Nat.pos_iff_ne_zero, List.countP_pos_iff]

theorem validate_ok_iff :
    (t.validate soa keys).status = .ok ↔ t.valid soa keys ≠ 0 ∧ t.valid t.ns keys ≠ 0 := by
  rw [DnssecTrace.validate]
  by_cases hSoa : t.valid soa keys = 0
  · simp [hSoa]
  · by_cases hNs : t.valid t.ns keys = 0
    · simp [hSoa, hNs]
    · simp [hSoa, hNs]

end Validate

section Trace

variable [DecidableEq Label] {t : DnssecTrace Label Key Rr Sig} {answer soa : Answer Rr Sig}
  {domain front trace : List Label} {e : Exit} {vouches : List Label → Key → Key → Prop}
  {signs : Key → List Rr → Sig → Prop}

theorem checkDnssecTrace_answered (h : t.Answered domain trace soa) :
    checkDnssecTrace t = some (t.validate soa (t.validKeys domain trace)) := by
  simp [checkDnssecTrace, h.named, h.start, h.below, h.trusted, h.server, h.asked, h.found,
    h.signed, h.resolver]

/-- An exit that is ok is none of a test that fails. -/
theorem passed {c : Prop} [Decidable c] {bad : Exit} {rest : Option Exit}
    (hBad : bad.status ≠ .ok) (hOk : e.status = .ok)
    (h : (if c then some bad else rest) = some e) : ¬ c ∧ rest = some e := by
  by_cases hc : c
  · rw [if_pos hc] at h
    exact absurd (Option.some.inj h ▸ hOk) hBad
  · rw [if_neg hc] at h
    exact ⟨hc, h⟩

theorem answered_of_ok (h : checkDnssecTrace t = some e) (hOk : e.status = .ok) :
    ∃ domain trace soa, t.Answered domain trace soa := by
  rw [checkDnssecTrace] at h
  cases hNamed : t.domain with
  | none =>
      rw [hNamed] at h
      cases h
      cases hOk
  | some domain =>
      cases hStart : t.trace with
      | none =>
          rw [hNamed, hStart] at h
          cases h
          cases hOk
      | some trace =>
          rw [hNamed, hStart] at h
          obtain ⟨hBelow, h⟩ := passed (by simp) hOk h
          obtain ⟨hTrusted, h⟩ := passed (by simp) hOk h
          obtain ⟨hServer, h⟩ := passed (by simp) hOk h
          cases hAsked : t.soa with
          | none =>
              rw [hAsked] at h
              cases h
              cases hOk
          | some answer =>
              obtain ⟨rcode, soa⟩ := answer
              rw [hAsked] at h
              obtain ⟨-, h⟩ := passed (by simp) hOk h
              obtain ⟨hCode, h⟩ := passed (by simp) hOk h
              obtain ⟨hFound, h⟩ := passed (by simp) hOk h
              by_cases hSigned : soa.rrsigs = []
              · rw [if_pos hSigned] at h
                cases h
              · rw [if_neg hSigned] at h
                obtain ⟨hResolver, -⟩ := passed (by simp) hOk h
                refine ⟨domain, trace, soa, hNamed, hStart, ?_, hTrusted, ?_, ?_, hFound,
                  hSigned, ?_⟩
                · simpa using hBelow
                · simpa using hServer
                · rw [hAsked, not_not.mp hCode]
                · simpa using hResolver

theorem signed_of_valid
    (hFetch : ∀ name keys next, next ∈ t.fetchValidDomainKeys name keys →
      ∃ key ∈ keys, vouches name key next)
    (hVerify : ∀ rrs sig keys, t.verifyRrsigKeylist rrs sig keys = true →
      ∃ key ∈ keys, signs key rrs sig)
    (h : t.valid answer (t.validKeys (front ++ trace) trace) ≠ 0) :
    t.Signed vouches signs front trace answer := by
  obtain ⟨sig, hSig, hValid⟩ := valid_ne_zero_iff.mp h
  obtain ⟨key, hKey, hSigns⟩ := hVerify answer.rrs sig _ hValid
  have hChain := chain_of_mem_gather hFetch hKey
  rw [path_below] at hChain
  exact ⟨sig, hSig, key, hChain, hSigns⟩

theorem valid_of_signed
    (hFetch : ∀ name keys key next, key ∈ keys → vouches name key next →
      next ∈ t.fetchValidDomainKeys name keys)
    (hVerify : ∀ rrs sig keys key, key ∈ keys → signs key rrs sig →
      t.verifyRrsigKeylist rrs sig keys = true)
    (h : t.Signed vouches signs front trace answer) :
    t.valid answer (t.validKeys (front ++ trace) trace) ≠ 0 := by
  obtain ⟨sig, hSig, key, hChain, hSigns⟩ := h
  rw [← path_below] at hChain
  have hKey : key ∈ t.validKeys (front ++ trace) trace := mem_gather_of_chain hFetch hChain
  exact valid_ne_zero_iff.mpr ⟨sig, hSig, hVerify answer.rrs sig _ key hKey hSigns⟩

end Trace

section Result

variable [DecidableEq Label]

/-- The trust that is reported has its chain: keys from a trusted one of the trace start down
the zones, each found with the one before it, and signatures over SOA and NS by a last key. -/
theorem checkDnssecTrace_sound (t : DnssecTrace Label Key Rr Sig)
    (vouches : List Label → Key → Key → Prop) (signs : Key → List Rr → Sig → Prop)
    (hSubdomain : ∀ sub parent, t.isSubdomain sub parent = true → parent <:+ sub)
    (hFetch : ∀ name keys next, next ∈ t.fetchValidDomainKeys name keys →
      ∃ key ∈ keys, vouches name key next)
    (hVerify : ∀ rrs sig keys, t.verifyRrsigKeylist rrs sig keys = true →
      ∃ key ∈ keys, signs key rrs sig)
    (e : Exit) (h : checkDnssecTrace t = some e) (hOk : e.status = .ok) :
    ∃ front trace soa, t.Answered (front ++ trace) trace soa ∧
      t.Signed vouches signs front trace soa ∧ t.Signed vouches signs front trace t.ns := by
  obtain ⟨domain, trace, soa, hAnswered⟩ := answered_of_ok h hOk
  obtain ⟨front, rfl⟩ := hSubdomain domain trace hAnswered.below
  rw [checkDnssecTrace_answered hAnswered] at h
  obtain rfl := Option.some.inj h
  obtain ⟨hSoa, hNs⟩ := validate_ok_iff.mp hOk
  exact ⟨front, trace, soa, hAnswered, signed_of_valid hFetch hVerify hSoa,
    signed_of_valid hFetch hVerify hNs⟩

/-- The keys of the example each vouch for the next number and sign with their own. -/
def exampleTrace : DnssecTrace ℕ ℕ ℕ ℕ where
  domainname := "de".toList
  domaintrace := ['.']
  domain := some [1, 0]
  trace := some [0]
  trustedKeys := [10, 30]
  owner key := if key = 10 then [0] else [2, 0]
  isSubdomain sub parent := parent.isSuffixOf sub
  server := true
  resolver := true
  soa := some (.noError, ⟨[1], [5, 12]⟩)
  ns := ⟨[2], [12]⟩
  fetchValidDomainKeys _ keys := keys.map (· + 1)
  verifyRrsigKeylist _ sig keys := keys.contains sig

theorem checkDnssecTrace_sound_example :
    ∃ front trace soa, exampleTrace.Answered (front ++ trace) trace soa ∧
      exampleTrace.Signed (fun _ key next => next = key + 1) (fun key _ sig => sig = key)
        front trace soa ∧
      exampleTrace.Signed (fun _ key next => next = key + 1) (fun key _ sig => sig = key)
        front trace exampleTrace.ns := by
  refine checkDnssecTrace_sound exampleTrace _ _ ?_ ?_ ?_
    ⟨.ok, "Trust for 'de' successfull traces from '.'".toList, none⟩ (by decide +kernel) rfl
  · intro sub parent h
    exact List.isSuffixOf_iff_suffix.mp h
  · intro name keys next h
    obtain ⟨key, hKey, rfl⟩ := List.mem_map.mp h
    exact ⟨key, hKey, rfl⟩
  · intro rrs sig keys h
    exact ⟨sig, List.contains_iff_mem.mp h, rfl⟩

/-- Where ldns finds every key and every signature there is, a chain is enough. -/
theorem checkDnssecTrace_complete (t : DnssecTrace Label Key Rr Sig)
    (vouches : List Label → Key → Key → Prop) (signs : Key → List Rr → Sig → Prop)
    (hFetch : ∀ name keys key next, key ∈ keys → vouches name key next →
      next ∈ t.fetchValidDomainKeys name keys)
    (hVerify : ∀ rrs sig keys key, key ∈ keys → signs key rrs sig →
      t.verifyRrsigKeylist rrs sig keys = true)
    (front trace : List Label) (soa : Answer Rr Sig)
    (hAnswered : t.Answered (front ++ trace) trace soa)
    (hSoa : t.Signed vouches signs front trace soa)
    (hNs : t.Signed vouches signs front trace t.ns) :
    ∃ e, checkDnssecTrace t = some e ∧ e.status = .ok := by
  refine ⟨_, checkDnssecTrace_answered hAnswered, validate_ok_iff.mpr ⟨?_, ?_⟩⟩
  · exact valid_of_signed hFetch hVerify hSoa
  · exact valid_of_signed hFetch hVerify hNs

theorem checkDnssecTrace_complete_example :
    ∃ e, checkDnssecTrace exampleTrace = some e ∧ e.status = .ok := by
  have hChain : Chain (fun _ key next => next = key + 1) (exampleTrace.anchors [0])
      (zones [1] [0]) 12 :=
    ⟨10, by decide, [([0], 11), ([1, 0], 12)], by decide, rfl, rfl, rfl⟩
  refine checkDnssecTrace_complete exampleTrace (fun _ key next => next = key + 1)
    (fun key _ sig => sig = key) ?_ ?_ [1] [0] ⟨[1], [5, 12]⟩ ?_ ?_ ?_
  · rintro name keys key next hKey rfl
    exact List.mem_map.mpr ⟨key, hKey, rfl⟩
  · rintro rrs sig keys key hKey rfl
    exact List.contains_iff_mem.mpr hKey
  · exact ⟨rfl, rfl, by decide, by decide, rfl, rfl, by decide, by decide, rfl⟩
  · exact ⟨12, by decide, 12, hChain, rfl⟩
  · exact ⟨12, by decide, 12, hChain, rfl⟩

end Result

end MonitoringPlug.Dns
