import MonitoringPlug.Check.Url

/-! The syntax of a URL, and which URLs `is_url` takes. -/
namespace MonitoringPlug.Check

open CText

def unreservedMarks : List Char := ['-', '.', '_', '~']

def subDelims : List Char := ['!', '$', '&', '\'', '(', ')', '*', '+', ',', ';', '=']

def isUnreserved (c : Char) : Bool := c.isAlphanum || decide (c ∈ unreservedMarks)

def isUserinfoChar (c : Char) : Bool :=
  isUnreserved c || decide (c ∈ subDelims) || decide (c ∈ [':'])

def isPchar (c : Char) : Bool :=
  isUnreserved c || decide (c ∈ subDelims) || decide (c ∈ [':', '@'])

def isPathChar (c : Char) : Bool := isPchar c || decide (c ∈ ['/'])

/-- A character of a query and of a fragment. -/
def isQueryChar (c : Char) : Bool := isPchar c || decide (c ∈ ['/', '?'])

/-- A letter, then letters, digits and three more characters. -/
def IsScheme (scheme : List Char) : Prop :=
  ∃ c rest, scheme = c :: rest ∧ c.isAlpha = true ∧
    ∀ d ∈ rest, d.isAlphanum = true ∨ d = '+' ∨ d = '-' ∨ d = '.'

/-- What may stand for the user information and for the host. -/
structure Forms where
  userinfo : List Char → Prop
  host : List Char → Prop

structure Authority (F : Forms) where
  userinfo : Option (List Char)
  host : List Char
  port : Option (List Char)
  userinfo_form : ∀ s ∈ userinfo, F.userinfo s
  host_form : F.host host
  port_digits : ∀ s ∈ port, ∀ c ∈ s, c.isDigit = true

structure Url (F : Forms) where
  scheme : List Char
  authority : Option (Authority F)
  path : List Char
  query : Option (List Char)
  fragment : Option (List Char)
  scheme_form : IsScheme scheme
  path_start : ∀ c ∈ path.head?, c = '/'
  path_chars : PercentEncoded isPathChar path
  query_chars : ∀ s ∈ query, PercentEncoded isQueryChar s
  fragment_chars : ∀ s ∈ fragment, PercentEncoded isQueryChar s

def Authority.text {F : Forms} (a : Authority F) : List Char :=
  userinfoText a.userinfo ++ (a.host ++ marked ':' a.port)

def authorityText {F : Forms} : Option (Authority F) → List Char
  | none => []
  | some a => a.text

namespace Url

variable {F : Forms} (url : Url F)

def tailText : List Char := url.path ++ (marked '?' url.query ++ marked '#' url.fragment)

def text : List Char :=
  url.scheme ++ ':' :: '/' :: '/' :: (authorityText url.authority ++ url.tailText)

end Url

def IsBracketed (host : List Char) : Prop :=
  ∃ content, host = '[' :: (content ++ [']']) ∧ ∀ c ∈ content, isXdigit c = true ∨ c = ':'

/-- Any host that is bracketed, an address or a name, and any user information. -/
def anyForms (isHostaddr : List Char → Bool) : Forms where
  userinfo := PercentEncoded isUserinfoChar
  host host := IsBracketed host ∨ isHostaddr host = true ∨ isHostname host = true

/-- A host that begins with a digit is an address and no other is, brackets hold more
than a colon, and the user information is not empty. -/
def urlForms (isHostaddr : List Char → Bool) : Forms where
  userinfo s := s ≠ [] ∧ PercentEncoded isUserinfoChar s
  host host :=
    (∃ content, host = '[' :: (content ++ [']']) ∧ content ≠ [] ∧ content ≠ [':'] ∧
        ∀ c ∈ content, isXdigit c = true ∨ c = ':') ∨
      (if host.head?.any Char.isDigit then isHostaddr host else isHostname host) = true

/-- What stands behind `://` up to the path, the query or the fragment. -/
def authorityOf (url : List Char) : List Char :=
  (strsepAny authorityEnds (((strsep ':' url).2.getD []).drop 2)).1

/-- Digits, with a colon in front or without, stand behind a bracketed host. -/
def portBehindBracket : List Char → Bool
  | '[' :: rest =>
      match strsep ']' rest with
      | (_, some (c :: behind)) => (c == ':' || c.isDigit) && behind.all Char.isDigit
      | _ => false
  | _ => false

/-- No delimiter of a URL stands in an address. -/
def addressEnds : List Char := ['/', '?', '#', '@', ':']

section Characters

/-- The characters of `is_url` are those of the syntax without the underscore. -/
theorem userinfoChars_iff (c : Char) :
    isUrlChar userinfoChars c = true ↔ isUserinfoChar c = true ∧ c ≠ '_' := by
  have hPerm : (unreservedMarks ++ (subDelims ++ [':'])).Perm ('_' :: userinfoChars) := by decide
  have hNamed : isUserinfoChar c = true ↔ c.isAlphanum = true ∨ c = '_' ∨ c ∈ userinfoChars := by
    simp only [isUserinfoChar, isUnreserved, Bool.or_eq_true, decide_eq_true_eq, or_assoc]
    rw [← List.mem_cons, ← hPerm.mem_iff, List.mem_append, List.mem_append]
  rw [hNamed, isUrlChar, Bool.or_eq_true, decide_eq_true_eq]
  by_cases hUnderscore : c = '_'
  · rw [hUnderscore]
    decide
  · simp [hUnderscore]

theorem queryChars_iff (c : Char) :
    isUrlChar queryChars c = true ↔ isQueryChar c = true ∨ c = '#' := by
  have hPerm : queryChars.Perm
      (unreservedMarks ++ (subDelims ++ ([':', '@'] ++ (['/', '?'] ++ ['#'])))) := by decide
  simp only [isUrlChar, isQueryChar, isPchar, isUnreserved, Bool.or_eq_true, decide_eq_true_eq,
    or_assoc, hPerm.mem_iff, List.mem_append, List.mem_singleton]

theorem isPathChar_iff (c : Char) :
    isPathChar c = true ↔ isQueryChar c = true ∧ c ≠ '?' := by
  by_cases hQuestion : c = '?'
  · rw [hQuestion]
    decide
  · simp [isPathChar, isQueryChar, hQuestion]

theorem checkScheme_iff (scheme : List Char) : checkScheme scheme = true ↔ IsScheme scheme := by
  cases scheme with
  | nil => simp [checkScheme, IsScheme]
  | cons c rest => simp [checkScheme, IsScheme, isUrlChar, schemeChars]

end Characters

section Tail

theorem marked_parts {p : Char → Bool} {front : List Char} {mark : Char}
    {rest : Option (List Char)} (h : PercentEncoded p (front ++ marked mark rest))
    (hMark : mark ≠ '%') (hDigit : isXdigit mark = false) :
    PercentEncoded p front ∧ ∀ s ∈ rest, PercentEncoded p s := by
  cases rest with
  | none =>
      rw [marked, List.append_nil] at h
      exact ⟨h, by simp⟩
  | some back =>
      have hParts := h.cut hMark hDigit
      refine ⟨hParts.1, ?_⟩
      rintro _ ⟨⟩
      exact hParts.2.2

theorem percentEncoded_marked {p q : Char → Bool} {mark : Char} {rest : Option (List Char)}
    (hMark : q mark = true) (hKind : ∀ c, p c = true → q c = true)
    (h : ∀ s ∈ rest, PercentEncoded p s) : PercentEncoded q (marked mark rest) := by
  cases rest with
  | none => exact .nil
  | some s => exact .char hMark ((h s rfl).of_mem fun c _ => hKind c)

theorem queryChar_of_not_hash {c : Char} (hHash : c ≠ '#')
    (h : isUrlChar queryChars c = true) : isQueryChar c = true :=
  ((queryChars_iff c).mp h).resolve_right hHash

/-- A text that begins where an authority ends and has no second `#` is a path, a query
and a fragment when its characters are those of a query. -/
theorem exists_tail {tail : List Char} (hStart : ∀ c ∈ tail.head?, c ∈ authorityEnds)
    (hHash : tail.count '#' ≤ 1) (h : PercentEncoded (isUrlChar queryChars) tail) :
    ∃ path query fragment, tail = path ++ (marked '?' query ++ marked '#' fragment) ∧
      (∀ c ∈ path.head?, c = '/') ∧ PercentEncoded isPathChar path ∧
      (∀ s ∈ query, PercentEncoded isQueryChar s) ∧
      ∀ s ∈ fragment, PercentEncoded isQueryChar s := by
  obtain ⟨front, fragment, rfl, hFront⟩ := exists_marked '#' tail
  obtain ⟨path, query, rfl, hPath⟩ := exists_marked '?' front
  obtain ⟨hBefore, hFragment⟩ := marked_parts h (by decide) (by decide)
  obtain ⟨hPathChars, hQuery⟩ := marked_parts hBefore (by decide) (by decide)
  have hPathHash : ∀ c ∈ path, c ≠ '#' := fun c hc hEq =>
    hFront (List.mem_append_left _ (hEq ▸ hc))
  have hPathQuestion : ∀ c ∈ path, c ≠ '?' := fun c hc hEq => hPath (hEq ▸ hc)
  refine ⟨path, query, fragment, List.append_assoc _ _ _, ?_, ?_, ?_, ?_⟩
  · intro c hc
    have hMem : c ∈ path := List.mem_of_mem_head? hc
    have hEnd : c ∈ authorityEnds := hStart c (by
      rw [List.append_assoc, List.head?_append, hc]
      rfl)
    simpa [authorityEnds, hPathHash c hMem, hPathQuestion c hMem] using hEnd
  · refine hPathChars.of_mem fun c hc hChar => (isPathChar_iff c).mpr ?_
    exact ⟨queryChar_of_not_hash (hPathHash c hc) hChar, hPathQuestion c hc⟩
  · rintro s ⟨⟩
    refine (hQuery s rfl).of_mem fun c hc => queryChar_of_not_hash fun hEq => hFront ?_
    rw [← hEq]
    exact List.mem_append_right _ (List.mem_cons_of_mem _ hc)
  · rintro s ⟨⟩
    refine (hFragment s rfl).of_mem fun c hc => queryChar_of_not_hash fun hEq => ?_
    -- The `#` in front of the fragment is the only one.
    have hOnce : s.count '#' = 0 := by
      rw [marked, List.count_append, List.count_cons_self] at hHash
      omega
    exact List.count_eq_zero.mp hOnce (hEq ▸ hc)

theorem percentEncoded_tail {path : List Char} {query fragment : Option (List Char)}
    (hPath : PercentEncoded isPathChar path) (hQuery : ∀ s ∈ query, PercentEncoded isQueryChar s)
    (hFragment : ∀ s ∈ fragment, PercentEncoded isQueryChar s) :
    PercentEncoded (isUrlChar queryChars) (path ++ (marked '?' query ++ marked '#' fragment)) := by
  have hKind : ∀ c, isQueryChar c = true → isUrlChar queryChars c = true := fun c hc =>
    (queryChars_iff c).mpr (Or.inl hc)
  have hFront := hPath.of_mem fun c _ hc => hKind c ((isPathChar_iff c).mp hc).1
  exact hFront.append ((percentEncoded_marked (by decide) hKind hQuery).append
    (percentEncoded_marked (by decide) hKind hFragment))

end Tail

section Authority

variable {isHostaddr : List Char → Bool}

theorem checkUserinfo_iff {s : List Char} (hUnderscore : '_' ∉ s) :
    checkUserinfo s = true ↔ s ≠ [] ∧ PercentEncoded isUserinfoChar s := by
  have hPercent : '%' ∉ userinfoChars := by simp [userinfoChars]
  have hChars : PercentEncoded (isUrlChar userinfoChars) s ↔ PercentEncoded isUserinfoChar s :=
    ⟨fun h => h.of_mem fun c _ hc => ((userinfoChars_iff c).mp hc).1,
      fun h => h.of_mem fun c hMem hc =>
        (userinfoChars_iff c).mpr ⟨hc, fun hEq => hUnderscore (hEq ▸ hMem)⟩⟩
  rw [checkUserinfo, Bool.and_eq_true, percentEncoded_urlChar_iff hPercent, hChars]
  cases s <;> simp

theorem portBehindBracket_bracket {content : List Char} (h : ']' ∉ content) (c : Char)
    (behind : List Char) : portBehindBracket ('[' :: (content ++ ']' :: c :: behind)) =
      ((c == ':' || c.isDigit) && behind.all Char.isDigit) := by
  rw [portBehindBracket, strsep_append h]

/-- What the syntax has between brackets ends neither them nor the authority. -/
theorem bracketed_free {content : List Char}
    (h : ∀ c ∈ content, isXdigit c = true ∨ c = ':') :
    ∀ c ∈ content, c ∉ ']' :: '@' :: authorityEnds := by
  intro c hc hEnd
  have hKind := h c hc
  simp only [authorityEnds, List.mem_cons, List.not_mem_nil, or_false] at hEnd
  rcases hEnd with rfl | rfl | rfl | rfl | rfl <;> exact absurd hKind (by decide)

theorem userinfo_free {s : List Char} (h : PercentEncoded isUserinfoChar s) :
    ∀ c ∈ s, c ∉ '@' :: authorityEnds := by
  intro c hc hEnd
  have hKind := h.mem hc
  simp only [authorityEnds, List.mem_cons, List.not_mem_nil, or_false] at hEnd
  rcases hEnd with rfl | rfl | rfl | rfl <;> exact absurd hKind (by decide)

theorem port_free {port : Option (List Char)} (h : ∀ s ∈ port, ∀ c ∈ s, c.isDigit = true) :
    ∀ c ∈ marked ':' port, c ∉ '@' :: authorityEnds := by
  intro c hc hEnd
  cases port with
  | none => cases hc
  | some s =>
      rcases List.mem_cons.mp hc with rfl | hMem
      · exact absurd hEnd (by decide)
      · have hDigit := h s rfl c hMem
        simp only [authorityEnds, List.mem_cons, List.not_mem_nil, or_false] at hEnd
        rcases hEnd with rfl | rfl | rfl | rfl <;> cases hDigit

/-- Without a port behind a bracket, the host and the port are those of the syntax. -/
theorem exists_host {buf : List Char} (hBracket : portBehindBracket buf = false)
    (h : checkHost isHostaddr buf = true) : ∃ host port, buf = host ++ marked ':' port ∧
      (urlForms isHostaddr).host host ∧ ∀ s ∈ port, ∀ c ∈ s, c.isDigit = true := by
  rcases host_cases buf with ⟨content, behind, rfl, hContent⟩ | ⟨rest, rfl, hOpen⟩ |
    ⟨name, port, rfl, hColon, hFirst⟩
  · rw [checkHost_bracket hContent, Bool.and_eq_true, checkBracketed_iff] at h
    cases behind with
    | nil => exact ⟨_, none, (List.append_nil _).symm, Or.inl ⟨content, rfl, h.1⟩, by simp⟩
    | cons c behind =>
        have hDigits : c.isDigit = true ∧ behind.all Char.isDigit = true := by
          simpa using h.2
        rw [portBehindBracket_bracket hContent, hDigits.1, hDigits.2, Bool.or_true] at hBracket
        cases hBracket
  · rw [checkHost_open hOpen] at h
    cases h
  · rw [checkHost_name hColon hFirst, Bool.and_eq_true] at h
    refine ⟨name, port, rfl, Or.inr h.1, ?_⟩
    rintro s ⟨⟩
    exact List.all_eq_true.mp h.2

theorem exists_authority {text : List Char}
    (hUnderscore : ∀ s ∈ (cutUserinfo text).1, '_' ∉ s)
    (hBracket : portBehindBracket (cutUserinfo text).2 = false)
    (h : checkAuthority isHostaddr text = true) :
    ∃ a : Authority (urlForms isHostaddr), a.text = text := by
  obtain ⟨userinfo, buf, rfl, hFront, hRest⟩ := exists_userinfo text
  rw [cutUserinfo_text hFront hRest] at hUnderscore hBracket
  have hChecks : checkHost isHostaddr buf = true ∧ ∀ s ∈ userinfo, checkUserinfo s = true := by
    rw [checkAuthority, cutUserinfo_text hFront hRest] at h
    cases userinfo with
    | none => exact ⟨h, by simp⟩
    | some s => simpa using (Bool.and_eq_true_iff.mp h).symm
  obtain ⟨host, port, rfl, hHost, hPort⟩ := exists_host hBracket hChecks.1
  have hUserinfo : ∀ s ∈ userinfo, (urlForms isHostaddr).userinfo s := fun s hs =>
    (checkUserinfo_iff (hUnderscore s hs)).mp (hChecks.2 s hs)
  exact ⟨⟨userinfo, host, port, hUserinfo, hHost, hPort⟩, rfl⟩

end Authority

section Address

variable {isHostaddr : List Char → Bool}
  (hAddress : ∀ s, isHostaddr s = true → ∀ c ∈ s, c ∉ addressEnds)
include hAddress

/-- An address or a name has no delimiter and does not begin with a bracket. -/
theorem name_free {name : List Char}
    (h : (if name.head?.any Char.isDigit then isHostaddr name else isHostname name) = true) :
    (∀ c ∈ name, c ∉ addressEnds) ∧ name.head? ≠ some '[' := by
  split at h
  · rename_i hDigit
    refine ⟨hAddress name h, fun hHead => ?_⟩
    rw [hHead] at hDigit
    cases hDigit
  · have hNamed : ∀ c ∈ name, c ∉ '[' :: addressEnds := by
      have hAll : hostnameChars.all (fun c => decide (c ∉ '[' :: addressEnds)) = true := by decide
      intro c hc
      rcases mem_of_isHostname h c hc with rfl | hMem
      · decide
      · exact of_decide_eq_true (List.all_eq_true.mp hAll c hMem)
    refine ⟨fun c hc hEnd => hNamed c hc (List.mem_cons_of_mem _ hEnd), fun hHead => ?_⟩
    exact hNamed '[' (List.mem_of_mem_head? hHead) List.mem_cons_self

/-- Nothing that ends an authority or its user information stands in a host. -/
theorem host_free {host : List Char} (hHost : (urlForms isHostaddr).host host) :
    ∀ c ∈ host, c ∉ '@' :: authorityEnds := by
  have hSubset : '@' :: authorityEnds ⊆ addressEnds := by simp [authorityEnds, addressEnds]
  intro c hc hEnd
  rcases hHost with ⟨content, rfl, -, -, hContent⟩ | hName
  · simp only [List.mem_cons, List.mem_append, List.not_mem_nil, or_false] at hc
    rcases hc with rfl | hMem | rfl
    · exact absurd hEnd (by decide)
    · exact bracketed_free hContent c hMem (List.mem_cons_of_mem _ hEnd)
    · exact absurd hEnd (by decide)
  · exact (name_free hAddress hName).1 c hc (hSubset hEnd)

theorem checkHost_of_form {host : List Char} {port : Option (List Char)}
    (hBracket : portBehindBracket (host ++ marked ':' port) = false)
    (hHost : (urlForms isHostaddr).host host) (hPort : ∀ s ∈ port, ∀ c ∈ s, c.isDigit = true) :
    checkHost isHostaddr (host ++ marked ':' port) = true := by
  rcases hHost with ⟨content, rfl, hContent⟩ | hName
  · have hEnd : ']' ∉ content := fun hMem =>
      bracketed_free hContent.2.2 _ hMem List.mem_cons_self
    have hText : '[' :: (content ++ [']']) ++ marked ':' port =
        '[' :: (content ++ ']' :: marked ':' port) := by simp
    rw [hText] at hBracket ⊢
    cases port with
    | none =>
        rw [marked, checkHost_bracket hEnd, (checkBracketed_iff content).mpr hContent]
        rfl
    | some s =>
        rw [marked, portBehindBracket_bracket hEnd, List.all_eq_true.mpr (hPort s rfl)] at hBracket
        cases hBracket
  · obtain ⟨hFree, hFirst⟩ := name_free hAddress hName
    have hColon : ':' ∉ host := fun hMem => hFree _ hMem (by decide)
    rw [checkHost_name hColon hFirst, hName]
    cases port with
    | none => rfl
    | some s => exact List.all_eq_true.mpr (hPort s rfl)

theorem cutUserinfo_authority (a : Authority (urlForms isHostaddr)) :
    cutUserinfo a.text = (a.userinfo, a.host ++ marked ':' a.port) := by
  refine cutUserinfo_text (fun s hs hMem => ?_) fun _ hMem => ?_
  · exact userinfo_free (a.userinfo_form s hs).2 _ hMem List.mem_cons_self
  · rcases List.mem_append.mp hMem with hHost | hPort
    · exact host_free hAddress a.host_form _ hHost List.mem_cons_self
    · exact port_free a.port_digits _ hPort List.mem_cons_self

theorem authority_free (a : Authority (urlForms isHostaddr)) : ∀ c ∈ a.text, c ∉ authorityEnds := by
  intro c hc hEnd
  have hBoth : c ∈ '@' :: authorityEnds := List.mem_cons_of_mem _ hEnd
  simp only [Authority.text, List.mem_append] at hc
  rcases hc with hUserinfo | hHost | hPort
  · cases hSome : a.userinfo with
    | none =>
        rw [hSome] at hUserinfo
        cases hUserinfo
    | some s =>
        rw [hSome, userinfoText, List.mem_append, List.mem_singleton] at hUserinfo
        rcases hUserinfo with hMem | rfl
        · exact userinfo_free (a.userinfo_form s hSome).2 c hMem hBoth
        · exact absurd hEnd (by decide)
  · exact host_free hAddress a.host_form c hHost hBoth
  · exact port_free a.port_digits c hPort hBoth

theorem checkAuthority_text (a : Authority (urlForms isHostaddr))
    (hUnderscore : ∀ s ∈ (cutUserinfo a.text).1, '_' ∉ s)
    (hBracket : portBehindBracket (cutUserinfo a.text).2 = false) :
    checkAuthority isHostaddr a.text = true := by
  have hCut := cutUserinfo_authority hAddress a
  rw [hCut] at hUnderscore hBracket
  have hHost := checkHost_of_form hAddress hBracket a.host_form a.port_digits
  rw [checkAuthority, hCut]
  cases hSome : a.userinfo with
  | none => exact hHost
  | some s =>
      have hUserinfo := (checkUserinfo_iff (hUnderscore s hSome)).mpr (a.userinfo_form s hSome)
      simp only [hUserinfo, hHost, Bool.and_self]

end Address

section Url

variable {isHostaddr : List Char → Bool}

theorem IsCut.authorityOf_eq {url scheme authority tail : List Char}
    (hCut : IsCut url scheme authority tail) : authorityOf url = authority := by
  rw [authorityOf, hCut.text, strsep_append hCut.scheme_end]
  exact congrArg Prod.fst (strsepAny_authority hCut)

theorem Url.isCut (hAddress : ∀ s, isHostaddr s = true → ∀ c ∈ s, c ∉ addressEnds)
    (url : Url (urlForms isHostaddr)) :
    IsCut url.text url.scheme (authorityText url.authority) url.tailText where
  text := rfl
  scheme_end := by
    obtain ⟨c, rest, hScheme, hLetter, hRest⟩ := url.scheme_form
    rw [hScheme, List.mem_cons]
    rintro (rfl | hMem)
    · cases hLetter
    · exact absurd (hRest ':' hMem) (by decide)
  authority_end := by
    cases hSome : url.authority with
    | none => exact List.forall_mem_nil _
    | some a => exact authority_free hAddress a
  tail_start := by
    intro c hc
    rw [tailText, List.head?_append, Option.mem_def, Option.or_eq_some_iff] at hc
    rcases hc with hPath | ⟨-, hMarked⟩
    · rw [url.path_start c hPath]
      decide
    · cases hQuery : url.query with
      | some s =>
          rw [hQuery] at hMarked
          cases hMarked
          decide
      | none =>
          cases hFragment : url.fragment <;> rw [hQuery, hFragment] at hMarked <;> cases hMarked
          decide

/-- `is_url` takes exactly the URLs of the syntax, where the user information has no
underscore, no port stands behind a bracketed host and `#` does not stand twice. -/
theorem isUrl_iff_text (hAddress : ∀ s, isHostaddr s = true → ∀ c ∈ s, c ∉ addressEnds)
    {text : List Char} (hUnderscore : ∀ s ∈ (cutUserinfo (authorityOf text)).1, '_' ∉ s)
    (hBracket : portBehindBracket (cutUserinfo (authorityOf text)).2 = false)
    (hHash : text.count '#' ≤ 1) :
    isUrl isHostaddr text = true ↔ ∃ url : Url (urlForms isHostaddr), url.text = text := by
  constructor
  · intro h
    obtain ⟨scheme, authority, tail, hCut⟩ := exists_isCut_of_isUrl h
    obtain ⟨hScheme, hAuthority, hTail⟩ := hCut.isUrl_iff.mp h
    rw [hCut.authorityOf_eq] at hUnderscore hBracket
    have hTailHash : tail.count '#' ≤ 1 := by
      rw [hCut.text] at hHash
      simp only [List.count_append, List.count_cons] at hHash
      omega
    obtain ⟨path, query, fragment, rfl, hStart, hPath, hQuery, hFragment⟩ :=
      exists_tail hCut.tail_start hTailHash hTail
    have hSyntax : ∃ a : Option (Authority (urlForms isHostaddr)), authorityText a = authority := by
      rcases hAuthority with rfl | hChecked
      · exact ⟨none, rfl⟩
      · obtain ⟨a, ha⟩ := exists_authority hUnderscore hBracket hChecked
        exact ⟨some a, ha⟩
    obtain ⟨a, rfl⟩ := hSyntax
    exact ⟨⟨scheme, a, path, query, fragment, (checkScheme_iff scheme).mp hScheme, hStart, hPath,
      hQuery, hFragment⟩, hCut.text.symm⟩
  · rintro ⟨url, rfl⟩
    have hCut := url.isCut hAddress
    rw [hCut.authorityOf_eq] at hUnderscore hBracket
    refine hCut.isUrl_iff.mpr ⟨(checkScheme_iff _).mpr url.scheme_form, ?_,
      percentEncoded_tail url.path_chars url.query_chars url.fragment_chars⟩
    cases hSome : url.authority with
    | none => exact Or.inl rfl
    | some a =>
        rw [hSome] at hUnderscore hBracket
        exact Or.inr (checkAuthority_text hAddress a hUnderscore hBracket)

/-- Four numbers below 256, in decimal. -/
def ipv4Address (s : List Char) : Bool :=
  let parts := s.splitOn '.'
  parts.length == 4 && parts.all fun part =>
    !part.isEmpty && part.all Char.isDigit && decide (part.length ≤ 3 ∧ digitsValue part < 256)

theorem ipv4Address_free {s : List Char} (h : ipv4Address s = true) :
    ∀ c ∈ s, c ∉ addressEnds := by
  intro c hc
  have hParts : c = '.' ∨ ∃ part ∈ s.splitOn '.', c ∈ part := mem_splitOn hc
  rcases hParts with rfl | ⟨part, hPart, hMem⟩
  · decide
  · have hDigits := List.all_eq_true.mp (Bool.and_eq_true_iff.mp h).2 part hPart
    simp only [Bool.and_eq_true, List.all_eq_true] at hDigits
    have hDigit := hDigits.1.2 c hMem
    intro hEnd
    simp only [addressEnds, List.mem_cons, List.not_mem_nil, or_false] at hEnd
    rcases hEnd with rfl | rfl | rfl | rfl | rfl <;> cases hDigit

/-- The URL `ftp://u@10.0.0.1:80/a?b#c`. -/
theorem isUrl_iff_text_address :
    ∃ url : Url (urlForms ipv4Address), url.text =
      ['f', 't', 'p', ':', '/', '/', 'u', '@', '1', '0', '.', '0', '.', '0', '.', '1', ':', '8',
        '0', '/', 'a', '?', 'b', '#', 'c'] :=
  (isUrl_iff_text (fun _ => ipv4Address_free) (by decide) (by decide) (by decide)).mp (by decide)

/-- The host `1_` is a name, but it begins with a digit and is no address. -/
theorem isUrl_digitName :
    isUrl ipv4Address ['h', 't', 't', 'p', ':', '/', '/', '1', '_', '?', '/'] = false ∧
      ∃ url : Url (anyForms ipv4Address),
        url.text = ['h', 't', 't', 'p', ':', '/', '/', '1', '_', '?', '/'] := by
  have hScheme : IsScheme ['h', 't', 't', 'p'] := (checkScheme_iff _).mp (by decide)
  have hName : (anyForms ipv4Address).host ['1', '_'] := Or.inr (Or.inr (by decide))
  have hQuery : PercentEncoded isQueryChar ['/'] := .char (by decide) .nil
  let authority : Authority (anyForms ipv4Address) :=
    ⟨none, ['1', '_'], none, by simp, hName, by simp⟩
  exact ⟨by decide, ⟨_, some authority, [], some ['/'], none, hScheme, by simp, .nil,
    by simpa using hQuery, by simp⟩, rfl⟩

end Url

end MonitoringPlug.Check
