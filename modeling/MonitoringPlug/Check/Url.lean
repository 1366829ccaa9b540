import MonitoringPlug.Lib.Encoded
import MonitoringPlug.Lib.Numeral

/-! `is_hostname` and `is_url` of `mp_check.c`. A string is its characters in front of
the terminating NUL. `is_hostaddr` asks the resolver and is a parameter of `is_url`. -/
namespace MonitoringPlug.Check

open CText

def hostnameChars : List Char :=
  ['A', 'B', 'C', 'D', 'E', 'F', 'G', 'H', 'I', 'J', 'K', 'L', 'M', 'N', 'O', 'P', 'Q', 'R', 'S',
    'T', 'U', 'V', 'W', 'X', 'Y', 'Z',
    'a', 'b', 'c', 'd', 'e', 'f', 'g', 'h', 'i', 'j', 'k', 'l', 'm', 'n', 'o', 'p', 'q', 'r', 's',
    't', 'u', 'v', 'w', 'x', 'y', 'z',
    '0', '1', '2', '3', '4', '5', '6', '7', '8', '9', '-', '_']

def isHostname (address : List Char) : Bool :=
  (address.splitOn '.').all fun part =>
    part.length != 0 && strspn hostnameChars part == part.length

/-- What a loop of `is_url` passes over as it is: `isalnum` and the characters it names. -/
def isUrlChar (named : List Char) (c : Char) : Bool := c.isAlphanum || decide (c ∈ named)

def schemeChars : List Char := ['+', '-', '.']

def userinfoChars : List Char :=
  ['+', '-', '.', '~', '!', '$', '&', '\'', '(', ')', '*', ',', ';', '=', ':']

def pathChars : List Char :=
  ['+', '-', '_', '.', '~', '!', '$', '&', '\'', '(', ')', '*', ',', ';', '=', ':', '@', '/']

def queryChars : List Char :=
  ['+', '-', '_', '.', '~', '!', '$', '&', '\'', '(', ')', '*', ',', ';', '=', ':', '@', '/',
    '?', '#']

/-- Where the authority ends. -/
def authorityEnds : List Char := ['/', '?', '#']

def checkScheme : List Char → Bool
  | [] => false
  | c :: rest => c.isAlpha && rest.all (isUrlChar schemeChars)

/-- The loop looks at a first character before it tests for the end. -/
def checkUserinfo (userinfo : List Char) : Bool :=
  !userinfo.isEmpty && percentEncoded (isUrlChar userinfoChars) userinfo

/-- The text between brackets. A colon in front is skipped, then the loop looks at a
first character before it tests for the end. -/
def checkBracketed (content : List Char) : Bool :=
  let content :=
    match content with
    | ':' :: rest => rest
    | _ => content
  !content.isEmpty && content.all fun c => isXdigit c || c == ':'

def checkPort : Option (List Char) → Bool
  | none => true
  | some port => port.all Char.isDigit

/-- The host and the port. Behind a bracket the port is not introduced by a colon. -/
def checkHost (isHostaddr : List Char → Bool) (buf : List Char) : Bool :=
  match buf with
  | '[' :: rest =>
      match strsep ']' rest with
      | (_, none) => false
      | (content, some port) => checkBracketed content && checkPort (some port)
  | _ =>
      let (host, port) := strsep ':' buf
      (if buf.head?.any Char.isDigit then isHostaddr host else isHostname host) && checkPort port

/-- The user information, if there is an `@`, and what is behind it. -/
def cutUserinfo (authority : List Char) : Option (List Char) × List Char :=
  match strsep '@' authority with
  | (userinfo, some rest) => (some userinfo, rest)
  | (rest, none) => (none, rest)

def checkAuthority (isHostaddr : List Char → Bool) (authority : List Char) : Bool :=
  match cutUserinfo authority with
  | (none, host) => checkHost isHostaddr host
  | (some userinfo, host) => checkUserinfo userinfo && checkHost isHostaddr host

/-- Path, query and fragment. The delimiter in front of them has been taken by `strsep`. -/
def checkRemain : Option (List Char) → Bool
  | none => true
  | some remain =>
      if remain.isEmpty then true
      else
        let (path, remain) := strsepAny ['?', '#'] remain
        if !percentEncoded (isUrlChar pathChars) path then false
        else
          match remain with
          | none => true
          | some remain => percentEncoded (isUrlChar queryChars) remain

def isUrl (isHostaddr : List Char → Bool) (url : List Char) : Bool :=
  match strsep ':' url with
  | (_, none) => false
  | (scheme, some remain) =>
      if !checkScheme scheme then false
      else
        match remain with
        | '/' :: '/' :: remain =>
            let (authority, remain) := strsepAny authorityEnds remain
            if !authority.isEmpty && !checkAuthority isHostaddr authority then false
            else checkRemain remain
        | _ => false

section Hostname

theorem mem_of_isHostname {address : List Char} (h : isHostname address = true) :
    ∀ c ∈ address, c = '.' ∨ c ∈ hostnameChars := by
  intro c hc
  rw [isHostname, List.all_eq_true] at h
  refine (mem_splitOn hc).imp_right fun ⟨part, hPart, hMem⟩ => ?_
  have hLength : strspn hostnameChars part = part.length := by
    simpa using (Bool.and_eq_true_iff.mp (h part hPart)).2
  exact (strspn_eq_length_iff hostnameChars part).mp hLength c hMem

end Hostname

section Cut

variable {isHostaddr : List Char → Bool} {url scheme authority tail : List Char}

/-- A text with `://` behind its first colon, cut where `is_url` cuts it. -/
structure IsCut (url scheme authority tail : List Char) : Prop where
  text : url = scheme ++ ':' :: '/' :: '/' :: (authority ++ tail)
  scheme_end : ':' ∉ scheme
  authority_end : ∀ c ∈ authority, c ∉ authorityEnds
  tail_start : ∀ c ∈ tail.head?, c ∈ authorityEnds

theorem percentEncoded_urlChar_iff {named : List Char} (h : '%' ∉ named) (s : List Char) :
    percentEncoded (isUrlChar named) s = true ↔ PercentEncoded (isUrlChar named) s :=
  percentEncoded_iff (by simp [isUrlChar, h]) s

theorem queryChars_of_pathChars {c : Char} (h : isUrlChar pathChars c = true) :
    isUrlChar queryChars c = true := by
  have hSubset : pathChars ⊆ queryChars := by simp [pathChars, queryChars]
  simp only [isUrlChar, Bool.or_eq_true, decide_eq_true_eq] at h ⊢
  exact h.imp_right fun hNamed => hSubset hNamed

theorem pathChars_of_queryChars {c : Char} (hEnd : c ∉ ['?', '#'])
    (h : isUrlChar queryChars c = true) : isUrlChar pathChars c = true := by
  have hSplit : queryChars = pathChars ++ ['?', '#'] := rfl
  simp only [isUrlChar, hSplit, List.mem_append, Bool.or_eq_true, decide_eq_true_eq] at h ⊢
  exact h.imp_right fun hNamed => hNamed.resolve_right hEnd

theorem checkRemain_cut {path : List Char} {d : Char} (hPath : ∀ c ∈ path, c ∉ ['?', '#'])
    (hd : d ∈ ['?', '#']) (query : List Char) :
    checkRemain (some (path ++ d :: query)) =
      (percentEncoded (isUrlChar pathChars) path &&
        percentEncoded (isUrlChar queryChars) query) := by
  have hSome : (path ++ d :: query).isEmpty = false := by simp
  simp only [checkRemain, hSome, strsepAny_append hPath hd]
  cases percentEncoded (isUrlChar pathChars) path <;> rfl

theorem checkRemain_free {path : List Char} (hPath : ∀ c ∈ path, c ∉ ['?', '#']) :
    checkRemain (some path) = percentEncoded (isUrlChar pathChars) path := by
  simp only [checkRemain, strsepAny_none hPath]
  cases path with
  | nil => rfl
  | cons c path => cases percentEncoded (isUrlChar pathChars) (c :: path) <;> rfl

/-- The part in front of a delimiter is looked at with fewer characters, but those that
it is refused are delimiters. -/
theorem checkRemain_iff (rest : List Char) :
    checkRemain (some rest) = true ↔ PercentEncoded (isUrlChar queryChars) rest := by
  have hPercent : '%' ∉ queryChars ∧ '%' ∉ pathChars := by simp [queryChars, pathChars]
  rcases exists_cut ['?', '#'] rest with hFree | ⟨path, d, query, rfl, hPath, hd⟩
  · rw [checkRemain_free hFree, percentEncoded_urlChar_iff hPercent.2]
    exact ⟨fun h => h.of_mem fun c _ => queryChars_of_pathChars,
      fun h => h.of_mem fun c hc => pathChars_of_queryChars (hFree c hc)⟩
  · have hDelimiter : d ≠ '%' ∧ isXdigit d = false ∧ isUrlChar queryChars d = true := by
      simp only [List.mem_cons, List.not_mem_nil, or_false] at hd
      rcases hd with rfl | rfl <;> decide
    rw [checkRemain_cut hPath hd, Bool.and_eq_true, percentEncoded_urlChar_iff hPercent.1,
      percentEncoded_urlChar_iff hPercent.2]
    constructor
    · rintro ⟨hFront, hQuery⟩
      have hFront := hFront.of_mem fun c _ => queryChars_of_pathChars
      exact hFront.append (.char hDelimiter.2.2 hQuery)
    · intro h
      obtain ⟨hFront, -, hQuery⟩ := h.cut hDelimiter.1 hDelimiter.2.1
      exact ⟨hFront.of_mem fun c hc => pathChars_of_queryChars (hPath c hc), hQuery⟩

theorem strsepAny_authority (hCut : IsCut url scheme authority tail) :
    strsepAny authorityEnds (authority ++ tail) =
      (authority, if tail = [] then none else some tail.tail) := by
  cases tail with
  | nil => rw [List.append_nil, strsepAny_none hCut.authority_end, if_pos rfl]
  | cons d rest => exact strsepAny_append hCut.authority_end (hCut.tail_start d rfl) rest

theorem IsCut.isUrl_iff (hCut : IsCut url scheme authority tail) :
    isUrl isHostaddr url = true ↔ checkScheme scheme = true ∧
      (authority = [] ∨ checkAuthority isHostaddr authority = true) ∧
      PercentEncoded (isUrlChar queryChars) tail := by
  have hScheme := strsep_append hCut.scheme_end ('/' :: '/' :: (authority ++ tail))
  have hTail : checkRemain (if tail = [] then none else some tail.tail) = true ↔
      PercentEncoded (isUrlChar queryChars) tail := by
    cases hEnd : tail with
    | nil => exact ⟨fun _ => .nil, fun _ => rfl⟩
    | cons d rest =>
        have hStart : d ≠ '%' ∧ isXdigit d = false ∧ isUrlChar queryChars d = true := by
          have hd := hCut.tail_start d (by rw [hEnd]; rfl)
          simp only [authorityEnds, List.mem_cons, List.not_mem_nil, or_false] at hd
          rcases hd with rfl | rfl | rfl <;> decide
        refine (checkRemain_iff rest).trans ⟨fun h => .char hStart.2.2 h, fun h => ?_⟩
        have hWhole : PercentEncoded (isUrlChar queryChars) ([] ++ d :: rest) := h
        exact (hWhole.cut hStart.1 hStart.2.1).2.2
  simp only [isUrl, hCut.text, hScheme, strsepAny_authority hCut]
  cases checkScheme scheme with
  | false => simp
  | true =>
      cases hAuthority : checkAuthority isHostaddr authority <;> cases authority <;> simp [hTail]

theorem exists_isCut_of_isUrl (h : isUrl isHostaddr url = true) :
    ∃ scheme authority tail, IsCut url scheme authority tail := by
  rcases exists_cut [':'] url with hFree | ⟨scheme, d, remain, rfl, hScheme, hd⟩
  · have hNone := strsepAny_none hFree
    rw [strsepAny_singleton] at hNone
    simp [isUrl, hNone] at h
  · have hSome := strsepAny_append hScheme hd remain
    rw [strsepAny_singleton] at hSome
    obtain rfl := List.mem_singleton.mp hd
    simp only [isUrl, hSome] at h
    split at h
    · cases h
    · split at h
      · rename_i remain
        have hSchemeEnd : ':' ∉ scheme := fun hMem => hScheme _ hMem hd
        rcases exists_cut authorityEnds remain with hFree | ⟨authority, d, rest, rfl, hEnd, hd⟩
        · exact ⟨scheme, remain, [], by simp, hSchemeEnd, hFree, by simp⟩
        · exact ⟨scheme, authority, d :: rest, rfl, hSchemeEnd, hEnd, by simpa using hd⟩
      · cases h

end Cut

section Host

variable {isHostaddr : List Char → Bool}

/-- An optional part with the character that introduces it. -/
def marked (mark : Char) : Option (List Char) → List Char
  | none => []
  | some s => mark :: s

theorem exists_marked (mark : Char) (s : List Char) :
    ∃ front rest, s = front ++ marked mark rest ∧ mark ∉ front := by
  rcases exists_cut [mark] s with hFree | ⟨front, d, rest, rfl, hFront, hd⟩
  · exact ⟨s, none, by simp [marked], fun hMem => hFree _ hMem List.mem_cons_self⟩
  · obtain rfl := List.mem_singleton.mp hd
    exact ⟨front, some rest, rfl, fun hMem => hFront _ hMem hd⟩

/-- The optional user information with the character that ends it. -/
def userinfoText : Option (List Char) → List Char
  | none => []
  | some s => s ++ ['@']

theorem cutUserinfo_text {userinfo : Option (List Char)} {host : List Char}
    (hUserinfo : ∀ s ∈ userinfo, '@' ∉ s) (hHost : userinfo = none → '@' ∉ host) :
    cutUserinfo (userinfoText userinfo ++ host) = (userinfo, host) := by
  cases userinfo with
  | none => rw [cutUserinfo, userinfoText, List.nil_append, strsep_none (hHost rfl)]
  | some s =>
      rw [cutUserinfo, userinfoText, List.append_assoc, List.singleton_append,
        strsep_append (hUserinfo s rfl)]

theorem exists_userinfo (authority : List Char) : ∃ userinfo host,
    authority = userinfoText userinfo ++ host ∧ (∀ s ∈ userinfo, '@' ∉ s) ∧
      (userinfo = none → '@' ∉ host) := by
  rcases exists_cut ['@'] authority with hFree | ⟨userinfo, d, host, rfl, hFront, hd⟩
  · exact ⟨none, authority, rfl, by simp, fun _ hMem => hFree _ hMem List.mem_cons_self⟩
  · obtain rfl := List.mem_singleton.mp hd
    refine ⟨some userinfo, host, by simp [userinfoText], ?_, by simp⟩
    rintro _ ⟨⟩ hMem
    exact hFront _ hMem hd

theorem checkBracketed_iff (content : List Char) :
    checkBracketed content = true ↔ content ≠ [] ∧ content ≠ [':'] ∧
      ∀ c ∈ content, isXdigit c = true ∨ c = ':' := by
  unfold checkBracketed
  split
  · rename_i rest
    cases rest <;> simp
  · rename_i hColon
    cases content with
    | nil => simp
    | cons c rest =>
        have hFirst : c ≠ ':' := fun hEq => hColon rest (by rw [hEq])
        simp [hFirst]

theorem checkHost_bracket {content : List Char} (h : ']' ∉ content) (behind : List Char) :
    checkHost isHostaddr ('[' :: (content ++ ']' :: behind)) =
      (checkBracketed content && behind.all Char.isDigit) := by
  rw [checkHost, strsep_append h]
  rfl

theorem checkHost_open {rest : List Char} (h : ']' ∉ rest) :
    checkHost isHostaddr ('[' :: rest) = false := by
  rw [checkHost, strsep_none h]

/-- Without a bracket the first character decides which of the two checks the host gets. -/
theorem checkHost_name {name : List Char} {port : Option (List Char)} (hColon : ':' ∉ name)
    (hBracket : name.head? ≠ some '[') : checkHost isHostaddr (name ++ marked ':' port) =
      ((if name.head?.any Char.isDigit then isHostaddr name else isHostname name) &&
        checkPort port) := by
  have hCut : strsep ':' (name ++ marked ':' port) = (name, port) := by
    cases port with
    | none => rw [marked, List.append_nil, strsep_none hColon]
    | some s => exact strsep_append hColon s
  have hHead : (name ++ marked ':' port).head?.any Char.isDigit = name.head?.any Char.isDigit := by
    cases name with
    | nil => cases port <;> rfl
    | cons c name => rfl
  unfold checkHost
  split
  · rename_i rest hEq
    cases name with
    | nil => cases port <;> cases hEq
    | cons c name =>
        cases hEq
        exact absurd rfl hBracket
  · rw [hCut, hHead]

theorem host_cases (buf : List Char) :
    (∃ content behind, buf = '[' :: (content ++ ']' :: behind) ∧ ']' ∉ content) ∨
      (∃ rest, buf = '[' :: rest ∧ ']' ∉ rest) ∨
      ∃ name port, buf = name ++ marked ':' port ∧ ':' ∉ name ∧ name.head? ≠ some '[' := by
  by_cases hFirst : buf.head? = some '['
  · obtain ⟨rest, rfl⟩ := List.head?_eq_some_iff.mp hFirst
    rcases exists_cut [']'] rest with hFree | ⟨content, d, behind, rfl, hContent, hd⟩
    · exact Or.inr (Or.inl ⟨rest, rfl, fun hMem => hFree _ hMem List.mem_cons_self⟩)
    · obtain rfl := List.mem_singleton.mp hd
      exact Or.inl ⟨content, behind, rfl, fun hMem => hContent _ hMem hd⟩
  · refine Or.inr (Or.inr ?_)
    obtain ⟨name, port, rfl, hName⟩ := exists_marked ':' buf
    refine ⟨name, port, rfl, hName, fun hHead => hFirst ?_⟩
    rw [List.head?_append, hHead]
    rfl

end Host

end MonitoringPlug.Check
