import Mathlib.Data.List.Basic

/-! Scanners in the manner of flex. In a start condition the rule with the
longest match is taken, and the first of those that match equally much. -/
namespace Scanner

universe u v

/-- The bytes of a text in ASCII. -/
def ascii (s : String) : List UInt8 := s.toList.map fun c => c.toNat.toUInt8

/-- Bytes as characters, in the C locale. -/
def characters (bytes : List UInt8) : List Char := bytes.map fun c => Char.ofNat c.toNat

/-- Regular expressions over bytes. -/
inductive Pattern where
  | empty
  | byte (p : UInt8 → Bool)
  | many (p : UInt8 → Bool)
  | optional (pattern : Pattern)
  | seq (first second : Pattern)

namespace Pattern

def literal (bytes : List UInt8) : Pattern :=
  bytes.foldr (fun b rest => .seq (.byte (· == b)) rest) .empty

def many1 (p : UInt8 → Bool) : Pattern := .seq (.byte p) (.many p)

/-- The lengths of the prefixes a pattern matches. -/
def lengths : Pattern → List UInt8 → List Nat
  | .empty, _ => [0]
  | .byte p, s => if s.head?.any p then [1] else []
  | .many p, s => List.range ((s.takeWhile p).length + 1)
  | .optional pattern, s => 0 :: pattern.lengths s
  | .seq first second, s =>
      (first.lengths s).flatMap fun n => (second.lengths (s.drop n)).map (n + ·)

/-- The length of the longest match, zero where there is none. -/
def longest (pattern : Pattern) (s : List UInt8) : Nat := (pattern.lengths s).foldl max 0

end Pattern

/-- What the code of a rule does: `BEGIN`, nothing, or return a token. A token
that is not positive is the end of the input for the caller. -/
inductive Act (Start : Type u) (Token : Type v) where
  | begin (start : Start)
  | skip
  | token (t : Token)
  | finish

structure Rule (Start : Type u) (Token : Type v) where
  start : Start
  pattern : Pattern
  act : List UInt8 → Act Start Token

variable {Start : Type u} {Token : Type v} [DecidableEq Start]

/-- The rule to take and how much it matches. -/
def select (start : Start) (s : List UInt8) :
    List (Rule Start Token) → Option (Rule Start Token × Nat)
  | [] => none
  | rule :: rules =>
      let n := if rule.start = start then rule.pattern.longest s else 0
      match select start s rules with
      | none => if 0 < n then some (rule, n) else none
      | some (other, m) => if m ≤ n then some (rule, n) else some (other, m)

/-- The tokens of a text and the start condition it ends in, with `skip` bytes
of a match still to pass over. What no rule matches goes to the standard output. -/
def scan (rules : List (Rule Start Token)) :
    Start → Nat → List UInt8 → List Token × Start
  | start, _, [] => ([], start)
  | start, skip + 1, _ :: rest => scan rules start skip rest
  | start, 0, c :: rest =>
      match select start (c :: rest) rules with
      | none => scan rules start 0 rest
      | some (rule, n) =>
          match rule.act ((c :: rest).take n) with
          | .begin next => scan rules next (n - 1) rest
          | .skip => scan rules start (n - 1) rest
          | .token t =>
              let (tokens, last) := scan rules start (n - 1) rest
              (t :: tokens, last)
          | .finish => ([], start)

namespace Pattern

/-- Whether the empty text is a match. -/
def nullable : Pattern → Bool
  | .empty | .many _ | .optional _ => true
  | .byte _ => false
  | .seq first second => first.nullable && second.nullable

/-- Whether a match can start with this byte. -/
def starts (c : UInt8) : Pattern → Bool
  | .empty => false
  | .byte p | .many p => p c
  | .optional pattern => pattern.starts c
  | .seq first second => first.starts c || (first.nullable && second.starts c)

variable {pattern : Pattern} {s : List UInt8} {c : UInt8} {n : Nat}

theorem mem_lengths_seq {first second : Pattern} : n ∈ (Pattern.seq first second).lengths s ↔
    ∃ i ∈ first.lengths s, ∃ j ∈ second.lengths (s.drop i), i + j = n := by
  simp [lengths]

theorem mem_lengths_literal {bytes : List UInt8} :
    n ∈ (literal bytes).lengths s ↔ bytes <+: s ∧ n = bytes.length := by
  induction bytes generalizing s n with
  | nil => simp [literal, lengths]
  | cons b bytes ih =>
      have hLiteral : literal (b :: bytes) = .seq (.byte (· == b)) (literal bytes) := rfl
      rw [hLiteral, mem_lengths_seq]
      constructor
      · rintro ⟨i, hi, j, hj, rfl⟩
        rw [lengths] at hi
        split at hi
        · rename_i hHead
          obtain rfl := List.mem_singleton.mp hi
          obtain ⟨rest, rfl⟩ : ∃ rest, s = b :: rest := by
            cases s with
            | nil => cases hHead
            | cons c rest => exact ⟨rest, by rw [eq_of_beq (show (c == b) = true from hHead)]⟩
          obtain ⟨hPrefix, rfl⟩ := ih.mp hj
          exact ⟨List.prefix_cons_inj b |>.mpr hPrefix, Nat.add_comm _ _⟩
        · cases hi
      · rintro ⟨⟨rest, rfl⟩, rfl⟩
        refine ⟨1, by simp [lengths], bytes.length, ih.mpr ⟨⟨rest, rfl⟩, rfl⟩, ?_⟩
        rw [List.length_cons, Nat.add_comm]

theorem nullable_of_mem (h : 0 ∈ pattern.lengths s) : pattern.nullable := by
  induction pattern generalizing s with
  | empty => rfl
  | byte p =>
      rw [lengths] at h
      split at h
      · simp at h
      · simp at h
  | many p => rfl
  | optional pattern => rfl
  | seq first second ihFirst ihSecond =>
      obtain ⟨i, hi, j, hj, hSum⟩ := mem_lengths_seq.mp h
      obtain ⟨rfl, rfl⟩ : i = 0 ∧ j = 0 := by omega
      rw [nullable, ihFirst hi, ihSecond hj]
      rfl

theorem starts_of_mem (h : n ∈ pattern.lengths (c :: s)) (hPos : 0 < n) : pattern.starts c := by
  induction pattern generalizing n with
  | empty =>
      rw [lengths, List.mem_singleton] at h
      omega
  | byte p =>
      rw [lengths] at h
      split at h
      · simpa using ‹_›
      · cases h
  | many p =>
      rw [lengths, List.mem_range] at h
      by_contra hNot
      rw [starts, Bool.not_eq_true] at hNot
      rw [List.takeWhile_cons_of_neg (by simp [hNot]), List.length_nil] at h
      omega
  | optional pattern ih =>
      rcases List.mem_cons.mp h with rfl | hMem
      · omega
      · exact ih hMem hPos
  | seq first second ihFirst ihSecond =>
      obtain ⟨i, hi, j, hj, rfl⟩ := mem_lengths_seq.mp h
      rw [starts, Bool.or_eq_true, Bool.and_eq_true]
      by_cases hFirst : 0 < i
      · exact .inl (ihFirst hi hFirst)
      · obtain rfl : i = 0 := by omega
        exact .inr ⟨nullable_of_mem hi, ihSecond hj (by omega)⟩

theorem foldl_max_le_iff {lengths : List Nat} {start bound : Nat} :
    lengths.foldl max start ≤ bound ↔ start ≤ bound ∧ ∀ n ∈ lengths, n ≤ bound := by
  induction lengths generalizing start with
  | nil => simp
  | cons n lengths ih =>
      rw [List.foldl_cons, ih, List.forall_mem_cons, Nat.max_le, and_assoc]

theorem longest_le_iff {bound : Nat} :
    pattern.longest s ≤ bound ↔ ∀ n ∈ pattern.lengths s, n ≤ bound := by
  rw [longest, foldl_max_le_iff]
  exact and_iff_right (Nat.zero_le _)

theorem longest_eq (hMem : n ∈ pattern.lengths s) (hMax : ∀ m ∈ pattern.lengths s, m ≤ n) :
    pattern.longest s = n :=
  Nat.le_antisymm (longest_le_iff.mpr hMax) (longest_le_iff.mp (Nat.le_refl _) n hMem)

theorem longest_eq_zero (h : pattern.starts c = false) : pattern.longest (c :: s) = 0 := by
  refine Nat.le_zero.mp (longest_le_iff.mpr fun n hn => ?_)
  by_contra hPos
  have hStarts := starts_of_mem hn (by omega)
  rw [h] at hStarts
  cases hStarts

/-- A run of bytes of one kind is matched to its end. -/
theorem longest_many1 {p : UInt8 → Bool} (h : p c = true) :
    (many1 p).longest (c :: s) = (s.takeWhile p).length + 1 := by
  apply longest_eq
  · refine mem_lengths_seq.mpr ⟨1, by simp [lengths, h], (s.takeWhile p).length, ?_, by omega⟩
    simp [lengths]
  · intro m hm
    obtain ⟨i, hi, j, hj, rfl⟩ := mem_lengths_seq.mp hm
    obtain rfl : i = 1 := by simpa [lengths, h] using hi
    have hRun : j < (s.takeWhile p).length + 1 := by simpa [lengths] using hj
    omega

end Pattern

section Selection

variable {rules front back : List (Rule Start Token)} {rule other : Rule Start Token}
  {start : Start} {s rest more : List UInt8} {c : UInt8} {n : Nat}

/-- What a rule can take here. -/
def reach (start : Start) (s : List UInt8) (rule : Rule Start Token) : Nat :=
  if rule.start = start then rule.pattern.longest s else 0

theorem select_cons (start : Start) (s : List UInt8) (rule : Rule Start Token)
    (rules : List (Rule Start Token)) : select start s (rule :: rules) =
      match select start s rules with
      | none => if 0 < reach start s rule then some (rule, reach start s rule) else none
      | some (other, m) =>
          if m ≤ reach start s rule then some (rule, reach start s rule) else some (other, m) := rfl

/-- What is selected takes something. -/
theorem select_pos (h : select start s rules = some (rule, n)) : 0 < n := by
  induction rules generalizing rule n with
  | nil => cases h
  | cons first rules ih =>
      rw [select_cons] at h
      cases hRest : select start s rules with
      | none =>
          rw [hRest] at h
          obtain ⟨hPos, hEq⟩ := Option.ite_none_right_eq_some.mp h
          cases hEq
          exact hPos
      | some best =>
          obtain ⟨other, m⟩ := best
          have hLater := ih hRest
          simp only [hRest] at h
          split at h
          · cases h
            omega
          · cases h
            exact hLater

theorem select_cons_of_reach_eq_zero (h : reach start s rule = 0) :
    select start s (rule :: rules) = select start s rules := by
  rw [select_cons, h]
  cases hRest : select start s rules with
  | none => rfl
  | some best =>
      obtain ⟨other, m⟩ := best
      exact if_neg (Nat.not_le.mpr (select_pos hRest))

/-- Only the rules of the start condition that can start with the next byte compete. -/
theorem select_filter : select start (c :: s) rules = select start (c :: s)
    (rules.filter fun rule => rule.start = start && rule.pattern.starts c) := by
  induction rules with
  | nil => rfl
  | cons rule rules ih =>
      by_cases hKeep : rule.start = start ∧ rule.pattern.starts c = true
      · rw [List.filter_cons_of_pos (by simpa using hKeep), select_cons, select_cons, ih]
      · have hNone : reach start (c :: s) rule = 0 := by
          rw [reach]
          split
          · rename_i hStart
            exact Pattern.longest_eq_zero (by simpa using fun h => hKeep ⟨hStart, h⟩)
          · rfl
        rw [List.filter_cons_of_neg (by simpa using hKeep), select_cons_of_reach_eq_zero hNone, ih]

theorem select_le (hBack : ∀ other ∈ rules, reach start s other ≤ n)
    {m : Nat} (h : select start s rules = some (other, m)) : m ≤ n := by
  induction rules generalizing other m with
  | nil => cases h
  | cons first rules ih =>
      have hFirst := hBack first List.mem_cons_self
      rw [select_cons] at h
      cases hRest : select start s rules with
      | none =>
          rw [hRest] at h
          obtain ⟨_, hEq⟩ := Option.ite_none_right_eq_some.mp h
          cases hEq
          exact hFirst
      | some best =>
          obtain ⟨later, k⟩ := best
          simp only [hRest] at h
          split at h
          · cases h
            exact hFirst
          · cases h
            exact ih (fun other hOther => hBack other (List.mem_cons_of_mem _ hOther)) hRest

/-- A rule is taken that reaches further than those in front and as far as those behind. -/
theorem select_eq (hReach : reach start s rule = n) (hPos : 0 < n)
    (hFront : ∀ other ∈ front, reach start s other < n)
    (hBack : ∀ other ∈ back, reach start s other ≤ n) :
    select start s (front ++ rule :: back) = some (rule, n) := by
  induction front with
  | nil =>
      rw [List.nil_append, select_cons, hReach]
      cases hRest : select start s back with
      | none => exact if_pos hPos
      | some best =>
          obtain ⟨other, m⟩ := best
          exact if_pos (select_le hBack hRest)
  | cons first front ih =>
      have hFirst := hFront first List.mem_cons_self
      rw [List.cons_append, select_cons,
        ih fun other hOther => hFront other (List.mem_cons_of_mem _ hOther)]
      exact if_neg (Nat.not_le.mpr hFirst)

/-- What comes behind a match. -/
def proceed (rules : List (Rule Start Token)) (start : Start) (rest : List UInt8) :
    Act Start Token → List Token × Start
  | .begin next => scan rules next 0 rest
  | .skip => scan rules start 0 rest
  | .token t => (t :: (scan rules start 0 rest).1, (scan rules start 0 rest).2)
  | .finish => ([], start)

theorem scan_skip : scan rules start more.length (more ++ rest) = scan rules start 0 rest := by
  induction more with
  | nil => rfl
  | cons c more ih => exact ih

theorem scan_match (h : select start (c :: (more ++ rest)) rules = some (rule, more.length + 1)) :
    scan rules start 0 (c :: (more ++ rest)) = proceed rules start rest (rule.act (c :: more)) := by
  have hTake : (c :: (more ++ rest)).take (more.length + 1) = c :: more := by simp
  simp only [scan, h, hTake, Nat.add_sub_cancel]
  cases rule.act (c :: more) with
  | begin next => exact scan_skip
  | skip => exact scan_skip
  | token t => rw [scan_skip, proceed]
  | finish => rfl

/-- The best match among the rules that compete. -/
theorem scan_best (more : List UInt8) (front : List (Rule Start Token))
    (rule : Rule Start Token) (back : List (Rule Start Token)) (hSplit : s = more ++ rest)
    (hRules : (rules.filter fun rule => rule.start = start && rule.pattern.starts c) =
      front ++ rule :: back)
    (hReach : rule.pattern.longest (c :: s) = more.length + 1)
    (hFront : ∀ other ∈ front, other.pattern.longest (c :: s) < more.length + 1)
    (hBack : ∀ other ∈ back, other.pattern.longest (c :: s) ≤ more.length + 1) :
    scan rules start 0 (c :: s) = proceed rules start rest (rule.act (c :: more)) := by
  have hStart : ∀ other ∈ front ++ rule :: back,
      reach start (c :: s) other = other.pattern.longest (c :: s) := by
    intro other hOther
    rw [← hRules, List.mem_filter, Bool.and_eq_true, decide_eq_true_eq] at hOther
    exact if_pos hOther.2.1
  have hSelect : select start (c :: s) rules = some (rule, more.length + 1) := by
    rw [select_filter, hRules]
    refine select_eq ?_ (Nat.succ_pos _) (fun other hOther => ?_) fun other hOther => ?_
    · rw [hStart rule (List.mem_append_right _ List.mem_cons_self), hReach]
    · rw [hStart other (List.mem_append_left _ hOther)]
      exact hFront other hOther
    · rw [hStart other (List.mem_append_right _ (List.mem_cons_of_mem _ hOther))]
      exact hBack other hOther
  subst hSplit
  exact scan_match hSelect

/-- A rule that passes over runs of bytes of one kind passes over each of them. -/
theorem scan_run {p : UInt8 → Bool} (back : List (Rule Start Token))
    (hRules : ∀ c, p c = true →
      (rules.filter fun rule => rule.start = start && rule.pattern.starts c) =
        ⟨start, .many1 p, fun _ => .skip⟩ :: back)
    (hBack : ∀ other ∈ back, ∀ c s, p c = true → other.pattern.longest (c :: s) ≤ 1)
    (h : p c = true) : scan rules start 0 (c :: s) = scan rules start 0 s := by
  have hRun : ∀ c s, p c = true →
      scan rules start 0 (c :: s) = scan rules start 0 (s.dropWhile p) := by
    intro c s h
    refine scan_best (s.takeWhile p) [] ⟨start, .many1 p, fun _ => .skip⟩ back
      List.takeWhile_append_dropWhile.symm (hRules c h) (Pattern.longest_many1 h) (by simp) ?_
    intro other hOther
    exact Nat.le_trans (hBack other hOther c s h) (Nat.le_add_left 1 _)
  rw [hRun c s h]
  cases s with
  | nil => rfl
  | cons d s =>
      by_cases hNext : p d = true
      · rw [hRun d s hNext, List.dropWhile_cons_of_pos hNext]
      · rw [List.dropWhile_cons_of_neg hNext]

end Selection

end Scanner
