import Mathlib.Algebra.BigOperators.Group.List.Basic
import Mathlib.Algebra.GroupWithZero.Nat
import Mathlib.Algebra.Order.BigOperators.Group.List
import Mathlib.Data.List.Chain
import Mathlib.Data.List.Dedup
import MonitoringPlug.Lib.Loop

/-! Scanning a list of words some of which splice other words in behind them.
The scan ends if and only if it never splices a target into words that come from
a splice of the same target. -/
namespace CSplice

open CLoop

/-- What a scanner does at the front of the remaining words: it stops, passes
over some words, or passes over them and splices in the words of a target. -/
inductive Look (Target : Type) where
  | stop
  | pass (count : Nat)
  | splice (count : Nat) (target : Target)

/-- What is done behind some more words. -/
def Look.behind {Target : Type} (skipped : Nat) : Look Target → Look Target
  | .stop => .stop
  | .pass count => .pass (skipped + count)
  | .splice count target => .splice (skipped + count) target

structure Scanner (Word Target : Type) where
  look : List Word → Look Target
  words : Target → List Word

variable {Word Target : Type} (m : Scanner Word Target)

def Scanner.step (remaining : List Word) : Pass (List Word) Unit :=
  match m.look remaining with
  | .stop => .leave ()
  | .pass count => .again (remaining.drop count)
  | .splice count target => .again (m.words target ++ remaining.drop count)

/-- A word with the targets it was spliced in for, the innermost one first. -/
structure Marked (Word Target : Type) where
  word : Word
  within : List Target

def plain (stack : List (Marked Word Target)) : List Word := stack.map Marked.word

def given (words : List Word) : List (Marked Word Target) := words.map fun word => ⟨word, []⟩

/-- The marks of the last of the first `count` words. -/
def lastMarks (count : Nat) (stack : List (Marked Word Target)) : List Target :=
  ((stack.take count).getLast?.map Marked.within).getD []

def mark (within : List Target) (words : List Word) : List (Marked Word Target) :=
  words.map fun word => ⟨word, within⟩

/-- The step with the marks kept: spliced words lie within what the last word
passed over lies in. -/
def Scanner.markedStep (stack : List (Marked Word Target)) :
    Pass (List (Marked Word Target)) Unit :=
  match m.look (plain stack) with
  | .stop => .leave ()
  | .pass count => .again (stack.drop count)
  | .splice count target =>
      .again (mark (target :: lastMarks count stack) (m.words target) ++ stack.drop count)

/-- The next step splices a target into words of its own. -/
def Scanner.SelfSplices (stack : List (Marked Word Target)) : Prop :=
  ∃ count target, m.look (plain stack) = .splice count target ∧ target ∈ lastMarks count stack

/-- What a scanner only looks at. `opens` tells the words that end what is in
front of them, `isKey` those that are only complete together with a word behind
them that does not open. -/
structure Scanner.Lawful (opens isKey : Word → Prop) (targets : List Target) : Prop where
  /-- It passes over something that is there. -/
  pass_count : ∀ remaining count, m.look remaining = .pass count →
    0 < count ∧ count ≤ remaining.length
  splice_count : ∀ remaining count target, m.look remaining = .splice count target →
    0 < count ∧ count ≤ remaining.length
  /-- Words behind those it passes over only matter in that they may open. -/
  pass_local : ∀ front back other count, m.look (front ++ back) = .pass count →
    count ≤ front.length → (∃ word ∈ other.head?, opens word) →
    m.look (front ++ other) = .pass count
  splice_local : ∀ front back other count target,
    m.look (front ++ back) = .splice count target → count ≤ front.length →
    (∃ word ∈ other.head?, opens word) → m.look (front ++ other) = .splice count target
  /-- A splice never ends with a key whose other word is still to come. -/
  splice_complete : ∀ front key word rest target,
    m.look (front ++ key :: word :: rest) = .splice (front.length + 1) target → isKey key →
    opens word
  /-- Spliced words open, or complete the key in front of them. -/
  words_chain : ∀ target,
    (m.words target).IsChain fun key word => ¬opens word → isKey key
  /-- Only these targets have words. -/
  words_targets : ∀ target, m.words target ≠ [] → target ∈ targets

section Plain

variable {m}

@[simp] theorem plain_append (front back : List (Marked Word Target)) :
    plain (front ++ back) = plain front ++ plain back := by
  simp [plain]

@[simp] theorem plain_cons (w : Marked Word Target) (stack : List (Marked Word Target)) :
    plain (w :: stack) = w.word :: plain stack := rfl

@[simp] theorem plain_mark (within : List Target) (words : List Word) :
    plain (mark within words) = words := by
  simp [plain, mark, Function.comp_def]

@[simp] theorem plain_drop (count : Nat) (stack : List (Marked Word Target)) :
    plain (stack.drop count) = (plain stack).drop count := by
  simp [plain]

@[simp] theorem plain_given (words : List Word) :
    plain (given words : List (Marked Word Target)) = words := by
  simp [plain, given, Function.comp_def]

@[simp] theorem plain_length (stack : List (Marked Word Target)) :
    (plain stack).length = stack.length := by
  simp [plain]

/-- The marks change nothing in what the scan does. -/
theorem runFor_marked (fuel : Nat) (stack : List (Marked Word Target)) :
    runFor m.markedStep fuel stack = runFor m.step fuel (plain stack) := by
  induction fuel generalizing stack with
  | zero => rfl
  | succ fuel ih =>
      cases hLook : m.look (plain stack) with
      | stop => simp [runFor, Scanner.markedStep, Scanner.step, hLook]
      | pass count => simp [runFor, Scanner.markedStep, Scanner.step, hLook, ih]
      | splice count target => simp [runFor, Scanner.markedStep, Scanner.step, hLook, ih]

theorem lastMarks_eq (front : List (Marked Word Target)) (last : Marked Word Target)
    (rest : List (Marked Word Target)) :
    lastMarks (front.length + 1) (front ++ last :: rest) = last.within := by
  rw [lastMarks, List.take_length_add_append]
  simp

theorem drop_front (front : List (Marked Word Target)) (last : Marked Word Target)
    (rest : List (Marked Word Target)) :
    (front ++ last :: rest).drop (front.length + 1) = rest := by
  rw [List.drop_length_add_append]
  rfl

/-- The words a step passes over, up to the last one. -/
theorem split_count {stack : List (Marked Word Target)} {count : Nat} (hPos : 0 < count)
    (hLe : count ≤ stack.length) :
    ∃ front last rest, stack = front ++ last :: rest ∧ count = front.length + 1 := by
  have hIndex : count - 1 < stack.length := by omega
  refine ⟨stack.take (count - 1), stack[count - 1], stack.drop (count - 1 + 1), ?_, ?_⟩
  · rw [← List.drop_eq_getElem_cons hIndex, List.take_append_drop]
  · rw [List.length_take_of_le (by omega)]
    omega

end Plain

section Lawful

variable {m} {opens isKey : Word → Prop} {targets : List Target}

/-- What a step can do, with the last word it passes over at hand. -/
theorem markedStep_cases (laws : m.Lawful opens isKey targets)
    {stack next : List (Marked Word Target)} (h : m.markedStep stack = .again next) :
    ∃ front last rest, stack = front ++ last :: rest ∧
      ((m.look (plain stack) = .pass (front.length + 1) ∧ next = rest) ∨
        ∃ target, m.look (plain stack) = .splice (front.length + 1) target ∧
          next = mark (target :: last.within) (m.words target) ++ rest) := by
  unfold Scanner.markedStep at h
  split at h
  · cases h
  · rename_i count hLook
    obtain ⟨hPos, hLe⟩ := laws.pass_count _ _ hLook
    rw [plain_length] at hLe
    obtain ⟨front, last, rest, rfl, rfl⟩ := split_count hPos hLe
    rw [drop_front] at h
    cases h
    exact ⟨front, last, _, rfl, Or.inl ⟨hLook, rfl⟩⟩
  · rename_i count target hLook
    obtain ⟨hPos, hLe⟩ := laws.splice_count _ _ _ hLook
    rw [plain_length] at hLe
    obtain ⟨front, last, rest, rfl, rfl⟩ := split_count hPos hLe
    rw [drop_front, lastMarks_eq] at h
    cases h
    exact ⟨front, last, rest, rfl, Or.inr ⟨target, hLook, rfl⟩⟩

theorem selfSplices_of (front : List (Marked Word Target)) (last : Marked Word Target)
    (rest : List (Marked Word Target)) {target : Target}
    (hLook : m.look (plain (front ++ last :: rest)) = .splice (front.length + 1) target)
    (hWithin : target ∈ last.within) : m.SelfSplices (front ++ last :: rest) :=
  ⟨_, target, hLook, by rwa [lastMarks_eq]⟩

theorem selfSplices_cases (laws : m.Lawful opens isKey targets)
    {stack : List (Marked Word Target)} (h : m.SelfSplices stack) :
    ∃ front last rest target, stack = front ++ last :: rest ∧
      m.look (plain stack) = .splice (front.length + 1) target ∧ target ∈ last.within := by
  obtain ⟨count, target, hLook, hWithin⟩ := h
  obtain ⟨hPos, hLe⟩ := laws.splice_count _ _ _ hLook
  rw [plain_length] at hLe
  obtain ⟨front, last, rest, rfl, rfl⟩ := split_count hPos hLe
  rw [lastMarks_eq] at hWithin
  exact ⟨front, last, rest, target, rfl, hLook, hWithin⟩

/-! Without self-splices the marks of a word are distinct targets, so there are
at most as many of them as targets with words. A word weighs the more the fewer
marks it has, and every step makes the stack lighter. -/

def weight (base depth : Nat) (stack : List (Marked Word Target)) : Nat :=
  (stack.map fun w => base ^ (depth - w.within.length)).sum

@[simp] theorem weight_append (base depth : Nat) (front back : List (Marked Word Target)) :
    weight base depth (front ++ back) = weight base depth front + weight base depth back := by
  simp [weight]

theorem weight_mark (base depth : Nat) (within : List Target) (words : List Word) :
    weight base depth (mark within words) = words.length * base ^ (depth - within.length) := by
  simp [weight, mark, Function.comp_def]

theorem exists_base (f : Target → Nat) (targets : List Target) :
    ∃ base, ∀ target ∈ targets, f target < base := by
  induction targets with
  | nil => exact ⟨0, by simp⟩
  | cons target rest ih =>
      obtain ⟨base, hBase⟩ := ih
      refine ⟨max base (f target + 1), ?_⟩
      intro other hOther
      rcases List.mem_cons.mp hOther with rfl | hRest
      · exact lt_max_of_lt_right (Nat.lt_succ_self _)
      · exact lt_max_of_lt_left (hBase other hRest)

/-- Every word lies within distinct targets that have words. -/
def Distinct (targets : List Target) (stack : List (Marked Word Target)) : Prop :=
  ∀ w ∈ stack, w.within.Nodup ∧ w.within ⊆ targets

theorem Distinct.step (laws : m.Lawful opens isKey targets)
    {stack next : List (Marked Word Target)} (h : Distinct targets stack)
    (hSelf : ¬m.SelfSplices stack) (hStep : m.markedStep stack = .again next) :
    Distinct targets next := by
  obtain ⟨front, last, rest, rfl, ⟨_, rfl⟩ | ⟨target, hLook, rfl⟩⟩ := markedStep_cases laws hStep
  · intro w hw
    exact h w (by simp [hw])
  · intro w hw
    rcases List.mem_append.mp hw with hNew | hOld
    · obtain ⟨word, hWord, rfl⟩ := List.mem_map.mp hNew
      have hTarget := laws.words_targets target (List.ne_nil_of_mem hWord)
      have hLast := h last (by simp)
      refine ⟨List.nodup_cons.mpr ⟨?_, hLast.1⟩, List.cons_subset.mpr ⟨hTarget, hLast.2⟩⟩
      exact fun hWithin => hSelf (selfSplices_of front last rest hLook hWithin)
    · exact h w (by simp [hOld])

theorem Distinct.length_le {stack : List (Marked Word Target)} (h : Distinct targets stack)
    {w : Marked Word Target} (hw : w ∈ stack) : w.within.length ≤ targets.length :=
  (List.subperm_of_subset (h w hw).1 (h w hw).2).length_le

/-- The spliced words together are lighter than the word they come for. -/
theorem weight_spliced {base depth : Nat} (target : Target) (within : List Target)
    {words : List Word} (hBase : words.length < base) (hDepth : within.length + 1 ≤ depth) :
    weight (base + 1) depth (mark (target :: within) words) <
      (base + 1) ^ (depth - within.length) := by
  have hPos : 0 < (base + 1) ^ (depth - (within.length + 1)) := Nat.pow_pos (by omega)
  have hSucc : depth - within.length = (depth - (within.length + 1)) + 1 := by omega
  rw [weight_mark, List.length_cons, hSucc, Nat.pow_succ, Nat.mul_comm]
  exact Nat.mul_lt_mul_of_pos_left (by omega) hPos

theorem Distinct.weight_lt (laws : m.Lawful opens isKey targets) {base : Nat}
    (hBase : ∀ target ∈ targets, (m.words target).length < base)
    {stack next : List (Marked Word Target)} (h : Distinct targets next)
    (hStep : m.markedStep stack = .again next) :
    weight (base + 1) targets.length next < weight (base + 1) targets.length stack := by
  obtain ⟨front, last, rest, rfl, hCases⟩ := markedStep_cases laws hStep
  have hPos : 0 < (base + 1) ^ (targets.length - last.within.length) := Nat.pow_pos (by omega)
  have hSum : weight (base + 1) targets.length (last :: rest) =
      (base + 1) ^ (targets.length - last.within.length) +
        weight (base + 1) targets.length rest := by simp [weight]
  rw [weight_append, hSum]
  rcases hCases with ⟨_, rfl⟩ | ⟨target, _, rfl⟩
  · omega
  · rw [weight_append]
    cases hWords : m.words target with
    | nil =>
        have hNone : weight (base + 1) targets.length
            (mark (target :: last.within) ([] : List Word)) = 0 := rfl
        omega
    | cons word more =>
        have hTarget := laws.words_targets target (by simp [hWords])
        have hDepth := h.length_le
          (show (⟨word, target :: last.within⟩ : Marked Word Target) ∈ _ by simp [mark, hWords])
        have hLighter := weight_spliced target last.within
          (hBase target hTarget) (by simpa using hDepth)
        rw [hWords] at hLighter
        omega

/-- A scan that never splices a target into its own words comes to an end. -/
theorem returns_of_not_selfSplices (laws : m.Lawful opens isKey targets) (words : List Word)
    (h : ∀ stack, Reaches m.markedStep (given words) stack → ¬m.SelfSplices stack) :
    Returns m.markedStep (given words) () := by
  obtain ⟨base, hBase⟩ := exists_base (fun target => (m.words target).length) targets
  have hStart : Distinct targets (given words : List (Marked Word Target)) := by
    intro w hw
    obtain ⟨word, _, rfl⟩ := List.mem_map.mp hw
    exact ⟨List.nodup_nil, List.nil_subset targets⟩
  have hPass : ∀ stack, Reaches m.markedStep (given words) stack ∧ Distinct targets stack →
      (∃ next, m.markedStep stack = .again next ∧
        (Reaches m.markedStep (given words) next ∧ Distinct targets next) ∧
        weight (base + 1) targets.length next < weight (base + 1) targets.length stack) ∨
      ∃ result, m.markedStep stack = .leave result ∧ True := by
    intro stack hInv
    cases hBody : m.markedStep stack with
    | leave result => exact Or.inr ⟨result, rfl, trivial⟩
    | again next =>
        have hNext := hInv.2.step laws (h stack hInv.1) hBody
        exact Or.inl ⟨next, rfl, ⟨hInv.1.pass hBody, hNext⟩, hNext.weight_lt laws hBase hBody⟩
  obtain ⟨_, hReturns, _⟩ := returns_of_measure _ (fun _ => True) _ hPass ⟨Reaches.start, hStart⟩
  exact hReturns

/-! A self-splice repeats: everything since the words of the target were spliced
in happened above what was behind them, and happens again above the longer rest. -/

/-- A step that only passes over words above `back`. -/
def StepAbove (m : Scanner Word Target) (back front next : List Word) : Prop :=
  ∃ count, count ≤ front.length ∧
    ((m.look (front ++ back) = .pass count ∧ next = front.drop count) ∨
      ∃ target, m.look (front ++ back) = .splice count target ∧
        next = m.words target ++ front.drop count)

def RunAbove (m : Scanner Word Target) (back : List Word) : List Word → List Word → Prop :=
  Relation.ReflTransGen (StepAbove m back)

/-- For every mark of a word there is the part of the stack that comes from this
splice, and the run from the spliced words to this part. -/
def Recalled (m : Scanner Word Target) (stack : List (Marked Word Target)) : Prop :=
  ∀ front w behind target, stack = front ++ w :: behind → target ∈ w.within →
    ∃ above below, behind = above ++ below ∧ (∀ x ∈ above, target ∈ x.within) ∧
      RunAbove m (plain below) (m.words target) (plain (front ++ w :: above))

theorem append_eq_append_cons {α : Type} {front back left right : List α} {a : α}
    (h : front ++ back = left ++ a :: right) :
    (∃ middle, back = middle ++ a :: right ∧ left = front ++ middle) ∨
      ∃ middle, front = left ++ a :: middle ∧ right = middle ++ back := by
  rcases List.append_eq_append_iff.mp h with ⟨middle, hLeft, hBack⟩ | ⟨middle, hFront, hRight⟩
  · exact Or.inl ⟨middle, hBack, hLeft⟩
  · cases middle with
    | nil => exact Or.inl ⟨[], hRight.symm, by simpa using hFront.symm⟩
    | cons b rest =>
        obtain ⟨rfl, rfl⟩ := List.cons.inj hRight
        exact Or.inr ⟨rest, hFront, rfl⟩

section StepAbove

variable {passed front back : List (Marked Word Target)} {last : Marked Word Target}

theorem stepAbove_pass
    (hLook : m.look (plain (passed ++ last :: (front ++ back))) = .pass (passed.length + 1)) :
    StepAbove m (plain back) (plain (passed ++ last :: front)) (plain front) := by
  refine ⟨passed.length + 1, by simp, Or.inl ⟨?_, ?_⟩⟩
  · simpa using hLook
  · rw [← plain_drop, drop_front]

theorem stepAbove_splice {target : Target}
    (hLook : m.look (plain (passed ++ last :: (front ++ back))) =
      .splice (passed.length + 1) target) :
    StepAbove m (plain back) (plain (passed ++ last :: front))
      (m.words target ++ plain front) := by
  refine ⟨passed.length + 1, by simp, Or.inr ⟨target, ?_, ?_⟩⟩
  · simpa using hLook
  · rw [← plain_drop, drop_front]

end StepAbove

theorem Recalled.step (laws : m.Lawful opens isKey targets)
    {stack next : List (Marked Word Target)} (h : Recalled m stack)
    (hStep : m.markedStep stack = .again next) : Recalled m next := by
  obtain ⟨passed, last, rest, rfl, ⟨hLook, rfl⟩ | ⟨target, hLook, rfl⟩⟩ :=
    markedStep_cases laws hStep
  · intro front w behind outer hSplit hWithin
    subst hSplit
    obtain ⟨above, below, rfl, hAll, hRun⟩ := h (passed ++ last :: front) w behind outer
      (by simp) hWithin
    rw [List.append_assoc, List.cons_append] at hRun
    refine ⟨above, below, rfl, hAll, Relation.ReflTransGen.tail hRun (stepAbove_pass ?_)⟩
    simpa using hLook
  · intro front w behind outer hSplit hWithin
    rcases append_eq_append_cons hSplit with ⟨middle, rfl, rfl⟩ | ⟨middle, hMark, rfl⟩
    · obtain ⟨above, below, rfl, hAll, hRun⟩ := h (passed ++ last :: middle) w behind outer
        (by simp) hWithin
      rw [List.append_assoc, List.cons_append] at hRun
      have hMore : StepAbove m (plain below) (plain (passed ++ last :: (middle ++ w :: above)))
          (m.words target ++ plain (middle ++ w :: above)) :=
        stepAbove_splice (by simpa using hLook)
      refine ⟨above, below, rfl, hAll, ?_⟩
      simpa [RunAbove] using Relation.ReflTransGen.tail hRun hMore
    · have hMarks : ∀ x ∈ front ++ w :: middle, x.within = target :: last.within := by
        rw [← hMark]
        intro x hx
        obtain ⟨word, _, rfl⟩ := List.mem_map.mp hx
        rfl
      have hWords : m.words target = plain (front ++ w :: middle) := by
        rw [← hMark, plain_mark]
      have hWithin' := hMarks w (by simp) ▸ hWithin
      rcases List.mem_cons.mp hWithin' with rfl | hOuter
      · refine ⟨middle, rest, rfl, fun x hx => ?_, ?_⟩
        · rw [hMarks x (by simp [hx])]
          exact List.mem_cons_self
        · rw [hWords]
          exact Relation.ReflTransGen.refl
      · obtain ⟨above, below, rfl, hAll, hRun⟩ := h passed last rest outer rfl hOuter
        refine ⟨middle ++ above, below, by simp, fun x hx => ?_, ?_⟩
        · rcases List.mem_append.mp hx with hx | hx
          · rw [hMarks x (by simp [hx])]
            exact List.mem_cons_of_mem _ hOuter
          · exact hAll x hx
        · have hMore := Relation.ReflTransGen.tail hRun (stepAbove_splice hLook)
          simpa [RunAbove, hWords] using hMore

/-- A spliced word that does not open completes the key in front of it. -/
def Chained (opens isKey : Word → Prop) (stack : List (Marked Word Target)) : Prop :=
  stack.IsChain fun key w => w.within ≠ [] → ¬opens w.word → isKey key.word

theorem chained_given (words : List Word) :
    Chained opens isKey (given words : List (Marked Word Target)) := by
  rw [Chained, given, List.isChain_map]
  induction words with
  | nil => exact List.isChain_nil
  | cons word rest ih =>
      exact List.isChain_cons.mpr ⟨fun _ _ hWithin => absurd rfl hWithin, ih⟩

/-- Behind a splice the next spliced word opens. -/
theorem Chained.opens_behind (laws : m.Lawful opens isKey targets)
    {passed rest : List (Marked Word Target)} {last w : Marked Word Target} {target : Target}
    (h : Chained opens isKey (passed ++ last :: w :: rest))
    (hLook : m.look (plain (passed ++ last :: w :: rest)) = .splice (passed.length + 1) target)
    (hWithin : w.within ≠ []) : opens w.word := by
  by_contra hClosed
  have hKey : isKey last.word :=
    (List.isChain_cons_cons.mp (List.isChain_append.mp h).2.1).1 hWithin hClosed
  refine hClosed (laws.splice_complete (plain passed) last.word w.word (plain rest) target ?_ hKey)
  simpa using hLook

theorem Chained.step (laws : m.Lawful opens isKey targets)
    {stack next : List (Marked Word Target)} (h : Chained opens isKey stack)
    (hStep : m.markedStep stack = .again next) : Chained opens isKey next := by
  obtain ⟨passed, last, rest, rfl, hCases⟩ := markedStep_cases laws hStep
  have hRest : Chained opens isKey rest :=
    (List.isChain_cons.mp (List.isChain_append.mp h).2.1).2
  rcases hCases with ⟨_, rfl⟩ | ⟨target, hLook, rfl⟩
  · exact hRest
  · refine List.isChain_append.mpr ⟨?_, hRest, ?_⟩
    · rw [mark, List.isChain_map]
      exact (laws.words_chain target).imp fun _ _ hKey _ => hKey
    · intro _ _ w hw hWithin hClosed
      obtain ⟨more, rfl⟩ := List.head?_eq_some_iff.mp hw
      exact absurd (h.opens_behind laws hLook hWithin) hClosed

/-- A list whose first word opens. -/
def Opening (opens : Word → Prop) (words : List Word) : Prop := ∃ word ∈ words.head?, opens word

theorem StepAbove.other (laws : m.Lawful opens isKey targets) {back other front next : List Word}
    (h : StepAbove m back front next) (hOther : Opening opens other) :
    StepAbove m other front next := by
  obtain ⟨count, hCount, ⟨hLook, rfl⟩ | ⟨target, hLook, rfl⟩⟩ := h
  · exact ⟨count, hCount, Or.inl ⟨laws.pass_local _ _ _ _ hLook hCount hOther, rfl⟩⟩
  · exact ⟨count, hCount, Or.inr ⟨target, laws.splice_local _ _ _ _ _ hLook hCount hOther, rfl⟩⟩

theorem StepAbove.step {back front next : List Word} (h : StepAbove m back front next) :
    m.step (front ++ back) = .again (next ++ back) := by
  obtain ⟨count, hCount, ⟨hLook, rfl⟩ | ⟨target, hLook, rfl⟩⟩ := h
  · simp [Scanner.step, hLook, List.drop_append_of_le_length hCount]
  · simp [Scanner.step, hLook, List.drop_append_of_le_length hCount]

/-- A run that comes back to the words it started from, on top of more words
that open, never ends; nor does one that comes to them. -/
theorem diverges_of_repeat (laws : m.Lawful opens isKey targets) {front words more back : List Word}
    (hMore : more = [] ∨ Opening opens more)
    (h : Relation.TransGen (StepAbove m back) words (words ++ more))
    (hFront : Relation.TransGen (StepAbove m back) front (words ++ more)) :
    Diverges m.step (front ++ back) := by
  -- Below the run is the old rest, or a rest that opens.
  let Below (other : List Word) : Prop := other = back ∨ Opening opens other
  have hOther : ∀ other, Below other →
      Relation.TransGen (StepAbove m other) words (words ++ more) := by
    rintro other (rfl | hOpens)
    · exact h
    · have hLe : StepAbove m back ≤ StepAbove m other := fun _ _ hStep => hStep.other laws hOpens
      exact Relation.TransGen.mono hLe _ _ h
  have hGrows : ∀ other, Below other → Below (more ++ other) := by
    intro other hBelow
    rcases hMore with rfl | ⟨word, hWord, hOpens⟩
    · exact hBelow
    · refine Or.inr ⟨word, ?_, hOpens⟩
      obtain ⟨rest, rfl⟩ := List.head?_eq_some_iff.mp hWord
      rfl
  apply diverges_of_invariant (fun state => ∃ other front, Below other ∧
    state = front ++ other ∧ Relation.TransGen (StepAbove m other) front (words ++ more))
  · rintro state ⟨other, front, hBelow, rfl, hRun⟩
    obtain ⟨next, hStep, hRest⟩ := Relation.TransGen.head'_iff.mp hRun
    refine ⟨next ++ other, hStep.step, ?_⟩
    rcases Relation.reflTransGen_iff_eq_or_transGen.mp hRest with hEq | hTrans
    · refine ⟨more ++ other, words, hGrows other hBelow, ?_, hOther _ (hGrows other hBelow)⟩
      rw [← hEq, List.append_assoc]
    · exact ⟨other, next, hBelow, rfl, hTrans⟩
  · exact ⟨back, front, Or.inl rfl, rfl, hFront⟩

/-- After a self-splice the scan never ends. -/
theorem diverges_of_selfSplices (laws : m.Lawful opens isKey targets)
    {stack : List (Marked Word Target)} (hRecalled : Recalled m stack)
    (hChained : Chained opens isKey stack) (h : m.SelfSplices stack) :
    Diverges m.step (plain stack) := by
  obtain ⟨passed, last, rest, target, rfl, hLook, hWithin⟩ := selfSplices_cases laws h
  obtain ⟨above, below, rfl, hAll, hRun⟩ := hRecalled passed last rest target rfl hWithin
  have hStep := stepAbove_splice hLook
  have hMore : plain above = [] ∨ Opening opens (plain above) := by
    cases above with
    | nil => exact Or.inl rfl
    | cons w above =>
        have hMarked : w.within ≠ [] := List.ne_nil_of_mem (hAll w List.mem_cons_self)
        exact Or.inr ⟨w.word, rfl, hChained.opens_behind laws hLook hMarked⟩
  have hDiverges := diverges_of_repeat laws hMore (Relation.TransGen.tail' hRun hStep)
    (Relation.TransGen.single hStep)
  simpa using hDiverges

theorem returns_marked_iff (stack : List (Marked Word Target)) :
    Returns m.markedStep stack () ↔ Returns m.step (plain stack) () := by
  simp only [Returns, runFor_marked]

/-- The scan of some words ends if and only if nowhere on its way a target is
spliced into words of its own. -/
theorem returns_iff (laws : m.Lawful opens isKey targets) (words : List Word) :
    Returns m.step words () ↔
      ∀ stack, Reaches m.markedStep (given words) stack → ¬m.SelfSplices stack := by
  have hMarked := returns_marked_iff (m := m) (given words)
  rw [plain_given] at hMarked
  rw [← hMarked]
  constructor
  · intro hReturns stack hReaches hSelf
    have hRecalled : Recalled m stack := by
      apply hReaches.invariant (Recalled m)
      · intro front w behind target hSplit hWithin
        have hGiven : w ∈ (given words : List (Marked Word Target)) := by simp [hSplit]
        obtain ⟨word, _, rfl⟩ := List.mem_map.mp hGiven
        cases hWithin
      · exact fun _ _ _ hInv hStep => hInv.step laws hStep
    have hChained : Chained opens isKey stack :=
      hReaches.invariant (Chained opens isKey) (chained_given words)
        fun _ _ _ hInv hStep => hInv.step laws hStep
    have hEnds := (returns_marked_iff stack).mp (hReaches.returns hReturns)
    exact (diverges_of_selfSplices laws hRecalled hChained hSelf).not_returns hEnds
  · exact returns_of_not_selfSplices laws words

end Lawful

end CSplice
