import Mathlib.Data.List.Basic

/-! Parsers that are handed their input block by block, each call with a flag that says
whether it is the last one. -/
namespace Incremental

universe u v w

/-- A call hands over a block and the flag. It leaves the parser, the events it found, and
whether it is content. -/
structure Parser (Symbol : Type u) (Event : Type v) where
  State : Type w
  create : State
  parse : State → List Symbol → Bool → State × List Event × Bool

variable {Symbol : Type u} {Event : Type v} {parser : Parser Symbol Event}

/-- The parser behind calls none of which is flagged. -/
def Parser.fed (parser : Parser Symbol Event) (blocks : List (List Symbol)) : parser.State :=
  blocks.foldl (fun state block => (parser.parse state block false).1) parser.create

/-- The events up to the first call that fails, with it. -/
def Parser.handed (parser : Parser Symbol Event) (state : parser.State) :
    List (List Symbol) → List Event
  | [] => []
  | block :: blocks =>
      let call := parser.parse state block false
      call.2.1 ++ if call.2.2 then parser.handed call.1 blocks else []

/-- No call fails. -/
def Parser.accepts (parser : Parser Symbol Event) (state : parser.State) :
    List (List Symbol) → Bool
  | [] => true
  | block :: blocks =>
      let call := parser.parse state block false
      call.2.2 && parser.accepts call.1 blocks

/-- What the parser reports. A text is `Open` if nothing is wrong with it so far: what a
call without the flag tells. The call with the flag tells whether it is `WellFormed`. -/
structure Parser.Reports (parser : Parser Symbol Event)
    (WellFormed Open : List Symbol → Prop) : Prop where
  empty : Open []
  opened : ∀ s, WellFormed s → Open s
  front : ∀ s t, Open (s ++ t) → Open s
  more : ∀ blocks block, Open blocks.flatten →
    ((parser.parse (parser.fed blocks) block false).2.2 = true ↔ Open (blocks.flatten ++ block))
  last : ∀ blocks block, Open blocks.flatten →
    ((parser.parse (parser.fed blocks) block true).2.2 = true ↔
      WellFormed (blocks.flatten ++ block))

theorem Parser.fed_append_singleton (blocks : List (List Symbol)) (block : List Symbol) :
    parser.fed (blocks ++ [block]) = (parser.parse (parser.fed blocks) block false).1 := by
  rw [Parser.fed, List.foldl_append]
  rfl

/-- Without the flag the calls tell of no other text than the open ones, wherever it is
cut into blocks. -/
theorem Parser.Reports.accepts_iff {WellFormed Open : List Symbol → Prop}
    (h : parser.Reports WellFormed Open) (before blocks : List (List Symbol))
    (hBefore : Open before.flatten) :
    parser.accepts (parser.fed before) blocks = true ↔
      Open (before.flatten ++ blocks.flatten) := by
  induction blocks generalizing before with
  | nil => simp [Parser.accepts, hBefore]
  | cons block blocks ih =>
      have hCall := h.more before block hBefore
      have hFlat : (before ++ [block]).flatten = before.flatten ++ block := by simp
      rw [Parser.accepts, Bool.and_eq_true, hCall, ← Parser.fed_append_singleton,
        List.flatten_cons, ← List.append_assoc]
      constructor
      · intro hBoth
        have hRest := (ih (before ++ [block]) (hFlat ▸ hBoth.1)).mp hBoth.2
        rwa [hFlat] at hRest
      · intro hWhole
        have hFirst := h.front _ _ hWhole
        have hRest := ih (before ++ [block]) (hFlat ▸ hFirst)
        rw [hFlat] at hRest
        exact ⟨hFirst, hRest.mpr hWhole⟩

/-- The blocks of a text that is read in pieces of `size`, up to the first that is
shorter. `full` of them are not. -/
def blocksFor (size : Nat) : Nat → List Symbol → List (List Symbol)
  | 0, text => [text.take size]
  | full + 1, text => text.take size :: blocksFor size full (text.drop size)

def blocks (size : Nat) (text : List Symbol) : List (List Symbol) :=
  blocksFor size (text.length / size) text

theorem blocks_short {size : Nat} {text : List Symbol} (h : text.length < size) :
    blocks size text = [text] := by
  rw [blocks, Nat.div_eq_of_lt h, blocksFor, List.take_of_length_le (Nat.le_of_lt h)]

theorem blocks_long {size : Nat} {text : List Symbol} (hSize : 0 < size)
    (h : size ≤ text.length) :
    blocks size text = text.take size :: blocks size (text.drop size) := by
  rw [blocks, Nat.div_eq_sub_div hSize h, blocksFor, blocks, List.length_drop]

/-- No symbol is lost between two blocks. -/
theorem blocks_flatten {size : Nat} (hSize : 0 < size) (text : List Symbol) :
    (blocks size text).flatten = text := by
  induction hLength : text.length using Nat.strongRecOn generalizing text with
  | ind length ih =>
      by_cases hShort : text.length < size
      · rw [blocks_short hShort]
        simp
      · have hLong : size ≤ text.length := Nat.le_of_not_lt hShort
        have hLess : (text.drop size).length < length := by
          rw [List.length_drop]
          omega
        rw [blocks_long hSize hLong, List.flatten_cons, ih _ hLess _ rfl, List.take_append_drop]

end Incremental
