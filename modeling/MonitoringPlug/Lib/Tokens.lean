import MonitoringPlug.Lib.Encoded
import MonitoringPlug.Lib.Loop

/-! Loops over the tokens that `strsep` cuts off a text. -/
namespace CText

open CLoop

variable {State : Type} {delimiters text : List Char}

/-- The delimiters of a text cut it into its tokens. -/
def tokens (delimiters text : List Char) : List (List Char) :=
  text.splitOnP (· ∈ delimiters)

theorem tokens_strsepAny (delimiters text : List Char) :
    tokens delimiters text =
      (strsepAny delimiters text).1 ::
        ((strsepAny delimiters text).2.map (tokens delimiters)).getD [] := by
  rcases exists_cut delimiters text with hFree | ⟨front, d, rest, rfl, hFront, hd⟩
  · rw [strsepAny_none hFree]
    exact List.splitOnP_eq_singleton fun c hc => decide_eq_false (hFree c hc)
  · have hCut := List.splitOnP_append_cons (p := (· ∈ delimiters)) front rest (decide_eq_true hd)
    rw [List.splitOnP_eq_singleton fun c hc => decide_eq_false (hFront c hc)] at hCut
    rw [strsepAny_append hFront hd]
    exact hCut

theorem strsepAny_shortens {line rest : List Char}
    (h : strsepAny delimiters text = (line, some rest)) : rest.length < text.length := by
  rcases exists_cut delimiters text with hFree | ⟨front, d, behind, rfl, hFront, hd⟩
  · rw [strsepAny_none hFree] at h
    cases h
  · rw [strsepAny_append hFront hd] at h
    cases h
    simp only [List.length_append, List.length_cons]
    omega

/-- `while ((line = strsep(&str, delimiters)))` over a body that can fail. -/
def tokenPass (delimiters : List Char) (body : State → List Char → Option State) :
    Option (List Char) × State → Pass (Option (List Char) × State) (Option State)
  | (none, s) => .leave (some s)
  | (some str, s) =>
      match body s (strsepAny delimiters str).1 with
      | none => .leave none
      | some s => .again ((strsepAny delimiters str).2, s)

/-- The loop ends, and it has gone through the tokens in order. -/
theorem tokenPass_returns (body : State → List Char → Option State) (text : List Char) (s : State) :
    Returns (tokenPass delimiters body) (some text, s)
      ((tokens delimiters text).foldlM body s) := by
  induction hLength : text.length using Nat.strongRecOn generalizing text s with
  | ind length ih =>
      rw [tokens_strsepAny, List.foldlM_cons]
      cases hBody : body s (strsepAny delimiters text).1 with
      | none => exact Returns.leave (by simp [tokenPass, hBody])
      | some next =>
          have hPass : tokenPass delimiters body (some text, s) =
              .again ((strsepAny delimiters text).2, next) := by simp [tokenPass, hBody]
          refine Returns.again hPass ?_
          cases hRest : (strsepAny delimiters text).2 with
          | none => exact Returns.leave rfl
          | some rest =>
              have hShorter : rest.length < length :=
                hLength ▸ strsepAny_shortens (Prod.ext rfl hRest)
              simpa using ih _ hShorter rest next rfl

end CText
