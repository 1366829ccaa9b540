import Mathlib.Data.List.Basic

/-! Decoders that take what they read off the front of a stream, against the code they
are for: all of it is taken, and nothing is made of a part of it. -/
namespace CStream

universe u v

/-- A decoder ends with a value and the rest of the stream, or fails. -/
abbrev Decoder (σ : Type u) (ε : Type u) := StateT (List σ) (Except ε)

variable {σ ε α β : Type u}

/-- Of streams shorter than `bound`: the decoder takes exactly the code off the front of
one and yields a value with `Q`, and on a proper prefix of the code it fails so. -/
structure Decodes (bound : Nat) (failure : ε) (f : Decoder σ ε α) (code : List σ)
    (Q : α → Prop) : Prop where
  whole : ∀ rest, (code ++ rest).length < bound → ∃ a, f (code ++ rest) = .ok (a, rest) ∧ Q a
  cut : ∀ front, front <+: code → front ≠ code → front.length < bound → f front = .error failure

variable {bound bound' : Nat} {failure : ε} {f : Decoder σ ε α} {code code' : List σ}
  {Q : α → Prop} {Q' : β → Prop}

/-- A proper prefix ends inside of the first part, or inside of the second. -/
theorem proper_prefix_append {front : List σ} (h : front <+: code ++ code')
    (hProper : front ≠ code ++ code') :
    (front <+: code ∧ front ≠ code) ∨
      ∃ back, front = code ++ back ∧ back <+: code' ∧ back ≠ code' := by
  by_cases hShort : front.length < code.length
  · left
    constructor
    · exact List.prefix_of_prefix_length_le h (List.prefix_append code code')
        (Nat.le_of_lt hShort)
    · intro hSame
      exact Nat.lt_irrefl _ (hSame ▸ hShort)
  · right
    obtain ⟨back, rfl⟩ := List.prefix_of_prefix_length_le (List.prefix_append code code') h
      (Nat.le_of_not_lt hShort)
    refine ⟨back, rfl, (List.prefix_append_right_inj code).mp h, ?_⟩
    intro hSame
    exact hProper (hSame ▸ rfl)

namespace Decodes

/-- There is no shorter stream. -/
theorem zero : Decodes 0 failure f code Q := by
  constructor
  · intro rest hLength
    exact absurd hLength (Nat.not_lt_zero _)
  · intro front _ _ hLength
    exact absurd hLength (Nat.not_lt_zero _)

theorem pure {a : α} (h : Q a) :
    Decodes bound failure (Pure.pure a : Decoder σ ε α) [] Q := by
  constructor
  · intro rest _
    exact ⟨a, rfl, h⟩
  · intro front hPrefix hProper
    exact absurd (List.prefix_nil.mp hPrefix) hProper

theorem weaken {Q' : α → Prop} (h : Decodes bound failure f code Q) (hBound : bound' ≤ bound)
    (hQ : ∀ a, Q a → Q' a) : Decodes bound' failure f code Q' := by
  constructor
  · intro rest hLength
    obtain ⟨a, hRun, hA⟩ := h.whole rest (Nat.lt_of_lt_of_le hLength hBound)
    exact ⟨a, hRun, hQ a hA⟩
  · intro front hPrefix hProper hLength
    exact h.cut front hPrefix hProper (Nat.lt_of_lt_of_le hLength hBound)

/-- One decoder behind the other. The second one sees shorter streams. -/
theorem bind {g : α → Decoder σ ε β} (h : Decodes bound failure f code Q)
    (hBound : bound ≤ bound' + code.length)
    (hNext : ∀ a, Q a → Decodes bound' failure (g a) code' Q') :
    Decodes bound failure (f >>= g) (code ++ code') Q' := by
  constructor
  · intro rest hLength
    rw [List.append_assoc] at hLength ⊢
    obtain ⟨a, hRun, hA⟩ := h.whole (code' ++ rest) hLength
    rw [List.length_append] at hLength
    obtain ⟨b, hRun', hB⟩ := (hNext a hA).whole rest (by omega)
    refine ⟨b, ?_, hB⟩
    show (f (code ++ (code' ++ rest)) >>= fun r => g r.1 r.2) = _
    rw [hRun]
    exact hRun'
  · intro front hPrefix hProper hLength
    show (f front >>= fun r => g r.1 r.2) = _
    rcases proper_prefix_append hPrefix hProper with ⟨hFirst, hCut⟩ | ⟨back, rfl, hBack, hCut⟩
    · rw [h.cut front hFirst hCut hLength]
      rfl
    · obtain ⟨a, hRun, hA⟩ := h.whole back hLength
      rw [List.length_append] at hLength
      rw [hRun]
      exact (hNext a hA).cut back hBack hCut (by omega)

/-- A step that reads nothing. -/
theorem lift {value : Except ε α} {a : α} {g : α → Decoder σ ε β} (h : value = .ok a)
    (hNext : Decodes bound failure (g a) code Q') :
    Decodes bound failure ((liftM value : Decoder σ ε α) >>= g) code Q' := by
  subst h
  exact hNext

/-- A loop may be given as much fuel as the stream is long. -/
theorem sized {loop : Nat → Decoder σ ε α}
    (h : ∀ bound, Decodes bound failure (loop bound) code Q) :
    Decodes bound failure (get >>= fun stream => loop (stream.length + 1)) code Q := by
  constructor
  · intro rest _
    exact (h _).whole rest (Nat.lt_succ_self _)
  · intro front hPrefix hProper _
    exact (h _).cut front hPrefix hProper (Nat.lt_succ_self _)

end Decodes

/-- On this stream the decoder fails in the one way, or ends so. -/
def Safe (failure : ε) (f : Decoder σ ε α) (stream : List σ) (Q : α → List σ → Prop) : Prop :=
  f stream = .error failure ∨ ∃ a rest, f stream = .ok (a, rest) ∧ Q a rest

namespace Safe

variable {stream : List σ} {R : α → List σ → Prop} {R' : β → List σ → Prop}

theorem pure {a : α} (h : R a stream) : Safe failure (Pure.pure a : Decoder σ ε α) stream R :=
  Or.inr ⟨a, stream, rfl, h⟩

theorem bind {g : α → Decoder σ ε β} (h : Safe failure f stream R)
    (hNext : ∀ a rest, R a rest → Safe failure (g a) rest R') :
    Safe failure (f >>= g) stream R' := by
  have hRun : (f >>= g) stream = (f stream >>= fun r => g r.1 r.2) := rfl
  rcases h with hFails | ⟨a, rest, hEnds, hA⟩
  · left
    rw [hRun, hFails]
    rfl
  · rw [hEnds] at hRun
    rcases hNext a rest hA with hFails | ⟨b, rest', hEnds', hB⟩
    · exact Or.inl (hRun.trans hFails)
    · exact Or.inr ⟨b, rest', hRun.trans hEnds', hB⟩

/-- A step that reads nothing. -/
theorem lift {value : Except ε α} {a : α} {g : α → Decoder σ ε β} (h : value = .ok a)
    (hNext : Safe failure (g a) stream R') :
    Safe failure ((liftM value : Decoder σ ε α) >>= g) stream R' := by
  subst h
  exact hNext

theorem imp {S : α → List σ → Prop} (h : Safe failure f stream R)
    (hImp : ∀ a rest, R a rest → S a rest) : Safe failure f stream S :=
  h.imp_right fun ⟨a, rest, hEnds, hA⟩ => ⟨a, rest, hEnds, hImp a rest hA⟩

end Safe

end CStream
