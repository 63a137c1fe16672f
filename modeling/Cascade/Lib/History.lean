import Mathlib.Data.List.Chain

/-!
# What an observer has seen

The values that an observer has seen of something that changes, the newest one first.  Looking twice
at the same value shows nothing new, and there may be nothing to see.
-/

namespace Lib

variable {α : Type} [DecidableEq α]

/-- The history after a look at the present value. -/
def observe (now : Option α) (seen : List α) : List α :=
  match now with
  | some x => if seen.head? = some x then seen else x :: seen
  | none => seen

theorem head?_observe_some (x : α) (seen : List α) :
    (observe (some x) seen).head? = some x := by
  simp only [observe]
  by_cases hhead : seen.head? = some x
  · rw [if_pos hhead]
    exact hhead
  · rw [if_neg hhead]
    rfl

theorem head?_of_observe {now : Option α} {seen : List α} {x : α}
    (h : (observe now seen).head? = some x) : now = some x ∨ seen.head? = some x := by
  cases now with
  | none => exact Or.inr h
  | some y =>
    rw [head?_observe_some] at h
    exact Or.inl h

theorem mem_of_observe {now : Option α} {seen : List α} {x : α} (h : x ∈ observe now seen) :
    now = some x ∨ x ∈ seen := by
  cases now with
  | none => exact Or.inr h
  | some y =>
    simp only [observe] at h
    by_cases hhead : seen.head? = some y
    · rw [if_pos hhead] at h
      exact Or.inr h
    · rw [if_neg hhead] at h
      rcases List.mem_cons.mp h with heq | hmem
      · exact Or.inl (congrArg some heq.symm)
      · exact Or.inr hmem

-- What has been seen already is not seen again.
theorem observe_of_shown {now : Option α} {seen : List α}
    (h : ∀ x, now = some x → seen.head? = some x) : observe now seen = seen := by
  cases now with
  | none => rfl
  | some x => exact if_pos (h x rfl)

-- A history is ordered if whatever is new in it follows the value before.
theorem isChain_observe {R : α → α → Prop} {now : Option α} {seen : List α}
    (hseen : seen.IsChain R)
    (hnow : ∀ x, now = some x → seen.head? = some x ∨ ∀ y, seen.head? = some y → R x y) :
    (observe now seen).IsChain R := by
  cases now with
  | none => exact hseen
  | some x =>
    simp only [observe]
    by_cases hhead : seen.head? = some x
    · rw [if_pos hhead]
      exact hseen
    · rw [if_neg hhead]
      exact hseen.cons ((hnow x rfl).resolve_left hhead)

end Lib
