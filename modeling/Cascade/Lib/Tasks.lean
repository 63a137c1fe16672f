import Mathlib.Algebra.GroupWithZero.Nat
import Mathlib.Data.List.Basic

/-!
# Tasks that take turns

The tasks of a system as a list, in which a step replaces the task that takes it and may add another
one at the end.
-/

namespace Lib

variable {T : Type} {tasks : List T} {i j : Nat} {a b : T}

-- A task after a step is the one that has taken it, or another one as it was.
theorem getElem?_set_cases (h : (tasks.set i a)[j]? = some b) :
    (j = i ∧ b = a) ∨ (j ≠ i ∧ tasks[j]? = some b) := by
  rw [List.getElem?_set] at h
  by_cases hj : i = j
  · rw [if_pos hj] at h
    by_cases hlt : i < tasks.length
    · rw [if_pos hlt] at h
      exact Or.inl ⟨hj.symm, (Option.some.inj h).symm⟩
    · rw [if_neg hlt] at h
      cases h
  · rw [if_neg hj] at h
    exact Or.inr ⟨fun heq ↦ hj heq.symm, h⟩

theorem getElem?_append_cases (h : (tasks ++ [a])[j]? = some b) :
    (j = tasks.length ∧ b = a) ∨ (j < tasks.length ∧ tasks[j]? = some b) := by
  by_cases hj : j < tasks.length
  · rw [List.getElem?_append_left hj] at h
    exact Or.inr ⟨hj, h⟩
  · rw [List.getElem?_append_right (by omega)] at h
    have hlt := (List.getElem?_eq_some_iff.mp h).1
    have hlen : j = tasks.length := by
      simp only [List.length_singleton] at hlt
      omega
    rw [hlen, Nat.sub_self] at h
    exact Or.inl ⟨hlen, (Option.some.inj h).symm⟩

theorem set_getElem?_self (h : tasks[i]? = some a) : tasks.set i a = tasks := by
  have ⟨hlt, heq⟩ := List.getElem?_eq_some_iff.mp h
  rw [← heq]
  exact List.set_getElem_self hlt

-- Of what the tasks hold, a step takes out what its task no longer holds.
theorem flatMap_perm_set {β : Type} {f : T → List β} {out : List β} (h : tasks[i]? = some a)
    (hout : f a = out ++ f b) : (tasks.flatMap f).Perm (out ++ (tasks.set i b).flatMap f) := by
  induction tasks generalizing i with
  | nil => simp at h
  | cons c tasks ih =>
    cases i with
    | zero =>
      have hc : c = a := by simpa using h
      simp only [List.flatMap_cons, List.set_cons_zero]
      rw [hc, hout, List.append_assoc]
    | succ i =>
      have hrest := ih (i := i) (by simpa using h)
      simp only [List.flatMap_cons, List.set_cons_succ]
      calc
        (f c ++ tasks.flatMap f).Perm (f c ++ (out ++ (tasks.set i b).flatMap f)) :=
          hrest.append_left _
        List.Perm _ (out ++ (f c ++ (tasks.set i b).flatMap f)) := List.perm_append_comm_assoc _ _ _

theorem sum_map_set {μ : T → Nat} (h : tasks[i]? = some a) :
    ((tasks.set i b).map μ).sum + μ a = (tasks.map μ).sum + μ b := by
  induction tasks generalizing i with
  | nil => simp at h
  | cons c tasks ih =>
    cases i with
    | zero =>
      have hc : c = a := by simpa using h
      simp only [List.set_cons_zero, List.map_cons, List.sum_cons, hc]
      omega
    | succ i =>
      have hrest := ih (i := i) (by simpa using h)
      simp only [List.set_cons_succ, List.map_cons, List.sum_cons]
      omega

theorem sum_map_eraseIdx {μ : T → Nat} (h : tasks[i]? = some a) :
    ((tasks.eraseIdx i).map μ).sum + μ a = (tasks.map μ).sum := by
  induction tasks generalizing i with
  | nil => simp at h
  | cons c tasks ih =>
    cases i with
    | zero =>
      have hc : c = a := by simpa using h
      simp only [List.eraseIdx_cons_zero, List.map_cons, List.sum_cons, hc]
      omega
    | succ i =>
      have hrest := ih (i := i) (by simpa using h)
      simp only [List.eraseIdx_cons_succ, List.map_cons, List.sum_cons]
      omega

/-- Every task has the property. -/
def EachTask (p : T → Prop) (tasks : List T) : Prop :=
  ∀ (i : Nat) (a : T), tasks[i]? = some a → p a

/-- Every two tasks are so related. -/
def EachTwo (r : T → T → Prop) (tasks : List T) : Prop :=
  ∀ (i j : Nat) (a b : T), i ≠ j → tasks[i]? = some a → tasks[j]? = some b → r a b

theorem EachTask.nil {p : T → Prop} : EachTask p [] := fun _ _ h ↦ by simp at h

theorem EachTwo.nil {r : T → T → Prop} : EachTwo r [] := fun _ _ _ _ _ h ↦ by simp at h

-- The others may change what they are about as well, as long as they keep their place.
theorem EachTask.set {q : T → Prop} (hothers : ∀ (j : Nat) (b : T), j ≠ i → tasks[j]? = some b → q b)
    (ha : q a) : EachTask q (tasks.set i a) := by
  intro j b hj
  cases getElem?_set_cases hj with
  | inl hself =>
    rw [hself.2]
    exact ha
  | inr hother => exact hothers j b hother.1 hother.2

theorem EachTask.append {p : T → Prop} (h : EachTask p tasks) (ha : p a) :
    EachTask p (tasks ++ [a]) := by
  intro j b hj
  cases getElem?_append_cases hj with
  | inl hnew =>
    rw [hnew.2]
    exact ha
  | inr hold => exact h j b hold.2

theorem EachTwo.set {r : T → T → Prop} (h : EachTwo r tasks)
    (ha : ∀ (j : Nat) (b : T), j ≠ i → tasks[j]? = some b → r a b ∧ r b a) :
    EachTwo r (tasks.set i a) := by
  intro j k b c hjk hj hk
  cases getElem?_set_cases hj with
  | inl hself =>
    cases getElem?_set_cases hk with
    | inl hself' => exact absurd (hself.1.trans hself'.1.symm) hjk
    | inr hother =>
      rw [hself.2]
      exact (ha k c hother.1 hother.2).1
  | inr hother =>
    cases getElem?_set_cases hk with
    | inl hself =>
      rw [hself.2]
      exact (ha j b hother.1 hother.2).2
    | inr hother' => exact h j k b c hjk hother.2 hother'.2

theorem EachTwo.append {r : T → T → Prop} (h : EachTwo r tasks)
    (ha : ∀ (j : Nat) (b : T), tasks[j]? = some b → r a b ∧ r b a) : EachTwo r (tasks ++ [a]) := by
  intro j k b c hjk hj hk
  cases getElem?_append_cases hj with
  | inl hnew =>
    cases getElem?_append_cases hk with
    | inl hnew' => exact absurd (hnew.1.trans hnew'.1.symm) hjk
    | inr hold =>
      rw [hnew.2]
      exact (ha k c hold.2).1
  | inr hold =>
    cases getElem?_append_cases hk with
    | inl hnew =>
      rw [hnew.2]
      exact (ha j b hold.2).2
    | inr hold' => exact h j k b c hjk hold.2 hold'.2

end Lib
