import Cascade.Lib.Runs

/-!
# What runs show

A step may show something, which depends on the step and on the states before and after it.  One
system does what another one allows when each of its steps is matched by steps of the other, as many
as needed, that show the same: then it shows nothing that the other could not have shown.
-/

namespace Lib

variable {σ α ε : Type}

/-- Steps from a state to another one, all of which meet `ok`, with what they show in order. -/
inductive Shows (step : σ → α → Option σ) (label : σ → α → σ → Option ε) (ok : σ → α → Prop)
    (s : σ) : List ε → σ → Prop
  | refl : Shows step label ok s [] s
  | step {shown : List ε} {t t' : σ} {a : α} : Shows step label ok s shown t → ok t a →
      step t a = some t' → Shows step label ok s (shown ++ (label t a t').toList) t'

namespace Shows

variable {step : σ → α → Option σ} {label : σ → α → σ → Option ε} {ok : σ → α → Prop}
  {s t u : σ} {shown shown' : List ε}

theorem trans (h : Shows step label ok s shown t) (h' : Shows step label ok t shown' u) :
    Shows step label ok s (shown ++ shown') u := by
  induction h' with
  | refl =>
    rw [List.append_nil]
    exact h
  | step _ hok hstep ih =>
    rw [← List.append_assoc]
    exact .step ih hok hstep

theorem one {a : α} (hok : ok s a) (hstep : step s a = some t) :
    Shows step label ok s (label s a t).toList t := .step .refl hok hstep

theorem mono {ok' : σ → α → Prop} (h : Shows step label ok s shown t)
    (hok : ∀ s a, ok s a → ok' s a) : Shows step label ok' s shown t := by
  induction h with
  | refl => exact .refl
  | step _ ha hstep ih => exact .step ih (hok _ _ ha) hstep

theorem invariant {I : σ → Prop} (h : Shows step label ok s shown t) (hs : I s)
    (hstep : ∀ s a s', I s → ok s a → step s a = some s' → I s') : I t := by
  induction h with
  | refl => exact hs
  | step _ ha ht ih => exact hstep _ _ _ ih ha ht

theorem reach {init : σ → Prop} (h : Shows step label ok s shown t)
    (hs : Reach step ok init s) : Reach step ok init t := by
  induction h with
  | refl => exact hs
  | step _ ha ht ih => exact .next ih ha ht

-- Every run shows something.
theorem of_reach {init : σ → Prop} (label : σ → α → σ → Option ε) (h : Reach step ok init t) :
    ∃ s shown, init s ∧ Shows step label ok s shown t := by
  induction h with
  | start hs => exact ⟨_, [], hs, .refl⟩
  | next _ ha ht ih =>
    obtain ⟨s, shown, hs, hshown⟩ := ih
    exact ⟨s, _, hs, .step hshown ha ht⟩

-- Simulation: with an invariant, the other system shows the same.
theorem simulates {τ β : Type} {astep : τ → β → Option τ} {alabel : τ → β → τ → Option ε}
    {aok : τ → β → Prop} (abs : σ → τ) {I : σ → Prop}
    (hstep : ∀ s a s', I s → ok s a → step s a = some s' →
      I s' ∧ Shows astep alabel aok (abs s) (label s a s').toList (abs s'))
    (hs : I s) (h : Shows step label ok s shown t) :
    I t ∧ Shows astep alabel aok (abs s) shown (abs t) := by
  induction h with
  | refl => exact ⟨hs, .refl⟩
  | step _ ha ht ih =>
    obtain ⟨hinv, hshown⟩ := hstep _ _ _ ih.1 ha ht
    exact ⟨hinv, ih.2.trans hshown⟩

end Shows

/-- What a replay shows. -/
def trace (step : σ → α → Option σ) (label : σ → α → σ → Option ε) : σ → List α → List ε
  | _, [] => []
  | s, a :: as => (step s a).elim [] (fun s' ↦ (label s a s').toList ++ trace step label s' as)

theorem Shows.of_exec {step : σ → α → Option σ} (label : σ → α → σ → Option ε) {ok : σ → α → Bool}
    {s : σ} (as : List α) {q : σ → Bool} (hok : execOk step ok s as = true)
    (h : (exec step s as).any q = true) :
    ∃ t, Shows step label (fun s a ↦ ok s a = true) s (trace step label s as) t ∧ q t = true := by
  induction as generalizing s with
  | nil => exact ⟨s, .refl, h⟩
  | cons a as ih =>
    obtain ⟨t, ht, hq⟩ := (Option.any_eq_true _ _).mp h
    obtain ⟨s', hs', hrest⟩ := Option.bind_eq_some_iff.mp ht
    simp only [execOk, hs', Option.all_some, Bool.and_eq_true] at hok
    have hany : (exec step s' as).any q = true := by
      rw [hrest]
      exact hq
    obtain ⟨u, hu, hqu⟩ := ih hok.2 hany
    have hfirst : Shows step label (fun s a ↦ ok s a = true) s (label s a s').toList s' :=
      .one hok.1 hs'
    refine ⟨u, ?_, hqu⟩
    rw [trace, hs', Option.elim_some]
    exact hfirst.trans hu

end Lib
