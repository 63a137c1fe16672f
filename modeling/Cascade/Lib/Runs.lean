import Mathlib.Logic.Basic

/-!
# Runs of a step function

A system is a step function from a state and an action to the next state, if the action is
possible there.  `Reach step ok init` are the states of the runs from `init` all of whose steps
meet `ok`, a condition on the action and the state before it; with `ok` always true these are the
reachable states.  `exec` replays a list of actions, which is how a single run is given.
-/

namespace Lib

variable {σ α : Type}

/-- Every step is allowed. -/
def anyStep (_ : σ) (_ : α) : Prop := True

inductive Reach (step : σ → α → Option σ) (ok : σ → α → Prop) (init : σ → Prop) : σ → Prop
  | start {s : σ} : init s → Reach step ok init s
  | next {s s' : σ} {a : α} :
      Reach step ok init s → ok s a → step s a = some s' → Reach step ok init s'

namespace Reach

variable {step : σ → α → Option σ} {ok : σ → α → Prop} {init : σ → Prop}

-- The invariant rule: what holds initially and is kept by every allowed step holds of every state
-- of every run.
theorem invariant {I : σ → Prop} (hinit : ∀ s, init s → I s)
    (hstep : ∀ s a s', I s → ok s a → step s a = some s' → I s') {s : σ}
    (h : Reach step ok init s) : I s := by
  induction h with
  | start hs => exact hinit _ hs
  | next _ hok hs ih => exact hstep _ _ _ ih hok hs

theorem mono {ok' : σ → α → Prop} (hok : ∀ s a, ok s a → ok' s a) {s : σ}
    (h : Reach step ok init s) : Reach step ok' init s := by
  induction h with
  | start hs => exact .start hs
  | next _ ha hs ih => exact .next ih (hok _ _ ha) hs

-- Simulation: with an invariant, every allowed step of one system is an allowed step of another one,
-- or is not seen there.
theorem simulates {τ β : Type} {astep : τ → β → Option τ} {aok : τ → β → Prop} {ainit : τ → Prop}
    (abs : σ → τ) {I : σ → Prop} (hinit : ∀ s, init s → I s ∧ ainit (abs s))
    (hstep : ∀ s a s', I s → ok s a → step s a = some s' → I s' ∧
      (abs s' = abs s ∨ ∃ b, aok (abs s) b ∧ astep (abs s) b = some (abs s'))) {s : σ}
    (h : Reach step ok init s) : I s ∧ Reach astep aok ainit (abs s) := by
  induction h with
  | start hs =>
    have hstart := hinit _ hs
    exact ⟨hstart.1, .start hstart.2⟩
  | next _ hok hs ih =>
    obtain ⟨hinv, hseen⟩ := hstep _ _ _ ih.1 hok hs
    cases hseen with
    | inl hsame =>
      rw [hsame]
      exact ⟨hinv, ih.2⟩
    | inr hmoved =>
      have ⟨b, haok, hb⟩ := hmoved
      exact ⟨hinv, .next ih.2 haok hb⟩

end Reach

/-- Replays a list of actions. -/
def exec (step : σ → α → Option σ) : σ → List α → Option σ
  | s, [] => some s
  | s, a :: as => (step s a).bind (fun s' ↦ exec step s' as)

theorem exec_append (step : σ → α → Option σ) (s : σ) (as bs : List α) :
    exec step s (as ++ bs) = (exec step s as).bind (fun s' ↦ exec step s' bs) := by
  induction as generalizing s with
  | nil => rfl
  | cons a as ih =>
    show (step s a).bind (fun s' ↦ exec step s' (as ++ bs)) =
      ((step s a).bind (fun s' ↦ exec step s' as)).bind (fun s' ↦ exec step s' bs)
    rw [Option.bind_assoc]
    exact congrArg (step s a).bind (funext ih)

-- Two systems that take the same actions and stay related.
theorem exec_related {τ : Type} {step : σ → α → Option σ} {astep : τ → α → Option τ}
    {R : σ → τ → Prop} (hstep : ∀ s t a s', R s t → step s a = some s' →
      ∃ t', astep t a = some t' ∧ R s' t') {s s' : σ} {t : τ} {as : List α} (hrel : R s t)
    (h : exec step s as = some s') : ∃ t', exec astep t as = some t' ∧ R s' t' := by
  induction as generalizing s t with
  | nil =>
    cases h
    exact ⟨t, rfl, hrel⟩
  | cons a as ih =>
    obtain ⟨s1, h1, h2⟩ := Option.bind_eq_some_iff.mp h
    obtain ⟨t1, ht1, hrel1⟩ := hstep s t a s1 hrel h1
    obtain ⟨t', ht', hrel'⟩ := ih hrel1 h2
    exact ⟨t', Option.bind_eq_some_iff.mpr ⟨t1, ht1, ht'⟩, hrel'⟩

-- If every step lowers a measure, there are no more steps than that.
theorem exec_length_le {step : σ → α → Option σ} {μ : σ → Nat}
    (hstep : ∀ s a s', step s a = some s' → μ s' < μ s) {s s' : σ} {as : List α}
    (h : exec step s as = some s') : as.length + μ s' ≤ μ s := by
  induction as generalizing s with
  | nil =>
    cases h
    simp
  | cons a as ih =>
    obtain ⟨s1, h1, h2⟩ := Option.bind_eq_some_iff.mp h
    have hlt := hstep s a s1 h1
    have hrest := ih h2
    show as.length + 1 + μ s' ≤ μ s
    omega

-- So every run can be taken to a state from which there is no further step.
theorem exists_exec_stuck {step : σ → α → Option σ} {μ : σ → Nat}
    (hstep : ∀ s a s', step s a = some s' → μ s' < μ s) (s : σ) :
    ∃ as s', exec step s as = some s' ∧ ∀ a, step s' a = none := by
  induction hμ : μ s using Nat.strongRecOn generalizing s with
  | _ n ih =>
    by_cases hstuck : ∀ a, step s a = none
    · exact ⟨[], s, rfl, hstuck⟩
    · obtain ⟨a, ha⟩ := not_forall.mp hstuck
      obtain ⟨s1, h1⟩ := Option.ne_none_iff_exists'.mp ha
      obtain ⟨as, s', has, hend⟩ := ih (μ s1) (hμ ▸ hstep s a s1 h1) s1 rfl
      exact ⟨a :: as, s', by rw [exec, h1, Option.bind_some, has], hend⟩

/-- What the steps of a replay add up to. -/
def tally (step : σ → α → Option σ) (f : σ → α → Nat) : σ → List α → Nat
  | _, [] => 0
  | s, a :: as => f s a + ((step s a).map (fun s' ↦ tally step f s' as)).getD 0

-- Conservation: what every step adds to a stock and takes out of it balances over a whole run.
theorem tally_balance {step : σ → α → Option σ} {I : σ → Prop} {stock : σ → Nat}
    {added taken : σ → α → Nat} (hstep : ∀ s a s', I s → step s a = some s' →
      I s' ∧ stock s' + taken s a = stock s + added s a) {s s' : σ} {as : List α} (hs : I s)
    (h : exec step s as = some s') :
    stock s' + tally step taken s as = stock s + tally step added s as := by
  induction as generalizing s with
  | nil =>
    cases h
    rfl
  | cons a as ih =>
    obtain ⟨s1, h1, h2⟩ := Option.bind_eq_some_iff.mp h
    obtain ⟨hs1, hbalance⟩ := hstep s a s1 hs h1
    have hrest := ih hs1 h2
    simp only [tally, h1, Option.map_some, Option.getD_some]
    omega

/-- The condition `ok` on every step of a replay. -/
def execOk (step : σ → α → Option σ) (ok : σ → α → Bool) : σ → List α → Bool
  | _, [] => true
  | s, a :: as => ok s a && (step s a).all (fun s' ↦ execOk step ok s' as)

theorem Reach.exec {step : σ → α → Option σ} {ok : σ → α → Bool} {init : σ → Prop} {s s' : σ}
    (hs : Reach step (fun s a ↦ ok s a = true) init s) (as : List α)
    (hok : execOk step ok s as = true) (h : Lib.exec step s as = some s') :
    Reach step (fun s a ↦ ok s a = true) init s' := by
  induction as generalizing s with
  | nil =>
    cases h
    exact hs
  | cons a as ih =>
    obtain ⟨s1, h1, h2⟩ := Option.bind_eq_some_iff.mp h
    simp only [execOk, h1, Option.all_some, Bool.and_eq_true] at hok
    exact ih (.next hs hok.1 h1) hok.2 h2

theorem Reach.exec_any {step : σ → α → Option σ} {init : σ → Prop} {s s' : σ}
    (hs : Reach step anyStep init s) (as : List α) (h : Lib.exec step s as = some s') :
    Reach step anyStep init s' := by
  induction as generalizing s with
  | nil =>
    cases h
    exact hs
  | cons a as ih =>
    obtain ⟨s1, h1, h2⟩ := Option.bind_eq_some_iff.mp h
    exact ih (.next hs trivial h1) h2

-- A replay that ends in a state with the property `q` gives a run to such a state.
theorem Reach.of_exec {step : σ → α → Option σ} {ok : σ → α → Bool} {init : σ → Prop} {s : σ}
    (hs : init s) (as : List α) {q : σ → Bool} (hok : execOk step ok s as = true)
    (h : (Lib.exec step s as).any q = true) :
    ∃ s', Reach step (fun s a ↦ ok s a = true) init s' ∧ q s' = true := by
  obtain ⟨s', hs', hq⟩ := (Option.any_eq_true _ _).mp h
  exact ⟨s', Reach.exec (.start hs) as hok hs', hq⟩

theorem Reach.of_exec_any {step : σ → α → Option σ} {init : σ → Prop} {s : σ} (hs : init s)
    (as : List α) {q : σ → Bool} (h : (Lib.exec step s as).any q = true) :
    ∃ s', Reach step anyStep init s' ∧ q s' = true := by
  obtain ⟨s', hs', hq⟩ := (Option.any_eq_true _ _).mp h
  exact ⟨s', Reach.exec_any (.start hs) as hs', hq⟩

end Lib
