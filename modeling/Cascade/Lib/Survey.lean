import Mathlib.Data.Set.Basic
import Cascade.Lib.Runs

/-!
# Surveys

Items move through a row of places, in one direction only.  A survey looks at the places one after
the other, in the same direction, and the items move on meanwhile: an item that leaves a place
before the survey comes there is found at a later place.  So a survey finds whatever a survey that
had ended before it has found, and finds it at least as far on.
-/

namespace Lib

variable {σ α ι : Type}

/-- What has been found at the places so far, and how many surveys had ended at the beginning. -/
structure Survey (ι : Type) where
  began : Nat
  found : List (Set ι)

namespace Survey

/-- The item was at the place with this number. -/
def Sees (survey : Survey ι) (k : Nat) (x : ι) : Prop :=
  ∃ items, survey.found[k]? = some items ∧ x ∈ items

/-- The later survey has found all that the earlier one has, as far on or further. -/
def UpTo (earlier later : Survey ι) : Prop :=
  ∀ k x, earlier.Sees k x → ∃ j, k ≤ j ∧ later.Sees j x

/-- The survey has come to one more place. -/
def add (survey : Survey ι) (items : Set ι) : Survey ι :=
  { survey with found := survey.found ++ [items] }

variable {survey : Survey ι} {items : Set ι} {k : Nat} {x : ι}

theorem Sees.lt_length (h : survey.Sees k x) : k < survey.found.length := by
  obtain ⟨items, hitems, _⟩ := h
  exact (List.getElem?_eq_some_iff.mp hitems).1

theorem Sees.add (h : survey.Sees k x) (items : Set ι) : (survey.add items).Sees k x := by
  obtain ⟨found, hfound, hx⟩ := h
  refine ⟨found, ?_, hx⟩
  show (survey.found ++ [items])[k]? = some found
  rw [List.getElem?_append_left (List.getElem?_eq_some_iff.mp hfound).1]
  exact hfound

theorem sees_add_last (h : x ∈ items) : (survey.add items).Sees survey.found.length x := by
  refine ⟨items, ?_, h⟩
  show (survey.found ++ [items])[survey.found.length]? = some items
  simp

theorem sees_of_add (h : (survey.add items).Sees k x) :
    survey.Sees k x ∨ k = survey.found.length ∧ x ∈ items := by
  obtain ⟨found, hfound, hx⟩ := h
  have hfound : (survey.found ++ [items])[k]? = some found := hfound
  by_cases hk : k < survey.found.length
  · rw [List.getElem?_append_left hk] at hfound
    exact Or.inl ⟨found, hfound, hx⟩
  · have hlt := (List.getElem?_eq_some_iff.mp hfound).1
    have heq : k = survey.found.length := by
      rw [List.length_append, List.length_singleton] at hlt
      omega
    rw [heq] at hfound
    have hitems : items = found := by simpa using hfound
    exact Or.inr ⟨heq, hitems ▸ hx⟩

end Survey

/-- A system whose places are surveyed. -/
structure Surveyed (σ ι : Type) where
  state : σ
  underway : List (Survey ι)
  ended : List (Survey ι)

namespace Surveyed

inductive Action (α : Type)
  | move (a : α)
  | begin
  | look (i : Nat)
  | finish (i : Nat)

/-- The places are given by the items there. -/
def look (places : List (σ → Set ι)) (w : Surveyed σ ι) (i : Nat) : Option (Surveyed σ ι) :=
  match w.underway[i]? with
  | some survey =>
    (places[survey.found.length]?).map (fun place ↦
      { w with underway := w.underway.set i (survey.add (place w.state)) })
  | none => none

def finish (places : List (σ → Set ι)) (w : Surveyed σ ι) (i : Nat) : Option (Surveyed σ ι) :=
  match w.underway[i]? with
  | some survey =>
    if survey.found.length = places.length then
      some { w with underway := w.underway.eraseIdx i, ended := w.ended ++ [survey] }
    else none
  | none => none

def step (move : σ → α → Option σ) (places : List (σ → Set ι)) (w : Surveyed σ ι) :
    Action α → Option (Surveyed σ ι)
  | .move a => (move w.state a).map (fun s ↦ { w with state := s })
  | .begin => some { w with underway := w.underway ++ [⟨w.ended.length, []⟩] }
  | .look i => w.look places i
  | .finish i => w.finish places i

/-- A condition on the steps of the system, for those of the surveyed one. -/
def allows (ok : σ → α → Prop) (w : Surveyed σ ι) : Action α → Prop
  | .move a => ok w.state a
  | _ => True

def Started (init : σ → Prop) (w : Surveyed σ ι) : Prop :=
  init w.state ∧ w.underway = [] ∧ w.ended = []

/-- The item is at the place with this number, or at a later one. -/
def Reached (places : List (σ → Set ι)) (s : σ) (k : Nat) (x : ι) : Prop :=
  ∃ j place, k ≤ j ∧ places[j]? = some place ∧ x ∈ place s

/-- A survey under way has found what the earlier one has, or is going to. -/
def Meets (places : List (σ → Set ι)) (s : σ) (earlier survey : Survey ι) : Prop :=
  ∀ k x, earlier.Sees k x →
    (∃ j, k ≤ j ∧ survey.Sees j x) ∨ Reached places s (max k survey.found.length) x

/-- The invariant: what has been found is still there or further on, and every survey meets those
that had ended before it. -/
structure Kept (places : List (σ → Set ι)) (w : Surveyed σ ι) : Prop where
  reached : ∀ survey ∈ w.ended, ∀ k x, survey.Sees k x → Reached places w.state k x
  underway : ∀ survey ∈ w.underway,
    (∀ k x, survey.Sees k x → Reached places w.state k x) ∧ survey.began ≤ w.ended.length ∧
      ∀ earlier ∈ w.ended.take survey.began, Meets places w.state earlier survey
  ended : ∀ survey ∈ w.ended, survey.began ≤ w.ended.length ∧
    ∀ earlier ∈ w.ended.take survey.began, earlier.UpTo survey

/-- No item goes back. -/
def Onward (places : List (σ → Set ι)) (s s' : σ) : Prop :=
  ∀ k x, Reached places s k x → Reached places s' k x

variable {places : List (σ → Set ι)} {w : Surveyed σ ι} {s s' : σ}

theorem Reached.mono {k j : Nat} {x : ι} (h : Reached places s j x) (hkj : k ≤ j) :
    Reached places s k x := by
  obtain ⟨i, place, hi, hplace, hx⟩ := h
  exact ⟨i, place, by omega, hplace, hx⟩

theorem Kept.move (h : w.Kept places) (honward : Onward places w.state s') :
    Kept places { w with state := s' } where
  reached := fun survey hsurvey k x hsees ↦ honward k x (h.reached survey hsurvey k x hsees)
  underway := by
    intro survey hsurvey
    obtain ⟨hreached, hbegan, hmeets⟩ := h.underway survey hsurvey
    refine ⟨fun k x hsees ↦ honward k x (hreached k x hsees), hbegan, ?_⟩
    intro earlier hearlier k x hsees
    cases hmeets earlier hearlier k x hsees with
    | inl hseen => exact Or.inl hseen
    | inr hahead => exact Or.inr (honward _ x hahead)
  ended := h.ended

-- A new survey has everything ahead of it.
theorem Kept.begin (h : w.Kept places) :
    Kept places { w with underway := w.underway ++ [⟨w.ended.length, []⟩] } where
  reached := h.reached
  underway := by
    intro survey hsurvey
    cases List.mem_append.mp hsurvey with
    | inl hold => exact h.underway survey hold
    | inr hnew =>
      rw [List.mem_singleton.mp hnew]
      refine ⟨?_, le_refl _, ?_⟩
      · intro k x hsees
        exact absurd hsees.lt_length (Nat.not_lt_zero k)
      · intro earlier hearlier k x hsees
        apply Or.inr
        show Reached places w.state (max k 0) x
        rw [Nat.max_zero]
        exact h.reached earlier (List.mem_of_mem_take hearlier) k x hsees
  ended := h.ended

-- What is ahead of a survey is at the place that it comes to, or behind that one.
theorem Meets.add {earlier survey : Survey ι} (h : Meets places s earlier survey)
    {place : σ → Set ι} (hplace : places[survey.found.length]? = some place) :
    Meets places s earlier (survey.add (place s)) := by
  intro k x hsees
  cases h k x hsees with
  | inl hseen =>
    obtain ⟨j, hkj, hj⟩ := hseen
    exact Or.inl ⟨j, hkj, hj.add _⟩
  | inr hahead =>
    obtain ⟨j, other, hle, hother, hx⟩ := hahead
    by_cases hj : j = survey.found.length
    · rw [hj, hplace] at hother
      cases hother
      exact Or.inl ⟨survey.found.length, by omega, Survey.sees_add_last hx⟩
    · have hlength : (survey.add (place s)).found.length = survey.found.length + 1 := by
        simp [Survey.add]
      exact Or.inr ⟨j, other, by omega, hother, hx⟩

theorem Kept.look (h : w.Kept places) {i : Nat} {w' : Surveyed σ ι}
    (hw' : w.look places i = some w') : w'.Kept places := by
  unfold Surveyed.look at hw'
  split at hw'
  next survey hi =>
    obtain ⟨place, hplace, hset⟩ := Option.map_eq_some_iff.mp hw'
    rw [← hset]
    refine ⟨h.reached, ?_, h.ended⟩
    intro other hother
    cases List.mem_or_eq_of_mem_set hother with
    | inl hmem => exact h.underway other hmem
    | inr heq =>
      rw [heq]
      obtain ⟨hreached, hbegan, hmeets⟩ := h.underway survey (List.mem_of_getElem? hi)
      refine ⟨?_, hbegan, fun earlier hearlier ↦ (hmeets earlier hearlier).add hplace⟩
      intro k x hsees
      cases Survey.sees_of_add hsees with
      | inl hold => exact hreached k x hold
      | inr hnew => exact ⟨survey.found.length, place, by omega, hplace, hnew.2⟩
  · cases hw'

-- At the end there is nothing ahead any more.
theorem Meets.upTo {earlier survey : Survey ι} (h : Meets places s earlier survey)
    (hall : survey.found.length = places.length) : earlier.UpTo survey := by
  intro k x hsees
  cases h k x hsees with
  | inl hseen => exact hseen
  | inr hahead =>
    obtain ⟨j, place, hle, hplace, _⟩ := hahead
    have hlt := (List.getElem?_eq_some_iff.mp hplace).1
    omega

theorem Kept.finish (h : w.Kept places) {i : Nat} {w' : Surveyed σ ι}
    (hw' : w.finish places i = some w') : w'.Kept places := by
  unfold Surveyed.finish at hw'
  split at hw'
  next survey hi =>
    split at hw'
    next hall =>
      obtain ⟨hreached, hbegan, hmeets⟩ := h.underway survey (List.mem_of_getElem? hi)
      have htake : ∀ n, n ≤ w.ended.length → (w.ended ++ [survey]).take n = w.ended.take n :=
        fun n hn ↦ List.take_append_of_le_length hn
      rw [← Option.some.inj hw']
      refine ⟨?_, ?_, ?_⟩
      · intro other hother
        cases List.mem_append.mp hother with
        | inl hold => exact h.reached other hold
        | inr hnew =>
          rw [List.mem_singleton.mp hnew]
          exact hreached
      · intro other hother
        obtain ⟨hreached', hbegan', hmeets'⟩ := h.underway other (List.mem_of_mem_eraseIdx hother)
        refine ⟨hreached', ?_, ?_⟩
        · show other.began ≤ (w.ended ++ [survey]).length
          rw [List.length_append]
          omega
        · show ∀ earlier ∈ (w.ended ++ [survey]).take other.began, _
          rw [htake _ hbegan']
          exact hmeets'
      · intro other hother
        have hboth : other.began ≤ w.ended.length ∧
            ∀ earlier ∈ w.ended.take other.began, earlier.UpTo other := by
          cases List.mem_append.mp hother with
          | inl hold => exact h.ended other hold
          | inr hnew =>
            rw [List.mem_singleton.mp hnew]
            exact ⟨hbegan, fun earlier hearlier ↦ (hmeets earlier hearlier).upTo hall⟩
        refine ⟨?_, ?_⟩
        · show other.began ≤ (w.ended ++ [survey]).length
          rw [List.length_append]
          omega
        · show ∀ earlier ∈ (w.ended ++ [survey]).take other.began, _
          rw [htake _ hboth.1]
          exact hboth.2
    · cases hw'
  · cases hw'

theorem kept_started {init : σ → Prop} (h : Started init w) : w.Kept places := by
  obtain ⟨_, hunderway, hended⟩ := h
  refine ⟨?_, ?_, ?_⟩
  · rw [hended]
    exact fun _ hmem ↦ absurd hmem List.not_mem_nil
  · rw [hunderway]
    exact fun _ hmem ↦ absurd hmem List.not_mem_nil
  · rw [hended]
    exact fun _ hmem ↦ absurd hmem List.not_mem_nil

theorem state_of_look {w' : Surveyed σ ι} {i : Nat} (h : w.look places i = some w') :
    w'.state = w.state := by
  unfold Surveyed.look at h
  split at h
  · obtain ⟨_, _, hset⟩ := Option.map_eq_some_iff.mp h
    rw [← hset]
  · cases h

theorem state_of_finish {w' : Surveyed σ ι} {i : Nat} (h : w.finish places i = some w') :
    w'.state = w.state := by
  unfold Surveyed.finish at h
  repeat' split at h
  · rw [← Option.some.inj h]
  · cases h
  · cases h

variable {move : σ → α → Option σ} {ok : σ → α → Prop} {init I : σ → Prop}

theorem Kept.step (hkept : w.Kept places) (hinv : I w.state)
    (hmove : ∀ s a s', I s → ok s a → move s a = some s' → I s' ∧ Onward places s s')
    {a : Action α} {w' : Surveyed σ ι} (hok : allows ok w a)
    (hw' : w.step move places a = some w') : I w'.state ∧ w'.Kept places := by
  cases a with
  | move a =>
    obtain ⟨s', hs', heq⟩ := Option.map_eq_some_iff.mp hw'
    obtain ⟨hinv', honward⟩ := hmove _ _ _ hinv hok hs'
    rw [← heq]
    exact ⟨hinv', hkept.move honward⟩
  | begin =>
    rw [← Option.some.inj hw']
    exact ⟨hinv, hkept.begin⟩
  | look i => exact ⟨state_of_look hw' ▸ hinv, hkept.look hw'⟩
  | finish i => exact ⟨state_of_finish hw' ▸ hinv, hkept.finish hw'⟩

-- If no allowed step moves an item back, every survey is up to those that had ended before it.
theorem ended_upTo (hinit : ∀ s, init s → I s)
    (hmove : ∀ s a s', I s → ok s a → move s a = some s' → I s' ∧ Onward places s s')
    (h : Reach (step move places) (allows ok) (Started init) w) :
    ∀ survey ∈ w.ended, ∀ earlier ∈ w.ended.take survey.began, earlier.UpTo survey := by
  have hstart : ∀ w : Surveyed σ ι, Started init w → I w.state ∧ w.Kept places :=
    fun w hw ↦ ⟨hinit w.state hw.1, kept_started hw⟩
  have hboth : I w.state ∧ w.Kept places :=
    h.invariant (I := fun w ↦ I w.state ∧ w.Kept places) hstart
      (fun _ _ _ hinv hok hw' ↦ hinv.2.step hinv.1 hmove hok hw')
  exact fun survey hsurvey ↦ (hboth.2.ended survey hsurvey).2

end Surveyed

end Lib
