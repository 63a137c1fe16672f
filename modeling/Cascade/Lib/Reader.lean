import Mathlib.Data.List.TakeWhile

/-!
# Reading values off a text

A reader takes a value off the front of a text, and leaves the text as it was when it fails.  `Reads P`
says of a reader that it takes characters with the property `P` only.  A text can also be split at a
separator.
-/

namespace Lib

/-! ## Splitting a text -/

/-- The parts of a text that is searched for the separator from the left.  The first `skip` characters
belong to a separator already found. -/
def splitFrom (sep : List Char) : Nat → List Char → List (List Char)
  | _, [] => [[]]
  | skip + 1, _ :: s => splitFrom sep skip s
  | 0, c :: s =>
    if sep <+: c :: s then [] :: splitFrom sep (sep.length - 1) s
    else (splitFrom sep 0 s).modifyHead (c :: ·)

/-- As `str::split`, for a separator that is not empty. -/
def split (sep s : List Char) : List (List Char) := splitFrom sep 0 s

section

variable {sep s before rest : List Char} {c : Char}

theorem splitFrom_ne_nil (skip : Nat) : splitFrom sep skip s ≠ [] := by
  induction s generalizing skip with
  | nil => simp [splitFrom]
  | cons c s ih =>
    cases skip with
    | succ skip => exact ih skip
    | zero =>
      unfold splitFrom
      split
      · simp
      · simp [ih 0]

theorem splitFrom_append : splitFrom sep before.length (before ++ rest) = splitFrom sep 0 rest := by
  induction before with
  | nil => rfl
  | cons c before ih => exact ih

theorem split_cons_of_no_sep (h : ¬sep <+: c :: s) :
    split sep (c :: s) = (split sep s).modifyHead (c :: ·) := by
  unfold split
  rw [splitFrom, if_neg h]

theorem split_sep_append (hsep : sep ≠ []) : split sep (sep ++ s) = [] :: split sep s := by
  cases sep with
  | nil => exact absurd rfl hsep
  | cons c sep =>
    have hhere : c :: sep <+: c :: (sep ++ s) := List.prefix_append (c :: sep) s
    unfold split
    rw [List.cons_append, splitFrom, if_pos hhere]
    exact congrArg _ splitFrom_append

theorem split_of_not_infix (h : ¬sep <:+: s) : split sep s = [s] := by
  induction s with
  | nil => rfl
  | cons c s ih =>
    have htail : ¬sep <:+: s := fun hwithin ↦ h (List.infix_cons hwithin)
    rw [split_cons_of_no_sep (fun hhere ↦ h hhere.isInfix), ih htail]
    rfl

-- The first separator ends the first part.
theorem split_append (h : c ∉ before) :
    split (c :: sep) (before ++ (c :: sep) ++ rest) = before :: split (c :: sep) rest := by
  induction before with
  | nil => exact split_sep_append (List.cons_ne_nil c sep)
  | cons d before ih =>
    have hne : c ≠ d := fun heq ↦ h (heq ▸ List.mem_cons_self)
    have hnot : ¬c :: sep <+: d :: (before ++ (c :: sep) ++ rest) :=
      fun hhere ↦ hne (List.cons_prefix_cons.mp hhere).1
    rw [List.cons_append, List.cons_append, split_cons_of_no_sep hnot,
      ih (fun hmem ↦ h (List.mem_cons_of_mem d hmem))]
    rfl

-- A text of one part has no separator.
theorem eq_and_not_infix_of_split (hsep : sep ≠ []) {part : List Char} (h : split sep s = [part]) :
    part = s ∧ ¬sep <:+: s := by
  induction s generalizing part with
  | nil =>
    cases h
    exact ⟨rfl, fun hwithin ↦ hsep (List.infix_nil.mp hwithin)⟩
  | cons c s ih =>
    by_cases hhere : sep <+: c :: s
    · obtain ⟨rest, hrest⟩ := hhere
      rw [← hrest, split_sep_append hsep] at h
      exact absurd (List.cons.inj h).2 (splitFrom_ne_nil 0)
    · rw [split_cons_of_no_sep hhere] at h
      cases hparts : split sep s with
      | nil => exact absurd hparts (splitFrom_ne_nil 0)
      | cons first parts =>
        rw [hparts] at h
        cases h
        obtain ⟨rfl, htail⟩ := ih hparts
        refine ⟨rfl, fun hwithin ↦ ?_⟩
        rcases List.infix_cons_iff.mp hwithin with hhead | htail'
        · exact hhere hhead
        · exact htail htail'

end

abbrev Reader (α : Type) := StateT (List Char) Option α

namespace Reader

/-- The reader has to take the whole text. -/
def parseWith {α : Type} (p : Reader α) (s : List Char) : Option α :=
  match p s with
  | some (a, []) => some a
  | _ => none

def orElse {α : Type} (p q : Reader α) : Reader α := fun s ↦ (p s).or (q s)

def givenChar (target : Char) : Reader Unit
  | [] => none
  | c :: s => if c = target then some ((), s) else none

def toDigit (radix : Nat) (c : Char) : Option Nat :=
  let digit :=
    if '0' ≤ c ∧ c ≤ '9' then some (c.toNat - '0'.toNat)
    else if 'a' ≤ c ∧ c ≤ 'f' then some (c.toNat - 'a'.toNat + 10)
    else if 'A' ≤ c ∧ c ≤ 'F' then some (c.toNat - 'A'.toNat + 10)
    else none
  digit.filter (fun n ↦ decide (n < radix))

/-- A number below `bound`, which ends before the first character that is no digit.  It fails when
there are no digits or more than `maxDigits`, or for a leading zero unless that is allowed. -/
def number (radix : Nat) (maxDigits : Option Nat) (allowZeroPrefix : Bool) (bound : Nat) :
    Reader Nat := fun s ↦
  let digits := s.takeWhile (fun c ↦ (toDigit radix c).isSome)
  let value := (digits.filterMap (toDigit radix)).foldl (fun n digit ↦ n * radix + digit) 0
  if digits = [] ∨ maxDigits.any (fun n ↦ decide (n < digits.length)) = true ∨
      (allowZeroPrefix = false ∧ digits.head? = some '0' ∧ 1 < digits.length) ∨ bound ≤ value then
    none
  else some (value, s.dropWhile (fun c ↦ (toDigit radix c).isSome))

section

variable {α β : Type} {P : Char → Prop} {p q : Reader α} {s rest : List Char}

theorem bind_eq_some {f : α → Reader β} {b : β} :
    (p >>= f) s = some (b, rest) ↔ ∃ a t, p s = some (a, t) ∧ f a t = some (b, rest) := by
  show (p s).bind (fun r ↦ f r.1 r.2) = some (b, rest) ↔ _
  rw [Option.bind_eq_some_iff]
  constructor
  · intro h
    obtain ⟨⟨a, t⟩, hp, hf⟩ := h
    exact ⟨a, t, hp, hf⟩
  · intro h
    obtain ⟨a, t, hp, hf⟩ := h
    exact ⟨(a, t), hp, hf⟩

theorem bind_of_none {f : α → Reader β} (h : p s = none) : (p >>= f) s = none := by
  show (p s).bind (fun r ↦ f r.1 r.2) = none
  rw [h]
  rfl

theorem bind_of_some {f : α → Reader β} {a : α} (h : p s = some (a, rest)) :
    (p >>= f) s = f a rest := by
  show (p s).bind (fun r ↦ f r.1 r.2) = f a rest
  rw [h]
  rfl

theorem pure_eq_some {a b : α} : (pure a : Reader α) s = some (b, rest) ↔ a = b ∧ s = rest := by
  show some (a, s) = some (b, rest) ↔ _
  simp

theorem parseWith_eq_some {a : α} : parseWith p s = some a ↔ p s = some (a, []) := by
  unfold parseWith
  constructor
  · intro h
    split at h
    next hp =>
      cases h
      exact hp
    · cases h
  · intro h
    rw [h]

theorem givenChar_eq_some {c : Char} : givenChar c s = some ((), rest) ↔ s = c :: rest := by
  cases s with
  | nil => simp [givenChar]
  | cons d s =>
    unfold givenChar
    by_cases hd : d = c
    · simp [hd]
    · simp [hd]

/-- The reader takes such characters only. -/
def Reads (P : Char → Prop) (p : Reader α) : Prop :=
  ∀ s a rest, p s = some (a, rest) → ∃ before, s = before ++ rest ∧ ∀ c ∈ before, P c

namespace Reads

theorem pure (a : α) : Reads P (pure a : Reader α) := by
  intro s b rest h
  exact ⟨[], (pure_eq_some.mp h).2, fun c hc ↦ by cases hc⟩

theorem bind {f : α → Reader β} (hp : Reads P p) (hf : ∀ a, Reads P (f a)) :
    Reads P (p >>= f) := by
  intro s b rest h
  obtain ⟨a, t, ha, hb⟩ := bind_eq_some.mp h
  obtain ⟨before, rfl, hbefore⟩ := hp s a t ha
  obtain ⟨between, rfl, hbetween⟩ := hf a t b rest hb
  refine ⟨before ++ between, (List.append_assoc before between rest).symm, ?_⟩
  intro c hc
  rcases List.mem_append.mp hc with hc | hc
  · exact hbefore c hc
  · exact hbetween c hc

theorem orElse (hp : Reads P p) (hq : Reads P q) : Reads P (Reader.orElse p q) := by
  intro s a rest h
  rcases Option.or_eq_some_iff.mp h with h | ⟨-, h⟩
  · exact hp s a rest h
  · exact hq s a rest h

theorem givenChar {c : Char} (hc : P c) : Reads P (Reader.givenChar c) := by
  intro s a rest h
  refine ⟨[c], givenChar_eq_some.mp h, ?_⟩
  intro d hd
  rw [List.mem_singleton.mp hd]
  exact hc

theorem number {radix bound : Nat} {maxDigits : Option Nat} {allowZeroPrefix : Bool}
    (hP : ∀ c, (toDigit radix c).isSome = true → P c) :
    Reads P (Reader.number radix maxDigits allowZeroPrefix bound) := by
  intro s a rest h
  simp only [Reader.number] at h
  split at h
  · cases h
  · cases h
    refine ⟨_, (List.takeWhile_append_dropWhile).symm, ?_⟩
    intro c hc
    exact hP c (List.mem_takeWhile_imp (p := fun c ↦ (toDigit radix c).isSome) hc)

-- A text that is read to the end has such characters only.
theorem of_parseWith (hp : Reads P p) {a : α} (h : parseWith p s = some a) : ∀ c ∈ s, P c := by
  obtain ⟨before, heq, hbefore⟩ := hp s a [] (parseWith_eq_some.mp h)
  rw [List.append_nil] at heq
  rw [heq]
  exact hbefore

end Reads

end

end Reader

end Lib
