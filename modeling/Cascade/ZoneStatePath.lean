import Cascade.Config
import Cascade.NameDisplay

/-!
# The state files of zones

The state of a zone is loaded from and saved to a file that is named after the zone, in the directory
for such files.  The text of a name can have slashes in it, and joining a path keeps them.
-/

namespace Cascade

namespace Utf8Path

/-- `Utf8Path::join`: an absolute path replaces the base. -/
def join (base path : Utf8Path) : Utf8Path :=
  if path.chars.head? = some '/' then path
  else if base.chars = [] ∨ base.chars.getLast? = some '/' then ⟨base.chars ++ path.chars⟩
  else ⟨base.chars ++ '/' :: path.chars⟩

/-- `path` names an object in the directory `dir` itself. -/
def IsChildOf (path dir : Utf8Path) : Prop :=
  ∃ name, name ≠ ['.', '.'] ∧
    path.components = (dir.components.1, dir.components.2 ++ [name])

/-- A file name: one component of a path. -/
structure FileName (chars : List Char) : Prop where
  slash : '/' ∉ chars
  ne_nil : chars ≠ []
  ne_dot : chars ≠ ['.']
  ne_dot_dot : chars ≠ ['.', '.']

-- A component goes to the end.
theorem components_append {base : List Char} {file : List Char} (hfile : FileName file) :
    components ⟨base ++ '/' :: file⟩ =
      ((base ++ ['/']).head? == some '/',
        (components ⟨base⟩).2 ++ [file]) := by
  have hsplit : (base ++ '/' :: file).splitOn '/' = base.splitOn '/' ++ [file] := by
    rw [List.splitOn_append_cons_self, List.splitOn_eq_singleton hfile.slash]
  have hhead : (base ++ '/' :: file).head? = (base ++ ['/']).head? := by
    cases base <;> rfl
  have hkept : [file].filter (fun c ↦ c != [] && c != ['.']) = [file] := by
    simp [hfile.ne_nil, hfile.ne_dot]
  unfold components
  rw [hsplit, hhead]
  cases hparts : base.splitOn '/' with
  | nil => exact absurd hparts (List.splitOn_ne_nil _ _)
  | cons part parts =>
    cases part with
    | nil => simp [List.filter_append, hkept]
    | cons c cs => simp [List.filter_append, hkept]

-- A separator at the end has no component after it.
theorem components_separator (init : List Char) :
    components ⟨init ++ ['/']⟩ = ((init ++ ['/']).head? == some '/', (components ⟨init⟩).2) := by
  have hsplit : (init ++ ['/']).splitOn '/' = init.splitOn '/' ++ [[]] := by
    rw [List.splitOn_append_cons_self, List.splitOn_nil]
  unfold components
  rw [hsplit]
  cases hparts : init.splitOn '/' with
  | nil => exact absurd hparts (List.splitOn_ne_nil _ _)
  | cons part parts => simp

theorem components_join (base : Utf8Path) {file : List Char} (hfile : FileName file) :
    (base.join ⟨file⟩).components = (base.components.1, base.components.2 ++ [file]) := by
  obtain ⟨base⟩ := base
  have hrelative : file.head? ≠ some '/' := by
    intro h
    exact hfile.slash (List.mem_of_mem_head? h)
  unfold join
  rw [if_neg hrelative]
  by_cases hempty : base = []
  · -- the path is the file name
    subst hempty
    rw [if_pos (Or.inl rfl)]
    simp [components, List.splitOn_eq_singleton hfile.slash, hfile.ne_nil, hrelative]
  · by_cases hsep : base.getLast? = some '/'
    · -- the base ends in the separator
      obtain ⟨init, hinit⟩ : ∃ init, base = init ++ ['/'] := by
        obtain ⟨init, last, hlast⟩ := (List.eq_nil_or_concat base).resolve_left hempty
        rw [hlast, List.concat_eq_append, List.getLast?_concat] at hsep
        exact ⟨init, by rw [hlast, List.concat_eq_append, Option.some.inj hsep]⟩
      rw [if_pos (Or.inr hsep)]
      have hpath : base ++ file = init ++ '/' :: file := by
        rw [hinit, List.append_assoc]
        rfl
      show components ⟨base ++ file⟩ = _
      rw [hpath, components_append hfile, hinit, components_separator]
    · rw [if_neg (by simp [hempty, hsep])]
      have hhead : (base ++ ['/']).head? = base.head? := by
        cases base with
        | nil => exact absurd rfl hempty
        | cons c cs => rfl
      show components ⟨base ++ '/' :: file⟩ = _
      rw [components_append hfile, hhead]
      rfl

theorem FileName.of_getLast? {file : List Char} (hslash : '/' ∉ file)
    (hlast : file.getLast? = some 'b') : FileName file := by
  constructor
  · exact hslash
  · intro h
    rw [h] at hlast
    cases hlast
  · intro h
    rw [h] at hlast
    cases hlast
  · intro h
    rw [h] at hlast
    cases hlast

/-- A directory next to any other. -/
def relative : Utf8Path := ⟨['d']⟩

theorem exists_last_slash {chars : List Char} (h : '/' ∈ chars) :
    ∃ init file, chars = init ++ '/' :: file ∧ '/' ∉ file := by
  obtain ⟨back, init, hback, hnot⟩ := List.eq_append_cons_of_mem (List.mem_reverse.mpr h)
  refine ⟨init.reverse, back.reverse, ?_, by simpa using hnot⟩
  have hreverse := congrArg List.reverse hback
  simpa using hreverse

-- There is a directory below `relative`.
theorem components_below_relative {first : Char} (hdot : first ≠ '.') (hslash : first ≠ '/')
    (chars : List Char) : (components ⟨['d', '/'] ++ first :: chars⟩).2 ≠ [['d']] := by
  have hinner : ∃ part parts, (first :: chars).splitOn '/' = (first :: part) :: parts := by
    rw [List.splitOn_cons_eq_if_modifyHead, if_neg (by simpa using hslash)]
    cases hsplit : chars.splitOn '/' with
    | nil => exact absurd hsplit (List.splitOn_ne_nil _ _)
    | cons part parts => exact ⟨part, parts, rfl⟩
  obtain ⟨part, parts, hinner⟩ := hinner
  have hdir : (['d', '/'] ++ first :: chars).splitOn '/' = ['d'] :: (first :: part) :: parts := by
    have hcons := List.splitOn_append_cons_self (a := '/') ['d'] (first :: chars)
    rw [List.singleton_append] at hcons
    show ('d' :: '/' :: first :: chars).splitOn '/' = _
    rw [hcons, hinner]
    rfl
  unfold components
  rw [hdir]
  simp [hdot]

-- What comes before the last slash of a file name is a directory of its own, below `relative`.
theorem not_isChildOf_relative {first : Char} {chars : List Char} (hfirst : first ≠ '.')
    (hslash : '/' ∈ first :: chars) (hlast : (first :: chars).getLast? = some 'b') :
    ¬(relative.join ⟨first :: chars⟩).IsChildOf relative := by
  intro h
  obtain ⟨name, -, hcomponents⟩ := h
  by_cases habsolute : first = '/'
  · -- an absolute path is not below a relative one
    have hjoin : relative.join ⟨first :: chars⟩ = ⟨first :: chars⟩ := by
      rw [join, if_pos (by rw [habsolute]; rfl)]
    rw [hjoin] at hcomponents
    have htrue : (components ⟨first :: chars⟩).1 = true := by
      rw [habsolute]
      rfl
    rw [hcomponents] at htrue
    cases htrue
  · obtain ⟨init, file, hsplit, hfile⟩ := exists_last_slash hslash
    have hname : FileName file := by
      apply FileName.of_getLast? hfile
      rw [hsplit, List.getLast?_append] at hlast
      cases file with
      | nil => cases hlast
      | cons c cs => simpa using hlast
    obtain ⟨init', rfl⟩ : ∃ init', init = first :: init' := by
      cases init with
      | nil => exact absurd (List.cons.inj hsplit).1 habsolute
      | cons c cs => exact ⟨cs, by rw [(List.cons.inj hsplit).1]⟩
    have hjoin : relative.join ⟨first :: chars⟩ =
        ⟨(['d', '/'] ++ first :: init') ++ '/' :: file⟩ := by
      rw [join, if_neg (by simpa using habsolute), if_neg (by decide), hsplit]
      rfl
    rw [hjoin, components_append hname] at hcomponents
    apply components_below_relative hfirst habsolute init'
    have hsecond := congrArg Prod.snd hcomponents
    exact (List.append_inj' hsecond rfl).1

end Utf8Path

/-! ## The path of a zone -/

section

variable (d : NameDisplay)

/-- The file for the state of a zone: loading the state, saving it later and saving it at once all
use this path. -/
def zoneStatePath (zoneStateDir : Utf8Path) (name : EnteredName) : Utf8Path :=
  zoneStateDir.join ⟨d.name name ++ ['.', 'd', 'b']⟩

/-- The two zones have their files in the directory, and different files if they are different. -/
structure SeparateFiles (zoneStateDir : Utf8Path) (n m : EnteredName) : Prop where
  left : (zoneStatePath d zoneStateDir n).IsChildOf zoneStateDir
  right : (zoneStatePath d zoneStateDir m).IsChildOf zoneStateDir
  distinct : ¬n.same m →
    (zoneStatePath d zoneStateDir n == zoneStatePath d zoneStateDir m) = false

/-- No label of the name has a slash. -/
def NoSlash (name : EnteredName) : Prop := ∀ label ∈ name.labels, 47 ∉ label

theorem slash_mem_file {name : EnteredName} :
    '/' ∈ d.name name ++ ['.', 'd', 'b'] ↔ ¬NoSlash name := by
  rw [List.mem_append, d.slash_mem_name, NoSlash]
  simp

theorem fileName_of_noSlash {name : EnteredName} (h : NoSlash name) :
    Utf8Path.FileName (d.name name ++ ['.', 'd', 'b']) := by
  apply Utf8Path.FileName.of_getLast?
  · rw [slash_mem_file]
    exact not_not.mpr h
  · simp

theorem separateFiles_of_noSlash {n m : EnteredName} (hn : NoSlash n) (hm : NoSlash m)
    (zoneStateDir : Utf8Path) : SeparateFiles d zoneStateDir n m := by
  have hleft := Utf8Path.components_join zoneStateDir (fileName_of_noSlash d hn)
  have hright := Utf8Path.components_join zoneStateDir (fileName_of_noSlash d hm)
  constructor
  · exact ⟨_, (fileName_of_noSlash d hn).ne_dot_dot, hleft⟩
  · exact ⟨_, (fileName_of_noSlash d hm).ne_dot_dot, hright⟩
  · intro hne
    apply Bool.eq_false_iff.mpr
    intro heq
    apply hne
    have hcomponents : (zoneStatePath d zoneStateDir n).components =
        (zoneStatePath d zoneStateDir m).components := eq_of_beq heq
    rw [zoneStatePath, zoneStatePath, hleft, hright] at hcomponents
    have hfile := List.append_cancel_left (congrArg Prod.snd hcomponents)
    have hname := d.name_injective (List.append_cancel_right (List.cons.inj hfile).1)
    rw [hname]
    rfl

theorem noSlash_of_isChildOf {name : EnteredName}
    (h : (zoneStatePath d Utf8Path.relative name).IsChildOf Utf8Path.relative) : NoSlash name := by
  by_contra hslash
  have hmem := (slash_mem_file d).mpr hslash
  obtain ⟨labels, hvalid⟩ := name
  cases labels with
  | nil =>
    apply hslash
    intro label hlabel
    cases hlabel
  | cons l ls =>
    have hl : l ≠ [] := List.length_pos_iff.mp (hvalid.1 l List.mem_cons_self).1
    have hends := d.not_ends_label hl (d.rest ls ++ ['.', 'd', 'b'])
    have hfile : d.name ⟨l :: ls, hvalid⟩ ++ ['.', 'd', 'b'] =
        d.label l ++ (d.rest ls ++ ['.', 'd', 'b']) := List.append_assoc _ _ _
    rw [hfile] at hmem
    have hlast : (d.label l ++ (d.rest ls ++ ['.', 'd', 'b'])).getLast? = some 'b' := by simp
    unfold zoneStatePath at h
    rw [hfile] at h
    cases hchars : d.label l ++ (d.rest ls ++ ['.', 'd', 'b']) with
    | nil =>
      rw [hchars] at hlast
      cases hlast
    | cons first chars =>
      rw [hchars] at h hmem hlast hends
      apply Utf8Path.not_isChildOf_relative ?_ hmem hlast h
      intro hfirst
      apply hends
      intro c hc
      rw [← Option.some.inj hc]
      exact hfirst

/-- Two names have separate files in every directory exactly where neither has a slash. -/
theorem separateFiles_iff (n m : EnteredName) :
    (∀ zoneStateDir, SeparateFiles d zoneStateDir n m) ↔ NoSlash n ∧ NoSlash m := by
  constructor
  · intro h
    exact ⟨noSlash_of_isChildOf d (h Utf8Path.relative).left,
      noSlash_of_isChildOf d (h Utf8Path.relative).right⟩
  · intro h zoneStateDir
    exact separateFiles_of_noSlash d h.1 h.2 zoneStateDir

end

/-! ## Names with slashes -/

namespace SlashExample

def showByte (b : UInt8) : List Char :=
  if b = 32 ∨ b = 46 ∨ b = 92 then ['\\', Char.ofUInt8 b]
  else if b < 32 ∨ 127 ≤ b then
    ['\\', decimalDigit (b.toNat / 100), decimalDigit (b.toNat / 10), decimalDigit b.toNat]
  else [Char.ofUInt8 b]

theorem shown_showByte (b : UInt8) : Shown b (showByte b) := by
  unfold showByte
  by_cases hspecial : b = 32 ∨ b = 46 ∨ b = 92
  · rw [if_pos hspecial]
    apply Shown.quoted
    rcases hspecial with h | h | h <;> rw [h] <;> decide
  · rw [if_neg hspecial]
    by_cases hprintable : b < 32 ∨ 127 ≤ b
    · rw [if_pos hprintable]
      exact Shown.decimal
    · rw [if_neg hprintable]
      apply Shown.plain
      · exact fun h ↦ hspecial (Or.inr (Or.inl h))
      · exact fun h ↦ hspecial (Or.inr (Or.inr h))

/-- Spaces, dots and backslashes after a backslash, bytes that cannot be printed in decimal. -/
def display : NameDisplay where
  byte := showByte
  root := ['.']
  shown := shown_showByte
  slash := by decide
  root_text := Or.inr rfl

def zones : Utf8Path := Utf8Path.ofString "/var/zones"

/-- `x` -/
def inside : EnteredName := ⟨[[120]], by decide⟩

/-- `a.x` -/
def below : EnteredName := ⟨[[97], [120]], by decide⟩

/-- `/var/zones/x`, one label. -/
def absolute : EnteredName := ⟨[[47, 118, 97, 114, 47, 122, 111, 110, 101, 115, 47, 120]], by decide⟩

/-- `/etc/x`, one label. -/
def outside : EnteredName := ⟨[[47, 101, 116, 99, 47, 120]], by decide⟩

end SlashExample

open SlashExample in
theorem plain_names_separate : SeparateFiles display zones inside below :=
  (separateFiles_iff display inside below).mpr ⟨by unfold NoSlash; decide, by unfold NoSlash; decide⟩ zones

open SlashExample in
/-- The state of the zone `/etc/x` goes to another directory, and that of the zone `/var/zones/x` to the
file of the zone `x`. -/
theorem slash_names_not_separate :
    ¬(zoneStatePath display zones outside).IsChildOf zones ∧
      ¬absolute.same inside ∧
      (zoneStatePath display zones absolute == zoneStatePath display zones inside) = true := by
  refine ⟨?_, by decide, by decide +kernel⟩
  intro h
  obtain ⟨name, -, hcomponents⟩ := h
  have hpath : (zoneStatePath display zones outside).components =
      (true, [['e', 't', 'c'], ['x', '.', 'd', 'b']]) := by decide +kernel
  have hdir : zones.components = (true, [['v', 'a', 'r'], ['z', 'o', 'n', 'e', 's']]) := by
    decide +kernel
  rw [hpath, hdir] at hcomponents
  simp at hcomponents

end Cascade
