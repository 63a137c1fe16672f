import Cascade.Base

/-!
# Names as text

The names of files are made from the text of a zone name, as the DNS library writes it: label by
label, with a dot in between.  The library escapes some bytes of a label, at least the dot and the
backslash, and prints others as they are, the slash among them.
-/

namespace Cascade

/-- A name as it was entered, with the case of its letters. -/
structure EnteredName where
  labels : List Label
  valid : (∀ label ∈ labels, 0 < label.length ∧ label.length ≤ 63) ∧ wireLen labels ≤ 255
deriving DecidableEq

/-- Equality of DNS names. -/
def EnteredName.same (a b : EnteredName) : Prop :=
  a.labels.map (fun label ↦ label.map lowerByte) = b.labels.map (fun label ↦ label.map lowerByte)

instance (a b : EnteredName) : Decidable (a.same b) := inferInstanceAs (Decidable (_ = _))

/-- The last decimal digit of a number. -/
def decimalDigit (n : Nat) : Char := Char.ofUInt8 (UInt8.ofNat (48 + n % 10))

/-- The ways of writing a byte: as it is, after a backslash, or after a backslash in decimal. -/
inductive Shown (b : UInt8) : List Char → Prop
  | plain : b ≠ 46 → b ≠ 92 → Shown b [Char.ofUInt8 b]
  | quoted : b < 48 ∨ 57 < b → Shown b ['\\', Char.ofUInt8 b]
  | decimal : Shown b ['\\', decimalDigit (b.toNat / 100), decimalDigit (b.toNat / 10),
      decimalDigit b.toNat]

/-- `Display` of names.  The root has a text of its own. -/
structure NameDisplay where
  byte : UInt8 → List Char
  root : List Char
  shown : ∀ b, Shown b (byte b)
  slash : byte 47 = ['/']
  root_text : root = [] ∨ root = ['.']

/-! ## Reading bytes back -/

theorem ofUInt8_inj {b c : UInt8} : Char.ofUInt8 b = Char.ofUInt8 c ↔ b = c := by
  constructor
  · intro h
    have hval : b.toUInt32 = c.toUInt32 := congrArg Char.val h
    exact UInt8.toUInt32_inj.mp hval
  · intro h
    rw [h]

theorem toNat_decimalDigit (n : Nat) : (decimalDigit n).toNat = 48 + n % 10 := by
  have hdigit : n % 10 < 10 := Nat.mod_lt n (by decide)
  show (UInt8.ofNat (48 + n % 10)).toNat = 48 + n % 10
  rw [UInt8.toNat_ofNat']
  omega

theorem decimalDigit_inj {n m : Nat} (h : decimalDigit n = decimalDigit m) : n % 10 = m % 10 := by
  have hnat := congrArg Char.toNat h
  rw [toNat_decimalDigit, toNat_decimalDigit] at hnat
  omega

theorem ofUInt8_ne_decimalDigit {b : UInt8} (h : b < 48 ∨ 57 < b) (n : Nat) :
    Char.ofUInt8 b ≠ decimalDigit n := by
  intro heq
  have hnat : b.toNat = 48 + n % 10 := by
    rw [← toNat_decimalDigit n, ← heq]
    rfl
  rw [UInt8.lt_iff_toNat_lt, UInt8.lt_iff_toNat_lt] at h
  have h48 : (48 : UInt8).toNat = 48 := rfl
  have h57 : (57 : UInt8).toNat = 57 := rfl
  omega

-- No way of writing a byte is the beginning of a way of writing another one.
theorem Shown.append_inj {b c : UInt8} {s t u v : List Char} (hs : Shown b s) (ht : Shown c t)
    (h : s ++ u = t ++ v) : b = c ∧ u = v := by
  have hbackslash : ∀ {b : UInt8}, Char.ofUInt8 b = '\\' → b = 92 := by
    intro b hb
    exact ofUInt8_inj.mp hb
  cases hs with
  | plain hdot hb =>
    cases ht with
    | plain _ _ =>
      obtain ⟨hchar, hrest⟩ := List.cons.inj h
      exact ⟨ofUInt8_inj.mp hchar, hrest⟩
    | quoted _ => exact absurd (hbackslash (List.cons.inj h).1) hb
    | decimal => exact absurd (hbackslash (List.cons.inj h).1) hb
  | quoted hb =>
    cases ht with
    | plain _ hc => exact absurd (hbackslash (List.cons.inj h).1.symm) hc
    | quoted _ =>
      obtain ⟨hchar, hrest⟩ := List.cons.inj (List.cons.inj h).2
      exact ⟨ofUInt8_inj.mp hchar, hrest⟩
    | decimal =>
      exact absurd (List.cons.inj (List.cons.inj h).2).1 (ofUInt8_ne_decimalDigit hb _)
  | decimal =>
    cases ht with
    | plain _ hc => exact absurd (hbackslash (List.cons.inj h).1.symm) hc
    | quoted hc =>
      exact absurd (List.cons.inj (List.cons.inj h).2).1.symm (ofUInt8_ne_decimalDigit hc _)
    | decimal =>
      simp only [List.cons_append, List.nil_append, List.cons.injEq, true_and] at h
      obtain ⟨hhundreds, htens, hones, hrest⟩ := h
      have hbyte : b.toNat = c.toNat := by
        have h2 := decimalDigit_inj hhundreds
        have h1 := decimalDigit_inj htens
        have h0 := decimalDigit_inj hones
        have hb := b.toNat_lt
        have hc := c.toNat_lt
        omega
      exact ⟨UInt8.toNat_inj.mp hbyte, hrest⟩

-- A byte that is read starts with something else than the dot between labels.
theorem Shown.head {b : UInt8} {s : List Char} (hs : Shown b s) :
    ∃ c cs, s = c :: cs ∧ c ≠ '.' := by
  cases hs with
  | plain hdot _ =>
    refine ⟨_, _, rfl, ?_⟩
    intro h
    exact hdot (ofUInt8_inj.mp h)
  | quoted _ => exact ⟨_, _, rfl, by decide⟩
  | decimal => exact ⟨_, _, rfl, by decide⟩

theorem slash_mem_shown {b : UInt8} {s : List Char} (hs : Shown b s) (h : '/' ∈ s) : b = 47 := by
  have hslash : ∀ {b : UInt8}, '/' = Char.ofUInt8 b → b = 47 := by
    intro b hb
    exact ofUInt8_inj.mp hb.symm
  have hdigit : ∀ n, '/' ≠ decimalDigit n := by
    intro n hn
    have hnat := congrArg Char.toNat hn
    rw [toNat_decimalDigit] at hnat
    have h47 : '/'.toNat = 47 := rfl
    omega
  have hback : '/' ≠ '\\' := by decide
  cases hs with
  | plain _ _ => exact hslash (List.mem_singleton.mp h)
  | quoted _ =>
    simp only [List.mem_cons, List.not_mem_nil, or_false, hback, false_or] at h
    exact hslash h
  | decimal => simp [hback, hdigit] at h

/-! ## The text of a name -/

namespace NameDisplay

variable (d : NameDisplay)

def label (label : Label) : List Char := label.flatMap d.byte

/-- The labels after the first one, each after a dot. -/
def rest (labels : List Label) : List Char := labels.flatMap (fun label ↦ '.' :: d.label label)

def labels : List Label → List Char
  | [] => d.root
  | label :: labels => d.label label ++ d.rest labels

def name (name : EnteredName) : List Char := d.labels name.labels

/-- The text is over, or goes on with a dot. -/
def Ends (s : List Char) : Prop := ∀ c ∈ s.head?, c = '.'

theorem ends_rest (labels : List Label) : Ends (d.rest labels) := by
  cases labels with
  | nil =>
    intro c hc
    cases hc
  | cons l ls =>
    intro c hc
    exact (Option.some.inj hc).symm

theorem not_ends_label {l : Label} (hl : l ≠ []) (s : List Char) : ¬Ends (d.label l ++ s) := by
  cases l with
  | nil => exact absurd rfl hl
  | cons b bs =>
    intro h
    obtain ⟨c, cs, hbyte, hc⟩ := (d.shown b).head
    apply hc
    apply h
    rw [label, List.flatMap_cons, hbyte]
    rfl

-- By induction on the label, byte by byte.
theorem label_append_inj {l m : Label} {s t : List Char} (hs : Ends s) (ht : Ends t)
    (h : d.label l ++ s = d.label m ++ t) : l = m ∧ s = t := by
  induction l generalizing m with
  | nil =>
    cases m with
    | nil => exact ⟨rfl, h⟩
    | cons c cs =>
      exfalso
      apply d.not_ends_label (List.cons_ne_nil c cs) t
      rw [← h]
      exact hs
  | cons b bs ih =>
    cases m with
    | nil =>
      exfalso
      apply d.not_ends_label (List.cons_ne_nil b bs) s
      rw [h]
      exact ht
    | cons c cs =>
      simp only [label, List.flatMap_cons, List.append_assoc] at h
      obtain ⟨hbyte, hrest⟩ := (d.shown b).append_inj (d.shown c) h
      obtain ⟨hbytes, hend⟩ := ih hrest
      rw [hbyte, hbytes]
      exact ⟨rfl, hend⟩

theorem rest_inj {ls ms : List Label} (h : d.rest ls = d.rest ms) : ls = ms := by
  induction ls generalizing ms with
  | nil =>
    cases ms with
    | nil => rfl
    | cons m ms => cases h
  | cons l ls ih =>
    cases ms with
    | nil => cases h
    | cons m ms =>
      obtain ⟨hlabel, hrest⟩ := d.label_append_inj (d.ends_rest ls) (d.ends_rest ms)
        (List.cons.inj h).2
      rw [hlabel, ih hrest]

-- The text of the root has no first label.
theorem labels_ne_root {l : Label} (hl : l ≠ []) (ls : List Label) : d.labels (l :: ls) ≠ d.root := by
  intro h
  apply d.not_ends_label hl (d.rest ls)
  show Ends (d.labels (l :: ls))
  rw [h]
  cases d.root_text with
  | inl hroot =>
    rw [hroot]
    intro c hc
    cases hc
  | inr hroot =>
    rw [hroot]
    intro c hc
    exact (Option.some.inj hc).symm

/-- Different names have different texts. -/
theorem name_injective : Function.Injective d.name := by
  intro n m h
  obtain ⟨ls, hls⟩ := n
  obtain ⟨ms, hms⟩ := m
  rw [EnteredName.mk.injEq]
  have hne : ∀ {l : Label} {ls : List Label}, (∀ k ∈ l :: ls, 0 < k.length ∧ k.length ≤ 63) →
      l ≠ [] := by
    intro l ls hvalid
    exact List.length_pos_iff.mp (hvalid l List.mem_cons_self).1
  cases ls with
  | nil =>
    cases ms with
    | nil => rfl
    | cons m ms => exact absurd h.symm (d.labels_ne_root (hne hms.1) ms)
  | cons l ls =>
    cases ms with
    | nil => exact absurd h (d.labels_ne_root (hne hls.1) ls)
    | cons m ms =>
      obtain ⟨hlabel, hrest⟩ := d.label_append_inj (d.ends_rest ls) (d.ends_rest ms) h
      rw [hlabel, d.rest_inj hrest]

theorem slash_mem_label {l : Label} : '/' ∈ d.label l ↔ 47 ∈ l := by
  rw [label, List.mem_flatMap]
  constructor
  · intro h
    obtain ⟨b, hb, hslash⟩ := h
    rw [← slash_mem_shown (d.shown b) hslash]
    exact hb
  · intro h
    refine ⟨47, h, ?_⟩
    rw [d.slash]
    exact List.mem_singleton_self _

/-- There is a slash in the text just where there is one in a label. -/
theorem slash_mem_name {n : EnteredName} : '/' ∈ d.name n ↔ ∃ l ∈ n.labels, 47 ∈ l := by
  have hrest : ∀ ls : List Label, '/' ∈ d.rest ls ↔ ∃ l ∈ ls, 47 ∈ l := by
    intro ls
    simp [rest, List.mem_flatMap, slash_mem_label]
  unfold name
  cases n.labels with
  | nil =>
    cases d.root_text with
    | inl hroot => simp [labels, hroot]
    | inr hroot => simp [labels, hroot]
  | cons l ls => simp [labels, hrest, slash_mem_label]

end NameDisplay

end Cascade
