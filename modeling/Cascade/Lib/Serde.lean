import Cascade.Lib.HashMap

/-!
# Serialization by declaration

Values are serialized as trees, in the shapes that the derive macros of `serde` give them.  A `Codec`
pairs a serializer, which may fail, with a deserializer that reads back whatever the serializer has
written; structures are put together from their `Fields`, and enumerations from their `Variant`s.
-/

namespace Lib

namespace Serde

inductive Value
  | null
  | bool (b : Bool)
  | number (n : Nat)
  | string (s : String)
  | array (values : List Value)
  | object (entries : List (String × Value))

abbrev Entries := List (String × Value)

structure Codec (T : Type) where
  encode : T → Option Value
  decode : Value → Option T
  decode_encode : ∀ t v, encode t = some v → decode v = some t

namespace Codec

variable {T A B : Type}

/-- Every value can be serialized. -/
class Total (c : Codec T) : Prop where
  isSome_encode : ∀ t, (c.encode t).isSome = true

/-- No value is serialized as `null`, which is kept for `None`. -/
class NotNull (c : Codec T) : Prop where
  encode_ne : ∀ t, c.encode t ≠ some .null

attribute [simp] Total.isSome_encode

/-! ## Leaves -/

/-- A type whose values are written as texts. -/
def ofText (write : T → String) (read : String → Option T) (h : ∀ t, read (write t) = some t) :
    Codec T where
  encode t := some (.string (write t))
  decode
    | .string s => read s
    | _ => none
  decode_encode := by
    intro t v hv
    cases hv
    exact h t

instance {write : T → String} {read : String → Option T} {h : ∀ t, read (write t) = some t} :
    Total (ofText write read h) := ⟨fun _ ↦ rfl⟩

instance {write : T → String} {read : String → Option T} {h : ∀ t, read (write t) = some t} :
    NotNull (ofText write read h) := ⟨fun _ hv ↦ by cases hv⟩

abbrev string : Codec String := ofText id some (fun _ ↦ rfl)

def bool : Codec Bool where
  encode b := some (.bool b)
  decode
    | .bool b => some b
    | _ => none
  decode_encode := by
    intro b v hv
    cases hv
    rfl

instance : Total bool := ⟨fun _ ↦ rfl⟩

instance : NotNull bool := ⟨fun _ hv ↦ by cases hv⟩

/-- An integer type within the natural numbers. -/
def ofNumber (toNat : T → Nat) (ofNat : Nat → Option T) (h : ∀ t, ofNat (toNat t) = some t) :
    Codec T where
  encode t := some (.number (toNat t))
  decode
    | .number n => ofNat n
    | _ => none
  decode_encode := by
    intro t v hv
    cases hv
    exact h t

instance {toNat : T → Nat} {ofNat : Nat → Option T} {h : ∀ t, ofNat (toNat t) = some t} :
    Total (ofNumber toNat ofNat h) := ⟨fun _ ↦ rfl⟩

def u8 : Codec UInt8 :=
  ofNumber UInt8.toNat (fun n ↦ if n < UInt8.size then some (UInt8.ofNat n) else none)
    (fun t ↦ by simp [t.toNat_lt_size])

instance : Total u8 := inferInstanceAs (Total (ofNumber _ _ _))

def u32 : Codec UInt32 :=
  ofNumber UInt32.toNat (fun n ↦ if n < UInt32.size then some (UInt32.ofNat n) else none)
    (fun t ↦ by simp [t.toNat_lt_size])

def u64 : Codec UInt64 :=
  ofNumber UInt64.toNat (fun n ↦ if n < UInt64.size then some (UInt64.ofNat n) else none)
    (fun t ↦ by simp [t.toNat_lt_size])

instance : Total u64 := inferInstanceAs (Total (ofNumber _ _ _))

/-! ## Other shapes -/

/-- A type that is serialized as another one. -/
def iso (c : Codec A) (repr : T → A) (ofRepr : A → T) (h : ∀ t, ofRepr (repr t) = t) : Codec T where
  encode t := c.encode (repr t)
  decode v := (c.decode v).map ofRepr
  decode_encode := by
    intro t v hv
    rw [c.decode_encode (repr t) v hv, Option.map_some, h]

instance {c : Codec A} [Total c] {repr : T → A} {ofRepr : A → T}
    {h : ∀ t, ofRepr (repr t) = t} :
    Total (iso c repr ofRepr h) := ⟨fun t ↦ Total.isSome_encode (repr t)⟩

instance {c : Codec A} [NotNull c] {repr : T → A} {ofRepr : A → T}
    {h : ∀ t, ofRepr (repr t) = t} :
    NotNull (iso c repr ofRepr h) := ⟨fun t ↦ NotNull.encode_ne (repr t)⟩

def option (c : Codec T) [NotNull c] : Codec (Option T) where
  encode
    | none => some .null
    | some t => c.encode t
  decode
    | .null => some none
    | v => (c.decode v).map some
  decode_encode := by
    intro t v hv
    cases t with
    | none =>
      cases hv
      rfl
    | some t =>
      cases v with
      | null => exact absurd hv (NotNull.encode_ne t)
      | _ =>
        simp only [c.decode_encode t _ hv]
        rfl

instance {c : Codec T} [NotNull c] [Total c] : Total (option c) where
  isSome_encode t := by
    cases t with
    | none => rfl
    | some t => exact Total.isSome_encode t

/-- A tuple. -/
def pair (a : Codec A) (b : Codec B) : Codec (A × B) where
  encode t := do
    let x ← a.encode t.1
    let y ← b.encode t.2
    some (.array [x, y])
  decode
    | .array [x, y] => do
      let s ← a.decode x
      let t ← b.decode y
      some (s, t)
    | _ => none
  decode_encode := by
    intro t v hv
    obtain ⟨x, hx, hv⟩ := Option.bind_eq_some_iff.mp hv
    obtain ⟨y, hy, hv⟩ := Option.bind_eq_some_iff.mp hv
    cases hv
    simp only [a.decode_encode t.1 x hx, b.decode_encode t.2 y hy]
    rfl

instance {a : Codec A} {b : Codec B} : NotNull (pair a b) where
  encode_ne t hv := by
    obtain ⟨x, -, hv⟩ := Option.bind_eq_some_iff.mp hv
    obtain ⟨y, -, hv⟩ := Option.bind_eq_some_iff.mp hv
    cases hv

theorem mapM_inverse {f : A → Option B} {g : B → Option A} (h : ∀ a b, f a = some b → g b = some a)
    {as : List A} {bs : List B} (hmap : as.mapM f = some bs) : bs.mapM g = some as := by
  induction as generalizing bs with
  | nil =>
    cases hmap
    rfl
  | cons a as ih =>
    rw [List.mapM_cons] at hmap
    obtain ⟨b, hb, hmap⟩ := Option.bind_eq_some_iff.mp hmap
    obtain ⟨bs', hbs, hmap⟩ := Option.bind_eq_some_iff.mp hmap
    cases hmap
    rw [List.mapM_cons, h a b hb, ih hbs]
    rfl

theorem isSome_mapM {f : A → Option B} (h : ∀ a, (f a).isSome = true) (as : List A) :
    (as.mapM f).isSome = true := by
  induction as with
  | nil => rfl
  | cons a as ih =>
    obtain ⟨b, hb⟩ := Option.isSome_iff_exists.mp (h a)
    obtain ⟨bs, hbs⟩ := Option.isSome_iff_exists.mp ih
    rw [List.mapM_cons, hb, hbs]
    rfl

def list (c : Codec T) : Codec (List T) where
  encode ts := (ts.mapM c.encode).map Value.array
  decode
    | .array values => values.mapM c.decode
    | _ => none
  decode_encode := by
    intro ts v hv
    obtain ⟨values, hvalues, rfl⟩ := Option.map_eq_some_iff.mp hv
    exact mapM_inverse c.decode_encode hvalues

instance {c : Codec T} [Total c] : Total (list c) where
  isSome_encode ts := by
    show ((ts.mapM c.encode).map Value.array).isSome = true
    rw [Option.isSome_map]
    exact isSome_mapM Total.isSome_encode ts

instance {c : Codec T} : NotNull (list c) where
  encode_ne ts hv := by
    obtain ⟨values, -, hv⟩ := Option.map_eq_some_iff.mp hv
    cases hv

abbrev set [DecidableEq T] (c : Codec T) : Codec (HashSet T) :=
  iso (list c) AList.keys HashMap.ofKeys HashMap.ofKeys_keys

def encodeEntry (c : Codec T) (e : Sigma fun _ : String ↦ T) : Option (String × Value) :=
  (c.encode e.2).map (fun v ↦ (e.1, v))

def decodeEntry (c : Codec T) (e : String × Value) : Option (Sigma fun _ : String ↦ T) :=
  (c.decode e.2).map (Sigma.mk e.1)

theorem decodeEntry_encodeEntry (c : Codec T) (e : Sigma fun _ : String ↦ T) (e' : String × Value)
    (h : c.encodeEntry e = some e') : c.decodeEntry e' = some e := by
  obtain ⟨v, hv, rfl⟩ := Option.map_eq_some_iff.mp h
  simp only [decodeEntry, c.decode_encode e.2 v hv, Option.map_some]

/-- A map whose keys are texts. -/
def map (c : Codec T) : Codec (HashMap String T) where
  encode m := (m.entries.mapM c.encodeEntry).map Value.object
  decode
    | .object entries => (entries.mapM c.decodeEntry).map HashMap.ofEntries
    | _ => none
  decode_encode := by
    intro m v hv
    obtain ⟨entries, hentries, rfl⟩ := Option.map_eq_some_iff.mp hv
    have hdecode := mapM_inverse c.decodeEntry_encodeEntry hentries
    simp only [hdecode, Option.map_some, HashMap.ofEntries_entries]

instance {c : Codec T} [Total c] : Total (map c) where
  isSome_encode m := by
    show ((m.entries.mapM c.encodeEntry).map Value.object).isSome = true
    rw [Option.isSome_map]
    apply isSome_mapM
    intro e
    rw [encodeEntry, Option.isSome_map]
    exact Total.isSome_encode e.2

/-- A map whose keys are written as texts. -/
def mapBy {K : Type} [DecidableEq K] (write : K → String) (read : String → Option K)
    (h : ∀ k, read (write k) = some k) (c : Codec T) : Codec (HashMap K T) where
  encode m := (m.entries.mapM (fun e ↦ c.encodeEntry ⟨write e.1, e.2⟩)).map Value.object
  decode
    | .object entries =>
      (entries.mapM (fun e ↦ (c.decodeEntry e).bind (fun e ↦
        (read e.1).map (fun k ↦ (⟨k, e.2⟩ : Sigma fun _ : K ↦ T))))).map HashMap.ofEntries
    | _ => none
  decode_encode := by
    intro m v hv
    obtain ⟨entries, hentries, rfl⟩ := Option.map_eq_some_iff.mp hv
    have hdecode := mapM_inverse (g := fun e ↦ (c.decodeEntry e).bind (fun e ↦
      (read e.1).map (fun k ↦ (⟨k, e.2⟩ : Sigma fun _ : K ↦ T)))) (by
        intro e e' he
        simp only [c.decodeEntry_encodeEntry _ e' he, Option.bind_some, h, Option.map_some])
        hentries
    simp only [hdecode, Option.map_some, HashMap.ofEntries_entries]

instance {K : Type} [DecidableEq K] {write : K → String} {read : String → Option K}
    {h : ∀ k, read (write k) = some k} {c : Codec T} [Total c] : Total (mapBy write read h c) where
  isSome_encode m := by
    unfold mapBy
    rw [Option.isSome_map]
    apply isSome_mapM
    intro e
    rw [encodeEntry, Option.isSome_map]
    exact Total.isSome_encode e.2

end Codec

/-! ## Structures -/

/-- The fields of a structure: their names in order, and how they are written and read.  A field is
found by its name, whatever else there is. -/
structure Fields (T : Type) where
  names : List String
  encode : T → Option Entries
  decode : Entries → Option T
  nodup : names.Nodup
  names_encode : ∀ t es, encode t = some es → es.map Prod.fst = names
  decode_encode : ∀ t es all, encode t = some es →
    (∀ name ∈ names, all.lookup name = es.lookup name) → decode all = some t

namespace Fields

variable {T A B : Type}

/-- Every value of the structure can be serialized. -/
class Total (f : Fields T) : Prop where
  isSome_encode : ∀ t, (f.encode t).isSome = true

def empty : Fields Unit where
  names := []
  encode _ := some []
  decode _ := some ()
  nodup := List.nodup_nil
  names_encode := by
    intro t es hes
    cases hes
    rfl
  decode_encode := fun _ _ _ _ _ ↦ rfl

instance : Total empty := ⟨fun _ ↦ rfl⟩

def field (name : String) (c : Codec T) : Fields T where
  names := [name]
  encode t := (c.encode t).map (fun v ↦ [(name, v)])
  decode all := (all.lookup name).bind c.decode
  nodup := List.nodup_singleton name
  names_encode := by
    intro t es hes
    obtain ⟨v, -, rfl⟩ := Option.map_eq_some_iff.mp hes
    rfl
  decode_encode := by
    intro t es all hes hall
    obtain ⟨v, hv, rfl⟩ := Option.map_eq_some_iff.mp hes
    rw [hall name List.mem_cons_self, List.lookup_cons_self]
    exact c.decode_encode t v hv

/-- A field that may be missing. -/
def optional (name : String) (c : Codec T) [Codec.NotNull c] : Fields (Option T) where
  names := [name]
  encode t := (c.option.encode t).map (fun v ↦ [(name, v)])
  decode all := (all.lookup name).elim (some none) c.option.decode
  nodup := List.nodup_singleton name
  names_encode := by
    intro t es hes
    obtain ⟨v, -, rfl⟩ := Option.map_eq_some_iff.mp hes
    rfl
  decode_encode := by
    intro t es all hes hall
    obtain ⟨v, hv, rfl⟩ := Option.map_eq_some_iff.mp hes
    rw [hall name List.mem_cons_self, List.lookup_cons_self]
    exact c.option.decode_encode t v hv

@[simp] theorem isSome_field (name : String) (c : Codec T) (t : T) :
    ((field name c).encode t).isSome = (c.encode t).isSome := Option.isSome_map

@[simp] theorem isSome_optional (name : String) (c : Codec T) [Codec.NotNull c] (t : Option T) :
    ((optional name c).encode t).isSome = (c.option.encode t).isSome := Option.isSome_map

instance {name : String} {c : Codec T} [Codec.Total c] : Total (field name c) where
  isSome_encode t := by
    rw [isSome_field]
    exact Codec.Total.isSome_encode t

instance {name : String} {c : Codec T} [Codec.NotNull c] [Codec.Total c] :
    Total (optional name c) where
  isSome_encode t := by
    rw [isSome_optional]
    exact Codec.Total.isSome_encode t

theorem lookup_eq_none {es : Entries} {name : String} (h : name ∉ es.map Prod.fst) :
    es.lookup name = none := by
  apply List.lookup_eq_none_iff.mpr
  intro e he
  apply bne_iff_ne.mpr
  rintro rfl
  exact h (List.mem_map_of_mem he)

theorem lookup_isSome {es : Entries} {name : String} (h : name ∈ es.map Prod.fst) :
    (es.lookup name).isSome = true := by
  obtain ⟨e, he, rfl⟩ := List.mem_map.mp h
  exact List.lookup_isSome_iff.mpr ⟨e, he, beq_self_eq_true e.1⟩

/-- No name is in both lists, which can be computed. -/
structure Apart (names names' : List String) : Prop where
  all : names.all (fun name ↦ !names'.contains name) = true

theorem Apart.not_mem {names names' : List String} (h : Apart names names') {name : String}
    (hname : name ∈ names) : name ∉ names' := by
  have hnot := List.all_eq_true.mp h.all name hname
  simpa using hnot

/-- Two groups of fields with different names. -/
def and (f : Fields A) (g : Fields B) (h : Apart f.names g.names := by exact ⟨rfl⟩) :
    Fields (A × B) where
  names := f.names ++ g.names
  encode t := do
    let es ← f.encode t.1
    let es' ← g.encode t.2
    some (es ++ es')
  decode all := do
    let a ← f.decode all
    let b ← g.decode all
    some (a, b)
  nodup := by
    apply List.nodup_append.mpr ⟨f.nodup, g.nodup, ?_⟩
    intro name hname name' hname' heq
    exact h.not_mem hname (heq ▸ hname')
  names_encode := by
    intro t es hes
    obtain ⟨es1, hes1, hes⟩ := Option.bind_eq_some_iff.mp hes
    obtain ⟨es2, hes2, hes⟩ := Option.bind_eq_some_iff.mp hes
    cases hes
    rw [List.map_append, f.names_encode t.1 es1 hes1, g.names_encode t.2 es2 hes2]
  decode_encode := by
    intro t es all hes hall
    obtain ⟨es1, hes1, hes⟩ := Option.bind_eq_some_iff.mp hes
    obtain ⟨es2, hes2, hes⟩ := Option.bind_eq_some_iff.mp hes
    cases hes
    have hfirst : f.decode all = some t.1 := by
      apply f.decode_encode t.1 es1 all hes1
      intro name hname
      have hsome : (es1.lookup name).isSome = true :=
        lookup_isSome (f.names_encode t.1 es1 hes1 ▸ hname)
      rw [hall name (List.mem_append_left _ hname), List.lookup_append, Option.or_of_isSome hsome]
    have hsecond : g.decode all = some t.2 := by
      apply g.decode_encode t.2 es2 all hes2
      intro name hname
      have hnone : es1.lookup name = none := by
        apply lookup_eq_none
        rw [f.names_encode t.1 es1 hes1]
        exact fun hmem ↦ h.not_mem hmem hname
      rw [hall name (List.mem_append_right _ hname), List.lookup_append, hnone, Option.none_or]
    rw [hfirst, hsecond]
    rfl

@[simp] theorem isSome_and (f : Fields A) (g : Fields B)
    (h : Apart f.names g.names) (t : A × B) :
    ((f.and g h).encode t).isSome = ((f.encode t.1).isSome && (g.encode t.2).isSome) := by
  show ((f.encode t.1).bind (fun es ↦ (g.encode t.2).bind (fun es' ↦ some (es ++ es')))).isSome = _
  cases f.encode t.1 with
  | none => rfl
  | some es => cases g.encode t.2 <;> rfl

instance {f : Fields A} {g : Fields B} {h : Apart f.names g.names} [Total f] [Total g] :
    Total (f.and g h) where
  isSome_encode t := by
    rw [isSome_and, Total.isSome_encode t.1, Total.isSome_encode t.2]
    rfl

/-- A structure with these fields. -/
def iso (f : Fields A) (repr : T → A) (ofRepr : A → T) (h : ∀ t, ofRepr (repr t) = t) : Fields T where
  names := f.names
  encode t := f.encode (repr t)
  decode all := (f.decode all).map ofRepr
  nodup := f.nodup
  names_encode t := f.names_encode (repr t)
  decode_encode := by
    intro t es all hes hall
    rw [f.decode_encode (repr t) es all hes hall, Option.map_some, h]

@[simp] theorem isSome_iso (f : Fields A) (repr : T → A) (ofRepr : A → T)
    (h : ∀ t, ofRepr (repr t) = t) (t : T) :
    ((f.iso repr ofRepr h).encode t).isSome = (f.encode (repr t)).isSome := rfl

instance {f : Fields A} [Total f] {repr : T → A} {ofRepr : A → T}
    {h : ∀ t, ofRepr (repr t) = t} : Total (f.iso repr ofRepr h) :=
  ⟨fun t ↦ Total.isSome_encode (repr t)⟩

/-- `deny_unknown_fields`: there are no other entries than those of the fields, and none twice. -/
def decodeOnly (f : Fields T) (es : Entries) : Option T :=
  if (es.map Prod.fst).Nodup ∧ ∀ e ∈ es, e.1 ∈ f.names then f.decode es else none

theorem decodeOnly_encode (f : Fields T) {t : T} {es : Entries} (h : f.encode t = some es) :
    f.decodeOnly es = some t := by
  have hnames := f.names_encode t es h
  have honly : (es.map Prod.fst).Nodup ∧ ∀ e ∈ es, e.1 ∈ f.names := by
    rw [hnames]
    refine ⟨f.nodup, fun e he ↦ ?_⟩
    rw [← hnames]
    exact List.mem_map_of_mem he
  rw [decodeOnly, if_pos honly]
  exact f.decode_encode t es es h (fun _ _ ↦ rfl)

end Fields

namespace Codec

variable {T A : Type}

def struct (f : Fields T) : Codec T where
  encode t := (f.encode t).map Value.object
  decode
    | .object es => f.decodeOnly es
    | _ => none
  decode_encode := by
    intro t v hv
    obtain ⟨es, hes, rfl⟩ := Option.map_eq_some_iff.mp hv
    exact f.decodeOnly_encode hes

@[simp] theorem isSome_struct (f : Fields T) (t : T) :
    ((struct f).encode t).isSome = (f.encode t).isSome := Option.isSome_map

instance {f : Fields T} : NotNull (struct f) where
  encode_ne t hv := by
    obtain ⟨es, -, hv⟩ := Option.map_eq_some_iff.mp hv
    cases hv

instance {f : Fields T} [Fields.Total f] : Total (struct f) where
  isSome_encode t := by
    rw [isSome_struct]
    exact Fields.Total.isSome_encode t

end Codec

/-! ## Enumerations -/

/-- A variant with a content that is written as entries: its name, the values that it is of, and how they
are written and read. -/
structure Variant (T : Type) where
  name : String
  is : T → Bool
  encode : T → Option Entries
  decode : Entries → Option T
  decode_encode : ∀ t es, is t = true → encode t = some es → decode es = some t

namespace Variant

variable {T A : Type}

def unit (name : String) (t : T) (is : T → Bool) (h : ∀ t', is t' = true → t' = t) : Variant T where
  name := name
  is := is
  encode _ := some []
  decode _ := some t
  decode_encode := by
    intro t' es his hes
    rw [h t' his]

def struct (name : String) (f : Fields A) (content : T → Option A) (make : A → T)
    (h : ∀ t a, content t = some a → make a = t := by
      intro t a h
      cases t <;> cases h
      rfl) : Variant T where
  name := name
  is t := (content t).isSome
  encode t := (content t).bind f.encode
  decode es := (f.decodeOnly es).map make
  decode_encode := by
    intro t es his hes
    obtain ⟨a, ha, hes⟩ := Option.bind_eq_some_iff.mp hes
    rw [f.decodeOnly_encode hes, Option.map_some, h t a ha]

/-- The entries of a content that is written as an object; there is no way to add a tag to any other
content. -/
def entriesOf : Option Value → Option Entries
  | some (.object es) => some es
  | _ => none

theorem eq_of_entriesOf {v : Option Value} {es : Entries} (h : entriesOf v = some es) :
    v = some (.object es) := by
  unfold entriesOf at h
  split at h
  · cases h
    rfl
  · cases h

def newtype (name : String) (c : Codec A) (content : T → Option A) (make : A → T)
    (h : ∀ t a, content t = some a → make a = t := by
      intro t a h
      cases t <;> cases h
      rfl) : Variant T where
  name := name
  is t := (content t).isSome
  encode t := (content t).bind (fun a ↦ entriesOf (c.encode a))
  decode es := (c.decode (.object es)).map make
  decode_encode := by
    intro t es his hes
    obtain ⟨a, ha, hes⟩ := Option.bind_eq_some_iff.mp hes
    rw [c.decode_encode a _ (eq_of_entriesOf hes), Option.map_some, h t a ha]

end Variant

-- With distinct names a member is found by its name.
theorem find?_of_mem {A : Type} {name : A → String} {as : List A} (h : (as.map name).Nodup) {a : A}
    (ha : a ∈ as) : as.find? (fun b ↦ decide (name b = name a)) = some a := by
  induction as with
  | nil => cases ha
  | cons b as ih =>
    obtain ⟨hnot, hrest⟩ := List.nodup_cons.mp h
    rcases List.mem_cons.mp ha with rfl | ha
    · exact List.find?_cons_of_pos (decide_eq_true rfl)
    · have hne : decide (name b = name a) = false := by
        apply decide_eq_false
        intro heq
        rw [heq] at hnot
        exact hnot (List.mem_map_of_mem ha)
      simp only [List.find?_cons, hne]
      exact ih hrest ha

namespace Codec

variable {T : Type}

/-- An internally tagged enumeration: the name of the variant is one more entry. -/
def tagged (tag : String) (variants : List (Variant T)) (h : (variants.map Variant.name).Nodup) :
    Codec T where
  encode t := do
    let variant ← variants.find? (fun variant ↦ variant.is t)
    let es ← variant.encode t
    some (.object ((tag, .string variant.name) :: es))
  decode
    | .object es =>
      match es.lookup tag with
      | some (.string name) => do
        let variant ← variants.find? (fun variant ↦ decide (variant.name = name))
        variant.decode (es.eraseP (fun e ↦ e.1 == tag))
      | _ => none
    | _ => none
  decode_encode := by
    intro t v hv
    obtain ⟨variant, hfind, hv⟩ := Option.bind_eq_some_iff.mp hv
    obtain ⟨es, hes, hv⟩ := Option.bind_eq_some_iff.mp hv
    cases hv
    have hname := find?_of_mem h (List.mem_of_find?_eq_some hfind)
    have htag : ((tag, Value.string variant.name) :: es).eraseP (fun e ↦ e.1 == tag) = es :=
      List.eraseP_cons_of_pos (beq_self_eq_true tag)
    have his := List.find?_some (p := fun variant : Variant T ↦ variant.is t) hfind
    simp only [List.lookup_cons_self, hname, htag]
    exact variant.decode_encode t es his hes

-- A file with its version can be written exactly when its content can.
theorem isSome_version {f : Fields T} (tag name : String)
    (h : ∀ t s, some t = some s → id s = t) (hnames : [name].Nodup) (t : T) :
    ((tagged tag [.newtype name (struct f) some id h] hnames).encode t).isSome =
      (f.encode t).isSome := by
  show ((Variant.entriesOf ((struct f).encode t)).bind _).isSome = _
  show ((Variant.entriesOf ((f.encode t).map Value.object)).bind _).isSome = _
  cases f.encode t with
  | none => rfl
  | some es => rfl

/-- An enumeration of units is written as the name of the variant. -/
def units [DecidableEq T] (variants : List (String × T)) (h : (variants.map Prod.fst).Nodup) :
    Codec T where
  encode t := (variants.find? (fun variant ↦ decide (variant.2 = t))).map
    (fun variant ↦ .string variant.1)
  decode
    | .string name => (variants.find? (fun variant ↦ decide (variant.1 = name))).map Prod.snd
    | _ => none
  decode_encode := by
    intro t v hv
    obtain ⟨variant, hfind, rfl⟩ := Option.map_eq_some_iff.mp hv
    have hname := find?_of_mem h (List.mem_of_find?_eq_some hfind)
    have his := List.find?_some (p := fun variant : String × T ↦ decide (variant.2 = t)) hfind
    have heq : variant.2 = t := of_decide_eq_true his
    simp only [hname, Option.map_some, heq]

instance {tag : String} {variants : List (Variant T)} {h : (variants.map Variant.name).Nodup} :
    NotNull (tagged tag variants h) where
  encode_ne t hv := by
    obtain ⟨variant, -, hv⟩ := Option.bind_eq_some_iff.mp hv
    obtain ⟨es, -, hv⟩ := Option.bind_eq_some_iff.mp hv
    cases hv

instance [DecidableEq T] {variants : List (String × T)} {h : (variants.map Prod.fst).Nodup} :
    NotNull (units variants h) where
  encode_ne t hv := by
    obtain ⟨variant, -, hv⟩ := Option.map_eq_some_iff.mp hv
    cases hv

end Codec

end Serde

end Lib
