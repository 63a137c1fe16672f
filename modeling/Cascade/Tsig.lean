import Cascade.Center
import Cascade.Lib.Runs

/-!
# The TSIG store

Every key is held twice: as the key object the server signs with, and as the raw material that a
save writes out.  The key object is opaque; what is known of it is its name, its algorithm, and
that it is built from these and the material.
-/

namespace Cascade

open Lib

namespace Tsig

abbrev KeyName := Name

inductive Algorithm
  | Sha1
  | Sha256
  | Sha384
  | Sha512
deriving DecidableEq

/-- The parts of `domain::tsig::Key` that the store uses.  `new` fails only for a minimum MAC
length or a signing length out of range, and the store gives neither.  `generate` takes the random
bits it draws, fails when there are none, and returns a key with its material. -/
class KeyLib (Key : Type) where
  new : Algorithm → List UInt8 → KeyName → Key
  generate : Algorithm → Option (List UInt8) → KeyName → Option (Key × List UInt8)
  algorithm : Key → Algorithm
  name : Key → KeyName
  algorithm_new : ∀ alg material n, algorithm (new alg material n) = alg
  name_new : ∀ alg material n, name (new alg material n) = n
  generate_eq : ∀ alg random n key material,
    generate alg random n = some (key, material) → key = new alg material n

attribute [simp] KeyLib.algorithm_new KeyLib.name_new

/-- Zones are told apart by their address. -/
abbrev ZoneByPtr := Nat

structure TsigKey (Key : Type) where
  inner : Key
  material : List UInt8
  zones : HashSet ZoneByPtr

structure TsigStore (Key : Type) where
  map : HashMap KeyName (TsigKey Key) := ∅
  enqueuedSave : Option TaskId := none

/-- `mark_dirty`; a save that has to be enqueued becomes the task `task`. -/
def TsigStore.markDirty {Key : Type} (store : TsigStore Key) (task : TaskId) : TsigStore Key :=
  match store.enqueuedSave with
  | some _ => store
  | none => { store with enqueuedSave := some task }

@[simp] theorem markDirty_map {Key : Type} (store : TsigStore Key) (task : TaskId) :
    (store.markDirty task).map = store.map := by
  unfold TsigStore.markDirty
  split <;> rfl

variable {Key : Type} [KeyLib Key]

/-! ## The key file -/

inductive AlgSpec
  | Sha1
  | Sha256
  | Sha384
  | Sha512
deriving DecidableEq

def AlgSpec.parse : AlgSpec → Algorithm
  | .Sha1 => .Sha1
  | .Sha256 => .Sha256
  | .Sha384 => .Sha384
  | .Sha512 => .Sha512

def AlgSpec.build : Algorithm → AlgSpec
  | .Sha1 => .Sha1
  | .Sha256 => .Sha256
  | .Sha384 => .Sha384
  | .Sha512 => .Sha512

@[simp] theorem AlgSpec.parse_build (alg : Algorithm) : (AlgSpec.build alg).parse = alg := by
  cases alg <;> rfl

@[simp] theorem AlgSpec.build_parse (spec : AlgSpec) : AlgSpec.build spec.parse = spec := by
  cases spec <;> rfl

structure KeySpec where
  alg : AlgSpec
  data : List UInt8
deriving DecidableEq

namespace KeySpec

def parse (spec : KeySpec) (name : KeyName) : TsigKey Key :=
  { inner := KeyLib.new spec.alg.parse spec.data name, material := spec.data, zones := ∅ }

/-- Merges a key of the file into an existing one.  Only the key object is replaced. -/
def parseInto (spec : KeySpec) (dest : TsigKey Key) : TsigKey Key :=
  { dest with inner := KeyLib.new spec.alg.parse spec.data (KeyLib.name dest.inner) }

def build (key : TsigKey Key) : KeySpec :=
  { alg := AlgSpec.build (KeyLib.algorithm key.inner), data := key.material }

end KeySpec

structure Spec where
  map : HashMap KeyName KeySpec

namespace Spec

/-- The key under `name` in the new map. -/
def mergeKey (name : KeyName) (spec : KeySpec) : Option (TsigKey Key) → TsigKey Key × List Empty
  | some key => (spec.parseInto key, [])
  | none => (spec.parse name, [])

/-- Replaces the keys of the store by those of the file.  A key not in the file is kept if zones are
using it.  Neither assertion of the source can fire: a name is inserted once, since the names in the
file are distinct and a name in the file is no longer in the old map. -/
def parse (spec : Spec) (store : TsigStore Key) : TsigStore Key :=
  let m := HashMap.moveEach mergeKey { old := store.map, new := ∅, log := [] } spec.map.entries
  { store with
    map := HashMap.insertEach (fun _ key ↦ !key.zones.isEmpty) m.new m.old.entries }

def build (store : TsigStore Key) : Spec := { map := HashMap.mapVal (fun _ ↦ KeySpec.build) store.map }

theorem lookup_parse (spec : Spec) (store : TsigStore Key) (n : KeyName) :
    (spec.parse store).map.lookup n =
      match spec.map.lookup n with
      | some k => some (mergeKey n k (store.map.lookup n)).1
      | none => (store.map.lookup n).filter (fun key ↦ !key.zones.isEmpty) := by
  simp only [parse]
  rw [HashMap.lookup_merged _ _ spec.map.nodupKeys, ← AList.lookup]
  cases spec.map.lookup n with
  | none => rfl
  | some k => rfl

end Spec

/-! ## The operations -/

inductive ImportError
  | AlreadyExists
deriving DecidableEq

inductive GenerateError
  | AlreadyExists
  | Implementation
deriving DecidableEq

inductive RemoveError
  | NotFound
  | Used
deriving DecidableEq

/-- Replaces the secret of an existing key, or makes a key that no zone uses. -/
def putKey (inner : Key) (material : List UInt8) : Option (TsigKey Key) → TsigKey Key
  | some entry => { entry with inner, material }
  | none => { inner, material, zones := ∅ }

def importKey (store : TsigStore Key) (task : TaskId) (name : KeyName) (algorithm : Algorithm)
    (material : List UInt8) (replace : Bool) : Except ImportError Unit × TsigStore Key :=
  let key := KeyLib.new algorithm material name
  if name ∈ store.map ∧ replace = false then (.error .AlreadyExists, store)
  else
    let entry := putKey key material (store.map.lookup name)
    (.ok (), { store with map := store.map.insert name entry }.markDirty task)

def generateKey (store : TsigStore Key) (task : TaskId) (name : KeyName) (algorithm : Algorithm)
    (random : Option (List UInt8)) (replace : Bool) :
    Except GenerateError Unit × TsigStore Key :=
  match KeyLib.generate algorithm random name with
  | none => (.error .Implementation, store)
  | some (key, material) =>
    if name ∈ store.map ∧ replace = false then (.error .AlreadyExists, store)
    else
      let entry := putKey key material (store.map.lookup name)
      (.ok (), { store with map := store.map.insert name entry }.markDirty task)

def removeKey (store : TsigStore Key) (task : TaskId) (name : KeyName) :
    Except RemoveError Unit × TsigStore Key :=
  match store.map.lookup name with
  | none => (.error .NotFound, store)
  | some entry =>
    if entry.zones.isEmpty then
      (.ok (), { store with map := store.map.erase name }.markDirty task)
    else (.error .Used, store)

/-- Reloads the store from its file; `none` is a file that cannot be loaded. -/
def reload (store : TsigStore Key) (task : TaskId) : Option Spec → TsigStore Key
  | none => store
  | some spec => (spec.parse store).markDirty task

inductive Action
  | importKey (name : KeyName) (algorithm : Algorithm) (material : List UInt8) (replace : Bool)
  | generateKey (name : KeyName) (algorithm : Algorithm) (random : Option (List UInt8))
      (replace : Bool)
  | removeKey (name : KeyName)
  | reload (file : Option Spec)

/-- One operation, whose save (if it enqueues one) becomes the task `task`. -/
def apply (store : TsigStore Key) (task : TaskId) : Action → TsigStore Key
  | .importKey name algorithm material replace =>
    (importKey store task name algorithm material replace).2
  | .generateKey name algorithm random replace =>
    (generateKey store task name algorithm random replace).2
  | .removeKey name => (removeKey store task name).2
  | .reload file => reload store task file

/-- Operations in sequence.  They never block, and each may spawn a task of any number. -/
def step (store : TsigStore Key) (a : TaskId × Action) : Option (TsigStore Key) :=
  some (apply store a.1 a.2)

/-! ## Consistency of the two copies -/

/-- The key object is the one built from the material, under the name of the entry. -/
def TsigKey.Consistent (name : KeyName) (entry : TsigKey Key) : Prop :=
  entry.inner = KeyLib.new (KeyLib.algorithm entry.inner) entry.material name

def TsigStore.Consistent (store : TsigStore Key) : Prop :=
  ∀ name entry, store.map.lookup name = some entry → entry.Consistent name

/-- Where the file and the store have a key of the same name, the material is the same. -/
def SameMaterial (store : TsigStore Key) (file : Spec) : Prop :=
  ∀ name spec entry, file.map.lookup name = some spec → store.map.lookup name = some entry →
    spec.data = entry.material

theorem new_consistent (alg : Algorithm) (material : List UInt8) (name : KeyName)
    (zones : HashSet ZoneByPtr) :
    TsigKey.Consistent name { inner := (KeyLib.new alg material name : Key), material, zones } := by
  simp [TsigKey.Consistent]

theorem putKey_consistent (alg : Algorithm) (material : List UInt8) (name : KeyName)
    (old : Option (TsigKey Key)) :
    (putKey (KeyLib.new alg material name) material old).Consistent name := by
  cases old with
  | none => exact new_consistent alg material name ∅
  | some entry => exact new_consistent alg material name entry.zones

theorem insert_consistent {store : TsigStore Key} (h : store.Consistent) {name : KeyName}
    {entry : TsigKey Key} (hentry : entry.Consistent name) (task : TaskId) :
    ({ store with map := store.map.insert name entry }.markDirty task).Consistent := by
  intro n e hl
  rw [markDirty_map] at hl
  by_cases hn : n = name
  · subst hn
    rw [AList.lookup_insert] at hl
    cases hl
    exact hentry
  · rw [AList.lookup_insert_ne hn] at hl
    exact h n e hl

theorem import_consistent {store : TsigStore Key} (h : store.Consistent) (task : TaskId)
    (name : KeyName) (alg : Algorithm) (material : List UInt8) (replace : Bool) :
    (importKey store task name alg material replace).2.Consistent := by
  simp only [importKey]
  split
  · exact h
  · exact insert_consistent h (putKey_consistent alg material name _) task

theorem generate_consistent {store : TsigStore Key} (h : store.Consistent) (task : TaskId)
    (name : KeyName) (alg : Algorithm) (random : Option (List UInt8)) (replace : Bool) :
    (generateKey store task name alg random replace).2.Consistent := by
  unfold generateKey
  cases hgen : (KeyLib.generate alg random name : Option (Key × List UInt8)) with
  | none => exact h
  | some pair =>
    rcases pair with ⟨key, material⟩
    simp only
    split
    · exact h
    · rw [KeyLib.generate_eq alg random name key material hgen]
      exact insert_consistent h (putKey_consistent alg material name _) task

theorem remove_consistent {store : TsigStore Key} (h : store.Consistent) (task : TaskId)
    (name : KeyName) : (removeKey store task name).2.Consistent := by
  unfold removeKey
  cases store.map.lookup name with
  | none => exact h
  | some entry =>
    simp only
    split
    · intro n e hl
      rw [markDirty_map] at hl
      by_cases hn : n = name
      · subst hn
        simp at hl
      · rw [AList.lookup_erase_ne hn] at hl
        exact h n e hl
    · exact h

-- A reload of a file with the same material rebuilds the same keys, but for their algorithm.
theorem reload_consistent {store : TsigStore Key} (h : store.Consistent) (task : TaskId)
    {file : Spec} (hsame : SameMaterial store file) :
    (reload store task (some file)).Consistent := by
  intro n e hl
  rw [reload, markDirty_map, Spec.lookup_parse] at hl
  cases hfile : file.map.lookup n with
  | none =>
    rw [hfile] at hl
    exact h n e (Option.filter_eq_some_iff.mp hl).1
  | some spec =>
    rw [hfile] at hl
    cases hold : store.map.lookup n with
    | none =>
      rw [hold] at hl
      cases hl
      exact new_consistent spec.alg.parse spec.data n ∅
    | some entry =>
      rw [hold] at hl
      cases hl
      have hname : KeyLib.name entry.inner = n := by
        rw [h n entry hold]
        exact KeyLib.name_new _ _ _
      have hdata : spec.data = entry.material := hsame n spec entry hfile hold
      simp [TsigKey.Consistent, Spec.mergeKey, KeySpec.parseInto, hname, hdata]

/-! ## What a save and a reload keep -/

/-- The key object under a name. -/
def TsigStore.getInner (store : TsigStore Key) (name : KeyName) : Option Key :=
  (store.map.lookup name).map TsigKey.inner

/-- Saving the store and loading the file into an empty one gives every key again. -/
def RoundTrips (store : TsigStore Key) : Prop :=
  ∀ name, ((Spec.build store).parse {}).getInner name = store.getInner name

/-- Right after the file is loaded, a save writes what the file says of each of its names. -/
def WritesBack (store : TsigStore Key) (file : Spec) : Prop :=
  ∀ task name spec, file.map.lookup name = some spec →
    (Spec.build (reload store task (some file))).map.lookup name = some spec

theorem roundTrips_of_consistent {store : TsigStore Key} (h : store.Consistent) :
    RoundTrips store := by
  intro name
  unfold TsigStore.getInner
  rw [Spec.lookup_parse, Spec.build, HashMap.lookup_mapVal]
  cases hl : store.map.lookup name with
  | none => rfl
  | some entry =>
    have hentry : KeyLib.new (KeyLib.algorithm entry.inner) entry.material name = entry.inner :=
      (h name entry hl).symm
    simp [Spec.mergeKey, KeySpec.parse, KeySpec.build, hentry]

-- What a save writes for a name of the file just loaded: the algorithm of the file, and the
-- material the entry had before, if there was one.
theorem lookup_build_reload (store : TsigStore Key) (task : TaskId) (file : Spec) {name : KeyName}
    {spec : KeySpec} (hspec : file.map.lookup name = some spec) :
    (Spec.build (reload store task (some file))).map.lookup name =
      some { alg := spec.alg
             data := ((store.map.lookup name).map TsigKey.material).getD spec.data } := by
  rw [Spec.build, HashMap.lookup_mapVal, reload, markDirty_map, Spec.lookup_parse, hspec]
  cases store.map.lookup name with
  | none => simp [Spec.mergeKey, KeySpec.parse, KeySpec.build]
  | some entry => simp [Spec.mergeKey, KeySpec.parseInto, KeySpec.build]

theorem writesBack_iff (store : TsigStore Key) (file : Spec) :
    WritesBack store file ↔ SameMaterial store file := by
  refine ⟨?_, ?_⟩
  · intro h name spec entry hspec hentry
    have hbuild := h 0 name spec hspec
    rw [lookup_build_reload store 0 file hspec, hentry] at hbuild
    exact (congrArg KeySpec.data (Option.some.inj hbuild)).symm
  · intro h task name spec hspec
    rw [lookup_build_reload store task file hspec]
    cases hentry : store.map.lookup name with
    | none => rfl
    | some entry =>
      have hdata := h name spec entry hspec hentry
      simp [← hdata]

/-- A reload gives no existing key another secret. -/
def KeepsMaterial (store : TsigStore Key) : TaskId × Action → Prop
  | (_, .reload (some file)) => SameMaterial store file
  | _ => True

theorem step_consistent (store : TsigStore Key) (a : TaskId × Action) (store' : TsigStore Key)
    (h : store.Consistent) (hok : KeepsMaterial store a) (hstep : step store a = some store') :
    store'.Consistent := by
  rcases a with ⟨task, action⟩
  cases hstep
  cases action with
  | importKey name alg material replace =>
    exact import_consistent h task name alg material replace
  | generateKey name alg random replace =>
    exact generate_consistent h task name alg random replace
  | removeKey name => exact remove_consistent h task name
  | reload file =>
    cases file with
    | none => exact h
    | some file => exact reload_consistent h task hok

/-- In every run whose reloads give no existing key another secret, the store is consistent and a
save keeps every key.  From such a store, a file is written back as it was read exactly when its
reload is one of these. -/
theorem store_consistent_of_runs {store : TsigStore Key}
    (h : Reach step KeepsMaterial (fun s ↦ s = ({} : TsigStore Key)) store) :
    store.Consistent ∧ RoundTrips store ∧
      ∀ file, WritesBack store file ↔ KeepsMaterial store (0, .reload (some file)) := by
  have hcons : store.Consistent := by
    refine h.invariant ?_ step_consistent
    intro s hs name entry hl
    subst hs
    cases hl
  exact ⟨hcons, roundTrips_of_consistent hcons, writesBack_iff store⟩

/-! ## Keys that show their parts -/

/-- A key object that is nothing but its parts. -/
structure PlainKey where
  alg : Algorithm
  secret : List UInt8
  keyName : KeyName
deriving DecidableEq

instance : KeyLib PlainKey where
  new := PlainKey.mk
  generate alg random n := random.map (fun bits ↦ (⟨alg, bits, n⟩, bits))
  algorithm := PlainKey.alg
  name := PlainKey.keyName
  algorithm_new _ _ _ := rfl
  name_new _ _ _ := rfl
  generate_eq := by
    intro alg random n key material h
    cases random with
    | none => cases h
    | some bits =>
      cases h
      rfl

namespace ReloadExample

def key : KeyName := ⟨[[107]], by decide⟩

def keyFile (secret : List UInt8) : Spec :=
  { map := AList.insert key { alg := .Sha256, data := secret } ∅ }

def imported : TsigStore PlainKey := apply {} 0 (.importKey key .Sha256 [1] false)

/-- The store after the key file was edited to another secret and reloaded. -/
def edited : TsigStore PlainKey := apply imported 1 (.reload (some (keyFile [2])))

end ReloadExample

/-- A key is imported and its file reloaded with the same secret. -/
theorem import_then_reload_consistent :
    let store := apply ReloadExample.imported 1 (.reload (some (ReloadExample.keyFile [1])))
    store.Consistent ∧ RoundTrips store ∧
      ∀ file, WritesBack store file ↔ KeepsMaterial store (0, .reload (some file)) := by
  have himport : Reach step KeepsMaterial (fun s ↦ s = ({} : TsigStore PlainKey))
      ReloadExample.imported :=
    .next (a := (0, .importKey ReloadExample.key .Sha256 [1] false)) (.start rfl) trivial rfl
  refine store_consistent_of_runs
    (.next (a := (1, .reload (some (ReloadExample.keyFile [1])))) himport ?_ rfl)
  · intro name spec entry hspec hentry
    by_cases hn : name = ReloadExample.key
    · subst hn
      cases hspec
      cases hentry
      rfl
    · rw [ReloadExample.keyFile, AList.lookup_insert_ne hn] at hspec
      cases hspec

/-- After a reload with another secret the live key has the new secret and the material is the old
one, which is what the next save writes. -/
theorem reload_breaks_consistency :
    Reach step anyStep (fun s ↦ s = {}) ReloadExample.edited ∧
      ¬ReloadExample.edited.Consistent ∧ ¬RoundTrips ReloadExample.edited ∧
        ¬WritesBack ReloadExample.imported (ReloadExample.keyFile [2]) := by
  have himport : Reach step anyStep (fun s ↦ s = ({} : TsigStore PlainKey))
      ReloadExample.imported :=
    .next (a := (0, .importKey ReloadExample.key .Sha256 [1] false)) (.start rfl) trivial rfl
  refine ⟨.next (a := (1, .reload (some (ReloadExample.keyFile [2])))) himport trivial rfl,
    ?_, ?_, ?_⟩
  · intro h
    have hkey : (⟨.Sha256, [2], ReloadExample.key⟩ : PlainKey) =
        ⟨.Sha256, [1], ReloadExample.key⟩ :=
      h ReloadExample.key
        { inner := ⟨.Sha256, [2], ReloadExample.key⟩, material := [1], zones := ∅ } rfl
    exact absurd hkey (by decide)
  · intro h
    exact absurd (h ReloadExample.key) (by decide)
  · intro h
    have hkey := h 1 ReloadExample.key { alg := .Sha256, data := [2] } rfl
    exact absurd hkey (by decide)

end Tsig

end Cascade
