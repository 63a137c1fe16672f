import Cascade.Lib.FileSystem
import Cascade.Lib.Register
import Cascade.Lib.Tasks
import Cascade.StateCodec

/-!
# Writing files

`write_file`, which every save ends with, fills a temporary file and renames it to the path, and
`Spec::load`, which every load begins with, opens the file and reads it to its end.  Both are several
accesses to the file system, each of which can fail, in any order with those of others, and the
daemon can be stopped between any two of them.  Seen from outside, the paths are atomic registers:
the calls return what they could return of those.

What a file was given is there after the daemon was stopped: the source never asks the system for
more than that.  Directories are not kept, so that an access to one succeeds or fails.
-/

namespace Cascade

open Lib

/-- What a path leads to is told by its components. -/
abbrev PathKey := Bool × List (List Char)

/-- `Utf8Path::parent` -/
def Utf8Path.parent (path : Utf8Path) : Option PathKey :=
  if path.components.2.isEmpty then none
  else some (path.components.1, path.components.2.dropLast)

namespace WriteFile

/-- The names that temporary files are given: ".tmp" and six letters or digits. -/
def isTempName (name : List Char) : Bool :=
  name.take 4 == ['.', 't', 'm', 'p'] && (name.drop 4).length == 6 && (name.drop 4).all Char.isAlphanum

def isTemp (key : PathKey) : Bool := key.2.getLast?.any isTempName

inductive ErrorKind
  | NotFound
  | Other
deriving DecidableEq

/-- How far a call of `write_file` is.  A temporary file is dropped when the call fails. -/
inductive Saving
  | panicked
  | creatingDir (dir : PathKey)
  | creatingTemp (dir : PathKey)
  | filling (tmp : PathKey) (file : Nat) (rest : List UInt8)
  | persisting (tmp : PathKey) (file : Nat)
  | dropping (tmp : PathKey) (file : Nat)
  | returned (res : Except ErrorKind Unit)

/-- How far the reading of a file is. -/
inductive Loading
  | opening
  | reading (file : Nat) (buf : List UInt8)
  | returned (res : Except ErrorKind (List UInt8))

inductive Task
  | save (path : Utf8Path) (contents : List UInt8) (stage : Saving)
  | load (path : Utf8Path) (stage : Loading)

/-- What an access to the file system comes to: it is done, with the name of a new temporary file or
with a number of bytes where there is one, or it fails. -/
inductive Answer
  | done
  | tempName (name : List Char)
  | bytes (n : Nat)
  | failed

/-- One access of `write_file`. -/
def saveNext (fs : FileSystem PathKey) (path : Utf8Path) (contents : List UInt8) :
    Saving → Answer → Option (FileSystem PathKey × Saving)
  | .creatingDir dir, .done => some (fs, .creatingTemp dir)
  | .creatingDir _, .failed => some (fs, .returned (.error .Other))
  | .creatingTemp dir, .tempName name =>
    if isTempName name then
      match fs.createNew (dir.1, dir.2 ++ [name]) with
      -- the name is taken, and another one is tried
      | none => some (fs, .creatingTemp dir)
      | some fs' => some (fs', .filling (dir.1, dir.2 ++ [name]) fs.files.length contents)
    else none
  | .creatingTemp _, .failed => some (fs, .returned (.error .Other))
  | .filling tmp file [], .done => some (fs, .persisting tmp file)
  | .filling tmp file (b :: rest), .bytes n =>
    -- `write_all` gives up when nothing is written
    if n = 0 then some (fs, .dropping tmp file)
    else some (fs.append file ((b :: rest).take n), .filling tmp file ((b :: rest).drop n))
  | .filling tmp file (_ :: _), .failed => some (fs, .dropping tmp file)
  | .persisting tmp _, .done =>
    (fs.rename tmp path.components).map (fun fs' ↦ (fs', .returned (.ok ())))
  | .persisting tmp file, .failed => some (fs, .dropping tmp file)
  | .dropping tmp _, .done => some (fs.remove tmp, .returned (.error .Other))
  | .dropping _ _, .failed => some (fs, .returned (.error .Other))
  | _, _ => none

/-- One access of a load.  A read gives nothing only at the end of the file. -/
def loadNext (fs : FileSystem PathKey) (path : Utf8Path) : Loading → Answer → Option Loading
  | .opening, .done =>
    match fs.entries.lookup path.components with
    | none => some (.returned (.error .NotFound))
    | some file => some (.reading file [])
  | .opening, .failed => some (.returned (.error .Other))
  | .reading file buf, .bytes n =>
    if n = 0 then none
    else if (fs.readAt file buf.length n).isEmpty then some (.returned (.ok buf))
    else some (.reading file (buf ++ fs.readAt file buf.length n))
  | .reading _ _, .failed => some (.returned (.error .Other))
  | _, _ => none

/-- The file system and what the daemon is about to do on it. -/
structure Disk where
  fs : FileSystem PathKey
  tasks : List Task

inductive Action
  | save (path : Utf8Path) (contents : List UInt8)
  | load (path : Utf8Path)
  | next (i : Nat) (answer : Answer)
  | crash

namespace Disk

/-- A call of `write_file`, which takes for granted that the path has a directory. -/
def save (d : Disk) (path : Utf8Path) (contents : List UInt8) : Disk :=
  { d with tasks := d.tasks ++ [.save path contents (path.parent.elim .panicked .creatingDir)] }

def taskNext (d : Disk) (i : Nat) (answer : Answer) : Task → Option Disk
  | .save path contents stage =>
    (saveNext d.fs path contents stage answer).map (fun (fs, stage) ↦
      { fs, tasks := d.tasks.set i (.save path contents stage) })
  | .load path stage =>
    (loadNext d.fs path stage answer).map (fun stage ↦
      { d with tasks := d.tasks.set i (.load path stage) })

def step (d : Disk) : Action → Option Disk
  | .save path contents => some (d.save path contents)
  | .load path => some { d with tasks := d.tasks ++ [.load path .opening] }
  | .next i answer => d.tasks[i]?.bind (d.taskNext i answer)
  | .crash => some { d with tasks := [] }

/-- Only paths that no temporary file can have are saved to and loaded from, and what is saved is of
a kind. -/
def saves (Q : PathKey → List UInt8 → Prop) (_ : Disk) : Action → Prop
  | .save path contents => isTemp path.components = false ∧ Q path.components contents
  | .load path => isTemp path.components = false
  | _ => True

end Disk

/-! ## The register -/

/-- What a task that has returned has come to. -/
def Task.outcome : Task → Option (Outcome (List UInt8))
  | .save _ _ (.returned (.ok ())) => some .written
  | .save _ _ (.returned (.error _)) => some .failed
  | .load _ (.returned (.ok bytes)) => some (.found (some bytes))
  | .load _ (.returned (.error .NotFound)) => some (.found none)
  | .load _ (.returned (.error .Other)) => some .failed
  | _ => none

/-- What the step of a task shows: that it returns. -/
def Disk.returned (d : Disk) (i : Nat) : Option (Register.Event PathKey (List UInt8)) :=
  (d.tasks[i]?.bind Task.outcome).map (.returned i)

/-- The calls, what they return, and the stops. -/
def Disk.label (_ : Disk) (a : Action) (d' : Disk) :
    Option (Register.Event PathKey (List UInt8)) :=
  match a with
  | .save path contents => some (.write path.components contents)
  | .load path => some (.read path.components)
  | .next i _ => d'.returned i
  | .crash => some .crash

/-- A save as a write: before the rename nothing is to be seen of it. -/
def Saving.access (path : Utf8Path) (contents : List UInt8) :
    Saving → Access PathKey (List UInt8)
  | .panicked => .writing path.components contents
  | .creatingDir _ => .writing path.components contents
  | .creatingTemp _ => .writing path.components contents
  | .filling _ _ _ => .writing path.components contents
  | .persisting _ _ => .writing path.components contents
  | .dropping _ _ => .settled path.components .failed
  | .returned (.ok ()) => .returned path.components .written
  | .returned (.error _) => .returned path.components .failed

/-- A load as a read: what it reads is settled when the file is opened. -/
def Loading.access (fs : FileSystem PathKey) (path : Utf8Path) :
    Loading → Access PathKey (List UInt8)
  | .opening => .reading path.components
  | .reading file _ => .settled path.components (.found fs.files[file]?)
  | .returned (.ok bytes) => .returned path.components (.found (some bytes))
  | .returned (.error .NotFound) => .returned path.components (.found none)
  | .returned (.error .Other) => .returned path.components .failed

def Task.access (fs : FileSystem PathKey) : Task → Access PathKey (List UInt8)
  | .save path contents stage => stage.access path contents
  | .load path stage => stage.access fs path

/-- What is seen of the disk: the contents of the files that are not temporary. -/
def Disk.seen (d : Disk) : Register PathKey (List UInt8) where
  value := fun key ↦ if isTemp key then none else d.fs.content key
  tasks := d.tasks.map (Task.access d.fs)

/-! ## The files of a task -/

/-- The entry `tmp` leads to the file, and no other entry does. -/
def Leads (fs : FileSystem PathKey) (tmp : PathKey) (file : Nat) : Prop :=
  ∀ key, fs.entries.lookup key = some file ↔ key = tmp

/-- The temporary file of a task. -/
def Task.held : Task → Option Nat
  | .save _ _ (.filling _ file _) => some file
  | .save _ _ (.persisting _ file) => some file
  | .save _ _ (.dropping _ file) => some file
  | _ => none

/-- The file that a task has open. -/
def Task.file : Task → Option Nat
  | .load _ (.reading file _) => some file
  | task => task.held

def Task.path : Task → Utf8Path
  | .save path _ _ => path
  | .load path _ => path

/-- What a task knows of its file: what it has written or read of it so far. -/
def Task.Knows (fs : FileSystem PathKey) : Task → Prop
  | .save _ contents (.filling tmp file rest) => isTemp tmp = true ∧ Leads fs tmp file ∧
    ∃ written, fs.files[file]? = some written ∧ written ++ rest = contents
  | .save _ contents (.persisting tmp file) => isTemp tmp = true ∧ Leads fs tmp file ∧
    fs.files[file]? = some contents
  | .save _ _ (.dropping tmp file) => isTemp tmp = true ∧ Leads fs tmp file
  | .load _ (.reading file buf) => ∃ rest, fs.files[file]? = some (buf ++ rest)
  | _ => True

/-- A temporary file is that of one task alone. -/
def Task.Apart (a b : Task) : Prop := ∀ file, a.held = some file → b.file ≠ some file

structure Disk.Sound (d : Disk) : Prop where
  path : EachTask (fun task ↦ isTemp task.path.components = false) d.tasks
  knows : EachTask (Task.Knows d.fs) d.tasks
  apart : EachTwo Task.Apart d.tasks

/-! ## Accesses -/

/-- The accesses of a call of `write_file`, with what each does to the file system. -/
inductive Saving.Moves (fs : FileSystem PathKey) (path : Utf8Path) (contents : List UInt8) :
    Saving → FileSystem PathKey → Saving → Prop
  | dirCreated (dir : PathKey) : Moves fs path contents (.creatingDir dir) fs (.creatingTemp dir)
  | dirRefused (dir : PathKey) :
      Moves fs path contents (.creatingDir dir) fs (.returned (.error .Other))
  | nameTaken (dir : PathKey) : Moves fs path contents (.creatingTemp dir) fs (.creatingTemp dir)
  | tempRefused (dir : PathKey) :
      Moves fs path contents (.creatingTemp dir) fs (.returned (.error .Other))
  | tempCreated (dir tmp : PathKey) (fs' : FileSystem PathKey) (htmp : isTemp tmp = true)
      (hfs' : fs.createNew tmp = some fs') :
      Moves fs path contents (.creatingTemp dir) fs' (.filling tmp fs.files.length contents)
  | written (tmp : PathKey) (file : Nat) (rest : List UInt8) (n : Nat) :
      Moves fs path contents (.filling tmp file rest) (fs.append file (rest.take n))
        (.filling tmp file (rest.drop n))
  | filled (tmp : PathKey) (file : Nat) :
      Moves fs path contents (.filling tmp file []) fs (.persisting tmp file)
  | notWritten (tmp : PathKey) (file : Nat) (rest : List UInt8) :
      Moves fs path contents (.filling tmp file rest) fs (.dropping tmp file)
  | persisted (tmp : PathKey) (file : Nat) (fs' : FileSystem PathKey)
      (hfs' : fs.rename tmp path.components = some fs') :
      Moves fs path contents (.persisting tmp file) fs' (.returned (.ok ()))
  | notPersisted (tmp : PathKey) (file : Nat) :
      Moves fs path contents (.persisting tmp file) fs (.dropping tmp file)
  | dropped (tmp : PathKey) (file : Nat) :
      Moves fs path contents (.dropping tmp file) (fs.remove tmp) (.returned (.error .Other))
  | left (tmp : PathKey) (file : Nat) :
      Moves fs path contents (.dropping tmp file) fs (.returned (.error .Other))

theorem isTemp_child (dir : PathKey) {name : List Char} (h : isTempName name = true) :
    isTemp (dir.1, dir.2 ++ [name]) = true := by
  unfold isTemp
  rw [List.getLast?_concat]
  exact h

theorem moves_of_saveNext {fs fs' : FileSystem PathKey} {path : Utf8Path} {contents : List UInt8}
    {stage stage' : Saving} {answer : Answer}
    (h : saveNext fs path contents stage answer = some (fs', stage')) :
    Saving.Moves fs path contents stage fs' stage' := by
  unfold saveNext at h
  split at h
  · cases h
    exact .dirCreated _
  · cases h
    exact .dirRefused _
  next dir name =>
    by_cases hname : isTempName name = true
    · rw [if_pos hname] at h
      cases hcreate : fs.createNew (dir.1, dir.2 ++ [name]) with
      | none =>
        rw [hcreate] at h
        cases h
        exact .nameTaken dir
      | some created =>
        rw [hcreate] at h
        cases h
        exact .tempCreated dir _ _ (isTemp_child dir hname) hcreate
    · rw [if_neg hname] at h
      cases h
  · cases h
    exact .tempRefused _
  · cases h
    exact .filled _ _
  next tmp file b rest n =>
    by_cases hn : n = 0
    · rw [if_pos hn] at h
      cases h
      exact .notWritten tmp file _
    · rw [if_neg hn] at h
      cases h
      exact .written tmp file (b :: rest) n
  · cases h
    exact .notWritten _ _ _
  · have ⟨renamed, hrename, heq⟩ := Option.map_eq_some_iff.mp h
    cases heq
    exact .persisted _ _ _ hrename
  · cases h
    exact .notPersisted _ _
  · cases h
    exact .dropped _ _
  · cases h
    exact .left _ _
  · cases h

/-! ## What an access leaves as it is -/

section

variable {fs fs' : FileSystem PathKey} {path : Utf8Path} {contents : List UInt8}
  {stage stage' : Saving} {task : Task} {tmp : PathKey} {f : Nat}

theorem Leads.lookup (h : Leads fs tmp f) : fs.entries.lookup tmp = some f := (h tmp).mpr rfl

theorem Task.Knows.leads (h : task.Knows fs) (hf : task.held = some f) :
    ∃ tmp, isTemp tmp = true ∧ Leads fs tmp f := by
  unfold Task.held at hf
  split at hf
  · cases hf
    exact ⟨_, h.1, h.2.1⟩
  · cases hf
    exact ⟨_, h.1, h.2.1⟩
  · cases hf
    exact ⟨_, h.1, h.2⟩
  · cases hf

theorem Task.file_of_held (hf : task.held = some f) : task.file = some f := by
  cases task with
  | save path contents stage => exact hf
  | load path stage => cases hf

theorem Task.Knows.file_lt (h : task.Knows fs) (hf : task.file = some f) :
    f < fs.files.length := by
  unfold Task.file at hf
  split at hf
  · cases hf
    have ⟨rest, hrest⟩ := h
    exact (List.getElem?_eq_some_iff.mp hrest).1
  · have ⟨tmp, _, hleads⟩ := h.leads hf
    exact FileSystem.lt_of_lookup hleads.lookup

/-- The files and the temporary entries of others are kept. -/
structure Kept (fs fs' : FileSystem PathKey) (own : Option Nat) : Prop where
  files : ∀ f, f < fs.files.length → own ≠ some f → fs'.files[f]? = fs.files[f]?
  leads : ∀ tmp f, isTemp tmp = true → own ≠ some f → Leads fs tmp f → Leads fs' tmp f

theorem Kept.refl (own : Option Nat) : Kept fs fs own := ⟨fun _ _ _ ↦ rfl, fun _ _ _ _ h ↦ h⟩

theorem Kept.createNew (h : fs.createNew tmp = some fs') (own : Option Nat) : Kept fs fs' own := by
  have ⟨hnone, hfiles, hlookup⟩ := FileSystem.createNew_spec h
  refine ⟨?_, ?_⟩
  · intro f hf _
    rw [hfiles, List.getElem?_append_left hf]
  · intro tmp' f _ _ hleads key
    have hlt := FileSystem.lt_of_lookup hleads.lookup
    rw [hlookup]
    by_cases hkey : key = tmp
    · rw [if_pos hkey, hkey]
      refine ⟨fun heq ↦ ?_, fun heq ↦ ?_⟩
      · have hlen := Option.some.inj heq
        omega
      · have hfound := hleads.lookup
        rw [← heq, hnone] at hfound
        cases hfound
    · rw [if_neg hkey]
      exact hleads key

theorem Kept.append (bytes : List UInt8) : Kept fs (fs.append f bytes) (some f) := by
  refine ⟨?_, fun _ _ _ _ hleads ↦ hleads⟩
  intro g _ hg
  rw [FileSystem.files_append, if_neg (fun heq ↦ hg (congrArg some heq))]

-- The own temporary entry goes, and at most an entry that is not temporary comes to lead to its file.
theorem Kept.of_gone (hown : fs.entries.lookup tmp = some f) (hfiles : fs'.files = fs.files)
    (hlookup : ∀ key, isTemp key = true ∨ fs'.entries.lookup key ≠ some f →
      fs'.entries.lookup key = if key = tmp then none else fs.entries.lookup key) :
    Kept fs fs' (some f) := by
  refine ⟨fun g _ _ ↦ by rw [hfiles], ?_⟩
  intro tmp' g htmp' hg hleads key
  have hne : f ≠ g := fun heq ↦ hg (congrArg some heq)
  by_cases hf : fs'.entries.lookup key = some f
  · rw [hf]
    refine ⟨fun heq ↦ absurd (Option.some.inj heq) hne, fun heq ↦ ?_⟩
    subst heq
    rw [hlookup key (Or.inl htmp')] at hf
    by_cases hkey : key = tmp
    · rw [if_pos hkey] at hf
      cases hf
    · rw [if_neg hkey, hleads.lookup] at hf
      exact absurd (Option.some.inj hf) hne.symm
  · rw [hlookup key (Or.inr hf)]
    by_cases hkey : key = tmp
    · rw [if_pos hkey]
      refine ⟨nofun, fun heq ↦ ?_⟩
      rw [← heq, hkey] at hleads
      have hfound := hleads.lookup
      rw [hown] at hfound
      exact absurd (Option.some.inj hfound) hne
    · rw [if_neg hkey]
      exact hleads key

theorem kept_of_moves (h : Saving.Moves fs path contents stage fs' stage')
    (hknows : (Task.save path contents stage).Knows fs) (hpath : isTemp path.components = false) :
    Kept fs fs' (Task.save path contents stage).held := by
  cases h with
  | tempCreated dir tmp fs' _ hfs' => exact Kept.createNew hfs' _
  | written tmp file rest n => exact Kept.append _
  | persisted tmp file fs' hfs' =>
    have ⟨hfiles, hlookup⟩ := FileSystem.rename_spec hfs'
    have hown := hknows.2.1.lookup
    apply Kept.of_gone hown hfiles
    intro key hkey
    rw [hlookup]
    by_cases hdst : key = path.components
    · subst hdst
      rw [hlookup, if_pos rfl] at hkey
      cases hkey with
      | inl htmp =>
        rw [hpath] at htmp
        cases htmp
      | inr hother => exact absurd hown hother
    · rw [if_neg hdst]
  | dropped tmp file =>
    have hfiles : (fs.remove tmp).files = fs.files := rfl
    apply Kept.of_gone hknows.2.lookup hfiles
    intro key _
    exact FileSystem.lookup_remove
  | dirCreated dir => exact Kept.refl _
  | dirRefused dir => exact Kept.refl _
  | nameTaken dir => exact Kept.refl _
  | tempRefused dir => exact Kept.refl _
  | filled tmp file => exact Kept.refl _
  | notWritten tmp file rest => exact Kept.refl _
  | notPersisted tmp file => exact Kept.refl _
  | left tmp file => exact Kept.refl _

-- What another task knows stays true.
theorem Task.Knows.kept (h : task.Knows fs) {own : Option Nat} (hkept : Kept fs fs' own)
    (hown : ∀ f, own = some f → task.file ≠ some f) : task.Knows fs' := by
  have hne : ∀ {f}, task.file = some f → own ≠ some f := fun hf heq ↦ hown _ heq hf
  cases task with
  | save path contents stage =>
    cases stage with
    | filling tmp file rest =>
      have ⟨htmp, hleads, written, hwritten, hrest⟩ := h
      have hlt := FileSystem.lt_of_lookup hleads.lookup
      refine ⟨htmp, hkept.leads tmp file htmp (hne rfl) hleads, written, ?_, hrest⟩
      rw [hkept.files file hlt (hne rfl)]
      exact hwritten
    | persisting tmp file =>
      have ⟨htmp, hleads, hwritten⟩ := h
      have hlt := FileSystem.lt_of_lookup hleads.lookup
      refine ⟨htmp, hkept.leads tmp file htmp (hne rfl) hleads, ?_⟩
      rw [hkept.files file hlt (hne rfl)]
      exact hwritten
    | dropping tmp file => exact ⟨h.1, hkept.leads tmp file h.1 (hne rfl) h.2⟩
    | panicked => trivial
    | creatingDir dir => trivial
    | creatingTemp dir => trivial
    | returned res => trivial
  | load path stage =>
    cases stage with
    | reading file buf =>
      have hlt := h.file_lt rfl
      have ⟨rest, hrest⟩ := h
      refine ⟨rest, ?_⟩
      rw [hkept.files file hlt (hne rfl)]
      exact hrest
    | opening => trivial
    | returned res => trivial

-- And so does what is seen of it.
theorem access_kept (h : task.Knows fs) {own : Option Nat} (hkept : Kept fs fs' own)
    (hown : ∀ f, own = some f → task.file ≠ some f) : task.access fs' = task.access fs := by
  cases task with
  | save path contents stage => rfl
  | load path stage =>
    cases stage with
    | reading file buf =>
      show Access.settled path.components (.found fs'.files[file]?) = _
      rw [hkept.files file (h.file_lt rfl) (fun heq ↦ hown _ heq rfl)]
      rfl
    | opening => rfl
    | returned res =>
      cases res with
      | ok bytes => rfl
      | error kind => cases kind <;> rfl

/-! ## What an access of a save does -/

theorem knows_of_moves (h : Saving.Moves fs path contents stage fs' stage')
    (hknows : (Task.save path contents stage).Knows fs) :
    (Task.save path contents stage').Knows fs' := by
  cases h with
  | tempCreated dir tmp fs' htmp hfs' =>
    have ⟨_, hfiles, hlookup⟩ := FileSystem.createNew_spec hfs'
    refine ⟨htmp, ?_, [], ?_, rfl⟩
    · intro key
      rw [hlookup]
      by_cases hkey : key = tmp
      · rw [if_pos hkey]
        exact iff_of_true rfl hkey
      · rw [if_neg hkey]
        refine iff_of_false ?_ hkey
        intro heq
        have hlt := FileSystem.lt_of_lookup heq
        omega
    · rw [hfiles, List.getElem?_concat_length]
  | written tmp file rest n =>
    have ⟨htmp, hleads, written, hwritten, hrest⟩ := hknows
    refine ⟨htmp, hleads, written ++ rest.take n, ?_, ?_⟩
    · rw [FileSystem.files_append, if_pos rfl, hwritten]
      rfl
    · rw [List.append_assoc, List.take_append_drop]
      exact hrest
  | filled tmp file =>
    have ⟨htmp, hleads, written, hwritten, hrest⟩ := hknows
    rw [List.append_nil] at hrest
    refine ⟨htmp, hleads, ?_⟩
    rw [hwritten, hrest]
  | notWritten tmp file rest => exact ⟨hknows.1, hknows.2.1⟩
  | notPersisted tmp file => exact ⟨hknows.1, hknows.2.1⟩
  | persisted tmp file fs' _ => trivial
  | dropped tmp file => trivial
  | dirCreated dir => trivial
  | dirRefused dir => trivial
  | nameTaken dir => trivial
  | tempRefused dir => trivial
  | left tmp file => trivial

-- The only file that a save comes to hold is a new one.
theorem held_of_moves (h : Saving.Moves fs path contents stage fs' stage')
    (hf : (Task.save path contents stage').held = some f) :
    (Task.save path contents stage).held = some f ∨ f = fs.files.length := by
  cases h with
  | tempCreated dir tmp fs' _ _ => exact Or.inr (Option.some.inj hf).symm
  | written tmp file rest n => exact Or.inl hf
  | filled tmp file => exact Or.inl hf
  | notWritten tmp file rest => exact Or.inl hf
  | notPersisted tmp file => exact Or.inl hf
  | persisted tmp file fs' _ => cases hf
  | dropped tmp file => cases hf
  | dirCreated dir => cases hf
  | dirRefused dir => cases hf
  | nameTaken dir => cases hf
  | tempRefused dir => cases hf
  | left tmp file => cases hf

/-- The call has succeeded. -/
def Saving.isDone : Saving → Bool
  | .returned (.ok _) => true
  | _ => false

-- The contents are there as a whole as soon as the call has succeeded, and nothing is until then.
theorem content_of_moves (h : Saving.Moves fs path contents stage fs' stage')
    (hknows : (Task.save path contents stage).Knows fs) {key : PathKey}
    (hkey : isTemp key = false) :
    fs'.content key =
      if stage'.isDone = true ∧ key = path.components then some contents else fs.content key := by
  have hne : ∀ {tmp}, isTemp tmp = true → key ≠ tmp := by
    intro tmp htmp heq
    rw [heq, htmp] at hkey
    cases hkey
  unfold FileSystem.content
  cases h with
  | tempCreated dir tmp fs' htmp hfs' =>
    have ⟨_, hfiles, hlookup⟩ := FileSystem.createNew_spec hfs'
    rw [if_neg (by simp [Saving.isDone]), hlookup, if_neg (hne htmp), hfiles]
    cases hfound : fs.entries.lookup key with
    | none => rfl
    | some g => exact List.getElem?_append_left (FileSystem.lt_of_lookup hfound)
  | written tmp file rest n =>
    rw [if_neg (by simp [Saving.isDone])]
    show (fs.entries.lookup key).bind (fun g ↦ (fs.append file (rest.take n)).files[g]?) = _
    cases hfound : fs.entries.lookup key with
    | none => rfl
    | some g =>
      have hg : file ≠ g := by
        intro heq
        rw [← heq] at hfound
        exact hne hknows.1 ((hknows.2.1 key).mp hfound)
      show (fs.append file (rest.take n)).files[g]? = fs.files[g]?
      rw [FileSystem.files_append, if_neg hg]
  | persisted tmp file fs' hfs' =>
    have ⟨hfiles, hlookup⟩ := FileSystem.rename_spec hfs'
    rw [hlookup, hfiles]
    by_cases hdst : key = path.components
    · rw [if_pos hdst, if_pos ⟨rfl, hdst⟩, hknows.2.1.lookup]
      exact hknows.2.2
    · rw [if_neg hdst, if_neg (hne hknows.1), if_neg (fun hand ↦ hdst hand.2)]
  | dropped tmp file =>
    rw [if_neg (by simp [Saving.isDone]), FileSystem.lookup_remove, if_neg (hne hknows.1)]
    rfl
  | dirCreated dir => simp [Saving.isDone]
  | dirRefused dir => simp [Saving.isDone]
  | nameTaken dir => simp [Saving.isDone]
  | tempRefused dir => simp [Saving.isDone]
  | filled tmp file => simp [Saving.isDone]
  | notWritten tmp file rest => simp [Saving.isDone]
  | notPersisted tmp file => simp [Saving.isDone]
  | left tmp file => simp [Saving.isDone]

end

/-! ## Runs -/

section

variable {Q : PathKey → List UInt8 → Prop} {d d' : Disk} {i : Nat} {a a' : Task}
  {fs' : FileSystem PathKey}

theorem Disk.Sound.setTask (h : d.Sound) (hi : d.tasks[i]? = some a)
    (hkept : Kept d.fs fs' a.held) (hpath : isTemp a'.path.components = false)
    (hknows : a'.Knows fs')
    (hapart : ∀ (j : Nat) (b : Task), j ≠ i → d.tasks[j]? = some b → Task.Apart a' b ∧ Task.Apart b a') :
    Disk.Sound ⟨fs', d.tasks.set i a'⟩ := by
  refine ⟨?_, ?_, ?_⟩
  · exact EachTask.set (fun j b _ hj ↦ h.path j b hj) hpath
  · apply EachTask.set _ hknows
    intro j b hne hj
    exact (h.knows j b hj).kept hkept (fun f hf ↦ h.apart i j a b hne.symm hi hj f hf)
  · exact h.apart.set hapart

theorem Disk.Sound.addTask (h : d.Sound) (hpath : isTemp a.path.components = false)
    (hknows : a.Knows d.fs) (hfile : a.file = none) (hheld : a.held = none) :
    Disk.Sound { d with tasks := d.tasks ++ [a] } := by
  refine ⟨h.path.append hpath, h.knows.append hknows, h.apart.append ?_⟩
  intro j b _
  refine ⟨?_, ?_⟩
  · intro f hf
    rw [hheld] at hf
    cases hf
  · intro f _
    rw [hfile]
    nofun

-- What is seen of the tasks after the step of one of them.
theorem seen_setTask (h : d.Sound) (hi : d.tasks[i]? = some a) (hkept : Kept d.fs fs' a.held) :
    (d.tasks.set i a').map (Task.access fs') =
      (d.tasks.map (Task.access d.fs)).set i (a'.access fs') := by
  rw [List.map_set]
  apply List.ext_getElem?
  intro j
  by_cases hj : i = j
  · subst hj
    simp [List.getElem?_set]
  · rw [List.getElem?_set_ne hj, List.getElem?_set_ne hj, List.getElem?_map, List.getElem?_map]
    cases hb : d.tasks[j]? with
    | none => rfl
    | some b =>
      show some (b.access fs') = some (b.access d.fs)
      rw [access_kept (h.knows j b hb) hkept (fun f hf ↦ h.apart i j a b hj hi hb f hf)]

-- A save that ends well has its effect at once, and any other access of it has none: it goes on unseen,
-- fails, or returns.
theorem access_of_moves {fs fs' : FileSystem PathKey} {path : Utf8Path} {contents : List UInt8}
    {stage stage' : Saving} (h : Saving.Moves fs path contents stage fs' stage') :
    (stage' = .returned (.ok ()) ∧
      stage.access path contents = .writing path.components contents) ∨
    (stage'.isDone = false ∧
      ((stage'.access path contents = stage.access path contents ∧
          (Task.save path contents stage').outcome = none) ∨
        (stage.access path contents = .writing path.components contents ∧
          (Task.save path contents stage').access fs' = .settled path.components .failed ∧
          (Task.save path contents stage').outcome = none) ∨
        ((stage.access path contents = .writing path.components contents ∨
            stage.access path contents = .settled path.components .failed) ∧
          stage' = .returned (.error .Other)))) := by
  cases h with
  | persisted tmp file fs' _ => exact Or.inl ⟨rfl, rfl⟩
  | dirCreated dir => exact Or.inr ⟨rfl, Or.inl ⟨rfl, rfl⟩⟩
  | nameTaken dir => exact Or.inr ⟨rfl, Or.inl ⟨rfl, rfl⟩⟩
  | tempCreated dir tmp fs' _ _ => exact Or.inr ⟨rfl, Or.inl ⟨rfl, rfl⟩⟩
  | written tmp file rest n => exact Or.inr ⟨rfl, Or.inl ⟨rfl, rfl⟩⟩
  | filled tmp file => exact Or.inr ⟨rfl, Or.inl ⟨rfl, rfl⟩⟩
  | notWritten tmp file rest => exact Or.inr ⟨rfl, Or.inr (Or.inl ⟨rfl, rfl, rfl⟩)⟩
  | notPersisted tmp file => exact Or.inr ⟨rfl, Or.inr (Or.inl ⟨rfl, rfl, rfl⟩)⟩
  | dirRefused dir => exact Or.inr ⟨rfl, Or.inr (Or.inr ⟨Or.inl rfl, rfl⟩)⟩
  | tempRefused dir => exact Or.inr ⟨rfl, Or.inr (Or.inr ⟨Or.inl rfl, rfl⟩)⟩
  | dropped tmp file => exact Or.inr ⟨rfl, Or.inr (Or.inr ⟨Or.inr rfl, rfl⟩)⟩
  | left tmp file => exact Or.inr ⟨rfl, Or.inr (Or.inr ⟨Or.inr rfl, rfl⟩)⟩

theorem getElem?_seen (hi : d.tasks[i]? = some a) : d.seen.tasks[i]? = some (a.access d.fs) := by
  show (d.tasks.map (Task.access d.fs))[i]? = _
  rw [List.getElem?_map, hi]
  rfl

/-- What the register shows from the one disk to the other. -/
def Seen (Q : PathKey → List UInt8 → Prop) (d : Disk)
    (shown : List (Register.Event PathKey (List UInt8))) (d' : Disk) : Prop :=
  Shows Register.step Register.label (Register.writesOnly Q) d.seen shown d'.seen

theorem returned_setTask (hi : d.tasks[i]? = some a) :
    Disk.returned ⟨fs', d.tasks.set i a'⟩ i = a'.outcome.map (.returned i) := by
  have hlt : i < d.tasks.length := (List.getElem?_eq_some_iff.mp hi).1
  unfold Disk.returned
  dsimp only
  rw [List.getElem?_set_self hlt]
  rfl

-- The register after the step of a task that changes no file but temporary ones.
theorem seen_set (h : d.Sound) (hi : d.tasks[i]? = some a) (hkept : Kept d.fs fs' a.held)
    (hcontent : ∀ key, isTemp key = false → fs'.content key = d.fs.content key) :
    Disk.seen ⟨fs', d.tasks.set i a'⟩ =
      { d.seen with tasks := d.seen.tasks.set i (a'.access fs') } := by
  have hvalue : (fun key ↦ if isTemp key then none else fs'.content key) = d.seen.value := by
    funext key
    show _ = if isTemp key then none else d.fs.content key
    by_cases hkey : isTemp key = true
    · rw [if_pos hkey, if_pos hkey]
    · rw [if_neg hkey, if_neg hkey]
      exact hcontent key (Bool.eq_false_iff.mpr hkey)
  unfold Disk.seen
  dsimp only
  rw [seen_setTask h hi hkept, hvalue]
  rfl

theorem getElem?_set_seen {x : Access PathKey (List UInt8)} (hi : d.tasks[i]? = some a) :
    (d.seen.tasks.set i x)[i]? = some x :=
  List.getElem?_set_self (List.getElem?_eq_some_iff.mp (getElem?_seen hi)).1

-- A call that has been settled returns.
theorem shows_settled_return {r : Register PathKey (List UInt8)} {p : PathKey}
    {outcome : Outcome (List UInt8)} {shown : List (Register.Event PathKey (List UInt8))}
    {value : PathKey → Option (List UInt8)}
    (hi : d.tasks[i]? = some a)
    (hsettled : Shows Register.step Register.label (Register.writesOnly Q) r shown
      ⟨value, d.seen.tasks.set i (.settled p outcome)⟩) :
    Shows Register.step Register.label (Register.writesOnly Q) r (shown ++ [.returned i outcome])
      ⟨value, d.seen.tasks.set i (.returned p outcome)⟩ := by
  have hat : (Register.mk value (d.seen.tasks.set i (.settled p outcome))).tasks[i]? =
      some (.settled p outcome) := getElem?_set_seen hi
  have hlast := Register.shows_return (Q := Q) hat
  dsimp only at hlast
  rw [List.set_set] at hlast
  exact hsettled.trans hlast

-- A call that fails.
theorem seen_failed {p : PathKey} (hi : d.tasks[i]? = some a)
    (haccess : (∃ contents, a.access d.fs = .writing p contents) ∨ a.access d.fs = .reading p ∨
      ∃ value, a.access d.fs = .settled p (.found value)) :
    Shows Register.step Register.label (Register.writesOnly Q) d.seen []
      { d.seen with tasks := d.seen.tasks.set i (.settled p .failed) } := by
  have hat := getElem?_seen hi
  rcases haccess with ⟨contents, heq⟩ | heq | ⟨value, heq⟩
  · rw [heq] at hat
    exact Register.shows_fail (v := contents) (Or.inl hat)
  · rw [heq] at hat
    exact Register.shows_fail (v := []) (Or.inr (Or.inl hat))
  · rw [heq] at hat
    exact Register.shows_fail (v := []) (Or.inr (Or.inr ⟨value, hat⟩))

-- A task that is seen as before, with the same files.
theorem seen_idle (h : d.Sound) (hi : d.tasks[i]? = some a) (hkept : Kept d.fs fs' a.held)
    (hcontent : ∀ key, isTemp key = false → fs'.content key = d.fs.content key)
    (haccess : a'.access fs' = a.access d.fs) : Seen Q d [] ⟨fs', d.tasks.set i a'⟩ := by
  have hseen : Disk.seen ⟨fs', d.tasks.set i a'⟩ = d.seen := by
    rw [seen_set h hi hkept hcontent, haccess, set_getElem?_self (getElem?_seen hi)]
  unfold Seen
  rw [hseen]
  exact .refl

-- A task that fails and returns.
theorem seen_fails (h : d.Sound) (hi : d.tasks[i]? = some a) (hkept : Kept d.fs fs' a.held)
    (hcontent : ∀ key, isTemp key = false → fs'.content key = d.fs.content key) {p : PathKey}
    (haccess : (∃ contents, a.access d.fs = .writing p contents) ∨ a.access d.fs = .reading p ∨
      ∃ value, a.access d.fs = .settled p (.found value))
    (hafter : a'.access fs' = .returned p .failed) :
    Seen Q d [.returned i .failed] ⟨fs', d.tasks.set i a'⟩ := by
  unfold Seen
  rw [seen_set h hi hkept hcontent, hafter]
  exact shows_settled_return hi (seen_failed hi haccess)

-- A task that has been settled and returns.
theorem seen_returns (h : d.Sound) (hi : d.tasks[i]? = some a) (hkept : Kept d.fs fs' a.held)
    (hcontent : ∀ key, isTemp key = false → fs'.content key = d.fs.content key) {p : PathKey}
    {outcome : Outcome (List UInt8)} (hbefore : a.access d.fs = .settled p outcome)
    (hafter : a'.access fs' = .returned p outcome) :
    Seen Q d [.returned i outcome] ⟨fs', d.tasks.set i a'⟩ := by
  have hat : d.seen.tasks[i]? = some (.settled p outcome) := by
    rw [getElem?_seen hi, hbefore]
  unfold Seen
  rw [seen_set h hi hkept hcontent, hafter]
  exact Register.shows_return hat

-- The rename is the moment of a save, which returns with it.
theorem seen_saved (h : d.Sound) {path : Utf8Path} {contents : List UInt8} {stage : Saving}
    (hi : d.tasks[i]? = some (.save path contents stage))
    (hmoves : Saving.Moves d.fs path contents stage fs' (.returned (.ok ())))
    (hbefore : stage.access path contents = .writing path.components contents) :
    Seen Q d [.returned i .written]
      ⟨fs', d.tasks.set i (.save path contents (.returned (.ok ())))⟩ := by
  have hpath : isTemp path.components = false := h.path i _ hi
  have hknows := h.knows i _ hi
  have hkept := kept_of_moves hmoves hknows hpath
  have hat : d.seen.tasks[i]? = some (.writing path.components contents) := by
    rw [getElem?_seen hi]
    exact congrArg some hbefore
  have hvalue : (fun key ↦ if isTemp key then none else fs'.content key) =
      Function.update d.seen.value path.components (some contents) := by
    funext key
    by_cases hkey : isTemp key = true
    · have hne : key ≠ path.components := by
        intro heq
        rw [heq, hpath] at hkey
        cases hkey
      rw [Function.update_of_ne hne, if_pos hkey]
      exact (if_pos hkey).symm
    · rw [if_neg hkey, content_of_moves hmoves hknows (Bool.eq_false_iff.mpr hkey)]
      by_cases hdst : key = path.components
      · subst hdst
        rw [Function.update_self, if_pos ⟨rfl, rfl⟩]
      · rw [Function.update_of_ne hdst, if_neg (fun hand ↦ hdst hand.2)]
        exact (if_neg hkey).symm
  have hseen : Disk.seen ⟨fs', d.tasks.set i (.save path contents (.returned (.ok ())))⟩ =
      { value := Function.update d.seen.value path.components (some contents),
        tasks := d.seen.tasks.set i (.returned path.components .written) } := by
    unfold Disk.seen at hvalue ⊢
    dsimp only at hvalue ⊢
    rw [seen_setTask h hi hkept, hvalue]
    rfl
  unfold Seen
  rw [hseen]
  exact shows_settled_return hi (Register.shows_effect hat)

-- A save that does not succeed goes on unseen, fails, or returns.
theorem seen_unsaved (h : d.Sound) {path : Utf8Path} {contents : List UInt8}
    {stage stage' : Saving} (hi : d.tasks[i]? = some (.save path contents stage))
    (hmoves : Saving.Moves d.fs path contents stage fs' stage') (hdone : stage'.isDone = false) :
    Seen Q d ((Task.save path contents stage').outcome.map (Register.Event.returned i)).toList
      ⟨fs', d.tasks.set i (.save path contents stage')⟩ := by
  have hknows := h.knows i _ hi
  have hkept := kept_of_moves hmoves hknows (h.path i _ hi)
  have hcontent : ∀ key, isTemp key = false → fs'.content key = d.fs.content key := by
    intro key hkey
    rw [content_of_moves hmoves hknows hkey, hdone]
    exact if_neg (fun hand ↦ Bool.false_ne_true hand.1)
  rcases access_of_moves hmoves with hend | ⟨_, hidle | hfail | hreturn⟩
  · rw [hend.1] at hdone
    cases hdone
  · rw [hidle.2]
    exact seen_idle h hi hkept hcontent hidle.1
  · rw [hfail.2.2]
    unfold Seen
    rw [seen_set h hi hkept hcontent, hfail.2.1]
    exact seen_failed hi (Or.inl ⟨contents, hfail.1⟩)
  · obtain ⟨hbefore, hstage⟩ := hreturn
    subst hstage
    cases hbefore with
    | inl hwriting => exact seen_fails h hi hkept hcontent (Or.inl ⟨contents, hwriting⟩) rfl
    | inr hsettled => exact seen_returns h hi hkept hcontent hsettled rfl

-- A call of `write_file` makes one access.
theorem Disk.Sound.saveStep (h : d.Sound) {path : Utf8Path} {contents : List UInt8}
    {stage stage' : Saving} (hi : d.tasks[i]? = some (.save path contents stage))
    (hmoves : Saving.Moves d.fs path contents stage fs' stage') :
    Disk.Sound ⟨fs', d.tasks.set i (.save path contents stage')⟩ ∧
      Seen Q d (Disk.returned ⟨fs', d.tasks.set i (.save path contents stage')⟩ i).toList
        ⟨fs', d.tasks.set i (.save path contents stage')⟩ := by
  have hpath := h.path i _ hi
  have hknows := h.knows i _ hi
  have hkept := kept_of_moves hmoves hknows hpath
  refine ⟨h.setTask hi hkept hpath (knows_of_moves hmoves hknows) ?_, ?_⟩
  · intro j b hne hj
    have hnew : ∀ f, (Task.save path contents stage').held = some f → b.file ≠ some f := by
      intro f hf heq
      cases held_of_moves hmoves hf with
      | inl hold => exact h.apart i j _ b hne.symm hi hj f hold heq
      | inr hfresh =>
        have hlt := (h.knows j b hj).file_lt heq
        omega
    refine ⟨hnew, ?_⟩
    intro f hf heq
    exact hnew f heq (Task.file_of_held hf)
  · rw [returned_setTask hi]
    cases access_of_moves hmoves with
    | inl hend =>
      obtain ⟨hstage, hbefore⟩ := hend
      subst hstage
      exact seen_saved h hi hmoves hbefore
    | inr hidle => exact seen_unsaved h hi hmoves hidle.1

-- An open file that is led to from a path of the daemon is no temporary file.
theorem Disk.Sound.not_held (h : d.Sound) {path : Utf8Path} {f : Nat}
    (hpath : isTemp path.components = false)
    (hf : d.fs.entries.lookup path.components = some f) {j : Nat} {b : Task}
    (hj : d.tasks[j]? = some b) : b.held ≠ some f := by
  intro hheld
  have ⟨tmp, htmp, hleads⟩ := (h.knows j b hj).leads hheld
  rw [(hleads path.components).mp hf, htmp] at hpath
  cases hpath

-- A load that goes on, whatever it is to be seen as.
theorem Disk.Sound.loadStep (h : d.Sound) {path : Utf8Path} {stage stage' : Loading}
    (hi : d.tasks[i]? = some (.load path stage))
    (hknows : (Task.load path stage').Knows d.fs)
    (hheld : ∀ f, (Task.load path stage').file = some f →
      ∀ (j : Nat) (b : Task), d.tasks[j]? = some b → b.held ≠ some f) :
    Disk.Sound { d with tasks := d.tasks.set i (.load path stage') } := by
  refine h.setTask hi (Kept.refl _) ?_ hknows ?_
  · exact h.path i (.load path stage) hi
  intro j b _ hj
  refine ⟨?_, ?_⟩
  · intro f hf
    cases hf
  · intro f hf heq
    exact hheld f heq j b hj hf

-- The file is opened, or it is not there.
theorem seen_opened (h : d.Sound) {path : Utf8Path}
    (hi : d.tasks[i]? = some (.load path .opening)) :
    Shows Register.step Register.label (Register.writesOnly Q) d.seen []
      { d.seen with
        tasks := d.seen.tasks.set i
          (.settled path.components (.found (d.fs.content path.components))) } := by
  have hpath : isTemp path.components = false := h.path i _ hi
  have hvalue : d.seen.value path.components = d.fs.content path.components := by
    apply if_neg
    rw [hpath]
    exact Bool.false_ne_true
  have hat : d.seen.tasks[i]? = some (.reading path.components) := getElem?_seen hi
  rw [← hvalue]
  exact Register.shows_found hat

theorem Disk.Sound.loadNext (h : d.Sound) {path : Utf8Path} {stage stage' : Loading}
    {answer : Answer} (hi : d.tasks[i]? = some (.load path stage))
    (hstage : loadNext d.fs path stage answer = some stage') :
    Disk.Sound { d with tasks := d.tasks.set i (.load path stage') } ∧
      Seen Q d ((Task.load path stage').outcome.map (Register.Event.returned i)).toList
        { d with tasks := d.tasks.set i (.load path stage') } := by
  have hkept : Kept d.fs d.fs (Task.load path stage).held := Kept.refl _
  have hcontent : ∀ key, isTemp key = false → d.fs.content key = d.fs.content key := fun _ _ ↦ rfl
  unfold WriteFile.loadNext at hstage
  split at hstage
  · cases hfound : d.fs.entries.lookup path.components with
    | none =>
      rw [hfound] at hstage
      cases hstage
      have hnone : d.fs.content path.components = none := by
        unfold FileSystem.content
        rw [hfound]
        rfl
      have hopened := seen_opened (Q := Q) h hi
      rw [hnone] at hopened
      refine ⟨h.loadStep hi trivial nofun, ?_⟩
      unfold Seen
      rw [seen_set h hi hkept hcontent]
      exact shows_settled_return hi hopened
    | some file =>
      rw [hfound] at hstage
      cases hstage
      have hcontents : d.fs.content path.components = d.fs.files[file]? := by
        unfold FileSystem.content
        rw [hfound]
        rfl
      have hopened := seen_opened (Q := Q) h hi
      rw [hcontents] at hopened
      refine ⟨h.loadStep hi ?_ ?_, ?_⟩
      · have hlt := FileSystem.lt_of_lookup hfound
        exact ⟨d.fs.files[file], List.getElem?_eq_getElem hlt⟩
      · intro f hf j b hj
        cases hf
        exact h.not_held (h.path i _ hi) hfound hj
      · unfold Seen
        rw [seen_set h hi hkept hcontent]
        exact hopened
  · cases hstage
    refine ⟨h.loadStep hi trivial nofun, ?_⟩
    exact seen_fails h hi hkept hcontent (Or.inr (Or.inl rfl)) rfl
  next file buf n =>
    have hknows := h.knows i _ hi
    have ⟨rest, hrest⟩ := hknows
    by_cases hn : n = 0
    · rw [if_pos hn] at hstage
      cases hstage
    · rw [if_neg hn] at hstage
      by_cases hend : (d.fs.readAt file buf.length n).isEmpty = true
      · rw [if_pos hend] at hstage
        cases hstage
        have hnil := (FileSystem.readAt_isEmpty hrest hn).mp hend
        rw [hnil, List.append_nil] at hrest
        have hsettled : (Task.load path (.reading file buf)).access d.fs =
            .settled path.components (.found (some buf)) := by
          show Access.settled path.components (.found d.fs.files[file]?) = _
          rw [hrest]
        exact ⟨h.loadStep hi trivial nofun, seen_returns h hi hkept hcontent hsettled rfl⟩
      · rw [if_neg hend] at hstage
        cases hstage
        refine ⟨h.loadStep hi ⟨rest.drop n, FileSystem.readAt_prefix n hrest⟩ ?_,
          seen_idle h hi hkept hcontent rfl⟩
        intro f hf j b hj hheld
        by_cases hji : j = i
        · rw [hji, hi] at hj
          cases hj
          cases hheld
        · exact h.apart j i b _ hji hj hi f hheld hf
  · cases hstage
    refine ⟨h.loadStep hi trivial nofun, ?_⟩
    exact seen_fails h hi hkept hcontent (Or.inr (Or.inr ⟨_, rfl⟩)) rfl
  · cases hstage

-- What every step keeps, and what is seen of it.
theorem Disk.Sound.step (h : d.Sound) {action : Action} (hok : d.saves Q action)
    (hd' : d.step action = some d') : d'.Sound ∧ Seen Q d (d.label action d').toList d' := by
  cases action with
  | save path contents =>
    cases hd'
    have hwrites : Register.writesOnly Q d.seen (.write path.components contents) := hok.2
    unfold Disk.save
    cases hparent : path.parent with
    | none =>
      refine ⟨h.addTask hok.1 trivial rfl rfl, Shows.one hwrites ?_⟩
      simp [Disk.seen, Register.step, Task.access, Saving.access]
    | some dir =>
      refine ⟨h.addTask hok.1 trivial rfl rfl, Shows.one hwrites ?_⟩
      simp [Disk.seen, Register.step, Task.access, Saving.access]
  | load path =>
    cases hd'
    have hreads : Register.writesOnly Q d.seen (.read path.components) := trivial
    refine ⟨h.addTask hok trivial rfl rfl, Shows.one hreads ?_⟩
    simp [Disk.seen, Register.step, Task.access, Loading.access]
  | next i answer =>
    obtain ⟨task, hi, hnext⟩ := Option.bind_eq_some_iff.mp hd'
    cases task with
    | save path contents stage =>
      obtain ⟨moved, hmoved, heq⟩ := Option.map_eq_some_iff.mp hnext
      cases heq
      exact h.saveStep hi (moves_of_saveNext hmoved)
    | load path stage =>
      obtain ⟨stage', hstage, heq⟩ := Option.map_eq_some_iff.mp hnext
      cases heq
      have hreturned : Disk.returned ⟨d.fs, d.tasks.set i (.load path stage')⟩ i =
          (Task.load path stage').outcome.map (.returned i) :=
        returned_setTask hi
      show _ ∧ Seen Q d (Disk.returned _ i).toList _
      rw [hreturned]
      exact h.loadNext hi hstage
  | crash =>
    cases hd'
    have hcrash : Register.writesOnly Q d.seen .crash := trivial
    exact ⟨⟨EachTask.nil, EachTask.nil, EachTwo.nil⟩, Shows.one hcrash rfl⟩

theorem Disk.sound_idle (fs : FileSystem PathKey) : Disk.Sound ⟨fs, []⟩ :=
  ⟨EachTask.nil, EachTask.nil, EachTwo.nil⟩

-- The disk stays sound, and the register shows what the disk does.
theorem sound_and_shows {fs : FileSystem PathKey}
    {shown : List (Register.Event PathKey (List UInt8))}
    (h : Shows Disk.step Disk.label (Disk.saves Q) ⟨fs, []⟩ shown d) :
    d.Sound ∧ Seen Q ⟨fs, []⟩ shown d := by
  have hstep : ∀ d action d', d.Sound → Disk.saves Q d action → Disk.step d action = some d' →
      d'.Sound ∧ Seen Q d (Disk.label d action d').toList d' :=
    fun _ _ _ hsound hok hd' ↦ hsound.step hok hd'
  exact h.simulates Disk.seen hstep (Disk.sound_idle fs)

-- The disk is sound in every run, and the register is seen to make a run.
theorem sound_and_seen {fs : FileSystem PathKey}
    (h : Reach Disk.step (Disk.saves Q) (fun d ↦ d = ⟨fs, []⟩) d) :
    d.Sound ∧ Reach Register.step (Register.writesOnly Q) (fun r ↦ r = Disk.seen ⟨fs, []⟩)
      d.seen := by
  obtain ⟨start, shown, hstart, hshown⟩ := Shows.of_reach Disk.label h
  subst hstart
  obtain ⟨hsound, hseen⟩ := sound_and_shows hshown
  exact ⟨hsound, hseen.reach (.start rfl)⟩

end

/-- Whatever files there are at the start, however the accesses of any number of saves and loads
follow each other and whichever of them fail, and whenever the daemon is stopped: atomic registers
with the same contents can show the same calls, the same results of each and the same stops, in the
same order.  So the contents of a save are there as a whole from one moment between its call and its
return on, or never, a save that fails has no effect, and a load returns what one moment between its
call and its return has left there, or fails. -/
theorem write_file_is_atomic {fs : FileSystem PathKey} {d : Disk}
    {shown : List (Register.Event PathKey (List UInt8))}
    (h : Shows Disk.step Disk.label (Disk.saves (fun _ _ ↦ True)) ⟨fs, []⟩ shown d) :
    Shows Register.step Register.label anyStep (Disk.seen ⟨fs, []⟩) shown d.seen := by
  have hseen := (sound_and_shows h).2
  exact hseen.mono (fun _ _ _ ↦ trivial)

/-! ## A save that is stopped -/

namespace InterruptedSave

def path : Utf8Path := Utf8Path.ofString "/s.db"

/-- The file system with one file from before. -/
def fs : FileSystem PathKey where
  entries := AList.insert path.components 0 ∅
  files := [[1]]
  bounded := by decide

/-- A save is stopped after it has written half of its contents, another one comes to its end, and
the file is loaded while a third one is under way. -/
def actions : List Action :=
  [.save path [2, 3], .next 0 .done, .next 0 (.tempName ".tmpAb0cD1".toList), .next 0 (.bytes 1), .crash,
    .save path [4], .next 0 .done, .next 0 (.tempName ".tmpXyZ789".toList), .next 0 (.bytes 8),
    .next 0 .done, .load path, .next 1 .done, .next 0 .done, .next 1 (.bytes 8), .next 1 (.bytes 8)]

def allowed (_ : Disk) : Action → Bool
  | .save path _ => !isTemp path.components
  | .load path => !isTemp path.components
  | _ => true

/-- The stopped save never returns, the load returns the old contents, and the new ones are there. -/
def events : List (Register.Event PathKey (List UInt8)) :=
  [.write path.components [2, 3], .crash, .write path.components [4], .read path.components,
    .returned 0 .written, .returned 1 (.found (some [1]))]

def ended (d : Disk) : Bool := d.seen.value path.components == some [4]

theorem saves_of_allowed (d : Disk) (a : Action) (h : allowed d a = true) :
    d.saves (fun _ _ ↦ True) a := by
  cases a with
  | save path contents => exact ⟨(Bool.not_eq_true' _).mp h, trivial⟩
  | load path => exact (Bool.not_eq_true' _).mp h
  | next i answer => trivial
  | crash => trivial

end InterruptedSave

theorem interrupted_save_is_atomic : ∃ d, InterruptedSave.ended d = true ∧
    Shows Register.step Register.label anyStep (Disk.seen ⟨InterruptedSave.fs, []⟩)
      InterruptedSave.events d.seen := by
  have hrun : ∃ d, Shows Disk.step Disk.label (fun d a ↦ InterruptedSave.allowed d a = true)
      ⟨InterruptedSave.fs, []⟩
      (trace Disk.step Disk.label ⟨InterruptedSave.fs, []⟩ InterruptedSave.actions) d ∧
        InterruptedSave.ended d = true :=
    Shows.of_exec Disk.label InterruptedSave.actions (by decide) (by decide +kernel)
  have hevents : trace Disk.step Disk.label ⟨InterruptedSave.fs, []⟩ InterruptedSave.actions =
      InterruptedSave.events := by decide +kernel
  rw [hevents] at hrun
  have ⟨d, hshown, hended⟩ := hrun
  exact ⟨d, hended, write_file_is_atomic (hshown.mono InterruptedSave.saves_of_allowed)⟩

end WriteFile

end Cascade
