import Cascade.SavedState
import Cascade.Tsig
import Cascade.WriteFile
import Cascade.ZoneStatePath

/-!
# The saved files

The state files of zones and the file of the TSIG store as their types declare them, next to the
global state file, and what a load finds of any of the three, whenever the daemon was stopped.
-/

namespace Cascade

open Lib Lib.Serde

/-! ## The formats -/

namespace ZoneStateFile

abbrev policySpec : Codec PolicySpec :=
  .struct (.iso (.and (.and (.and (.and (.field "name" .string)
      (.field "loader" StateFile.loaderPolicy)) (.field "key-manager" StateFile.keyManagerPolicy))
      (.field "signer" StateFile.signerPolicy)) (.field "server" StateFile.serverPolicy))
    (fun s ↦ ((((s.name, s.loader), s.keyManager), s.signer), s.server))
    (fun t ↦ { name := t.1.1.1.1, loader := t.1.1.1.2, keyManager := t.1.1.2, signer := t.1.2,
               server := t.2 })
    (fun _ ↦ rfl))

abbrev spec : Codec Spec :=
  .struct (.iso (.optional "policy" policySpec) (fun s ↦ s.policy) (fun policy ↦ { policy })
    (fun _ ↦ rfl))

/-- The state file of a zone with its version. -/
def codec : Codec Spec :=
  .tagged "version" [.newtype "v1" spec some id (by
    intro t s h
    cases h
    rfl)] (List.nodup_singleton "v1")

theorem isSome_codec (s : Spec) : (codec.encode s).isSome = true := by
  unfold codec
  rw [Codec.isSome_version]
  exact Fields.Total.isSome_encode s

end ZoneStateFile

namespace Tsig

def algSpec : Codec AlgSpec :=
  .units [("sha1", .Sha1), ("sha256", .Sha256), ("sha384", .Sha384), ("sha512", .Sha512)] (by decide)

instance : Codec.Total algSpec := ⟨fun t ↦ by cases t <;> rfl⟩

abbrev keySpec : Codec KeySpec :=
  .struct (.iso (.and (.field "alg" algSpec) (.field "data" (.list .u8)))
    (fun s ↦ (s.alg, s.data)) (fun (alg, data) ↦ { alg, data }) (fun _ ↦ rfl))

section

variable [Text Name]

abbrev spec : Codec Spec :=
  .struct (.iso (.field "map" (.mapBy Text.write Text.read Text.read_write keySpec)) (fun s ↦ s.map)
    (fun map ↦ { map }) (fun _ ↦ rfl))

/-- The file of the TSIG store with its version. -/
def codec : Codec Spec :=
  .tagged "version" [.newtype "v1" spec some id (by
    intro t s h
    cases h
    rfl)] (List.nodup_singleton "v1")

theorem isSome_codec (s : Spec) : (codec.encode s).isSome = true := by
  unfold codec
  rw [Codec.isSome_version]
  exact Fields.Total.isSome_encode s

end

end Tsig

/-! ## Paths of zones -/

namespace WriteFile

theorem isTempName_db (init : List Char) : isTempName (init ++ ['.', 'd', 'b']) = false := by
  by_cases hlen : init.length = 7
  · have hdot : '.' ∈ (init ++ ['.', 'd', 'b']).drop 4 := by
      rw [List.drop_append_of_le_length (by omega)]
      simp
    have hall : ((init ++ ['.', 'd', 'b']).drop 4).all Char.isAlphanum = false := by
      apply List.all_eq_false.mpr
      exact ⟨'.', hdot, by decide⟩
    unfold isTempName
    rw [hall, Bool.and_false]
  · have hsix : (((init ++ ['.', 'd', 'b']).drop 4).length == 6) = false := by
      rw [List.length_drop, List.length_append]
      simp
      omega
    unfold isTempName
    rw [hsix]
    simp

-- The last component of such a path ends in the same way.
theorem isTemp_db (init : List Char) :
    isTemp (Utf8Path.components ⟨init ++ ['.', 'd', 'b']⟩) = false := by
  have hlast : ∃ start, (Utf8Path.components ⟨init ++ ['.', 'd', 'b']⟩).2.getLast? =
      some (start ++ ['.', 'd', 'b']) := by
    by_cases hslash : '/' ∈ init
    · obtain ⟨base, file, heq, hnot⟩ := Utf8Path.exists_last_slash hslash
      have hfile : Utf8Path.FileName (file ++ ['.', 'd', 'b']) := by
        apply Utf8Path.FileName.of_getLast?
        · simp [hnot]
        · simp
      refine ⟨file, ?_⟩
      rw [heq, List.append_assoc, List.cons_append, Utf8Path.components_append hfile,
        List.getLast?_concat]
    · refine ⟨init, ?_⟩
      have hsplit : (init ++ ['.', 'd', 'b']).splitOn '/' = [init ++ ['.', 'd', 'b']] := by
        apply List.splitOn_eq_singleton
        simp [hslash]
      unfold Utf8Path.components
      rw [hsplit]
      simp
  have ⟨start, hstart⟩ := hlast
  unfold isTemp
  rw [hstart]
  exact isTempName_db start

end WriteFile

theorem isTemp_zoneStatePath (d : NameDisplay) (zoneStateDir : Utf8Path) (name : EnteredName) :
    WriteFile.isTemp (zoneStatePath d zoneStateDir name).components = false := by
  unfold zoneStatePath Utf8Path.join
  split
  · exact WriteFile.isTemp_db _
  · split
    · rw [← List.append_assoc]
      exact WriteFile.isTemp_db _
    · have hassoc : zoneStateDir.chars ++ '/' :: (d.name name ++ ['.', 'd', 'b']) =
          (zoneStateDir.chars ++ '/' :: d.name name) ++ ['.', 'd', 'b'] := by
        rw [List.append_assoc, List.cons_append]
      rw [hassoc]
      exact WriteFile.isTemp_db _

/-! ## Saving and loading -/

/-- The JSON library: the text of a value, and what a text is read as. -/
structure Json where
  toString : Value → List UInt8
  fromReader : List UInt8 → Option Value

/-- `Spec::save` gives these bytes to `write_file`. -/
def Json.Saves {T : Type} (json : Json) (codec : Codec T) (spec : T) (bytes : List UInt8) : Prop :=
  ∃ v, codec.encode spec = some v ∧ json.toString v = bytes

/-- `Spec::load`, once the file is read. -/
def Json.load {T : Type} (json : Json) (codec : Codec T) (bytes : List UInt8) : Option T :=
  (json.fromReader bytes).bind codec.decode

theorem Json.Saves.load_eq {T : Type} {json : Json} {codec : Codec T} {spec : T}
    {bytes : List UInt8} (h : json.Saves codec spec bytes)
    (hjson : ∀ v, codec.encode spec = some v → json.fromReader (json.toString v) = some v) :
    json.load codec bytes = some spec := by
  obtain ⟨v, hv, hbytes⟩ := h
  unfold Json.load
  rw [← hbytes, hjson v hv]
  exact codec.decode_encode spec v hv

/-- Where the files are. -/
structure Places where
  display : NameDisplay
  stateFile : Utf8Path
  tsigStorePath : Utf8Path
  zoneStateDir : Utf8Path

/-- The specifications that are saved, to the global state file, to the file of the TSIG store and for
each of the zones. -/
structure Saved where
  state : StateFile.Spec → Prop
  tsig : Tsig.Spec → Prop
  zone : EnteredName → ZoneStateFile.Spec → Prop

section

variable [Text SocketAddr] [Text Name]

/-- A path is only given what is saved to it. -/
structure Saved.Given (saved : Saved) (places : Places) (json : Json) (key : PathKey)
    (bytes : List UInt8) : Prop where
  state : key = places.stateFile.components →
    ∃ spec, saved.state spec ∧ json.Saves StateFile.codec spec bytes
  tsig : key = places.tsigStorePath.components →
    ∃ spec, saved.tsig spec ∧ json.Saves Tsig.codec spec bytes
  zone : ∀ name, key = (zoneStatePath places.display places.zoneStateDir name).components →
    ∃ spec, saved.zone name spec ∧ json.Saves ZoneStateFile.codec spec bytes

/-- The library reads back what it writes of the specifications that are saved. -/
structure Saved.ReadBack (saved : Saved) (json : Json) : Prop where
  state : ∀ spec, saved.state spec → ∀ v, StateFile.codec.encode spec = some v →
    json.fromReader (json.toString v) = some v
  tsig : ∀ spec, saved.tsig spec → ∀ v, Tsig.codec.encode spec = some v →
    json.fromReader (json.toString v) = some v
  zone : ∀ name spec, saved.zone name spec → ∀ v, ZoneStateFile.codec.encode spec = some v →
    json.fromReader (json.toString v) = some v

/-- Whatever saves and loads there are at a time, whichever of their accesses fail, and however often
the daemon is stopped in the middle of them: a load of the global state file, of the TSIG store or
of the state of a zone that finds a file finds one specification that was saved there, as a
whole. -/
theorem loads_find_whole_saves {saved : Saved} {places : Places} {json : Json}
    (hjson : saved.ReadBack json) {fs : FileSystem PathKey}
    (hfs : ∀ key bytes, fs.content key = some bytes → saved.Given places json key bytes)
    {d : WriteFile.Disk}
    (h : Reach WriteFile.Disk.step (WriteFile.Disk.saves (saved.Given places json))
      (fun d ↦ d = ⟨fs, []⟩) d)
    {path : Utf8Path} {bytes : List UInt8}
    (hload : .load path (.returned (.ok bytes)) ∈ d.tasks) :
    (path.components = places.stateFile.components →
      ∃ spec, saved.state spec ∧ json.load StateFile.codec bytes = some spec) ∧
    (path.components = places.tsigStorePath.components →
      ∃ spec, saved.tsig spec ∧ json.load Tsig.codec bytes = some spec) ∧
    (∀ name, path.components = (zoneStatePath places.display places.zoneStateDir name).components →
      ∃ spec, saved.zone name spec ∧ json.load ZoneStateFile.codec bytes = some spec) := by
  have hstart : ∀ r : Register PathKey (List UInt8), r = WriteFile.Disk.seen ⟨fs, []⟩ →
      r.Of (saved.Given places json) := by
    intro r hr
    subst hr
    refine ⟨?_, fun _ hmem ↦ absurd hmem List.not_mem_nil⟩
    intro key bytes hvalue
    apply hfs
    by_cases hkey : WriteFile.isTemp key = true
    · simp [WriteFile.Disk.seen, hkey] at hvalue
    · simpa [WriteFile.Disk.seen, hkey] using hvalue
  have hseen : d.seen.Of (saved.Given places json) :=
    Register.of_reach hstart (WriteFile.sound_and_seen h).2
  have hgiven : saved.Given places json path.components bytes :=
    hseen.tasks _ (List.mem_map_of_mem hload) path.components bytes ⟨rfl, rfl⟩
  refine ⟨?_, ?_, ?_⟩
  · intro hpath
    obtain ⟨spec, hspec, hsaves⟩ := hgiven.state hpath
    exact ⟨spec, hspec, hsaves.load_eq (hjson.state spec hspec)⟩
  · intro hpath
    obtain ⟨spec, hspec, hsaves⟩ := hgiven.tsig hpath
    exact ⟨spec, hspec, hsaves.load_eq (hjson.tsig spec hspec)⟩
  · intro name hpath
    obtain ⟨spec, hspec, hsaves⟩ := hgiven.zone name hpath
    exact ⟨spec, hspec, hsaves.load_eq (hjson.zone name spec hspec)⟩

end

/-! ## One zone without a policy -/

namespace OneZoneFile

def places : Places where
  display := SlashExample.display
  stateFile := Utf8Path.ofString "/var/state.db"
  tsigStorePath := Utf8Path.ofString "/var/tsig-keys.db"
  zoneStateDir := SlashExample.zones

def path : Utf8Path := zoneStatePath SlashExample.display SlashExample.zones SlashExample.inside

def value : Value := .object [("version", .string "v1"), ("policy", .null)]

def text : List UInt8 :=
  "\x7b\"version\":\"v1\",\"policy\":null\x7d".toList.map (fun c ↦ UInt8.ofNat c.toNat)

/-- The library on this one value. -/
def json : Json where
  toString _ := text
  fromReader bytes := if bytes = text then some value else none

def saved : Saved where
  state _ := False
  tsig _ := False
  zone _ spec := spec = { policy := none }

/-- The file is saved, a second save is stopped, and the file is loaded after a restart. -/
def actions : List WriteFile.Action :=
  [.save path text, .next 0 .done, .next 0 (.tempName ".tmpAb0cD1".toList), .next 0 (.bytes 100),
    .next 0 .done, .next 0 .done, .save path text, .next 1 .done,
    .next 1 (.tempName ".tmpXyZ789".toList), .next 1 (.bytes 3), .crash, .load path, .next 0 .done,
    .next 0 (.bytes 100), .next 0 (.bytes 100)]

def emptyDisk : WriteFile.Disk := ⟨⟨∅, [], by decide⟩, []⟩

def allowed (_ : WriteFile.Disk) : WriteFile.Action → Bool
  | .save p contents => decide (p.components = path.components) && decide (contents = text)
  | .load p => decide (p.components = path.components)
  | _ => true

def found (task : WriteFile.Task) : Bool :=
  match task with
  | .load p (.returned (.ok bytes)) =>
    decide (p.components = path.components) && decide (bytes = text)
  | _ => false

def ended (d : WriteFile.Disk) : Bool := d.tasks.any found

theorem readBack [Text SocketAddr] [Text Name] : saved.ReadBack json := by
  refine ⟨fun _ h ↦ h.elim, fun _ h ↦ h.elim, ?_⟩
  intro name spec hspec v hv
  have hspec : spec = { policy := none } := hspec
  subst hspec
  have hvalue : some value = some v := hv
  rw [← Option.some.inj hvalue]
  show (if text = text then some value else none) = some value
  exact if_pos rfl

theorem given [Text SocketAddr] [Text Name] :
    saved.Given places json path.components text := by
  refine ⟨?_, ?_, ?_⟩
  · intro h
    exact absurd h (by decide +kernel)
  · intro h
    exact absurd h (by decide +kernel)
  · intro name _
    exact ⟨{ policy := none }, rfl, value, rfl, rfl⟩

theorem saves_of_allowed [Text SocketAddr] [Text Name] (d : WriteFile.Disk) (a : WriteFile.Action)
    (h : allowed d a = true) : d.saves (saved.Given places json) a := by
  have htemp : WriteFile.isTemp path.components = false := isTemp_zoneStatePath _ _ _
  cases a with
  | save p contents =>
    simp only [allowed, Bool.and_eq_true, decide_eq_true_eq] at h
    show WriteFile.isTemp p.components = false ∧ saved.Given places json p.components contents
    rw [h.1, h.2]
    exact ⟨htemp, given⟩
  | load p =>
    simp only [allowed, decide_eq_true_eq] at h
    show WriteFile.isTemp p.components = false
    rw [h]
    exact htemp
  | next i answer => trivial
  | crash => trivial

end OneZoneFile

open OneZoneFile in
theorem zone_file_found_after_crash :
    ∃ d p bytes, WriteFile.Task.load p (.returned (.ok bytes)) ∈ d.tasks ∧
      ended d = true ∧ ∃ spec, saved.zone SlashExample.inside spec ∧
        json.load ZoneStateFile.codec bytes = some spec := by
  let : Text SocketAddr := StateFile.ShortRun.socketAddrText
  let : Text Name := StateFile.ShortRun.nameText
  have hallowed : execOk WriteFile.Disk.step allowed emptyDisk actions = true := by decide +kernel
  have hended : (exec WriteFile.Disk.step emptyDisk actions).any ended = true := by decide +kernel
  have hrun : ∃ d, Reach WriteFile.Disk.step (fun d a ↦ allowed d a = true)
      (fun d ↦ d = emptyDisk) d ∧ ended d = true := by
    apply Reach.of_exec _ actions hallowed hended
    rfl
  have ⟨d, hd, hended⟩ := hrun
  have ⟨task, htask, hfound⟩ := List.any_eq_true.mp hended
  cases task with
  | save p contents stage => cases hfound
  | load p stage =>
    cases stage with
    | opening => cases hfound
    | reading file buf => cases hfound
    | returned res =>
      cases res with
      | error kind => cases hfound
      | ok bytes =>
        simp only [found, Bool.and_eq_true, decide_eq_true_eq] at hfound
        have hnone : ∀ key bytes, emptyDisk.fs.content key = some bytes →
            saved.Given places json key bytes := nofun
        have hloads := loads_find_whole_saves readBack hnone (hd.mono saves_of_allowed) htask
        exact ⟨d, p, bytes, htask, hended, hloads.2.2 SlashExample.inside hfound.1⟩

end Cascade
