import Cascade.Lib.Saver
import Cascade.StateFile
import Cascade.Tsig

/-!
# Save tasks

The global state, the TSIG store and the state of each zone are saved by the same three pieces of
code: `mark_dirty`, which spawns a task, the task, and a save at once (`save_now`,
`save_state_now`).  A task takes itself out of `enqueued_save` and builds its file under the lock,
but writes the file after that, and so does a save at once.  Nothing keeps two of them from writing
in the other order, and then the file holds the older snapshot.

The path of each file is as the configuration has it; it stays the same here.
-/

namespace Cascade

open Lib

def State.saves : Store State StateFile.Spec where
  slot := fun state ↦ state.enqueuedSave
  setSlot := fun save state ↦ { state with enqueuedSave := save }
  build := StateFile.Spec.build
  slot_setSlot := fun _ _ ↦ rfl
  build_setSlot := fun _ _ ↦ rfl

def ZoneState.saves : Store ZoneState ZoneStateFile.Spec where
  slot := fun state ↦ state.enqueuedSave
  setSlot := fun save state ↦ { state with enqueuedSave := save }
  build := ZoneStateFile.Spec.build
  slot_setSlot := fun _ _ ↦ rfl
  build_setSlot := fun _ _ ↦ rfl

def Tsig.TsigStore.saves (Key : Type) [Tsig.KeyLib Key] :
    Store (Tsig.TsigStore Key) Tsig.Spec where
  slot := fun store ↦ store.enqueuedSave
  setSlot := fun save store ↦ { store with enqueuedSave := save }
  build := Tsig.Spec.build
  slot_setSlot := fun _ _ ↦ rfl
  build_setSlot := fun _ _ ↦ rfl

/-! ## Marking as dirty -/

theorem Center.markDirty_state (c : Center) :
    c.markDirty.state = State.saves.markDirty c.state c.nextTask := by
  unfold Center.markDirty Store.markDirty
  have hslot : State.saves.slot c.state = c.state.enqueuedSave := rfl
  rw [hslot]
  cases c.state.enqueuedSave with
  | some save => rfl
  | none => rfl

theorem Center.lookup_markZoneDirty_self (c : Center) (n : Name) (z : ZoneState) :
    (c.markZoneDirty n z).state.zones.lookup n = some (ZoneState.saves.markDirty z c.nextTask) := by
  unfold Center.markZoneDirty Store.markDirty
  have hslot : ZoneState.saves.slot z = z.enqueuedSave := rfl
  rw [hslot]
  cases z.enqueuedSave with
  | some save => exact AList.lookup_insert c.state.zones
  | none => exact AList.lookup_insert c.state.zones

theorem Tsig.TsigStore.markDirty_eq {Key : Type} [Tsig.KeyLib Key] (store : Tsig.TsigStore Key)
    (task : TaskId) : store.markDirty task = (Tsig.TsigStore.saves Key).markDirty store task := rfl

/-! ## The order of the writes -/

/-- In every run of the saves of one of the three kinds of state in which a snapshot is written only
after all those taken before it, the file holds the current state as soon as all saves that were
started have finished and none is enqueued. -/
theorem saves_in_order_keep_newest (Key : Type) [Tsig.KeyLib Key] :
    (∀ p : Saver State StateFile.Spec,
      Reach (Saver.step State.saves) (fun p a ↦ p.inOrder a = true) (Saver.Started State.saves) p →
      p.Quiet State.saves → p.tasks ≠ [] → p.file = some (StateFile.Spec.build p.content)) ∧
    (∀ p : Saver (Tsig.TsigStore Key) Tsig.Spec,
      Reach (Saver.step (Tsig.TsigStore.saves Key)) (fun p a ↦ p.inOrder a = true)
        (Saver.Started (Tsig.TsigStore.saves Key)) p →
      p.Quiet (Tsig.TsigStore.saves Key) → p.tasks ≠ [] →
      p.file = some (Tsig.Spec.build p.content)) ∧
    (∀ p : Saver ZoneState ZoneStateFile.Spec,
      Reach (Saver.step ZoneState.saves) (fun p a ↦ p.inOrder a = true)
        (Saver.Started ZoneState.saves) p →
      p.Quiet ZoneState.saves → p.tasks ≠ [] →
      p.file = some (ZoneStateFile.Spec.build p.content)) := by
  refine ⟨?_, ?_, ?_⟩
  · exact fun _ h hquiet htasks ↦ Saver.saved_of_quiet h hquiet htasks
  · exact fun _ h hquiet htasks ↦ Saver.saved_of_quiet h hquiet htasks
  · exact fun _ h hquiet htasks ↦ Saver.saved_of_quiet h hquiet htasks

/-! ## A snapshot that is overtaken -/

namespace SavesExample

def zone : Name := ⟨[[115, 118]], by decide⟩

/-- No zone is known, and nothing was saved. -/
def empty : State := State.new Config.default

def withZone : State := { empty with zones := AList.insert zone {} ∅ }

def saver : Saver State StateFile.Spec := ⟨empty, [], [], none⟩

/-- The state of a zone with a policy of that name. -/
def withPolicy (name : String) : ZoneState :=
  { policy := some
      { name
        loader := { review := { required := false, cmdHook := none } }
        keyManager := {}
        signer :=
          { serialPolicy := .Keep
            sigInceptionOffset := Duration.fromSecs 86400
            sigValidityTime := Duration.fromSecs 1209600
            denial := .NSec
            review := { required := false, cmdHook := none } }
        server := {} } }

/-- A zone state changes twice before its save takes the snapshot, and once after that. -/
def zoneActions : List (Saver.Action ZoneState) :=
  [.mutate (withPolicy "first"), .wake 0, .mutate (withPolicy "second"), .lock 0,
    .mutate (withPolicy "third"), .saveNow, .write 0, .write 2]

end SavesExample

theorem saves_of_one_zone_kept : ∃ p : Saver ZoneState ZoneStateFile.Spec,
    p.Quiet ZoneState.saves ∧
      p.file = some (ZoneStateFile.Spec.build (SavesExample.withPolicy "third")) := by
  have hstarted : Saver.Started ZoneState.saves ⟨{}, [], [], none⟩ := ⟨rfl, rfl, rfl⟩
  have hrun : ∃ p, Reach (Saver.step ZoneState.saves) (fun p a ↦ p.inOrder a = true)
      (Saver.Started ZoneState.saves) p ∧
        decide (p.Quiet ZoneState.saves ∧ p.tasks ≠ [] ∧
          p.content.policy = (SavesExample.withPolicy "third").policy) = true :=
    Reach.of_exec hstarted SavesExample.zoneActions (by decide) (by decide)
  have ⟨p, hp, hend⟩ := hrun
  have ⟨hquiet, htasks, hpolicy⟩ := of_decide_eq_true hend
  have hfile := (saves_in_order_keep_newest Tsig.PlainKey).2.2 p hp hquiet htasks
  refine ⟨p, hquiet, ?_⟩
  rw [hfile, ZoneStateFile.Spec.build, hpolicy]
  rfl

/-- A zone is added while the snapshot without it waits to be written, and all is saved at once: the
older snapshot is written last, so the file does not hold the zone. -/
theorem overtaken_snapshot_stays : ∃ p : Saver State StateFile.Spec,
    Reach (Saver.step State.saves) anyStep (Saver.Started State.saves) p ∧
      p.Quiet State.saves ∧ p.file ≠ some (StateFile.Spec.build p.content) := by
  have ⟨p, hexec, hquiet, hfile, hbuild⟩ := Saver.exec_overtaking State.saves
    SavesExample.empty SavesExample.empty SavesExample.withZone rfl
  have hstarted : Saver.Started State.saves SavesExample.saver := ⟨rfl, rfl, rfl⟩
  refine ⟨p, Reach.exec_any (.start hstarted) _ hexec, hquiet, ?_⟩
  rw [hfile]
  intro heq
  have hsame : State.saves.build SavesExample.empty = State.saves.build SavesExample.withZone :=
    (Option.some.inj heq).trans hbuild
  have hzones := congrArg (fun spec ↦ spec.zones.lookup SavesExample.zone) hsame
  exact absurd hzones (by decide)

end Cascade
