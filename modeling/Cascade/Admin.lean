import Cascade.Center
import Cascade.Tsig

/-!
# Administrative operations that fail

The six operations of the HTTP API on the zones, the policies and the TSIG store, with all the
state behind the daemon's lock: what an operation leaves behind when it returns an error.
-/

namespace Cascade

open Lib

namespace Admin

/-- All of the global state, the TSIG store included. -/
structure System (Key : Type) where
  center : Center
  tsigStore : Tsig.TsigStore Key

inductive Op
  | addZone (name : Name)
  | removeZone (name : Name)
  | changePolicy (name : Name) (policy : String)
  | importKey (name : Tsig.KeyName) (algorithm : Tsig.Algorithm) (material : List UInt8)
      (replace : Bool)
  | generateKey (name : Tsig.KeyName) (algorithm : Tsig.Algorithm)
      (random : Option (List UInt8)) (replace : Bool)
  | removeKey (name : Tsig.KeyName)

inductive Error
  | addZone (err : ZoneAddError)
  | removeZone (err : ZoneRemoveError)
  | changePolicy (err : ChangePolicyError)
  | importKey (err : Tsig.ImportError)
  | generateKey (err : Tsig.GenerateError)
  | removeKey (err : Tsig.RemoveError)
deriving DecidableEq

abbrev Outcome (Key : Type) := Except Error Unit × System Key

variable {Key : Type}

/-- An operation on the zones and policies. -/
def System.onCenter {ε : Type} (s : System Key) (wrap : ε → Error)
    (r : Except ε Unit × Center) : Outcome Key :=
  (r.1.mapError wrap, { s with center := r.2 })

/-- An operation on the TSIG store, which may spawn a save. -/
def System.onStore {ε : Type} (s : System Key) (wrap : ε → Error)
    (op : TaskId → Except ε Unit × Tsig.TsigStore Key) : Outcome Key :=
  let task := s.center.nextTask
  let r := op task
  let spawned := if r.2.enqueuedSave = s.tsigStore.enqueuedSave then task else task + 1
  (r.1.mapError wrap, { center := { s.center with nextTask := spawned }, tsigStore := r.2 })

theorem onCenter_error {ε : Type} {s s' : System Key} {wrap : ε → Error}
    {r : Except ε Unit × Center} {err : Error} (h : s.onCenter wrap r = (.error err, s')) :
    ∃ e, r.1 = .error e ∧ s' = { s with center := r.2 } := by
  have hres : r.1.mapError wrap = .error err := congrArg Prod.fst h
  cases hr : r.1 with
  | ok u =>
    rw [hr] at hres
    cases hres
  | error e => exact ⟨e, rfl, (congrArg Prod.snd h).symm⟩

theorem onStore_error {ε : Type} {s s' : System Key} {wrap : ε → Error}
    {op : TaskId → Except ε Unit × Tsig.TsigStore Key} {err : Error}
    (hop : ∀ task e, (op task).1 = .error e → (op task).2 = s.tsigStore)
    (h : s.onStore wrap op = (.error err, s')) : s' = s := by
  have hres : (op s.center.nextTask).1.mapError wrap = .error err := congrArg Prod.fst h
  cases hr : (op s.center.nextTask).1 with
  | ok u =>
    rw [hr] at hres
    cases hres
  | error e =>
    have hsame : (op s.center.nextTask).2 = s.tsigStore := hop _ e hr
    have hs : (s.onStore wrap op).2 = s' := congrArg Prod.snd h
    rw [← hs]
    simp [System.onStore, hsame]

theorem map_onCenter_error {ε : Type} {s s' : System Key} {wrap : ε → Error}
    {x : Except String (Except ε Unit × Center)} {err : Error}
    (h : x.map (s.onCenter wrap) = .ok (.error err, s')) :
    ∃ e c, x = .ok (.error e, c) ∧ s' = { s with center := c } := by
  cases x with
  | error message => cases h
  | ok r =>
    have ⟨e, hr, hs⟩ := onCenter_error (Except.ok.inj h)
    exact ⟨e, r.2, congrArg Except.ok (Prod.ext hr rfl), hs⟩

variable [Tsig.KeyLib Key]

/-- A call of an operation; `Except.error` is a panic. -/
def run (s : System Key) : Op → Except String (Outcome Key)
  | .addZone name => .ok (s.onCenter .addZone (addZone s.center name))
  | .removeZone name => (removeZone s.center name).map (s.onCenter .removeZone)
  | .changePolicy name policy =>
    (changePolicy s.center name policy).map (s.onCenter .changePolicy)
  | .importKey name algorithm material replace =>
    .ok (s.onStore .importKey fun task ↦
      Tsig.importKey s.tsigStore task name algorithm material replace)
  | .generateKey name algorithm random replace =>
    .ok (s.onStore .generateKey fun task ↦
      Tsig.generateKey s.tsigStore task name algorithm random replace)
  | .removeKey name =>
    .ok (s.onStore .removeKey fun task ↦ Tsig.removeKey s.tsigStore task name)

/-! ## The single operations -/

theorem addZone_error {c : Center} {name : Name} {err : ZoneAddError}
    (h : (addZone c name).1 = .error err) : (addZone c name).2 = c := by
  unfold addZone at h ⊢
  split at h
  · rename_i hmem
    rw [if_pos hmem]
  · cases h

-- The notification is the first thing that is done.
theorem removeZone_error {c c' : Center} {name : Name} {err : ZoneRemoveError}
    (h : removeZone c name = .ok (.error err, c')) :
    name ∉ c.state.zones ∧ c' = c.send (.Changed (.ZoneRemoved name)) := by
  unfold removeZone at h
  have hzones : (c.send (.Changed (.ZoneRemoved name))).state.zones = c.state.zones := rfl
  simp only [hzones] at h
  cases hl : c.state.zones.lookup name with
  | none =>
    rw [hl] at h
    cases h
    exact ⟨AList.lookup_eq_none.mp hl, rfl⟩
  | some zoneState =>
    rw [hl] at h
    cases hp : zoneState.policy with
    | none =>
      simp only [hp] at h
      cases h
    | some version =>
      simp only [hp] at h
      obtain ⟨policy, _, h⟩ := except_bind_ok h
      obtain ⟨_, _, h⟩ := except_bind_ok h
      cases h

theorem removeZone_unknown {c : Center} {name : Name} (h : name ∉ c.state.zones) :
    removeZone c name = .ok (.error .NotFound, c.send (.Changed (.ZoneRemoved name))) := by
  unfold removeZone
  have hl : c.state.zones.lookup name = none := AList.lookup_eq_none.mpr h
  have hzones : (c.send (.Changed (.ZoneRemoved name))).state.zones = c.state.zones := rfl
  simp only [hzones, hl]

-- Unlinking keeps every policy, so that the second lookup finds the one that was checked.
theorem lookup_unlinkPolicy {c c' : Center} {name : Name} {zoneState : ZoneState}
    (h : unlinkPolicy c name zoneState = .ok c') {policyName : String} {policy : Policy}
    (hl : c.state.policies.lookup policyName = some policy) :
    ∃ policy', c'.state.policies.lookup policyName = some policy' ∧
      policy'.midDeletion = policy.midDeletion := by
  unfold unlinkPolicy at h
  cases hp : zoneState.policy with
  | none =>
    simp only [hp] at h
    cases h
    exact ⟨policy, hl, rfl⟩
  | some version =>
    simp only [hp] at h
    obtain ⟨old, hold, h⟩ := except_bind_ok h
    obtain ⟨_, _, h⟩ := except_bind_ok h
    cases h
    by_cases hn : policyName = version.name
    · subst hn
      rw [hl] at hold
      cases hold
      exact ⟨_, AList.lookup_insert _, rfl⟩
    · exact ⟨policy, (AList.lookup_insert_ne hn).trans hl, rfl⟩

theorem linkPolicy_ok {c : Center} {policyName : String} {policy : Policy} (name : Name)
    (zoneState : ZoneState) (hl : c.state.policies.lookup policyName = some policy)
    (hmid : policy.midDeletion = false) : (linkPolicy c name zoneState policyName).1 = .ok () := by
  unfold linkPolicy
  simp only [hl, hmid]
  rfl

theorem changePolicy_error {c c' : Center} {name : Name} {policyName : String}
    {err : ChangePolicyError} (h : changePolicy c name policyName = .ok (.error err, c')) :
    c' = c := by
  unfold changePolicy at h
  cases hz : c.state.zones.lookup name with
  | none =>
    simp only [hz] at h
    cases h
    rfl
  | some zoneState =>
    cases hp : c.state.policies.lookup policyName with
    | none =>
      simp only [hz, hp] at h
      cases h
      rfl
    | some policy =>
      simp only [hz, hp] at h
      split at h
      · cases h
        rfl
      · rename_i hmid
        obtain ⟨unlinked, hunlink, h⟩ := except_bind_ok h
        obtain ⟨policy', hl, hmid'⟩ := lookup_unlinkPolicy hunlink hp
        have hlinked := linkPolicy_ok name { zoneState with policy := none }
          (c := unlinked.setZone name { zoneState with policy := none }) hl
          (by rw [hmid']; exact Bool.eq_false_iff.mpr hmid)
        rw [Except.ok.inj h] at hlinked
        cases hlinked

theorem importKey_error {store : Tsig.TsigStore Key} {task : TaskId} {name : Tsig.KeyName}
    {algorithm : Tsig.Algorithm} {material : List UInt8} {replace : Bool}
    {err : Tsig.ImportError}
    (h : (Tsig.importKey store task name algorithm material replace).1 = .error err) :
    (Tsig.importKey store task name algorithm material replace).2 = store := by
  unfold Tsig.importKey at h ⊢
  simp only at h ⊢
  split at h
  · rename_i hexists
    rw [if_pos hexists]
  · cases h

theorem generateKey_error {store : Tsig.TsigStore Key} {task : TaskId} {name : Tsig.KeyName}
    {algorithm : Tsig.Algorithm} {random : Option (List UInt8)} {replace : Bool}
    {err : Tsig.GenerateError}
    (h : (Tsig.generateKey store task name algorithm random replace).1 = .error err) :
    (Tsig.generateKey store task name algorithm random replace).2 = store := by
  unfold Tsig.generateKey at h ⊢
  cases hgen : (Tsig.KeyLib.generate algorithm random name : Option (Key × List UInt8)) with
  | none => rfl
  | some pair =>
    simp only [hgen] at h ⊢
    split at h
    · rename_i hexists
      rw [if_pos hexists]
    · cases h

omit [Tsig.KeyLib Key] in
theorem removeKey_error {store : Tsig.TsigStore Key} {task : TaskId} {name : Tsig.KeyName}
    {err : Tsig.RemoveError} (h : (Tsig.removeKey store task name).1 = .error err) :
    (Tsig.removeKey store task name).2 = store := by
  unfold Tsig.removeKey at h ⊢
  cases hl : store.map.lookup name with
  | none => rfl
  | some entry =>
    simp only [hl] at h ⊢
    split at h
    · cases h
    · rename_i hused
      rw [if_neg hused]

/-! ## All of them -/

/-- A zone that is to be removed exists. -/
def Known (s : System Key) (op : Op) : Prop :=
  ∀ name, op = .removeZone name → name ∈ s.center.state.zones

theorem run_error_unchanged {s s' : System Key} {op : Op} {err : Error} (hknown : Known s op)
    (h : run s op = .ok (.error err, s')) : s' = s := by
  cases op with
  | addZone name =>
    have ⟨e, hr, hs⟩ := onCenter_error (Except.ok.inj h)
    rw [hs, addZone_error hr]
  | removeZone name =>
    have ⟨e, c, hr, _⟩ := map_onCenter_error h
    exact absurd (hknown name rfl) (removeZone_error hr).1
  | changePolicy name policy =>
    have ⟨e, c, hr, hs⟩ := map_onCenter_error h
    rw [hs, changePolicy_error hr]
  | importKey name algorithm material replace =>
    exact onStore_error (fun _ _ he ↦ importKey_error he) (Except.ok.inj h)
  | generateKey name algorithm random replace =>
    exact onStore_error (fun _ _ he ↦ generateKey_error he) (Except.ok.inj h)
  | removeKey name => exact onStore_error (fun _ _ he ↦ removeKey_error he) (Except.ok.inj h)

theorem run_removeZone_unknown {s : System Key} {name : Name}
    (h : name ∉ s.center.state.zones) :
    run s (.removeZone name) = .ok (.error (.removeZone .NotFound),
      { s with center := s.center.send (.Changed (.ZoneRemoved name)) }) := by
  show (removeZone s.center name).map (s.onCenter .removeZone) = _
  rw [removeZone_unknown h]
  rfl

theorem send_ne (c : Center) (update : Update) : c.send update ≠ c := by
  intro h
  have hlength := congrArg (fun c ↦ c.updateTx.length) h
  simp [Center.send] at hlength

/-- An operation that returns an error leaves everything as it was, unless it was to remove a zone
that does not exist: then the units are told of its removal. -/
theorem failed_op_without_effect_iff (s : System Key) (op : Op) :
    (∀ err s', run s op = .ok (.error err, s') → s' = s) ↔ Known s op := by
  apply Iff.intro
  · intro h name hop
    by_contra hunknown
    subst hop
    have hsame := h _ _ (run_removeZone_unknown hunknown)
    exact send_ne s.center _ (congrArg System.center hsame)
  · intro hknown err s' h
    exact run_error_unchanged hknown h

namespace RemovalExample

def zone : Name := ⟨[[110, 120]], by decide⟩

/-- A daemon without zones. -/
def system : System Tsig.PlainKey :=
  { center := { state := State.new Config.default, updateTx := [], nextTask := 0 }
    tsigStore := {} }

end RemovalExample

/-- The removal of a zone that does not exist fails, and the units are told of it. -/
theorem failed_removal_notifies : ∃ s',
    run RemovalExample.system (.removeZone RemovalExample.zone) =
        .ok (.error (.removeZone .NotFound), s') ∧
      s'.center.updateTx = [.Changed (.ZoneRemoved RemovalExample.zone)] ∧
      s' ≠ RemovalExample.system := by
  refine ⟨_, run_removeZone_unknown (by decide), rfl, ?_⟩
  intro h
  have hsent := congrArg (fun s ↦ s.center.updateTx) h
  exact absurd hsent (by decide)

end Admin

end Cascade
