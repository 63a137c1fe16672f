import Mathlib.Data.List.Basic

/-!
# A bounded channel

A channel with room for so many messages.  A sender that finds it full, or finds another sender
waiting, waits in a queue; whenever a message is received, the message of the sender that has waited
longest takes the free place, and that sender goes on.  `queue` is what will be received, in order,
wherever it is held now.
-/

namespace Lib

structure Channel (T E : Type) where
  events : List E
  waiters : List (T × E)

namespace Channel

variable {T E : Type}

def empty : Channel T E := ⟨[], []⟩

/-- There is room for a message now. -/
def hasRoom (capacity : Nat) (c : Channel T E) : Bool :=
  c.waiters.isEmpty && decide (c.events.length < capacity)

def send (capacity : Nat) (c : Channel T E) (t : T) (e : E) : Channel T E :=
  if c.hasRoom capacity then { c with events := c.events ++ [e] }
  else { c with waiters := c.waiters ++ [(t, e)] }

def receive (c : Channel T E) : Option (E × Channel T E) :=
  match c.events, c.waiters with
  | [], _ => none
  | e :: es, [] => some (e, ⟨es, []⟩)
  | e :: es, (_, e') :: ws => some (e, ⟨es ++ [e'], ws⟩)

def queue (c : Channel T E) : List E := c.events ++ c.waiters.map Prod.snd

/-- The sender `t` waits. -/
def Waits (c : Channel T E) (t : T) : Prop := t ∈ c.waiters.map Prod.fst

instance [DecidableEq T] (c : Channel T E) (t : T) : Decidable (c.Waits t) :=
  inferInstanceAs (Decidable (t ∈ c.waiters.map Prod.fst))

theorem hasRoom_iff {capacity : Nat} {c : Channel T E} :
    c.hasRoom capacity = true ↔ c.waiters = [] ∧ c.events.length < capacity := by
  simp [hasRoom]

theorem send_of_hasRoom {capacity : Nat} {c : Channel T E} (h : c.hasRoom capacity = true) (t : T)
    (e : E) : c.send capacity t e = { c with events := c.events ++ [e] } := if_pos h

theorem not_waits_of_hasRoom {capacity : Nat} {c : Channel T E} (h : c.hasRoom capacity = true)
    (t : T) : ¬c.Waits t := by
  unfold Waits
  rw [(hasRoom_iff.mp h).1]
  exact List.not_mem_nil

theorem queue_send (capacity : Nat) (c : Channel T E) (t : T) (e : E) :
    (c.send capacity t e).queue = c.queue ++ [e] := by
  unfold send queue
  by_cases h : c.hasRoom capacity = true
  · have hnone : c.waiters = [] := by
      simp only [hasRoom, Bool.and_eq_true, List.isEmpty_iff] at h
      exact h.1
    rw [if_pos h, hnone]
    simp
  · rw [if_neg h]
    simp

theorem waits_send {capacity : Nat} {c : Channel T E} {t u : T} {e : E} :
    (c.send capacity t e).Waits u ↔ c.Waits u ∨ c.hasRoom capacity = false ∧ u = t := by
  unfold send Waits
  by_cases h : c.hasRoom capacity = true
  · simp [h]
  · simp [h]

theorem queue_receive {c c' : Channel T E} {e : E} (h : c.receive = some (e, c')) :
    c.queue = e :: c'.queue := by
  unfold receive at h
  unfold queue
  split at h
  · cases h
  next hevents hwaiters =>
    cases h
    simp [hevents, hwaiters]
  next hevents hwaiters =>
    cases h
    simp [hevents, hwaiters]

theorem events_of_receive {c c' : Channel T E} {e : E} (h : c.receive = some (e, c')) :
    ∃ es, c.events = e :: es := by
  unfold receive at h
  split at h
  · cases h
  next hevents _ =>
    cases h
    exact ⟨_, hevents⟩
  next hevents _ =>
    cases h
    exact ⟨_, hevents⟩

-- Receiving lets the first waiting sender go.
theorem waiters_receive {c c' : Channel T E} {e : E} (h : c.receive = some (e, c')) :
    c'.waiters = c.waiters.tail := by
  unfold receive at h
  split at h
  · cases h
  next hwaiters =>
    cases h
    simp [hwaiters]
  next hwaiters =>
    cases h
    simp [hwaiters]

theorem waits_of_receive {c c' : Channel T E} {e : E} (h : c.receive = some (e, c')) {t : T}
    (ht : c'.Waits t) : c.Waits t := by
  unfold Waits at ht ⊢
  rw [waiters_receive h, List.map_tail] at ht
  exact List.mem_of_mem_tail ht

-- What has been sent is in the channel, or waits for a place.
theorem mem_send (capacity : Nat) (c : Channel T E) (t : T) (e : E) :
    e ∈ (c.send capacity t e).events ∨ (t, e) ∈ (c.send capacity t e).waiters := by
  unfold send
  split
  · exact Or.inl (List.mem_append_right _ (List.mem_singleton_self e))
  · exact Or.inr (List.mem_append_right _ (List.mem_singleton_self (t, e)))

theorem mem_events_send {capacity : Nat} {c : Channel T E} {t : T} {e e' : E} (h : e ∈ c.events) :
    e ∈ (c.send capacity t e').events := by
  unfold send
  split
  · exact List.mem_append_left _ h
  · exact h

theorem mem_waiters_send {capacity : Nat} {c : Channel T E} {t : T} {e : E} {w : T × E}
    (h : w ∈ c.waiters) : w ∈ (c.send capacity t e).waiters := by
  unfold send
  split
  · exact h
  · exact List.mem_append_left _ h

theorem mem_events_receive {c c' : Channel T E} {e e' : E} (h : c.receive = some (e, c'))
    (hmem : e' ∈ c.events) : e' = e ∨ e' ∈ c'.events := by
  unfold receive at h
  split at h
  · cases h
  next hevents _ =>
    cases h
    rw [hevents] at hmem
    exact List.mem_cons.mp hmem
  next hevents _ =>
    cases h
    rw [hevents] at hmem
    exact (List.mem_cons.mp hmem).imp_right (List.mem_append_left _)

-- Who goes on has got its message into the channel.
theorem mem_waiters_receive {c c' : Channel T E} {e : E} {w : T × E}
    (h : c.receive = some (e, c')) (hmem : w ∈ c.waiters) : w.2 ∈ c'.events ∨ w ∈ c'.waiters := by
  unfold receive at h
  split at h
  · cases h
  next hwaiters =>
    rw [hwaiters] at hmem
    cases hmem
  next hwaiters =>
    cases h
    rw [hwaiters] at hmem
    rcases List.mem_cons.mp hmem with rfl | hmem
    · exact Or.inl (List.mem_append_right _ (List.mem_singleton_self _))
    · exact Or.inr hmem

end Channel

end Lib
