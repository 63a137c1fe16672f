import Cascade.Maintainer

/-!
# The refresh timers

`refresh_zone_at` keeps at most one timer for a zone.  A timer has its deadline twice: in the
`ZoneRefreshInstant` that it returns when it fires, and in its sleep.  A new deadline is compared
with that of the sleep, by a duration that is missing when the new one is the later one.

A delay that leads past the last instant there is (`checked_add(..).unwrap()`) is left out.
-/

namespace Cascade

open Lib

/-- Of the sleep (`sleep_fut`) there is the deadline. -/
structure ZoneRefreshTimer where
  refreshInstant : ZoneRefreshInstant
  deadline : Instant

namespace ZoneRefreshTimer

def new (refreshInstant : ZoneRefreshInstant) : ZoneRefreshTimer :=
  ⟨refreshInstant, refreshInstant.endInstant⟩

def zoneId (timer : ZoneRefreshTimer) : ZoneId := timer.refreshInstant.zoneId

def replace (timer newTimer : ZoneRefreshTimer) : ZoneRefreshTimer :=
  let timer := { timer with refreshInstant := newTimer.refreshInstant }
  { timer with deadline := timer.refreshInstant.endInstant }

/-- What becomes of the timer of a zone when there is a new one for it. -/
def merge (timer newTimer : ZoneRefreshTimer) : ZoneRefreshTimer :=
  match checkedDurationSince timer.deadline newTimer.deadline with
  | none => timer
  | some _ => timer.replace newTimer

/-- Both deadlines of the timer are the same. -/
def Synced (timer : ZoneRefreshTimer) : Prop := timer.refreshInstant.endInstant = timer.deadline

theorem synced_new (refreshInstant : ZoneRefreshInstant) : (new refreshInstant).Synced := rfl

variable {timer newTimer : ZoneRefreshTimer}

theorem merge_synced (h : timer.Synced) : (timer.merge newTimer).Synced := by
  unfold merge
  split
  · exact h
  · rfl

theorem merge_zoneId (h : timer.zoneId = newTimer.zoneId) :
    (timer.merge newTimer).zoneId = newTimer.zoneId := by
  unfold merge
  split
  · exact h
  · rfl

-- The earlier deadline stays.
theorem merge_deadline (h : newTimer.Synced) :
    (timer.merge newTimer).deadline = min newTimer.deadline timer.deadline := by
  unfold merge
  split
  next hnone =>
    have hlt := checkedDurationSince_eq_none_iff.mp hnone
    exact (min_eq_right hlt.le).symm
  next hsome =>
    have hle : ¬timer.deadline < newTimer.deadline := by
      intro hlt
      rw [checkedDurationSince_eq_none_iff.mpr hlt] at hsome
      cases hsome
    show newTimer.refreshInstant.endInstant = _
    rw [h, min_eq_left (not_lt.mp hle)]

theorem merge_refreshInstant (htimer : timer.Synced) (hnew : newTimer.Synced) :
    (timer.merge newTimer).refreshInstant =
      if timer.refreshInstant.endInstant < newTimer.refreshInstant.endInstant then
        timer.refreshInstant
      else newTimer.refreshInstant := by
  unfold Synced at htimer hnew
  rw [htimer, hnew]
  unfold merge checkedDurationSince
  by_cases hle : newTimer.deadline ≤ timer.deadline
  · rw [if_pos hle, if_neg (not_lt.mpr hle)]
    rfl
  · rw [if_neg hle, if_pos (not_le.mp hle)]

end ZoneRefreshTimer

/-- The first timer of the zone, if there is one, gives way to an earlier new one. -/
def addTimer (timers : List ZoneRefreshTimer) (newTimer : ZoneRefreshTimer) :
    List ZoneRefreshTimer :=
  match timers with
  | [] => [newTimer]
  | timer :: timers =>
    if timer.zoneId = newTimer.zoneId then timer.merge newTimer :: timers
    else timer :: addTimer timers newTimer

/-- The run loop's timers (`refresh_timers`), and for each zone the deadlines that were asked for
since its last timer fired, the last one first. -/
structure RefreshTimers where
  now : Instant
  refreshTimers : List ZoneRefreshTimer
  requested : ZoneId → List Instant

namespace RefreshTimers

def refreshZoneAt (s : RefreshTimers) (cause : ZoneRefreshCause) (key : ZoneId)
    (at' : Option UInt32) : RefreshTimers :=
  let newRefreshInstant := ZoneRefreshInstant.new s.now key (at'.getD 0) cause
  { s with refreshTimers := addTimer s.refreshTimers (.new newRefreshInstant) }

/-- The deadline is noted as asked for. -/
def request (s : RefreshTimers) (key : ZoneId) (at' : Option UInt32) : RefreshTimers :=
  { s with
    requested := Function.update s.requested key
      ((s.now + intoDuration (at'.getD 0)) :: s.requested key) }

/-- A timer whose deadline has passed fires and is removed; which one is not said. -/
def fire (s : RefreshTimers) (k : Nat) : Option RefreshTimers :=
  match s.refreshTimers[k]? with
  | some timer =>
    if timer.deadline ≤ s.now then
      some { s with
        refreshTimers := s.refreshTimers.eraseIdx k
        requested := Function.update s.requested timer.zoneId [] }
    else none
  | none => none

inductive Action
  | wait (duration : Nat)
  | refreshZoneAt (cause : ZoneRefreshCause) (key : ZoneId) (at' : Option UInt32)
  | fire (k : Nat)

def step (s : RefreshTimers) : Action → Option RefreshTimers
  | .wait duration => some { s with now := s.now + duration }
  | .refreshZoneAt cause key at' => some ((s.refreshZoneAt cause key at').request key at')
  | .fire k => s.fire k

/-- Nothing has been asked for yet. -/
def Started (s : RefreshTimers) : Prop :=
  s.refreshTimers = [] ∧ ∀ zoneId, s.requested zoneId = []

/-- A zone has at most one timer, which is set to the earliest deadline asked for, and it has one if
there is such a deadline. -/
structure Earliest (timers : List ZoneRefreshTimer) (requested : ZoneId → List Instant) : Prop where
  nodup : (timers.map ZoneRefreshTimer.zoneId).Nodup
  synced : ∀ timer ∈ timers, timer.Synced
  deadline : ∀ timer ∈ timers, (requested timer.zoneId).min? = some timer.deadline
  present : ∀ zoneId, requested zoneId ≠ [] → ∃ timer ∈ timers, timer.zoneId = zoneId

/-! ## Adding and removing a timer

The order of the timers is of no importance. -/

variable {timers timers' : List ZoneRefreshTimer} {timer newTimer : ZoneRefreshTimer}
  {requested : ZoneId → List Instant} {deadlines : List Instant}

theorem addTimer_cases (timers : List ZoneRefreshTimer) (newTimer : ZoneRefreshTimer) :
    ((∀ timer ∈ timers, timer.zoneId ≠ newTimer.zoneId) ∧
      (newTimer :: timers).Perm (addTimer timers newTimer)) ∨
    ∃ timer others, timers.Perm (timer :: others) ∧ timer.zoneId = newTimer.zoneId ∧
      (timer.merge newTimer :: others).Perm (addTimer timers newTimer) := by
  induction timers with
  | nil => exact Or.inl ⟨List.forall_mem_nil _, List.Perm.refl _⟩
  | cons timer timers ih =>
    unfold addTimer
    by_cases hsame : timer.zoneId = newTimer.zoneId
    · rw [if_pos hsame]
      exact Or.inr ⟨timer, timers, List.Perm.refl _, hsame, List.Perm.refl _⟩
    · rw [if_neg hsame]
      rcases ih with ⟨hnone, hadd⟩ | ⟨old, others, hold, hzone, hadd⟩
      · refine Or.inl ⟨List.forall_mem_cons.mpr ⟨hsame, hnone⟩, ?_⟩
        exact (List.Perm.swap _ _ _).trans (hadd.cons timer)
      · refine Or.inr ⟨old, timer :: others, ?_, hzone, ?_⟩
        · exact (hold.cons timer).trans (List.Perm.swap _ _ _)
        · exact (List.Perm.swap _ _ _).trans (hadd.cons timer)

theorem Earliest.perm (h : Earliest timers requested) (hperm : timers.Perm timers') :
    Earliest timers' requested := by
  constructor
  · exact (hperm.map _).nodup_iff.mp h.nodup
  · intro timer hmem
    exact h.synced timer (hperm.mem_iff.mpr hmem)
  · intro timer hmem
    exact h.deadline timer (hperm.mem_iff.mpr hmem)
  · intro zoneId hne
    have ⟨timer, hmem, heq⟩ := h.present zoneId hne
    exact ⟨timer, hperm.mem_iff.mp hmem, heq⟩

-- A timer is removed with the requests for its zone.
theorem Earliest.tail (h : Earliest (timer :: timers) requested) :
    Earliest timers (Function.update requested timer.zoneId []) := by
  have ⟨hnot, hnodup⟩ := List.nodup_cons.mp h.nodup
  have hother : ∀ other ∈ timers, other.zoneId ≠ timer.zoneId := by
    intro other hmem heq
    apply hnot
    rw [← heq]
    exact List.mem_map_of_mem hmem
  constructor
  · exact hnodup
  · intro other hmem
    exact h.synced other (List.mem_cons_of_mem _ hmem)
  · intro other hmem
    rw [Function.update_of_ne (hother other hmem)]
    exact h.deadline other (List.mem_cons_of_mem _ hmem)
  · intro zoneId hne
    by_cases hsame : zoneId = timer.zoneId
    · rw [hsame, Function.update_self] at hne
      exact absurd rfl hne
    · rw [Function.update_of_ne hsame] at hne
      have ⟨other, hmem, heq⟩ := h.present zoneId hne
      rcases List.mem_cons.mp hmem with hfirst | hmem
      · rw [← heq, hfirst] at hsame
        exact absurd rfl hsame
      · exact ⟨other, hmem, heq⟩

-- A zone without a timer gets one for the earliest of some deadlines.
theorem Earliest.cons (h : Earliest timers requested)
    (hnone : ∀ timer ∈ timers, timer.zoneId ≠ newTimer.zoneId) (hsynced : newTimer.Synced)
    (hmin : deadlines.min? = some newTimer.deadline) :
    Earliest (newTimer :: timers) (Function.update requested newTimer.zoneId deadlines) := by
  constructor
  · show (newTimer.zoneId :: timers.map ZoneRefreshTimer.zoneId).Nodup
    apply List.nodup_cons.mpr
    refine ⟨?_, h.nodup⟩
    intro hmem
    have ⟨timer, htimer, heq⟩ := List.mem_map.mp hmem
    exact hnone timer htimer heq
  · exact List.forall_mem_cons.mpr ⟨hsynced, h.synced⟩
  · refine List.forall_mem_cons.mpr ⟨?_, ?_⟩
    · rw [Function.update_self]
      exact hmin
    · intro timer hmem
      rw [Function.update_of_ne (hnone timer hmem)]
      exact h.deadline timer hmem
  · intro zoneId hne
    by_cases hsame : zoneId = newTimer.zoneId
    · exact ⟨newTimer, List.mem_cons_self, hsame.symm⟩
    · rw [Function.update_of_ne hsame] at hne
      have ⟨timer, hmem, heq⟩ := h.present zoneId hne
      exact ⟨timer, List.mem_cons_of_mem _ hmem, heq⟩

/-! ## The runs -/

-- One more request for a zone.
theorem Earliest.addTimer (h : Earliest timers requested) (hnew : newTimer.Synced) :
    Earliest (addTimer timers newTimer) (Function.update requested newTimer.zoneId
      (newTimer.deadline :: requested newTimer.zoneId)) := by
  rcases addTimer_cases timers newTimer with ⟨hnone, hadd⟩ | ⟨timer, others, hold, hzone, hadd⟩
  · have hfirst : requested newTimer.zoneId = [] := by
      by_contra hne
      have ⟨timer, hmem, heq⟩ := h.present _ hne
      exact hnone timer hmem heq
    rw [hfirst]
    exact (h.cons hnone hnew rfl).perm hadd
  · have hheld := h.perm hold
    have hothers : ∀ other ∈ others, other.zoneId ≠ (timer.merge newTimer).zoneId := by
      intro other hmem heq
      rw [ZoneRefreshTimer.merge_zoneId hzone, ← hzone] at heq
      apply (List.nodup_cons.mp hheld.nodup).1
      rw [← heq]
      exact List.mem_map_of_mem hmem
    have hmin : (newTimer.deadline :: requested newTimer.zoneId).min? =
        some (timer.merge newTimer).deadline := by
      have hdeadline := hheld.deadline timer List.mem_cons_self
      rw [hzone] at hdeadline
      rw [List.min?_cons, hdeadline, ZoneRefreshTimer.merge_deadline hnew]
      rfl
    have hsynced : (timer.merge newTimer).Synced :=
      ZoneRefreshTimer.merge_synced (hheld.synced timer List.mem_cons_self)
    have hmerged := (hheld.tail.cons hothers hsynced hmin).perm hadd
    rw [ZoneRefreshTimer.merge_zoneId hzone, hzone, Function.update_idem] at hmerged
    exact hmerged

variable {s s' : RefreshTimers} {a : Action}

theorem earliest_step (h : Earliest s.refreshTimers s.requested) (hs' : s.step a = some s') :
    Earliest s'.refreshTimers s'.requested := by
  cases a with
  | wait duration =>
    cases hs'
    exact h
  | refreshZoneAt cause key at' =>
    cases hs'
    exact h.addTimer (ZoneRefreshTimer.synced_new _)
  | fire k =>
    simp only [step, fire] at hs'
    split at hs'
    next timer htimer =>
      split at hs'
      · cases hs'
        have ⟨hlt, hget⟩ := List.getElem?_eq_some_iff.mp htimer
        rw [← hget]
        exact (h.perm (List.getElem_cons_eraseIdx_perm hlt).symm).tail
      · cases hs'
    · cases hs'

/-- In every run, a zone has at most one refresh timer, which is set to the earliest of the deadlines
that were asked for since the zone's last timer fired; the deadline that the timer returns is that of
its sleep.  A zone has a timer exactly when a refresh was asked for since then. -/
theorem zone_timer_earliest (h : Reach step anyStep Started s) :
    (s.refreshTimers.map ZoneRefreshTimer.zoneId).Nodup ∧
    (∀ timer ∈ s.refreshTimers, (s.requested timer.zoneId).min? = some timer.deadline ∧
      timer.refreshInstant.endInstant = timer.deadline) ∧
    ∀ zoneId, (∃ timer ∈ s.refreshTimers, timer.zoneId = zoneId) ↔ s.requested zoneId ≠ [] := by
  have hearliest : Earliest s.refreshTimers s.requested := by
    apply h.invariant (I := fun s ↦ Earliest s.refreshTimers s.requested)
    · intro s ⟨htimers, hrequested⟩
      rw [htimers]
      exact ⟨List.nodup_nil, List.forall_mem_nil _, List.forall_mem_nil _,
        fun zoneId hne ↦ absurd (hrequested zoneId) hne⟩
    · intro s a s' hs _ hs'
      exact earliest_step hs hs'
  refine ⟨hearliest.nodup, ?_, ?_⟩
  · intro timer hmem
    exact ⟨hearliest.deadline timer hmem, hearliest.synced timer hmem⟩
  · intro zoneId
    refine ⟨?_, hearliest.present zoneId⟩
    intro ⟨timer, hmem, heq⟩ hnil
    have hdeadline := hearliest.deadline timer hmem
    rw [heq, hnil] at hdeadline
    cases hdeadline

namespace RefreshTimersExample

def zone : ZoneId := ZoneMaintainer.ShortRun.zoneId 62 (by decide)

def other : ZoneId := ZoneMaintainer.ShortRun.zoneId 63 (by decide)

/-- A zone is asked for in an hour, and five seconds later in a minute; a timer of another zone fires
in between. -/
def hourThenMinute : List Action :=
  [.refreshZoneAt .SoaRefreshTimer zone (some 3600), .refreshZoneAt .SoaRetryTimer other none,
    .fire 1, .wait 5000000000, .refreshZoneAt .ManualTrigger zone (some 60)]

end RefreshTimersExample

open RefreshTimersExample in
theorem later_request_fires_sooner : ∃ s : RefreshTimers, s.requested other = [] ∧
    ∃ timer ∈ s.refreshTimers, timer.zoneId = zone ∧ timer.deadline = 65000000000 ∧
      timer.refreshInstant.endInstant = 65000000000 := by
  have hrun : ∃ s, Reach step anyStep Started s ∧
      decide (s.requested zone = [65000000000, 3600000000000] ∧ s.requested other = []) = true :=
    Reach.of_exec_any (s := ⟨0, [], fun _ ↦ []⟩) ⟨rfl, fun _ ↦ rfl⟩ hourThenMinute (by decide)
  have ⟨s, hs, hend⟩ := hrun
  have ⟨hzone, hother⟩ := of_decide_eq_true hend
  have ⟨_, htimers, hpresent⟩ := zone_timer_earliest hs
  have hasked : s.requested zone ≠ [] := by
    rw [hzone]
    exact List.cons_ne_nil _ _
  have ⟨timer, hmem, heq⟩ := (hpresent zone).mpr hasked
  have ⟨hmin, hsynced⟩ := htimers timer hmem
  rw [heq, hzone] at hmin
  have hdeadline : timer.deadline = 65000000000 := (Option.some.inj hmin).symm
  exact ⟨s, hother, timer, hmem, heq, hdeadline, hsynced.trans hdeadline⟩

end RefreshTimers

-- The timers of the maintainer are these, without their sleeps.
theorem map_addTimer {timers : List ZoneRefreshTimer} {newTimer : ZoneRefreshTimer}
    (hsynced : ∀ timer ∈ timers, timer.Synced) (hnew : newTimer.Synced) :
    (addTimer timers newTimer).map ZoneRefreshTimer.refreshInstant =
      refreshZoneAt (timers.map ZoneRefreshTimer.refreshInstant) newTimer.refreshInstant := by
  induction timers with
  | nil => rfl
  | cons timer timers ih =>
    have ⟨htimer, htimers⟩ := List.forall_mem_cons.mp hsynced
    unfold addTimer
    rw [List.map_cons]
    unfold refreshZoneAt
    unfold ZoneRefreshTimer.zoneId
    by_cases hsame : timer.refreshInstant.zoneId = newTimer.refreshInstant.zoneId
    · rw [if_pos hsame, if_pos hsame, List.map_cons,
        ZoneRefreshTimer.merge_refreshInstant htimer hnew]
      split
      · rfl
      · rfl
    · rw [if_neg hsame, if_neg hsame, List.map_cons, ih htimers]

end Cascade
