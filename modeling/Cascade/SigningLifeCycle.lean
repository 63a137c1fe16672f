import Cascade.SigningHistory

/-!
# The life cycle of the records

What the history is after any number of calls of `sign_zone`, one after another: each record is
changed by the call that made it alone, and the oldest ones make room for new ones.
-/

namespace Cascade

open Lib

namespace SigningHistory

/-- What is kept of a record that was in progress when it is finished. -/
structure Keeps (s : InProgressStatus) (f : FinishedStatus) : Prop where
  requestedAt : f.requestedAt = s.requestedAt
  startedAt : f.startedAt = s.startedAt
  zoneSerial : f.zoneSerial = s.zoneSerial
  requested_le : f.requestedAt ≤ f.startedAt
  started_le : f.startedAt ≤ f.finishedAt

/-- The history with a record of the zone at its end, less the oldest one if there was no room. -/
def withRecord (before : ZoneSignerStatus) (zoneName : Name) (status : ZoneSigningStatus) :
    ZoneSignerStatus :=
  ⟨before.zonesBeingSigned.pushed ⟨zoneName, status⟩⟩

section

variable (grow : Nat → Nat)

/-- Wherever the call of `sign_zone` is, it has not panicked, no other record was changed, and there
was no reallocation.  A record that is finished keeps what it was started with. -/
structure SoundRun (before : ZoneSignerStatus) (run : SignRun) : Prop where
  own : ∀ done rest, run.calls = done ++ rest → done ≠ [] → ∃ status,
    exec (makeCall grow) before done = some (withRecord before run.zoneName status)
  bounded : ∀ done rest s, run.calls = done ++ rest → exec (makeCall grow) before done = some s →
    s.zonesBeingSigned.items.length ≤ before.zonesBeingSigned.capacity
  finished : ∀ done call rest status f, run.calls = done ++ call :: rest →
    exec (makeCall grow) before done = some (withRecord before run.zoneName status) →
    makeCall grow (withRecord before run.zoneName status) call =
      some (withRecord before run.zoneName (.finished f)) →
    status = .finished f ∨ ∃ s, status = .inProgress s ∧ Keeps s f

/-- Every call of `sign_zone` finds the newest of the records of the calls before it, as many as there is
room for at the beginning, and is sound. -/
def SoundLifeCycle (spare : Nat) (runs : List SignRun) : Prop :=
  ∀ earlier run later, runs = earlier ++ run :: later → ∃ before records,
    exec (makeCall grow) (ZoneSignerStatus.default spare) (earlier.flatMap SignRun.calls) =
        some before ∧
      records.map NamedZoneSigningStatus.zoneName = earlier.map SignRun.zoneName ∧
      before.zonesBeingSigned =
        VecDeque.newest (ZoneSignerStatus.default spare).zonesBeingSigned.capacity records ∧
      SoundRun grow before run

end

/-! ## One call of `sign_zone` -/

/-- There is room for a record, and there are no more records than there is room for. -/
structure Roomy (s : ZoneSignerStatus) : Prop where
  room : 0 < s.zonesBeingSigned.capacity
  bounded : s.zonesBeingSigned.items.length ≤ s.zonesBeingSigned.capacity

section

variable {grow : Nat → Nat} {run : SignRun} {before : ZoneSignerStatus}

theorem Roomy.withRecord (hroomy : Roomy before) (zoneName : Name) (status : ZoneSigningStatus) :
    Roomy (withRecord before zoneName status) :=
  ⟨hroomy.room, VecDeque.length_pushed_le _ hroomy.room⟩

theorem withRecord_inj {zoneName : Name} {status status' : ZoneSigningStatus}
    (h : withRecord before zoneName status = withRecord before zoneName status') :
    status = status' := by
  have hitems := congrArg (fun s ↦ s.zonesBeingSigned.items.getLast?) h
  simp only [SigningHistory.withRecord, VecDeque.pushed, List.getLast?_concat, Option.some.injEq,
    NamedZoneSigningStatus.mk.injEq, true_and] at hitems
  exact hitems

theorem enqueue_eq (hroomy : Roomy before) (zoneName : Name) (now : Instant) :
    before.enqueue grow zoneName now = withRecord before zoneName (.requested ⟨now⟩) :=
  congrArg ZoneSignerStatus.mk
    (VecDeque.pushBack_eq_pushed grow _ hroomy.room hroomy.bounded)

theorem getMut_withRecord (before : ZoneSignerStatus) (zoneName : Name) (status : ZoneSigningStatus)
    (change : ZoneSigningStatus → Option ZoneSigningStatus) :
    (withRecord before zoneName status).getMut zoneName change =
      (change status).map (withRecord before zoneName) := by
  have hlast := changeLast_concat (p := fun v ↦ decide (v.zoneName = zoneName))
    (f := fun v ↦ (change v.status).map (fun status ↦ { v with status }))
    (x := (⟨zoneName, status⟩ : NamedZoneSigningStatus)) (decide_eq_true rfl)
    (before.zonesBeingSigned.items.drop
      (before.zonesBeingSigned.items.length + 1 - before.zonesBeingSigned.capacity))
  show (changeLast _ _ (_ ++ [_])).bind _ = _
  rw [hlast]
  cases change status with
  | none => rfl
  | some status' => rfl

variable (grow) in
-- A call finds the record of its own call of `sign_zone`.
theorem makeCall_withRecord (before : ZoneSignerStatus) (status : ZoneSigningStatus) {call : Call}
    (h : CallOf run call) :
    makeCall grow (withRecord before run.zoneName status) call =
      (advance status call).map (withRecord before run.zoneName) := by
  cases h with
  | start soa =>
    rw [makeCall, ZoneSignerStatus.start, getMut_withRecord]
    cases status <;> rfl
  | update _ =>
    rw [makeCall, ZoneSignerStatus.update, getMut_withRecord]
    cases status <;> rfl
  | finish =>
    rw [makeCall, ZoneSignerStatus.finish, getMut_withRecord]
    cases status <;> rfl

variable (grow) in
theorem exec_withRecord (before : ZoneSignerStatus) {calls : List Call}
    (h : ∀ call ∈ calls, CallOf run call) (status : ZoneSigningStatus) :
    exec (makeCall grow) (withRecord before run.zoneName status) calls =
      (exec advance status calls).map (withRecord before run.zoneName) := by
  induction calls generalizing status with
  | nil => rfl
  | cons call calls ih =>
    show (makeCall grow (withRecord before run.zoneName status) call).bind _ =
      ((advance status call).bind _).map _
    rw [makeCall_withRecord grow before status (h call List.mem_cons_self)]
    cases advance status call with
    | none => rfl
    | some status' => exact ih (fun c hc ↦ h c (List.mem_cons_of_mem call hc)) status'

variable (grow) in
-- After the request, a call of `sign_zone` is the life of its record.
theorem exec_calls (hroomy : Roomy before) {calls : List Call}
    (h : ∀ call ∈ calls, CallOf run call) :
    exec (makeCall grow) before (.enqueue run.zoneName run.clock.requested :: calls) =
      (exec advance (.requested ⟨run.clock.requested⟩) calls).map
        (withRecord before run.zoneName) := by
  show exec (makeCall grow) (before.enqueue grow run.zoneName run.clock.requested) calls = _
  rw [enqueue_eq hroomy]
  exact exec_withRecord grow before h _

-- What finishing takes over, and what it does not.
theorem new_eq_some {s : InProgressStatus} {now later : Instant} {f : FinishedStatus}
    (h : FinishedStatus.new s now later = some f) :
    f.requestedAt = s.requestedAt ∧ f.zoneSerial = s.zoneSerial ∧ f.startedAt = now ∧
      f.finishedAt = later := by
  unfold FinishedStatus.new at h
  -- every value is there
  iterate 11 obtain ⟨_, -, h⟩ := Option.bind_eq_some_iff.mp h
  rw [← Option.some.inj h]
  exact ⟨rfl, rfl, rfl, rfl⟩

/-- What a call can do to its record. -/
inductive Moves (run : SignRun) : Call → ZoneSigningStatus → ZoneSigningStatus → Prop
  | stays {call : Call} {status : ZoneSigningStatus} : Moves run call status status
  | starts {s : RequestedStatus} (soa : Soa) :
      Moves run (.start run.zoneName soa.serial run.clock.started) (.requested s)
        (.inProgress (InProgressStatus.new s soa.serial run.clock.started))
  | updates {s : InProgressStatus} {cb : InProgressStatus → InProgressStatus} : FillsIn cb →
      Moves run (.update run.zoneName cb) (.inProgress s) (.inProgress (cb s))
  | finishes {s : InProgressStatus} {f : FinishedStatus} :
      FinishedStatus.new s run.clock.finishing run.clock.finished = some f →
      Moves run (.finish run.zoneName run.clock.finishing run.clock.finished) (.inProgress s)
        (.finished f)

theorem Moves.of_same {status status' : ZoneSigningStatus} {call : Call}
    (h : some status = some status') : Moves run call status status' := by
  rw [← Option.some.inj h]
  exact Moves.stays

theorem moves_of_advance {status status' : ZoneSigningStatus} {call : Call}
    (hcall : CallOf run call) (h : advance status call = some status') :
    Moves run call status status' := by
  cases hcall with
  | start soa =>
    cases status with
    | requested s =>
      rw [← Option.some.inj h]
      exact Moves.starts soa
    | inProgress _ => exact Moves.of_same h
    | finished _ => exact Moves.of_same h
  | update hfills =>
    cases status with
    | requested _ => exact Moves.of_same h
    | inProgress s =>
      rw [← Option.some.inj h]
      exact Moves.updates hfills
    | finished _ => exact Moves.of_same h
  | finish =>
    cases status with
    | requested _ => exact Moves.of_same h
    | inProgress s =>
      obtain ⟨f, hf, heq⟩ := Option.map_eq_some_iff.mp h
      rw [← heq]
      exact Moves.finishes hf
    | finished _ => exact Moves.of_same h

/-- How the record stands to the clock. -/
def FollowsClock (run : SignRun) : ZoneSigningStatus → Prop
  | .requested s => s.requestedAt = run.clock.requested
  | .inProgress s => s.requestedAt = run.clock.requested ∧ s.startedAt = run.clock.started
  | .finished s => s.requestedAt = run.clock.requested ∧ s.startedAt = run.clock.finishing ∧
    s.finishedAt = run.clock.finished

theorem followsClock_moves {status status' : ZoneSigningStatus} {call : Call}
    (hfollows : FollowsClock run status) (h : Moves run call status status') :
    FollowsClock run status' := by
  cases h with
  | stays => exact hfollows
  | starts soa => exact ⟨hfollows, rfl⟩
  | @updates s cb hfills =>
    have hs := hfills s
    exact ⟨hs.1.trans hfollows.1, hs.2.2.trans hfollows.2⟩
  | finishes hnew =>
    have hf := new_eq_some hnew
    exact ⟨hf.1.trans hfollows.1, hf.2.2.1, hf.2.2.2⟩

theorem followsClock_exec {calls : List Call} (h : ∀ call ∈ calls, CallOf run call)
    {status status' : ZoneSigningStatus} (hfollows : FollowsClock run status)
    (hexec : exec advance status calls = some status') : FollowsClock run status' := by
  induction calls generalizing status with
  | nil =>
    cases hexec
    exact hfollows
  | cons call calls ih =>
    obtain ⟨next, hnext, hexec⟩ := Option.bind_eq_some_iff.mp hexec
    have hmoves := moves_of_advance (h call List.mem_cons_self) hnext
    exact ih (fun c hc ↦ h c (List.mem_cons_of_mem call hc)) (followsClock_moves hfollows hmoves)
      hexec

-- Somewhere after the request.
theorem split_calls {done rest : List Call} (h : run.calls = done ++ rest) (hdone : done ≠ []) :
    ∃ calls, done = .enqueue run.zoneName run.clock.requested :: calls ∧ run.life = calls ++ rest := by
  cases done with
  | nil => exact absurd rfl hdone
  | cons call calls =>
    rw [calls_eq, List.cons_append] at h
    obtain ⟨hcall, hcalls⟩ := List.cons.inj h
    exact ⟨calls, by rw [hcall], hcalls⟩

variable (grow) in
/-- All but the time of the start is sound, whatever the exit. -/
theorem exec_done (hroomy : Roomy before) {done rest : List Call} (h : run.calls = done ++ rest)
    (hdone : done ≠ []) :
    ∃ status, exec (makeCall grow) before done = some (withRecord before run.zoneName status) ∧
      FollowsClock run status := by
  obtain ⟨calls, heq, hlife⟩ := split_calls h hdone
  have hcalls : ∀ call ∈ calls, CallOf run call := by
    intro call hcall
    apply callOf_of_mem_life
    rw [hlife]
    exact List.mem_append_left rest hcall
  obtain ⟨last, hlast⟩ := exists_advance_life run
  rw [hlife, exec_append] at hlast
  obtain ⟨status, hstatus, -⟩ := Option.bind_eq_some_iff.mp hlast
  have hrequested : FollowsClock run (.requested ⟨run.clock.requested⟩) := rfl
  apply Exists.intro status
  constructor
  · rw [heq, exec_calls grow hroomy hcalls, hstatus]
    rfl
  · exact followsClock_exec hcalls hrequested hstatus

-- A record that becomes finished was in progress.  It has another time of the start.
theorem finished_of_makeCall (hroomy : Roomy before) {done rest : List Call} {call : Call}
    {status : ZoneSigningStatus} {f : FinishedStatus} (h : run.calls = done ++ call :: rest)
    (hexec : exec (makeCall grow) before done = some (withRecord before run.zoneName status))
    (hcall : makeCall grow (withRecord before run.zoneName status) call =
      some (withRecord before run.zoneName (.finished f))) :
    status = .finished f ∨ Completes run ∧ ∃ s, status = .inProgress s ∧
      FollowsClock run (.inProgress s) ∧
      FinishedStatus.new s run.clock.finishing run.clock.finished = some f := by
  by_cases hdone : done = []
  · -- the request itself
    rw [hdone, List.nil_append, calls_eq] at h
    rw [hdone] at hexec
    rw [← Option.some.inj hexec, ← (List.cons.inj h).1] at hcall
    have henqueue := Option.some.inj hcall
    rw [enqueue_eq hroomy] at henqueue
    cases withRecord_inj henqueue
  · obtain ⟨calls, -, hlife⟩ := split_calls h hdone
    have hmem : call ∈ run.life := by
      rw [hlife]
      exact List.mem_append_right calls List.mem_cons_self
    obtain ⟨status', hexec', hfollows⟩ := exec_done grow hroomy h hdone
    rw [hexec', Option.some.injEq] at hexec
    rw [withRecord_inj hexec] at hfollows
    rw [makeCall_withRecord grow before status (callOf_of_mem_life hmem)] at hcall
    obtain ⟨status', hadvance, heq⟩ := Option.map_eq_some_iff.mp hcall
    rw [withRecord_inj heq] at hadvance
    cases moves_of_advance (callOf_of_mem_life hmem) hadvance with
    | stays => exact Or.inl rfl
    | finishes hnew => exact Or.inr ⟨completes_of_finish hmem, _, rfl, hfollows, hnew⟩

theorem SoundRun.started_eq (hroomy : Roomy before) (h : SoundRun grow before run)
    (hcompletes : Completes run) : run.clock.finishing = run.clock.started := by
  obtain ⟨calls, s, f, hlife, hexec, hstarted, hnew⟩ := finish_of_completes hcompletes
  have hcalls : run.calls = (.enqueue run.zoneName run.clock.requested :: calls) ++
      [.finish run.zoneName run.clock.finishing run.clock.finished] := by
    rw [calls_eq, hlife]
    rfl
  have hcallOf : ∀ call ∈ calls, CallOf run call := by
    intro call hcall
    apply callOf_of_mem_life
    rw [hlife]
    exact List.mem_append_left _ hcall
  have hdone := exec_calls grow hroomy hcallOf
  rw [hexec] at hdone
  have hcall : CallOf run (.finish run.zoneName run.clock.finishing run.clock.finished) :=
    CallOf.finish
  have hfinish := makeCall_withRecord grow before (.inProgress s) hcall
  have hadvance : advance (.inProgress s)
      (.finish run.zoneName run.clock.finishing run.clock.finished) = some (.finished f) :=
    congrArg (Option.map ZoneSigningStatus.finished) hnew
  rw [hadvance] at hfinish
  rcases h.finished _ _ _ _ _ hcalls hdone hfinish with hstatus | ⟨s', hstatus, hkeeps⟩
  · cases hstatus
  · rw [← (new_eq_some hnew).2.2.1, ← hstarted, ZoneSigningStatus.inProgress.inj hstatus]
    exact hkeeps.startedAt

theorem soundRun_iff (hroomy : Roomy before) :
    SoundRun grow before run ↔ (Completes run → run.clock.finishing = run.clock.started) := by
  constructor
  · exact SoundRun.started_eq hroomy
  · intro hclock
    constructor
    · intro done rest h hdone
      obtain ⟨status, hexec, -⟩ := exec_done grow hroomy h hdone
      exact ⟨status, hexec⟩
    · intro done rest s h hexec
      by_cases hdone : done = []
      · rw [hdone] at hexec
        rw [← Option.some.inj hexec]
        exact hroomy.bounded
      · obtain ⟨status, hstatus, -⟩ := exec_done grow hroomy h hdone
        rw [hstatus] at hexec
        rw [← Option.some.inj hexec]
        exact (hroomy.withRecord run.zoneName status).bounded
    · intro done call rest status f h hexec hcall
      rcases finished_of_makeCall hroomy h hexec hcall with hstatus | ⟨hcompletes, s, hs, hfollows, hnew⟩
      · exact Or.inl hstatus
      · have hf := new_eq_some hnew
        have hstart := hclock hcompletes
        apply Or.inr
        apply Exists.intro s
        apply And.intro hs
        constructor
        · exact hf.1
        · rw [hf.2.2.1, hfollows.2, hstart]
        · exact hf.2.1
        · rw [hf.1, hf.2.2.1, hfollows.1, hstart]
          exact run.clock.requested_le
        · rw [hf.2.2.1, hf.2.2.2]
          exact run.clock.finishing_le

end

/-! ## One call after the other -/

section

variable {grow : Nat → Nat} {runs : List SignRun}

theorem roomy_newest (spare : Nat) (records : List NamedZoneSigningStatus) :
    Roomy ⟨VecDeque.newest (maxSigningHistory + spare) records⟩ := by
  constructor
  · show 0 < maxSigningHistory + spare
    rw [maxSigningHistory]
    omega
  · show (records.drop (records.length - (maxSigningHistory + spare))).length ≤ _
    rw [List.length_drop]
    show _ ≤ maxSigningHistory + spare
    omega

variable (grow) in
/-- The history after any calls of `sign_zone`. -/
theorem exec_runs (spare : Nat) (runs : List SignRun) : ∃ records,
    exec (makeCall grow) (ZoneSignerStatus.default spare) (runs.flatMap SignRun.calls) =
        some ⟨VecDeque.newest (maxSigningHistory + spare) records⟩ ∧
      records.map NamedZoneSigningStatus.zoneName = runs.map SignRun.zoneName := by
  induction runs using List.reverseRecOn with
  | nil =>
    apply Exists.intro []
    rw [VecDeque.newest_nil]
    exact ⟨rfl, rfl⟩
  | append_singleton runs run ih =>
    obtain ⟨records, hexec, hnames⟩ := ih
    have hroomy := roomy_newest spare records
    have hne : run.calls ≠ [] := List.cons_ne_nil _ _
    obtain ⟨status, hstatus, -⟩ :=
      exec_done grow hroomy (List.append_nil run.calls).symm hne
    apply Exists.intro (records ++ [⟨run.zoneName, status⟩])
    constructor
    · have hpushed := VecDeque.pushed_newest hroomy.room records
        ⟨run.zoneName, status⟩
      rw [List.flatMap_append, List.flatMap_singleton, exec_append, hexec, Option.bind_some, hstatus]
      exact congrArg (fun q ↦ some (ZoneSignerStatus.mk q)) hpushed
    · rw [List.map_append, List.map_append, hnames]
      rfl

/-- The records have a sound life cycle exactly where no time passes between the start and the end of
the calls that sign a zone: what is kept as the time of the start is the time of the end. -/
theorem soundLifeCycle_iff (grow : Nat → Nat) (spare : Nat) (runs : List SignRun) :
    SoundLifeCycle grow spare runs ↔
      ∀ run ∈ runs, Completes run → run.clock.finishing = run.clock.started := by
  constructor
  · intro h run hrun
    obtain ⟨earlier, later, heq⟩ := List.append_of_mem hrun
    obtain ⟨before, records, -, -, hnewest, hsound⟩ := h earlier run later heq
    have hbefore : before = ⟨VecDeque.newest (maxSigningHistory + spare) records⟩ :=
      congrArg ZoneSignerStatus.mk hnewest
    have hroomy : Roomy before := by
      rw [hbefore]
      exact roomy_newest spare records
    exact hsound.started_eq hroomy
  · intro h earlier run later heq
    obtain ⟨records, hexec, hnames⟩ := exec_runs grow spare earlier
    have hrun : run ∈ runs := by
      rw [heq]
      exact List.mem_append_right earlier List.mem_cons_self
    exact ⟨_, records, hexec, hnames, rfl, (soundRun_iff (roomy_newest spare records)).mpr (h run hrun)⟩

end

/-! ## A signed zone -/

namespace SignedExample

def zoneName : Name := ⟨[[115, 105, 103]], by decide⟩

def soa : Soa :=
  { mname := zoneName, rname := zoneName, serial := ⟨7⟩, refresh := 60, retry := 60, expire := 600
    minimum := 300 }

def second : Duration := Duration.fromSecs 1

/-- Requested at 0, started at 1 and finished at 3. -/
def run : SignRun where
  zoneName := zoneName
  clock := ⟨0, 1, 3, 3, by decide, by decide, by decide⟩
  zoneToSign := some { soa := some soa, records := [] }
  walked := ⟨1, second⟩
  signingKeys := .ok 1
  sortTime := second
  denial := .ok ⟨1, second⟩
  parallelism := 1
  rrsigs := some ⟨2, second, second, second⟩

theorem completes_run : Completes run := ⟨_, soa, 0, _, _, rfl, rfl, rfl, rfl, rfl⟩

end SignedExample

open SignedExample in
/-- The zone was started at 1, and its record says 3. -/
theorem start_overwritten :
    ¬SoundLifeCycle id 0 [run] ∧
      ∃ s f, exec (makeCall id) (ZoneSignerStatus.default 0) run.calls = some s ∧
        s.zonesBeingSigned.items = [⟨zoneName, .finished f⟩] ∧ f.startedAt = 3 := by
  constructor
  · intro h
    obtain ⟨before, records, hexec, -, -, hsound⟩ := h [] run [] rfl
    have hroomy : Roomy before := by
      rw [← Option.some.inj hexec]
      exact ⟨by decide, by decide⟩
    have heq := hsound.started_eq hroomy completes_run
    revert heq
    decide
  · exact ⟨_, _, rfl, rfl, rfl⟩

end SigningHistory

end Cascade
