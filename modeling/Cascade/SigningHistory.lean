import Cascade.Lib.Runs
import Cascade.Lib.VecDeque
import Cascade.Pipeline

/-!
# The history of signing

The signer keeps a record of each call of `sign_zone`: when it was requested, how far it has come and,
once the zone is signed, what was done and how long that took.  The record is found by the name of
the zone, from the newest one back.  Records of calls that came to nothing stay where they are until
there is no room for them any more.
-/

namespace Cascade

open Lib

namespace SigningHistory

structure RequestedStatus where
  requestedAt : Instant
deriving DecidableEq

structure InProgressStatus where
  requestedAt : Instant
  zoneSerial : Serial
  startedAt : Instant
  unsignedRrCount : Option Nat := none
  walkTime : Option Duration := none
  sortTime : Option Duration := none
  denialRrCount : Option Nat := none
  denialTime : Option Duration := none
  rrsigCount : Option Nat := none
  rrsigReusedCount : Option Nat := none
  rrsigTime : Option Duration := none
  insertionTime : Option Duration := none
  totalTime : Option Duration := none
  threadsUsed : Option Nat := none
deriving DecidableEq

def InProgressStatus.new (requestedStatus : RequestedStatus) (zoneSerial : Serial) (now : Instant) :
    InProgressStatus where
  requestedAt := requestedStatus.requestedAt
  zoneSerial := zoneSerial
  startedAt := now

structure FinishedStatus where
  requestedAt : Instant
  startedAt : Instant
  zoneSerial : Serial
  unsignedRrCount : Nat
  walkTime : Duration
  sortTime : Duration
  denialRrCount : Nat
  denialTime : Duration
  rrsigCount : Nat
  rrsigReusedCount : Nat
  rrsigTime : Duration
  insertionTime : Duration
  totalTime : Duration
  threadsUsed : Nat
  finishedAt : Instant
deriving DecidableEq

/-- The clock is read twice, first for `started_at`.  `none` is a panic: a value is missing. -/
def FinishedStatus.new (inProgressStatus : InProgressStatus) (now later : Instant) :
    Option FinishedStatus := do
  let unsignedRrCount ← inProgressStatus.unsignedRrCount
  let walkTime ← inProgressStatus.walkTime
  let sortTime ← inProgressStatus.sortTime
  let denialRrCount ← inProgressStatus.denialRrCount
  let denialTime ← inProgressStatus.denialTime
  let rrsigCount ← inProgressStatus.rrsigCount
  let rrsigReusedCount ← inProgressStatus.rrsigReusedCount
  let rrsigTime ← inProgressStatus.rrsigTime
  let insertionTime ← inProgressStatus.insertionTime
  let totalTime ← inProgressStatus.totalTime
  let threadsUsed ← inProgressStatus.threadsUsed
  some {
    requestedAt := inProgressStatus.requestedAt
    zoneSerial := inProgressStatus.zoneSerial
    startedAt := now
    unsignedRrCount, walkTime, sortTime, denialRrCount, denialTime, rrsigCount, rrsigReusedCount
    rrsigTime, insertionTime, totalTime, threadsUsed
    finishedAt := later }

inductive ZoneSigningStatus
  | requested (status : RequestedStatus)
  | inProgress (status : InProgressStatus)
  | finished (status : FinishedStatus)
deriving DecidableEq

namespace ZoneSigningStatus

/-- A signing operation that already finished cannot be started. -/
def start (status : ZoneSigningStatus) (zoneSerial : Serial) (now : Instant) :
    Option ZoneSigningStatus :=
  match status with
  | requested s => some (inProgress (InProgressStatus.new s zoneSerial now))
  | inProgress _ => some status
  | finished _ => none

/-- A signing operation that never started cannot be finished. -/
def finish (status : ZoneSigningStatus) (now later : Instant) : Option ZoneSigningStatus :=
  match status with
  | requested _ => none
  | inProgress s => (FinishedStatus.new s now later).map finished
  | finished _ => some status

end ZoneSigningStatus

structure NamedZoneSigningStatus where
  zoneName : Name
  status : ZoneSigningStatus
deriving DecidableEq

def maxSigningHistory : Nat := 100

structure ZoneSignerStatus where
  zonesBeingSigned : VecDeque NamedZoneSigningStatus

namespace ZoneSignerStatus

/-- The queue is made with room for `MAX_SIGNING_HISTORY` records, or more. -/
def default (spare : Nat) : ZoneSignerStatus :=
  ⟨{ capacity := maxSigningHistory + spare, items := [] }⟩

/-- The newest record of the zone, if there is one, is changed. -/
def getMut (s : ZoneSignerStatus) (wantedZoneName : Name)
    (change : ZoneSigningStatus → Option ZoneSigningStatus) : Option ZoneSignerStatus := do
  let items ← changeLast (fun v ↦ decide (v.zoneName = wantedZoneName))
    (fun v ↦ (change v.status).map (fun status ↦ { v with status })) s.zonesBeingSigned.items
  some ⟨{ s.zonesBeingSigned with items }⟩

def enqueue (grow : Nat → Nat) (s : ZoneSignerStatus) (zoneName : Name) (now : Instant) :
    ZoneSignerStatus :=
  let q := s.zonesBeingSigned
  -- the oldest one is discarded
  let q := if q.isFull then q.popFront else q
  ⟨q.pushBack grow { zoneName, status := .requested ⟨now⟩ }⟩

def start (s : ZoneSignerStatus) (zoneName : Name) (zoneSerial : Serial) (now : Instant) :
    Option ZoneSignerStatus :=
  s.getMut zoneName (fun status ↦
    match status with
    | .requested _ => status.start zoneSerial now
    | _ => some status)

/-- Only an existing unfinished status can be updated. -/
def update (s : ZoneSignerStatus) (zoneName : Name) (cb : InProgressStatus → InProgressStatus) :
    Option ZoneSignerStatus :=
  s.getMut zoneName (fun status ↦
    match status with
    | .inProgress inProgressStatus => some (.inProgress (cb inProgressStatus))
    | _ => some status)

def finish (s : ZoneSignerStatus) (zoneName : Name) (now later : Instant) :
    Option ZoneSignerStatus :=
  s.getMut zoneName (fun status ↦
    match status with
    | .inProgress _ => status.finish now later
    | _ => some status)

end ZoneSignerStatus

/-! ## The calls of `sign_zone` -/

inductive Call
  | enqueue (zoneName : Name) (now : Instant)
  | start (zoneName : Name) (zoneSerial : Serial) (now : Instant)
  | update (zoneName : Name) (cb : InProgressStatus → InProgressStatus)
  | finish (zoneName : Name) (now later : Instant)

/-- `none` is a panic. -/
def makeCall (grow : Nat → Nat) (s : ZoneSignerStatus) : Call → Option ZoneSignerStatus
  | .enqueue zoneName now => some (s.enqueue grow zoneName now)
  | .start zoneName zoneSerial now => s.start zoneName zoneSerial now
  | .update zoneName cb => s.update zoneName cb
  | .finish zoneName now later => s.finish zoneName now later

/-- What the clock shows in a call of `sign_zone`: at the request, at the start, and twice at the
end. -/
structure Clock where
  requested : Instant
  started : Instant
  finishing : Instant
  finished : Instant
  requested_le : requested ≤ started
  started_le : started ≤ finishing
  finishing_le : finishing ≤ finished

structure Walked where
  unsignedRrCount : Nat
  walkTime : Duration

structure Denied where
  denialRrCount : Nat
  denialTime : Duration

structure Generated where
  rrsigCount : Nat
  rrsigTime : Duration
  insertionTime : Duration
  totalTime : Duration

namespace InProgressStatus

def setWalked (walked : Walked) (s : InProgressStatus) : InProgressStatus :=
  { s with unsignedRrCount := some walked.unsignedRrCount, walkTime := some walked.walkTime }

def setSorted (sortTime : Duration) (s : InProgressStatus) : InProgressStatus :=
  { s with sortTime := some sortTime }

def setDenied (denied : Denied) (s : InProgressStatus) : InProgressStatus :=
  { s with denialRrCount := some denied.denialRrCount, denialTime := some denied.denialTime }

def setThreads (parallelism : Nat) (s : InProgressStatus) : InProgressStatus :=
  { s with threadsUsed := some parallelism }

/-- Reusing signatures is not implemented yet. -/
def setGenerated (generated : Generated) (s : InProgressStatus) : InProgressStatus :=
  { s with
    rrsigCount := some generated.rrsigCount
    rrsigReusedCount := some 0
    rrsigTime := some generated.rrsigTime }

def setTotal (generated : Generated) (s : InProgressStatus) : InProgressStatus :=
  { s with
    insertionTime := some generated.insertionTime
    totalTime := some generated.totalTime }

end InProgressStatus

open InProgressStatus

/-- One call of `sign_zone`: the zone, and what comes of each part of the work.  `signing_keys` says
how many keys there are to sign with. -/
structure SignRun where
  zoneName : Name
  clock : Clock
  zoneToSign : Option ZoneContent
  walked : Walked
  signingKeys : Except String Nat
  sortTime : Duration
  denial : Except String Denied
  parallelism : Nat
  rrsigs : Option Generated

inductive SigningError
  | unknownZone
  | soaNotFound
  | keys (err : String)
  | denial (err : String)
  | rrsigGeneration
deriving DecidableEq

/-- What `sign_zone` returns from some point on, and the calls that it makes on the history. -/
abbrev Outcome := Except SigningError Unit × List Call

def calling (calls : List Call) (rest : Outcome) : Outcome := (rest.1, calls ++ rest.2)

def signZone (run : SignRun) : Outcome :=
  calling [.enqueue run.zoneName run.clock.requested] <|
  match run.zoneToSign with
  | none => (.error .unknownZone, [])
  | some unsignedZone =>
    match unsignedZone.soa with
    | none => (.error .soaNotFound, [])
    | some soa =>
      calling [
        .start run.zoneName soa.serial run.clock.started,
        .update run.zoneName (setWalked run.walked)] <|
      match run.signingKeys with
      | .error err => (.error (.keys err), [])
      -- nothing is signed without a key
      | .ok 0 => (.ok (), [])
      | .ok (_ + 1) =>
        calling [.update run.zoneName (setSorted run.sortTime)] <|
        match run.denial with
        | .error err => (.error (.denial err), [])
        | .ok denied =>
          calling [
            .update run.zoneName (setDenied denied),
            .update run.zoneName (setThreads run.parallelism)] <|
          match run.rrsigs with
          | none => (.error .rrsigGeneration, [])
          | some generated =>
            calling [
              .update run.zoneName (setGenerated generated),
              .update run.zoneName (setTotal generated),
              .finish run.zoneName run.clock.finishing run.clock.finished] (.ok (), [])

def SignRun.calls (run : SignRun) : List Call := (signZone run).2

/-- The zone can be signed, and the call gets to `finish`. -/
def Completes (run : SignRun) : Prop :=
  ∃ unsignedZone soa keys denied generated, run.zoneToSign = some unsignedZone ∧
    unsignedZone.soa = some soa ∧ run.signingKeys = .ok (keys + 1) ∧ run.denial = .ok denied ∧
    run.rrsigs = some generated

/-! ## The exits -/

/-- A value is filled in and nothing else is changed. -/
def FillsIn (cb : InProgressStatus → InProgressStatus) : Prop :=
  ∀ s, (cb s).requestedAt = s.requestedAt ∧ (cb s).zoneSerial = s.zoneSerial ∧
    (cb s).startedAt = s.startedAt

@[simp]
theorem fillsIn_setWalked (walked : Walked) : FillsIn (setWalked walked) := fun _ ↦ ⟨rfl, rfl, rfl⟩

@[simp]
theorem fillsIn_setSorted (sortTime : Duration) : FillsIn (setSorted sortTime) :=
  fun _ ↦ ⟨rfl, rfl, rfl⟩

@[simp]
theorem fillsIn_setDenied (denied : Denied) : FillsIn (setDenied denied) := fun _ ↦ ⟨rfl, rfl, rfl⟩

@[simp]
theorem fillsIn_setThreads (parallelism : Nat) : FillsIn (setThreads parallelism) :=
  fun _ ↦ ⟨rfl, rfl, rfl⟩

@[simp]
theorem fillsIn_setGenerated (generated : Generated) : FillsIn (setGenerated generated) :=
  fun _ ↦ ⟨rfl, rfl, rfl⟩

@[simp]
theorem fillsIn_setTotal (generated : Generated) : FillsIn (setTotal generated) :=
  fun _ ↦ ⟨rfl, rfl, rfl⟩

/-- The work has begun, and some of it is done. -/
structure Begun (run : SignRun) (calls : List Call) (soa : Soa)
    (cbs : List (InProgressStatus → InProgressStatus)) : Prop where
  calls : calls = .start run.zoneName soa.serial run.clock.started ::
    cbs.map (Call.update run.zoneName)
  fillsIn : ∀ cb ∈ cbs, FillsIn cb

section

variable {run : SignRun}

/-- What is called after `enqueue`. -/
def SignRun.life (run : SignRun) : List Call := run.calls.tail

theorem calls_eq (run : SignRun) :
    run.calls = .enqueue run.zoneName run.clock.requested :: run.life := rfl

-- The calls up to `finish`, which fill everything in.
theorem life_of_completes (h : Completes run) : ∃ soa denied generated calls,
    run.life = calls ++ [.finish run.zoneName run.clock.finishing run.clock.finished] ∧
      Begun run calls soa [setWalked run.walked, setSorted run.sortTime, setDenied denied,
        setThreads run.parallelism, setGenerated generated, setTotal generated] := by
  obtain ⟨unsignedZone, soa, keys, denied, generated, hzone, hsoa, hkeys, hdenial, hrrsigs⟩ := h
  refine ⟨soa, denied, generated, _, ?_, rfl, by simp⟩
  simp only [SignRun.life, SignRun.calls, signZone, hzone, hsoa, hkeys, hdenial, hrrsigs]
  rfl

-- Every other exit is before `finish`.
theorem life_of_not_completes (h : ¬Completes run) :
    run.life = [] ∨ ∃ soa cbs, Begun run run.life soa cbs := by
  cases hzone : run.zoneToSign with
  | none =>
    apply Or.inl
    simp only [SignRun.life, SignRun.calls, signZone, hzone]
    rfl
  | some unsignedZone =>
    cases hsoa : unsignedZone.soa with
    | none =>
      apply Or.inl
      simp only [SignRun.life, SignRun.calls, signZone, hzone, hsoa]
      rfl
    | some soa =>
      apply Or.inr
      apply Exists.intro soa
      simp only [SignRun.life, SignRun.calls, signZone, hzone, hsoa]
      cases hkeys : run.signingKeys with
      | error err => exact ⟨[setWalked run.walked], rfl, by simp⟩
      | ok keys =>
        cases keys with
        | zero => exact ⟨[setWalked run.walked], rfl, by simp⟩
        | succ keys =>
          cases hdenial : run.denial with
          | error err => exact ⟨[setWalked run.walked, setSorted run.sortTime], rfl, by simp⟩
          | ok denied =>
            cases hrrsigs : run.rrsigs with
            | none =>
              exact ⟨[setWalked run.walked, setSorted run.sortTime, setDenied denied,
                setThreads run.parallelism], rfl, by simp⟩
            | some generated =>
              apply absurd _ h
              exact ⟨unsignedZone, soa, keys, denied, generated, hzone, hsoa, hkeys, hdenial, hrrsigs⟩

end

/-! ## The life of a record -/

/-- What may be called after `enqueue`. -/
inductive CallOf (run : SignRun) : Call → Prop
  | start (soa : Soa) : CallOf run (.start run.zoneName soa.serial run.clock.started)
  | update {cb : InProgressStatus → InProgressStatus} :
      FillsIn cb → CallOf run (.update run.zoneName cb)
  | finish : CallOf run (.finish run.zoneName run.clock.finishing run.clock.finished)

/-- A call, for the record that it finds. -/
def advance (status : ZoneSigningStatus) : Call → Option ZoneSigningStatus
  | .enqueue _ _ => some status
  | .start _ zoneSerial now =>
    match status with
    | .requested _ => status.start zoneSerial now
    | _ => some status
  | .update _ cb =>
    match status with
    | .inProgress inProgressStatus => some (.inProgress (cb inProgressStatus))
    | _ => some status
  | .finish _ now later =>
    match status with
    | .inProgress _ => status.finish now later
    | _ => some status

section

variable {run : SignRun} {calls : List Call} {soa : Soa}
  {cbs : List (InProgressStatus → InProgressStatus)}

theorem Begun.callOf (h : Begun run calls soa cbs) : ∀ call ∈ calls, CallOf run call := by
  intro call hcall
  rw [h.calls] at hcall
  cases hcall with
  | head => exact CallOf.start soa
  | tail _ hcall =>
    obtain ⟨cb, hcb, heq⟩ := List.mem_map.mp hcall
    rw [← heq]
    exact CallOf.update (h.fillsIn cb hcb)

theorem Begun.no_finish (h : Begun run calls soa cbs) {zoneName : Name} {now later : Instant} :
    .finish zoneName now later ∉ calls := by
  intro hcall
  rw [h.calls] at hcall
  cases hcall with
  | tail _ hcall =>
    obtain ⟨cb, -, heq⟩ := List.mem_map.mp hcall
    cases heq

-- The record is in progress, with all that was filled in.
theorem Begun.exec (h : Begun run calls soa cbs) :
    Lib.exec advance (.requested ⟨run.clock.requested⟩) calls =
      some (.inProgress (cbs.foldl (fun s cb ↦ cb s)
        (InProgressStatus.new ⟨run.clock.requested⟩ soa.serial run.clock.started))) := by
  have hupdates : ∀ (cbs : List (InProgressStatus → InProgressStatus)) (s : InProgressStatus),
      Lib.exec advance (.inProgress s) (cbs.map (Call.update run.zoneName)) =
        some (.inProgress (cbs.foldl (fun s cb ↦ cb s) s)) := by
    intro cbs
    induction cbs with
    | nil => exact fun _ ↦ rfl
    | cons cb cbs ih => exact fun s ↦ ih (cb s)
  rw [h.calls]
  exact hupdates cbs _

theorem callOf_of_mem_life {call : Call} (h : call ∈ run.life) : CallOf run call := by
  by_cases hcompletes : Completes run
  · obtain ⟨soa, denied, generated, calls, hlife, hbegun⟩ := life_of_completes hcompletes
    rw [hlife] at h
    rcases List.mem_append.mp h with h | h
    · exact hbegun.callOf call h
    · rw [List.mem_singleton.mp h]
      exact CallOf.finish
  · rcases life_of_not_completes hcompletes with hlife | ⟨soa, cbs, hbegun⟩
    · rw [hlife] at h
      cases h
    · exact hbegun.callOf call h

theorem completes_of_finish {zoneName : Name} {now later : Instant}
    (h : .finish zoneName now later ∈ run.life) : Completes run := by
  by_contra hcompletes
  rcases life_of_not_completes hcompletes with hlife | ⟨soa, cbs, hbegun⟩
  · rw [hlife] at h
    cases h
  · exact hbegun.no_finish h

/-- Whatever the exit, the record goes through all of the calls. -/
theorem exists_advance_life (run : SignRun) :
    ∃ status, exec advance (.requested ⟨run.clock.requested⟩) run.life = some status := by
  by_cases hcompletes : Completes run
  · obtain ⟨soa, denied, generated, calls, hlife, hbegun⟩ := life_of_completes hcompletes
    rw [hlife, exec_append, hbegun.exec]
    exact ⟨_, rfl⟩
  · rcases life_of_not_completes hcompletes with hlife | ⟨soa, cbs, hbegun⟩
    · rw [hlife]
      exact ⟨_, rfl⟩
    · exact ⟨_, hbegun.exec⟩

-- Everything that finishing needs is filled in.
theorem finish_of_completes (h : Completes run) : ∃ calls s f,
    run.life = calls ++ [.finish run.zoneName run.clock.finishing run.clock.finished] ∧
      exec advance (.requested ⟨run.clock.requested⟩) calls = some (.inProgress s) ∧
      s.startedAt = run.clock.started ∧
      FinishedStatus.new s run.clock.finishing run.clock.finished = some f := by
  obtain ⟨soa, denied, generated, calls, hlife, hbegun⟩ := life_of_completes h
  exact ⟨calls, _, _, hlife, hbegun.exec, rfl, rfl⟩

end

end SigningHistory

end Cascade
