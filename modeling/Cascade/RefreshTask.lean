import Cascade.MaintainerSteps
import Cascade.RefreshAttempt

/-!
# A refresh as a task

A refresh of a zone is a function of the answers of its primaries in `RefreshAttempt`, and a task of
the zone maintainer, which asks and records step by step.  While the other tasks and the loop rest,
the task comes to where the function ends, whatever the answers are.
-/

namespace Cascade

open Lib

namespace ZoneMaintainer

open RefreshAttempt
open Cascade.Primaries (Outcome Visits visitPrimaries)

/-- Time passes, or the task `i` goes on. -/
def onlyTask (i : TaskId) (_ : ZoneMaintainer) : Action → Prop
  | .tick _ => True
  | .task j _ => j = i
  | _ => False

/-- The task `i` has come from `m₀` to `stage` of a refresh, at `s`. -/
structure Underway (m₀ : ZoneMaintainer) (i : TaskId) (r : Refresh) (zone : MaintainedZone)
    (info : ZoneRefreshInfo) (s : Scene) (stage : RefreshStage) (channel : Channel TaskId Event)
    (m : ZoneMaintainer) : Prop where
  run : Reach ZoneMaintainer.step (onlyTask i) (· = m₀) m
  task : m.tasks[i]? = some (.refresh r stage)
  zone : m.zoneHeap.get r.zoneId r.handle = some { zone with soa := s.zoneSoa }
  tracked : m.timeTracking.lookup r.zoneId =
    some (s.reports.foldl Report.apply info).toZoneRefreshState
  now : m.now = s.now
  free : m.trackingFree = true
  channel : m.channel = channel

/-- What the task sends when a transfer is committed. -/
def sentAfter (channel : Channel TaskId Event) (i : TaskId) (zoneId : ZoneId) :
    Outcome → Channel TaskId Event
  | .ok (some _) => channel.send capacity i (.ZoneChanged zoneId none)
  | _ => channel

theorem not_waits_sentAfter {channel : Channel TaskId Event} {i : TaskId} {zoneId : ZoneId}
    (hroom : channel.hasRoom capacity = true) (res : Outcome) :
    ¬(sentAfter channel i zoneId res).Waits i := by
  have hawake := Channel.not_waits_of_hasRoom hroom i
  unfold sentAfter
  split
  · rw [Channel.waits_send]
    simp [hawake, hroom]
  · exact hawake

/-- Where the task goes on after a contact. -/
def stageAfter (primaries : Primaries) : Outcome → RefreshStage
  | .ok (some soa) => .finishing (.ok (some soa))
  | .ok none => .querying { primaries with numOk := primaries.numOk + 1 }
  | .error _ => .querying primaries.failed

/-! ## Steps of the task -/

section

variable {m₀ m m' : ZoneMaintainer} {i : TaskId} {r : Refresh} {zone : MaintainedZone}
  {info : ZoneRefreshInfo} {s : Scene} {stage stage' : RefreshStage}
  {channel : Channel TaskId Event} {input : Input}

theorem trackingFree_set {task : Task} (h : m.trackingFree = true)
    (htask : task.holdsTracking = false) (htasks : m'.tasks = m.tasks.set i task) :
    m'.trackingFree = true := by
  unfold trackingFree at h ⊢
  rw [Bool.not_eq_true', List.any_eq_false] at h ⊢
  intro task' hmem
  rw [htasks] at hmem
  cases List.mem_or_eq_of_mem_set hmem with
  | inl hold => exact h task' hold
  | inr hnew => simp [hnew, htask]

theorem getElem?_setTask {task task' : Task} (h : m.tasks[i]? = some task) :
    (m.tasks.set i task')[i]? = some task' :=
  List.getElem?_set_self (List.getElem?_eq_some_iff.mp h).1

theorem Underway.next (h : Underway m₀ i r zone info s stage channel m)
    (hawake : ¬channel.Waits i) (hnext : m.refreshNext i r stage input = some m') :
    Reach ZoneMaintainer.step (onlyTask i) (· = m₀) m' := by
  have hturn : m.step (.task i input) = some m' := by
    simp only [ZoneMaintainer.step, h.channel, if_neg hawake, h.task, taskNext, hnext]
  exact .next h.run (show onlyTask i m (.task i input) from rfl) hturn

theorem Underway.tick (h : Underway m₀ i r zone info s stage channel m) (elapsed : Nat) :
    Underway m₀ i r zone info { s with now := s.now + elapsed } stage channel
      { m with now := m.now + elapsed } where
  run := .next h.run (show onlyTask i m (.tick elapsed) from trivial) rfl
  task := h.task
  zone := h.zone
  tracked := h.tracked
  now := congrArg (· + elapsed) h.now
  free := h.free
  channel := h.channel

-- The task goes on and leaves the rest as it is.
theorem Underway.moves (h : Underway m₀ i r zone info s stage channel m)
    (hawake : ¬channel.Waits i) (input : Input) (hstage : (Task.refresh r stage').holdsTracking = false)
    (hnext : m.refreshNext i r stage input = some (m.setTask i (.refresh r stage'))) :
    Underway m₀ i r zone info s stage' channel (m.setTask i (.refresh r stage')) where
  run := h.next hawake hnext
  task := getElem?_setTask h.task
  zone := h.zone
  tracked := h.tracked
  now := h.now
  free := trackingFree_set h.free hstage rfl
  channel := h.channel

-- The task records something.
theorem Underway.records (h : Underway m₀ i r zone info s stage channel m)
    (hawake : ¬channel.Waits i) (report : Report) {f : ZoneRefreshState → ZoneRefreshState}
    (hf : (report.apply (s.reports.foldl Report.apply info)).toZoneRefreshState =
      f (s.reports.foldl Report.apply info).toZoneRefreshState)
    (hstage : (Task.refresh r stage').holdsTracking = false)
    (hnext : m.refreshNext i r stage input =
      some ((m.retrack r.zoneId f).setTask i (.refresh r stage'))) :
    Underway m₀ i r zone info (s.report report) stage' channel
      ((m.retrack r.zoneId f).setTask i (.refresh r stage')) := by
  have hretrack : m.retrack r.zoneId f = m.track r.zoneId
      (f (s.reports.foldl Report.apply info).toZoneRefreshState) := by
    simp only [retrack, h.tracked]
  rw [hretrack] at hnext ⊢
  exact
    { run := h.next hawake hnext
      task := getElem?_setTask h.task
      zone := h.zone
      tracked := by
        rw [Scene.report, List.foldl_append, List.foldl_cons, List.foldl_nil, hf]
        exact AList.lookup_insert _
      now := h.now
      free := trackingFree_set h.free hstage rfl
      channel := h.channel }

-- A transfer changes the zone.
theorem Underway.writes {soa : Option Soa} (h : Underway m₀ i r zone info s stage channel m)
    (hawake : ¬channel.Waits i) (hstage : (Task.refresh r stage').holdsTracking = false)
    (hnext : m.refreshNext i r stage input = some ({ m with
      zoneHeap := m.zoneHeap.set r.zoneId r.handle { zone with soa } }.setTask i
        (.refresh r stage'))) :
    Underway m₀ i r zone info { s with zoneSoa := soa } stage' channel
      ({ m with zoneHeap := m.zoneHeap.set r.zoneId r.handle { zone with soa } }.setTask i
        (.refresh r stage')) where
  run := h.next hawake hnext
  task := getElem?_setTask h.task
  zone := by
    show (m.zoneHeap.set r.zoneId r.handle { zone with soa }).get r.zoneId r.handle = _
    rw [Heap.get_set, if_pos ⟨rfl, rfl⟩, h.zone]
    rfl
  tracked := h.tracked
  now := h.now
  free := trackingFree_set h.free hstage rfl
  channel := h.channel

theorem Underway.sends {event : Event} (h : Underway m₀ i r zone info s stage channel m)
    (hawake : ¬channel.Waits i) (hstage : (Task.refresh r stage').holdsTracking = false)
    (hnext : m.refreshNext i r stage input = some (m.sendFrom i event (.refresh r stage'))) :
    Underway m₀ i r zone info s stage' (channel.send capacity i event)
      (m.sendFrom i event (.refresh r stage')) where
  run := h.next hawake hnext
  task := getElem?_setTask h.task
  zone := h.zone
  tracked := h.tracked
  now := h.now
  free := trackingFree_set h.free hstage rfl
  channel := congrArg (fun channel ↦ channel.send capacity i event) h.channel

theorem Underway.soa (h : Underway m₀ i r zone info s stage channel m) :
    m.soa r.zoneId r.handle = s.zoneSoa := by
  rw [ZoneMaintainer.soa, h.zone]
  rfl

/-! ## Transfers -/

variable {primaries : Primaries} {transfers : List XfrType} {xfrType : XfrType}

-- Most transfers make no progress report.
theorem Underway.progress (h : Underway m₀ i r zone info s (.transferring primaries transfers)
    channel m) (hawake : ¬channel.Waits i) (n : Nat) :
    ∃ m', Underway m₀ i r zone info (s.report (.applied n)) (.transferring primaries transfers)
      channel m' := by
  have ⟨k, hk⟩ := applyUpdates_eq (s.reports.foldl Report.apply info) n
  by_cases hmany : 10000 ≤ n
  · have hnext : m.refreshNext i r (.transferring primaries transfers) .progress =
        some ((m.retrack r.zoneId (fun info ↦ { info with status := .RefreshInProgress })).setTask
          i (.refresh r (.transferring primaries transfers))) := by
      simp only [refreshNext, h.free, if_true]
    refine ⟨_, h.records hawake (.applied n) ?_ rfl hnext⟩
    rw [Report.apply, hk, if_pos hmany]
    rfl
  · refine ⟨m, { h with tracked := ?_ }⟩
    rw [if_neg hmany] at hk
    show _ = some ((s.reports ++ [Report.applied n]).foldl Report.apply info).toZoneRefreshState
    rw [List.foldl_append, List.foldl_cons, List.foldl_nil, Report.apply, hk]
    exact h.tracked

theorem Underway.write (h : Underway m₀ i r zone info s (.transferring primaries transfers)
    channel m) (hawake : ¬channel.Waits i) (soa : Option Soa) :
    ∃ m', Underway m₀ i r zone info { s with zoneSoa := soa } (.transferring primaries transfers)
      channel m' := by
  have hnext : m.refreshNext i r (.transferring primaries transfers) (.write soa) = some ({ m with
      zoneHeap := m.zoneHeap.set r.zoneId r.handle { zone with soa } }.setTask i
        (.refresh r (.transferring primaries transfers))) := by
    simp only [refreshNext, h.zone]
  exact ⟨_, h.writes hawake rfl hnext⟩

-- How a transfer goes before it ends.
theorem Underway.transfer (h : Underway m₀ i r zone info s (.transferring primaries transfers)
    channel m) (hawake : ¬channel.Waits i) (transfer : Transfer) :
    ∃ m', Underway m₀ i r zone info { s.report (.applied transfer.updates) with
      now := s.now + transfer.duration, zoneSoa := transfer.zoneSoa }
      (.transferring primaries transfers) channel m' := by
  obtain ⟨m₁, h₁⟩ := h.progress hawake transfer.updates
  exact (h₁.tick transfer.duration).write hawake transfer.zoneSoa

theorem changed_next (m : ZoneMaintainer) : m.refreshNext i r (.changed primaries transfers) .next =
    some (m.sendFrom i (.ZoneChanged r.zoneId none)
      (.refresh r (.transferring primaries transfers))) := rfl

-- A transfer that leaves the zone with a SOA record is committed.
theorem Underway.commits {soa : Soa} (h : Underway m₀ i r zone info s
    (.transferring primaries transfers) channel m) (hroom : channel.hasRoom capacity = true)
    (hsoa : s.zoneSoa = some soa) :
    ∃ m', Underway m₀ i r zone info (s.report (.refreshed soa s.now))
      (.finishing (.ok (some soa))) (channel.send capacity i (.ZoneChanged r.zoneId none)) m' := by
  have hawake := Channel.not_waits_of_hasRoom hroom i
  have hcommit : m.refreshNext i r (.transferring primaries transfers) (.commit soa) = some ({ m with
      zoneHeap := m.zoneHeap.set r.zoneId r.handle { zone with soa := some soa } }.setTask i
        (.refresh r (.changed primaries transfers))) := by
    simp only [refreshNext, h.zone]
  have h₁ := h.writes hawake rfl hcommit
  have hsame : { s with zoneSoa := some soa } = s := by
    rw [← hsoa]
  rw [hsame] at h₁
  have h₂ := h₁.sends hawake rfl (changed_next _)
  have hawake' : ¬(channel.send capacity i (.ZoneChanged r.zoneId none)).Waits i :=
    not_waits_sentAfter hroom (.ok (some soa))
  have hfinished : ∀ m₂ : ZoneMaintainer, Underway m₀ i r zone info s
      (.transferring primaries transfers) (channel.send capacity i (.ZoneChanged r.zoneId none))
        m₂ → m₂.refreshNext i r (.transferring primaries transfers) .finished =
      some ((m₂.retrack r.zoneId (fun info ↦ info.refreshSucceeded soa)).setTask i
        (.refresh r (.finishing (.ok (some soa))))) := by
    intro m₂ h₂
    simp only [refreshNext, h₂.free, if_true, h₂.soa, hsoa]
  exact ⟨_, h₂.records hawake' (.refreshed soa s.now) rfl rfl (hfinished _ h₂)⟩

/-- Where the task goes on after a transfer that has failed. -/
def stageAfterFailure (primaries : Primaries) (xfrType : XfrType) (transfers : List XfrType)
    (err : ZoneMaintainerError) : RefreshStage :=
  if err = .ResponseError notimp ∧ xfrType = .IXFR then .requesting primaries transfers
  else .querying primaries.failed

theorem Underway.fails (h : Underway m₀ i r zone info s
    (.transferring primaries (xfrType :: transfers)) channel m) (hawake : ¬channel.Waits i)
    (err : ZoneMaintainerError) :
    ∃ m', Underway m₀ i r zone info s (stageAfterFailure primaries xfrType transfers err)
      channel m' := by
  unfold stageAfterFailure
  by_cases hnot : err = .ResponseError notimp ∧ xfrType = .IXFR
  · rw [if_pos hnot]
    obtain ⟨-, htype⟩ := hnot
    subst htype
    exact ⟨_, h.moves hawake .notImplemented rfl rfl⟩
  · rw [if_neg hnot]
    exact ⟨_, h.moves hawake .failed rfl rfl⟩

theorem Underway.doXfr (h : Underway m₀ i r zone info s
    (.requesting primaries (xfrType :: transfers)) channel m)
    (hroom : channel.hasRoom capacity = true) (transfer : Transfer) :
    match doXfr xfrType transfer s with
    | (.ok soa, s') => ∃ m', Underway m₀ i r zone info (s'.report (.refreshed soa s'.now))
        (.finishing (.ok (some soa))) (channel.send capacity i (.ZoneChanged r.zoneId none)) m'
    | (.error err, s') => ∃ m', Underway m₀ i r zone info s'
        (stageAfterFailure primaries xfrType transfers err) channel m' := by
  have hawake := Channel.not_waits_of_hasRoom hroom i
  unfold RefreshAttempt.doXfr
  by_cases hempty : xfrType = .IXFR ∧ s.zoneSoa = none
  · have hnext : m.refreshNext i r (.requesting primaries (xfrType :: transfers)) .next =
        some (m.setTask i (.refresh r (.querying primaries.failed))) := by
      simp only [refreshNext, h.soa, if_pos hempty]
    rw [if_pos hempty]
    exact ⟨_, h.moves hawake .next rfl hnext⟩
  · have hnext : m.refreshNext i r (.requesting primaries (xfrType :: transfers)) .next =
        some (m.setTask i (.refresh r (.transferring primaries (xfrType :: transfers)))) := by
      simp only [refreshNext, h.soa, if_neg hempty]
    obtain ⟨m', hended⟩ := (h.moves hawake .next rfl hnext).transfer hawake transfer
    rw [if_neg hempty]
    dsimp only
    cases hresult : transfer.result with
    | error err => exact hended.fails hawake err
    | ok u =>
      cases hsoa : transfer.zoneSoa with
      | none =>
        rw [hsoa] at hended
        exact hended.fails hawake _
      | some soa =>
        rw [hsoa] at hended
        exact hended.commits hroom rfl

theorem Underway.transferRounds (hroom : channel.hasRoom capacity = true) (answers : Answers)
    (k : Nat) (h : Underway m₀ i r zone info s (.requesting primaries transfers) channel m) :
    ∃ m', Underway m₀ i r zone info (transferRounds answers transfers k s).2
      (stageAfter primaries (transferRounds answers transfers k s).1)
      (sentAfter channel i r.zoneId (transferRounds answers transfers k s).1) m' := by
  have hawake := Channel.not_waits_of_hasRoom hroom i
  induction transfers generalizing k s m with
  | nil => exact ⟨_, h.moves hawake .next rfl rfl⟩
  | cons xfrType transfers ih =>
    have hdone := h.doXfr hroom (answers.transfer k)
    rw [RefreshAttempt.transferRounds]
    cases hxfr : RefreshAttempt.doXfr xfrType (answers.transfer k) s with
    | mk result s' =>
      rw [hxfr] at hdone
      cases result with
      | ok soa => exact hdone
      | error err =>
        obtain ⟨m', hfailed⟩ := hdone
        unfold stageAfterFailure at hfailed
        dsimp only
        by_cases hnot : err = .ResponseError notimp ∧ xfrType = .IXFR
        · rw [if_pos hnot] at hfailed ⊢
          exact ih (k + 1) hfailed
        · rw [if_neg hnot] at hfailed ⊢
          exact ⟨m', hfailed⟩

/-! ## Contacts -/

theorem Underway.contact {addr : SocketAddr} {config : XfrConfig}
    {remaining : List (SocketAddr × XfrConfig)} {currentSerial : Option Serial} {numOk : Nat}
    {savedErr : Bool} (hroom : channel.hasRoom capacity = true) (answers : Nat → Answers)
    (h : Underway m₀ i r zone info s
      (.querying ⟨currentSerial, (addr, config) :: remaining, numOk, savedErr⟩) channel m) :
    ∃ m', Underway m₀ i r zone info (refreshZoneFromAddr answers currentSerial s addr config).2
      (stageAfter ⟨currentSerial, remaining, numOk, savedErr⟩
        (refreshZoneFromAddr answers currentSerial s addr config).1)
      (sentAfter channel i r.zoneId
        (refreshZoneFromAddr answers currentSerial s addr config).1) m' := by
  have hawake := Channel.not_waits_of_hasRoom hroom i
  obtain ⟨m₁, hasked⟩ : ∃ m₁, Underway m₀ i r zone info
      { s with contacts := s.contacts + 1, now := s.now + (answers s.contacts).queryTime }
      (.querying ⟨currentSerial, (addr, config) :: remaining, numOk, savedErr⟩) channel m₁ := by
    have h₁ := h.tick (answers s.contacts).queryTime
    exact ⟨_, h₁.run, h₁.task, h₁.zone, h₁.tracked, h₁.now, h₁.free, h₁.channel⟩
  cases hquery : (answers s.contacts).soaQuery with
  | error err =>
    simp only [refreshZoneFromAddr, hquery]
    exact ⟨_, hasked.moves hawake (.soaAnswer none) rfl rfl⟩
  | ok serial =>
    have hmem : r.zoneId ∈ m₁.timeTracking := HashMap.mem_iff_lookup.mpr ⟨_, hasked.tracked⟩
    have hchecked : ∀ (answer : Option Serial) (info : ZoneRefreshInfo),
        ((Report.checked answer (s.now + (answers s.contacts).queryTime)).apply
          info).toZoneRefreshState = info.toZoneRefreshState.soaSerialCheckSucceeded m₁.now := by
      intro answer info
      rw [hasked.now]
      rfl
    by_cases hnewer : currentSerial.all serial.gt = true
    · have hnext : m₁.refreshNext i r
          (.querying ⟨currentSerial, (addr, config) :: remaining, numOk, savedErr⟩)
          (.soaAnswer (some serial)) =
          some ((m₁.retrack r.zoneId (fun info ↦ info.soaSerialCheckSucceeded m₁.now)).setTask i
            (.refresh r (.requesting ⟨currentSerial, remaining, numOk, savedErr⟩
              (config.transfers currentSerial)))) := by
        simp only [refreshNext, hasked.free, if_true, hnewer, Bool.true_eq_false, and_false,
          if_false]
      simp only [refreshZoneFromAddr, hquery, if_pos hnewer]
      exact (hasked.records hawake (.checked (some serial) _) (hchecked _ _) rfl
        hnext).transferRounds hroom _ 0
    · have hnext : m₁.refreshNext i r
          (.querying ⟨currentSerial, (addr, config) :: remaining, numOk, savedErr⟩)
          (.soaAnswer (some serial)) =
          some ((m₁.retrack r.zoneId (fun info ↦ info.soaSerialCheckSucceeded m₁.now)).setTask i
            (.refresh r (.querying ⟨currentSerial, remaining, numOk + 1, savedErr⟩))) := by
        simp only [refreshNext, hasked.free, if_true, hmem, Bool.not_eq_true _ ▸ hnewer, and_self]
      simp only [refreshZoneFromAddr, hquery, if_neg hnewer]
      exact ⟨_, hasked.records hawake (.checked none _) (hchecked _ _) rfl hnext⟩

/-- The primaries that are left to be asked. -/
def primariesOf (requestXfrFrom : SrcDstConfig XfrConfig) (addrs : List SocketAddr) :
    List (SocketAddr × XfrConfig) :=
  addrs.filterMap (fun addr ↦
    (requestXfrFrom.lookup addr).map (fun xfrConfig ↦ (addr, xfrConfig)))

-- By induction on the primaries left.
theorem Underway.visits {requestXfrFrom : SrcDstConfig XfrConfig} {addrs : List SocketAddr}
    {currentSerial : Option Serial} {numOk : Nat} {savedErr : Option ZoneMaintainerError}
    (hroom : channel.hasRoom capacity = true) (answers : Nat → Answers)
    (h : Underway m₀ i r zone info s
      (.querying ⟨currentSerial, primariesOf requestXfrFrom addrs, numOk, savedErr.isSome⟩)
        channel m) {res : Outcome}
    (hres : (visitPrimaries requestXfrFrom (refreshZoneFromAddr answers currentSerial) addrs numOk
      savedErr s).result = some res) :
    ∃ m', Underway m₀ i r zone info (visitPrimaries requestXfrFrom
        (refreshZoneFromAddr answers currentSerial) addrs numOk savedErr s).state
      (.finishing (res.mapError fun _ ↦ ())) (sentAfter channel i r.zoneId res) m' := by
  have hawake := Channel.not_waits_of_hasRoom hroom i
  induction addrs generalizing numOk savedErr s m with
  | nil =>
    rw [visitPrimaries] at hres ⊢
    by_cases hok : 0 < numOk
    · have hnext : m.refreshNext i r (.querying ⟨currentSerial, [], numOk, savedErr.isSome⟩) .next =
          some (m.setTask i (.refresh r (.finishing (.ok none)))) := by
        simp only [refreshNext, if_pos hok]
      rw [if_pos hok] at hres ⊢
      rw [← Option.some.inj hres]
      exact ⟨_, h.moves hawake .next rfl hnext⟩
    · rw [if_neg hok] at hres ⊢
      cases savedErr with
      | none => cases hres
      | some err =>
        have hnext : m.refreshNext i r (.querying ⟨currentSerial, [], numOk, true⟩) .next =
            some (m.setTask i (.refresh r (.finishing (.error ())))) := by
          simp only [refreshNext, if_neg hok, if_true]
        rw [← Option.some.inj hres]
        exact ⟨_, h.moves hawake .next rfl hnext⟩
  | cons addr addrs ih =>
    rw [visitPrimaries] at hres ⊢
    cases hconfig : SrcDstConfig.dst requestXfrFrom addr with
    | none =>
      have hskipped : primariesOf requestXfrFrom (addr :: addrs) =
          primariesOf requestXfrFrom addrs :=
        List.filterMap_cons_none (by rw [show requestXfrFrom.lookup addr = none from hconfig]; rfl)
      rw [hskipped] at h
      simp only [hconfig] at hres
      exact ih h hres
    | some config =>
      have hfirst : primariesOf requestXfrFrom (addr :: addrs) =
          (addr, config) :: primariesOf requestXfrFrom addrs :=
        List.filterMap_cons_some
          (by rw [show requestXfrFrom.lookup addr = some config from hconfig]; rfl)
      rw [hfirst] at h
      have hnext := h.contact hroom answers
      cases hcontact : refreshZoneFromAddr answers currentSerial s addr config with
      | mk outcome s' =>
        rw [hcontact] at hnext
        simp only [hconfig, hcontact] at hres ⊢
        obtain ⟨m', hnext⟩ := hnext
        cases outcome with
        | error err =>
          have hfailed : Underway m₀ i r zone info s' (.querying ⟨currentSerial,
              primariesOf requestXfrFrom addrs, numOk, (some err).isSome⟩) channel m' :=
            hnext
          exact ih hfailed hres
        | ok newSoa =>
          cases newSoa with
          | none => exact ih hnext hres
          | some soa =>
            rw [← Option.some.inj hres]
            exact ⟨m', hnext⟩

end

/-! ## The end of a refresh -/

/-- A task that is about to refresh a secondary zone which is tracked, with room for an event. -/
structure Starts (m : ZoneMaintainer) (i : TaskId) (r : Refresh)
    (initialXfrAddr : Option SocketAddr) (zone : MaintainedZone) (info : ZoneRefreshInfo) :
    Prop where
  task : m.tasks[i]? = some (.refresh r (.starting initialXfrAddr))
  stored : m.zoneHeap.get r.zoneId r.handle = some zone
  secondary : zone.config.isSecondary = true
  tracked : m.timeTracking.lookup r.zoneId = some info.toZoneRefreshState
  free : m.trackingFree = true
  room : m.channel.hasRoom capacity = true

section

variable {m : ZoneMaintainer} {i : TaskId} {r : Refresh} {initialXfrAddr : Option SocketAddr}
  {zone : MaintainedZone} {info : ZoneRefreshInfo}

/-- The attempt that such a task makes when the primaries answer like this. -/
def Starts.attempt (h : m.Starts i r initialXfrAddr zone info) (answers : Nat → Answers) :
    Attempt where
  cause := r.cause
  startedAt := m.now
  run := RefreshAttempt.refresh zone.config h.secondary initialXfrAddr info zone.soa m.now answers

theorem Starts.begin (h : m.Starts i r initialXfrAddr zone info) :
    ∃ m', Underway m i r zone (RefreshAttempt.begin r.cause m.now info) ⟨m.now, zone.soa, 0, []⟩
      (.querying ⟨zone.soa.map Soa.serial, primariesOf zone.config.requestXfrFrom
        (initialXfrAddr.toList ++ SrcDstConfig.addrs zone.config.requestXfrFrom), 0,
          (none : Option ZoneMaintainerError).isSome⟩)
      m.channel m' := by
  have hawake := Channel.not_waits_of_hasRoom h.room i
  have hstart : Underway m i r zone info ⟨m.now, zone.soa, 0, []⟩ (.starting initialXfrAddr)
      m.channel m :=
    ⟨.start rfl, h.task, h.stored, h.tracked, rfl, h.free, rfl⟩
  have hnext : m.refreshNext i r (.starting initialXfrAddr) .next =
      some ((m.track r.zoneId (RefreshAttempt.begin r.cause m.now info).toZoneRefreshState).setTask
        i (.refresh r (.reading initialXfrAddr))) := by
    simp only [refreshNext, h.free, if_true, retrack, h.tracked, toZoneRefreshState_begin]
  have hreading : Underway m i r zone (RefreshAttempt.begin r.cause m.now info)
      ⟨m.now, zone.soa, 0, []⟩ (.reading initialXfrAddr) m.channel _ :=
    ⟨hstart.next hawake hnext, getElem?_setTask h.task, h.stored, AList.lookup_insert _, rfl,
      trackingFree_set h.free rfl rfl, rfl⟩
  refine ⟨_, hreading.moves hawake .next rfl ?_⟩
  simp only [refreshNext, hreading.zone]
  rfl

end

namespace ShortRun

end ShortRun

end ZoneMaintainer

end Cascade
