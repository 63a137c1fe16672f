import Cascade.Center
import Cascade.Lib.Runs
import Cascade.ZoneStatePath

/-!
# The key manager

Every few seconds the key manager looks at the state file that the keyset command has for each zone.
It records when the file was modified and when the command is to be run next, asks for the zone to be
signed again when the file has changed, and runs the command, which changes the file, when that is
due.
-/

namespace Cascade

open Lib

namespace KeyManager

/-- A time in nanoseconds since 1970. -/
structure UnixTime where
  nanos : Nat
deriving DecidableEq

namespace UnixTime

instance : LT UnixTime := ⟨fun a b ↦ a.nanos < b.nanos⟩

instance (a b : UnixTime) : Decidable (a < b) := inferInstanceAs (Decidable (a.nanos < b.nanos))

def addSecs (t : UnixTime) (secs : Nat) : UnixTime := ⟨t.nanos + secs * 1000000000⟩

end UnixTime

structure KeySetInfo where
  keysetStateModified : UnixTime
  cronNext : Option UnixTime
  retries : Nat
deriving DecidableEq

/-- How often the command is run when the state file does not change. -/
def cronMaxRetries : Nat := 5

/-- What a state file says when it is read: its modification time, and then its content. -/
structure StateFile where
  modified : UnixTime
  cronNext : Option UnixTime
deriving DecidableEq

def getKeysetInfo (file : StateFile) : KeySetInfo :=
  { keysetStateModified := file.modified, cronNext := file.cronNext, retries := 0 }

/-- What comes of the command.  After a success the file is read, and if it has changed it is read
once more. -/
inductive CronOutcome
  | cannotRun
  | failed
  | succeeded (file reread : Except String StateFile)

/-- What there is to see of one zone in one tick.  The manager panics when reading fails. -/
structure Observed where
  stateExists : Bool
  modified : Except String UnixTime
  file : Except String StateFile
  now : UnixTime
  cron : CronOutcome

abbrev KsInfo := HashMap (List Char) KeySetInfo

/-- The records after a zone was handled, whether it is to be signed again, and whether the command
was run for it. -/
structure Handled where
  ksInfo : KsInfo
  resign : Bool
  ran : Bool

/-- The part of a round that runs the command, for a zone with that record, whose next run is due. -/
def invokeCron (ksInfo : KsInfo) (apexName : List Char) (info : KeySetInfo) (cronNext : UnixTime) :
    CronOutcome → Except String Handled
  | .cannotRun =>
    let info : KeySetInfo :=
      { cronNext := none, keysetStateModified := info.keysetStateModified, retries := 0 }
    .ok ⟨ksInfo.insert apexName info, false, true⟩
  | .succeeded file reread => do
    let file ← file
    if file.modified ≠ info.keysetStateModified then
      let reread ← reread
      .ok ⟨ksInfo.insert apexName (getKeysetInfo reread), true, true⟩
    else
      -- Nothing happened: try again in a minute.
      let newInfo : KeySetInfo :=
        { cronNext := some (cronNext.addSecs 60)
          keysetStateModified := info.keysetStateModified
          retries := info.retries + 1 }
      if newInfo.retries ≥ cronMaxRetries then
        let info : KeySetInfo :=
          { cronNext := none, keysetStateModified := info.keysetStateModified, retries := 0 }
        .ok ⟨ksInfo.insert apexName info, false, true⟩
      else .ok ⟨ksInfo.insert apexName newInfo, false, true⟩
  | .failed =>
    let info : KeySetInfo :=
      { cronNext := none, keysetStateModified := info.keysetStateModified, retries := 0 }
    .ok ⟨ksInfo.insert apexName info, false, true⟩

/-- One round of the loop in `tick`. -/
def handleZone (ksInfo : KsInfo) (apexName : List Char) (o : Observed) : Except String Handled :=
  if o.stateExists = false then .ok ⟨ksInfo, false, false⟩
  else
    match ksInfo.lookup apexName with
    | none => do
      let file ← o.file
      .ok ⟨ksInfo.insert apexName (getKeysetInfo file), false, false⟩
    | some info => do
      let modified ← o.modified
      if modified ≠ info.keysetStateModified then
        let file ← o.file
        .ok ⟨ksInfo.insert apexName (getKeysetInfo file), true, false⟩
      else
        match info.cronNext with
        | none => .ok ⟨ksInfo, false, false⟩
        | some cronNext =>
          if cronNext < o.now then invokeCron ksInfo apexName info cronNext o.cron
          else .ok ⟨ksInfo, false, false⟩

/-- The zones that are asked to be signed again, and those the command was run for. -/
structure Outcome where
  resigned : List EnteredName
  ran : List EnteredName

/-- The zones of the zone tree, in the order in which they are visited, and what is seen of each. -/
structure Tick where
  visits : List (EnteredName × Observed)
  distinct : visits.Pairwise (fun v w ↦ ¬v.1.same w.1)

section

variable (d : NameDisplay)

def visit (ksInfo : KsInfo) : List (EnteredName × Observed) → Except String (KsInfo × Outcome)
  | [] => .ok (ksInfo, ⟨[], []⟩)
  | v :: visits => do
    let handled ← handleZone ksInfo (d.name v.1) v.2
    let (ksInfo, rest) ← visit handled.ksInfo visits
    .ok (ksInfo,
      { resigned := if handled.resign then v.1 :: rest.resigned else rest.resigned
        ran := if handled.ran then v.1 :: rest.ran else rest.ran })

def tick (ksInfo : KsInfo) (t : Tick) : Except String (KsInfo × Outcome) := visit d ksInfo t.visits

/-- A tick that does not panic. -/
def step (ksInfo : KsInfo) (t : Tick) : Option KsInfo := (tick d ksInfo t).toOption.map Prod.fst

structure TickRecord where
  before : KsInfo
  tick : Tick
  after : KsInfo
  outcome : Outcome

/-- The records of ticks one after the other, none of which panics. -/
def run (ksInfo : KsInfo) : List Tick → Except String (List TickRecord)
  | [] => .ok []
  | t :: ticks => do
    let (after, outcome) ← tick d ksInfo t
    let log ← run after ticks
    .ok (⟨ksInfo, t, after, outcome⟩ :: log)

end

/-! ## One zone in one tick -/

/-- What handling a zone can do with its record. -/
inductive Handles (o : Observed) : Option KeySetInfo → Option KeySetInfo → Bool → Bool → Prop
  | keep {record : Option KeySetInfo} : Handles o record record false false
  | new {file : StateFile} : Handles o none (some (getKeysetInfo file)) false false
  | changed {info : KeySetInfo} {modified : UnixTime} {file : StateFile} :
      o.modified = .ok modified → modified ≠ info.keysetStateModified → o.file = .ok file →
      Handles o (some info) (some (getKeysetInfo file)) true false
  | cronChanged {info : KeySetInfo} {cronNext : UnixTime} {file reread : StateFile} :
      info.cronNext = some cronNext → cronNext < o.now →
      o.cron = .succeeded (.ok file) (.ok reread) → file.modified ≠ info.keysetStateModified →
      Handles o (some info) (some (getKeysetInfo reread)) true true
  | stop {info : KeySetInfo} {cronNext : UnixTime} :
      info.cronNext = some cronNext → cronNext < o.now →
      Handles o (some info) (some { info with cronNext := none, retries := 0 }) false true
  | retry {info : KeySetInfo} {cronNext : UnixTime} :
      info.cronNext = some cronNext → cronNext < o.now → info.retries + 1 < cronMaxRetries →
      Handles o (some info)
        (some { info with cronNext := some (cronNext.addSecs 60), retries := info.retries + 1 })
        false true

/-- Handling a zone does so with its own record, and leaves the others alone. -/
structure Handles.Only (ksInfo : KsInfo) (apexName : List Char) (o : Observed) (handled : Handled) :
    Prop where
  own : Handles o (ksInfo.lookup apexName) (handled.ksInfo.lookup apexName) handled.resign handled.ran
  others : ∀ other, other ≠ apexName → handled.ksInfo.lookup other = ksInfo.lookup other

section

variable {ksInfo : KsInfo} {apexName : List Char} {o : Observed} {handled : Handled}

theorem Handles.Only.keep : Handles.Only ksInfo apexName o ⟨ksInfo, false, false⟩ :=
  ⟨.keep, fun _ _ ↦ rfl⟩

theorem Handles.Only.insert {record : Option KeySetInfo} {info : KeySetInfo} {resign ran : Bool}
    (hrecord : ksInfo.lookup apexName = record) (h : Handles o record (some info) resign ran) :
    Handles.Only ksInfo apexName o ⟨ksInfo.insert apexName info, resign, ran⟩ := by
  constructor
  · rw [hrecord, AList.lookup_insert]
    exact h
  · intro other hother
    exact AList.lookup_insert_ne hother

theorem only_of_invokeCron {info : KeySetInfo} {cronNext : UnixTime}
    (hinfo : ksInfo.lookup apexName = some info) (hnext : info.cronNext = some cronNext)
    (hdue : cronNext < o.now)
    (h : invokeCron ksInfo apexName info cronNext o.cron = .ok handled) :
    Handles.Only ksInfo apexName o handled := by
  cases hcron : o.cron with
  | cannotRun =>
    rw [hcron] at h
    cases h
    exact .insert hinfo (.stop hnext hdue)
  | failed =>
    rw [hcron] at h
    cases h
    exact .insert hinfo (.stop hnext hdue)
  | succeeded file reread =>
    rw [hcron] at h
    obtain ⟨file', hfile, hread⟩ := except_bind_ok h
    by_cases hmodified : file'.modified ≠ info.keysetStateModified
    · rw [if_pos hmodified] at hread
      obtain ⟨reread', hreread, hread⟩ := except_bind_ok hread
      cases hread
      rw [hfile, hreread] at hcron
      exact .insert hinfo (.cronChanged hnext hdue hcron hmodified)
    · rw [if_neg hmodified] at hread
      by_cases hretries : info.retries + 1 ≥ cronMaxRetries
      · simp only [if_pos hretries] at hread
        cases hread
        exact .insert hinfo (.stop hnext hdue)
      · simp only [if_neg hretries] at hread
        cases hread
        exact .insert hinfo (.retry hnext hdue (not_le.mp hretries))

theorem only_of_handleZone (h : handleZone ksInfo apexName o = .ok handled) :
    Handles.Only ksInfo apexName o handled := by
  unfold handleZone at h
  by_cases hexists : o.stateExists = false
  · rw [if_pos hexists] at h
    cases h
    exact .keep
  · rw [if_neg hexists] at h
    cases hinfo : ksInfo.lookup apexName with
    | none =>
      rw [hinfo] at h
      obtain ⟨file, -, h⟩ := except_bind_ok h
      cases h
      exact .insert hinfo .new
    | some info =>
      rw [hinfo] at h
      obtain ⟨modified, hmodified, h⟩ := except_bind_ok h
      by_cases hchanged : modified ≠ info.keysetStateModified
      · rw [if_pos hchanged] at h
        obtain ⟨file, hfile, h⟩ := except_bind_ok h
        cases h
        exact .insert hinfo (.changed hmodified hchanged hfile)
      · rw [if_neg hchanged] at h
        cases hnext : info.cronNext with
        | none =>
          rw [hnext] at h
          cases h
          exact .keep
        | some cronNext =>
          rw [hnext] at h
          by_cases hdue : cronNext < o.now
          · have hcron : invokeCron ksInfo apexName info cronNext o.cron = .ok handled := by
              simpa only [if_pos hdue] using h
            exact only_of_invokeCron hinfo hnext hdue hcron
          · simp only [if_neg hdue] at h
            cases h
            exact .keep

end

/-! ## All zones in one tick -/

/-- What one tick does with the record of a zone: nothing, or what handling it does. -/
def TickOf (visits : List (EnteredName × Observed)) (zone : EnteredName)
    (record record' : Option KeySetInfo) (resign ran : Prop) : Prop :=
  (record' = record ∧ ¬resign ∧ ¬ran) ∨
    ∃ o b r, (zone, o) ∈ visits ∧ Handles o record record' b r ∧ (resign ↔ b = true) ∧
      (ran ↔ r = true)

section

variable {d : NameDisplay} {ksInfo ksInfo' : KsInfo} {outcome : Outcome}

theorem mem_recorded_self {v : EnteredName} {recorded : Bool} {names : List EnteredName}
    (h : v ∉ names) : (v ∈ if recorded then v :: names else names) ↔ recorded = true := by
  cases recorded <;> simp [h]

theorem mem_recorded_of_ne {zone v : EnteredName} (recorded : Bool) (names : List EnteredName)
    (h : zone ≠ v) : (zone ∈ if recorded then v :: names else names) ↔ zone ∈ names := by
  cases recorded <;> simp [h]

-- What is visited later has other names, and so other records.
theorem tickOf_of_visit {visits : List (EnteredName × Observed)}
    (hdistinct : visits.Pairwise (fun v w ↦ ¬v.1.same w.1))
    (h : visit d ksInfo visits = .ok (ksInfo', outcome)) (zone : EnteredName) :
    TickOf visits zone (ksInfo.lookup (d.name zone)) (ksInfo'.lookup (d.name zone))
      (zone ∈ outcome.resigned) (zone ∈ outcome.ran) := by
  induction visits generalizing ksInfo ksInfo' outcome with
  | nil =>
    cases h
    exact Or.inl ⟨rfl, List.not_mem_nil, List.not_mem_nil⟩
  | cons v visits ih =>
    obtain ⟨handled, hhandled, h⟩ := except_bind_ok h
    obtain ⟨⟨last, rest⟩, hrest, h⟩ := except_bind_ok h
    cases h
    obtain ⟨hfirst, hlater⟩ := List.pairwise_cons.mp hdistinct
    have honly := only_of_handleZone hhandled
    have htick := ih hlater hrest
    by_cases hzone : zone = v.1
    · -- the zone of this visit is in no later one
      subst hzone
      obtain ⟨hkept, hresigned, hran⟩ :
          ksInfo'.lookup (d.name v.1) = handled.ksInfo.lookup (d.name v.1) ∧
          v.1 ∉ rest.resigned ∧ v.1 ∉ rest.ran := by
        cases htick with
        | inl hkept => exact hkept
        | inr hvisited =>
          obtain ⟨o, b, r, hmem, -⟩ := hvisited
          exact absurd (show v.1.same v.1 from rfl) (hfirst (v.1, o) hmem)
      refine Or.inr ⟨v.2, handled.resign, handled.ran, List.mem_cons_self, ?_, ?_, ?_⟩
      · rw [hkept]
        exact honly.own
      · exact mem_recorded_self hresigned
      · exact mem_recorded_self hran
    · have hrecord : handled.ksInfo.lookup (d.name zone) = ksInfo.lookup (d.name zone) := by
        apply honly.others
        intro hname
        exact hzone (d.name_injective hname)
      have hresigned := mem_recorded_of_ne handled.resign rest.resigned hzone
      have hran := mem_recorded_of_ne handled.ran rest.ran hzone
      rw [hrecord] at htick
      cases htick with
      | inl hkept => exact Or.inl ⟨hkept.1, mt hresigned.mp hkept.2.1, mt hran.mp hkept.2.2⟩
      | inr hvisited =>
        obtain ⟨o, b, r, hmem, hhandles, hb, hr⟩ := hvisited
        exact Or.inr ⟨o, b, r, List.mem_cons_of_mem _ hmem, hhandles, hresigned.trans hb,
          hran.trans hr⟩

end

/-! ## The record of a zone -/

/-- A modification time other than the recorded one is seen, and then the recorded one when the file is
read for the record. -/
def Observed.TimeBack (o : Observed) (recorded : UnixTime) : Prop :=
  (∃ modified file, o.modified = .ok modified ∧ modified ≠ recorded ∧ o.file = .ok file ∧
    file.modified = recorded) ∨
  ∃ file reread, o.cron = .succeeded (.ok file) (.ok reread) ∧ file.modified ≠ recorded ∧
    reread.modified = recorded

def Changes (record record' : Option KeySetInfo) : Prop :=
  ∃ info info', record = some info ∧ record' = some info' ∧
    info'.keysetStateModified ≠ info.keysetStateModified

/-- The retries are not used up. -/
def Sound (record : Option KeySetInfo) : Prop := ∀ info ∈ record, info.retries < cronMaxRetries

/-- How often the command can be run without a change of the file. -/
def budget : Option KeySetInfo → Nat
  | none => cronMaxRetries
  | some info => if info.cronNext = none then 0 else cronMaxRetries - info.retries

theorem budget_le (record : Option KeySetInfo) : budget record ≤ cronMaxRetries := by
  cases record with
  | none => exact le_refl _
  | some info =>
    show (if info.cronNext = none then 0 else cronMaxRetries - info.retries) ≤ cronMaxRetries
    split
    · exact Nat.zero_le _
    · exact Nat.sub_le _ _

theorem stopped_of_budget {record : Option KeySetInfo} (hsound : Sound record)
    (h : budget record = 0) : ∃ info, record = some info ∧ info.cronNext = none := by
  cases record with
  | none => cases h
  | some info =>
    have hretries := hsound info rfl
    refine ⟨info, rfl, ?_⟩
    by_contra hnext
    rw [budget, if_neg hnext] at h
    omega

section

variable {o : Observed} {record record' : Option KeySetInfo} {resign ran : Bool}

theorem Handles.sound (h : Handles o record record' resign ran) (hsound : Sound record) :
    Sound record' := by
  intro info hinfo
  cases h with
  | keep => exact hsound info hinfo
  | new | changed | cronChanged | stop =>
    rw [← Option.some.inj hinfo]
    show 0 < cronMaxRetries
    decide
  | retry _ _ hretries =>
    rw [← Option.some.inj hinfo]
    exact hretries

theorem Handles.resign_of_changes (h : Handles o record record' resign ran)
    (hchanges : Changes record record') : resign = true := by
  obtain ⟨info, info', hrecord, hrecord', hne⟩ := hchanges
  cases h with
  | keep =>
    rw [hrecord] at hrecord'
    rw [Option.some.inj hrecord'] at hne
    exact absurd rfl hne
  | new => cases hrecord
  | changed | cronChanged => rfl
  | stop | retry =>
    cases hrecord
    cases hrecord'
    exact absurd rfl hne

theorem Handles.changes_of_resign (h : Handles o record record' true ran)
    (hback : ∀ info, record = some info → ¬o.TimeBack info.keysetStateModified) :
    Changes record record' := by
  cases h with
  | @changed info modified file hmodified hne hfile =>
    refine ⟨info, _, rfl, rfl, ?_⟩
    intro heq
    exact hback info rfl (Or.inl ⟨modified, file, hmodified, hne, hfile, heq⟩)
  | @cronChanged info cronNext file reread _ _ hcron hne =>
    refine ⟨info, _, rfl, rfl, ?_⟩
    intro heq
    exact hback info rfl (Or.inr ⟨file, reread, hcron, hne, heq⟩)

theorem Handles.due (h : Handles o record record' resign true) :
    ∃ info cronNext, record = some info ∧ info.cronNext = some cronNext ∧ cronNext < o.now := by
  cases h with
  | cronChanged hnext hdue _ _ => exact ⟨_, _, rfl, hnext, hdue⟩
  | stop hnext hdue => exact ⟨_, _, rfl, hnext, hdue⟩
  | retry hnext hdue _ => exact ⟨_, _, rfl, hnext, hdue⟩

-- Running the command takes one of the runs that are left.
theorem Handles.budget_pos (h : Handles o record record' resign true) (hsound : Sound record) :
    0 < budget record := by
  obtain ⟨info, cronNext, rfl, hnext, -⟩ := h.due
  have hretries := hsound info rfl
  rw [budget, if_neg (by rw [hnext]; exact Option.some_ne_none _)]
  omega

theorem Handles.budget_le (h : Handles o record record' false ran) (hsound : Sound record) :
    ran.toNat + budget record' ≤ budget record := by
  cases h with
  | keep => simp
  | new =>
    have hle := KeyManager.budget_le (some (getKeysetInfo ‹StateFile›))
    rw [Bool.toNat_false, Nat.zero_add]
    exact hle
  | @stop info cronNext hnext hdue =>
    have hpos := (Handles.stop (o := o) hnext hdue).budget_pos hsound
    show 1 + 0 ≤ _
    omega
  | @retry info cronNext hnext hdue hretries =>
    have hbefore : budget (some info) = cronMaxRetries - info.retries := by
      rw [budget, if_neg (by rw [hnext]; exact Option.some_ne_none _)]
    rw [hbefore]
    show 1 + (cronMaxRetries - (info.retries + 1)) ≤ _
    omega

end

/-! ## The record of a zone over many ticks -/

namespace TickRecord

variable (d : NameDisplay) (r : TickRecord) (zone : EnteredName)

def record : Option KeySetInfo := r.before.lookup (d.name zone)

def record' : Option KeySetInfo := r.after.lookup (d.name zone)

/-- The recorded modification time of the known zone changes. -/
def Changes : Prop := KeyManager.Changes (r.record d zone) (r.record' d zone)

/-- The modification time of the file goes back to the recorded one between two looks at it. -/
def TimeBack : Prop :=
  ∃ o info, (zone, o) ∈ r.tick.visits ∧ r.record d zone = some info ∧
    o.TimeBack info.keysetStateModified

/-- The recorded time of the next run of the command is in the past. -/
def Due : Prop :=
  ∃ o info cronNext, (zone, o) ∈ r.tick.visits ∧ r.record d zone = some info ∧
    info.cronNext = some cronNext ∧ cronNext < o.now

end TickRecord

/-- The records after a run. -/
def lastKsInfo : KsInfo → List TickRecord → KsInfo
  | ksInfo, [] => ksInfo
  | _, r :: log => lastKsInfo r.after log

/-- How often the command was run for a zone. -/
def runs (zone : EnteredName) (log : List TickRecord) : Nat :=
  log.countP (fun r ↦ decide (zone ∈ r.outcome.ran))

section

variable {d : NameDisplay} {ksInfo : KsInfo} {ticks : List Tick} {log : List TickRecord}
  {zone : EnteredName}

theorem tick_of_mem_run (h : run d ksInfo ticks = .ok log) {r : TickRecord} (hr : r ∈ log) :
    tick d r.before r.tick = .ok (r.after, r.outcome) := by
  induction ticks generalizing ksInfo log with
  | nil =>
    cases h
    cases hr
  | cons t ticks ih =>
    obtain ⟨⟨after, outcome⟩, htick, h⟩ := except_bind_ok h
    obtain ⟨rest, hrest, h⟩ := except_bind_ok h
    cases h
    cases hr with
    | head => exact htick
    | tail _ hr => exact ih hrest hr

theorem tickOf_of_mem_run (h : run d ksInfo ticks = .ok log) {r : TickRecord} (hr : r ∈ log)
    (zone : EnteredName) :
    TickOf r.tick.visits zone (r.record d zone) (r.record' d zone) (zone ∈ r.outcome.resigned)
      (zone ∈ r.outcome.ran) :=
  tickOf_of_visit r.tick.distinct (tick_of_mem_run h hr) zone

theorem resigned_iff {r : TickRecord} (hback : ¬r.TimeBack d zone)
    (h : TickOf r.tick.visits zone (r.record d zone) (r.record' d zone)
      (zone ∈ r.outcome.resigned) (zone ∈ r.outcome.ran)) :
    zone ∈ r.outcome.resigned ↔ r.Changes d zone := by
  cases h with
  | inl hkept =>
    obtain ⟨hrecord, hresigned, -⟩ := hkept
    apply iff_of_false hresigned
    intro hchanges
    obtain ⟨info, info', hinfo, hinfo', hne⟩ := hchanges
    rw [hrecord, hinfo] at hinfo'
    rw [Option.some.inj hinfo'] at hne
    exact hne rfl
  | inr hvisited =>
    obtain ⟨o, b, ran, hmem, hhandles, hresigned, -⟩ := hvisited
    rw [hresigned]
    constructor
    · intro hb
      subst hb
      apply hhandles.changes_of_resign
      intro info hinfo htime
      exact hback ⟨o, info, hmem, hinfo, htime⟩
    · exact hhandles.resign_of_changes

theorem due_of_ran {r : TickRecord}
    (h : TickOf r.tick.visits zone (r.record d zone) (r.record' d zone)
      (zone ∈ r.outcome.resigned) (zone ∈ r.outcome.ran)) (hran : zone ∈ r.outcome.ran) :
    r.Due d zone := by
  cases h with
  | inl hkept => exact absurd hran hkept.2.2
  | inr hvisited =>
    obtain ⟨o, b, ran, hmem, hhandles, -, hiff⟩ := hvisited
    have htrue := hiff.mp hran
    subst htrue
    obtain ⟨info, cronNext, hinfo, hnext, hdue⟩ := hhandles.due
    exact ⟨o, info, cronNext, hmem, hinfo, hnext, hdue⟩

theorem sound_of_tick {ksInfo' : KsInfo} {outcome : Outcome} {t : Tick}
    (hsound : ∀ zone, Sound (ksInfo.lookup (d.name zone)))
    (h : tick d ksInfo t = .ok (ksInfo', outcome)) (zone : EnteredName) :
    Sound (ksInfo'.lookup (d.name zone)) := by
  cases tickOf_of_visit t.distinct h zone with
  | inl hkept =>
    rw [hkept.1]
    exact hsound zone
  | inr hvisited =>
    obtain ⟨o, b, r, -, hhandles, -⟩ := hvisited
    exact hhandles.sound (hsound zone)

theorem sound_of_reach (h : Reach (step d) anyStep (· = ∅) ksInfo) (zone : EnteredName) :
    Sound (ksInfo.lookup (d.name zone)) := by
  have hall : ∀ zone, Sound (ksInfo.lookup (d.name zone)) := by
    apply Reach.invariant (I := fun ksInfo ↦ ∀ zone, Sound (ksInfo.lookup (d.name zone)))
      (h := h)
    · intro s hs zone info hinfo
      rw [hs] at hinfo
      cases hinfo
    · intro s t s' hs _ hstep
      cases htick : tick d s t with
      | error err =>
        rw [step, htick] at hstep
        cases hstep
      | ok result =>
        rw [step, htick] at hstep
        cases hstep
        exact sound_of_tick hs htick
  exact hall zone

theorem runs_cons (r : TickRecord) (log : List TickRecord) :
    runs zone (r :: log) = (decide (zone ∈ r.outcome.ran)).toNat + runs zone log := by
  rw [runs, List.countP_cons, Nat.add_comm]
  cases decide (zone ∈ r.outcome.ran) <;> rfl

theorem ran_le_budget {visits : List (EnteredName × Observed)} {outcome : Outcome}
    {record record' : Option KeySetInfo} (hsound : Sound record)
    (h : TickOf visits zone record record' (zone ∈ outcome.resigned) (zone ∈ outcome.ran)) :
    (decide (zone ∈ outcome.ran)).toNat ≤ budget record := by
  cases h with
  | inl hkept => simp [hkept.2.2]
  | inr hvisited =>
    obtain ⟨o, b, ran, -, hhandles, -, hran⟩ := hvisited
    cases ran with
    | false => simp [hran]
    | true =>
      have hpos := hhandles.budget_pos hsound
      rw [decide_eq_true (hran.mpr rfl)]
      exact hpos

theorem ran_add_budget_le {visits : List (EnteredName × Observed)} {outcome : Outcome}
    {record record' : Option KeySetInfo} (hsound : Sound record)
    (hnone : zone ∉ outcome.resigned)
    (h : TickOf visits zone record record' (zone ∈ outcome.resigned) (zone ∈ outcome.ran)) :
    (decide (zone ∈ outcome.ran)).toNat + budget record' ≤ budget record := by
  cases h with
  | inl hkept => simp [hkept.1, hkept.2.2]
  | inr hvisited =>
    obtain ⟨o, b, ran, -, hhandles, hresigned, hran⟩ := hvisited
    have hb : b = false := Bool.eq_false_iff.mpr (mt hresigned.mpr hnone)
    subst hb
    have hdecide : decide (zone ∈ outcome.ran) = ran := by
      rw [Bool.eq_iff_iff, decide_eq_true_eq]
      exact hran
    rw [hdecide]
    exact hhandles.budget_le hsound

-- Each tick that does not ask for signing takes its run from the budget.
theorem runs_add_budget_le (hsound : ∀ zone, Sound (ksInfo.lookup (d.name zone)))
    (h : run d ksInfo ticks = .ok log) (hnone : ∀ r ∈ log, zone ∉ r.outcome.resigned) :
    runs zone log + budget ((lastKsInfo ksInfo log).lookup (d.name zone)) ≤
        budget (ksInfo.lookup (d.name zone)) ∧
      Sound ((lastKsInfo ksInfo log).lookup (d.name zone)) := by
  induction ticks generalizing ksInfo log with
  | nil =>
    cases h
    exact ⟨by simp [runs, lastKsInfo], hsound zone⟩
  | cons t ticks ih =>
    obtain ⟨⟨after, outcome⟩, htick, h⟩ := except_bind_ok h
    obtain ⟨rest, hrest, h⟩ := except_bind_ok h
    cases h
    have hfirst := ran_add_budget_le (hsound zone) (hnone _ List.mem_cons_self)
      (tickOf_of_visit t.distinct htick zone)
    obtain ⟨hlater, hlast⟩ := ih (sound_of_tick hsound htick) hrest
      (fun r hr ↦ hnone r (List.mem_cons_of_mem _ hr))
    rw [runs_cons]
    refine ⟨?_, hlast⟩
    show (decide (zone ∈ outcome.ran)).toNat + runs zone rest +
      budget ((lastKsInfo after rest).lookup (d.name zone)) ≤ _
    dsimp only at hfirst
    omega

-- The last tick may ask for signing.
theorem runs_le_budget (hsound : ∀ zone, Sound (ksInfo.lookup (d.name zone)))
    (h : run d ksInfo ticks = .ok log) (hnone : ∀ r ∈ log.dropLast, zone ∉ r.outcome.resigned) :
    runs zone log ≤ budget (ksInfo.lookup (d.name zone)) := by
  induction ticks generalizing ksInfo log with
  | nil =>
    cases h
    exact Nat.zero_le _
  | cons t ticks ih =>
    obtain ⟨⟨after, outcome⟩, htick, h⟩ := except_bind_ok h
    obtain ⟨rest, hrest, h⟩ := except_bind_ok h
    cases h
    have htickOf := tickOf_of_visit t.distinct htick zone
    rw [runs_cons]
    cases rest with
    | nil =>
      have hran := ran_le_budget (hsound zone) htickOf
      simpa [runs] using hran
    | cons r rest =>
      rw [List.dropLast_cons_cons] at hnone
      have hfirst := ran_add_budget_le (hsound zone) (hnone _ List.mem_cons_self) htickOf
      have hlater := ih (sound_of_tick hsound htick) hrest
        (fun r hr ↦ hnone r (List.mem_cons_of_mem _ hr))
      dsimp only at hfirst ⊢
      omega

end

/-- In every run, as long as the modification time of the state file does not go back within a tick: a
zone is to be signed again exactly when its recorded modification time changes; the command is run
only when it is due, and between two changes at most as often as it is retried, after which it is not
to be run again; and handling a zone leaves the records of others as they are. -/
theorem resigns_on_changes {d : NameDisplay} {ksInfo : KsInfo}
    (hreach : Reach (step d) anyStep (· = ∅) ksInfo) {ticks : List Tick} {log : List TickRecord}
    (h : run d ksInfo ticks = .ok log) (zone : EnteredName)
    (hback : ∀ r ∈ log, ¬r.TimeBack d zone) :
    (∀ r ∈ log, zone ∈ r.outcome.resigned ↔ r.Changes d zone) ∧
    (∀ r ∈ log, zone ∈ r.outcome.ran → r.Due d zone) ∧
    ((∀ r ∈ log.dropLast, ¬r.Changes d zone) → runs zone log ≤ cronMaxRetries) ∧
    ((∀ r ∈ log, ¬r.Changes d zone) → runs zone log = cronMaxRetries →
      ∃ info, (lastKsInfo ksInfo log).lookup (d.name zone) = some info ∧ info.cronNext = none) ∧
    ∀ (before : KsInfo) (o : Observed) (handled : Handled),
      handleZone before (d.name zone) o = .ok handled →
      ∀ other, ¬other.same zone →
        handled.ksInfo.lookup (d.name other) = before.lookup (d.name other) := by
  have hsound := sound_of_reach hreach
  have hresigned : ∀ r ∈ log, zone ∈ r.outcome.resigned ↔ r.Changes d zone := by
    intro r hr
    exact resigned_iff (hback r hr) (tickOf_of_mem_run h hr zone)
  refine ⟨hresigned, ?_, ?_, ?_, ?_⟩
  · intro r hr
    exact due_of_ran (tickOf_of_mem_run h hr zone)
  · intro hkept
    have hnone : ∀ r ∈ log.dropLast, zone ∉ r.outcome.resigned := by
      intro r hr
      rw [hresigned r (List.dropLast_subset log hr)]
      exact hkept r hr
    exact (runs_le_budget hsound h hnone).trans (budget_le _)
  · intro hkept hall
    have hnone : ∀ r ∈ log, zone ∉ r.outcome.resigned := by
      intro r hr
      rw [hresigned r hr]
      exact hkept r hr
    obtain ⟨hruns, hlast⟩ := runs_add_budget_le hsound h hnone
    have hle := budget_le (ksInfo.lookup (d.name zone))
    apply stopped_of_budget hlast
    omega
  · intro before o handled hhandled other hother
    apply (only_of_handleZone hhandled).others
    intro hname
    apply hother
    rw [d.name_injective hname]
    rfl

/-! ## Two ticks with one zone -/

namespace CronExample

open SlashExample (display inside)

def tickWith (o : Observed) : Tick := ⟨[(inside, o)], List.pairwise_singleton _ _⟩

/-- The file is seen for the first time. -/
def first : Observed :=
  { stateExists := true
    modified := .ok ⟨100⟩
    file := .ok ⟨⟨100⟩, some ⟨50⟩⟩
    now := ⟨200⟩
    cron := .cannotRun }

/-- The command is run and changes the file. -/
def rewritten : Observed :=
  { first with cron := .succeeded (.ok ⟨⟨300⟩, none⟩) (.ok ⟨⟨300⟩, none⟩) }

/-- The file has another modification time, but no longer when it is read. -/
def restored : Observed := { first with modified := .ok ⟨101⟩ }

end CronExample

open SlashExample CronExample in
theorem updated_zone_resigned : ∃ log, run display ∅ [tickWith first, tickWith rewritten] = .ok log ∧
    ∀ r ∈ log, inside ∈ r.outcome.resigned ↔ r.Changes display inside := by
  have hback : ∀ log, run display ∅ [tickWith first, tickWith rewritten] = .ok log →
      ∀ r ∈ log, ¬r.TimeBack display inside := by
    intro log h r hr htime
    cases h
    obtain ⟨o, info, hmem, hinfo, htime⟩ := htime
    cases hr with
    | head => cases hinfo
    | tail _ hr =>
      obtain rfl := List.mem_singleton.mp hr
      obtain rfl := (Prod.mk.inj (List.mem_singleton.mp hmem)).2
      obtain rfl : (⟨⟨100⟩, some ⟨50⟩, 0⟩ : KeySetInfo) = info := Option.some.inj hinfo
      cases htime with
      | inl hmodified =>
        obtain ⟨modified, file, hmodified, hne, -⟩ := hmodified
        exact hne (Except.ok.inj hmodified).symm
      | inr hcron =>
        obtain ⟨file, reread, hcron, -, heq⟩ := hcron
        cases hcron
        cases heq
  have hrun : ∃ log, run display ∅ [tickWith first, tickWith rewritten] = .ok log := ⟨_, rfl⟩
  obtain ⟨log, hlog⟩ := hrun
  exact ⟨log, hlog, (resigns_on_changes (.start rfl) hlog inside (hback log hlog)).1⟩

open SlashExample CronExample in
/-- The zone is to be signed again although its recorded modification time stays the same. -/
theorem restored_zone_resigned : ∃ log, run display ∅ [tickWith first, tickWith restored] = .ok log ∧
    ∃ r ∈ log, inside ∈ r.outcome.resigned ∧ ¬r.Changes display inside := by
  refine ⟨_, rfl, _, List.mem_cons_of_mem _ List.mem_cons_self, List.mem_cons_self, ?_⟩
  intro h
  obtain ⟨info, info', hinfo, hinfo', hne⟩ := h
  cases hinfo
  cases hinfo'
  exact hne rfl

end KeyManager

end Cascade
