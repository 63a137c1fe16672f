import Cascade.Lib.Runs
import Cascade.Lib.Tasks
import Cascade.Signing

/-!
# A signing run

The part of `sign_zone` that generates the signatures and writes the signed zone.  The signing
threads run on a pool, as many at a time as it has workers, and send the signatures over a bounded
channel to a task that inserts them into the zone, while `sign_zone` waits for both.  It adds the
unsigned records after that and finishes the update, which commits it.

What a thread sends is that of `sign_rr_chunk`.  An update of the zone can fail, which is a panic of
the task that makes it.
-/

namespace Cascade

open Lib

namespace Signing

/-- The updates of the signed zone. -/
inductive ZoneUpdate (Rrsig : Type)
  | DeleteAllRecords
  | AddRrsig (rrsig : Rrsig)
  | AddRecord (record : StoredRecord)
  | Finished (soa : StoredRecord)
deriving DecidableEq

/-- The signature that it adds. -/
def ZoneUpdate.rrsig? {Rrsig : Type} : ZoneUpdate Rrsig → Option Rrsig
  | .AddRrsig rrsig => some rrsig
  | _ => none

/-- A thread that has yet to be run by the pool, that has batches left to send before it ends with a
result, or that has ended. -/
inductive Thread (Rrsig : Type)
  | waiting (batches : List (List Rrsig)) (result : Except String Unit)
  | running (batches : List (List Rrsig)) (result : Except String Unit)
  | ended (ok : Bool)

/-- `rrsig_inserter`, which waits for a batch, inserts one, has ended, or has panicked. -/
inductive Inserter (Rrsig : Type)
  | receiving
  | inserting (rest : List Rrsig)
  | done
  | dead
deriving DecidableEq

/-- What it has yet to insert of its batch. -/
def Inserter.rest {Rrsig : Type} : Inserter Rrsig → List Rrsig
  | .inserting rest => rest
  | _ => []

/-- `sign_zone`, from the generation of signatures on. -/
inductive SignZone
  | generating
  | adding (rest : List StoredRecord)
  | finished
  | failed
  | panicked
deriving DecidableEq

/-- All signatures have been inserted. -/
def SignZone.hasSignatures : SignZone → Bool
  | .adding _ => true
  | .finished => true
  | _ => false

structure SigningRun (Rrsig : Type) where
  threads : List (Thread Rrsig)
  channel : List (List Rrsig)
  inserter : Inserter Rrsig
  signZone : SignZone
  updates : List (ZoneUpdate Rrsig)
  rrsigCount : Nat

/-- What stays the same: the workers of the pool, the room in the channel, and the records. -/
structure SigningSetup where
  workers : Nat
  capacity : Nat := 10000
  unsignedRecords : List StoredRecord
  soaRr : StoredRecord

namespace Thread

variable {Rrsig : Type}

def isRunning : Thread Rrsig → Bool
  | .running _ _ => true
  | _ => false

def isEnded : Thread Rrsig → Bool
  | .ended _ => true
  | _ => false

def isOk : Thread Rrsig → Bool
  | .ended ok => ok
  | _ => true

/-- The signatures that it has yet to send. -/
def unsent : Thread Rrsig → List Rrsig
  | .waiting batches _ => batches.flatten
  | .running batches _ => batches.flatten
  | .ended _ => []

theorem unsent_cons (batch : List Rrsig) (batches : List (List Rrsig))
    (result : Except String Unit) :
    (running (batch :: batches) result).unsent = batch ++ (running batches result).unsent := rfl

/-- It ends with this result, unless there is no one to send to. -/
def follows (result : Except String Unit) (inserter : Inserter Rrsig) : Thread Rrsig → Prop
  | .waiting _ planned => planned = result
  | .running _ planned => planned = result
  | .ended ok => ok = result.isOk ∨ (ok = false ∧ inserter = .dead)

theorem follows_mono {result : Except String Unit} {inserter inserter' : Inserter Rrsig}
    {thread : Thread Rrsig} (hdead : inserter = .dead → inserter' = .dead)
    (h : thread.follows result inserter) : thread.follows result inserter' := by
  cases thread with
  | waiting batches planned => exact h
  | running batches planned => exact h
  | ended ok => exact h.imp id (fun hfalse ↦ ⟨hfalse.1, hdead hfalse.2⟩)

-- A thread that has ended well had nothing wrong to end with.
theorem isOk_of_follows {result : Except String Unit} {inserter : Inserter Rrsig}
    {thread : Thread Rrsig} (h : thread.follows result inserter) (hend : thread.isEnded = true)
    (hok : thread.isOk = true) : result.isOk = true := by
  cases thread with
  | waiting batches planned => cases hend
  | running batches planned => cases hend
  | ended ok =>
    cases h with
    | inl hresult => exact hresult.symm.trans hok
    | inr hfalse => exact absurd (hok.symm.trans hfalse.1) (by simp)

end Thread

namespace SigningRun

variable {Rrsig : Type}

/-- The channel and the inserter are there, and the threads have been spawned with what each of them
is going to send. -/
def start (plan : List (List (List Rrsig) × Except String Unit)) : SigningRun Rrsig where
  threads := plan.map (fun thread ↦ .waiting thread.1 thread.2)
  channel := []
  inserter := .receiving
  signZone := .generating
  updates := [.DeleteAllRecords]
  rrsigCount := 0

def setThread (s : SigningRun Rrsig) (i : Nat) (thread : Thread Rrsig) : SigningRun Rrsig :=
  { s with threads := s.threads.set i thread }

/-- `blocking_send`, which waits for room in the channel and fails without a receiver. -/
def send (setup : SigningSetup) (s : SigningRun Rrsig) (i : Nat) (batch : List Rrsig)
    (batches : List (List Rrsig)) (result : Except String Unit) : Option (SigningRun Rrsig) :=
  match s.inserter with
  | .dead => some (s.setThread i (.ended false))
  | _ =>
    if s.channel.length < setup.capacity then
      some { s.setThread i (.running batches result) with channel := s.channel ++ [batch] }
    else none

def threadNext (setup : SigningSetup) (s : SigningRun Rrsig) (i : Nat) :
    Thread Rrsig → Option (SigningRun Rrsig)
  | .waiting batches result =>
    if (s.threads.filter Thread.isRunning).length < setup.workers then
      some (s.setThread i (.running batches result))
    else none
  | .running [] result => some (s.setThread i (.ended result.isOk))
  | .running (batch :: batches) result => s.send setup i batch batches result
  | .ended _ => none

/-- A step of the inserter.  The channel is closed when all threads have ended. -/
def inserterNext (s : SigningRun Rrsig) : Option (SigningRun Rrsig) :=
  match s.inserter with
  | .receiving =>
    match s.channel with
    | batch :: channel => some { s with channel, inserter := .inserting batch }
    | [] => if s.threads.all Thread.isEnded then some { s with inserter := .done } else none
  | .inserting [] => some { s with inserter := .receiving }
  | .inserting (rrsig :: rest) =>
    some { s with
      inserter := .inserting rest
      updates := s.updates ++ [.AddRrsig rrsig]
      rrsigCount := s.rrsigCount + 1 }
  | .done => none
  | .dead => none

/-- The update of the zone with the next signature fails. -/
def insertFails (s : SigningRun Rrsig) : Option (SigningRun Rrsig) :=
  match s.inserter with
  | .inserting (_ :: _) => some { s with inserter := .dead, channel := [] }
  | _ => none

/-- A step of `sign_zone`.  It waits for the threads, gives up if one of them has failed, and waits
for the inserter. -/
def signZoneNext (setup : SigningSetup) (s : SigningRun Rrsig) : Option (SigningRun Rrsig) :=
  match s.signZone with
  | .generating =>
    if !s.threads.all Thread.isEnded then none
    else if !s.threads.all Thread.isOk then some { s with signZone := .failed }
    else
      match s.inserter with
      | .done => some { s with signZone := .adding setup.unsignedRecords }
      | .dead => some { s with signZone := .panicked }
      | _ => none
  | .adding (record :: rest) =>
    some { s with signZone := .adding rest, updates := s.updates ++ [.AddRecord record] }
  | .adding [] =>
    some { s with signZone := .finished, updates := s.updates ++ [.Finished setup.soaRr] }
  | _ => none

/-- The next update of `sign_zone` fails. -/
def addFails (s : SigningRun Rrsig) : Option (SigningRun Rrsig) :=
  match s.signZone with
  | .adding _ => some { s with signZone := .panicked }
  | _ => none

inductive Action
  | thread (i : Nat)
  | inserter
  | insertFails
  | signZone
  | addFails

def step (setup : SigningSetup) (s : SigningRun Rrsig) : Action → Option (SigningRun Rrsig)
  | .thread i => s.threads[i]?.bind (s.threadNext setup i)
  | .inserter => s.inserterNext
  | .insertFails => s.insertFails
  | .signZone => s.signZoneNext setup
  | .addFails => s.addFails

/-- `sign_zone` has come to its end. -/
def isOver (s : SigningRun Rrsig) : Bool :=
  match s.signZone with
  | .generating => false
  | .adding _ => false
  | _ => true

/-- No update fails. -/
def updatesSucceed (_ : SigningRun Rrsig) : Action → Prop
  | .insertFails => False
  | .addFails => False
  | _ => True

/-- The signatures that have been inserted. -/
def inserted (s : SigningRun Rrsig) : List Rrsig := s.updates.filterMap ZoneUpdate.rrsig?

/-! ## What a step can do -/

/-- The steps, each with what it needs; `failing` says that it is an update that fails. -/
inductive Moves (setup : SigningSetup) (failing : Prop) (s : SigningRun Rrsig) :
    SigningRun Rrsig → Prop
  | runs {i batches result} : s.threads[i]? = some (.waiting batches result) →
      Moves setup failing s (s.setThread i (.running batches result))
  | ends {i result} : s.threads[i]? = some (.running [] result) →
      Moves setup failing s (s.setThread i (.ended result.isOk))
  | givesUp {i batch batches result} :
      s.threads[i]? = some (.running (batch :: batches) result) → s.inserter = .dead →
      Moves setup failing s (s.setThread i (.ended false))
  | sends {i batch batches result} :
      s.threads[i]? = some (.running (batch :: batches) result) → s.inserter ≠ .dead →
      Moves setup failing s
        { s.setThread i (.running batches result) with channel := s.channel ++ [batch] }
  | receives {batch channel} : s.inserter = .receiving → s.channel = batch :: channel →
      Moves setup failing s { s with channel, inserter := .inserting batch }
  | closes : s.inserter = .receiving → s.channel = [] → s.threads.all Thread.isEnded = true →
      Moves setup failing s { s with inserter := .done }
  | waits : s.inserter = .inserting [] → Moves setup failing s { s with inserter := .receiving }
  | inserts {rrsig rest} : s.inserter = .inserting (rrsig :: rest) →
      Moves setup failing s
        { s with
          inserter := .inserting rest
          updates := s.updates ++ [.AddRrsig rrsig]
          rrsigCount := s.rrsigCount + 1 }
  | dies {rrsig rest} : failing → s.inserter = .inserting (rrsig :: rest) →
      Moves setup failing s { s with inserter := .dead, channel := [] }
  | fails : s.signZone = .generating → s.threads.all Thread.isEnded = true →
      s.threads.all Thread.isOk = false → Moves setup failing s { s with signZone := .failed }
  | goesOn : s.signZone = .generating → s.threads.all Thread.isEnded = true →
      s.threads.all Thread.isOk = true → s.inserter = .done →
      Moves setup failing s { s with signZone := .adding setup.unsignedRecords }
  | panics : s.signZone = .generating → s.inserter = .dead →
      Moves setup failing s { s with signZone := .panicked }
  | adds {record rest} : s.signZone = .adding (record :: rest) →
      Moves setup failing s
        { s with signZone := .adding rest, updates := s.updates ++ [.AddRecord record] }
  | finishes : s.signZone = .adding [] →
      Moves setup failing s
        { s with signZone := .finished, updates := s.updates ++ [.Finished setup.soaRr] }
  | cannotAdd {rest} : failing → s.signZone = .adding rest →
      Moves setup failing s { s with signZone := .panicked }

variable {setup : SigningSetup} {plan : List (List (List Rrsig) × Except String Unit)}
  {failing : Prop} {s s' : SigningRun Rrsig}

theorem moves_of_threadNext {i : Nat} {thread : Thread Rrsig} (hi : s.threads[i]? = some thread)
    (h : s.threadNext setup i thread = some s') : Moves setup failing s s' := by
  cases thread with
  | waiting batches result =>
    by_cases hroom : (s.threads.filter Thread.isRunning).length < setup.workers
    · rw [threadNext, if_pos hroom] at h
      exact Option.some.inj h ▸ Moves.runs hi
    · rw [threadNext, if_neg hroom] at h
      cases h
  | running batches result =>
    cases batches with
    | nil => exact Option.some.inj h ▸ Moves.ends hi
    | cons batch batches =>
      have hsend : s.send setup i batch batches result = some s' := h
      by_cases hdead : s.inserter = .dead
      · simp only [send, hdead] at hsend
        exact Option.some.inj hsend ▸ Moves.givesUp hi hdead
      · have hopen : s.send setup i batch batches result =
            if s.channel.length < setup.capacity then
              some { s.setThread i (.running batches result) with channel := s.channel ++ [batch] }
            else none := by
          unfold send
          cases hins : s.inserter with
          | dead => exact absurd hins hdead
          | _ => rfl
        by_cases hroom : s.channel.length < setup.capacity
        · rw [hopen, if_pos hroom] at hsend
          exact Option.some.inj hsend ▸ Moves.sends hi hdead
        · rw [hopen, if_neg hroom] at hsend
          cases hsend
  | ended ok => cases h

theorem moves_of_inserterNext (h : s.inserterNext = some s') : Moves setup failing s s' := by
  unfold inserterNext at h
  cases hins : s.inserter with
  | receiving =>
    cases hchan : s.channel with
    | nil =>
      simp only [hins, hchan] at h
      by_cases hend : s.threads.all Thread.isEnded = true
      · rw [if_pos hend] at h
        have hmove : Moves setup failing s _ := Moves.closes hins hchan hend
        rw [hchan] at hmove
        exact Option.some.inj h ▸ hmove
      · rw [if_neg hend] at h
        cases h
    | cons batch channel =>
      simp only [hins, hchan] at h
      exact Option.some.inj h ▸ Moves.receives hins hchan
  | inserting rest =>
    cases rest with
    | nil =>
      simp only [hins] at h
      exact Option.some.inj h ▸ Moves.waits hins
    | cons rrsig rest =>
      simp only [hins] at h
      exact Option.some.inj h ▸ Moves.inserts hins
  | done => simp [hins] at h
  | dead => simp [hins] at h

theorem moves_of_signZoneNext (h : s.signZoneNext setup = some s') : Moves setup failing s s' := by
  unfold signZoneNext at h
  cases hzone : s.signZone with
  | generating =>
    simp only [hzone] at h
    by_cases hend : s.threads.all Thread.isEnded = true
    · rw [if_neg (by simp [hend])] at h
      by_cases hok : s.threads.all Thread.isOk = true
      · rw [if_neg (by simp [hok])] at h
        cases hins : s.inserter with
        | done =>
          simp only [hins] at h
          have hmove : Moves setup failing s _ := Moves.goesOn hzone hend hok hins
          rw [hins] at hmove
          exact Option.some.inj h ▸ hmove
        | dead =>
          simp only [hins] at h
          have hmove : Moves setup failing s _ := Moves.panics hzone hins
          rw [hins] at hmove
          exact Option.some.inj h ▸ hmove
        | receiving => simp [hins] at h
        | inserting rest => simp [hins] at h
      · rw [if_pos (by simp [hok])] at h
        exact Option.some.inj h ▸ Moves.fails hzone hend (by simpa using hok)
    · rw [if_pos (by simp [hend])] at h
      cases h
  | adding rest =>
    cases rest with
    | nil =>
      simp only [hzone] at h
      exact Option.some.inj h ▸ Moves.finishes hzone
    | cons record rest =>
      simp only [hzone] at h
      exact Option.some.inj h ▸ Moves.adds hzone
  | finished => simp [hzone] at h
  | failed => simp [hzone] at h
  | panicked => simp [hzone] at h

theorem moves_of_step {a : Action} (h : step setup s a = some s') :
    Moves setup (¬updatesSucceed s a) s s' := by
  cases a with
  | thread i =>
    obtain ⟨thread, hi, hnext⟩ := Option.bind_eq_some_iff.mp h
    exact moves_of_threadNext hi hnext
  | inserter => exact moves_of_inserterNext h
  | insertFails =>
    have hfails : s.insertFails = some s' := h
    unfold insertFails at hfails
    cases hins : s.inserter with
    | inserting rest =>
      cases rest with
      | nil => simp [hins] at hfails
      | cons rrsig rest =>
        simp only [hins] at hfails
        exact Option.some.inj hfails ▸ Moves.dies not_false hins
    | receiving => simp [hins] at hfails
    | done => simp [hins] at hfails
    | dead => simp [hins] at hfails
  | signZone => exact moves_of_signZoneNext h
  | addFails =>
    have hfails : s.addFails = some s' := h
    unfold addFails at hfails
    cases hzone : s.signZone with
    | adding rest =>
      simp only [hzone] at hfails
      exact Option.some.inj hfails ▸ Moves.cannotAdd not_false hzone
    | generating => simp [hzone] at hfails
    | finished => simp [hzone] at hfails
    | failed => simp [hzone] at hfails
    | panicked => simp [hzone] at hfails

/-! ## What the log of a run says -/

/-- The signatures that are on their way to the zone. -/
def onTheWay (s : SigningRun Rrsig) : List Rrsig :=
  s.inserter.rest ++ (s.channel.flatten ++ s.threads.flatMap Thread.unsent)

/-- The updates so far. -/
def Logged (setup : SigningSetup) (s : SigningRun Rrsig) : Prop :=
  let start := .DeleteAllRecords :: s.inserted.map .AddRrsig
  match s.signZone with
  | .generating => s.updates = start
  | .failed => s.updates = start
  | .adding rest =>
    s.inserter = .done ∧ ∃ records, records ++ rest = setup.unsignedRecords ∧
      s.updates = start ++ records.map .AddRecord
  | .finished =>
    s.inserter = .done ∧
      s.updates = start ++ setup.unsignedRecords.map .AddRecord ++ [.Finished setup.soaRr]
  | .panicked => ∀ soa, .Finished soa ∉ s.updates

theorem logged_start (setup : SigningSetup) (plan : List (List (List Rrsig) × Except String Unit)) :
    (start plan).Logged setup := rfl

theorem inserted_append {updates : List (ZoneUpdate Rrsig)}
    (hupdates : s'.updates = s.updates ++ updates) :
    s'.inserted = s.inserted ++ updates.filterMap ZoneUpdate.rrsig? := by
  rw [inserted, hupdates, List.filterMap_append]
  rfl

theorem inserted_eq (update : ZoneUpdate Rrsig) (hnone : update.rrsig? = none)
    (hupdates : s'.updates = s.updates ++ [update]) : s'.inserted = s.inserted := by
  rw [inserted_append hupdates, List.filterMap_cons_none hnone]
  exact List.append_nil _

-- The inserter only adds signatures, and it adds none once `sign_zone` adds records.
theorem Logged.inserts (h : s.Logged setup) (rrsigs : List Rrsig) (hins : s.inserter ≠ .done)
    (hzone : s'.signZone = s.signZone) (hupdates : s'.updates = s.updates ++ rrsigs.map .AddRrsig) :
    s'.Logged setup := by
  have hinserted : s'.inserted = s.inserted ++ rrsigs := by
    have hnew : (rrsigs.map ZoneUpdate.AddRrsig).filterMap ZoneUpdate.rrsig? = rrsigs := by
      rw [List.filterMap_map]
      exact List.filterMap_some
    rw [inserted_append hupdates, hnew]
  unfold Logged at h ⊢
  rw [hzone, hinserted, hupdates]
  cases hphase : s.signZone with
  | generating =>
    simp only [hphase] at h ⊢
    rw [List.map_append, ← List.cons_append, ← h]
  | failed =>
    simp only [hphase] at h ⊢
    rw [List.map_append, ← List.cons_append, ← h]
  | adding rest =>
    simp only [hphase] at h
    exact absurd h.1 hins
  | finished =>
    simp only [hphase] at h
    exact absurd h.1 hins
  | panicked =>
    simp only [hphase] at h ⊢
    intro soa
    simpa using h soa

theorem Logged.generating (h : s.Logged setup) (hzone : s.signZone = .generating) :
    s.updates = .DeleteAllRecords :: s.inserted.map .AddRrsig := by
  simpa only [Logged, hzone] using h

theorem Logged.adding {rest : List StoredRecord} (h : s.Logged setup)
    (hzone : s.signZone = .adding rest) :
    s.inserter = .done ∧ ∃ records, records ++ rest = setup.unsignedRecords ∧
      s.updates = .DeleteAllRecords :: s.inserted.map .AddRrsig ++ records.map .AddRecord := by
  simpa only [Logged, hzone] using h

theorem logged_step (h : s.Logged setup) (hmove : Moves setup failing s s') : s'.Logged setup := by
  cases hmove with
  | runs hi => exact h
  | ends hi => exact h
  | givesUp hi hdead => exact h
  | sends hi halive => exact h
  | receives hins hchan =>
    exact h.inserts [] (by simp [hins]) rfl (List.append_nil _).symm
  | closes hins hchan hend =>
    exact h.inserts [] (by simp [hins]) rfl (List.append_nil _).symm
  | waits hins => exact h.inserts [] (by simp [hins]) rfl (List.append_nil _).symm
  | inserts hins => exact h.inserts [_] (by simp [hins]) rfl rfl
  | dies hfail hins => exact h.inserts [] (by simp [hins]) rfl (List.append_nil _).symm
  | fails hzone hend hok => exact h.generating hzone
  | goesOn hzone hend hok hins =>
    refine ⟨hins, [], rfl, ?_⟩
    rw [List.map_nil, List.append_nil]
    exact h.generating hzone
  | panics hzone hins =>
    intro soa hmem
    rw [h.generating hzone] at hmem
    simp at hmem
  | @adds record rest hzone =>
    obtain ⟨hins, records, hall, hupdates⟩ := h.adding hzone
    refine ⟨hins, records ++ [record], by simpa using hall, ?_⟩
    have hsame : inserted { s with
        signZone := .adding rest, updates := s.updates ++ [.AddRecord record] } =
        s.inserted := inserted_eq (.AddRecord record) rfl rfl
    rw [hsame]
    simp [hupdates]
  | finishes hzone =>
    obtain ⟨hins, records, hall, hupdates⟩ := h.adding hzone
    rw [List.append_nil] at hall
    refine ⟨hins, ?_⟩
    have hsame : inserted { s with
        signZone := .finished, updates := s.updates ++ [.Finished setup.soaRr] } =
        s.inserted := inserted_eq (.Finished setup.soaRr) rfl rfl
    rw [hsame]
    simp [hupdates, hall]
  | cannotAdd hfail hzone =>
    obtain ⟨_, records, _, hupdates⟩ := h.adding hzone
    intro soa hmem
    rw [hupdates] at hmem
    simp at hmem

/-! ## Nothing is lost -/

/-- The signatures of the plan are in the zone, or on their way to it. -/
def Conserved (plan : List (List (List Rrsig) × Except String Unit)) (s : SigningRun Rrsig) : Prop :=
  s.inserter ≠ .dead → (s.inserted ++ s.onTheWay).Perm (sentBatches plan).flatten

theorem conserved_start (plan : List (List (List Rrsig) × Except String Unit)) :
    (start plan).Conserved plan := by
  intro _
  have hunsent : (start plan).threads.flatMap Thread.unsent = (sentBatches plan).flatten := by
    show (plan.map _).flatMap Thread.unsent = _
    rw [List.flatMap_map, sentBatches, ← List.flatMap_id, List.flatMap_assoc]
    exact List.flatMap_congr (fun _ _ ↦ List.flatMap_id.symm)
  show ([] ++ ([] ++ ([] ++ (start plan).threads.flatMap Thread.unsent))).Perm _
  rw [hunsent]
  exact List.Perm.refl _

theorem Conserved.thread {i : Nat} {a b : Thread Rrsig} (h : s.Conserved plan)
    (hi : s.threads[i]? = some a) (hunsent : a.unsent = b.unsent) :
    (s.setThread i b).Conserved plan := by
  intro halive
  have hthreads : (s.threads.flatMap Thread.unsent).Perm
      ([] ++ (s.threads.set i b).flatMap Thread.unsent) := flatMap_perm_set hi hunsent
  calc
    (s.inserted ++ (s.inserter.rest ++ (s.channel.flatten ++
        (s.threads.set i b).flatMap Thread.unsent))).Perm (s.inserted ++ s.onTheWay) :=
      ((hthreads.symm.append_left _).append_left _).append_left _
    List.Perm _ (sentBatches plan).flatten := h halive

-- What `sign_zone` does itself does not change what is there of the signatures.
theorem Conserved.update {signZone : SignZone} (h : s.Conserved plan) (update : ZoneUpdate Rrsig)
    (hnone : update.rrsig? = none) :
    Conserved plan { s with signZone, updates := s.updates ++ [update] } := by
  intro halive
  have hsame : inserted { s with signZone, updates := s.updates ++ [update] } = s.inserted :=
    inserted_eq update hnone rfl
  rw [hsame]
  exact h halive

theorem conserved_step (h : s.Conserved plan) (hmove : Moves setup failing s s') : s'.Conserved plan := by
  cases hmove with
  | runs hi => exact h.thread hi rfl
  | ends hi => exact h.thread hi rfl
  | givesUp hi hdead => exact fun halive ↦ absurd hdead halive
  | @sends i batch batches result hi hopen =>
    intro halive
    have hthreads := flatMap_perm_set hi (Thread.unsent_cons batch batches result)
    calc
      (s.inserted ++ (s.inserter.rest ++ ((s.channel ++ [batch]).flatten ++
          (s.threads.set i (.running batches result)).flatMap Thread.unsent))).Perm
          (s.inserted ++ s.onTheWay) := by
        rw [List.flatten_append, List.flatten_singleton, List.append_assoc]
        exact ((hthreads.symm.append_left _).append_left _).append_left _
      List.Perm _ (sentBatches plan).flatten := h halive
  | receives hins hchan =>
    intro halive
    have hbefore := h (by simp [hins])
    simpa [onTheWay, hins, hchan, Inserter.rest, inserted] using hbefore
  | closes hins hchan hend =>
    intro halive
    have hbefore := h (by simp [hins])
    simpa [onTheWay, hins, hchan, Inserter.rest, inserted] using hbefore
  | waits hins =>
    intro halive
    have hbefore := h (by simp [hins])
    simpa [onTheWay, hins, Inserter.rest, inserted] using hbefore
  | inserts hins =>
    intro halive
    have hbefore := h (by simp [hins])
    simpa [onTheWay, hins, Inserter.rest, inserted, ZoneUpdate.rrsig?] using hbefore
  | dies hfail hins => exact fun halive ↦ absurd rfl halive
  | fails hzone hend hok => exact h
  | goesOn hzone hend hok hins => exact h
  | panics hzone hins => exact h
  | adds hzone => exact h.update (.AddRecord _) rfl
  | finishes hzone => exact h.update (.Finished _) rfl
  | cannotAdd hfail hzone => exact h

/-! ## What the threads end with -/

/-- The threads do what was planned, the channel is closed by their end, and no thread has failed
where `sign_zone` goes on. -/
structure Followed (plan : List (List (List Rrsig) × Except String Unit)) (s : SigningRun Rrsig) :
    Prop where
  length : s.threads.length = plan.length
  results : ∀ (i : Nat) (thread : Thread Rrsig), s.threads[i]? = some thread →
    ∃ planned, plan[i]? = some planned ∧ thread.follows planned.2 s.inserter
  closed : s.inserter = .done → s.channel = [] ∧ s.threads.all Thread.isEnded = true
  signed : s.signZone.hasSignatures = true → ∀ planned ∈ plan, planned.2.isOk = true

theorem followed_start (plan : List (List (List Rrsig) × Except String Unit)) :
    (start plan).Followed plan where
  length := List.length_map _
  results i thread hi := by
    have hplanned : (plan[i]?).map (fun planned ↦ Thread.waiting planned.1 planned.2) = some thread :=
      List.getElem?_map.symm.trans hi
    obtain ⟨planned, hget, hthread⟩ := Option.map_eq_some_iff.mp hplanned
    exact ⟨planned, hget, hthread ▸ rfl⟩
  closed hdone := nomatch hdone
  signed hsigned := nomatch hsigned

theorem Followed.thread {i : Nat} {a b : Thread Rrsig} (h : s.Followed plan)
    (hi : s.threads[i]? = some a) (hend : a.isEnded = false)
    (hfollows : ∀ result, a.follows result s.inserter → b.follows result s.inserter) :
    (s.setThread i b).Followed plan where
  length := (List.length_set ..).trans h.length
  results j thread hj := by
    cases getElem?_set_cases hj with
    | inl hself =>
      obtain ⟨planned, hget, ha⟩ := h.results i a hi
      exact ⟨planned, hself.1 ▸ hget, hself.2 ▸ hfollows _ ha⟩
    | inr hother => exact h.results j thread hother.2
  closed hdone := by
    have hall := List.all_eq_true.mp (h.closed hdone).2 a (List.mem_of_getElem? hi)
    exact absurd (hend.symm.trans hall) (by simp)
  signed := h.signed

-- The inserter goes on, with no change to the threads.
theorem Followed.inserter {s s' : SigningRun Rrsig} (h : s.Followed plan)
    (hthreads : s'.threads = s.threads) (hzone : s'.signZone = s.signZone)
    (hdead : s.inserter = .dead → s'.inserter = .dead)
    (hdone : s'.inserter = .done → s'.channel = [] ∧ s.threads.all Thread.isEnded = true) :
    s'.Followed plan where
  length := hthreads ▸ h.length
  results i thread hi := by
    obtain ⟨planned, hget, hfollows⟩ := h.results i thread (hthreads ▸ hi)
    exact ⟨planned, hget, Thread.follows_mono hdead hfollows⟩
  closed hd := hthreads.symm ▸ hdone hd
  signed := hzone.symm ▸ h.signed

theorem Followed.signZone {s' : SigningRun Rrsig} (h : s.Followed plan)
    (hthreads : s'.threads = s.threads) (hchannel : s'.channel = s.channel)
    (hinserter : s'.inserter = s.inserter)
    (hsigned : s'.signZone.hasSignatures = true → ∀ planned ∈ plan, planned.2.isOk = true) :
    s'.Followed plan where
  length := hthreads ▸ h.length
  results := hthreads.symm ▸ hinserter.symm ▸ h.results
  closed := hthreads.symm ▸ hinserter.symm ▸ hchannel.symm ▸ h.closed
  signed := hsigned

theorem Followed.all_ok (h : s.Followed plan) (hend : s.threads.all Thread.isEnded = true)
    (hok : s.threads.all Thread.isOk = true) : ∀ planned ∈ plan, planned.2.isOk = true := by
  intro planned hmem
  obtain ⟨i, hi⟩ := List.mem_iff_getElem?.mp hmem
  have hlt : i < s.threads.length := h.length ▸ (List.getElem?_eq_some_iff.mp hi).1
  have hthread : s.threads[i]? = some s.threads[i] := List.getElem?_eq_getElem hlt
  obtain ⟨planned', hget, hfollows⟩ := h.results i _ hthread
  have hsame : planned' = planned := Option.some.inj (hget.symm.trans hi)
  rw [← hsame]
  exact Thread.isOk_of_follows hfollows
    (List.all_eq_true.mp hend _ (List.getElem_mem hlt))
    (List.all_eq_true.mp hok _ (List.getElem_mem hlt))

theorem followed_step (h : s.Followed plan) (hmove : Moves setup failing s s') : s'.Followed plan := by
  cases hmove with
  | runs hi => exact h.thread hi rfl (fun _ hfollows ↦ hfollows)
  | ends hi => exact h.thread hi rfl (fun _ hfollows ↦ Or.inl (congrArg _ hfollows))
  | givesUp hi hdead => exact h.thread hi rfl (fun _ _ ↦ Or.inr ⟨rfl, hdead⟩)
  | @sends i batch batches result hi hopen =>
    have hthread : (s.setThread i (.running batches result)).Followed plan :=
      h.thread hi rfl (fun _ hfollows ↦ hfollows)
    exact {
      length := hthread.length
      results := hthread.results
      closed := fun hdone ↦ by
        have hall := List.all_eq_true.mp (h.closed hdone).2 _ (List.mem_of_getElem? hi)
        cases hall
      signed := hthread.signed }
  | receives hins hchan => exact h.inserter rfl rfl (by simp [hins]) (by simp)
  | closes hins hchan hend => exact h.inserter rfl rfl (by simp [hins]) (fun _ ↦ ⟨hchan, hend⟩)
  | waits hins => exact h.inserter rfl rfl (by simp [hins]) (by simp)
  | inserts hins => exact h.inserter rfl rfl (by simp [hins]) (by simp)
  | dies hfail hins => exact h.inserter rfl rfl (fun _ ↦ rfl) (by simp)
  | fails hzone hend hok => exact h.signZone rfl rfl rfl (by simp [SignZone.hasSignatures])
  | goesOn hzone hend hok hins => exact h.signZone rfl rfl rfl (fun _ ↦ h.all_ok hend hok)
  | panics hzone hins => exact h.signZone rfl rfl rfl (by simp [SignZone.hasSignatures])
  | adds hzone =>
    exact h.signZone rfl rfl rfl (fun _ ↦ h.signed (by simp [hzone, SignZone.hasSignatures]))
  | finishes hzone =>
    exact h.signZone rfl rfl rfl (fun _ ↦ h.signed (by simp [hzone, SignZone.hasSignatures]))
  | cannotAdd hfail hzone => exact h.signZone rfl rfl rfl (by simp [SignZone.hasSignatures])

/-! ## All or nothing -/

/-- The invariant of all signing runs. -/
structure Sound (setup : SigningSetup) (plan : List (List (List Rrsig) × Except String Unit))
    (s : SigningRun Rrsig) : Prop where
  logged : s.Logged setup
  conserved : s.Conserved plan
  followed : s.Followed plan
  counted : s.rrsigCount = s.inserted.length

theorem sound_start (setup : SigningSetup) (plan : List (List (List Rrsig) × Except String Unit)) :
    (start plan).Sound setup plan where
  logged := logged_start setup plan
  conserved := conserved_start plan
  followed := followed_start plan
  counted := rfl

theorem counted_step (h : s.rrsigCount = s.inserted.length) (hmove : Moves setup failing s s') :
    s'.rrsigCount = s'.inserted.length := by
  cases hmove with
  | @inserts rrsig rest hins =>
    show s.rrsigCount + 1 = ((s.updates ++ [ZoneUpdate.AddRrsig rrsig]).filterMap ZoneUpdate.rrsig?).length
    rw [List.filterMap_append, List.length_append, h]
    rfl
  | @adds record rest hzone =>
    show s.rrsigCount = ((s.updates ++ [ZoneUpdate.AddRecord record]).filterMap ZoneUpdate.rrsig?).length
    rw [List.filterMap_append, List.length_append, h]
    rfl
  | finishes hzone =>
    show s.rrsigCount =
      ((s.updates ++ [ZoneUpdate.Finished setup.soaRr]).filterMap ZoneUpdate.rrsig?).length
    rw [List.filterMap_append, List.length_append, h]
    rfl
  | _ => exact h

theorem sound_step {a : Action} (h : s.Sound setup plan) (hstep : step setup s a = some s') :
    s'.Sound setup plan where
  logged := logged_step h.logged (moves_of_step hstep)
  conserved := conserved_step h.conserved (moves_of_step hstep)
  followed := followed_step h.followed (moves_of_step hstep)
  counted := counted_step h.counted (moves_of_step hstep)

theorem Sound.finished_iff (h : s.Sound setup plan) :
    (∃ soa, .Finished soa ∈ s.updates) ↔ s.signZone = .finished := by
  have hlogged := h.logged
  unfold Logged at hlogged
  cases hzone : s.signZone with
  | generating =>
    simp only [hzone] at hlogged
    rw [hlogged]
    simp
  | failed =>
    simp only [hzone] at hlogged
    rw [hlogged]
    simp
  | adding rest =>
    simp only [hzone] at hlogged
    obtain ⟨_, records, _, hupdates⟩ := hlogged
    rw [hupdates]
    simp
  | finished =>
    simp only [hzone] at hlogged
    rw [hlogged.2]
    simp
  | panicked =>
    simp only [hzone] at hlogged
    simp [hlogged]

-- Once the inserter is done, nothing is on its way any more.
theorem Sound.inserted_perm (h : s.Sound setup plan) (hdone : s.inserter = .done) :
    s.inserted.Perm (sentBatches plan).flatten := by
  obtain ⟨hchannel, hended⟩ := h.followed.closed hdone
  have hunsent : s.threads.flatMap Thread.unsent = [] := by
    apply List.flatMap_eq_nil_iff.mpr
    intro thread hmem
    have hend := List.all_eq_true.mp hended thread hmem
    cases thread with
    | ended ok => rfl
    | waiting batches result => cases hend
    | running batches result => cases hend
  have hperm := h.conserved (by simp [hdone])
  rw [onTheWay, hunsent, hdone, hchannel] at hperm
  simpa [Inserter.rest] using hperm

end SigningRun

/-! ## What the threads send if all end well -/

section

variable {Key Rrsig : Type} {signSorted : SignSorted Key Rrsig}

/-- The signatures for an owner. -/
def signaturesOf (sign : OwnerRrs → Except String (List Rrsig)) (group : OwnerRrs) : List Rrsig :=
  (sign group).toOption.getD []

theorem eq_ok_of_isOk {result : Except String Unit} (h : result.isOk = true) : result = .ok () := by
  cases result with
  | error err => cases h
  | ok done => rfl

theorem loopOwners_ok {sign : OwnerRrs → Except String (List Rrsig)} {isLastChunk : Bool}
    {chunkSize n : Nat} {iter : List OwnerRrs}
    (h : (signLoop sign isLastChunk chunkSize n iter).2.isOk = true) :
    ∀ slice ∈ loopOwners sign isLastChunk chunkSize n iter, (sign slice).isOk = true := by
  induction iter generalizing n with
  | nil => simp [loopOwners]
  | cons slice iter ih =>
    rw [signLoop] at h
    rw [loopOwners]
    by_cases hstop : (!isLastChunk && n == chunkSize) = true
    · simp [hstop]
    · rw [if_neg hstop] at h ⊢
      cases hsign : sign slice with
      | error err =>
        simp only [hsign] at h
        cases h
      | ok rrsigs =>
        simp only [hsign] at h ⊢
        intro other hmem
        cases List.mem_cons.mp hmem with
        | inl hsame => rw [hsame, hsign]; rfl
        | inr hrest => exact ih h other hrest

theorem flatten_sent (sign : OwnerRrs → Except String (List Rrsig)) (owners : List OwnerRrs) :
    ((owners.filterMap (fun slice ↦ (sign slice).toOption)).filter
      (fun rrsigs ↦ !rrsigs.isEmpty)).flatten = owners.flatMap (signaturesOf sign) := by
  induction owners with
  | nil => rfl
  | cons slice owners ih =>
    rw [List.flatMap_cons, ← ih]
    cases hsign : sign slice with
    | error err => simp [signaturesOf, hsign, Except.toOption]
    | ok rrsigs =>
      cases rrsigs with
      | nil => simp [signaturesOf, hsign, Except.toOption]
      | cons rrsig rrsigs => simp [signaturesOf, hsign, Except.toOption]

-- A thread that ends well has sent the signatures for all owners of its chunk.
theorem signRrChunk_ok {parallelism chunkSize threadIdx : Nat} (hidx : threadIdx < parallelism)
    {records : List StoredRecord} (hskip : threadIdx * chunkSize ≤ (recordsIter records).length)
    {keys : List Key} {zoneName : Name} {treat : Bool}
    (hok : (signRrChunk signSorted (decide (threadIdx = parallelism - 1)) chunkSize records threadIdx
      keys zoneName treat).2.isOk = true) :
    let sign group := signSorted zoneName (recordsIter group) keys
    let part := chunk parallelism chunkSize threadIdx (recordsIter records)
    (∀ group ∈ part, (sign group).isOk = true) ∧
      (signRrChunk signSorted (decide (threadIdx = parallelism - 1)) chunkSize records threadIdx
        keys zoneName treat).1.flatten = part.flatMap (signaturesOf sign) := by
  intro sign part
  have hpart := (threadOwners_spec signSorted parallelism chunkSize threadIdx hidx records hskip keys
    zoneName treat).2 (eq_ok_of_isOk hok)
  simp only [threadOwners, signRrChunk, skipOwners_eq, if_pos hskip, zsks_eq] at hok hpart ⊢
  rw [signLoop_sent, flatten_sent, hpart]
  refine ⟨?_, rfl⟩
  have howners := loopOwners_ok hok
  rw [hpart] at howners
  exact howners

/-- The threads of `sign_zone`, as many as it determines. -/
def plannedThreads (signSorted : SignSorted Key Rrsig) (maxTasks : Nat)
    (unsignedRecords : List StoredRecord) (keys : List Key) (zoneName : Name)
    (treatSingleKeysAsCsks : Bool) : List (List (List Rrsig) × Except String Unit) :=
  let rrCount := (recordsIter unsignedRecords).length
  signThreads signSorted (determineSigningConcurrency rrCount maxTasks).1 unsignedRecords keys
    zoneName treatSingleKeysAsCsks

theorem plannedThreads_ok {maxTasks : Nat} (hmax : 1 ≤ maxTasks) {records : List StoredRecord}
    {keys : List Key} {zoneName : Name} {treat : Bool}
    (hok : ∀ thread ∈ plannedThreads signSorted maxTasks records keys zoneName treat,
      thread.2.isOk = true) :
    let sign group := signSorted zoneName (recordsIter group) keys
    (∀ group ∈ recordsIter records, (sign group).isOk = true) ∧
      (sentBatches (plannedThreads signSorted maxTasks records keys zoneName treat)).flatten =
        (recordsIter records).flatMap (signaturesOf sign) := by
  intro sign
  let groups := recordsIter records
  let parallelism := (determineSigningConcurrency groups.length maxTasks).1
  have hpar : 0 < parallelism := (determineSigningConcurrency_spec groups.length hmax).1
  have hthread : ∀ i < parallelism,
      (∀ group ∈ chunk parallelism (groups.length / parallelism) i groups,
        (sign group).isOk = true) ∧
        (signRrChunk signSorted (decide (i = parallelism - 1)) (groups.length / parallelism) records
          i keys zoneName treat).1.flatten =
          (chunk parallelism (groups.length / parallelism) i groups).flatMap (signaturesOf sign) := by
    intro i hi
    apply signRrChunk_ok hi (skipped_le groups.length i hi)
    apply hok
    exact List.mem_map.mpr ⟨i, List.mem_range.mpr hi, rfl⟩
  have hcover : (List.range parallelism).flatMap (fun i ↦
      chunk parallelism (groups.length / parallelism) i groups) = groups :=
    flatMap_chunk groups _ hpar
  refine ⟨?_, ?_⟩
  · intro group hmem
    have hcovered : group ∈ groups := hmem
    rw [← hcover] at hcovered
    obtain ⟨i, hi, hpart⟩ := List.mem_flatMap.mp hcovered
    exact (hthread i (List.mem_range.mp hi)).1 group hpart
  · calc
      (sentBatches (plannedThreads signSorted maxTasks records keys zoneName treat)).flatten =
          (List.range parallelism).flatMap (fun i ↦ (signRrChunk signSorted
            (decide (i = parallelism - 1)) (groups.length / parallelism) records i keys zoneName
            treat).1.flatten) := by
        simp only [sentBatches, plannedThreads, signThreads, List.flatMap_map]
        rw [← List.flatMap_id, List.flatMap_assoc]
        exact List.flatMap_congr (fun _ _ ↦ List.flatMap_id)
      _ = (List.range parallelism).flatMap (fun i ↦
            (chunk parallelism (groups.length / parallelism) i groups).flatMap
              (signaturesOf sign)) :=
        List.flatMap_congr (fun i hi ↦ (hthread i (List.mem_range.mp hi)).2)
      _ = groups.flatMap (signaturesOf sign) := by rw [← List.flatMap_assoc, hcover]

/-- In every state of every run, whatever the order of the steps and the updates that fail: the
update of the zone has been finished if and only if `sign_zone` has got there, and then no thread
had an error, and the new zone is the signatures for all owners, each once, and the unsigned
records.  So a zone is never published with part of its signatures. -/
theorem signed_zone_is_whole {setup : SigningSetup} {maxTasks : Nat} (hmax : 1 ≤ maxTasks)
    {keys : List Key} {zoneName : Name} {treat : Bool} {s : SigningRun Rrsig}
    (h : Reach (SigningRun.step setup) anyStep (· = SigningRun.start
      (plannedThreads signSorted maxTasks setup.unsignedRecords keys zoneName treat)) s) :
    let sign group := signSorted zoneName (recordsIter group) keys
    let groups := recordsIter setup.unsignedRecords
    ((∃ soa, .Finished soa ∈ s.updates) ↔ s.signZone = .finished) ∧
      (s.signZone = .finished → (∀ group ∈ groups, (sign group).isOk = true) ∧
        ∃ rrsigs : List Rrsig, rrsigs.Perm (groups.flatMap (signaturesOf sign)) ∧
          s.rrsigCount = rrsigs.length ∧
          s.updates = .DeleteAllRecords :: rrsigs.map .AddRrsig ++
            setup.unsignedRecords.map .AddRecord ++ [.Finished setup.soaRr]) := by
  intro sign groups
  have hsound := h.invariant (I := SigningRun.Sound setup
      (plannedThreads signSorted maxTasks setup.unsignedRecords keys zoneName treat))
    (fun s hs ↦ by rw [show s = _ from hs]; exact SigningRun.sound_start setup _)
    (fun _ _ _ hs _ hstep ↦ SigningRun.sound_step hs hstep)
  refine ⟨hsound.finished_iff, ?_⟩
  intro hfinished
  have hlogged := hsound.logged
  simp only [SigningRun.Logged, hfinished] at hlogged
  have hok := plannedThreads_ok hmax (hsound.followed.signed (by simp [hfinished,
    SignZone.hasSignatures]))
  refine ⟨hok.1, s.inserted, ?_, hsound.counted, hlogged.2⟩
  rw [← hok.2]
  exact hsound.inserted_perm hlogged.1

end

namespace SigningExample

def soaRr : StoredRecord := DelegationExample.record DelegationExample.apex Rtype.SOA

/-- One worker, and a channel with room for one batch. -/
def setup : SigningSetup :=
  { workers := 1, capacity := 1, unsignedRecords := DelegationExample.delegation, soaRr }

def threads : List (List (List (Nat × List StoredRecord)) × Except String Unit) :=
  plannedThreads DelegationExample.signSorted 4 setup.unsignedRecords [7] DelegationExample.apex true

/-- The signature is inserted while the second thread still waits for the worker. -/
def actions : List SigningRun.Action :=
  [.thread 0, .thread 0, .inserter, .inserter, .thread 0, .thread 1, .inserter, .thread 1, .inserter,
    .signZone, .signZone, .signZone, .signZone]

end SigningExample

theorem delegation_signed_whole :
    ∃ s : SigningRun (Nat × List StoredRecord), s.signZone = .finished ∧
      ∃ rrsigs : List (Nat × List StoredRecord),
        rrsigs.Perm ((recordsIter DelegationExample.delegation).flatMap (signaturesOf (fun group ↦
          DelegationExample.signSorted DelegationExample.apex (recordsIter group) [7]))) ∧
        s.updates = .DeleteAllRecords :: rrsigs.map .AddRrsig ++
          DelegationExample.delegation.map .AddRecord ++ [.Finished SigningExample.soaRr] := by
  have hended : (exec (SigningRun.step SigningExample.setup)
      (SigningRun.start SigningExample.threads) SigningExample.actions).any
      (fun s ↦ decide (s.signZone = .finished)) = true := by decide +kernel
  have hrun : ∃ s, Reach (SigningRun.step SigningExample.setup) anyStep
      (· = SigningRun.start SigningExample.threads) s ∧ decide (s.signZone = .finished) = true := by
    apply Reach.of_exec_any _ SigningExample.actions hended
    rfl
  obtain ⟨s, hs, hfinished⟩ := hrun
  have hzone : s.signZone = .finished := of_decide_eq_true hfinished
  have hwhole := signed_zone_is_whole (show 1 ≤ 4 by decide) hs
  obtain ⟨_, rrsigs, hperm, _, hupdates⟩ := hwhole.2 hzone
  exact ⟨s, hzone, rrsigs, hperm, hupdates⟩

/-! ## A run comes to its end -/

namespace Thread

variable {Rrsig : Type}

/-- How many steps a batch takes, of the thread and of the inserter. -/
def batchWork (batch : List Rrsig) : Nat := 2 + batch.length

def work : Thread Rrsig → Nat
  | .waiting batches _ => 2 + (batches.map (fun batch ↦ 1 + batchWork batch)).sum
  | .running batches _ => 1 + (batches.map (fun batch ↦ 1 + batchWork batch)).sum
  | .ended _ => 0

end Thread

def Inserter.work {Rrsig : Type} : Inserter Rrsig → Nat
  | .receiving => 1
  | .inserting rest => 2 + rest.length
  | .done => 0
  | .dead => 0

def SignZone.work (setup : SigningSetup) : SignZone → Nat
  | .generating => 2 + setup.unsignedRecords.length
  | .adding rest => 1 + rest.length
  | _ => 0

namespace SigningRun

variable {Rrsig : Type} {setup : SigningSetup}
  {plan : List (List (List Rrsig) × Except String Unit)} {failing : Prop} {s s' : SigningRun Rrsig}

/-- What is left to do. -/
def work (setup : SigningSetup) (s : SigningRun Rrsig) : Nat :=
  (s.threads.map Thread.work).sum + (s.channel.map Thread.batchWork).sum + s.inserter.work +
    s.signZone.work setup

theorem work_thread {i : Nat} {a b : Thread Rrsig} (hi : s.threads[i]? = some a)
    (hwork : b.work < a.work) : (s.setThread i b).work setup < s.work setup := by
  have hsum := sum_map_set (μ := Thread.work) (b := b) hi
  simp only [work, setThread]
  omega

theorem work_step (hmove : Moves setup failing s s') : s'.work setup < s.work setup := by
  cases hmove with
  | runs hi => exact work_thread hi (by simp [Thread.work])
  | ends hi => exact work_thread hi (by simp [Thread.work])
  | givesUp hi hdead => exact work_thread hi (by simp only [Thread.work]; omega)
  | @sends i batch batches result hi hopen =>
    have hsum := sum_map_set (μ := Thread.work) (b := .running batches result) hi
    simp only [Thread.work, List.map_cons, List.sum_cons] at hsum
    simp only [work, setThread, List.map_append, List.sum_append, List.map_cons, List.sum_cons,
      List.map_nil, List.sum_nil]
    omega
  | receives hins hchan =>
    simp only [work, hins, hchan, Inserter.work, List.map_cons, List.sum_cons, Thread.batchWork]
    omega
  | closes hins hchan hend =>
    simp only [work, hins, Inserter.work]
    omega
  | waits hins =>
    simp only [work, hins, Inserter.work, List.length_nil]
    omega
  | inserts hins =>
    simp only [work, hins, Inserter.work, List.length_cons]
    omega
  | dies hfail hins =>
    simp only [work, hins, Inserter.work, List.length_cons, List.map_nil, List.sum_nil]
    omega
  | fails hzone hend hok =>
    simp only [work, hzone, SignZone.work]
    omega
  | goesOn hzone hend hok hins =>
    simp only [work, hzone, SignZone.work]
    omega
  | panics hzone hins =>
    simp only [work, hzone, SignZone.work]
    omega
  | adds hzone =>
    simp only [work, hzone, SignZone.work, List.length_cons]
    omega
  | finishes hzone =>
    simp only [work, hzone, SignZone.work]
    omega
  | cannotAdd hfail hzone =>
    simp only [work, hzone, SignZone.work]
    omega

theorem not_isRunning {thread : Thread Rrsig} (hrun : thread.isRunning = false)
    (hend : thread.isEnded = false) : ∃ batches result, thread = .waiting batches result := by
  cases thread with
  | waiting batches result => exact ⟨batches, result, rfl⟩
  | running batches result => cases hrun
  | ended ok => cases hend

-- While not all threads have ended, one of them is on a worker or can get one.
theorem thread_goes_on (hworkers : 1 ≤ setup.workers)
    (hend : s.threads.all Thread.isEnded = false)
    (hsend : s.inserter = .dead ∨ s.channel.length < setup.capacity) :
    ∃ i s', step setup s (.thread i) = some s' := by
  by_cases hrun : s.threads.any Thread.isRunning = true
  · obtain ⟨thread, hmem, hthread⟩ := List.any_eq_true.mp hrun
    obtain ⟨i, hi⟩ := List.mem_iff_getElem?.mp hmem
    have hstep : step setup s (.thread i) = s.threadNext setup i thread := by
      show s.threads[i]?.bind (s.threadNext setup i) = _
      rw [hi]
      rfl
    cases thread with
    | waiting batches result => cases hthread
    | ended ok => cases hthread
    | running batches result =>
      cases batches with
      | nil => exact ⟨i, _, hstep⟩
      | cons batch batches =>
        have hroom : ∃ s', s.send setup i batch batches result = some s' := by
          unfold send
          cases hins : s.inserter with
          | dead => exact ⟨_, rfl⟩
          | _ => exact ⟨_, if_pos (hsend.resolve_left (by simp [hins]))⟩
        obtain ⟨s', hs'⟩ := hroom
        exact ⟨i, s', hstep.trans hs'⟩
  · have hnone : s.threads.any Thread.isRunning = false := by simpa using hrun
    obtain ⟨thread, hmem, hthread⟩ := List.all_eq_false.mp hend
    obtain ⟨i, hi⟩ := List.mem_iff_getElem?.mp hmem
    have hnot : thread.isRunning = false := by
      simpa using List.any_eq_false.mp hnone thread hmem
    obtain ⟨batches, result, hwaiting⟩ := not_isRunning hnot (by simpa using hthread)
    have hfree : s.threads.filter Thread.isRunning = [] :=
      List.filter_eq_nil_iff.mpr (List.any_eq_false.mp hnone)
    have hstep : step setup s (.thread i) = some (s.setThread i (.running batches result)) := by
      show s.threads[i]?.bind (s.threadNext setup i) = _
      rw [hi, hwaiting]
      apply if_pos
      rw [hfree, List.length_nil]
      omega
    exact ⟨i, _, hstep⟩

-- The inserter has something to do, or waits for the threads.
theorem inserter_goes_on (hreceiving : s.inserter = .receiving → s.channel = [] →
      s.threads.all Thread.isEnded = true) :
    s.inserter = .done ∨ s.inserter = .dead ∨ s.inserterNext.isSome = true := by
  unfold inserterNext
  cases hins : s.inserter with
  | receiving =>
    cases hchannel : s.channel with
    | nil => simp [hreceiving hins hchannel]
    | cons batch channel => simp
  | inserting rest =>
    cases rest with
    | nil => simp
    | cons rrsig rest => simp
  | done => simp
  | dead => simp

-- `sign_zone` waits for the threads and for the inserter.
theorem signZone_goes_on (hover : s.isOver = false) (hend : s.threads.all Thread.isEnded = true)
    (hins : s.inserter = .done ∨ s.inserter = .dead) : (s.signZoneNext setup).isSome = true := by
  unfold signZoneNext
  cases hzone : s.signZone with
  | generating =>
    by_cases hok : s.threads.all Thread.isOk = true
    · cases hins with
      | inl hdone => simp [hend, hok, hdone]
      | inr hdead => simp [hend, hok, hdead]
    · simp [hend, hok]
  | adding rest =>
    cases rest with
    | nil => simp
    | cons record rest => simp
  | finished => simp [isOver, hzone] at hover
  | failed => simp [isOver, hzone] at hover
  | panicked => simp [isOver, hzone] at hover

-- The threads wait for a worker or for room in the channel, the inserter for the threads, and
-- `sign_zone` for both: the cases are who of them can take the next step.
theorem goes_on (hworkers : 1 ≤ setup.workers) (hcapacity : 1 ≤ setup.capacity)
    (h : s.Followed plan) (hover : s.isOver = false) :
    ∃ a s', updatesSucceed s a ∧ step setup s a = some s' := by
  cases hend : s.threads.all Thread.isEnded with
  | true =>
    have hinserter := inserter_goes_on (s := s) (fun _ _ ↦ hend)
    by_cases hins : s.inserter = .done ∨ s.inserter = .dead
    · obtain ⟨s', hs'⟩ := Option.isSome_iff_exists.mp (signZone_goes_on hover hend hins)
      exact ⟨.signZone, s', trivial, hs'⟩
    · have hnext : s.inserterNext.isSome = true := by
        rw [← or_assoc] at hinserter
        exact hinserter.resolve_left hins
      obtain ⟨s', hs'⟩ := Option.isSome_iff_exists.mp hnext
      exact ⟨.inserter, s', trivial, hs'⟩
  | false =>
    by_cases hsend : s.inserter = .dead ∨ s.channel.length < setup.capacity
    · obtain ⟨i, s', hs'⟩ := thread_goes_on hworkers hend hsend
      exact ⟨.thread i, s', trivial, hs'⟩
    · -- the channel is full, and the inserter empties it
      have hfull : s.channel ≠ [] := by
        intro hempty
        rw [hempty, List.length_nil] at hsend
        exact hsend (Or.inr (by omega))
      have hinserter := inserter_goes_on (s := s) (fun _ hempty ↦ absurd hempty hfull)
      have hopen : s.inserter ≠ .done := fun hdone ↦ hfull (h.closed hdone).1
      have hnext := (hinserter.resolve_left hopen).resolve_left (fun hdead ↦ hsend (Or.inl hdead))
      obtain ⟨s', hs'⟩ := Option.isSome_iff_exists.mp hnext
      exact ⟨.inserter, s', trivial, hs'⟩

/-- What holds as long as no update fails. -/
structure Unbroken (plan : List (List (List Rrsig) × Except String Unit)) (s : SigningRun Rrsig) :
    Prop where
  followed : s.Followed plan
  alive : s.inserter ≠ .dead
  calm : s.signZone ≠ .panicked
  blamed : s.signZone = .failed → ∃ planned ∈ plan, planned.2.isOk = false

theorem unbroken_start (plan : List (List (List Rrsig) × Except String Unit)) :
    (start plan).Unbroken plan where
  followed := followed_start plan
  alive := nofun
  calm := nofun
  blamed := nofun

-- Without a dead inserter, a thread that has failed had an error.
theorem Unbroken.blame (h : s.Unbroken plan) (hok : s.threads.all Thread.isOk = false) :
    ∃ planned ∈ plan, planned.2.isOk = false := by
  obtain ⟨thread, hmem, hthread⟩ := List.all_eq_false.mp hok
  obtain ⟨i, hi⟩ := List.mem_iff_getElem?.mp hmem
  obtain ⟨planned, hget, hfollows⟩ := h.followed.results i thread hi
  refine ⟨planned, List.mem_of_getElem? hget, ?_⟩
  cases thread with
  | waiting batches result => exact absurd rfl hthread
  | running batches result => exact absurd rfl hthread
  | ended ok =>
    have hresult : ok = planned.2.isOk := hfollows.resolve_right (fun hdead ↦ h.alive hdead.2)
    rw [← hresult]
    cases ok with
    | true => exact absurd rfl hthread
    | false => rfl

theorem unbroken_step (h : s.Unbroken plan) (hfine : ¬failing) (hmove : Moves setup failing s s') :
    s'.Unbroken plan where
  followed := followed_step h.followed hmove
  alive := by
    cases hmove with
    | dies hfail hins => exact absurd hfail hfine
    | receives hins hchan => simp
    | closes hins hchan hend => simp
    | waits hins => simp
    | inserts hins => simp
    | _ => exact h.alive
  calm := by
    cases hmove with
    | panics hzone hins => exact absurd hins h.alive
    | cannotAdd hfail hzone => exact absurd hfail hfine
    | fails hzone hend hok => simp
    | goesOn hzone hend hok hins => simp
    | adds hzone => simp
    | finishes hzone => simp
    | _ => exact h.calm
  blamed := by
    cases hmove with
    | fails hzone hend hok => exact fun _ ↦ h.blame hok
    | goesOn hzone hend hok hins => simp
    | panics hzone hins => simp
    | adds hzone => simp
    | finishes hzone => simp
    | cannotAdd hfail hzone => simp
    | _ => exact h.blamed

theorem followed_of_reach {s : SigningRun Rrsig}
    (h : Reach (step setup) anyStep (· = start plan) s) : s.Followed plan :=
  h.invariant (I := Followed plan)
    (fun s hs ↦ by rw [show s = _ from hs]; exact followed_start plan)
    (fun _ _ _ hs _ hstep ↦ followed_step hs (moves_of_step hstep))

theorem unbroken_of_reach {s : SigningRun Rrsig}
    (h : Reach (step setup) updatesSucceed (· = start plan) s) : s.Unbroken plan :=
  h.invariant (I := Unbroken plan)
    (fun s hs ↦ by rw [show s = _ from hs]; exact unbroken_start plan)
    (fun _ _ _ hs hok hstep ↦ unbroken_step hs (not_not_intro hok) (moves_of_step hstep))

end SigningRun

variable {Rrsig : Type}

/-- A pool with a worker and a channel with room for a batch are enough for every run to come to its
end: no run has more steps than the work there is, and `sign_zone` is never stuck before its end,
whatever the order of the steps and the updates that fail.  If none fails, the end is a finished
zone, unless a thread had an error. -/
theorem signing_run_ends {setup : SigningSetup} (hworkers : 1 ≤ setup.workers)
    (hcapacity : 1 ≤ setup.capacity) (plan : List (List (List Rrsig) × Except String Unit)) :
    let start := SigningRun.start plan
    let step := SigningRun.step setup
    (∀ as s, exec step start as = some s → as.length ≤ start.work setup) ∧
      (∀ s, Reach step anyStep (· = start) s → s.isOver = false →
        ∃ a s', SigningRun.updatesSucceed s a ∧ step s a = some s') ∧
      (∀ s, Reach step SigningRun.updatesSucceed (· = start) s → s.isOver = true →
        s.signZone = .finished ∨
          (s.signZone = .failed ∧ ∃ thread ∈ plan, thread.2.isOk = false)) := by
  intro start step
  refine ⟨?_, ?_, ?_⟩
  · intro as s hrun
    have hlength := exec_length_le
      (fun s a s' hstep ↦ SigningRun.work_step (SigningRun.moves_of_step hstep)) hrun
    omega
  · intro s hs hover
    exact SigningRun.goes_on hworkers hcapacity (SigningRun.followed_of_reach hs) hover
  · intro s hs hover
    have hunbroken := SigningRun.unbroken_of_reach hs
    cases hzone : s.signZone with
    | generating => simp [SigningRun.isOver, hzone] at hover
    | adding rest => simp [SigningRun.isOver, hzone] at hover
    | finished => exact Or.inl rfl
    | failed => exact Or.inr ⟨rfl, hunbroken.blamed hzone⟩
    | panicked => exact absurd hzone hunbroken.calm

theorem delegation_signing_ends :
    let start := SigningRun.start SigningExample.threads
    let step := SigningRun.step SigningExample.setup
    (∀ as s, exec step start as = some s → as.length ≤ 13) ∧
      ∀ s, Reach step SigningRun.updatesSucceed (· = start) s → s.isOver = true →
        s.signZone = .finished ∨
          (s.signZone = .failed ∧ ∃ thread ∈ SigningExample.threads, thread.2.isOk = false) := by
  intro start step
  have hends := @signing_run_ends _ SigningExample.setup (Nat.le_refl 1) (Nat.le_refl 1)
    SigningExample.threads
  have hwork : start.work SigningExample.setup = 13 := by decide +kernel
  exact ⟨fun as s hrun ↦ hwork ▸ hends.1 as s hrun, hends.2.2⟩

end Signing

end Cascade
