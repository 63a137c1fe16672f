import Cascade.SignedTree
import Cascade.Snapshot

/-!
# The serials of zones

What a step does to the serials of the unsigned and of the signed zones, and where the serial that a
zone is signed under is read: that of a new version from the unsigned zone, and that of a zone that
is signed again from the published one.
-/

namespace Cascade

open Lib

/-- `>=` on serials. -/
def Serial.ge (a b : Serial) : Bool := decide (a = b) || a.gt b

@[simp] theorem Serial.ge_refl (a : Serial) : a.ge a = true := by
  simp [Serial.ge]

namespace ZoneSigner

/-- The job of the signer and the SOA record that it has read for it, until the commit. -/
def soaJob : ZoneSigner → Option (SignJob × Soa)
  | .started job soa => some (job, soa.value)
  | .creating job soa _ _ => some (job, soa.value)
  | .targeted job soa _ => some (job, soa.value)
  | .configured job soa _ _ => some (job, soa.value)
  | .collected job soa _ _ _ => some (job, soa.value)
  | _ => none

end ZoneSigner

namespace Pipeline

def unsignedSerial (p : Pipeline) (n : Name) (handle : Handle) : Option Serial :=
  (p.unsignedHeap.get n handle).bind (fun zone ↦ zone.content.soa.map Soa.serial)

def signedSerial (p : Pipeline) (n : Name) (handle : Handle) : Option Serial :=
  (p.signedHeap.get n handle).bind (fun content ↦ content.soa.map Soa.serial)

/-- What readers see of the zone. -/
def publishedSerial (p : Pipeline) (n : Name) : Option Serial :=
  (p.publishedZones.lookup n).bind (p.signedSerial n)

/-- The serial that a step gives to an unsigned zone. -/
def newVersion (p : Pipeline) : Action → Option (Name × Serial)
  | .transferWrite n _ content => content.soa.map (fun soa ↦ (n, soa.serial))
  | .transferCommit n _ content => content.soa.map (fun soa ↦ (n, soa.serial))
  | .loaderReceive (some ⟨some soa, _⟩) _ =>
    match p.net.receive .ZL with
    | some (.RegisterZone ⟨n, .Zonefile _, _⟩, _) => some (n, soa.serial)
    | _ => none
  | _ => none

/-- Every name is registered once. -/
def registersOnce (p : Pipeline) : Action → Bool
  | .loaderReceive loaded isSecondary => p.settled (.loaderReceive loaded isSecondary)
  | _ => true

/-! ## What a step does to the serials -/

/-- The signer commits, the publication server publishes, or the serials of the signed zones and the
published tree stay as they are. -/
inductive SerialStep (p p' : Pipeline) : Action → Prop
  | commit {records : List StoredRecord} {job : SignJob} {soa : SignRead Soa} {handle : Handle}
      {policy : PolicyVersion} {collected : SignRead (List StoredRecord)} :
      p.signer = .collected job soa handle policy collected →
      p' = { p with
        signedHeap := p.signedHeap.set job.zoneName handle ⟨some soa.value, records⟩
        signer := .committed job.zoneName soa.value.serial } →
      SerialStep p p' (.signerNext records)
  | publish {n : Name} {handle : Handle} {signed published : ZoneTree} :
      p.publisher = .adding n handle signed published →
      p' = { p with
        publishedZones := (published.erase n).insert n handle
        publisher := .removing n signed } → SerialStep p p' .publisherNext
  | keep {a : Action} : (∀ n handle, p'.signedSerial n handle = p.signedSerial n handle) →
      p'.publishedZones = p.publishedZones → SerialStep p p' a

section

variable {p p' : Pipeline} {a : Action}

theorem SerialStep.of_heap (hheap : p'.signedHeap = p.signedHeap)
    (hpublished : p'.publishedZones = p.publishedZones) : SerialStep p p' a := by
  refine .keep ?_ hpublished
  intro n handle
  unfold signedSerial
  rw [hheap]

theorem signedSerial_alloc (n m : Name) (handle : Handle) :
    signedSerial { p with signedHeap := p.signedHeap.alloc n ⟨none, []⟩ } m handle =
      p.signedSerial m handle := by
  unfold signedSerial
  rw [Heap.get_alloc]
  split
  next heq =>
    -- the new zone has no SOA record, and there was none before
    have hnone : p.signedHeap.get m handle = none := by
      rw [heq.1, heq.2]
      cases hget : p.signedHeap.get n (p.signedHeap.next n) with
      | none => rfl
      | some content =>
        have hlt := Heap.lt_next_iff.mpr ⟨content, hget⟩
        exact absurd hlt (Nat.lt_irrefl _)
    rw [hnone]
    rfl
  · rfl

theorem serialStep_of_step (h : p.step a = some p') : SerialStep p p' a := by
  by_cases hsigner : a.task = .signer
  · cases signerTurn_of_step h hsigner with
    | commit hpc => exact .commit hpc rfl
    | create => exact .keep (fun m handle ↦ signedSerial_alloc _ m handle) rfl
    | receive | skip | read | noSoa | choose | store | panic | configure | collect | report
    | fail => exact .of_heap rfl rfl
  · have hheap := (step_frame h).signedHeap hsigner
    by_cases hpublisher : a.task = .publisher
    · cases publisherTurn_of_step h hpublisher with
      | add hpc => exact .publish hpc rfl
      | take | skip | remove => exact .of_heap hheap rfl
    · exact .of_heap hheap ((step_frame h).publishedZones hpublisher)

-- What the signer has read it has read before, or reads now from the zone of its job.
theorem soaJob_of_step (h : p.step a = some p') {job : SignJob} {soa : Soa}
    (hjob : p'.signer.soaJob = some (job, soa)) :
    p.signer.soaJob = some (job, soa) ∨ p.signer = .found job ∧
      (p.unsignedSerial job.zoneName job.handle = some soa.serial ∨
        job.zoneSerial = none ∧ p.signedSerial job.zoneName job.handle = some soa.serial) := by
  by_cases ha : a.task = .signer
  · cases signerTurn_of_step h ha with
    | @read _ _ found _ _ hsigner hread =>
      cases hjob
      refine Or.inr ⟨hsigner, ?_⟩
      unfold readZone at hread
      cases hserial : job.zoneSerial with
      | some serial =>
        rw [hserial] at hread
        have ⟨zone, hget, hzone⟩ := Option.map_eq_some_iff.mp hread
        have hsoa : zone.content.soa = some found := congrArg (fun x ↦ x.1.soa) hzone
        refine Or.inl ?_
        rw [unsignedSerial, hget, Option.bind_some, hsoa]
        rfl
      | none =>
        rw [hserial] at hread
        have ⟨content, hget, hcontent⟩ := Option.map_eq_some_iff.mp hread
        have hsoa : content.soa = some found := congrArg (fun x ↦ x.1.soa) hcontent
        refine Or.inr ⟨rfl, ?_⟩
        rw [signedSerial, hget, Option.bind_some, hsoa]
        rfl
    | skip => exact Or.inl hjob
    | choose hsigner | create hsigner | store hsigner | configure hsigner | collect hsigner =>
      -- the signer keeps what it has read
      rw [hsigner]
      exact Or.inl hjob
    | receive | noSoa | panic | commit | report | fail => cases hjob
  · rw [(step_frame h).signer ha] at hjob
    exact Or.inl hjob

/-- An unsigned zone gets a new content, the first zone of a name is added, or the unsigned zones
stay as they are. -/
inductive UnsignedStep (p p' : Pipeline) (a : Action) : Prop
  | write {name : Name} {handle : Handle} {zone old : UnsignedZone} :
      p.unsignedHeap.get name handle = some old →
      p'.unsignedHeap = p.unsignedHeap.set name handle zone →
      p.newVersion a = zone.content.soa.map (fun soa ↦ (name, soa.serial)) → UnsignedStep p p' a
  | add {name : Name} {zone : UnsignedZone} : p.unsignedHeap.next name = 0 →
      p'.unsignedHeap = p.unsignedHeap.alloc name zone →
      p.newVersion a = zone.content.soa.map (fun soa ↦ (name, soa.serial)) → UnsignedStep p p' a
  | keep : p'.unsignedHeap = p.unsignedHeap → p.newVersion a = none → UnsignedStep p p' a

theorem unsignedStep_of_register {loaded : Option ZoneContent} {isSecondary : Bool} {zone : ZoneAdd}
    {net : Net} (hreceive : p.net.receive .ZL = some (.RegisterZone zone, net))
    (hnext : registers zone loaded = true → p.unsignedHeap.next zone.name = 0) :
    UnsignedStep p ((p.withNet net).register zone loaded isSecondary)
      (.loaderReceive loaded isSecondary) := by
  rcases zone with ⟨name, source, policy⟩
  cases loaded with
  | none =>
    refine .keep ?_ rfl
    cases source <;> rfl
  | some content =>
    rcases content with ⟨soa, records⟩
    cases source with
    | Server addr =>
      refine .add (hnext rfl) rfl ?_
      cases soa with
      | none => rfl
      | some soa => simp [newVersion, hreceive]
    | Zonefile path =>
      cases soa with
      | none => exact .keep rfl rfl
      | some soa =>
        refine .add (hnext rfl) rfl ?_
        simp [newVersion, hreceive]

theorem newVersion_of_other {loaded : Option ZoneContent} {isSecondary : Bool}
    {cmd : ApplicationCommand} {net : Net} (hreceive : p.net.receive .ZL = some (cmd, net))
    (hcmd : ∀ zone, cmd = .RegisterZone zone → False) :
    p.newVersion (.loaderReceive loaded isSecondary) = none := by
  cases loaded with
  | none => rfl
  | some content =>
    rcases content with ⟨soa, records⟩
    cases soa with
    | none => rfl
    | some soa =>
      simp only [newVersion, hreceive]
      cases cmd with
      | RegisterZone zone => exact absurd rfl (hcmd zone)
      | _ => rfl

theorem unsignedStep_of_step (hok : p.registersOnce a = true) (h : p.step a = some p') :
    UnsignedStep p p' a := by
  cases a with
  | transferWrite name handle content | transferCommit name handle content =>
    simp only [step, Pipeline.transferWrite, Pipeline.transferCommit] at h
    split at h
    next hold =>
      cases h
      exact .write hold rfl rfl
    · cases h
  | loaderReceive loaded isSecondary =>
    simp only [step, Pipeline.loaderReceive] at h
    split at h
    next zone net hidle hreceive =>
      cases h
      refine unsignedStep_of_register hreceive ?_
      intro hregisters
      simpa [registersOnce, settled, hidle, hreceive, hregisters] using hok
    next cmd net hcmd _ hreceive =>
      cases h
      exact .keep rfl (newVersion_of_other hreceive hcmd)
    · cases h
  | loaderUpdated | loaderInsert | loaderStore =>
    refine .keep ?_ rfl
    simp only [step, Pipeline.loaderUpdated, Pipeline.loaderInsert, Pipeline.loaderStore] at h
    repeat' split at h
    all_goals cases h
    all_goals rfl
  | _ => exact .keep ((step_frame h).unsignedHeap (by simp [Action.task]) (by simp [Action.task])) rfl

theorem next_le_one_of_step (hsingle : ∀ n, p.unsignedHeap.next n ≤ 1)
    (hstep : UnsignedStep p p' a) (n : Name) : p'.unsignedHeap.next n ≤ 1 := by
  cases hstep with
  | write _ hheap _ =>
    rw [hheap, Heap.next_set]
    exact hsingle n
  | @add name _ hnext hheap _ =>
    rw [hheap, Heap.next_alloc]
    by_cases hname : n = name
    · rw [if_pos hname, hname, hnext]
    · rw [if_neg hname]
      exact hsingle n
  | keep hheap _ =>
    rw [hheap]
    exact hsingle n

-- The only zone of a name.
theorem handle_eq_zero (hsingle : ∀ n, p.unsignedHeap.next n ≤ 1) {n : Name} {handle : Handle}
    {zone : UnsignedZone} (hget : p.unsignedHeap.get n handle = some zone) : handle = 0 := by
  have hlt : handle < p.unsignedHeap.next n := Heap.lt_next_iff.mpr ⟨zone, hget⟩
  exact Nat.lt_one_iff.mp (Nat.lt_of_lt_of_le hlt (hsingle n))

-- The serial of an unsigned zone is new, or it was that before and the name has no new one.
theorem unsignedSerial_of_step (hsingle : ∀ n, p.unsignedHeap.next n ≤ 1)
    (hstep : UnsignedStep p p' a) {n : Name} {handle : Handle} {s : Serial}
    (hserial : p'.unsignedSerial n handle = some s) :
    p.newVersion a = some (n, s) ∨
      p.unsignedSerial n handle = some s ∧ ∀ t, p.newVersion a ≠ some (n, t) := by
  have hother : ∀ {name : Name} {zone : UnsignedZone}, n ≠ name →
      p.newVersion a = zone.content.soa.map (fun soa ↦ (name, soa.serial)) →
      ∀ t, p.newVersion a ≠ some (n, t) := by
    intro name zone hname hnew t heq
    have ⟨soa, _, hpair⟩ := Option.map_eq_some_iff.mp (hnew.symm.trans heq)
    exact hname (congrArg Prod.fst hpair).symm
  have hsame : ∀ {zone : UnsignedZone}, zone.content.soa.map Soa.serial = some s →
      p.newVersion a = zone.content.soa.map (fun soa ↦ (n, soa.serial)) →
      p.newVersion a = some (n, s) := by
    intro zone hzone hnew
    have ⟨soa, hsoa, hvalue⟩ := Option.map_eq_some_iff.mp hzone
    rw [hnew, hsoa, Option.map_some, hvalue]
  unfold unsignedSerial at hserial ⊢
  cases hstep with
  | @write name handle' zone old hold hheap hnew =>
    rw [hheap, Heap.get_set] at hserial
    by_cases hname : n = name
    · rw [← hname] at hnew hold hserial
      by_cases hhandle : handle = handle'
      · rw [if_pos ⟨rfl, hhandle⟩, hold] at hserial
        exact Or.inl (hsame hserial hnew)
      · -- there is no other zone of the name
        rw [if_neg (fun hboth ↦ hhandle hboth.2)] at hserial
        have ⟨other, hget, _⟩ := Option.bind_eq_some_iff.mp hserial
        have hzero := handle_eq_zero hsingle hget
        exact absurd (hzero.trans (handle_eq_zero hsingle hold).symm) hhandle
    · rw [if_neg (fun hboth ↦ hname hboth.1)] at hserial
      exact Or.inr ⟨hserial, hother hname hnew⟩
  | @add name zone hnext hheap hnew =>
    rw [hheap, Heap.get_alloc] at hserial
    by_cases hname : n = name
    · rw [← hname] at hnew hnext hserial
      by_cases hhandle : handle = p.unsignedHeap.next n
      · rw [if_pos ⟨rfl, hhandle⟩] at hserial
        exact Or.inl (hsame hserial hnew)
      · rw [if_neg (fun hboth ↦ hhandle hboth.2)] at hserial
        have ⟨other, hget, _⟩ := Option.bind_eq_some_iff.mp hserial
        have hlt : handle < p.unsignedHeap.next n := Heap.lt_next_iff.mpr ⟨other, hget⟩
        rw [hnext] at hlt
        exact absurd hlt (Nat.not_lt_zero handle)
    · rw [if_neg (fun hboth ↦ hname hboth.1)] at hserial
      exact Or.inr ⟨hserial, hother hname hnew⟩
  | keep hheap hnone =>
    rw [hheap] at hserial
    refine Or.inr ⟨hserial, ?_⟩
    intro t heq
    rw [hnone] at heq
    cases heq

theorem signedSerial_set {n m : Name} {handle h : Handle} {soa : Soa}
    {records : List StoredRecord} {z : ZoneSigner} {s : Serial}
    (hserial : signedSerial { p with
      signedHeap := p.signedHeap.set n handle ⟨some soa, records⟩
      signer := z } m h = some s) :
    m = n ∧ h = handle ∧ s = soa.serial ∨ ¬(m = n ∧ h = handle) ∧ p.signedSerial m h = some s := by
  unfold signedSerial at hserial ⊢
  rw [Heap.get_set] at hserial
  by_cases hsame : m = n ∧ h = handle
  · rw [if_pos hsame] at hserial
    have ⟨content, hcontent, hvalue⟩ := Option.bind_eq_some_iff.mp hserial
    have ⟨_, _, hnew⟩ := Option.map_eq_some_iff.mp hcontent
    rw [← hnew] at hvalue
    exact Or.inl ⟨hsame.1, hsame.2, (Option.some.inj hvalue).symm⟩
  · rw [if_neg hsame] at hserial
    exact Or.inr ⟨hsame, hserial⟩

-- What readers see of a zone is the serial of a signed zone.
theorem signedSerial_of_published {n : Name} {s : Serial} (h : p.publishedSerial n = some s) :
    ∃ handle, p.publishedZones.lookup n = some handle ∧ p.signedSerial n handle = some s :=
  Option.bind_eq_some_iff.mp h

theorem publishedSerial_of_keep
    (hserial : ∀ n handle, p'.signedSerial n handle = p.signedSerial n handle)
    (hpublished : p'.publishedZones = p.publishedZones) (n : Name) :
    p'.publishedSerial n = p.publishedSerial n := by
  unfold publishedSerial
  rw [hpublished]
  cases p.publishedZones.lookup n with
  | none => rfl
  | some handle => exact hserial n handle

-- The handle of a new zone is that of no zone before.
theorem creating_of_step (h : p.step a = some p') {job : SignJob} {soa : SignRead Soa}
    {zones : ZoneTree} {handle : Handle} (hpc : p'.signer = .creating job soa zones handle) :
    p.signer = p'.signer ∨ p'.signedSerial job.zoneName handle = none := by
  by_cases ha : a.task = .signer
  · cases signerTurn_of_step h ha with
    | create =>
      cases hpc
      refine Or.inr ?_
      unfold signedSerial
      rw [Heap.get_alloc, if_pos ⟨rfl, rfl⟩]
      rfl
    | skip => exact Or.inl rfl
    | receive | read | noSoa | choose | store | panic | configure | collect | commit | report
    | fail => cases hpc
  · exact Or.inl ((step_frame h).signer ha).symm

end

end Pipeline

end Cascade
