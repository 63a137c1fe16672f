import Cascade.Comms
import Cascade.FirstLoad
import Cascade.Notify
import Cascade.Primaries
import Cascade.SecondaryZone

/-!
# The way of a NOTIFY

A NOTIFY that the publication server receives becomes an update, a command to the zone loader, an
event of the zone maintainer and a task of it, which refreshes the zone if the sender may tell of
changes.  That is decided by the IP address of the sender alone, and the refresh starts with this
address and the port of DNS.  What may tell of changes, and what is asked for the zone, come from the
same access list, so that all that a NOTIFY brings about is that the server of this list is asked.
-/

namespace Cascade

open Lib

def SrcDstConfig.hasDst {T : Type} (config : SrcDstConfig T) (addr : SocketAddr) : Bool :=
  decide (addr ∈ config)

/-- That of the publication server is enabled. -/
structure LoaderNotifier where
  enabled : Bool

namespace LoaderNotifier

def notifyZoneChanged (notifier : LoaderNotifier) (zoneClass : Class) (apexName : Name)
    (serial : Option Serial) (source : IpAddr) : List Update :=
  if notifier.enabled = true ∧ zoneClass = .IN then [.RefreshZone apexName (some source) serial]
  else []

end LoaderNotifier

/-! ## Access lists -/

/-- The server that the access list for the zone names. -/
def aclServer (acls : HashMap Name (List Char)) (zoneName : Name) : Option SocketAddr :=
  (acls.lookup zoneName).bind (fun acl ↦ (split keySep acl).head?.bind parseXfrAddr)

/-- The IP address may tell of changes of a zone with this list. -/
def MayNotify (acls : HashMap Name (List Char)) (zoneName : Name) (source : IpAddr) : Prop :=
  ∃ server, aclServer acls zoneName = some server ∧ server.ip = source

namespace ZoneMaintainer

/-- `is_known_primary`; no zone is configured to have its name servers looked up. -/
def isKnownPrimary (acl : SrcDstConfig NotifyConfig) (source : IpAddr) : Bool :=
  acl.hasDst (.new source ianaDnsPortNumber)

end ZoneMaintainer

open ZoneMaintainer (isKnownPrimary)

/-- What tells of changes, and what is asked, is the server of the access list, if there is one. -/
structure FromServer (server : Option SocketAddr) (config : ZoneConfig) : Prop where
  allowNotifyFrom : ∀ source, isKnownPrimary config.allowNotifyFrom source = true →
    server.map SocketAddr.ip = some source
  requestXfrFrom : ∀ addr ∈ config.requestXfrFrom, server = some addr
  isSecondary : config.isSecondary = true → ∀ source, server.map SocketAddr.ip = some source →
    isKnownPrimary config.allowNotifyFrom source = true

-- A zone with neither has no part in this.
theorem FromServer.of_empty {server : Option SocketAddr} {config : ZoneConfig}
    (hnotify : config.allowNotifyFrom = ∅) (hrequest : config.requestXfrFrom = ∅) :
    FromServer server config := by
  refine ⟨?_, ?_, ?_⟩
  · intro source hknown
    rw [isKnownPrimary, hnotify] at hknown
    exact absurd (of_decide_eq_true hknown) (AList.notMem_empty _)
  · intro addr haddr
    rw [hrequest] at haddr
    exact absurd haddr (AList.notMem_empty _)
  · intro hsecondary
    rw [ZoneConfig.isSecondary, hrequest] at hsecondary
    cases hsecondary

namespace ZoneLoader

section

variable {Key : Type} [Tsig.KeyLib Key] (keyNameFromStr : List Char → Option Tsig.KeyName)

def determinePrimaryZoneCfg (zoneName : Name) (xfrOut : HashMap Name (List Char))
    (dest : Option SocketAddr) (keyStore : TsigKeyStore Key) : Except Unit ZoneConfig :=
  match xfrOut.lookup zoneName with
  | none => .ok {}
  | some xfrOut =>
    match parseXfrAcl keyNameFromStr xfrOut initialSettings keyStore with
    | (.error _, _) => .error ()
    | (.ok dst, settings) =>
      -- the settings that were found are for a different source
      let settings := if some dst ≠ dest then ⟨{}, {}⟩ else settings
      let zoneCfg : ZoneConfig := { provideXfrTo := SrcDstConfig.addSrc ∅ dst.ip settings.xfrCfg }
      if dst.port ≠ 0 then
        .ok { zoneCfg with sendNotifyTo := SrcDstConfig.addDst ∅ dst settings.notifyCfg }
      else .ok zoneCfg

end

section

variable {Key : Type} [Tsig.KeyLib Key] {keyNameFromStr : List Char → Option Tsig.KeyName}
  {zoneName : Name} {xfrIn xfrOut : HashMap Name (List Char)} {keyStore : TsigKeyStore Key}
  {config : ZoneConfig}

theorem addr_of_parseXfrParts {addr : List Char} {keyName : Option (List Char)}
    {settings : XfrSettings} {server : SocketAddr}
    (h : (parseXfrParts keyNameFromStr addr keyName settings keyStore).1 = .ok server) :
    parseXfrAddr addr = some server := by
  unfold parseXfrParts at h
  cases haddr : parseXfrAddr addr with
  | none =>
    rw [haddr] at h
    cases h
  | some a =>
    rw [haddr] at h
    dsimp only at h
    repeat' split at h
    all_goals cases h
    all_goals rfl

theorem addr_of_parseXfrAcl {acl : List Char} {settings : XfrSettings} {server : SocketAddr}
    (h : (parseXfrAcl keyNameFromStr acl settings keyStore).1 = .ok server) :
    (split keySep acl).head?.bind parseXfrAddr = some server := by
  unfold parseXfrAcl at h
  split at h
  next hsplit =>
    rw [hsplit]
    exact addr_of_parseXfrParts h
  next hsplit =>
    rw [hsplit]
    exact addr_of_parseXfrParts h
  · cases h

theorem aclServer_of_zoneAcl {acl : XfrAcl}
    (h : zoneAcl keyNameFromStr zoneName xfrIn keyStore = .ok (some acl)) :
    aclServer xfrIn zoneName = some acl.server := by
  unfold zoneAcl at h
  split at h
  · cases h
  next text hlookup =>
    split at h
    · cases h
    next server settings hparse =>
      cases h
      have hserver := addr_of_parseXfrAcl (congrArg Prod.fst hparse)
      rw [aclServer, hlookup]
      exact hserver

theorem isKnownPrimary_cfgOf (source : Option SocketAddr) (acl : XfrAcl) (ip : IpAddr) :
    isKnownPrimary (cfgOf source acl).allowNotifyFrom ip = true ↔ acl.server.ip = ip := by
  have hmem : SocketAddr.new ip ianaDnsPortNumber ∈ (cfgOf source acl).allowNotifyFrom ↔
      SocketAddr.new ip ianaDnsPortNumber = .new acl.server.ip ianaDnsPortNumber := by
    show _ ∈ AList.insert _ _ ∅ ↔ _
    rw [AList.mem_insert]
    exact or_iff_left (AList.notMem_empty _)
  rw [isKnownPrimary, SrcDstConfig.hasDst, decide_eq_true_iff, hmem]
  constructor
  · intro heq
    simpa using (congrArg SocketAddr.ip heq).symm
  · intro hip
    rw [hip]

theorem mem_requestXfrFrom_cfgOf {source : Option SocketAddr} {acl : XfrAcl} {addr : SocketAddr}
    (h : addr ∈ (cfgOf source acl).requestXfrFrom) : addr = acl.server := by
  have hkeys : addr ∈ (cfgOf source acl).requestXfrFrom.addrs := h
  rw [addrs_cfgOf] at hkeys
  split at hkeys
  · exact List.mem_singleton.mp hkeys
  · cases hkeys

theorem fromServer_secondary {source : Option SocketAddr}
    (h : determineSecondaryZoneCfg keyNameFromStr zoneName source xfrIn keyStore = .ok config) :
    FromServer (aclServer xfrIn zoneName) config := by
  rw [determineSecondaryZoneCfg_eq] at h
  cases hacl : zoneAcl keyNameFromStr zoneName xfrIn keyStore with
  | error e =>
    rw [hacl] at h
    cases h
  | ok acl =>
    rw [hacl] at h
    cases acl with
    | none =>
      cases h
      exact .of_empty rfl rfl
    | some acl =>
      cases h
      rw [aclServer_of_zoneAcl hacl]
      refine ⟨?_, ?_, ?_⟩
      · intro ip hknown
        exact congrArg some ((isKnownPrimary_cfgOf source acl ip).mp hknown)
      · intro addr haddr
        rw [mem_requestXfrFrom_cfgOf haddr]
      · intro _ ip hip
        exact (isKnownPrimary_cfgOf source acl ip).mpr (Option.some.inj hip)

-- A zone that is loaded from a file is not told of changes.
theorem fromServer_primary {dest server : Option SocketAddr}
    (h : determinePrimaryZoneCfg keyNameFromStr zoneName xfrOut dest keyStore = .ok config) :
    FromServer server config := by
  unfold determinePrimaryZoneCfg at h
  split at h
  · cases h
    exact .of_empty rfl rfl
  · split at h
    · cases h
    · dsimp only at h
      split at h
      · cases h
        exact .of_empty rfl rfl
      · cases h
        exact .of_empty rfl rfl

end

end ZoneLoader

/-! ## Tasks for a NOTIFY -/

/-- The event tells of a change that a server has reported. -/
def Event.Heard (received : ZoneId → IpAddr → Prop) : Event → Prop
  | .ZoneChanged zoneId (some source) => received zoneId source
  | _ => True

theorem Event.Heard.weaken {received received' : ZoneId → IpAddr → Prop} {event : Event}
    (h : event.Heard received)
    (hsub : ∀ zoneId source, received zoneId source → received' zoneId source) :
    event.Heard received' := by
  cases event with
  | ZoneChanged zoneId source =>
    cases source with
    | none => trivial
    | some source => exact hsub zoneId source h
  | _ => trivial

namespace ZoneMaintainer

/-- The zone of a refresh may be told of changes by this address. -/
def Knows (m : ZoneMaintainer) (r : Refresh) (source : IpAddr) : Prop :=
  ∃ zone, m.zoneHeap.get r.zoneId r.handle = some zone ∧
    isKnownPrimary zone.config.allowNotifyFrom source = true

/-- The task acts on a NOTIFY from this address, which it has checked. -/
def Task.ActsOn (source : IpAddr) (r : Refresh) : Task → Prop
  | .accepted source' r' => source' = source ∧ r' = r
  | .refresh r' _ => r'.cause = .NotifyFromPrimary source ∧ r' = r
  | _ => False

/-- The NOTIFY that a task handles has been received, and what the task acts on has been checked. -/
def Task.Justified (m : ZoneMaintainer) (received : ZoneId → IpAddr → Prop) : Task → Prop
  | .sending event => event.Heard received
  | .notify zoneId source _ => ∀ addr, source = some addr → received zoneId addr
  | .asked source r => r.cause = .NotifyFromPrimary source ∧ received r.zoneId source
  | .accepted source r =>
    r.cause = .NotifyFromPrimary source ∧ received r.zoneId source ∧ m.Knows r source
  | .refresh r _ => ∀ source, r.cause = .NotifyFromPrimary source →
    received r.zoneId source ∧ m.Knows r source
  | _ => True

structure Justified (received : ZoneId → IpAddr → Prop) (m : ZoneMaintainer) : Prop where
  caused : m.Caused
  events : ∀ event ∈ m.channel.queue, event.Heard received
  tasks : ∀ task ∈ m.tasks, task.Justified m received

/-- The check of the sender comes to what `is_known_primary` says. -/
def checksSender (m : ZoneMaintainer) : Action → Bool
  | .task i (.knownPrimary known) =>
    match m.tasks[i]? with
    | some (.asked source r) => (m.zoneHeap.get r.zoneId r.handle).any
        (fun zone ↦ known == isKnownPrimary zone.config.allowNotifyFrom source)
    | _ => true
  | _ => true

section

variable {m m' : ZoneMaintainer} {a : Action} {i : TaskId} {received : ZoneId → IpAddr → Prop}

theorem Knows.mono {r : Refresh} {source : IpAddr} (h : m.Knows r source)
    (hgrows : Grows m.zoneHeap m'.zoneHeap) : m'.Knows r source := by
  obtain ⟨zone, hget, hknown⟩ := h
  obtain ⟨zone', hget', hconfig⟩ := hgrows _ _ zone hget
  exact ⟨zone', hget', by rw [hconfig]; exact hknown⟩

theorem Task.Justified.mono {task : Task} (h : task.Justified m received)
    (hgrows : Grows m.zoneHeap m'.zoneHeap) : task.Justified m' received := by
  cases task with
  | accepted source r => exact ⟨h.1, h.2.1, h.2.2.mono hgrows⟩
  | refresh r stage =>
    intro source hcause
    exact ⟨(h source hcause).1, (h source hcause).2.mono hgrows⟩
  | _ => exact h

theorem Justified.weaken {received' : ZoneId → IpAddr → Prop} (h : m.Justified received)
    (hsub : ∀ zoneId source, received zoneId source → received' zoneId source) :
    m.Justified received' := by
  refine ⟨h.caused, fun event hevent ↦ Event.Heard.weaken (h.events event hevent) hsub, ?_⟩
  intro task htask
  have hold := h.tasks task htask
  cases task with
  | sending event => exact Event.Heard.weaken hold hsub
  | notify zoneId source zones => exact fun addr heq ↦ hsub _ _ (hold addr heq)
  | asked source r => exact ⟨hold.1, hsub _ _ hold.2⟩
  | accepted source r => exact ⟨hold.1, hsub _ _ hold.2.1, hold.2.2⟩
  | refresh r stage =>
    intro source hcause
    exact ⟨hsub _ _ (hold source hcause).1, (hold source hcause).2⟩
  | _ => trivial

-- Only a sender reports a change that it has been told of.
theorem heard_of_sent {task : Task} {event : Event} (htask : task.Justified m received)
    (hsent : m.sent task = some event) : event.Heard received := by
  unfold sent at hsent
  split at hsent
  · cases hsent
    trivial
  · cases hsent
    exact htask
  · cases hsent
    trivial
  · obtain ⟨info, _, hevent⟩ := Option.map_eq_some_iff.mp hsent
    rw [← hevent]
    trivial
  · obtain ⟨info, _, hif⟩ := Option.bind_eq_some_iff.mp hsent
    split at hif
    · cases hif
    · cases hif
      trivial
  · split at hsent
    · cases hsent
      trivial
    · cases hsent
  · cases hsent

-- The check lets through whom the zone knows.
theorem knows_of_accepted {input : Input} (h : m.step (.task i input) = some m')
    (hok : m.checksSender (.task i input) = true) {source : IpAddr} {r r' : Refresh}
    (htask : m.tasks[i]? = some (.asked source r))
    (hnew : m'.tasks = m.tasks.set i (.accepted source r')) : m.Knows r source := by
  have hlt := (List.getElem?_eq_some_iff.mp htask).1
  cases input with
  | knownPrimary known =>
    simp only [checksSender, htask] at hok
    obtain ⟨zone, hget, hknown⟩ := (Option.any_eq_true _ _).mp hok
    refine ⟨zone, hget, ?_⟩
    rw [← eq_of_beq hknown]
    cases known with
    | true => rfl
    | false =>
      simp only [step, htask] at h
      split at h
      · cases h
      · cases h
        have hat := congrArg (fun tasks ↦ tasks[i]?) hnew
        simp only [setTask, List.getElem?_set_self hlt] at hat
        cases hat
  | _ =>
    simp only [step, htask] at h
    split at h
    · cases h
    · cases h

-- No timer is for a NOTIFY.
theorem justified_of_timer {r : Refresh} {stage : RefreshStage}
    (hcaused : (!r.cause.isNotify) = true) : (Task.refresh r stage).Justified m received := by
  intro source hcause
  rw [hcause] at hcaused
  cases hcaused

theorem TaskNext.justified {input : Input} {task task' : Task}
    (h : TaskNext m i input task task' m')
    (hold : task.Justified m received) (hcaused : task.caused = true)
    (hchecked : ∀ source r, task = .asked source r → task' = .accepted source r →
      m.Knows r source) : task'.Justified m received := by
  cases h with
  | refresh hstep =>
    cases hstep with
    | expired | stop => trivial
    | advance | write | commit | changed | failed | succeeded | announce => exact hold
  | insert hstep => cases hstep with | _ => trivial
  | timer hstep =>
    cases hstep with
    | pending | active => exact justified_of_timer hcaused
    | known | untracked | gone | primary => trivial
  | notify hstep =>
    cases hstep with
    | asked => exact ⟨rfl, hold _ rfl⟩
    | accepted => exact ⟨hold.1, hold.2, hchecked _ _ rfl rfl⟩
    | start =>
      intro source hcause
      have hsame : ZoneRefreshCause.NotifyFromPrimary _ = .NotifyFromPrimary source :=
        hold.1.symm.trans hcause
      cases hsame
      exact hold.2
    | unknown | changedHere | notified | refused | untracked | inProgress => trivial

theorem justified_of_turn {input : Input} (hinv : m.Justified received)
    (hok : m.checksSender (.task i input) = true) (hstep : m.step (.task i input) = some m')
    (h : TaskTurn m i input m') : m'.Justified received := by
  refine ⟨hinv.caused.step hstep, ?_, ?_⟩
  · obtain ⟨task, task', htask, hnext, hturn, _⟩ := h.next
    have hold := hinv.tasks task (List.mem_of_getElem? htask)
    intro event hmem
    rw [hturn.channel] at hmem
    cases hsent : m.sent task with
    | none =>
      rw [hsent] at hmem
      exact hinv.events event hmem
    | some event' =>
      rw [hsent, Option.elim_some, Channel.queue_send] at hmem
      cases List.mem_append.mp hmem with
      | inl hmem => exact hinv.events event hmem
      | inr hmem =>
        rw [List.mem_singleton.mp hmem]
        exact heard_of_sent hold hsent
  · obtain ⟨task, task', htask, hnext, hturn, _⟩ := h.next
    have hmem := List.mem_of_getElem? htask
    have hchecked : ∀ source r, task = .asked source r → task' = .accepted source r →
        m.Knows r source := by
      intro source r hasked haccepted
      rw [hasked] at htask
      exact knows_of_accepted hstep hok htask (haccepted ▸ hturn.tasks)
    have hnew := hnext.justified (hinv.tasks task hmem) (hinv.caused.tasks task hmem) hchecked
    intro task₁ hmem₁
    rw [hturn.tasks] at hmem₁
    cases List.mem_or_eq_of_mem_set hmem₁ with
    | inl hother => exact (hinv.tasks task₁ hother).mono hturn.heap
    | inr heq =>
      rw [heq]
      exact hnew.mono hturn.heap

theorem justified_of_loop (hinv : m.Justified received) (hstep : m.step .loop = some m')
    (h : LoopStep m m') : m'.Justified received := by
  obtain ⟨htasks, hchannel, hheap⟩ := h.frame
  have hgrows : Grows m.zoneHeap m'.zoneHeap := hheap ▸ .refl _
  refine ⟨hinv.caused.step hstep, by rw [hchannel]; exact hinv.events, ?_⟩
  intro task hmem
  rw [htasks] at hmem
  exact (hinv.tasks task hmem).mono hgrows

theorem justified_of_outer (hinv : m.Justified received) (hstep : m.step a = some m')
    (h : OuterStep m a m')
    (hheard : ∀ zoneId serial source, a = .notifyZoneChanged zoneId serial source →
      received zoneId source) : m'.Justified received := by
  have hgrows := h.grows
  have hspawn : ∀ new : Task, new.Justified m' received →
      ∀ task ∈ m.tasks ++ [new], task.Justified m' received := by
    intro new hnew task hmem
    cases List.mem_append.mp hmem with
    | inl hold => exact (hinv.tasks task hold).mono hgrows
    | inr hmem =>
      rw [List.mem_singleton.mp hmem]
      exact hnew
  have hold : ∀ task ∈ m.tasks, task.Justified m' received :=
    fun task hmem ↦ (hinv.tasks task hmem).mono hgrows
  have hreceived : ∀ {event : Event} {channel : Channel TaskId Event},
      m.channel.receive = some (event, channel) → event.Heard received ∧
        ∀ event ∈ channel.queue, event.Heard received := by
    intro event channel hreceive
    have hevents := hinv.events
    rw [Channel.queue_receive hreceive] at hevents
    exact ⟨hevents event List.mem_cons_self,
      fun event' hmem ↦ hevents event' (List.mem_cons_of_mem _ hmem)⟩
  have hcaused := hinv.caused.step hstep
  cases h with
  | tick => exact ⟨hcaused, hinv.events, hold⟩
  | insertZone | force => exact ⟨hcaused, hinv.events, hspawn _ trivial⟩
  | notify => exact ⟨hcaused, hinv.events, hspawn _ (hheard _ _ _ rfl)⟩
  | fire => exact ⟨hcaused, hinv.events, hspawn _ trivial⟩
  | zoneChanged _ hreceive =>
    obtain ⟨hevent, hevents⟩ := hreceived hreceive
    refine ⟨hcaused, hevents, hspawn _ ?_⟩
    intro addr heq
    rw [heq] at hevent
    exact hevent
  | zoneAdded _ hreceive | refreshRequested _ hreceive =>
    exact ⟨hcaused, (hreceived hreceive).2, hold⟩

theorem Justified.step (hinv : m.Justified received) (hok : m.checksSender a = true)
    (hheard : ∀ zoneId serial source, a = .notifyZoneChanged zoneId serial source →
      received zoneId source) (h : m.step a = some m') : m'.Justified received := by
  rcases step_cases h with ⟨i, input, ha, hturn⟩ | ⟨ha, hloop⟩ | houter
  · subst ha
    exact justified_of_turn hinv hok h hturn
  · subst ha
    exact justified_of_loop hinv h hloop
  · exact justified_of_outer hinv h houter hheard

theorem justified_started (h : m.Started) : m.Justified received := by
  refine ⟨caused_started h, ?_, ?_⟩
  · subst h
    intro event hmem
    cases hmem
  · subst h
    intro task hmem
    cases hmem

/-! ## The settings of the zones -/

-- A zone keeps its settings when it is changed.
theorem config_of_set {heap : Heap ZoneId MaintainedZone} {zoneId zoneId' : ZoneId}
    {handle handle' : Handle} {zone new zone' : MaintainedZone}
    (hget : heap.get zoneId handle = some zone)
    (hget' : (heap.set zoneId handle new).get zoneId' handle' = some zone')
    (hconfig : new.config = zone.config) :
    ∃ zone, heap.get zoneId' handle' = some zone ∧ zone.config = zone'.config := by
  rw [Heap.get_set] at hget'
  split at hget'
  next hsame =>
    obtain ⟨hzoneId, hhandle⟩ := hsame
    subst hzoneId hhandle
    rw [hget] at hget'
    have hnew : new = zone' := Option.some.inj hget'
    exact ⟨zone, hget, by rw [← hnew, hconfig]⟩
  · exact ⟨zone', hget', rfl⟩

theorem TaskNext.config {input : Input} {task task' : Task}
    (h : TaskNext m i input task task' m') {zoneId : ZoneId} {handle : Handle} {zone' : MaintainedZone}
    (hget' : m'.zoneHeap.get zoneId handle = some zone') :
    ∃ zone, m.zoneHeap.get zoneId handle = some zone ∧ zone.config = zone'.config := by
  cases h with
  | @refresh r stage task' m' hstep =>
    cases hstep with
    | @write primaries transfers zone soa hget =>
      have hset : (m.zoneHeap.set r.zoneId r.handle { zone with soa := soa }).get zoneId handle =
          some zone' := hget'
      exact config_of_set hget hset rfl
    | @commit primaries transfers zone soa hget =>
      have hset : (m.zoneHeap.set r.zoneId r.handle { zone with soa := some soa }).get zoneId
          handle = some zone' := hget'
      exact config_of_set hget hset rfl
    | expired =>
      dsimp only [setTask] at hget'
      cases hget : m.zoneHeap.get r.zoneId r.handle with
      | none =>
        rw [hget] at hget'
        exact ⟨zone', hget', rfl⟩
      | some zone =>
        rw [hget] at hget'
        exact config_of_set hget hget' rfl
    | advance | changed | failed | succeeded | announce | stop => exact ⟨zone', hget', rfl⟩
  | timer | notify => exact ⟨zone', hget', rfl⟩
  | insert hstep => cases hstep with | _ => exact ⟨zone', hget', rfl⟩

/-- All zones have settings of this kind. -/
def Configured (P : ZoneId → ZoneConfig → Prop) (m : ZoneMaintainer) : Prop :=
  ∀ zoneId handle zone, m.zoneHeap.get zoneId handle = some zone → P zoneId zone.config

theorem Configured.step {P : ZoneId → ZoneConfig → Prop} (hinv : m.Configured P)
    (hinsert : ∀ zoneId config soa, a = .insertZone zoneId config soa → P zoneId config)
    (h : m.step a = some m') : m'.Configured P := by
  intro zoneId handle zone' hget'
  rcases step_cases h with ⟨i, input, _, hturn⟩ | ⟨_, hloop⟩ | houter
  · obtain ⟨_, _, _, hnext, _, _⟩ := hturn.next
    obtain ⟨zone, hget, hconfig⟩ := hnext.config hget'
    rw [← hconfig]
    exact hinv zoneId handle zone hget
  · rw [hloop.frame.2.2] at hget'
    exact hinv zoneId handle zone' hget'
  · cases houter with
    | insertZone zoneId₁ config soa =>
      have hget' : (m.zoneHeap.alloc zoneId₁ ⟨config, soa, false⟩).get zoneId handle =
          some zone' := hget'
      rw [Heap.get_alloc] at hget'
      split at hget'
      next hnew =>
        cases hget'
        rw [hnew.1]
        exact hinsert zoneId₁ config soa rfl
      · exact hinv zoneId handle zone' hget'
    | tick | notify | force | fire | zoneChanged | zoneAdded | refreshRequested =>
      exact hinv zoneId handle zone' hget'

end

end ZoneMaintainer

/-! ## The whole way -/

/-- What a NOTIFY passes through, and the NOTIFYs that the publication server has received. -/
structure NotifyPath (Key : Type) [Tsig.KeyLib Key] where
  net : Net
  keyStore : TsigKeyStore Key
  maintainer : ZoneMaintainer
  received : List (ZoneId × IpAddr)

namespace NotifyPath

/-- `reported` is an update of another unit, `register` a request to the HTTP server. -/
inductive Action (Key : Type)
  | notified (notifier : LoaderNotifier) (zoneClass : Class) (apexName : Name)
      (serial : Option Serial) (source : IpAddr)
  | reported (update : Update)
  | register (zone : ZoneAdd)
  | insertKey (key : Key)
  | direct
  | forward
  | command (soa : Option Soa)
  | maintainer (a : ZoneMaintainer.Action)

/-- The steps that the maintainer takes by itself. -/
def isOwn : ZoneMaintainer.Action → Bool
  | .insertZone _ _ _ | .notifyZoneChanged _ _ _ | .forceZoneRefresh _ => false
  | _ => true

section

variable {Key : Type} [Tsig.KeyLib Key] (keyNameFromStr : List Char → Option Tsig.KeyName)
  (xfrIn xfrOut : HashMap Name (List Char))

def Received (l : NotifyPath Key) (zoneId : ZoneId) (source : IpAddr) : Prop :=
  (zoneId, source) ∈ l.received

def notified (l : NotifyPath Key) (notifier : LoaderNotifier) (zoneClass : Class) (apexName : Name)
    (serial : Option Serial) (source : IpAddr) : NotifyPath Key :=
  { l with
    net := l.net.sendAll (notifier.notifyZoneChanged zoneClass apexName serial source)
    received :=
      if notifier.enabled then l.received ++ [(⟨apexName, zoneClass⟩, source)] else l.received }

/-- No other unit asks for a refresh. -/
def reported (l : NotifyPath Key) : Update → Option (NotifyPath Key)
  | .RefreshZone _ _ _ => none
  | update => some { l with net := l.net.sendAll [update] }

def insertZone (l : NotifyPath Key) (name : Name) (soa : Option Soa) :
    Except Unit ZoneConfig → NotifyPath Key
  | .ok config => { l with maintainer := l.maintainer.insertZone ⟨name, .IN⟩ config soa }
  | .error () => l

/-- `on_command`.  `soa` is the SOA record of the zone file, if that can be loaded and has one. -/
def onCommand (l : NotifyPath Key) (soa : Option Soa) : ApplicationCommand → NotifyPath Key
  | .RegisterZone register =>
    match register.source with
    | .Zonefile _ =>
      if soa.isSome then
        l.insertZone register.name soa
          (ZoneLoader.determinePrimaryZoneCfg keyNameFromStr register.name xfrOut none l.keyStore)
      else l
    | .Server addr =>
      l.insertZone register.name none
        (ZoneLoader.determineSecondaryZoneCfg keyNameFromStr register.name (some addr) xfrIn
          l.keyStore)
  | .RefreshZone zoneName (some source) serial =>
    { l with
      maintainer := (l.maintainer.notifyZoneChanged ⟨zoneName, .IN⟩ serial source).getD
        l.maintainer }
  | .RefreshZone zoneName none _ =>
    { l with maintainer := l.maintainer.forceZoneRefresh ⟨zoneName, .IN⟩ }
  | _ => l

/-- The pending zones can be read if they have to be. -/
def ready (l : NotifyPath Key) : ApplicationCommand → Bool
  | .RefreshZone _ (some _) _ => l.maintainer.pendingReadable
  | _ => true

def command (l : NotifyPath Key) (soa : Option Soa) : Option (NotifyPath Key) :=
  match l.net.receive .ZL with
  | some (cmd, net) =>
    if l.ready cmd then some ({ l with net := net }.onCommand keyNameFromStr xfrIn xfrOut soa cmd)
    else none
  | none => none

def step (l : NotifyPath Key) : Action Key → Option (NotifyPath Key)
  | .notified notifier zoneClass apexName serial source =>
    some (l.notified notifier zoneClass apexName serial source)
  | .reported update => l.reported update
  | .register zone => some { l with net := l.net.post .ZL (.RegisterZone zone) }
  | .insertKey key => some { l with keyStore := l.keyStore.insert key }
  | .direct => (l.net.direct directUpdate).map (fun net ↦ { l with net := net })
  | .forward => l.net.forward.map (fun net ↦ { l with net := net })
  | .command soa => l.command keyNameFromStr xfrIn xfrOut soa
  | .maintainer a =>
    if isOwn a && l.maintainer.checksSender a then
      (l.maintainer.step a).map (fun m ↦ { l with maintainer := m })
    else none

def Started (l : NotifyPath Key) : Prop :=
  l.net = ⟨[], [], fun _ ↦ []⟩ ∧ l.maintainer.Started ∧ l.received = []

/-- The invariant: a command to refresh a zone, and a task for it, come from a NOTIFY that has been
received, and every zone has the settings that come from its access list. -/
structure Kept (l : NotifyPath Key) : Prop where
  commands : ∀ name source serial, .RefreshZone name (some source) serial ∈ Net.inFlight l.net .ZL →
    l.Received ⟨name, .IN⟩ source
  maintainer : l.maintainer.Justified l.Received
  zones : l.maintainer.Configured
    (fun zoneId config ↦ FromServer (aclServer xfrIn zoneId.name) config)

variable {keyNameFromStr xfrIn xfrOut} {l l' : NotifyPath Key}

theorem kept_started (h : l.Started) : l.Kept xfrIn := by
  obtain ⟨hnet, hmaintainer, _⟩ := h
  refine ⟨?_, ZoneMaintainer.justified_started hmaintainer, ?_⟩
  · intro name source serial hmem
    rw [hnet] at hmem
    cases hmem
  · intro zoneId handle zone hget
    rw [show l.maintainer = ZoneMaintainer.new from hmaintainer] at hget
    cases hget

-- Only the messages change, and no command to refresh a zone is added.
theorem Kept.withNet (h : l.Kept xfrIn) {net : Net}
    (hnet : ∀ name source serial, .RefreshZone name (some source) serial ∈ Net.inFlight net .ZL →
      .RefreshZone name (some source) serial ∈ Net.inFlight l.net .ZL) :
    Kept xfrIn { l with net := net } :=
  ⟨fun name source serial hmem ↦ h.commands name source serial (hnet name source serial hmem),
    h.maintainer, h.zones⟩

theorem Kept.withMaintainer (h : l.Kept xfrIn) {a : ZoneMaintainer.Action} {m : ZoneMaintainer}
    (hstep : l.maintainer.step a = some m) (hok : l.maintainer.checksSender a = true)
    (hheard : ∀ zoneId serial source, a = .notifyZoneChanged zoneId serial source →
      l.Received zoneId source)
    (hinsert : ∀ zoneId config soa, a = .insertZone zoneId config soa →
      FromServer (aclServer xfrIn zoneId.name) config) :
    Kept xfrIn { l with maintainer := m } :=
  ⟨h.commands, h.maintainer.step hok hheard hstep, h.zones.step hinsert hstep⟩

theorem Kept.notified (h : l.Kept xfrIn) (notifier : LoaderNotifier) (zoneClass : Class)
    (apexName : Name) (serial : Option Serial) (source : IpAddr) :
    (l.notified notifier zoneClass apexName serial source).Kept xfrIn := by
  have hsub : ∀ zoneId source', l.Received zoneId source' →
      (l.notified notifier zoneClass apexName serial source).Received zoneId source' := by
    intro zoneId source' hmem
    simp only [Received, NotifyPath.notified]
    split
    · exact List.mem_append_left _ hmem
    · exact hmem
  refine ⟨?_, h.maintainer.weaken hsub, h.zones⟩
  intro name source' serial' hmem
  have hsent : .RefreshZone name (some source') serial' ∈ Router.inFlight directUpdate
      (l.net.sendAll (notifier.notifyZoneChanged zoneClass apexName serial source)) .ZL := hmem
  rw [Router.inFlight_sendAll, List.mem_append] at hsent
  cases hsent with
  | inl hold => exact hsub _ _ (h.commands name source' serial' hold)
  | inr hnew =>
    rw [Router.mem_addressed, LoaderNotifier.notifyZoneChanged] at hnew
    split at hnew
    next hboth =>
      obtain ⟨henabled, hclass⟩ := hboth
      have hcommand : (UnitName.ZL, ApplicationCommand.RefreshZone name (some source') serial') =
          (.ZL, .RefreshZone apexName (some source) serial) := List.mem_singleton.mp hnew
      cases hcommand
      simp [Received, NotifyPath.notified, henabled, hclass]
    · cases hnew

theorem Kept.reported (h : l.Kept xfrIn) {update : Update} (hl' : l.reported update = some l') :
    l'.Kept xfrIn := by
  have hquiet : ∀ update : Update,
      (∀ name source serial, update ≠ .RefreshZone name source serial) →
      Kept xfrIn { l with net := l.net.sendAll [update] } := by
    intro update hother
    apply h.withNet
    intro name source serial hmem
    have hsent : .RefreshZone name (some source) serial ∈
        Router.inFlight directUpdate (l.net.sendAll [update]) .ZL := hmem
    rw [Router.inFlight_sendAll, List.mem_append, Router.mem_addressed] at hsent
    cases hsent with
    | inl hold => exact hold
    | inr hnew =>
      cases update with
      | RefreshZone name source serial => exact absurd rfl (hother name source serial)
      | _ => simp [directUpdate] at hnew
  cases update with
  | RefreshZone name source serial => cases hl'
  | _ =>
    rw [← Option.some.inj hl']
    exact hquiet _ (by simp)

theorem Kept.insertZone (h : l.Kept xfrIn) (name : Name) (soa : Option Soa)
    {config : Except Unit ZoneConfig}
    (hconfig : ∀ config', config = .ok config' → FromServer (aclServer xfrIn name) config') :
    (l.insertZone name soa config).Kept xfrIn := by
  cases config with
  | error e => exact h
  | ok config =>
    apply h.withMaintainer (a := .insertZone ⟨name, .IN⟩ config soa) rfl rfl
    · intro zoneId serial source hno
      cases hno
    · intro zoneId config' soa' heq
      cases heq
      exact hconfig config rfl

theorem Kept.onCommand (h : l.Kept xfrIn) (soa : Option Soa) {cmd : ApplicationCommand}
    (hcmd : ∀ name source serial, cmd = .RefreshZone name (some source) serial →
      l.Received ⟨name, .IN⟩ source) :
    (l.onCommand keyNameFromStr xfrIn xfrOut soa cmd).Kept xfrIn := by
  cases cmd with
  | RegisterZone register =>
    simp only [NotifyPath.onCommand]
    split
    · split
      · exact h.insertZone _ _ (fun _ hconfig ↦ ZoneLoader.fromServer_primary hconfig)
      · exact h
    · exact h.insertZone _ _ (fun _ hconfig ↦ ZoneLoader.fromServer_secondary hconfig)
  | RefreshZone name source serial =>
    cases source with
    | none =>
      apply h.withMaintainer (a := .forceZoneRefresh ⟨name, .IN⟩) rfl rfl
      · intro zoneId serial' source hno
        cases hno
      · intro zoneId config soa' hno
        cases hno
    | some source =>
      simp only [NotifyPath.onCommand]
      cases hnotify : l.maintainer.notifyZoneChanged ⟨name, .IN⟩ serial source with
      | none => exact h
      | some m =>
        apply h.withMaintainer (a := .notifyZoneChanged ⟨name, .IN⟩ serial source) hnotify rfl
        · intro zoneId serial' source' heq
          cases heq
          exact hcmd name source serial rfl
        · intro zoneId config soa' hno
          cases hno
  | _ => exact h

theorem Kept.command (h : l.Kept xfrIn) {soa : Option Soa}
    (hl' : l.command keyNameFromStr xfrIn xfrOut soa = some l') : l'.Kept xfrIn := by
  unfold NotifyPath.command at hl'
  split at hl'
  next cmd net hreceive =>
    have hflight := @Router.inFlight_receive _ _ _ _ directUpdate _ _ _ _ hreceive .ZL
    rw [if_pos rfl] at hflight
    split at hl'
    · rw [← Option.some.inj hl']
      have hrest : Kept xfrIn { l with net := net } := by
        apply h.withNet
        intro name source serial hmem
        show _ ∈ Router.inFlight directUpdate l.net .ZL
        rw [hflight]
        exact List.mem_cons_of_mem _ hmem
      apply hrest.onCommand
      intro name source serial heq
      apply h.commands name source serial
      show _ ∈ Router.inFlight directUpdate l.net .ZL
      rw [hflight, heq]
      exact List.mem_cons_self
    · cases hl'
  · cases hl'

theorem Kept.step (h : l.Kept xfrIn) {a : Action Key}
    (hl' : l.step keyNameFromStr xfrIn xfrOut a = some l') : l'.Kept xfrIn := by
  cases a with
  | notified notifier zoneClass apexName serial source =>
    rw [← Option.some.inj hl']
    exact h.notified notifier zoneClass apexName serial source
  | reported update => exact h.reported hl'
  | register zone =>
    rw [← Option.some.inj hl']
    apply h.withNet
    intro name source serial hmem
    cases Router.mem_inFlight_post.mp hmem with
    | inl hold => exact hold
    | inr hnew => cases hnew.2
  | insertKey key =>
    rw [← Option.some.inj hl']
    exact ⟨h.commands, h.maintainer, h.zones⟩
  | direct =>
    obtain ⟨net, hnet, heq⟩ := Option.map_eq_some_iff.mp hl'
    rw [← heq]
    apply h.withNet
    intro name source serial hmem
    show _ ∈ Router.inFlight directUpdate l.net .ZL
    rw [← Router.inFlight_direct hnet]
    exact hmem
  | forward =>
    obtain ⟨net, hnet, heq⟩ := Option.map_eq_some_iff.mp hl'
    rw [← heq]
    apply h.withNet
    intro name source serial hmem
    show _ ∈ Router.inFlight directUpdate l.net .ZL
    rw [← Router.inFlight_forward hnet]
    exact hmem
  | command soa => exact h.command hl'
  | maintainer a =>
    simp only [NotifyPath.step] at hl'
    split at hl'
    next hown =>
      obtain ⟨hown, hok⟩ := Bool.and_eq_true_iff.mp hown
      obtain ⟨m, hm, heq⟩ := Option.map_eq_some_iff.mp hl'
      rw [← heq]
      apply h.withMaintainer hm hok
      · intro zoneId serial source hno
        rw [hno] at hown
        cases hown
      · intro zoneId config soa hno
        rw [hno] at hown
        cases hown
    · cases hl'

/-- In every run, with any registrations, keys and messages: a refresh for a NOTIFY is of a zone that
a NOTIFY from this address was received for, and that has an access list with this address; every
refresh, whatever starts it and wherever it starts, asks no other server than that of the access
list; and a secondary zone is told of changes by the address of that server, whichever port it has. -/
theorem notify_asks_configured_server
    (h : Reach (step keyNameFromStr xfrIn xfrOut) anyStep Started l) :
    (∀ task ∈ l.maintainer.tasks, ∀ source r, task.ActsOn source r →
      l.Received r.zoneId source ∧ MayNotify xfrIn r.zoneId.name source) ∧
    ∀ zoneId handle zone, l.maintainer.zoneHeap.get zoneId handle = some zone →
      (∀ initialXfrAddr, ∀ addr ∈ Primaries.visited zone.config initialXfrAddr,
        aclServer xfrIn zoneId.name = some addr) ∧
      (zone.config.isSecondary = true → ∀ source,
        isKnownPrimary zone.config.allowNotifyFrom source = true ↔
          MayNotify xfrIn zoneId.name source) := by
  have hkept : l.Kept xfrIn := h.invariant (fun _ ↦ kept_started) (fun _ _ _ hinv _ ↦ hinv.step)
  have hmay : ∀ name source, (aclServer xfrIn name).map SocketAddr.ip = some source ↔
      MayNotify xfrIn name source := fun _ _ ↦ Option.map_eq_some_iff
  refine ⟨?_, ?_⟩
  · intro task htask source r hacts
    have hjustified := hkept.maintainer.tasks task htask
    have hboth : l.Received r.zoneId source ∧ l.maintainer.Knows r source := by
      cases task with
      | accepted source' r' =>
        obtain ⟨hsource, hr⟩ := hacts
        subst hsource hr
        exact hjustified.2
      | refresh r' stage =>
        obtain ⟨hcause, hr⟩ := hacts
        subst hr
        exact hjustified source hcause
      | _ => exact hacts.elim
    obtain ⟨hreceived, zone, hget, hknown⟩ := hboth
    have hserver := (hkept.zones r.zoneId r.handle zone hget).allowNotifyFrom source hknown
    exact ⟨hreceived, (hmay _ _).mp hserver⟩
  · intro zoneId handle zone hget
    have hconfig := hkept.zones zoneId handle zone hget
    refine ⟨?_, ?_⟩
    · intro initialXfrAddr addr haddr
      exact hconfig.requestXfrFrom addr ((Primaries.mem_visited_iff _ _ _).mp haddr)
    · intro hsecondary source
      rw [← hmay]
      exact ⟨hconfig.allowNotifyFrom source, hconfig.isSecondary hsecondary source⟩

end

/-! ## A NOTIFY from the primary -/

namespace FromPrimary

def zoneName : Name := ⟨[[121]], by decide⟩

/-- It is transferred from another port than that of DNS. -/
def primary : SocketAddr := .V4 0xc0000202 8055

def xfrIn : HashMap Name (List Char) := AList.insert zoneName "192.0.2.2:8055".toList ∅

def daemon : NotifyPath Tsig.PlainKey :=
  ⟨⟨[], [], fun _ ↦ []⟩, ShortAcl.keyStore, .new, []⟩

theorem daemon_started : daemon.Started := ⟨rfl, rfl, rfl⟩

/-- The zone is registered and tracked. -/
def tracked : List (Action Tsig.PlainKey) :=
  [.register ⟨zoneName, .Server primary, "default"⟩, .forward, .command none] ++
    List.replicate 5 (.maintainer (.task 0 .next)) ++
    [.maintainer .receive, .maintainer .loop, .maintainer .loop]

/-- The NOTIFY comes to a task that starts to refresh the zone. -/
def afterNotify : List (Action Tsig.PlainKey) :=
  tracked ++ [.notified ⟨true⟩ .IN zoneName none primary.ip, .direct, .forward, .command none,
    .maintainer (.task 1 .next), .maintainer .receive, .maintainer (.task 2 .next),
    .maintainer (.task 2 (.knownPrimary true)), .maintainer (.task 2 .next)]

/-- The last task refreshes the zone for the NOTIFY, starting with the port of DNS. -/
def refreshes (l : NotifyPath Tsig.PlainKey) : Bool :=
  match l.maintainer.tasks with
  | [_, _, .refresh r (.starting (some addr))] =>
    (r.cause matches .NotifyFromPrimary (.V4 0xc0000202)) &&
      decide (r.zoneId.name = zoneName ∧ addr = .V4 0xc0000202 53)
  | _ => false

end FromPrimary

open FromPrimary in
theorem primary_asked_after_notify : ∃ (l : NotifyPath Tsig.PlainKey) (r : ZoneMaintainer.Refresh),
    r.zoneId.name = zoneName ∧ l.Received r.zoneId (.V4 0xc0000202) ∧
      MayNotify xfrIn r.zoneId.name (.V4 0xc0000202) := by
  have hended : (exec (step ShortAcl.keyNameFromStr xfrIn ∅) daemon afterNotify).any refreshes =
      true := by
    decide +kernel
  obtain ⟨l, hreach, hl⟩ := Reach.of_exec_any daemon_started afterNotify hended
  unfold refreshes at hl
  split at hl
  next first second r addr htasks =>
    obtain ⟨hcause, hat⟩ := Bool.and_eq_true_iff.mp hl
    obtain ⟨hname, _⟩ := of_decide_eq_true hat
    have hmem : .refresh r (.starting (some addr)) ∈ l.maintainer.tasks := by simp [htasks]
    split at hcause
    next hsource =>
      have hasked := notify_asks_configured_server hreach
      exact ⟨l, r, hname, hasked.1 _ hmem (.V4 0xc0000202) r ⟨hsource, rfl⟩⟩
    · cases hcause
  · cases hl

end NotifyPath

end Cascade
