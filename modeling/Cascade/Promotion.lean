import Cascade.MaintainerSteps

/-!
# Pending and active zones

A secondary zone is pending until the run loop makes it active, which fails when the active zones
have a zone of that name already.  The active zones are replaced as a whole, so besides the zones
in `member_zones` and `loaded_arc` there are copies in the hands of the tasks and of the loop.  As
long as no name is in both the pending zones and one of these copies, no promotion fails.
-/

namespace Cascade

open Lib

namespace ZoneMaintainer

/-- The active zones that a task will store. -/
def Task.trees : Task → List MemberZones
  | .insert _ _ newZones | .announcing _ newZones | .storing newZones => [newZones]
  | .updating zones => [zones]
  | _ => []

def RunLoop.trees : RunLoop → List MemberZones
  | .storing _ _ newZones => [newZones]
  | .updating _ _ zones => [zones]
  | _ => []

/-- The active zones, and all copies of them. -/
def trees (m : ZoneMaintainer) : List MemberZones :=
  m.memberZones :: m.loadedArc :: (m.runLoop.trees ++ m.tasks.flatMap Task.trees)

/-- The zone that the loop has taken out of the pending zones and not yet made active. -/
def RunLoop.promotes : RunLoop → Option ZoneId
  | .promoting zoneId _ _ => some zoneId
  | _ => none

/-- The zone is pending, or just being made active. -/
def awaits (m : ZoneMaintainer) (zoneId : ZoneId) : Bool :=
  decide (zoneId ∈ m.pendingZones) || decide (m.runLoop.promotes = some zoneId)

/-- A secondary zone is inserted only when there is no active zone of its name, and none that is
being inserted, and a primary one only when there is no pending zone of its name. -/
def insertsNew (m : ZoneMaintainer) : Action → Bool
  | .task i _ =>
    match m.tasks[i]? with
    | some (.insert zoneId handle _) =>
      if m.isSecondary zoneId handle then m.trees.all (fun zones ↦ decide (zoneId ∉ zones))
      else !m.awaits zoneId
    | _ => true
  | _ => true

/-! ## Where the active zones come from -/

section

variable {m m' : ZoneMaintainer} {a : Action} {i : TaskId} {zones : MemberZones}

theorem mem_trees : zones ∈ m.trees ↔ zones = m.memberZones ∨ zones = m.loadedArc ∨
    zones ∈ m.runLoop.trees ∨ ∃ task ∈ m.tasks, zones ∈ task.trees := by
  simp only [trees, List.mem_cons, List.mem_append, List.mem_flatMap]

theorem trees_of_not_caller {task : Task} (h : task.isCaller = false) : task.trees = [] := by
  cases task with
  | insert | announcing | storing | updating => cases h
  | _ => rfl

theorem memberZones_mem_trees : m.memberZones ∈ m.trees := mem_trees.mpr (Or.inl rfl)

theorem loadedArc_mem_trees : m.loadedArc ∈ m.trees := mem_trees.mpr (Or.inr (Or.inl rfl))

-- `insert_zone` stores its copy of the active zones, which has one zone more if that is a primary
-- one.
theorem InsertStep.trees {task task' : Task} (h : InsertStep m i task task' m')
    (hown : ∀ zones ∈ task.trees, zones ∈ m.trees) :
    m'.memberZones ∈ m.trees ∧ m'.loadedArc ∈ m.trees ∧ ∀ zones ∈ task'.trees, zones ∈ m.trees ∨
      ∃ zoneId handle newZones, task = .insert zoneId handle newZones ∧
        m.isSecondary zoneId handle = false ∧ newZones ∈ m.trees ∧
        zones = newZones.insert zoneId handle := by
  have hmember : m.memberZones ∈ m.trees := memberZones_mem_trees
  have hloaded : m.loadedArc ∈ m.trees := loadedArc_mem_trees
  cases h with
  | pending | announce => exact ⟨hmember, hloaded, fun zones hzones ↦ Or.inl (hown zones hzones)⟩
  | «exists» | send => exact ⟨hmember, hloaded, fun zones hzones ↦ by cases hzones⟩
  | active hprimary _ =>
    refine ⟨hmember, hloaded, ?_⟩
    intro zones hzones
    have hnew := hown _ (List.mem_singleton_self _)
    exact Or.inr ⟨_, _, _, rfl, hprimary, hnew, List.mem_singleton.mp hzones⟩
  | store => exact ⟨hown _ (List.mem_singleton_self _), hloaded, fun zones hzones ↦ by cases hzones⟩
  | load =>
    refine ⟨hmember, hloaded, ?_⟩
    intro zones hzones
    rw [List.mem_singleton.mp hzones]
    exact Or.inl hmember
  | update =>
    exact ⟨hmember, hown _ (List.mem_singleton_self _), fun zones hzones ↦ by cases hzones⟩

-- The step of a task stores a tree that was there before it, or adds a primary zone to its copy.
theorem mem_trees_of_turn {input : Input} (h : TaskTurn m i input m') (hzones : zones ∈ m'.trees) :
    zones ∈ m.trees ∨ ∃ zoneId handle newZones,
      m.tasks[i]? = some (.insert zoneId handle newZones) ∧
        m.isSecondary zoneId handle = false ∧ newZones ∈ m.trees ∧
        zones = newZones.insert zoneId handle := by
  obtain ⟨task, task', htask, -, hstep, hinsert⟩ := h.next
  have htrees : ∀ task₁ ∈ m.tasks, ∀ zones ∈ task₁.trees, zones ∈ m.trees :=
    fun task₁ htask₁ zones hmem ↦ mem_trees.mpr (Or.inr (Or.inr (Or.inr ⟨task₁, htask₁, hmem⟩)))
  have hparts : m'.memberZones ∈ m.trees ∧ m'.loadedArc ∈ m.trees ∧ ∀ zones ∈ task'.trees,
      zones ∈ m.trees ∨ ∃ zoneId handle newZones, task = .insert zoneId handle newZones ∧
        m.isSecondary zoneId handle = false ∧ newZones ∈ m.trees ∧
        zones = newZones.insert zoneId handle := by
    rcases hinsert with hinsert | hcaller
    · exact hinsert.trees (htrees task (List.mem_of_getElem? htask))
    · have hnone : task'.isCaller = false := hstep.follows.not_caller hcaller
      rw [hstep.memberZones hcaller, hstep.loadedArc hcaller, trees_of_not_caller hnone]
      exact ⟨memberZones_mem_trees, loadedArc_mem_trees, fun zones hzones ↦ by cases hzones⟩
  obtain ⟨hmember, hloaded, hnew⟩ := hparts
  rw [mem_trees, hstep.runLoop, hstep.tasks] at hzones
  rcases hzones with rfl | rfl | hzones | ⟨task₁, htask₁, hzones⟩
  · exact Or.inl hmember
  · exact Or.inl hloaded
  · exact Or.inl (mem_trees.mpr (Or.inr (Or.inr (Or.inl hzones))))
  · rcases List.mem_or_eq_of_mem_set htask₁ with htask₁ | rfl
    · exact Or.inl (htrees task₁ htask₁ zones hzones)
    · rcases hnew zones hzones with hzones | ⟨zoneId, handle, newZones, rfl, hrest⟩
      · exact Or.inl hzones
      · exact Or.inr ⟨zoneId, handle, newZones, htask, hrest⟩

-- The loop stores such a tree too, with the zone that it makes active.
theorem mem_trees_of_loop (h : LoopStep m m') (hzones : zones ∈ m'.trees) :
    zones ∈ m.trees ∨ ∃ zoneId handle soaRefresh,
      m.runLoop = .promoting zoneId handle soaRefresh ∧
        m'.runLoop = .storing zoneId soaRefresh zones ∧
        zones = m.loadedArc.insert zoneId handle := by
  have hkeep : zones = m.memberZones ∨ zones = m.loadedArc ∨ zones ∈ m.runLoop.trees ∨
      (∃ task ∈ m.tasks, zones ∈ task.trees) → zones ∈ m.trees := mem_trees.mpr
  rw [mem_trees, h.frame.1] at hzones
  cases h with
  | locked | notPending | notSecondary | empty | loaded | again | duplicate =>
    rcases hzones with hzones | hzones | hzones | hzones
    · exact Or.inl (hkeep (Or.inl hzones))
    · exact Or.inl (hkeep (Or.inr (Or.inl hzones)))
    · cases hzones
    · exact Or.inl (hkeep (Or.inr (Or.inr (Or.inr hzones))))
  | insert hloop _ =>
    rcases hzones with hzones | hzones | hzones | hzones
    · exact Or.inl (hkeep (Or.inl hzones))
    · exact Or.inl (hkeep (Or.inr (Or.inl hzones)))
    · rw [List.mem_singleton.mp hzones]
      exact Or.inr ⟨_, _, _, hloop, rfl, rfl⟩
    · exact Or.inl (hkeep (Or.inr (Or.inr (Or.inr hzones))))
  | store hloop =>
    rw [hloop] at hkeep
    rcases hzones with rfl | hzones | hzones | hzones
    · exact Or.inl (hkeep (Or.inr (Or.inr (Or.inl (List.mem_singleton_self _)))))
    · exact Or.inl (hkeep (Or.inr (Or.inl hzones)))
    · cases hzones
    · exact Or.inl (hkeep (Or.inr (Or.inr (Or.inr hzones))))
  | load hloop =>
    rcases hzones with hzones | hzones | hzones | hzones
    · exact Or.inl (hkeep (Or.inl hzones))
    · exact Or.inl (hkeep (Or.inr (Or.inl hzones)))
    · exact Or.inl (hkeep (Or.inl (List.mem_singleton.mp hzones)))
    · exact Or.inl (hkeep (Or.inr (Or.inr (Or.inr hzones))))
  | update hloop =>
    rw [hloop] at hkeep
    rcases hzones with hzones | rfl | hzones | hzones
    · exact Or.inl (hkeep (Or.inl hzones))
    · exact Or.inl (hkeep (Or.inr (Or.inr (Or.inl (List.mem_singleton_self _)))))
    · cases hzones
    · exact Or.inl (hkeep (Or.inr (Or.inr (Or.inr hzones))))

-- A call of `insert_zone` starts with a copy of the active zones.
theorem mem_trees_of_outer (h : OuterStep m a m') (hzones : zones ∈ m'.trees) :
    zones ∈ m.trees := by
  have hspawn : ∀ task : Task, (∀ zones ∈ task.trees, zones = m.loadedArc) →
      zones ∈ (m.spawn task).trees → zones ∈ m.trees := by
    intro task htask hmem
    rw [mem_trees] at hmem
    rcases hmem with hmem | hmem | hmem | ⟨task₁, htask₁, hmem⟩
    · exact mem_trees.mpr (Or.inl hmem)
    · exact mem_trees.mpr (Or.inr (Or.inl hmem))
    · exact mem_trees.mpr (Or.inr (Or.inr (Or.inl hmem)))
    · rcases List.mem_append.mp htask₁ with htask₁ | htask₁
      · exact mem_trees.mpr (Or.inr (Or.inr (Or.inr ⟨task₁, htask₁, hmem⟩)))
      · rw [List.mem_singleton.mp htask₁] at hmem
        exact mem_trees.mpr (Or.inr (Or.inl (htask zones hmem)))
  cases h with
  | tick | refreshRequested => exact hzones
  | zoneAdded hidle _ =>
    rw [mem_trees] at hzones
    rw [mem_trees, hidle]
    exact hzones
  | insertZone =>
    exact hspawn (.insert _ _ m.loadedArc) (fun zones hmem ↦ List.mem_singleton.mp hmem) hzones
  | notify | force | fire | zoneChanged =>
    exact hspawn _ (fun zones hmem ↦ by cases hmem) hzones

/-! ## Where the pending zones come from -/

theorem pendingZones_of_turn {input : Input} (h : TaskTurn m i input m') :
    m'.pendingZones = m.pendingZones ∨ ∃ zoneId handle newZones,
      m.tasks[i]? = some (.insert zoneId handle newZones) ∧
        m.isSecondary zoneId handle = true ∧ m.pendingFree = true ∧
        m'.pendingZones = m.pendingZones.insert zoneId handle := by
  obtain ⟨task, task', htask, -, hstep, hinsert | hcaller⟩ := h.next
  · cases hinsert with
    | pending hsecondary hfree => exact Or.inr ⟨_, _, _, htask, hsecondary, hfree, rfl⟩
    | «exists» | active | announce | store | load | update | send => exact Or.inl rfl
  · exact Or.inl (hstep.pendingZones hcaller)

-- The loop starts to promote a zone by receiving an event only.
theorem OuterStep.runLoop (h : OuterStep m a m') :
    m'.runLoop = m.runLoop ∨ ∃ zoneId, m'.runLoop = .added zoneId := by
  cases h with
  | zoneAdded => exact Or.inr ⟨_, rfl⟩
  | tick | insertZone | notify | force | fire | zoneChanged | refreshRequested =>
    exact Or.inl rfl

theorem OuterStep.pendingZones (h : OuterStep m a m') : m'.pendingZones = m.pendingZones := by
  cases h <;> rfl

end

/-! ## Runs -/

/-- No name is both pending and active. -/
structure Apart (m : ZoneMaintainer) : Prop where
  apart : ∀ zoneId, m.awaits zoneId = true → ∀ zones ∈ m.trees, zoneId ∉ zones
  tracked : ∀ zoneId handle, m.runLoop = .tracking zoneId handle →
    m.pendingZones.lookup zoneId = some handle
  erased : ∀ zoneId, m.runLoop.promotes = some zoneId → zoneId ∉ m.pendingZones
  runs : m.runLoop ≠ .panicked

section

variable {m m' : ZoneMaintainer} {a : Action} {i : TaskId} {zoneId : ZoneId}

theorem awaits_iff : m.awaits zoneId = true ↔
    zoneId ∈ m.pendingZones ∨ m.runLoop.promotes = some zoneId := by
  simp [awaits]

-- Nobody but the loop writes to the pending zones while it holds their lock.
theorem pendingZones_of_holds {input : Input} (h : TaskTurn m i input m')
    (hholds : m.runLoop.holdsPending = true) : m'.pendingZones = m.pendingZones := by
  rcases pendingZones_of_turn h with hsame | ⟨zoneId, handle, newZones, -, -, hfree, -⟩
  · exact hsame
  · simp [pendingFree, pendingReadable, hholds] at hfree

theorem holdsPending_of_promotes (h : m.runLoop.promotes = some zoneId) :
    m.runLoop.holdsPending = true := by
  cases hloop : m.runLoop with
  | promoting => rfl
  | idle | added | tracking | storing | loading | updating | panicked =>
    rw [hloop] at h
    cases h

theorem apart_started (h : m.Started) : m.Apart := by
  subst h
  refine ⟨?_, ?_, ?_, by simp [new]⟩
  · intro zoneId hawaits
    rw [awaits_iff] at hawaits
    rcases hawaits with hawaits | hawaits
    · cases hawaits
    · cases hawaits
  · intro zoneId handle hloop
    cases hloop
  · intro zoneId hloop
    cases hloop

theorem apart_of_turn {input : Input} (hinv : m.Apart)
    (hok : m.insertsNew (.task i input) = true) (h : TaskTurn m i input m') : m'.Apart := by
  obtain ⟨task, task', -, -, hstep, -⟩ := h.next
  have hloop := hstep.runLoop
  constructor
  · intro zoneId hawaits zones hzones hmem
    rw [awaits_iff, hloop] at hawaits
    have hold : m.awaits zoneId = true ∨ ∃ handle newZones,
        m.tasks[i]? = some (.insert zoneId handle newZones) ∧
          m.isSecondary zoneId handle = true := by
      rw [awaits_iff]
      rcases pendingZones_of_turn h with hsame | ⟨zoneId', handle, newZones, htask, hsecondary, -, heq⟩
      · rw [hsame] at hawaits
        exact Or.inl hawaits
      · rw [heq, AList.mem_insert] at hawaits
        rcases hawaits with (rfl | hawaits) | hawaits
        · exact Or.inr ⟨handle, newZones, htask, hsecondary⟩
        · exact Or.inl (Or.inl hawaits)
        · exact Or.inl (Or.inr hawaits)
    rcases mem_trees_of_turn h hzones with
      hzones | ⟨zoneId', handle, newZones, htask, hprimary, hnew, rfl⟩
    · rcases hold with hold | ⟨handle, newZones, htask, hsecondary⟩
      · exact hinv.apart zoneId hold zones hzones hmem
      · simp only [insertsNew, htask, hsecondary, if_true, List.all_eq_true, decide_eq_true_eq] at hok
        exact hok zones hzones hmem
    · have hnone : m.awaits zoneId' = false := by
        simpa [insertsNew, htask, hprimary] using hok
      rcases hold with hold | ⟨handle', newZones', htask', hsecondary⟩
      · rcases (AList.mem_insert _).mp hmem with rfl | hmem
        · rw [hold] at hnone
          cases hnone
        · exact hinv.apart zoneId hold newZones hnew hmem
      · -- the task inserts a primary zone
        rw [htask] at htask'
        cases htask'
        rw [hsecondary] at hprimary
        cases hprimary
  · intro zoneId handle hloop'
    rw [hloop] at hloop'
    rw [pendingZones_of_holds h (by simp [hloop', RunLoop.holdsPending])]
    exact hinv.tracked zoneId handle hloop'
  · intro zoneId hpromotes
    rw [hloop] at hpromotes
    rw [pendingZones_of_holds h (holdsPending_of_promotes hpromotes)]
    exact hinv.erased zoneId hpromotes
  · rw [hloop]
    exact hinv.runs

theorem pendingZones_of_loop (h : LoopStep m m') (hmem : zoneId ∈ m'.pendingZones) :
    zoneId ∈ m.pendingZones := by
  cases h with
  | loaded | again => exact (AList.mem_erase.mp hmem).2
  | locked | notPending | notSecondary | empty | duplicate | insert | store | load | update =>
    exact hmem

-- What the loop makes active has been pending.
theorem awaits_of_loop (hinv : m.Apart) (h : LoopStep m m') (hawaits : m'.awaits zoneId = true) :
    m.awaits zoneId = true := by
  rw [awaits_iff] at hawaits ⊢
  rcases hawaits with hawaits | hawaits
  · exact Or.inl (pendingZones_of_loop h hawaits)
  · cases h with
    | loaded hloop | again hloop =>
      cases hawaits
      exact Or.inl (HashMap.mem_iff_lookup.mpr ⟨_, hinv.tracked _ _ hloop⟩)
    | locked | notPending | notSecondary | empty | duplicate | insert | store | load
    | update => cases hawaits

theorem OuterStep.promotes (h : OuterStep m a m') (hpromotes : m'.runLoop.promotes = some zoneId) :
    m.runLoop.promotes = some zoneId := by
  rcases h.runLoop with hloop | ⟨zoneId', hloop⟩
  · rw [← hloop]
    exact hpromotes
  · rw [hloop] at hpromotes
    cases hpromotes

theorem OuterStep.awaits (h : OuterStep m a m') (hawaits : m'.awaits zoneId = true) :
    m.awaits zoneId = true := by
  rw [awaits_iff, h.pendingZones] at hawaits
  exact awaits_iff.mpr (hawaits.imp_right h.promotes)

theorem apart_of_loop (hinv : m.Apart) (h : LoopStep m m') : m'.Apart := by
  have htrees : ∀ zones ∈ m'.trees, zones ∈ m.trees ∨ ∃ zoneId handle soaRefresh,
      m.runLoop = .promoting zoneId handle soaRefresh ∧
        m'.runLoop = .storing zoneId soaRefresh zones ∧
        zones = m.loadedArc.insert zoneId handle := fun _ ↦ mem_trees_of_loop h
  constructor
  · intro zoneId hnew zones hzones hmem
    rcases htrees zones hzones with hzones | ⟨zoneId', handle, soaRefresh, hloop, hstore, rfl⟩
    · exact hinv.apart zoneId (awaits_of_loop hinv h hnew) zones hzones hmem
    · rcases (AList.mem_insert _).mp hmem with rfl | hmem
      · -- the loop has taken the zone out of the pending ones
        rw [awaits_iff, hstore] at hnew
        rcases hnew with hnew | hnew
        · exact hinv.erased zoneId (by rw [hloop]; rfl) (pendingZones_of_loop h hnew)
        · cases hnew
      · exact hinv.apart zoneId (awaits_of_loop hinv h hnew) m.loadedArc loadedArc_mem_trees hmem
  · intro zoneId handle hloop'
    cases h with
    | locked _ _ hlookup =>
      cases hloop'
      exact hlookup
    | notPending | notSecondary | empty | loaded | again | duplicate | insert | store | load
    | update => cases hloop'
  · intro zoneId hpromotes
    cases h with
    | loaded | again =>
      cases hpromotes
      exact fun hmem ↦ (AList.mem_erase.mp hmem).1 rfl
    | locked | notPending | notSecondary | empty | duplicate | insert | store | load | update =>
      cases hpromotes
  · intro hpanicked
    cases h with
    | duplicate hloop hmem =>
      have hnew : m.awaits _ = true := awaits_iff.mpr (Or.inr (by rw [hloop]; rfl))
      exact hinv.apart _ hnew m.loadedArc loadedArc_mem_trees hmem
    | locked | notPending | notSecondary | empty | loaded | again | insert | store | load
    | update => cases hpanicked

theorem apart_of_outer (hinv : m.Apart) (h : OuterStep m a m') : m'.Apart := by
  constructor
  · intro zoneId hawaits zones hzones
    exact hinv.apart zoneId (h.awaits hawaits) zones (mem_trees_of_outer h hzones)
  · intro zoneId handle hloop
    rw [h.pendingZones]
    rcases h.runLoop with hsame | ⟨zoneId', hadded⟩
    · exact hinv.tracked zoneId handle (hsame ▸ hloop)
    · rw [hadded] at hloop
      cases hloop
  · intro zoneId hnew
    rw [h.pendingZones]
    exact hinv.erased zoneId (h.promotes hnew)
  · rcases h.runLoop with hsame | ⟨zoneId', hadded⟩
    · rw [hsame]
      exact hinv.runs
    · rw [hadded]
      simp

end

/-- In every run in which no name is inserted both as a pending and as an active zone, every promotion
succeeds. -/
theorem promotion_never_fails {m : ZoneMaintainer}
    (h : Reach ZoneMaintainer.step (fun m a ↦ m.insertsNew a = true) Started m) :
    m.runLoop ≠ .panicked := by
  have hinv : m.Apart := h.invariant (fun _ ↦ apart_started) (fun m a m' hinv hok hstep ↦ by
    rcases step_cases hstep with ⟨i, input, rfl, hturn⟩ | ⟨-, hloop⟩ | houter
    · exact apart_of_turn hinv hok hturn
    · exact apart_of_loop hinv hloop
    · exact apart_of_outer hinv houter)
  exact hinv.runs

namespace ShortRun

/-- The zone is inserted once more when it has become active. -/
def insertAgain : List Action :=
  firstPromotion ++ [.insertZone zone (secondary .AxfrOnly) none] ++ steps 3 5 ++
    [.receive, .loop, .loop, .loop]

end ShortRun

theorem first_promotion_succeeds :
    ∃ m : ZoneMaintainer, m.runLoop ≠ .panicked ∧ ShortRun.served m = true := by
  have hrun : (exec ZoneMaintainer.step new ShortRun.firstPromotion).any
      ShortRun.served = true := by decide
  have hok : execOk ZoneMaintainer.step insertsNew new ShortRun.firstPromotion = true := by decide
  obtain ⟨m, hreach, hm⟩ := Reach.of_exec new_started ShortRun.firstPromotion hok hrun
  exact ⟨m, promotion_never_fails hreach, hm⟩

theorem second_insertion_panics :
    ∃ m, Reach ZoneMaintainer.step anyStep Started m ∧ m.runLoop = .panicked := by
  have hrun : (exec ZoneMaintainer.step new ShortRun.insertAgain).any (fun m ↦
      m.runLoop matches .panicked) = true := by decide
  obtain ⟨m, hreach, hm⟩ := Reach.of_exec_any new_started ShortRun.insertAgain hrun
  refine ⟨m, hreach, ?_⟩
  cases hloop : m.runLoop with
  | panicked => rfl
  | idle | added | tracking | promoting | storing | loading | updating =>
    rw [hloop] at hm
    cases hm

end ZoneMaintainer

end Cascade
