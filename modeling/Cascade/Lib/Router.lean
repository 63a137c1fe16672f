import Mathlib.Algebra.GroupWithZero.Nat
import Mathlib.Data.List.Basic
import Mathlib.Logic.Function.Basic

/-!
# Messages on their way to a unit

Units send updates to a director, which turns each update into commands addressed to units, and a
forwarder moves the commands into the inboxes.  The three queues of a command's way are FIFO, so
`inFlight` is the sequence of the commands that a unit has not received yet: directing and
forwarding leave it as it is, and only the unit itself takes something out.
-/

namespace Lib

structure Router (U N C : Type) where
  updates : List U
  commands : List (N × C)
  inbox : N → List C

namespace Router

variable {U N C : Type}

def sendAll (r : Router U N C) (us : List U) : Router U N C :=
  { r with updates := r.updates ++ us }

/-- A command that does not take the way over the director. -/
def post (r : Router U N C) (n : N) (c : C) : Router U N C :=
  { r with commands := r.commands ++ [(n, c)] }

def direct (route : U → List (N × C)) (r : Router U N C) : Option (Router U N C) :=
  match r.updates with
  | [] => none
  | u :: us => some { r with updates := us, commands := r.commands ++ route u }

theorem updates_of_direct {route : U → List (N × C)} {r : Router U N C}
    (h : r.direct route = none) : r.updates = [] := by
  unfold direct at h
  cases hupdates : r.updates with
  | nil => rfl
  | cons u us => simp [hupdates] at h

/-! ## How much there is to do -/

/-- The work that is left when a unit has so much work with a command. -/
def commandsWork (cost : N → Nat) (commands : List (N × C)) : Nat :=
  (commands.map (fun command ↦ 1 + cost command.1)).sum

def updatesWork (route : U → List (N × C)) (cost : N → Nat) (updates : List U) : Nat :=
  (updates.map (fun u ↦ 1 + commandsWork cost (route u))).sum

def work (route : U → List (N × C)) (cost : N → Nat) (units : List N) (r : Router U N C) : Nat :=
  updatesWork route cost r.updates + commandsWork cost r.commands +
    (units.map (fun n ↦ (r.inbox n).length * cost n)).sum

section

variable {route : U → List (N × C)} {cost : N → Nat} {units : List N}

theorem work_sendAll (r : Router U N C) (us : List U) :
    work route cost units (r.sendAll us) =
      work route cost units r + updatesWork route cost us := by
  simp only [work, sendAll, updatesWork, List.map_append, List.sum_append]
  omega

theorem work_post (r : Router U N C) (n : N) (c : C) :
    work route cost units (r.post n c) = work route cost units r + 1 + cost n := by
  simp only [work, post, commandsWork, List.map_append, List.sum_append, List.map_cons,
    List.sum_cons, List.map_nil, List.sum_nil]
  omega

theorem work_direct {r r' : Router U N C} (h : r.direct route = some r') :
    work route cost units r' + 1 = work route cost units r := by
  unfold direct at h
  cases hupdates : r.updates with
  | nil => simp [hupdates] at h
  | cons u us =>
    simp only [hupdates] at h
    cases h
    simp only [work, hupdates, updatesWork, commandsWork, List.map_append, List.sum_append,
      List.map_cons, List.sum_cons]
    omega

end

/-! ## The way of a command -/

variable [DecidableEq N]

def forward (r : Router U N C) : Option (Router U N C) :=
  match r.commands with
  | [] => none
  | (n, c) :: cs =>
    some { r with commands := cs, inbox := Function.update r.inbox n (r.inbox n ++ [c]) }

def receive (r : Router U N C) (n : N) : Option (C × Router U N C) :=
  match r.inbox n with
  | [] => none
  | c :: cs => some (c, { r with inbox := Function.update r.inbox n cs })

/-- A unit that stops throws away what has come to it. -/
def discard (r : Router U N C) (n : N) : Router U N C :=
  { r with inbox := Function.update r.inbox n [] }

theorem commands_of_forward {r : Router U N C} (h : r.forward = none) : r.commands = [] := by
  unfold forward at h
  cases hcommands : r.commands with
  | nil => rfl
  | cons command cs => simp [hcommands] at h

theorem inbox_of_receive {r : Router U N C} {n : N} (h : r.receive n = none) : r.inbox n = [] := by
  unfold receive at h
  cases hinbox : r.inbox n with
  | nil => rfl
  | cons c cs => simp [hinbox] at h

/-- The commands of a list that are addressed to `n`. -/
def addressed (n : N) (l : List (N × C)) : List C :=
  l.filterMap (fun x ↦ if x.1 = n then some x.2 else none)

def inFlight (route : U → List (N × C)) (r : Router U N C) (n : N) : List C :=
  r.inbox n ++ addressed n r.commands ++ addressed n (r.updates.flatMap route)

theorem mem_addressed {n : N} {l : List (N × C)} {c : C} : c ∈ addressed n l ↔ (n, c) ∈ l := by
  unfold addressed
  rw [List.mem_filterMap]
  constructor
  · rintro ⟨⟨m, d⟩, hmem, heq⟩
    by_cases hm : m = n
    · rw [if_pos hm] at heq
      cases heq
      exact hm ▸ hmem
    · rw [if_neg hm] at heq
      cases heq
  · intro h
    exact ⟨(n, c), h, if_pos rfl⟩

@[simp] theorem addressed_nil (n : N) : addressed n ([] : List (N × C)) = [] := rfl

@[simp] theorem addressed_append (n : N) (l l' : List (N × C)) :
    addressed n (l ++ l') = addressed n l ++ addressed n l' :=
  List.filterMap_append

@[simp] theorem addressed_cons_self (n : N) (c : C) (l : List (N × C)) :
    addressed n ((n, c) :: l) = c :: addressed n l := by
  simp [addressed]

theorem addressed_cons_of_ne {n m : N} (c : C) (l : List (N × C)) (h : m ≠ n) :
    addressed n ((m, c) :: l) = addressed n l := by
  simp [addressed, h]

variable {route : U → List (N × C)}

theorem inFlight_sendAll (r : Router U N C) (us : List U) (n : N) :
    inFlight route (r.sendAll us) n =
      inFlight route r n ++ addressed n (us.flatMap route) := by
  simp [inFlight, sendAll]

theorem mem_inFlight_post {r : Router U N C} {n m : N} {c d : C} :
    d ∈ inFlight route (r.post m c) n ↔ d ∈ inFlight route r n ∨ n = m ∧ d = c := by
  simp only [inFlight, post, addressed_append, List.mem_append, mem_addressed, List.mem_singleton,
    Prod.mk.injEq]
  tauto

-- Directing an update moves its commands to the end of the next queue.
theorem inFlight_direct {r r' : Router U N C} (h : r.direct route = some r') (n : N) :
    inFlight route r' n = inFlight route r n := by
  unfold direct at h
  split at h
  · cases h
  next u us hu =>
    cases h
    simp [inFlight, hu]

theorem inFlight_forward {r r' : Router U N C} (h : r.forward = some r') (n : N) :
    inFlight route r' n = inFlight route r n := by
  unfold forward at h
  split at h
  · cases h
  next m c cs hc =>
    cases h
    by_cases hm : m = n
    · subst hm
      simp [inFlight, hc]
    · have hn : n ≠ m := fun heq ↦ hm heq.symm
      simp [inFlight, hc, addressed_cons_of_ne c cs hm, Function.update_of_ne hn]

-- A unit receives the first of the commands in flight to it.
theorem inFlight_receive {r r' : Router U N C} {m : N} {c : C}
    (h : r.receive m = some (c, r')) (n : N) :
    inFlight route r n = if n = m then c :: inFlight route r' n else inFlight route r' n := by
  unfold receive at h
  split at h
  · cases h
  next d cs hd =>
    cases h
    by_cases hn : n = m
    · subst hn
      simp [inFlight, hd]
    · simp [inFlight, hn]

/-! ## The commands of a kind, in order -/

section

variable {R : Type} {pick : C → Option R}

/-- What is picked of the commands in flight to a unit. -/
def picked (route : U → List (N × C)) (pick : C → Option R) (r : Router U N C) (n : N) : List R :=
  (inFlight route r n).filterMap pick

-- Nothing is picked of the commands that the director makes of an update.
theorem picked_routed (hroute : ∀ u, ∀ command ∈ route u, pick command.2 = none) (us : List U)
    (n : N) : (addressed n (us.flatMap route)).filterMap pick = [] := by
  apply List.filterMap_eq_nil_iff.mpr
  intro c hc
  obtain ⟨u, _, hu⟩ := List.mem_flatMap.mp (mem_addressed.mp hc)
  exact hroute u (n, c) hu

theorem picked_sendAll (hroute : ∀ u, ∀ command ∈ route u, pick command.2 = none)
    (r : Router U N C) (us : List U) (n : N) :
    picked route pick (r.sendAll us) n = picked route pick r n := by
  rw [picked, inFlight_sendAll, List.filterMap_append, picked_routed hroute, List.append_nil]
  rfl

theorem picked_post (hroute : ∀ u, ∀ command ∈ route u, pick command.2 = none)
    (r : Router U N C) (m n : N) (c : C) :
    picked route pick (r.post m c) n =
      picked route pick r n ++ if m = n then (pick c).toList else [] := by
  have hposted : (addressed n [(m, c)]).filterMap pick = if m = n then (pick c).toList else [] := by
    by_cases hm : m = n
    · rw [if_pos hm, hm, addressed_cons_self]
      cases hpick : pick c with
      | none => simp [hpick]
      | some x => simp [hpick]
    · rw [if_neg hm, addressed_cons_of_ne c [] hm]
      rfl
  simp only [picked, inFlight, post, addressed_append, List.filterMap_append, hposted,
    picked_routed hroute, List.append_nil, List.append_assoc]

theorem picked_direct {r r' : Router U N C} (h : r.direct route = some r') (n : N) :
    picked route pick r' n = picked route pick r n := by
  rw [picked, inFlight_direct h]
  rfl

theorem picked_forward {r r' : Router U N C} (h : r.forward = some r') (n : N) :
    picked route pick r' n = picked route pick r n := by
  rw [picked, inFlight_forward h]
  rfl

theorem picked_discard (r : Router U N C) (m n : N) :
    picked route pick (r.discard m) n =
      if n = m then (picked route pick r n).drop ((r.inbox n).filterMap pick).length
      else picked route pick r n := by
  by_cases hn : n = m
  · rw [if_pos hn]
    simp [picked, inFlight, discard, hn, List.filterMap_append]
  · rw [if_neg hn]
    simp only [picked, inFlight, discard, Function.update_of_ne hn]

theorem picked_receive {r r' : Router U N C} {m : N} {c : C} (h : r.receive m = some (c, r'))
    (n : N) : picked route pick r n =
      (if n = m then (pick c).toList else []) ++ picked route pick r' n := by
  rw [picked, inFlight_receive h n, picked]
  by_cases hn : n = m
  · rw [if_pos hn, if_pos hn]
    cases hpick : pick c with
    | none => simp [hpick]
    | some x => simp [hpick]
  · rw [if_neg hn, if_neg hn]
    rfl

end

/-! ## How many commands of a kind are in flight -/

section

variable {kind : C → Bool}

def flights (route : U → List (N × C)) (kind : C → Bool) (r : Router U N C) (n : N) : Nat :=
  (inFlight route r n).countP kind

theorem flights_sendAll (r : Router U N C) (us : List U) (n : N) :
    flights route kind (r.sendAll us) n =
      flights route kind r n + (addressed n (us.flatMap route)).countP kind := by
  rw [flights, inFlight_sendAll, List.countP_append]
  rfl

theorem flights_post (r : Router U N C) (m n : N) (c : C) :
    flights route kind (r.post m c) n =
      flights route kind r n + if m = n ∧ kind c = true then 1 else 0 := by
  have hposted : (addressed n [(m, c)]).countP kind = if m = n ∧ kind c = true then 1 else 0 := by
    by_cases hm : m = n
    · simp [addressed, hm, List.countP_cons]
    · simp [addressed, hm]
  simp only [flights, inFlight, post, addressed_append, List.countP_append, hposted]
  omega

theorem flights_direct {r r' : Router U N C} (h : r.direct route = some r') (n : N) :
    flights route kind r' n = flights route kind r n := by
  rw [flights, inFlight_direct h]
  rfl

theorem flights_forward {r r' : Router U N C} (h : r.forward = some r') (n : N) :
    flights route kind r' n = flights route kind r n := by
  rw [flights, inFlight_forward h]
  rfl

theorem flights_receive {r r' : Router U N C} {m : N} {c : C} (h : r.receive m = some (c, r'))
    (n : N) : flights route kind r n =
      flights route kind r' n + if m = n ∧ kind c = true then 1 else 0 := by
  rw [flights, inFlight_receive h n, flights]
  by_cases hm : n = m
  · rw [if_pos hm, List.countP_cons]
    simp [hm]
  · rw [if_neg hm, if_neg (fun hboth ↦ hm hboth.1.symm)]
    rfl

end

section

variable {cost : N → Nat} {units : List N}

variable (cost) in
theorem sum_inbox_update (hunits : units.Nodup) {n : N} (hn : n ∈ units) (inbox : N → List C)
    (cs : List C) :
    (units.map (fun m ↦ (Function.update inbox n cs m).length * cost m)).sum +
        (inbox n).length * cost n =
      (units.map (fun m ↦ (inbox m).length * cost m)).sum + cs.length * cost n := by
  induction units with
  | nil => cases hn
  | cons m units ih =>
    have ⟨hm, hrest⟩ := List.nodup_cons.mp hunits
    simp only [List.map_cons, List.sum_cons]
    by_cases hsame : m = n
    · have hothers : units.map (fun k ↦ (Function.update inbox n cs k).length * cost k) =
          units.map (fun k ↦ (inbox k).length * cost k) := by
        apply List.map_congr_left
        intro k hk
        have hne : k ≠ n := fun heq ↦ hm (hsame ▸ heq ▸ hk)
        rw [Function.update_of_ne hne]
      rw [hothers, hsame, Function.update_self]
      omega
    · have hn' : n ∈ units := (List.mem_cons.mp hn).resolve_left (fun heq ↦ hsame heq.symm)
      rw [Function.update_of_ne hsame]
      have := ih hrest hn'
      omega

theorem work_forward (hunits : units.Nodup) (hall : ∀ n, n ∈ units) {r r' : Router U N C}
    (h : r.forward = some r') : work route cost units r' + 1 = work route cost units r := by
  unfold forward at h
  cases hcommands : r.commands with
  | nil => simp [hcommands] at h
  | cons command cs =>
    simp only [hcommands] at h
    cases h
    have hinbox := sum_inbox_update cost hunits (hall command.1) r.inbox
      (r.inbox command.1 ++ [command.2])
    simp only [List.length_append, List.length_singleton, Nat.add_mul, Nat.one_mul] at hinbox
    simp only [work, hcommands, commandsWork, List.map_cons, List.sum_cons]
    omega

theorem work_receive (hunits : units.Nodup) {n : N} (hn : n ∈ units) {r r' : Router U N C} {c : C}
    (h : r.receive n = some (c, r')) :
    work route cost units r' + cost n = work route cost units r := by
  unfold receive at h
  cases hinbox : r.inbox n with
  | nil => simp [hinbox] at h
  | cons d cs =>
    simp only [hinbox] at h
    cases h
    have hsum := sum_inbox_update cost hunits hn r.inbox cs
    simp only [hinbox, List.length_cons, Nat.add_mul, Nat.one_mul] at hsum
    simp only [work]
    omega

end

end Router

end Lib
