import Cascade.Maintainer

/-!
# Asking the primaries of a zone

The loop of `refresh_zone` over the primaries of a secondary zone.  What a contact with one of them
comes to, and what it changes, is given by a function, so that all outcomes are possible in every
order; the loop is shown to combine them.
-/

namespace Cascade

open Lib

/-- The texts are those of errors of other libraries. -/
inductive ZoneMaintainerError
  | NotRunning
  | InternalError (err : String)
  | UnknownZone
  | RequestError (err : String)
  | ResponseError (rcode : UInt16)
  | IoError (err : String)
  | ConnectionError (err : String)
  | NoConnectionAvailable
  | IxfrResponseTooLargeForUdp
  | IncompleteResponse
  | ProcessingError (err : String)
  | ZoneUpdateError (err : String)
deriving DecidableEq

namespace Primaries

abbrev Outcome := Except ZoneMaintainerError (Option Soa)

/-- A transfer brought a newer version. -/
def isNewer : Outcome → Bool
  | .ok (some _) => true
  | _ => false

/-- No transfer was needed or allowed. -/
def isUpToDate : Outcome → Bool
  | .ok none => true
  | _ => false

/-- A call of `refresh_zone`: its result, which is `none` for the panic of `saved_err.unwrap()`, the
contacts made with their outcomes, and what they have changed. -/
structure Visits (σ : Type) where
  result : Option Outcome
  made : List (SocketAddr × Outcome)
  state : σ

def Visits.after {σ : Type} (r : Visits σ) (addr : SocketAddr) (outcome : Outcome) : Visits σ :=
  { r with made := (addr, outcome) :: r.made }

variable {σ : Type}

/-- The loop over the primaries. -/
def visitPrimaries (requestXfrFrom : SrcDstConfig XfrConfig)
    (contact : σ → SocketAddr → XfrConfig → Outcome × σ) :
    List SocketAddr → Nat → Option ZoneMaintainerError → σ → Visits σ
  | [], numOkPrimaries, savedErr, s =>
    if 0 < numOkPrimaries then ⟨some (.ok none), [], s⟩
    else ⟨savedErr.map .error, [], s⟩
  | primaryAddr :: primaryAddrs, numOkPrimaries, savedErr, s =>
    match SrcDstConfig.dst requestXfrFrom primaryAddr with
    | none => visitPrimaries requestXfrFrom contact primaryAddrs numOkPrimaries savedErr s
    | some xfrConfig =>
      match contact s primaryAddr xfrConfig with
      | (.ok (some soa), s) =>
        ⟨some (.ok (some soa)), [(primaryAddr, .ok (some soa))], s⟩
      | (.ok none, s) =>
        (visitPrimaries requestXfrFrom contact primaryAddrs (numOkPrimaries + 1) savedErr s).after
          primaryAddr (.ok none)
      | (.error err, s) =>
        (visitPrimaries requestXfrFrom contact primaryAddrs numOkPrimaries (some err) s).after
          primaryAddr (.error err)

/-- In seconds. -/
def minDurationBetweenZoneRefreshes : Nat := 0

/-- `age` is the time since the last refresh, `soa` the zone's own SOA record as it is looked up.
There is one strategy for several primaries, so the assertion on it holds. -/
def refreshZone (config : ZoneConfig) (initialXfrAddr : Option SocketAddr) (age : Option Nat)
    (soa : Except Unit (Option Soa))
    (contact : Option Serial → σ → SocketAddr → XfrConfig → Outcome × σ) (s : σ) : Visits σ :=
  if age.any (fun age ↦ decide (age < minDurationBetweenZoneRefreshes)) then
    ⟨some (.ok none), [], s⟩
  else
    match soa with
    | .error () =>
      ⟨some (.error (.InternalError
        "Unable to read SOA for zone when checking if zone refresh is needed")), [], s⟩
    | .ok soa =>
      let currentSerial := soa.map Soa.serial
      let primaryAddrs := initialXfrAddr.toList ++ SrcDstConfig.addrs config.requestXfrFrom
      visitPrimaries config.requestXfrFrom (contact currentSerial) primaryAddrs 0 none s

/-! ## The combined outcome -/

/-- The first newer version met; or else that the zone is up to date, when a primary said so; or else
the last error. -/
def combine (outcomes : List Outcome) : Option Outcome :=
  match outcomes.find? isNewer with
  | some outcome => some outcome
  | none => if outcomes.any isUpToDate then some (.ok none) else outcomes.getLast?

-- By induction on the primaries left: the counter and the saved error stand for the outcomes so far.
theorem visitPrimaries_result (requestXfrFrom : SrcDstConfig XfrConfig)
    (contact : σ → SocketAddr → XfrConfig → Outcome × σ) (addrs : List SocketAddr)
    {numOk : Nat} {savedErr : Option ZoneMaintainerError} (s : σ) (past : List Outcome)
    (hnewer : past.find? isNewer = none) (hnum : 0 < numOk ↔ past.any isUpToDate = true)
    (herr : past.any isUpToDate = false → savedErr.map .error = past.getLast?) :
    (visitPrimaries requestXfrFrom contact addrs numOk savedErr s).result =
      combine (past ++
        (visitPrimaries requestXfrFrom contact addrs numOk savedErr s).made.map Prod.snd) := by
  induction addrs generalizing numOk savedErr s past with
  | nil =>
    rw [visitPrimaries]
    by_cases hok : 0 < numOk
    · rw [if_pos hok]
      simp [combine, hnewer, hnum.mp hok]
    · rw [if_neg hok]
      have hnone : past.any isUpToDate = false := Bool.eq_false_iff.mpr (fun h ↦ hok (hnum.mpr h))
      simp [combine, hnewer, hnone, herr hnone]
  | cons addr addrs ih =>
    rw [visitPrimaries]
    cases SrcDstConfig.dst requestXfrFrom addr with
    | none => exact ih s past hnewer hnum herr
    | some config =>
      simp only
      cases hcontact : contact s addr config with
      | mk outcome s' =>
        cases outcome with
        | error err =>
          simp only [Visits.after, List.map_cons]
          rw [List.append_cons]
          apply ih s'
          · rw [List.find?_append, hnewer]
            rfl
          · rw [hnum, List.any_append]
            simp [isUpToDate]
          · intro _
            rw [List.getLast?_concat]
            rfl
        | ok soa =>
          cases soa with
          | some soa =>
            show some (Except.ok (some soa)) = combine (past ++ [.ok (some soa)])
            unfold combine
            rw [List.find?_append, hnewer]
            rfl
          | none =>
            simp only [Visits.after, List.map_cons]
            rw [List.append_cons]
            apply ih s'
            · rw [List.find?_append, hnewer]
              rfl
            · rw [List.any_append]
              simp [isUpToDate]
            · intro hnone
              rw [List.any_append] at hnone
              simp [isUpToDate] at hnone

/-- The primaries in the order in which they are visited. -/
def visited (config : ZoneConfig) (initialXfrAddr : Option SocketAddr) : List SocketAddr :=
  (initialXfrAddr.toList ++ SrcDstConfig.addrs config.requestXfrFrom).filter
    (fun addr ↦ (SrcDstConfig.dst config.requestXfrFrom addr).isSome)

/-- The contacts follow the list of addresses, up to its end or a newer version. -/
structure Visits.Follows (r : Visits σ) (addrs : List SocketAddr) : Prop where
  inOrder : r.made.map Prod.fst <+: addrs
  stops : ∀ v ∈ r.made.dropLast, isNewer v.2 = false
  complete : (∀ v ∈ r.made, isNewer v.2 = false) → r.made.map Prod.fst = addrs

theorem Visits.Follows.after {r : Visits σ} {addrs : List SocketAddr} (h : r.Follows addrs)
    (addr : SocketAddr) {outcome : Outcome} (hout : isNewer outcome = false) :
    (r.after addr outcome).Follows (addr :: addrs) where
  inOrder := (List.prefix_cons_inj addr).mpr h.inOrder
  stops := by
    intro v hv
    simp only [Visits.after] at hv
    cases hmade : r.made with
    | nil => simp [hmade] at hv
    | cons first later =>
      rw [hmade, List.dropLast_cons_of_ne_nil (List.cons_ne_nil _ _), ← hmade] at hv
      cases List.mem_cons.mp hv with
      | inl hfirst =>
        rw [hfirst]
        exact hout
      | inr hv => exact h.stops v hv
  complete := by
    intro hall
    have hrest := h.complete (fun v hv ↦ hall v (List.mem_cons_of_mem _ hv))
    simp only [Visits.after, List.map_cons, hrest]

theorem visitPrimaries_follows (requestXfrFrom : SrcDstConfig XfrConfig)
    (contact : σ → SocketAddr → XfrConfig → Outcome × σ) (addrs : List SocketAddr)
    (numOk : Nat) (savedErr : Option ZoneMaintainerError) (s : σ) :
    (visitPrimaries requestXfrFrom contact addrs numOk savedErr s).Follows
      (addrs.filter (fun addr ↦ (SrcDstConfig.dst requestXfrFrom addr).isSome)) := by
  induction addrs generalizing numOk savedErr s with
  | nil =>
    rw [visitPrimaries]
    split
    · exact ⟨List.prefix_rfl, by simp, fun _ ↦ rfl⟩
    · exact ⟨List.prefix_rfl, by simp, fun _ ↦ rfl⟩
  | cons addr addrs ih =>
    rw [visitPrimaries]
    cases hdst : SrcDstConfig.dst requestXfrFrom addr with
    | none =>
      rw [List.filter_cons_of_neg (by simp [hdst])]
      exact ih numOk savedErr s
    | some config =>
      rw [List.filter_cons_of_pos (by simp [hdst])]
      simp only
      cases hcontact : contact s addr config with
      | mk outcome s' =>
        cases outcome with
        | error err => exact (ih numOk (some err) s').after addr rfl
        | ok soa =>
          cases soa with
          | none => exact (ih (numOk + 1) savedErr s').after addr rfl
          | some soa =>
            refine ⟨(List.prefix_cons_inj addr).mpr List.nil_prefix, by simp, ?_⟩
            intro hall
            exact absurd (hall _ List.mem_cons_self) (by simp [isNewer])

/-- Contacts made one after the other, each from the state that the one before has left: `made` are
their outcomes. -/
inductive Contacted (requestXfrFrom : SrcDstConfig XfrConfig)
    (contact : σ → SocketAddr → XfrConfig → Outcome × σ) :
    σ → List (SocketAddr × Outcome) → σ → Prop
  | done {s : σ} : Contacted requestXfrFrom contact s [] s
  | next {s s' : σ} {addr : SocketAddr} {config : XfrConfig} {made : List (SocketAddr × Outcome)} :
      SrcDstConfig.dst requestXfrFrom addr = some config →
      Contacted requestXfrFrom contact (contact s addr config).2 made s' →
      Contacted requestXfrFrom contact s ((addr, (contact s addr config).1) :: made) s'

theorem visitPrimaries_contacted (requestXfrFrom : SrcDstConfig XfrConfig)
    (contact : σ → SocketAddr → XfrConfig → Outcome × σ) (addrs : List SocketAddr)
    (numOk : Nat) (savedErr : Option ZoneMaintainerError) (s : σ) :
    Contacted requestXfrFrom contact s
      (visitPrimaries requestXfrFrom contact addrs numOk savedErr s).made
      (visitPrimaries requestXfrFrom contact addrs numOk savedErr s).state := by
  induction addrs generalizing numOk savedErr s with
  | nil =>
    rw [visitPrimaries]
    split
    · exact .done
    · exact .done
  | cons addr addrs ih =>
    rw [visitPrimaries]
    cases hdst : SrcDstConfig.dst requestXfrFrom addr with
    | none => exact ih numOk savedErr s
    | some config =>
      simp only
      cases hcontact : contact s addr config with
      | mk outcome s' =>
        have hlater : ∀ {made : List (SocketAddr × Outcome)} {s'' : σ},
            Contacted requestXfrFrom contact s' made s'' →
            Contacted requestXfrFrom contact s ((addr, outcome) :: made) s'' := by
          intro made s'' hmade
          have hstep := @Contacted.next σ requestXfrFrom contact s s'' addr config made hdst
          rw [hcontact] at hstep
          exact hstep hmade
        cases outcome with
        | error err => exact hlater (ih numOk (some err) s')
        | ok soa =>
          cases soa with
          | none => exact hlater (ih (numOk + 1) savedErr s')
          | some soa => exact hlater .done

-- What contacts keep that do not bring a newer version is kept by a call that does not.
theorem visitPrimaries_invariant {requestXfrFrom : SrcDstConfig XfrConfig}
    {contact : σ → SocketAddr → XfrConfig → Outcome × σ} {P : σ → Prop}
    (hcontact : ∀ s addr config, P s → isNewer (contact s addr config).1 = false →
      P (contact s addr config).2) (addrs : List SocketAddr) (numOk : Nat)
    (savedErr : Option ZoneMaintainerError) {s : σ} (hs : P s)
    (hresult : ∀ soa, (visitPrimaries requestXfrFrom contact addrs numOk savedErr s).result ≠
      some (.ok (some soa))) :
    P (visitPrimaries requestXfrFrom contact addrs numOk savedErr s).state := by
  induction addrs generalizing numOk savedErr s with
  | nil =>
    rw [visitPrimaries]
    split
    · exact hs
    · exact hs
  | cons addr addrs ih =>
    rw [visitPrimaries] at hresult ⊢
    cases hdst : SrcDstConfig.dst requestXfrFrom addr with
    | none =>
      simp only [hdst] at hresult ⊢
      exact ih numOk savedErr hs hresult
    | some config =>
      simp only [hdst] at hresult ⊢
      have hkept := hcontact s addr config hs
      cases hoc : contact s addr config with
      | mk outcome s' =>
        rw [hoc] at hkept
        simp only [hoc] at hresult ⊢
        cases outcome with
        | error err => exact ih numOk (some err) (hkept rfl) hresult
        | ok soa =>
          cases soa with
          | none => exact ih (numOk + 1) savedErr (hkept rfl) hresult
          | some soa => exact absurd rfl (hresult soa)

-- The check of the age never applies.
theorem refreshZone_eq (config : ZoneConfig) (initialXfrAddr : Option SocketAddr)
    (age : Option Nat) (soa : Option Soa)
    (contact : Option Serial → σ → SocketAddr → XfrConfig → Outcome × σ) (s : σ) :
    refreshZone config initialXfrAddr age (.ok soa) contact s =
      visitPrimaries config.requestXfrFrom (contact (soa.map Soa.serial))
        (initialXfrAddr.toList ++ SrcDstConfig.addrs config.requestXfrFrom) 0 none s := by
  unfold refreshZone
  rw [if_neg]
  cases age with
  | none => simp
  | some age => simp [minDurationBetweenZoneRefreshes]

theorem mem_visited_iff (config : ZoneConfig) (initialXfrAddr : Option SocketAddr)
    (addr : SocketAddr) : addr ∈ visited config initialXfrAddr ↔ addr ∈ config.requestXfrFrom := by
  have hmem : addr ∈ config.requestXfrFrom ↔
      (SrcDstConfig.dst config.requestXfrFrom addr).isSome = true := AList.lookup_isSome.symm
  have hkeys : addr ∈ SrcDstConfig.addrs config.requestXfrFrom ↔ addr ∈ config.requestXfrFrom :=
    Iff.rfl
  unfold visited
  rw [List.mem_filter, List.mem_append, ← hmem, hkeys]
  tauto

theorem visited_ne_nil {config : ZoneConfig} (h : config.isSecondary = true)
    (initialXfrAddr : Option SocketAddr) : visited config initialXfrAddr ≠ [] := by
  have hne : config.requestXfrFrom.keys ≠ [] := by
    intro hkeys
    have hentries : config.requestXfrFrom.entries = [] := List.map_eq_nil_iff.mp hkeys
    simp [ZoneConfig.isSecondary, HashMap.isEmpty, hentries] at h
  obtain ⟨addr, haddr⟩ := List.exists_mem_of_ne_nil _ hne
  exact List.ne_nil_of_mem ((mem_visited_iff config initialXfrAddr addr).mpr haddr)

-- Only without a newer version and without a primary that says that there is none the last error
-- counts; then all outcomes are errors.
theorem combine_isSome {outcomes : List Outcome} (h : outcomes ≠ []) :
    (combine outcomes).isSome = true := by
  unfold combine
  cases outcomes.find? isNewer with
  | some outcome => rfl
  | none =>
    simp only
    split
    · rfl
    · rw [List.getLast?_eq_some_getLast h]
      rfl

section

variable (config : ZoneConfig) (initialXfrAddr : Option SocketAddr) (age : Option Nat)
  (soa : Option Soa) (contact : Option Serial → σ → SocketAddr → XfrConfig → Outcome × σ) (s : σ)

theorem refreshZone_follows :
    (refreshZone config initialXfrAddr age (.ok soa) contact s).Follows
      (visited config initialXfrAddr) := by
  rw [refreshZone_eq]
  exact visitPrimaries_follows _ _ _ _ _ _

theorem refreshZone_contacted :
    let r := refreshZone config initialXfrAddr age (.ok soa) contact s
    Contacted config.requestXfrFrom (contact (soa.map Soa.serial)) s r.made r.state := by
  intro r
  have hr : r = _ := refreshZone_eq config initialXfrAddr age soa contact s
  rw [hr]
  exact visitPrimaries_contacted _ _ _ _ _ _

theorem refreshZone_result :
    (refreshZone config initialXfrAddr age (.ok soa) contact s).result =
      combine ((refreshZone config initialXfrAddr age (.ok soa) contact s).made.map Prod.snd) := by
  rw [refreshZone_eq]
  exact visitPrimaries_result _ _ _ s [] rfl (by simp) (fun _ ↦ rfl)

-- A secondary zone has a primary, and if nothing newer is met all are contacted.
theorem refreshZone_made_ne_nil (hsecondary : config.isSecondary = true) :
    (refreshZone config initialXfrAddr age (.ok soa) contact s).made ≠ [] := by
  intro hnil
  have hall := (refreshZone_follows config initialXfrAddr age soa contact s).complete
    (by simp [hnil])
  rw [hnil] at hall
  exact visited_ne_nil hsecondary initialXfrAddr hall.symm

theorem refreshZone_isSome (hsecondary : config.isSecondary = true) :
    (refreshZone config initialXfrAddr age (.ok soa) contact s).result.isSome = true := by
  rw [refreshZone_result]
  apply combine_isSome
  intro hnil
  exact refreshZone_made_ne_nil config initialXfrAddr age soa contact s hsecondary
    (List.map_eq_nil_iff.mp hnil)

end

/-- For every secondary zone, in every order of its primaries and whatever they answer: the outcomes
are those of contacts made one after the other, to its primaries only, to the source of a NOTIFY
first if it is one of them, and to nobody after a newer version was met; and the result is that
version, or that the zone is up to date if a primary said so, or else the last error.  So there is
one, and nothing panics. -/
theorem refreshZone_combines {config : ZoneConfig} (hsecondary : config.isSecondary = true)
    (initialXfrAddr : Option SocketAddr) (age : Option Nat) (soa : Option Soa)
    (contact : Option Serial → σ → SocketAddr → XfrConfig → Outcome × σ) (s : σ) :
    let r := refreshZone config initialXfrAddr age (.ok soa) contact s
    Contacted config.requestXfrFrom (contact (soa.map Soa.serial)) s r.made r.state ∧
      (∀ v ∈ r.made, v.1 ∈ config.requestXfrFrom) ∧
      (∀ addr, initialXfrAddr = some addr → addr ∈ config.requestXfrFrom →
        r.made.head?.map Prod.fst = some addr) ∧
      (∀ v ∈ r.made.dropLast, isNewer v.2 = false) ∧
      ((∀ v ∈ r.made, isNewer v.2 = false) →
        r.made.map Prod.fst = visited config initialXfrAddr) ∧
      r.result = combine (r.made.map Prod.snd) ∧ r.result.isSome = true := by
  intro r
  have hfollows : r.Follows (visited config initialXfrAddr) :=
    refreshZone_follows config initialXfrAddr age soa contact s
  have hne : r.made ≠ [] :=
    refreshZone_made_ne_nil config initialXfrAddr age soa contact s hsecondary
  refine ⟨refreshZone_contacted config initialXfrAddr age soa contact s, ?_, ?_, hfollows.stops,
    hfollows.complete, ?_, ?_⟩
  · intro v hv
    have hmem := hfollows.inOrder.mem (List.mem_map_of_mem hv)
    exact (mem_visited_iff config initialXfrAddr v.1).mp hmem
  · intro addr hinitial haddr
    have hfirst : ∃ rest, visited config initialXfrAddr = addr :: rest := by
      have hdst : (SrcDstConfig.dst config.requestXfrFrom addr).isSome = true :=
        AList.lookup_isSome.mpr haddr
      unfold visited
      rw [hinitial, Option.toList_some, List.cons_append]
      exact ⟨_, List.filter_cons_of_pos
        (p := fun addr ↦ (SrcDstConfig.dst config.requestXfrFrom addr).isSome) hdst⟩
    obtain ⟨rest, hrest⟩ := hfirst
    obtain ⟨v, later, hmade⟩ := List.exists_cons_of_ne_nil hne
    have hprefix := hfollows.inOrder
    rw [hrest, hmade, List.map_cons] at hprefix
    rw [hmade, List.head?_cons, Option.map_some, (List.cons_prefix_cons.mp hprefix).1]
  · exact refreshZone_result config initialXfrAddr age soa contact s
  · exact refreshZone_isSome config initialXfrAddr age soa contact s hsecondary

namespace TwoPrimaries

def first : SocketAddr := .V4 3221225985 53

def second : SocketAddr := .V4 3221225986 53

def config : ZoneConfig :=
  { requestXfrFrom := AList.insert first {} (AList.insert second {} ∅) }

/-- The second primary does not answer, the first has nothing new.  The contacts are counted. -/
def contact (_ : Option Serial) (n : Nat) (addr : SocketAddr) (_ : XfrConfig) : Outcome × Nat :=
  (if addr = second then .error .NoConnectionAvailable else .ok none, n + 1)

end TwoPrimaries

/-- A NOTIFY comes from the second of two primaries. -/
theorem notify_source_first :
    let r := refreshZone TwoPrimaries.config (some TwoPrimaries.second) none (.ok none)
      TwoPrimaries.contact 0
    r.made.head?.map Prod.fst = some TwoPrimaries.second ∧ r.state = 3 ∧
      r.result = combine (r.made.map Prod.snd) ∧ r.result = some (.ok none) := by
  have hall := refreshZone_combines (show TwoPrimaries.config.isSecondary = true by rfl)
    (some TwoPrimaries.second) none none TwoPrimaries.contact 0
  have hmem : TwoPrimaries.second ∈ TwoPrimaries.config.requestXfrFrom := by decide
  exact ⟨hall.2.2.1 TwoPrimaries.second rfl hmem, by rfl, hall.2.2.2.2.2.1, by rfl⟩

end Primaries

end Cascade
