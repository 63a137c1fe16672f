import Cascade.Center

/-!
# The link between zones and policies

A zone holds the version of its policy, and the policy lists the zone: the link is stored on both
sides.  `policyName` reads the side of the zones and `Uses` the side of the policies, and a state
is linked when the two agree.  The operations on the registry are described by what they do to each
side, so that each of them keeps the link by `linked_iff` alone.
-/

namespace Cascade

open Lib

namespace State

/-- The name of the policy that a zone uses. -/
def policyName (s : State) (n : Name) : Option String :=
  ((s.zones.lookup n).bind ZoneState.policy).map PolicyVersion.name

/-- The policy stored under `k` lists the zone `n`. -/
def Uses (s : State) (k : String) (n : Name) : Prop :=
  ∃ q, s.policies.lookup k = some q ∧ n ∈ q.zones

/-- What the policy stored under `k` is, apart from its zones. -/
def header (s : State) (k : String) : Option (PolicyVersion × Bool) :=
  (s.policies.lookup k).map (fun q ↦ (q.latest, q.midDeletion))

/-- Every zone's policy exists and lists the zone, and every zone that a policy lists is known and
uses that policy. -/
structure Linked (s : State) : Prop where
  policyOfZone : ∀ n z p, s.zones.lookup n = some z → z.policy = some p →
    ∃ q, s.policies.lookup p.name = some q ∧ n ∈ q.zones
  zoneOfPolicy : ∀ k q n, s.policies.lookup k = some q → n ∈ q.zones →
    ∃ z p, s.zones.lookup n = some z ∧ z.policy = some p ∧ p.name = k

/-- Every policy is stored under its own name. -/
def Keyed (s : State) : Prop := ∀ k q, s.policies.lookup k = some q → q.latest.name = k

theorem policyName_eq_some {s : State} {n : Name} {k : String} :
    s.policyName n = some k ↔
      ∃ z p, s.zones.lookup n = some z ∧ z.policy = some p ∧ p.name = k := by
  unfold policyName
  rw [Option.map_eq_some_iff]
  simp only [Option.bind_eq_some_iff]
  refine ⟨?_, ?_⟩
  · intro h
    rcases h with ⟨p, ⟨z, hz, hp⟩, hk⟩
    exact ⟨z, p, hz, hp, hk⟩
  · intro h
    rcases h with ⟨z, p, hz, hp, hk⟩
    exact ⟨p, ⟨z, hz, hp⟩, hk⟩

theorem linked_iff {s : State} : s.Linked ↔ ∀ n k, s.policyName n = some k ↔ s.Uses k n := by
  refine ⟨?_, ?_⟩
  · intro hlinked n k
    rw [policyName_eq_some]
    refine ⟨?_, ?_⟩
    · intro h
      rcases h with ⟨z, p, hz, hp, hk⟩
      subst hk
      exact hlinked.policyOfZone n z p hz hp
    · intro h
      rcases h with ⟨q, hq, hn⟩
      exact hlinked.zoneOfPolicy k q n hq hn
  · intro h
    refine ⟨?_, ?_⟩
    · intro n z p hz hp
      exact (h n p.name).mp (policyName_eq_some.mpr ⟨z, p, hz, hp, rfl⟩)
    · intro k q n hq hn
      exact policyName_eq_some.mp ((h n k).mpr ⟨q, hq, hn⟩)

theorem linked_new (config : Config) : (State.new config).Linked := by
  refine ⟨?_, ?_⟩
  · intro n z p hz
    simp [State.new] at hz
  · intro k q n hq
    simp [State.new] at hq

-- A policy is used by the one zone name that it is listed under.
theorem Linked.uses_unique {s : State} (h : s.Linked) {k k' : String} {n : Name}
    (hk : s.Uses k n) (hk' : s.Uses k' n) : k = k' := by
  have h1 := (linked_iff.mp h n k).mpr hk
  have h2 := (linked_iff.mp h n k').mpr hk'
  rw [h1] at h2
  exact Option.some.inj h2

end State

/-! ## Setting one zone or one policy -/

namespace Center

@[simp] theorem send_state (c : Center) (u : Update) : (c.send u).state = c.state := rfl

@[simp] theorem setZone_zones (c : Center) (n : Name) (z : ZoneState) :
    (c.setZone n z).state.zones = c.state.zones.insert n z := rfl

@[simp] theorem setZone_policies (c : Center) (n : Name) (z : ZoneState) :
    (c.setZone n z).state.policies = c.state.policies := rfl

@[simp] theorem setPolicy_zones (c : Center) (k : String) (q : Policy) :
    (c.setPolicy k q).state.zones = c.state.zones := rfl

@[simp] theorem setPolicy_policies (c : Center) (k : String) (q : Policy) :
    (c.setPolicy k q).state.policies = c.state.policies.insert k q := rfl

@[simp] theorem markDirty_zones (c : Center) : c.markDirty.state.zones = c.state.zones := by
  unfold markDirty
  split <;> rfl

@[simp] theorem markDirty_policies (c : Center) :
    c.markDirty.state.policies = c.state.policies := by
  unfold markDirty
  split <;> rfl

@[simp] theorem markZoneDirty_policies (c : Center) (n : Name) (z : ZoneState) :
    (c.markZoneDirty n z).state.policies = c.state.policies := by
  unfold markZoneDirty
  split <;> rfl

-- Setting the state of a zone changes the policy of that zone only.
theorem policyName_setZone (c : Center) (n m : Name) (z : ZoneState) :
    (c.setZone n z).state.policyName m =
      if m = n then z.policy.map PolicyVersion.name else c.state.policyName m := by
  unfold State.policyName
  rw [setZone_zones]
  by_cases h : m = n
  · subst h
    simp
  · simp [h]

theorem policyName_markZoneDirty (c : Center) (n m : Name) (z : ZoneState) :
    (c.markZoneDirty n z).state.policyName m =
      if m = n then z.policy.map PolicyVersion.name else c.state.policyName m := by
  unfold markZoneDirty
  split
  · exact policyName_setZone c n m z
  · exact policyName_setZone c n m { z with enqueuedSave := some c.nextTask }

theorem uses_setPolicy (c : Center) (k k' : String) (q : Policy) (m : Name) :
    (c.setPolicy k q).state.Uses k' m ↔ if k' = k then m ∈ q.zones else c.state.Uses k' m := by
  unfold State.Uses
  rw [setPolicy_policies]
  by_cases h : k' = k
  · subst h
    simp
  · simp [h]

-- Changing the zones of a policy changes no header.
theorem header_setPolicy {c : Center} {k : String} {q q' : Policy}
    (hq : c.state.policies.lookup k = some q) (hlatest : q'.latest = q.latest)
    (hmid : q'.midDeletion = q.midDeletion) :
    (c.setPolicy k q').state.header = c.state.header := by
  funext k'
  unfold State.header
  rw [setPolicy_policies]
  by_cases hk : k' = k
  · subst hk
    simp [hq, hlatest, hmid]
  · simp [hk]

end Center

namespace State

-- Both sides depend on the maps only.
theorem policyName_congr {s s' : State} (h : s'.zones = s.zones) (n : Name) :
    s'.policyName n = s.policyName n := by
  unfold policyName
  rw [h]

theorem header_congr {s s' : State} (h : s'.policies = s.policies) : s'.header = s.header := by
  unfold header
  rw [h]

theorem uses_congr {s s' : State} (h : s'.policies = s.policies) (k : String) (n : Name) :
    s'.Uses k n ↔ s.Uses k n := by
  unfold Uses
  rw [h]

end State

/-! ## The operations -/

-- A new zone has no policy, so adding one changes no zone's policy.
theorem policyName_addZone (c : Center) (n m : Name) :
    (addZone c n).2.state.policyName m = c.state.policyName m := by
  unfold addZone
  split
  · rfl
  next hn =>
    simp only
    rw [Center.policyName_markZoneDirty]
    by_cases h : m = n
    · subst h
      have hnone : c.state.zones.lookup m = none := AList.lookup_eq_none.mpr hn
      simp [State.policyName, hnone]
    · rw [if_neg h, State.policyName_congr (Center.markDirty_zones _), Center.send_state,
        Center.policyName_setZone, if_neg h]

@[simp] theorem addZone_policies (c : Center) (n : Name) :
    (addZone c n).2.state.policies = c.state.policies := by
  unfold addZone
  split <;> simp

theorem mem_zones_addZone (c : Center) (n m : Name) :
    m ∈ (addZone c n).2.state.zones ↔ m = n ∨ m ∈ c.state.zones := by
  unfold addZone
  split
  next hn =>
    refine ⟨Or.inr, ?_⟩
    intro h
    rcases h with h | h
    · rw [h]
      exact hn
    · exact h
  · simp [Center.markZoneDirty]

-- Taking a zone out of the policy it uses takes it out of every policy.
theorem uses_erase {c : Center} {n : Name} {z : ZoneState} {version : PolicyVersion} {q : Policy}
    (hlinked : c.state.Linked) (hz : c.state.zones.lookup n = some z)
    (hp : z.policy = some version) (hq : c.state.policies.lookup version.name = some q)
    (k : String) (m : Name) :
    (c.setPolicy version.name { q with zones := q.zones.erase n }).state.Uses k m ↔
      m ≠ n ∧ c.state.Uses k m := by
  have huses : c.state.Uses version.name n :=
    (State.linked_iff.mp hlinked n version.name).mp
      (State.policyName_eq_some.mpr ⟨z, version, hz, hp, rfl⟩)
  rw [Center.uses_setPolicy]
  by_cases hk : k = version.name
  · subst hk
    rw [if_pos rfl]
    simp [State.Uses, hq, AList.mem_erase]
  · rw [if_neg hk]
    refine ⟨?_, fun h ↦ h.2⟩
    intro h
    refine ⟨?_, h⟩
    intro hm
    subst hm
    exact hk (hlinked.uses_unique h huses)

-- Unlinking a zone takes it out of the policies, and does nothing else.
theorem unlinkPolicy_spec {c : Center} {n : Name} {z : ZoneState} (hlinked : c.state.Linked)
    (hz : c.state.zones.lookup n = some z) :
    ∃ c1, unlinkPolicy c n z = .ok c1 ∧ c1.state.zones = c.state.zones ∧
      c1.state.header = c.state.header ∧
      ∀ k m, c1.state.Uses k m ↔ m ≠ n ∧ c.state.Uses k m := by
  unfold unlinkPolicy
  cases hp : z.policy with
  | none =>
    refine ⟨c, rfl, rfl, rfl, ?_⟩
    intro k m
    refine ⟨?_, fun h ↦ h.2⟩
    intro h
    refine ⟨?_, h⟩
    intro hm
    subst hm
    have hname := (State.linked_iff.mp hlinked m k).mpr h
    simp [State.policyName, hz, hp] at hname
  | some version =>
    rcases hlinked.policyOfZone n z version hz hp with ⟨q, hq, hn⟩
    refine ⟨c.setPolicy version.name { q with zones := q.zones.erase n }, ?_, rfl,
      Center.header_setPolicy hq rfl rfl, uses_erase hlinked hz hp hq⟩
    simp only [hq, expect_some, ok_bind, hn, decide_true, assertThat_true]

-- On a linked state `remove_zone` does not panic, and takes the zone out of both sides.
theorem removeZone_spec (c : Center) (n : Name) (hlinked : c.state.Linked) :
    ∃ r c', removeZone c n = .ok (r, c') ∧
      (∀ m, c'.state.zones.lookup m = if m = n then none else c.state.zones.lookup m) ∧
      c'.state.header = c.state.header ∧
      ∀ k m, c'.state.Uses k m ↔ m ≠ n ∧ c.state.Uses k m := by
  have hlookup : ∀ m, (c.state.zones.erase n).lookup m =
      if m = n then none else c.state.zones.lookup m := by
    intro m
    by_cases hm : m = n
    · subst hm
      simp
    · simp [hm]
  -- a zone without a policy is listed by none
  have hunused : c.state.policyName n = none →
      ∀ k m, c.state.Uses k m ↔ m ≠ n ∧ c.state.Uses k m := by
    intro hnone k m
    refine ⟨?_, fun h ↦ h.2⟩
    intro h
    refine ⟨?_, h⟩
    intro hm
    subst hm
    rw [(State.linked_iff.mp hlinked m k).mpr h] at hnone
    cases hnone
  unfold removeZone
  simp only [Center.send_state]
  cases hz : c.state.zones.lookup n with
  | none =>
    refine ⟨_, _, rfl, ?_, rfl, hunused (by simp [State.policyName, hz])⟩
    intro m
    by_cases hm : m = n
    · subst hm
      rw [if_pos rfl]
      exact hz
    · rw [if_neg hm]
      rfl
  | some z =>
    simp only
    cases hp : z.policy with
    | none =>
      exact ⟨_, _, rfl, hlookup, rfl, hunused (by simp [State.policyName, hz, hp])⟩
    | some version =>
      rcases hlinked.policyOfZone n z version hz hp with ⟨q, hq, hn⟩
      simp only [hq, expect_some, ok_bind, hn, decide_true, assertThat_true]
      refine ⟨_, _, rfl, ?_, ?_, ?_⟩
      · simpa using hlookup
      · rw [State.header_congr (Center.markDirty_policies _)]
        exact Center.header_setPolicy (c := { c with
          state := { c.state with zones := c.state.zones.erase n } }) hq rfl rfl
      · intro k m
        rw [State.uses_congr (Center.markDirty_policies _)]
        exact uses_erase hlinked hz hp hq k m

theorem removeZone_policyName {c c' : Center} {n : Name}
    (h : ∀ m, c'.state.zones.lookup m = if m = n then none else c.state.zones.lookup m)
    (m : Name) : c'.state.policyName m = if m = n then none else c.state.policyName m := by
  unfold State.policyName
  rw [h m]
  by_cases hm : m = n
  · simp [hm]
  · simp [hm]

-- Linking a zone sets both sides for that zone, under the policy's own name on the one side and
-- under the name it is stored under on the other.
theorem linkPolicy_spec {c : Center} {n : Name} {z : ZoneState} {k0 : String} {q : Policy}
    (hq : c.state.policies.lookup k0 = some q) (hmid : q.midDeletion = false) :
    ∃ c', linkPolicy c n z k0 = (.ok (), c') ∧
      (∀ m, m ∈ c'.state.zones ↔ m = n ∨ m ∈ c.state.zones) ∧
      (∀ m, c'.state.policyName m =
        if m = n then some q.latest.name else c.state.policyName m) ∧
      c'.state.header = c.state.header ∧
      ∀ k m, c'.state.Uses k m ↔ m = n ∧ k = k0 ∨ c.state.Uses k m := by
  simp only [linkPolicy, hq, hmid, Bool.false_eq_true, if_false]
  refine ⟨_, rfl, ?_, ?_, ?_, ?_⟩
  · intro m
    unfold Center.markZoneDirty
    split <;> simp
  · intro m
    rw [Center.policyName_markZoneDirty]
    rfl
  · rw [State.header_congr (Center.markZoneDirty_policies _ _ _)]
    exact Center.header_setPolicy hq rfl hmid.symm
  · intro k m
    rw [State.uses_congr (Center.markZoneDirty_policies _ _ _), Center.send_state,
      Center.uses_setPolicy]
    by_cases hk : k = k0
    · subst hk
      simp [State.Uses, hq]
    · simp [hk]

-- On a linked state `change_policy` does not panic. When it fails nothing has changed, and the zone
-- or the policy is missing or the policy is being deleted; when it succeeds the zone has moved to
-- the policy.
theorem changePolicy_spec (c : Center) (n : Name) (k0 : String) (hlinked : c.state.Linked) :
    ∃ r c', changePolicy c n k0 = .ok (r, c') ∧
      (c' = c ∧ (n ∈ c.state.zones → ∀ q, c.state.policies.lookup k0 = some q →
          q.midDeletion = true) ∨
        r = .ok () ∧ n ∈ c.state.zones ∧
          ∃ q, c.state.policies.lookup k0 = some q ∧ q.midDeletion = false ∧
            (∀ m, m ∈ c'.state.zones ↔ m ∈ c.state.zones) ∧
            (∀ m, c'.state.policyName m =
              if m = n then some q.latest.name else c.state.policyName m) ∧
            c'.state.header = c.state.header ∧
            ∀ k m, c'.state.Uses k m ↔ m = n ∧ k = k0 ∨ m ≠ n ∧ c.state.Uses k m) := by
  unfold changePolicy
  cases hz : c.state.zones.lookup n with
  | none =>
    have hmissing : n ∉ c.state.zones := AList.lookup_eq_none.mp hz
    exact ⟨_, _, rfl, Or.inl ⟨rfl, fun hn ↦ absurd hn hmissing⟩⟩
  | some z =>
    cases hq : c.state.policies.lookup k0 with
    | none => exact ⟨_, _, rfl, Or.inl ⟨rfl, fun _ q h ↦ by cases h⟩⟩
    | some q =>
      simp only
      cases hmid : q.midDeletion with
      | true =>
        refine ⟨_, _, rfl, Or.inl ⟨rfl, ?_⟩⟩
        intro _ q' hq'
        rw [← Option.some.inj hq']
        exact hmid
      | false =>
        have hn : n ∈ c.state.zones := HashMap.mem_iff_lookup.mpr ⟨z, hz⟩
        rcases unlinkPolicy_spec hlinked hz with ⟨c1, h1, hzones, hheader, huses⟩
        -- the selected policy is still there after the unlinking
        have hq1 : c1.state.header k0 = some (q.latest, false) := by
          rw [hheader]
          simp [State.header, hq, hmid]
        rcases Option.map_eq_some_iff.mp hq1 with ⟨q1, hlookup, hq1⟩
        injection hq1 with hlatest hmid1
        let c2 := c1.setZone n { z with policy := none }
        have hlookup2 : c2.state.policies.lookup k0 = some q1 := hlookup
        rcases linkPolicy_spec (c := c2) (n := n) (z := { z with policy := none }) hlookup2 hmid1
          with ⟨c', hlink, hmem', hname', hheader', huses'⟩
        simp only [Bool.false_eq_true, if_false, h1, ok_bind]
        refine ⟨_, c', congrArg Except.ok hlink, Or.inr ⟨rfl, hn, q, rfl, hmid, ?_, ?_, ?_, ?_⟩⟩
        · intro m
          rw [hmem']
          simp only [c2, Center.setZone_zones, AList.mem_insert, hzones]
          refine ⟨?_, fun h ↦ Or.inr (Or.inr h)⟩
          intro h
          rcases h with h | h | h
          · exact h ▸ hn
          · exact h ▸ hn
          · exact h
        · intro m
          rw [hname', hlatest]
          by_cases hm : m = n
          · simp [hm]
          · rw [if_neg hm, if_neg hm, Center.policyName_setZone, if_neg hm,
              State.policyName_congr hzones]
        · rw [hheader', State.header_congr (Center.setZone_policies _ _ _), hheader]
        · intro k m
          rw [huses', State.uses_congr (Center.setZone_policies _ _ _), huses]

/-! ## Live operations keep the link -/

theorem addZone_linked {c : Center} (n : Name) (h : c.state.Linked) :
    (addZone c n).2.state.Linked := by
  rw [State.linked_iff]
  intro m k
  rw [policyName_addZone, State.uses_congr (addZone_policies c n)]
  exact State.linked_iff.mp h m k

theorem removeZone_linked {c c' : Center} {n : Name} {r : Except ZoneRemoveError Unit}
    (h : c.state.Linked) (hrun : removeZone c n = .ok (r, c')) : c'.state.Linked := by
  rcases removeZone_spec c n h with ⟨r1, c1, hrun1, hzones, -, huses⟩
  rw [hrun] at hrun1
  cases hrun1
  rw [State.linked_iff]
  intro m k
  rw [removeZone_policyName hzones, huses]
  by_cases hm : m = n
  · simp [hm]
  · simp only [hm, if_false, ne_eq, not_false_eq_true, true_and]
    exact State.linked_iff.mp h m k

theorem changePolicy_linked {c c' : Center} {n : Name} {k0 : String}
    {r : Except ChangePolicyError Unit} (h : c.state.Linked) (hkeyed : c.state.Keyed)
    (hrun : changePolicy c n k0 = .ok (r, c')) : c'.state.Linked := by
  rcases changePolicy_spec c n k0 h with ⟨r1, c1, hrun1, hcases⟩
  rw [hrun] at hrun1
  cases hrun1
  rcases hcases with ⟨hsame, -⟩ | ⟨-, -, q, hq, -, -, hname, -, huses⟩
  · rw [hsame]
    exact h
  · rw [State.linked_iff]
    intro m k
    rw [hname, huses, hkeyed k0 q hq]
    by_cases hm : m = n
    · simp [hm, eq_comm]
    · simp only [hm, if_false, false_and, ne_eq, not_false_eq_true, true_and, false_or]
      exact State.linked_iff.mp h m k

end Cascade
