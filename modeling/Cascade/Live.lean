import Cascade.Link
import Cascade.PolicyFile
import Cascade.Lib.Runs

/-!
# Live operations on the registry

While the daemon runs, zones are added and removed, zones change their policy and the policies are
reloaded from their files.  None of this breaks the link between zones and policies, so that none
of the assertions on it can fire.
-/

namespace Cascade

open Lib

/-- An operation on the registry; `reloadAll` comes with the contents of the policy directory. -/
inductive LiveOp
  | addZone (name : Name)
  | removeZone (name : Name)
  | changePolicy (name : Name) (policy : String)
  | reloadAll (entries : List (Except PolicyFile.IoErrorKind PolicyFile.DirEntry))

namespace LiveOp

/-- What the operation returns: an error of the operation is one of its results, and no state is
given for a reload that fails. -/
def run (c : Center) : LiveOp → Except String (Option Center)
  | .addZone name => .ok (some (Cascade.addZone c name).2)
  | .removeZone name => do
    let (_, c) ← Cascade.removeZone c name
    .ok (some c)
  | .changePolicy name policy => do
    let (_, c) ← Cascade.changePolicy c name policy
    .ok (some c)
  | .reloadAll entries => do
    match ← PolicyFile.reloadAll c.state.policies (.ok entries) with
    | (.ok (), policies) => .ok (some { c with state := { c.state with policies } })
    | (.error _, _) => .ok none

/-- No two policy files have the same stem. -/
def distinctStems : LiveOp → Bool
  | .reloadAll entries => decide (PolicyFile.policyNames entries).Nodup
  | _ => true

/-- One step of a run; a run ends when a reload fails. -/
def step (c : Center) (op : LiveOp) : Option Center :=
  match op.run c with
  | .ok c' => c'
  | .error _ => none

end LiveOp

/-! ## Reloading the policies -/

section

variable {s : State} {policies : HashMap String Policy}
  {files : List (Sigma fun _ : String ↦ PolicyFile.Spec)}
  (hlookup : ∀ k, policies.lookup k =
    match files.dlookup k with
    | some spec => some (PolicyFile.mergePolicy k spec (s.policies.lookup k)).1
    | none => (s.policies.lookup k).filter (fun policy ↦ !policy.zones.isEmpty))

include hlookup

-- A reload changes no policy's zones: what it merges keeps them, and what it makes or drops has
-- none.
theorem uses_reloadAll (k : String) (n : Name) :
    ({ s with policies } : State).Uses k n ↔ s.Uses k n := by
  unfold State.Uses
  show (∃ q, policies.lookup k = some q ∧ n ∈ q.zones) ↔ _
  rw [hlookup k]
  cases hfile : files.dlookup k with
  | none =>
    cases hq : s.policies.lookup k with
    | none => rfl
    | some q =>
      simp only [Option.filter_some]
      cases hempty : q.zones.isEmpty with
      | false => rfl
      | true => simp [HashMap.isEmpty_iff.mp hempty n]
  | some spec =>
    cases hq : s.policies.lookup k with
    | none =>
      cases spec with
      | V1 spec => simp [PolicyFile.mergePolicy, PolicyFile.Spec.parse]
    | some q => simp [PolicyFile.mergePolicy, PolicyFile.Spec.parseInto_zones]

theorem keyed_reloadAll (hkeyed : s.Keyed) : ({ s with policies } : State).Keyed := by
  intro k q hq
  change policies.lookup k = some q at hq
  rw [hlookup k] at hq
  cases hfile : files.dlookup k with
  | none =>
    rw [hfile] at hq
    exact hkeyed k q (Option.filter_eq_some_iff.mp hq).1
  | some spec =>
    rw [hfile] at hq
    have hmerge := Option.some.inj hq
    cases hold : s.policies.lookup k with
    | none =>
      rw [hold] at hmerge
      cases spec with
      | V1 spec =>
        subst hmerge
        rfl
    | some policy =>
      rw [hold] at hmerge
      have hname := PolicyFile.Spec.parseInto_name spec policy
      rw [hkeyed k policy hold] at hname
      rw [← hmerge]
      exact hname

theorem linked_reloadAll (hlinked : s.Linked) : ({ s with policies } : State).Linked := by
  rw [State.linked_iff]
  intro n k
  have hname : ({ s with policies } : State).policyName n = s.policyName n :=
    State.policyName_congr rfl n
  rw [uses_reloadAll hlookup, hname]
  exact State.linked_iff.mp hlinked n k

end

/-! ## Every live operation -/

theorem keyed_of_header {s s' : State} (h : s'.header = s.header) (hkeyed : s.Keyed) :
    s'.Keyed := by
  intro k q hq
  have hk : s.header k = some (q.latest, q.midDeletion) := by
    rw [← h]
    simp [State.header, hq]
  rcases Option.map_eq_some_iff.mp hk with ⟨q0, hq0, heq⟩
  injection heq with hlatest _
  rw [← hlatest]
  exact hkeyed k q0 hq0

/-- Zones and policies are linked, and every policy is stored under its own name. -/
def Center.Consistent (c : Center) : Prop := c.state.Linked ∧ c.state.Keyed

-- A consistent registry survives every operation, and no assertion fires.
theorem LiveOp.run_spec {c : Center} (hc : c.Consistent)
    (op : LiveOp) (hstems : op.distinctStems = true) :
    ∃ r, op.run c = .ok r ∧ ∀ c', r = some c' → c'.Consistent := by
  rcases hc with ⟨hlinked, hkeyed⟩
  cases op with
  | addZone name =>
    refine ⟨_, rfl, ?_⟩
    intro c' h
    cases h
    refine ⟨addZone_linked name hlinked, ?_⟩
    exact keyed_of_header (State.header_congr (addZone_policies c name)) hkeyed
  | removeZone name =>
    rcases removeZone_spec c name hlinked with ⟨r, c1, hrun, -, hheader, -⟩
    simp only [run, hrun, ok_bind]
    refine ⟨_, rfl, ?_⟩
    intro c' h
    cases h
    exact ⟨removeZone_linked hlinked hrun, keyed_of_header hheader hkeyed⟩
  | changePolicy name policy =>
    rcases changePolicy_spec c name policy hlinked with ⟨r, c1, hrun, hcases⟩
    simp only [run, hrun, ok_bind]
    refine ⟨_, rfl, ?_⟩
    intro c' h
    cases h
    refine ⟨changePolicy_linked hlinked hkeyed hrun, ?_⟩
    rcases hcases with ⟨hsame, -⟩ | ⟨-, -, q, -, -, -, -, hheader, -⟩
    · rw [hsame]
      exact hkeyed
    · exact keyed_of_header hheader hkeyed
  | reloadAll entries =>
    rcases PolicyFile.reloadAll_spec c.state.policies entries
      (of_decide_eq_true hstems) with
      ⟨res, policies, hrun, hlookup⟩
    simp only [run, hrun, ok_bind]
    cases res with
    | error err => exact ⟨_, rfl, fun c' h ↦ by cases h⟩
    | ok u =>
      refine ⟨_, rfl, ?_⟩
      intro c' h
      cases h
      exact ⟨linked_reloadAll (hlookup rfl) hlinked, keyed_reloadAll (hlookup rfl) hkeyed⟩

/-! ## A policy change -/

-- A policy change succeeds only for a known zone and a policy that takes zones.
theorem changePolicy_ok {c c' : Center} {n : Name} {k : String}
    (h : changePolicy c n k = .ok (.ok (), c')) :
    n ∈ c.state.zones ∧ ∃ q, c.state.policies.lookup k = some q ∧ q.midDeletion = false := by
  unfold changePolicy at h
  cases hz : c.state.zones.lookup n with
  | none => simp [hz] at h
  | some z =>
    cases hq : c.state.policies.lookup k with
    | none => simp [hz, hq] at h
    | some q =>
      cases hmid : q.midDeletion with
      | true => simp [hz, hq, hmid] at h
      | false => exact ⟨HashMap.mem_iff_lookup.mpr ⟨z, hz⟩, q, rfl, hmid⟩

/-- The zone is listed in exactly the policy `k`, which it uses, and every other zone has the links
it had. -/
def MovedTo (s s' : State) (n : Name) (k : String) : Prop :=
  s'.policyName n = some k ∧ (∀ k', s'.Uses k' n ↔ k' = k) ∧
    ∀ m, m ≠ n → s'.policyName m = s.policyName m ∧ ∀ k', s'.Uses k' m ↔ s.Uses k' m

-- A policy change moves the zone or does nothing at all.
theorem changePolicy_atomic {c c' : Center} {n : Name} {k : String}
    {r : Except ChangePolicyError Unit} (hlinked : c.state.Linked) (hkeyed : c.state.Keyed)
    (hrun : changePolicy c n k = .ok (r, c')) :
    (r = .ok () → MovedTo c.state c'.state n k) ∧ ∀ err, r = .error err → c' = c := by
  rcases changePolicy_spec c n k hlinked with ⟨r1, c1, hrun1, hcases⟩
  rw [hrun] at hrun1
  cases hrun1
  rcases hcases with ⟨hsame, hwhy⟩ | ⟨hok, -, q, hq, -, -, hname, -, huses⟩
  · refine ⟨?_, fun _ _ ↦ hsame⟩
    intro hok
    rw [hok] at hrun
    rcases changePolicy_ok hrun with ⟨hn, q, hq, hmid⟩
    rw [hwhy hn q hq] at hmid
    cases hmid
  · refine ⟨?_, fun err h ↦ by rw [hok] at h; cases h⟩
    intro _
    refine ⟨?_, ?_, ?_⟩
    · rw [hname, if_pos rfl, hkeyed k q hq]
    · intro k'
      rw [huses]
      simp
    · intro m hm
      refine ⟨?_, ?_⟩
      · rw [hname, if_neg hm]
      · intro k'
        rw [huses]
        simp [hm]

/-- From a consistent registry, every sequence of live operations whose reloads find no two policy
files of one stem, and succeed, leads to a consistent registry.  There no operation fires an
assertion, and a policy change moves the zone to the chosen policy or, when it fails, changes
nothing. -/
theorem live_operations_keep_link {c : Center}
    (h : Reach LiveOp.step (fun _ op ↦ op.distinctStems = true) Center.Consistent c) :
    c.Consistent ∧
      (∀ op : LiveOp, op.distinctStems = true → ∃ r, op.run c = .ok r) ∧
      ∀ n k r c', changePolicy c n k = .ok (r, c') →
        (r = .ok () → MovedTo c.state c'.state n k) ∧ ∀ err, r = .error err → c' = c := by
  have hc : c.Consistent := by
    refine Reach.invariant (fun _ hs ↦ hs) ?_ h
    intro c op c' hc hstems hstep
    rcases LiveOp.run_spec hc op hstems with ⟨r, hrun, hr⟩
    simp only [LiveOp.step, hrun] at hstep
    exact hr c' hstep
  refine ⟨hc, ?_, ?_⟩
  · intro op hstems
    rcases LiveOp.run_spec hc op hstems with ⟨r, hrun, -⟩
    exact ⟨r, hrun⟩
  · intro n k r c' hrun
    exact changePolicy_atomic hc.1 hc.2 hrun

/-! ## A daemon that loads its first policy -/

namespace LiveExample

def zone : Name := ⟨[[108, 105]], by decide⟩

def policyFile : PolicyFile.Spec :=
  .V1
    { loader := { review := { required := false, cmdHook := none } }
      keyManager := {}
      signer :=
        { serialPolicy := .Counter, sigInceptionOffset := 86400, sigValidityTime := 1209600
          denial := .NSec, review := { required := false, cmdHook := none } }
      server := {} }

def daemon : Center := ⟨State.new Config.default, [], 0⟩

/-- The policy is loaded, a zone is added and gets the policy. -/
def ops : List LiveOp :=
  [.reloadAll [.ok { fileName := some "default.toml".toList, load := .ok policyFile }],
    .addZone zone, .changePolicy zone "default"]

theorem daemon_consistent : daemon.Consistent := by
  refine ⟨State.linked_new _, ?_⟩
  intro k q hq
  simp [daemon, State.new] at hq

-- The zone has the policy in the end.
theorem ops_reach : ∃ c,
    Reach LiveOp.step (fun _ op ↦ op.distinctStems = true) Center.Consistent c ∧
      (fun c : Center ↦ decide (c.state.policyName zone = some "default")) c = true :=
  Reach.of_exec daemon_consistent ops (by decide) (by decide)

end LiveExample

theorem live_example_keeps_link :
    ∃ c, (decide (c.state.policyName LiveExample.zone = some "default")) = true ∧
      c.Consistent ∧ (∀ op : LiveOp, op.distinctStems = true → ∃ r, op.run c = .ok r) ∧
      ∀ n k r c', changePolicy c n k = .ok (r, c') →
        (r = .ok () → MovedTo c.state c'.state n k) ∧ ∀ err, r = .error err → c' = c := by
  rcases LiveExample.ops_reach with ⟨c, hreach, hname⟩
  exact ⟨c, hname, live_operations_keep_link hreach⟩

end Cascade
