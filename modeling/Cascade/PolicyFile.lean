import Cascade.Center

/-!
# The policy files

The policy directory holds one file for each policy.  Reloading matches the files with the known
policies by file stem: a known policy gets the version of its file, a file without a known policy
becomes a new one, and a policy without a file is dropped unless some zone uses it.
-/

namespace Cascade

open Lib

namespace PolicyFile

namespace V1

structure Spec where
  loader : LoaderPolicySpec
  keyManager : KeyManagerPolicySpec
  signer : SignerPolicySpec
  server : ServerPolicySpec
deriving DecidableEq

def Spec.parse (spec : Spec) (name : String) : PolicyVersion :=
  { name
    loader := spec.loader.parse
    keyManager := spec.keyManager.parse
    signer := spec.signer.parse
    server := spec.server.parse }

end V1

inductive Spec
  | V1 (spec : V1.Spec)
deriving DecidableEq

namespace Spec

def parse : Spec → String → Policy
  | .V1 spec, name => { latest := spec.parse name, midDeletion := false, zones := ∅ }

def parseInto : Spec → Policy → Policy
  | .V1 spec, existing =>
    let new := spec.parse existing.latest.name
    if existing.latest = new then existing else { existing with latest := new }

-- The merge of a policy keeps everything but the version.
theorem parseInto_zones (spec : Spec) (policy : Policy) :
    (spec.parseInto policy).zones = policy.zones := by
  cases spec with
  | V1 spec =>
    simp only [parseInto]
    split <;> rfl

theorem parseInto_name (spec : Spec) (policy : Policy) :
    (spec.parseInto policy).latest.name = policy.latest.name := by
  cases spec with
  | V1 spec =>
    simp only [parseInto]
    split <;> rfl

end Spec

/-! ## The policy directory -/

/-- `std::io::ErrorKind`; only one kind is looked at. -/
inductive IoErrorKind
  | IsADirectory
  | other
deriving DecidableEq

/-- An object in the policy directory.  `fileName` is missing when the path is not UTF-8; `load` is
the result of loading the object as a policy file. -/
structure DirEntry where
  fileName : Option (List Char)
  load : Except IoErrorKind Spec

/-- `Path::file_stem` and `Path::extension` of a file name: the parts before and after its last
dot.  A name whose only dot is at the front has no extension. -/
def splitFileName (name : List Char) : List Char × Option (List Char) :=
  match name.reverse.dropWhile (· ≠ '.') with
  | [] | [_] => (name, none)
  | _ :: before => (before.reverse, some (name.reverse.takeWhile (· ≠ '.')).reverse)

example : splitFileName "a.b.toml".toList = ("a.b".toList, some "toml".toList) := by decide

/-- The file stem of an object that is taken for a policy file: its path is UTF-8, it is not hidden
and it ends in `.toml`. -/
def DirEntry.policyName (entry : DirEntry) : Option String :=
  entry.fileName.bind (fun name ↦
    if name.head? = some '.' then none
    else
      match splitFileName name with
      | (stem, some extension) =>
        if extension.map Char.toLower = "toml".toList then some (String.ofList stem) else none
      | (_, none) => none)

/-- The policy under `name` in the new set: the existing one merged with the file, or one made from
the file. -/
def mergePolicy (name : String) (spec : Spec) : Option Policy → Policy × List Empty
  | some policy => (spec.parseInto policy, [])
  | none => (spec.parse name, [])

/-- The policies not matched yet, and the new policies. -/
abbrev Reload := HashMap.Move String Policy Empty

/-- The loop over the objects in the directory.  It ends early on an object that cannot be read. -/
def reloadEntries (r : Reload) :
    List (Except IoErrorKind DirEntry) → Except String (Except IoErrorKind Unit × Reload)
  | [] => .ok (.ok (), r)
  | .error err :: _ => .ok (.error err, r)
  | .ok entry :: entries =>
    match entry.policyName, entry.load with
    | none, _ => reloadEntries r entries
    | some _, .error .IsADirectory => reloadEntries r entries
    | some _, .error err => .ok (.error err, r)
    | some name, .ok spec => do
      assertThat (decide (name ∉ r.new)) "there is at most one policy per path"
      reloadEntries (HashMap.moveEntry mergePolicy r ⟨name, spec⟩) entries

/-- The loop over the policies whose files were not found. -/
def keepUsed (newPolicies : HashMap String Policy) :
    List (Sigma fun _ : String ↦ Policy) → Except String (HashMap String Policy)
  | [] => .ok newPolicies
  | e :: es =>
    if e.2.zones.isEmpty then keepUsed newPolicies es
    else do
      assertThat (decide (e.1 ∉ newPolicies))
        "'new_policies' and 'policies' are disjoint sets"
      keepUsed (newPolicies.insert e.1 e.2) es

/-- `policy::reload_all`.  `dir` is the policy directory, unless it cannot be read.  When reloading
fails, the policies that were matched before the failure are gone. -/
def reloadAll (policies : HashMap String Policy)
    (dir : Except IoErrorKind (List (Except IoErrorKind DirEntry))) :
    Except String (Except IoErrorKind Unit × HashMap String Policy) :=
  match dir with
  | .error err => .ok (.error err, policies)
  | .ok entries => do
    match ← reloadEntries { old := policies, new := ∅, log := [] } entries with
    | (.error err, r) => .ok (.error err, r.old)
    | (.ok (), r) => do
      let newPolicies ← keepUsed r.new r.old.entries
      .ok (.ok (), newPolicies)

/-! ## What a reload leaves -/

/-- The policy that an object of the directory stands for. -/
def policyOf : Except IoErrorKind DirEntry → Option (Sigma fun _ : String ↦ Spec)
  | .ok entry =>
    match entry.policyName, entry.load with
    | some name, .ok spec => some ⟨name, spec⟩
    | _, _ => none
  | .error _ => none

/-- The names of the policies that the objects stand for. -/
def policyNames (entries : List (Except IoErrorKind DirEntry)) : List String :=
  (entries.filterMap policyOf).keys

/-- Why reloading fails at an object of the directory, if it does. -/
def failure : Except IoErrorKind DirEntry → Option IoErrorKind
  | .error err => some err
  | .ok entry =>
    match entry.policyName, entry.load with
    | some _, .error .IsADirectory => none
    | some _, .error err => some err
    | _, _ => none

/-- The policy files that are read before reloading fails. -/
def readFiles (entries : List (Except IoErrorKind DirEntry)) :
    List (Sigma fun _ : String ↦ Spec) :=
  (entries.takeWhile (fun entry ↦ (failure entry).isNone)).filterMap policyOf

/-- What one object of the directory does to the loop. -/
inductive Handled (entry : Except IoErrorKind DirEntry) : Prop
  | ignored : failure entry = none → policyOf entry = none →
      (∀ r entries, reloadEntries r (entry :: entries) = reloadEntries r entries) → Handled entry
  | fails {err : IoErrorKind} : failure entry = some err →
      (∀ r entries, reloadEntries r (entry :: entries) = .ok (.error err, r)) → Handled entry
  | read {name : String} {spec : Spec} : failure entry = none →
      policyOf entry = some ⟨name, spec⟩ →
      (∀ r entries, name ∈ r.new → ∃ message, reloadEntries r (entry :: entries) = .error message) →
      (∀ r entries, name ∉ r.new → reloadEntries r (entry :: entries) =
        reloadEntries (HashMap.moveEntry mergePolicy r ⟨name, spec⟩) entries) → Handled entry

theorem handled (entry : Except IoErrorKind DirEntry) : Handled entry := by
  cases entry with
  | error err => exact .fails rfl (fun _ _ ↦ rfl)
  | ok entry =>
    cases hname : entry.policyName with
    | none =>
      exact .ignored (by simp [failure, hname]) (by simp [policyOf, hname])
        (fun _ _ ↦ by simp [reloadEntries, hname])
    | some name =>
      cases hload : entry.load with
      | ok spec =>
        have hpolicy : policyOf (.ok entry) = some ⟨name, spec⟩ := by simp [policyOf, hname, hload]
        apply Handled.read (by simp [failure, hname, hload]) hpolicy
        · intro r entries hmem
          simp only [reloadEntries, hname, hload, hmem, not_true_eq_false, decide_false]
          exact ⟨_, rfl⟩
        · intro r entries hmem
          simp [reloadEntries, hname, hload, hmem, ok_bind]
      | error err =>
        cases err with
        | IsADirectory =>
          exact .ignored (by simp [failure, hname, hload]) (by simp [policyOf, hname, hload])
            (fun _ _ ↦ by simp [reloadEntries, hname, hload])
        | other =>
          have hfails : failure (.ok entry) = some .other := by simp [failure, hname, hload]
          exact .fails hfails (fun _ _ ↦ by simp [reloadEntries, hname, hload])

theorem readFiles_cons {entry : Except IoErrorKind DirEntry}
    (entries : List (Except IoErrorKind DirEntry)) (h : failure entry = none) :
    readFiles (entry :: entries) = (policyOf entry).toList ++ readFiles entries := by
  unfold readFiles
  rw [List.takeWhile_cons, h]
  cases hpolicy : policyOf entry with
  | none =>
    rw [Option.isNone_none, if_pos rfl, List.filterMap_cons_none hpolicy]
    rfl
  | some file =>
    rw [Option.isNone_none, if_pos rfl, List.filterMap_cons_some hpolicy]
    rfl

theorem readFiles_of_failure {entry : Except IoErrorKind DirEntry} {err : IoErrorKind}
    (entries : List (Except IoErrorKind DirEntry)) (h : failure entry = some err) :
    readFiles (entry :: entries) = [] := by
  unfold readFiles
  rw [List.takeWhile_cons, h]
  rfl

theorem not_mem_moveEntry {r : Reload} {name k : String} {spec : Spec} :
    k ∉ (HashMap.moveEntry mergePolicy r ⟨name, spec⟩).new ↔ k ≠ name ∧ k ∉ r.new := by
  show k ∉ r.new.insert name _ ↔ _
  rw [AList.mem_insert, not_or]

-- With distinct file stems the first assertion does not fire, and the loop matches the policy files
-- up to the object at which reloading fails.
theorem reloadEntries_ok (entries : List (Except IoErrorKind DirEntry)) (r : Reload)
    (hstems : (readFiles entries).NodupKeys) (hnew : ∀ k ∈ (readFiles entries).keys, k ∉ r.new) :
    reloadEntries r entries = .ok ((entries.findSome? failure).elim (.ok ()) .error,
      HashMap.moveEach mergePolicy r (readFiles entries)) := by
  induction entries generalizing r with
  | nil => rfl
  | cons entry entries ih =>
    cases handled entry with
    | ignored hnone hpolicy hstep =>
      rw [readFiles_cons entries hnone, hpolicy] at hstems hnew ⊢
      rw [hstep, List.findSome?_cons, hnone]
      exact ih r hstems hnew
    | fails herr hstep =>
      rw [readFiles_of_failure entries herr, hstep, List.findSome?_cons, herr]
      rfl
    | @read name spec hnone hpolicy _ hstep =>
      rw [readFiles_cons entries hnone, hpolicy] at hstems hnew ⊢
      have hfresh : name ∉ r.new := hnew name List.mem_cons_self
      rw [hstep r entries hfresh, List.findSome?_cons, hnone]
      apply ih _ (List.nodupKeys_cons.mp hstems).2
      intro k hk
      rw [not_mem_moveEntry]
      constructor
      · intro heq
        rw [heq] at hk
        exact (List.nodupKeys_cons.mp hstems).1 hk
      · exact hnew k (List.mem_cons_of_mem _ hk)

-- It fires when a stem comes again before that.
theorem reloadEntries_panics (entries : List (Except IoErrorKind DirEntry)) (r : Reload)
    (h : ¬((readFiles entries).NodupKeys ∧ ∀ k ∈ (readFiles entries).keys, k ∉ r.new)) :
    ∃ message, reloadEntries r entries = .error message := by
  induction entries generalizing r with
  | nil => exact absurd ⟨List.nodupKeys_nil, fun k hk ↦ by cases hk⟩ h
  | cons entry entries ih =>
    cases handled entry with
    | ignored hnone hpolicy hstep =>
      rw [readFiles_cons entries hnone, hpolicy] at h
      rw [hstep]
      exact ih r h
    | fails herr hstep =>
      rw [readFiles_of_failure entries herr] at h
      exact absurd ⟨List.nodupKeys_nil, fun k hk ↦ by cases hk⟩ h
    | @read name spec hnone hpolicy hpanics hstep =>
      by_cases hfresh : name ∈ r.new
      · exact hpanics r entries hfresh
      · rw [readFiles_cons entries hnone, hpolicy] at h
        rw [hstep r entries hfresh]
        apply ih
        intro hrest
        obtain ⟨hstems, hnew⟩ := hrest
        apply h
        constructor
        · apply List.nodupKeys_cons.mpr ⟨_, hstems⟩
          intro hk
          exact (not_mem_moveEntry.mp (hnew name hk)).1 rfl
        · intro k hk
          rcases List.mem_cons.mp hk with rfl | hk
          · exact hfresh
          · exact (not_mem_moveEntry.mp (hnew k hk)).2

theorem readFiles_sublist (entries : List (Except IoErrorKind DirEntry)) :
    (readFiles entries).Sublist (entries.filterMap policyOf) :=
  (List.takeWhile_sublist _).filterMap _

theorem readFiles_eq {entries : List (Except IoErrorKind DirEntry)}
    (h : entries.findSome? failure = none) : readFiles entries = entries.filterMap policyOf := by
  induction entries with
  | nil => rfl
  | cons entry entries ih =>
    rw [List.findSome?_cons] at h
    split at h
    · cases h
    next hnone =>
      rw [readFiles_cons entries hnone, ih h]
      cases hpolicy : policyOf entry with
      | none => rw [List.filterMap_cons_none hpolicy]; rfl
      | some file => rw [List.filterMap_cons_some hpolicy]; rfl

-- The second assertion does not fire on policies that are not among the new ones.
theorem keepUsed_spec (es : List (Sigma fun _ : String ↦ Policy)) (hn : es.NodupKeys)
    (newPolicies : HashMap String Policy) (hnew : ∀ k, k ∈ es.keys → k ∉ newPolicies) :
    keepUsed newPolicies es =
      .ok (HashMap.insertEach (fun _ policy ↦ !policy.zones.isEmpty) newPolicies es) := by
  induction es generalizing newPolicies with
  | nil => rfl
  | cons e es ih =>
    have htail : ∀ k, k ∈ es.keys → k ∉ newPolicies :=
      fun k hk ↦ hnew k (List.mem_cons_of_mem _ hk)
    rw [keepUsed, HashMap.insertEach_cons]
    by_cases hempty : e.2.zones.isEmpty = true
    · rw [if_pos hempty, hempty]
      exact ih (List.nodupKeys_cons.mp hn).2 newPolicies htail
    · have hfresh : e.1 ∉ newPolicies := hnew e.1 (by simp)
      rw [if_neg hempty, Bool.eq_false_iff.mpr hempty]
      simp only [hfresh, not_false_eq_true, decide_true, assertThat_true, ok_bind, Bool.not_false,
        if_true]
      apply ih (List.nodupKeys_cons.mp hn).2
      intro k hk hmem
      rcases (AList.mem_insert _).mp hmem with heq | hold
      · subst heq
        exact (List.nodupKeys_cons.mp hn).1 hk
      · exact htail k hk hold

-- A reload of a directory with distinct file stems does not panic.  When it succeeds, the policies
-- are those of the files and those that some zone uses.
theorem reloadAll_spec (policies : HashMap String Policy)
    (entries : List (Except IoErrorKind DirEntry)) (hstems : (policyNames entries).Nodup) :
    ∃ res policies', reloadAll policies (.ok entries) = .ok (res, policies') ∧
      (res = .ok () → ∀ k, policies'.lookup k =
        match (entries.filterMap policyOf).dlookup k with
        | some spec => some (mergePolicy k spec (policies.lookup k)).1
        | none => (policies.lookup k).filter (fun policy ↦ !policy.zones.isEmpty)) := by
  have hnodup : (entries.filterMap policyOf).NodupKeys := hstems
  have hrun := reloadEntries_ok entries { old := policies, new := ∅, log := [] }
    (hnodup.sublist (readFiles_sublist entries)) (fun k _ ↦ AList.notMem_empty k)
  cases hfailure : entries.findSome? failure with
  | some err =>
    rw [hfailure] at hrun
    simp only [reloadAll, hrun, ok_bind]
    exact ⟨_, _, rfl, fun h ↦ by cases h⟩
  | none =>
    rw [hfailure, readFiles_eq hfailure] at hrun
    obtain ⟨r, hmoved⟩ : ∃ r, HashMap.moveEach mergePolicy { old := policies, new := ∅, log := [] }
        (entries.filterMap policyOf) = r := ⟨_, rfl⟩
    have hdisjoint : ∀ k, k ∈ r.old.entries.keys → k ∉ r.new := by
      rw [← hmoved]
      exact fun k hk ↦ HashMap.not_mem_moveEach_new mergePolicy _ hnodup _ _ hk
    have hkept := keepUsed_spec r.old.entries r.old.nodupKeys r.new hdisjoint
    rw [hmoved] at hrun
    simp only [reloadAll, hrun, ok_bind, Option.elim_none, hkept]
    refine ⟨_, _, rfl, ?_⟩
    intro _ k
    rw [← hmoved, HashMap.lookup_merged mergePolicy _ hnodup]
    cases (entries.filterMap policyOf).dlookup k with
    | some spec => rfl
    | none => rfl

end PolicyFile

end Cascade
