import Cascade.Live

/-!
# Reloading the policies

`reload_all` takes a policy out of the map as soon as it has read the file of that name, and puts the
new map in place at the end.  When it fails in between, the policies taken out are gone.  It takes two
files with the same stem for a violation of its own assumptions, although their extensions may differ
in case.
-/

namespace Cascade

open Lib

namespace PolicyFile

section

variable {policies : HashMap String Policy} {entries : List (Except IoErrorKind DirEntry)}

/-- The loop over the directory, from the start. -/
abbrev unmatched (policies : HashMap String Policy) : Reload := { old := policies, new := ∅, log := [] }

theorem reloadAll_failed (policies : HashMap String Policy) {err : IoErrorKind}
    (hstems : (readFiles entries).NodupKeys) (hfailure : entries.findSome? failure = some err) :
    reloadAll policies (.ok entries) =
      .ok (.error err, (HashMap.moveEach mergePolicy (unmatched policies) (readFiles entries)).old) := by
  have hrun := reloadEntries_ok entries (unmatched policies) hstems
    (fun k _ ↦ AList.notMem_empty k)
  rw [hfailure] at hrun
  simp only [reloadAll, hrun, ok_bind]
  rfl

theorem reloadAll_panics (policies : HashMap String Policy)
    (hstems : ¬(readFiles entries).NodupKeys) :
    ∃ message, reloadAll policies (.ok entries) = .error message := by
  obtain ⟨message, hrun⟩ := reloadEntries_panics entries (unmatched policies)
    (fun h ↦ hstems h.1)
  rw [reloadAll, hrun]
  exact ⟨message, rfl⟩

theorem not_failed_of_none (hfailure : entries.findSome? failure = none) {err : IoErrorKind}
    {policies' : HashMap String Policy} :
    reloadAll policies (.ok entries) ≠ .ok (.error err, policies') := by
  by_cases hstems : (readFiles entries).NodupKeys
  · have hrun := reloadEntries_ok entries (unmatched policies) hstems
      (fun k _ ↦ AList.notMem_empty k)
    rw [hfailure] at hrun
    simp only [reloadAll, hrun, ok_bind, Option.elim_none]
    intro h
    obtain ⟨newPolicies, -, heq⟩ := except_bind_ok h
    cases heq
  · obtain ⟨message, hrun⟩ := reloadAll_panics policies hstems
    rw [hrun]
    intro h
    cases h

/-! ## When reloading fails -/

/-- No policy file that is read before the object at which reloading fails has the name of a known
policy.  (Of two files with the same stem the second one fires an assertion.) -/
def FailsInTime (policies : HashMap String Policy) (entries : List (Except IoErrorKind DirEntry)) :
    Prop :=
  (entries.findSome? failure).isSome = true → (readFiles entries).NodupKeys →
    ∀ file ∈ readFiles entries, file.1 ∉ policies

/-- When reloading fails, the policies are what they were before if and only if no file of theirs has
been read before the failure. -/
theorem failed_reload_keeps_iff (policies : HashMap String Policy)
    (dir : Except IoErrorKind (List (Except IoErrorKind DirEntry))) :
    (∀ err policies', reloadAll policies dir = .ok (.error err, policies') → policies' = policies) ↔
      ∀ entries, dir = .ok entries → FailsInTime policies entries := by
  constructor
  · intro hkeeps entries hdir hfails hstems file hfile hmem
    obtain ⟨err, hfailure⟩ := Option.isSome_iff_exists.mp hfails
    have hrun := reloadAll_failed policies hstems hfailure
    rw [← hdir] at hrun
    have hold := HashMap.lookup_moveEach_old mergePolicy (readFiles entries) (unmatched policies)
      file.1
    rw [if_pos (List.mem_keys_of_mem hfile), hkeeps err _ hrun] at hold
    obtain ⟨policy, hpolicy⟩ := HashMap.mem_iff_lookup.mp hmem
    rw [hold] at hpolicy
    cases hpolicy
  · intro htime err policies' hrun
    cases dir with
    | error err' =>
      cases hrun
      rfl
    | ok entries =>
      cases hfailure : entries.findSome? failure with
      | none => exact absurd hrun (not_failed_of_none hfailure)
      | some err' =>
        by_cases hstems : (readFiles entries).NodupKeys
        · rw [reloadAll_failed policies hstems hfailure] at hrun
          cases hrun
          apply HashMap.moveEach_old_eq
          intro k hk
          obtain ⟨file, hfile, rfl⟩ := List.mem_map.mp hk
          exact htime entries rfl (by rw [hfailure]; rfl) hstems file hfile
        · obtain ⟨message, hpanics⟩ := reloadAll_panics policies hstems
          rw [hpanics] at hrun
          cases hrun

open LiveExample in
/-- A policy that its zone uses is gone when the next file is broken. -/
theorem used_policy_lost : ∃ policies policies' : HashMap String Policy,
    (∃ policy, policies.lookup "default" = some policy ∧ zone ∈ policy.zones) ∧
      reloadAll policies
        (.ok [.ok { fileName := some "default.toml".toList, load := .ok policyFile },
          .ok { fileName := some "broken.toml".toList, load := .error .other }]) =
        .ok (.error .other, policies') ∧
      "default" ∉ policies' := by
  let policy : Policy := { policyFile.parse "default" with zones := AList.insert zone () ∅ }
  refine ⟨AList.insert "default" policy ∅, ∅, ⟨policy, ?_, ?_⟩, ?_, ?_⟩
  · exact AList.lookup_insert _
  · exact (AList.mem_insert _).mpr (Or.inl rfl)
  · rfl
  · exact AList.notMem_empty _

/-! ## When reloading succeeds -/

/-- The policies after a reload that has read the files of `entries`. -/
structure Merged (policies policies' : HashMap String Policy)
    (entries : List (Except IoErrorKind DirEntry)) : Prop where
  keys : ∀ k, k ∈ policies' ↔ k ∈ policyNames entries ∨
    ∃ policy, policies.lookup k = some policy ∧ policy.zones.isEmpty = false
  kept : ∀ k policy, policies.lookup k = some policy → k ∈ policies' → ∃ policy',
    policies'.lookup k = some policy' ∧ policy'.zones = policy.zones ∧
      policy'.midDeletion = policy.midDeletion ∧
      (k ∉ policyNames entries → policy'.latest = policy.latest) ∧
      ∀ spec, ⟨k, spec⟩ ∈ entries.filterMap policyOf → policy'.latest = (spec.parse k).latest
  new : ∀ k spec, ⟨k, spec⟩ ∈ entries.filterMap policyOf → policies.lookup k = none →
    policies'.lookup k = some (spec.parse k)

theorem parseInto_midDeletion (spec : Spec) (policy : Policy) :
    (spec.parseInto policy).midDeletion = policy.midDeletion := by
  cases spec with
  | V1 spec =>
    simp only [Spec.parseInto]
    split <;> rfl

-- The version of a merged policy is that of its file.
theorem parseInto_latest (spec : Spec) (policy : Policy) :
    (spec.parseInto policy).latest = (spec.parse policy.latest.name).latest := by
  cases spec with
  | V1 spec =>
    simp only [Spec.parseInto]
    split
    next heq => exact heq
    · rfl

theorem merged_of_lookup {policies' : HashMap String Policy}
    (hnames : ∀ k policy, policies.lookup k = some policy → policy.latest.name = k)
    (hstems : (policyNames entries).Nodup)
    (hlookup : ∀ k, policies'.lookup k =
      match (entries.filterMap policyOf).dlookup k with
      | some spec => some (mergePolicy k spec (policies.lookup k)).1
      | none => (policies.lookup k).filter (fun policy ↦ !policy.zones.isEmpty)) :
    Merged policies policies' entries := by
  have hfile : ∀ k spec, ⟨k, spec⟩ ∈ entries.filterMap policyOf →
      policies'.lookup k = some (mergePolicy k spec (policies.lookup k)).1 := by
    intro k spec hmem
    rw [hlookup, List.mem_dlookup hstems hmem]
  have hnone : ∀ k, k ∉ policyNames entries →
      policies'.lookup k = (policies.lookup k).filter (fun policy ↦ !policy.zones.isEmpty) := by
    intro k hk
    rw [hlookup, List.dlookup_eq_none.mpr hk]
  constructor
  · intro k
    by_cases hk : k ∈ policyNames entries
    · obtain ⟨file, hmem, rfl⟩ := List.mem_map.mp hk
      have hmem' : file.1 ∈ policies' := HashMap.mem_iff_lookup.mpr ⟨_, hfile file.1 file.2 hmem⟩
      simp only [hk, hmem', true_or]
    · rw [HashMap.mem_iff_lookup, hnone k hk]
      simp [hk]
  · intro k policy hpolicy hmem
    by_cases hk : k ∈ policyNames entries
    · obtain ⟨⟨_, spec⟩, hspec, rfl⟩ := List.mem_map.mp hk
      refine ⟨_, hfile _ spec hspec, ?_⟩
      rw [hpolicy]
      refine ⟨Spec.parseInto_zones spec policy, parseInto_midDeletion spec policy,
        fun hnot ↦ absurd hk hnot, ?_⟩
      intro spec' hspec'
      have hsame : spec' = spec := by
        have heq := (List.mem_dlookup hstems hspec').symm.trans (List.mem_dlookup hstems hspec)
        exact Option.some.inj heq
      show (spec.parseInto policy).latest = _
      rw [hsame, parseInto_latest, hnames _ policy hpolicy]
    · have hsame := hnone k hk
      obtain ⟨policy', hpolicy'⟩ := HashMap.mem_iff_lookup.mp hmem
      rw [hpolicy', hpolicy] at hsame
      have heq : policy' = policy := by
        rw [Option.filter_some] at hsame
        split at hsame
        · exact Option.some.inj hsame
        · cases hsame
      rw [heq] at hpolicy'
      exact ⟨policy, hpolicy', rfl, rfl, fun _ ↦ rfl,
        fun spec hspec ↦ absurd (List.mem_keys_of_mem hspec) hk⟩
  · intro k spec hspec hold
    rw [hfile k spec hspec, hold]
    rfl

/-- When all policy files parse, reloading merges them with the known policies if and only if no two of
them have the same stem; otherwise an assertion fires. -/
theorem reload_merges_iff (policies : HashMap String Policy)
    (entries : List (Except IoErrorKind DirEntry))
    (hnames : ∀ k policy, policies.lookup k = some policy → policy.latest.name = k)
    (hparse : ∀ entry ∈ entries, failure entry = none) :
    (∃ policies', reloadAll policies (.ok entries) = .ok (.ok (), policies') ∧
      Merged policies policies' entries) ↔ (policyNames entries).Nodup := by
  have hfailure : entries.findSome? failure = none := List.findSome?_eq_none_iff.mpr hparse
  constructor
  · intro h
    obtain ⟨policies', hrun, -⟩ := h
    by_contra hstems
    have hnot : ¬(readFiles entries).NodupKeys := by
      rw [readFiles_eq hfailure]
      exact hstems
    obtain ⟨message, hpanics⟩ := reloadAll_panics policies hnot
    rw [hpanics] at hrun
    cases hrun
  · intro hstems
    obtain ⟨res, policies', hrun, hlookup⟩ := reloadAll_spec policies entries hstems
    have hok : res = .ok () := by
      cases res with
      | ok u => rfl
      | error err => exact absurd hrun (not_failed_of_none hfailure)
    rw [hok] at hrun
    exact ⟨policies', hrun, merged_of_lookup hnames hstems (hlookup hok)⟩

end

namespace ReloadExample

open LiveExample

/-- A zone uses the policy `default`, another version of which is in the file, and one uses the policy
`kept`, which has no file any more, like the policy `gone`, which is not used. -/
def known : HashMap String Policy :=
  let policy (name : String) (zones : HashMap Name Unit) : Policy :=
    { latest := { (policyFile.parse name).latest with
        loader := { review := { required := true, cmdHook := none } } }
      midDeletion := false, zones }
  ((AList.insert "default" (policy "default" (AList.insert zone () ∅)) ∅).insert "kept"
    (policy "kept" (AList.insert zone () ∅))).insert "gone" (policy "gone" ∅)

theorem known_names (k : String) (policy : Policy) (h : known.lookup k = some policy) :
    policy.latest.name = k := by
  have hall : ∀ e ∈ known.entries, e.2.latest.name = e.1 := by decide
  exact hall _ (HashMap.lookup_eq_some_iff.mp h)

def entries : List (Except IoErrorKind DirEntry) :=
  [.ok { fileName := some "default.toml".toList, load := .ok policyFile },
    .ok { fileName := some ".swp.toml".toList, load := .error .other }]

end ReloadExample

open ReloadExample LiveExample in
theorem known_policies_merged : ∃ policies', reloadAll known (.ok entries) =
      .ok (.ok (), policies') ∧ "kept" ∈ policies' ∧ "gone" ∉ policies' ∧
    ∃ policy, policies'.lookup "default" = some policy ∧ zone ∈ policy.zones ∧
      policy.latest = (policyFile.parse "default").latest := by
  obtain ⟨policies', hrun, hmerged⟩ :=
    (reload_merges_iff known entries known_names (by decide)).mpr (by decide)
  have hdefault : "default" ∈ policies' := (hmerged.keys _).mpr (Or.inl (by decide))
  obtain ⟨policy, hpolicy, hzones, _, _, hlatest⟩ := hmerged.kept "default" _ rfl hdefault
  refine ⟨policies', hrun, (hmerged.keys _).mpr (Or.inr ⟨_, rfl, by decide⟩), ?_, policy, hpolicy,
    ?_, hlatest policyFile (by decide)⟩
  · intro hgone
    rcases (hmerged.keys _).mp hgone with hfile | ⟨old, hold, hused⟩
    · exact absurd hfile (by decide)
    · cases hold
      exact absurd hused (by decide)
  · rw [hzones]
    decide

open LiveExample in
/-- The extensions differ in case, so both files have the stem `default`. -/
theorem stems_collide : reloadAll ∅
    (.ok [.ok { fileName := some "default.toml".toList, load := .ok policyFile },
      .ok { fileName := some "default.TOML".toList, load := .ok policyFile }]) =
    .error "there is at most one policy per path" := by
  decide

end PolicyFile

end Cascade
