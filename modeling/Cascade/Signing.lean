import Mathlib.Algebra.Order.Group.Multiset
import Cascade.Base
import Cascade.Lib.Chunks

/-!
# Generating signatures in parallel

The signer hands the owner groups of the sorted records to several threads, in chunks, and each
thread calls the signing function of the DNS library once for every owner.  That function itself
walks over owner groups and keeps the current zone cut, which a call for one owner cannot see.
-/

namespace Cascade

open Lib

namespace Signing

/-- The records of one owner. -/
abbrev OwnerRrs := List StoredRecord

/-- `RecordsIter` -/
def recordsIter (records : List StoredRecord) : List OwnerRrs :=
  groupsBy StoredRecord.owner records

/-- The RRsets of an owner. -/
def rrsets (group : OwnerRrs) : List (List StoredRecord) := groupsBy StoredRecord.rtype group

/-- The number of threads and the owners for each; it divides by zero for no tasks at all. -/
def determineSigningConcurrency (rrCount maxTasks : Nat) : Nat × Nat :=
  let parallelism := if rrCount < 1024 then (if rrCount ≥ 2 then 2 else 1) else maxTasks
  let parallelism := min parallelism maxTasks
  (parallelism, rrCount / parallelism)

-- Its chunks are those of `signThreads`, and there is at least one thread.
theorem determineSigningConcurrency_spec (rrCount : Nat) {maxTasks : Nat} (h : 0 < maxTasks) :
    0 < (determineSigningConcurrency rrCount maxTasks).1 ∧
      (determineSigningConcurrency rrCount maxTasks).2 =
        rrCount / (determineSigningConcurrency rrCount maxTasks).1 := by
  refine ⟨?_, rfl⟩
  unfold determineSigningConcurrency
  by_cases hfew : rrCount < 1024
  · by_cases htwo : rrCount ≥ 2
    · simp only [if_pos hfew, if_pos htwo]
      omega
    · simp only [if_pos hfew, if_neg htwo]
      omega
  · simp only [if_neg hfew]
    omega

variable {Key Rrsig : Type}

/-! ## One thread -/

/-- Skips owners; `none` when the data runs out first. -/
def skipOwners : Nat → List OwnerRrs → Option (List OwnerRrs)
  | 0, iter => some iter
  | _ + 1, [] => none
  | k + 1, _ :: iter => skipOwners k iter

/-- The keys that a thread signs with. -/
def zsks (treatSingleKeysAsCsks : Bool) (keys : List Key) : List Key :=
  if treatSingleKeysAsCsks && keys.isEmpty then keys ++ keys else keys

/-- The signing loop after `n` owners: the batches sent and the result of the thread.  A batch
without signatures is not sent, and an error ends the thread. -/
def signLoop (sign : OwnerRrs → Except String (List Rrsig)) (isLastChunk : Bool)
    (chunkSize : Nat) : Nat → List OwnerRrs → List (List Rrsig) × Except String Unit
  | _, [] => ([], .ok ())
  | n, slice :: iter =>
    if !isLastChunk && n == chunkSize then ([], .ok ())
    else
      match sign slice with
      | .error err => ([], .error err)
      | .ok rrsigs =>
        let (sent, result) := signLoop sign isLastChunk chunkSize (n + 1) iter
        (if rrsigs.isEmpty then sent else rrsigs :: sent, result)

/-- `sign_sorted_zone_records`: the signatures for owner groups in order, in the zone of that apex,
with these keys. -/
abbrev SignSorted (Key Rrsig : Type) := Name → List OwnerRrs → List Key → Except String (List Rrsig)

def signRrChunk (signSorted : SignSorted Key Rrsig) (isLastChunk : Bool) (chunkSize : Nat)
    (records : List StoredRecord) (threadIdx : Nat) (keys : List Key) (zoneName : Name)
    (treatSingleKeysAsCsks : Bool) : List (List Rrsig) × Except String Unit :=
  match skipOwners (threadIdx * chunkSize) (recordsIter records) with
  | none => ([], .ok ())
  | some iter =>
    signLoop (fun slice ↦ signSorted zoneName (recordsIter slice) (zsks treatSingleKeysAsCsks keys))
      isLastChunk chunkSize 0 iter

/-- All threads of one signing run, in the order of their numbers. -/
def signThreads (signSorted : SignSorted Key Rrsig) (parallelism : Nat)
    (records : List StoredRecord) (keys : List Key) (zoneName : Name)
    (treatSingleKeysAsCsks : Bool) : List (List (List Rrsig) × Except String Unit) :=
  let chunkSize := (recordsIter records).length / parallelism
  (List.range parallelism).map (fun threadIdx ↦
    signRrChunk signSorted (decide (threadIdx = parallelism - 1)) chunkSize records threadIdx keys
      zoneName treatSingleKeysAsCsks)

/-- The batches sent by all threads. -/
def sentBatches (threads : List (List (List Rrsig) × Except String Unit)) : List (List Rrsig) :=
  threads.flatMap Prod.fst

/-! ## The signing function of the library -/

/-- The owner of a group. -/
def ownerOf (group : OwnerRrs) : Option Name := group.head?.map StoredRecord.owner

def strictlyBelow (owner cut : Name) : Bool := owner.endsWith cut && decide (owner ≠ cut)

/-- The group is strictly below the current cut. -/
def isBelow (cut : Option Name) (group : OwnerRrs) : Bool :=
  match cut, ownerOf group with
  | some cut, some owner => strictlyBelow owner cut
  | _, _ => false

/-- A group below the apex with an NS RRset. -/
def isZoneCut (apex : Name) (group : OwnerRrs) : Bool :=
  decide (ownerOf group ≠ some apex) && group.any (fun r ↦ decide (r.rtype = Rtype.NS))

/-- The RRsets that the parent of a delegation signs. -/
def ofParent (rtype : Rtype) : Bool := decide (rtype = Rtype.DS) || decide (rtype = Rtype.NSEC)

/-- Every RRset of a group with every key; at a cut only DS and NSEC. -/
def signGroup (signRrset : Key → List StoredRecord → Rrsig) (apex : Name) (keys : List Key)
    (group : OwnerRrs) : List Rrsig :=
  ((rrsets group).filter
    (fun rrset ↦ !isZoneCut apex group || rrset.head?.any (fun r ↦ ofParent r.rtype))).flatMap
    (fun rrset ↦ keys.map (fun key ↦ signRrset key rrset))

/-- The cut after a group.  With `nested`, a group below the cut can become the cut as well. -/
def nextCut (nested : Bool) (apex : Name) (cut : Option Name) (group : OwnerRrs) : Option Name :=
  if isZoneCut apex group && (nested || !isBelow cut group) then ownerOf group else cut

/-- The walk over the owner groups with the current cut. -/
def signWalk (nested : Bool) (signRrset : Key → List StoredRecord → Rrsig) (apex : Name)
    (keys : List Key) : Option Name → List OwnerRrs → List Rrsig
  | _, [] => []
  | cut, group :: groups =>
    (if isBelow cut group then [] else signGroup signRrset apex keys group) ++
      signWalk nested signRrset apex keys (nextCut nested apex cut group) groups

/-- What is known of the signing function: it succeeds, and it gives the signatures of the walk, in
some order. -/
def SignsByWalk (nested : Bool) (signRrset : Key → List StoredRecord → Rrsig)
    (signSorted : SignSorted Key Rrsig) : Prop :=
  ∀ apex groups keys, ∃ rrsigs, signSorted apex groups keys = .ok rrsigs ∧
    rrsigs.Perm (signWalk nested signRrset apex keys none groups)

/-- The groups that the walk leaves out. -/
def occluded (nested : Bool) (apex : Name) : Option Name → List OwnerRrs → List OwnerRrs
  | _, [] => []
  | cut, group :: groups =>
    (if isBelow cut group then [group] else []) ++
      occluded nested apex (nextCut nested apex cut group) groups

/-- The owners are in canonical order. -/
def SortedByOwner (records : List StoredRecord) : Prop :=
  records.Pairwise (fun a b ↦ a.owner.canonicalLe b.owner)

/-- A delegation without DS and NSEC records: there is nothing to sign there for the parent. -/
def NothingToSign (apex : Name) (group : OwnerRrs) : Prop :=
  isZoneCut apex group = true ∧ ∀ r ∈ group, ofParent r.rtype = false

/-! ## What a thread sends -/

@[simp] theorem zsks_eq (treatSingleKeysAsCsks : Bool) (keys : List Key) :
    zsks treatSingleKeysAsCsks keys = keys := by
  cases keys with
  | nil => simp [zsks]
  | cons key keys => simp [zsks]

theorem skipOwners_eq (k : Nat) (iter : List OwnerRrs) :
    skipOwners k iter = if k ≤ iter.length then some (iter.drop k) else none := by
  induction k generalizing iter with
  | zero => simp [skipOwners]
  | succ k ih =>
    cases iter with
    | nil => simp [skipOwners]
    | cons group iter => simp [skipOwners, ih]

-- The loop goes on with an owner as long as the chunk is not full.
theorem next_le {isLastChunk : Bool} {chunkSize n : Nat} (hn : isLastChunk = false → n ≤ chunkSize)
    (hgo : ¬(!isLastChunk && n == chunkSize) = true) (hlast : isLastChunk = false) :
    n + 1 ≤ chunkSize := by
  have hle := hn hlast
  simp only [hlast, Bool.not_false, Bool.true_and, beq_iff_eq] at hgo
  omega

-- The owner is the first one of what is left of the chunk.
theorem part_cons {isLastChunk : Bool} {chunkSize n : Nat}
    (hnext : isLastChunk = false → n + 1 ≤ chunkSize) (slice : OwnerRrs) (iter : List OwnerRrs) :
    (if isLastChunk then slice :: iter else (slice :: iter).take (chunkSize - n)) =
      slice :: if isLastChunk then iter else iter.take (chunkSize - (n + 1)) := by
  cases hlast : isLastChunk with
  | true => simp
  | false =>
    have hle := hnext hlast
    have htake : chunkSize - n = (chunkSize - (n + 1)) + 1 := by omega
    simp [htake]

-- With no errors, the loop of the last thread signs all owners it finds, and that of another thread
-- those up to the size of the chunk.
theorem signLoop_spec {sign : OwnerRrs → Except String (List Rrsig)}
    {out : OwnerRrs → List Rrsig} (hsign : ∀ slice, sign slice = .ok (out slice))
    (isLastChunk : Bool) (chunkSize n : Nat) (hn : isLastChunk = false → n ≤ chunkSize)
    (iter : List OwnerRrs) :
    (signLoop sign isLastChunk chunkSize n iter).2 = .ok () ∧
      (signLoop sign isLastChunk chunkSize n iter).1.flatten =
        (if isLastChunk then iter else iter.take (chunkSize - n)).flatMap out := by
  induction iter generalizing n with
  | nil => simp [signLoop]
  | cons slice iter ih =>
    rw [signLoop]
    by_cases hstop : (!isLastChunk && n == chunkSize) = true
    · rw [if_pos hstop]
      simp only [Bool.and_eq_true, Bool.not_eq_true', beq_iff_eq] at hstop
      simp [hstop.1, hstop.2]
    · rw [if_neg hstop, hsign slice]
      have hnext := next_le hn hstop
      rcases ih (n + 1) hnext with ⟨hresult, hsent⟩
      refine ⟨hresult, ?_⟩
      have hbatch : (if (out slice).isEmpty then (signLoop sign isLastChunk chunkSize (n + 1) iter).1
          else out slice :: (signLoop sign isLastChunk chunkSize (n + 1) iter).1).flatten =
            out slice ++ (signLoop sign isLastChunk chunkSize (n + 1) iter).1.flatten := by
        cases hout : out slice with
        | nil => simp
        | cons r rs => simp
      simp only
      rw [hbatch, hsent, part_cons hnext, List.flatMap_cons]

-- The part of the last thread is all that is left.
theorem chunk_eq_part (parallelism chunkSize threadIdx : Nat) (hidx : threadIdx < parallelism)
    (groups : List OwnerRrs) :
    chunk parallelism chunkSize threadIdx groups =
      if decide (threadIdx = parallelism - 1) then groups.drop (threadIdx * chunkSize)
      else (groups.drop (threadIdx * chunkSize)).take chunkSize := by
  rw [chunk]
  by_cases hlast : threadIdx = parallelism - 1
  · rw [if_pos (by omega), if_pos (decide_eq_true hlast)]
  · rw [if_neg (by omega), if_neg (by simpa using hlast)]

-- The owners of thread number `threadIdx`.
theorem signRrChunk_spec {signSorted : SignSorted Key Rrsig} {keys : List Key} {zoneName : Name}
    {out : OwnerRrs → List Rrsig}
    (hsign : ∀ slice, signSorted zoneName (recordsIter slice) keys = .ok (out slice))
    (parallelism chunkSize threadIdx : Nat) (hidx : threadIdx < parallelism)
    (records : List StoredRecord) (treat : Bool) :
    let thread := signRrChunk signSorted (decide (threadIdx = parallelism - 1)) chunkSize records
      threadIdx keys zoneName treat
    thread.2 = .ok () ∧
      thread.1.flatten =
        (chunk parallelism chunkSize threadIdx (recordsIter records)).flatMap out := by
  simp only [signRrChunk, skipOwners_eq, zsks_eq]
  rw [chunk_eq_part parallelism chunkSize threadIdx hidx]
  by_cases hdata : threadIdx * chunkSize ≤ (recordsIter records).length
  · rw [if_pos hdata]
    exact signLoop_spec hsign _ chunkSize 0 (fun _ ↦ Nat.zero_le chunkSize) _
  · rw [if_neg hdata, List.drop_eq_nil_of_le (by omega)]
    simp

-- Together the threads send what a call for each single owner gives.
theorem signThreads_spec {signSorted : SignSorted Key Rrsig} {keys : List Key} {zoneName : Name}
    {out : OwnerRrs → List Rrsig}
    (hsign : ∀ slice, signSorted zoneName (recordsIter slice) keys = .ok (out slice))
    {parallelism : Nat} (hpar : 0 < parallelism) (records : List StoredRecord) (treat : Bool) :
    let threads := signThreads signSorted parallelism records keys zoneName treat
    (∀ thread ∈ threads, thread.2 = .ok ()) ∧
      (sentBatches threads).flatten = (recordsIter records).flatMap out := by
  intro threads
  have hthread := fun (i : Nat) (hi : i < parallelism) ↦
    signRrChunk_spec hsign parallelism ((recordsIter records).length / parallelism) i hi records
      treat
  refine ⟨?_, ?_⟩
  · intro thread hmem
    rcases List.mem_map.mp hmem with ⟨i, hi, hthr⟩
    rw [← hthr]
    exact (hthread i (List.mem_range.mp hi)).1
  · have hflat : (sentBatches threads).flatten =
        (List.range parallelism).flatMap (fun i ↦
          (chunk parallelism ((recordsIter records).length / parallelism) i
            (recordsIter records)).flatMap out) := by
      simp only [sentBatches, threads, signThreads, List.flatMap_map]
      rw [← List.flatMap_id, List.flatMap_assoc]
      apply List.flatMap_congr
      intro i hi
      rw [List.flatMap_id]
      exact (hthread i (List.mem_range.mp hi)).2
    rw [hflat, ← List.flatMap_assoc, flatMap_chunk _ _ hpar]

/-! ## The owners of each thread -/

/-- The owners that the signing loop hands to the signing function, after `n` of them. -/
def loopOwners (sign : OwnerRrs → Except String (List Rrsig)) (isLastChunk : Bool)
    (chunkSize : Nat) : Nat → List OwnerRrs → List OwnerRrs
  | _, [] => []
  | n, slice :: iter =>
    if !isLastChunk && n == chunkSize then []
    else
      match sign slice with
      | .error _ => [slice]
      | .ok _ => slice :: loopOwners sign isLastChunk chunkSize (n + 1) iter

/-- The owners that a thread hands to the signing function. -/
def threadOwners (signSorted : SignSorted Key Rrsig) (isLastChunk : Bool) (chunkSize : Nat)
    (records : List StoredRecord) (threadIdx : Nat) (keys : List Key) (zoneName : Name)
    (treatSingleKeysAsCsks : Bool) : List OwnerRrs :=
  match skipOwners (threadIdx * chunkSize) (recordsIter records) with
  | none => []
  | some iter =>
    loopOwners (fun slice ↦ signSorted zoneName (recordsIter slice) (zsks treatSingleKeysAsCsks keys))
      isLastChunk chunkSize 0 iter

-- The batches sent are the signatures of these owners, for those that have any.
theorem signLoop_sent (sign : OwnerRrs → Except String (List Rrsig)) (isLastChunk : Bool)
    (chunkSize n : Nat) (iter : List OwnerRrs) :
    (signLoop sign isLastChunk chunkSize n iter).1 =
      ((loopOwners sign isLastChunk chunkSize n iter).filterMap (fun slice ↦
        (sign slice).toOption)).filter (fun rrsigs ↦ !rrsigs.isEmpty) := by
  induction iter generalizing n with
  | nil => rfl
  | cons slice iter ih =>
    rw [signLoop, loopOwners]
    split
    · rfl
    · cases hsign : sign slice with
      | error err => simp [hsign, Except.toOption]
      | ok rrsigs =>
        simp only [ih]
        cases rrsigs with
        | nil => simp [hsign, Except.toOption]
        | cons r rs => simp [hsign, Except.toOption]

-- Every batch sent is the result of a call of the signing function.
theorem exists_of_mem_sentBatches {signSorted : SignSorted Key Rrsig} {parallelism : Nat}
    {records : List StoredRecord} {keys : List Key} {zoneName : Name} {treat : Bool}
    {batch : List Rrsig}
    (h : batch ∈ sentBatches (signThreads signSorted parallelism records keys zoneName treat)) :
    ∃ groups, signSorted zoneName groups keys = .ok batch := by
  obtain ⟨thread, hthread, hbatch⟩ := List.mem_flatMap.mp h
  obtain ⟨i, _, hi⟩ := List.mem_map.mp hthread
  subst hi
  unfold signRrChunk at hbatch
  cases hskip : skipOwners (i * ((recordsIter records).length / parallelism))
      (recordsIter records) with
  | none => simp [hskip] at hbatch
  | some iter =>
    simp only [hskip, signLoop_sent, zsks_eq] at hbatch
    obtain ⟨slice, _, hslice⟩ := List.mem_filterMap.mp (List.mem_filter.mp hbatch).1
    cases hsign : signSorted zoneName (recordsIter slice) keys with
    | error err => simp [hsign, Except.toOption] at hslice
    | ok rrsigs =>
      have hsame : rrsigs = batch := by simpa [hsign, Except.toOption] using hslice
      exact ⟨recordsIter slice, hsame ▸ hsign⟩

-- By induction on the owners left: the loop takes owners up to the end of its part, and an error is
-- the only way to stop before that.
theorem loopOwners_spec (sign : OwnerRrs → Except String (List Rrsig)) (isLastChunk : Bool)
    (chunkSize n : Nat) (hn : isLastChunk = false → n ≤ chunkSize) (iter : List OwnerRrs) :
    let part := if isLastChunk then iter else iter.take (chunkSize - n)
    loopOwners sign isLastChunk chunkSize n iter <+: part ∧
      ((signLoop sign isLastChunk chunkSize n iter).2 = .ok () →
        loopOwners sign isLastChunk chunkSize n iter = part) := by
  induction iter generalizing n with
  | nil => simp [loopOwners]
  | cons slice iter ih =>
    rw [loopOwners, signLoop]
    by_cases hstop : (!isLastChunk && n == chunkSize) = true
    · simp only [Bool.and_eq_true, Bool.not_eq_true', beq_iff_eq] at hstop
      simp [hstop.1, hstop.2]
    · rw [if_neg hstop, if_neg hstop]
      have hnext := next_le hn hstop
      simp only
      rw [part_cons hnext]
      cases hsign : sign slice with
      | error err =>
        simp only
        refine ⟨?_, nofun⟩
        exact (List.prefix_cons_inj slice).mpr List.nil_prefix
      | ok rrsigs =>
        have hrest := ih (n + 1) hnext
        simp only
        refine ⟨(List.prefix_cons_inj slice).mpr hrest.1, ?_⟩
        intro hok
        rw [hrest.2 hok]

-- No thread runs out of data while it skips the owners of those before it.
theorem skipped_le {parallelism : Nat} (rrCount threadIdx : Nat) (hidx : threadIdx < parallelism) :
    threadIdx * (rrCount / parallelism) ≤ rrCount := by
  calc
    threadIdx * (rrCount / parallelism) ≤ parallelism * (rrCount / parallelism) :=
      Nat.mul_le_mul_right _ (by omega)
    _ ≤ rrCount := Nat.mul_div_le rrCount parallelism

theorem threadOwners_spec (signSorted : SignSorted Key Rrsig) (parallelism chunkSize threadIdx : Nat)
    (hidx : threadIdx < parallelism) (records : List StoredRecord)
    (hskip : threadIdx * chunkSize ≤ (recordsIter records).length) (keys : List Key)
    (zoneName : Name) (treat : Bool) :
    let isLast := decide (threadIdx = parallelism - 1)
    let owners := threadOwners signSorted isLast chunkSize records threadIdx keys zoneName treat
    let part := chunk parallelism chunkSize threadIdx (recordsIter records)
    owners <+: part ∧
      ((signRrChunk signSorted isLast chunkSize records threadIdx keys zoneName treat).2 = .ok () →
        owners = part) := by
  simp only [threadOwners, signRrChunk, skipOwners_eq, if_pos hskip]
  rw [chunk_eq_part parallelism chunkSize threadIdx hidx]
  exact loopOwners_spec _ _ chunkSize 0 (fun _ ↦ Nat.zero_le chunkSize) _

-- A thread sends what the signing function makes of its owners, and nothing else.
theorem signRrChunk_sent (signSorted : SignSorted Key Rrsig) (isLastChunk : Bool)
    (chunkSize threadIdx : Nat) (records : List StoredRecord) (keys : List Key) (zoneName : Name)
    (treat : Bool) :
    (signRrChunk signSorted isLastChunk chunkSize records threadIdx keys zoneName treat).1 =
      ((threadOwners signSorted isLastChunk chunkSize records threadIdx keys zoneName treat).filterMap
        (fun group ↦ (signSorted zoneName (recordsIter group) keys).toOption)).filter
          (fun rrsigs ↦ !rrsigs.isEmpty) := by
  unfold signRrChunk threadOwners
  cases hskip : skipOwners (threadIdx * chunkSize) (recordsIter records) with
  | none => rfl
  | some iter => simp only [signLoop_sent, zsks_eq]

/-- However many owners there are and whatever the limit on the tasks: no two groups of a sorted
list have one owner, no thread runs out of data before its chunk, each hands the owners of its chunk
to the signing function in order, sends the signatures that it makes of them, and stops before the
end of the chunk only for an error.  If there is none, the threads together cover every owner once
and in order. -/
theorem threads_cover_owners (signSorted : SignSorted Key Rrsig) {records : List StoredRecord}
    (hsorted : SortedByOwner records) {maxTasks : Nat} (hmax : 1 ≤ maxTasks) (keys : List Key)
    (zoneName : Name) (treat : Bool) :
    let groups := recordsIter records
    let parallelism := (determineSigningConcurrency groups.length maxTasks).1
    let chunkSize := (determineSigningConcurrency groups.length maxTasks).2
    let isLast (i : Nat) := decide (i = parallelism - 1)
    let result (i : Nat) :=
      (signRrChunk signSorted (isLast i) chunkSize records i keys zoneName treat).2
    let sent (i : Nat) :=
      (signRrChunk signSorted (isLast i) chunkSize records i keys zoneName treat).1
    let owners (i : Nat) := threadOwners signSorted (isLast i) chunkSize records i keys zoneName treat
    1 ≤ parallelism ∧ (groups.map ownerOf).Nodup ∧
      (∀ i < parallelism, (skipOwners (i * chunkSize) groups).isSome = true ∧
        owners i <+: chunk parallelism chunkSize i groups ∧
        sent i = ((owners i).filterMap (fun group ↦
          (signSorted zoneName (recordsIter group) keys).toOption)).filter
            (fun rrsigs ↦ !rrsigs.isEmpty) ∧
        (result i = .ok () → owners i = chunk parallelism chunkSize i groups)) ∧
      ((∀ i < parallelism, result i = .ok ()) →
        (List.range parallelism).flatMap owners = groups) := by
  intro groups parallelism chunkSize isLast result sent owners
  have hspec := determineSigningConcurrency_spec groups.length hmax
  have hpar : 0 < parallelism := hspec.1
  have hsize : chunkSize = groups.length / parallelism := hspec.2
  have hskip : ∀ i < parallelism, i * chunkSize ≤ groups.length := by
    intro i hi
    rw [hsize]
    exact skipped_le groups.length i hi
  have hthread := fun (i : Nat) (hi : i < parallelism) ↦
    threadOwners_spec signSorted parallelism chunkSize i hi records (hskip i hi) keys zoneName treat
  refine ⟨hpar, ?_, ?_, ?_⟩
  · exact nodup_keys_groupsBy Name.canonicalLe_antisymm hsorted
  · intro i hi
    refine ⟨?_, (hthread i hi).1, ?_, (hthread i hi).2⟩
    · rw [skipOwners_eq, if_pos (hskip i hi)]
      rfl
    · exact signRrChunk_sent signSorted (isLast i) chunkSize i records keys zoneName treat
  · intro hok
    have hall : ∀ i ∈ List.range parallelism,
        owners i = chunk parallelism chunkSize i groups := by
      intro i hi
      have hi := List.mem_range.mp hi
      exact (hthread i hi).2 (hok i hi)
    rw [List.flatMap_congr hall]
    exact flatMap_chunk groups chunkSize hpar

/-! ## What the walk leaves out -/

section

variable (nested : Bool) (signRrset : Key → List StoredRecord → Rrsig) (apex : Name)
  (keys : List Key)

-- The signatures of every group on its own are those of the walk and those of the groups it leaves
-- out.
theorem flatMap_signGroup_perm (cut : Option Name) (groups : List OwnerRrs) :
    (groups.flatMap (signGroup signRrset apex keys)).Perm
      (signWalk nested signRrset apex keys cut groups ++
        (occluded nested apex cut groups).flatMap (signGroup signRrset apex keys)) := by
  induction groups generalizing cut with
  | nil => exact List.Perm.refl _
  | cons group groups ih =>
    have hrest := ih (nextCut nested apex cut group)
    rw [signWalk, occluded, List.flatMap_cons]
    cases hbelow : isBelow cut group with
    | true =>
      simp only [if_true, List.nil_append, List.flatMap_append, List.flatMap_singleton]
      refine (hrest.append_left _).trans ?_
      rw [← List.append_assoc, ← List.append_assoc]
      exact List.perm_append_comm.append_right _
    | false =>
      simp only [Bool.false_eq_true, if_false, List.nil_append, List.append_assoc]
      exact hrest.append_left _

-- A group alone is never below a cut.
theorem signWalk_single (group : OwnerRrs) :
    signWalk nested signRrset apex keys none [group] = signGroup signRrset apex keys group := by
  have hbelow : isBelow none group = false := rfl
  simp [signWalk, hbelow]

theorem exists_rrset_iff (group : OwnerRrs) (p : Rtype → Bool) :
    (∃ rrset ∈ rrsets group, rrset.head?.any (fun r ↦ p r.rtype) = true) ↔
      ∃ r ∈ group, p r.rtype = true := by
  have hflat : (rrsets group).flatten = group := flatten_groupsBy _ _
  refine ⟨?_, ?_⟩
  · intro h
    rcases h with ⟨rrset, hmem, hp⟩
    rcases (Option.any_eq_true _ _).mp hp with ⟨r, hr, hpr⟩
    refine ⟨r, ?_, hpr⟩
    rw [← hflat]
    exact List.mem_flatten_of_mem hmem (List.mem_of_mem_head? hr)
  · intro h
    rcases h with ⟨r, hr, hpr⟩
    rw [← hflat] at hr
    rcases List.mem_flatten.mp hr with ⟨rrset, hmem, hr⟩
    refine ⟨rrset, hmem, ?_⟩
    cases rrset with
    | nil => cases hr
    | cons first rest =>
      have htype : first.rtype = r.rtype :=
        key_eq_of_mem_groupsBy hmem List.mem_cons_self hr
      simpa [htype] using hpr

-- A group on its own gives no signatures only without keys or without anything to sign.
theorem signGroup_eq_nil_iff {group : OwnerRrs} (hgroup : group ≠ []) :
    signGroup signRrset apex keys group = [] ↔ keys = [] ∨ NothingToSign apex group := by
  have hsigned : signGroup signRrset apex keys group = [] ↔ keys = [] ∨
      ∀ rrset ∈ rrsets group,
        (!isZoneCut apex group || rrset.head?.any (fun r ↦ ofParent r.rtype)) = false := by
    unfold signGroup
    rw [List.flatMap_eq_nil_iff]
    simp only [List.mem_filter, List.map_eq_nil_iff, and_imp]
    refine ⟨?_, ?_⟩
    · intro h
      by_cases hkeys : keys = []
      · exact Or.inl hkeys
      · refine Or.inr fun rrset hmem ↦ ?_
        cases hp : (!isZoneCut apex group || rrset.head?.any (fun r ↦ ofParent r.rtype)) with
        | false => rfl
        | true => exact absurd (h rrset hmem hp) hkeys
    · intro h rrset hmem hp
      rcases h with h | h
      · exact h
      · rw [h rrset hmem] at hp
        cases hp
  rw [hsigned]
  refine or_congr Iff.rfl ?_
  unfold NothingToSign
  cases hcut : isZoneCut apex group with
  | true =>
    have hexists := exists_rrset_iff group ofParent
    simp only [Bool.not_true, Bool.false_or, true_and]
    refine ⟨?_, ?_⟩
    · intro h r hr
      cases hp : ofParent r.rtype with
      | false => rfl
      | true =>
        rcases hexists.mpr ⟨r, hr, hp⟩ with ⟨rrset, hmem, hany⟩
        rw [h rrset hmem] at hany
        cases hany
    · intro h rrset hmem
      cases hany : rrset.head?.any (fun r ↦ ofParent r.rtype) with
      | false => rfl
      | true =>
        rcases hexists.mp ⟨rrset, hmem, hany⟩ with ⟨r, hr, hp⟩
        rw [h r hr] at hp
        cases hp
  | false =>
    -- a group without a cut has an RRset, which is signed
    have hne : rrsets group ≠ [] := List.splitBy_ne_nil.mpr hgroup
    rcases List.exists_mem_of_ne_nil _ hne with ⟨rrset, hmem⟩
    refine ⟨fun h ↦ ?_, fun h ↦ nomatch h.1⟩
    exact absurd (h rrset hmem) (by simp)

theorem mem_of_mem_occluded {cut : Option Name} {groups : List OwnerRrs} {group : OwnerRrs}
    (h : group ∈ occluded nested apex cut groups) : group ∈ groups := by
  induction groups generalizing cut with
  | nil => cases h
  | cons first groups ih =>
    rw [occluded, List.mem_append] at h
    rcases h with h | h
    · cases hbelow : isBelow cut first with
      | true =>
        simp only [hbelow, if_true, List.mem_singleton] at h
        rw [h]
        exact List.mem_cons_self
      | false => simp [hbelow] at h
    · exact List.mem_cons_of_mem first (ih h)

/-! ## Parallel and sequential signing -/

/-- Whatever the number of threads and the order in which their batches arrive, no thread fails, and
the signatures received are those of one call over all records exactly when there are no keys, or
every owner strictly below a zone cut is itself a delegation without DS and NSEC records. -/
theorem parallel_eq_sequential_iff {signSorted : SignSorted Key Rrsig}
    (hsign : SignsByWalk nested signRrset signSorted) (records : List StoredRecord)
    (parallelism : Nat) (hpar : 0 < parallelism) (treat : Bool) (received : List (List Rrsig))
    (hreceived : received.Perm
      (sentBatches (signThreads signSorted parallelism records keys apex treat))) :
    (∀ thread ∈ signThreads signSorted parallelism records keys apex treat, thread.2 = .ok ()) ∧
      ∃ sequential, signSorted apex (recordsIter records) keys = .ok sequential ∧
        ((received.flatten : Multiset Rrsig) = (sequential : Multiset Rrsig) ↔
          keys = [] ∨ ∀ group ∈ occluded nested apex none (recordsIter records),
            NothingToSign apex group) := by
  choose out hout houtPerm using fun slice ↦ hsign apex (recordsIter slice) keys
  rcases signThreads_spec hout hpar records treat with ⟨hok, hsent⟩
  rcases hsign apex (recordsIter records) keys with ⟨sequential, hseq, hseqPerm⟩
  refine ⟨hok, sequential, hseq, ?_⟩
  -- the call for a single owner signs the group on its own
  have hsingle : ((recordsIter records).flatMap out).Perm
      ((recordsIter records).flatMap (signGroup signRrset apex keys)) := by
    refine List.Perm.flatMap_left _ ?_
    intro group hgroup
    have hgroups : recordsIter group = [group] := groupsBy_of_mem hgroup
    have hperm := houtPerm group
    rw [hgroups, signWalk_single] at hperm
    exact hperm
  have hall : (received.flatten : Multiset Rrsig) =
      (sequential : Multiset Rrsig) +
        (((occluded nested apex none (recordsIter records)).flatMap
          (signGroup signRrset apex keys) : List Rrsig) : Multiset Rrsig) := by
    rw [Multiset.coe_add, Multiset.coe_eq_coe]
    calc
      received.flatten.Perm (sentBatches (signThreads signSorted parallelism records keys apex
          treat)).flatten := hreceived.flatten
      _ = (recordsIter records).flatMap out := hsent
      List.Perm _ ((recordsIter records).flatMap (signGroup signRrset apex keys)) := hsingle
      List.Perm _ (signWalk nested signRrset apex keys none (recordsIter records) ++
          (occluded nested apex none (recordsIter records)).flatMap
            (signGroup signRrset apex keys)) :=
        flatMap_signGroup_perm nested signRrset apex keys none (recordsIter records)
      List.Perm _ (sequential ++ (occluded nested apex none (recordsIter records)).flatMap
            (signGroup signRrset apex keys)) := hseqPerm.symm.append_right _
  rw [hall, add_eq_left, Multiset.coe_eq_zero, List.flatMap_eq_nil_iff]
  have hgroup : ∀ group ∈ occluded nested apex none (recordsIter records),
      (signGroup signRrset apex keys group = [] ↔ keys = [] ∨ NothingToSign apex group) := by
    intro group hmem
    exact signGroup_eq_nil_iff signRrset apex keys
      (ne_nil_of_mem_groupsBy (mem_of_mem_occluded nested apex hmem))
  refine ⟨?_, ?_⟩
  · intro h
    by_cases hkeys : keys = []
    · exact Or.inl hkeys
    · exact Or.inr fun group hmem ↦ ((hgroup group hmem).mp (h group hmem)).resolve_left hkeys
  · intro h group hmem
    exact (hgroup group hmem).mpr (h.imp id (fun hall ↦ hall group hmem))

end

namespace DelegationExample

def apex : Name := ⟨[[110, 108]], by decide⟩

def record (owner : Name) (rtype : Rtype) : StoredRecord :=
  { owner, ttl := 3600, data := .other rtype [1] }

/-- The apex and a delegation. -/
def delegation : List StoredRecord :=
  [record apex Rtype.A, record ⟨[[115], [110, 108]], by decide⟩ Rtype.NS]

/-- The same with another delegation below it. -/
def nestedDelegation : List StoredRecord :=
  delegation ++ [record ⟨[[110], [115], [110, 108]], by decide⟩ Rtype.NS]

/-- The apex and the delegation with the address of its name server below. -/
def withGlue : List StoredRecord :=
  delegation ++ [record ⟨[[110], [115], [110, 108]], by decide⟩ Rtype.A]

abbrev Rrsigs := Multiset (Nat × List StoredRecord)

/-- A signature that is the key and the RRset it signs, and the signing function made of these. -/
def signSorted : SignSorted Nat (Nat × List StoredRecord) := fun apex groups keys ↦
  .ok (signWalk true Prod.mk apex keys none groups)

theorem signsByWalk : SignsByWalk true Prod.mk signSorted :=
  fun _ _ _ ↦ ⟨_, rfl, List.Perm.refl _⟩

end DelegationExample

/-- Two threads over a zone with a delegation below another one, which nothing is signed for. -/
theorem delegation_parallel_eq_sequential :
    let groups := recordsIter DelegationExample.nestedDelegation
    let threads := signThreads DelegationExample.signSorted 2 DelegationExample.nestedDelegation [7]
      DelegationExample.apex true
    (occluded true DelegationExample.apex none groups).length = 1 ∧
      (∀ thread ∈ threads, thread.2 = .ok ()) ∧
      ∃ sequential, DelegationExample.signSorted DelegationExample.apex groups [7] =
          .ok sequential ∧
        ((sentBatches threads).flatten : DelegationExample.Rrsigs) = sequential := by
  intro groups threads
  have hnothing : ∀ group ∈ occluded true DelegationExample.apex none groups,
      NothingToSign DelegationExample.apex group := by
    unfold NothingToSign
    decide
  obtain ⟨hok, sequential, hsequential, hiff⟩ :=
    parallel_eq_sequential_iff true Prod.mk DelegationExample.apex [7]
      DelegationExample.signsByWalk DelegationExample.nestedDelegation 2 (by decide) true _
      (List.Perm.refl (sentBatches threads))
  exact ⟨by decide, hok, sequential, hsequential, hiff.mpr (Or.inr hnothing)⟩

/-- Two threads over the three owners of that zone with glue, the first of them with one owner. -/
theorem three_owners_covered :
    (List.range 2).flatMap (fun i ↦
      threadOwners DelegationExample.signSorted (decide (i = 2 - 1)) 1 DelegationExample.withGlue i
        [7] DelegationExample.apex true) = recordsIter DelegationExample.withGlue := by
  have hsorted : SortedByOwner DelegationExample.withGlue := by
    unfold SortedByOwner
    decide
  have hcover := threads_cover_owners DelegationExample.signSorted hsorted
    (show 1 ≤ 4 by decide) [7] DelegationExample.apex true
  apply hcover.2.2.2
  intro i hi
  exact (signRrChunk_spec (fun _ ↦ rfl) _ _ i hi DelegationExample.withGlue true).1

/-- With glue the threads also sign the address record below the delegation. -/
theorem glue_signed_in_parallel :
    SortedByOwner DelegationExample.withGlue ∧
      SignsByWalk true Prod.mk DelegationExample.signSorted ∧
      ∃ sequential, DelegationExample.signSorted DelegationExample.apex
          (recordsIter DelegationExample.withGlue) [7] = .ok sequential ∧
        ((sentBatches (signThreads DelegationExample.signSorted 2 DelegationExample.withGlue [7]
          DelegationExample.apex true)).flatten : DelegationExample.Rrsigs) ≠ sequential := by
  refine ⟨?_, DelegationExample.signsByWalk,
    [(7, [DelegationExample.record DelegationExample.apex Rtype.A])], rfl, ?_⟩
  · unfold SortedByOwner
    decide
  · intro h
    have hcard := congrArg Multiset.card h
    exact absurd hcard (by decide)

end Signing

end Cascade
