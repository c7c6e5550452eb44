import MalloyPublisher.Context.SourceCards
import MalloyPublisher.Foundations.CappedWindow
import MalloyPublisher.Foundations.Groups

/-!
# The window of a ranked answer

A ranked list becomes cards of its first sources. Each card takes its rows in the order of their
ranks, up to a cap for each search target, and a row counts against the target that claimed it best.

## Main definitions

* `windowBySource` — the rows that are kept
* `finishRanked` — the cards that they become

## Main results

* `mem_windowBySource` — which rows are kept
* `entitiesDropped_eq` — what is reported as dropped is what is missing from the cards that are kept
* `mem_keys_finishRanked` — the cards are those of the first sources
-/

namespace MalloyPublisher.Context

open Foundations

/-- `MAX_ENTITIES_PER_SOURCE_TARGET`. -/
def maxEntitiesPerSourceTarget : ℕ := 10

/-- The target that a row is budgeted under. A row that none claims has -1, and a source's own row
spends nothing. -/
def budgetOf (row : ResultEntity) : Option ℤ :=
  if row.kind = .source then none else some (row.bestTarget.elim (-1) Int.ofNat)

structure WindowedRows where
  rows : List ResultEntity
  totalSources : ℕ
  returnedSources : ℕ
  entitiesDropped : ℕ

/-- The rows of a bucket that there is room for, and how many there was none for. -/
def windowOf (bucket : List ResultEntity) : List ResultEntity × ℕ :=
  capped budgetOf maxEntitiesPerSourceTarget (fun _ => 0) bucket

def windowBySource (rows : List ResultEntity) (sourceLimit : ℕ) : WindowedRows :=
  let bySource := groupsOf rowKey rows
  let keptSources := bySource.take sourceLimit
  { rows := keptSources.flatMap fun source => (windowOf source.2).1
    totalSources := bySource.length
    returnedSources := keptSources.length
    entitiesDropped := (keptSources.map fun source => (windowOf source.2).2).sum }

/-- The target with the highest score, the first one of those that share it. -/
def bestTargetOf (scores : List (ℕ × ℚ)) : Option ℕ :=
  (scores.foldl (fun best entry =>
    match best with
    | none => some entry
    | some top => if entry.2 > top.2 then some entry else some top) none).map Prod.fst

structure FinishedRanking (γ : Type) where
  sources : List (SourceCard γ)
  totalSources : ℕ
  entitiesDropped : ℕ

/-- Window by source, and make cards of what is kept. -/
def finishRanked {γ : Type} (sourceContext : String → Option (SourceContextEntry γ))
    (searchTexts : ℕ → Option String) (includeCode : Bool) (rows : List ResultEntity) (max : ℕ) :
    FinishedRanking γ :=
  let windowed := windowBySource rows max
  { sources := toSourceResults sourceContext searchTexts includeCode windowed.rows
    totalSources := windowed.totalSources
    entitiesDropped := windowed.entitiesDropped }

/-! ## Which rows are kept -/

section Window

variable {rows : List ResultEntity} {row : ResultEntity} {limit : ℕ} {key : String}

/-- The keys of the sources that are kept. -/
def keptKeys (rows : List ResultEntity) (limit : ℕ) : List String :=
  ((groupsOf rowKey rows).take limit).map Prod.fst

theorem nodup_keptKeys (rows : List ResultEntity) (limit : ℕ) : (keptKeys rows limit).Nodup := by
  rw [keptKeys, List.map_take]
  exact (nodup_groupsOf rowKey rows).sublist (List.take_sublist _ _)

theorem exists_of_mem_keptKeys (member : key ∈ keptKeys rows limit) :
    ∃ row ∈ rows, rowKey row = key := by
  rw [keptKeys, List.map_take] at member
  exact mem_keys_groupsOf.mp (List.take_subset _ _ member)

/-- When there are not more sources than the limit, all are kept. -/
theorem mem_keptKeys_of_length_le (few : (groupsOf rowKey rows).length ≤ limit)
    (member : row ∈ rows) : rowKey row ∈ keptKeys rows limit := by
  rw [keptKeys, List.take_of_length_le few]
  exact mem_keys_groupsOf.mpr ⟨row, member, rfl⟩

/-- A bucket is the part of the rows with its key. -/
theorem eq_filter_of_mem_take {bucket : String × List ResultEntity}
    (member : bucket ∈ (groupsOf rowKey rows).take limit) :
    bucket.2 = rows.filter fun row => rowKey row = bucket.1 :=
  (mem_groupsOf.mp (List.take_subset _ _ member)).1

theorem mem_bucket_iff :
    row ∈ ((groupsOf rowKey rows).take limit).flatMap Prod.snd ↔
      row ∈ rows ∧ rowKey row ∈ keptKeys rows limit := by
  rw [List.mem_flatMap]
  constructor
  · rintro ⟨bucket, isKept, inBucket⟩
    rw [eq_filter_of_mem_take isKept, List.mem_filter, decide_eq_true_eq] at inBucket
    exact ⟨inBucket.1, List.mem_map.mpr ⟨bucket, isKept, inBucket.2.symm⟩⟩
  · rintro ⟨member, isKept⟩
    obtain ⟨bucket, isBucket, same⟩ := List.mem_map.mp isKept
    refine ⟨bucket, isBucket, ?_⟩
    rw [eq_filter_of_mem_take isBucket]
    exact List.mem_filter.mpr ⟨member, by simpa using same.symm⟩

/-- A row is kept when its source is, and fewer than the cap of its budget stand before it on the
card. -/
theorem mem_windowBySource (distinct : rows.Nodup) :
    row ∈ (windowBySource rows limit).rows ↔
      row ∈ rows ∧ rowKey row ∈ keptKeys rows limit ∧ ∀ target, budgetOf row = some target →
        ahead rows (fun other => decide (rowKey other = rowKey row) &&
          decide (budgetOf other = some target)) row < maxEntitiesPerSourceTarget := by
  have inWindow : ∀ bucket ∈ (groupsOf rowKey rows).take limit, row ∈ (windowOf bucket.2).1 ↔
      (row ∈ rows ∧ rowKey row = bucket.1) ∧ ∀ target, budgetOf row = some target →
        ahead rows (fun other => decide (rowKey other = rowKey row) &&
          decide (budgetOf other = some target)) row < maxEntitiesPerSourceTarget := by
    intro bucket isKept
    rw [windowOf, eq_filter_of_mem_take isKept, mem_capped_iff (distinct.filter _), List.mem_filter,
      decide_eq_true_eq]
    refine and_congr_right fun ⟨member, same⟩ => ?_
    simp only [Nat.zero_add]
    refine forall_congr' fun target => imp_congr_right fun _ => ?_
    rw [ahead_filter distinct _ _ member (by simpa using same), same]
  have isRows : (windowBySource rows limit).rows =
      ((groupsOf rowKey rows).take limit).flatMap fun source => (windowOf source.2).1 := rfl
  rw [isRows, List.mem_flatMap]
  constructor
  · rintro ⟨bucket, isKept, member⟩
    obtain ⟨⟨inRows, same⟩, room⟩ := (inWindow bucket isKept).mp member
    exact ⟨inRows, List.mem_map.mpr ⟨bucket, isKept, same.symm⟩, room⟩
  · rintro ⟨inRows, isKept, room⟩
    obtain ⟨bucket, isBucket, same⟩ := List.mem_map.mp isKept
    exact ⟨bucket, isBucket, (inWindow bucket isBucket).mpr ⟨⟨inRows, same.symm⟩, room⟩⟩

/-- Buckets have no row in common. -/
theorem nodup_buckets (distinct : rows.Nodup) (limit : ℕ) :
    (((groupsOf rowKey rows).take limit).flatMap Prod.snd).Nodup := by
  rw [List.nodup_flatMap]
  constructor
  · intro bucket isKept
    rw [eq_filter_of_mem_take isKept]
    exact distinct.filter _
  · have keys := nodup_keptKeys rows limit
    rw [keptKeys, List.Nodup, List.pairwise_map] at keys
    refine keys.imp_of_mem fun {a b} inA inB apart => ?_
    intro row inBucket inOther
    rw [eq_filter_of_mem_take inA, List.mem_filter, decide_eq_true_eq] at inBucket
    rw [eq_filter_of_mem_take inB, List.mem_filter, decide_eq_true_eq] at inOther
    exact apart (inBucket.2.symm.trans inOther.2)

/-- What is kept of buckets, and what is dropped. -/
theorem windows_sublist (buckets : List (String × List ResultEntity)) :
    (buckets.flatMap fun source => (windowOf source.2).1).Sublist (buckets.flatMap Prod.snd) ∧
      (buckets.flatMap fun source => (windowOf source.2).1).length +
          (buckets.map fun source => (windowOf source.2).2).sum =
        (buckets.flatMap Prod.snd).length := by
  induction buckets with
  | nil => exact ⟨List.Sublist.slnil, rfl⟩
  | cons bucket rest ih =>
    have length := length_capped budgetOf maxEntitiesPerSourceTarget (fun _ => 0) bucket.2
    rw [← windowOf] at length
    simp only [List.flatMap_cons, List.length_append, List.map_cons, List.sum_cons]
    exact ⟨(capped_sublist _ _ _ bucket.2).append ih.1, by omega⟩

theorem nodup_windowBySource (distinct : rows.Nodup) (limit : ℕ) :
    (windowBySource rows limit).rows.Nodup :=
  (nodup_buckets distinct limit).sublist (windows_sublist _).1

/-- The rows that are reported as dropped are those of the kept sources that are missing. -/
theorem entitiesDropped_eq (distinct : rows.Nodup) (limit : ℕ) :
    (windowBySource rows limit).entitiesDropped =
      rows.countP fun row => decide (rowKey row ∈ keptKeys rows limit) &&
        decide (row ∉ (windowBySource rows limit).rows) := by
  set kept := (windowBySource rows limit).rows with isKept
  set buckets := ((groupsOf rowKey rows).take limit).flatMap Prod.snd with isBuckets
  have total : kept.length + (windowBySource rows limit).entitiesDropped = buckets.length :=
    (windows_sublist ((groupsOf rowKey rows).take limit)).2
  have ofBuckets : (rows.filter fun row => rowKey row ∈ keptKeys rows limit).Perm buckets := by
    refine (List.perm_ext_iff_of_nodup (distinct.filter _) (nodup_buckets distinct limit)).mpr
      fun row => ?_
    rw [List.mem_filter, decide_eq_true_eq, mem_bucket_iff]
  have ofKept : (buckets.filter fun row => row ∈ kept).Perm kept := by
    refine (List.perm_ext_iff_of_nodup ((nodup_buckets distinct limit).filter _)
      (nodup_windowBySource distinct limit)).mpr fun row => ?_
    rw [List.mem_filter, decide_eq_true_eq]
    exact and_iff_right_of_imp ((windows_sublist _).1.subset ·)
  have split : kept.length + buckets.countP (fun row => decide (row ∉ kept)) = buckets.length := by
    rw [← ofKept.length_eq, ← List.countP_eq_length_filter, List.length_eq_countP_add_countP
      (fun row => decide (row ∈ kept))]
    congr 1
    exact List.countP_congr fun row _ => by simp
  have dropped : rows.countP (fun row => decide (rowKey row ∈ keptKeys rows limit) &&
      decide (row ∉ kept)) = buckets.countP fun row => decide (row ∉ kept) := by
    rw [← ofBuckets.countP_eq, List.countP_filter]
    exact List.countP_congr fun row _ => by rw [Bool.and_comm]
  rw [dropped]
  omega

/-- No card has more rows of one budget than the cap. -/
theorem countP_windows_le (buckets : List (String × List ResultEntity))
    (keys : (buckets.map Prod.fst).Nodup)
    (own : ∀ bucket ∈ buckets, ∀ row ∈ bucket.2, rowKey row = bucket.1) (key : String) (target : ℤ) :
    (buckets.flatMap fun source => (windowOf source.2).1).countP
      (fun row => decide (rowKey row = key) && decide (budgetOf row = some target)) ≤
        maxEntitiesPerSourceTarget := by
  induction buckets with
  | nil => exact Nat.zero_le _
  | cons bucket rest ih =>
    rw [List.map_cons, List.nodup_cons] at keys
    have ownRest : ∀ bucket ∈ rest, ∀ row ∈ bucket.2, rowKey row = bucket.1 :=
      fun other member => own other (List.mem_cons_of_mem _ member)
    rw [List.flatMap_cons, List.countP_append]
    by_cases same : bucket.1 = key
    · -- the rows of the other buckets have other keys
      have none : (rest.flatMap fun source => (windowOf source.2).1).countP
          (fun row => decide (rowKey row = key) && decide (budgetOf row = some target)) = 0 := by
        rw [List.countP_eq_zero]
        intro row member
        obtain ⟨other, isBucket, inWindow⟩ := List.mem_flatMap.mp member
        have isKey := ownRest other isBucket row ((capped_sublist _ _ _ _).subset inWindow)
        have apart : other.1 ≠ key := fun equal =>
          keys.1 (List.mem_map.mpr ⟨other, isBucket, equal.trans same.symm⟩)
        simp [isKey, apart]
      have room := countP_capped_le budgetOf maxEntitiesPerSourceTarget (fun _ => 0) bucket.2 target
        (Nat.zero_le _)
      rw [Nat.zero_add, ← windowOf] at room
      rw [none, Nat.add_zero]
      refine le_trans (List.countP_mono_left fun row _ kept => ?_) room
      exact (Bool.and_eq_true _ _ ▸ kept : _ ∧ _).2
    · have none : (windowOf bucket.2).1.countP
          (fun row => decide (rowKey row = key) && decide (budgetOf row = some target)) = 0 := by
        rw [List.countP_eq_zero]
        intro row member
        have isKey := own bucket List.mem_cons_self row ((capped_sublist _ _ _ _).subset member)
        simp [isKey, same]
      rw [none, Nat.zero_add]
      exact ih keys.2 ownRest

theorem countP_windowBySource_le (rows : List ResultEntity) (limit : ℕ) (key : String) (target : ℤ) :
    (windowBySource rows limit).rows.countP
      (fun row => decide (rowKey row = key) && decide (budgetOf row = some target)) ≤
        maxEntitiesPerSourceTarget := by
  refine countP_windows_le _ (nodup_keptKeys rows limit) (fun bucket isKept row member => ?_) key target
  rw [eq_filter_of_mem_take isKept, List.mem_filter] at member
  exact of_decide_eq_true member.2

end Window

/-! ## The cards -/

section Finished

variable {γ : Type} {sourceContext : String → Option (SourceContextEntry γ)}
  {searchTexts : ℕ → Option String} {includeCode : Bool} {rows : List ResultEntity}
  {row : ResultEntity} {limit : ℕ} {key : String} {card : SourceCard γ}

theorem mem_of_mem_windowBySource (member : row ∈ (windowBySource rows limit).rows) :
    row ∈ rows ∧ rowKey row ∈ keptKeys rows limit :=
  mem_bucket_iff.mp ((windows_sublist _).1.subset member)

theorem first_mem_windowOf (first : ResultEntity) (rest : List ResultEntity) :
    first ∈ (windowOf (first :: rest)).1 := by
  unfold windowOf capped
  split
  · exact List.mem_cons_self
  · rw [if_neg (by simp [maxEntitiesPerSourceTarget])]
    exact List.mem_cons_self

/-- The cards are those of the sources that are kept. -/
theorem mem_keys_finishRanked (sourced : ∀ row ∈ rows, row.source.isSome) :
    key ∈ (finishRanked sourceContext searchTexts includeCode rows limit).sources.map SourceCard.key ↔
      key ∈ keptKeys rows limit := by
  rw [finishRanked, keys_toSourceResults, mem_keys]
  constructor
  · rintro ⟨row, member, -, rfl⟩
    exact (mem_of_mem_windowBySource member).2
  · intro isKept
    obtain ⟨bucket, isBucket, rfl⟩ := List.mem_map.mp isKept
    obtain ⟨first, rest, isCons⟩ := List.exists_cons_of_ne_nil
      (mem_groupsOf.mp (List.take_subset _ _ isBucket)).2
    have kept : first ∈ (windowOf bucket.2).1 := by
      rw [isCons]
      exact first_mem_windowOf first rest
    have inBucket : first ∈ bucket.2 := (capped_sublist _ _ _ _).subset kept
    rw [eq_filter_of_mem_take isBucket, List.mem_filter] at inBucket
    exact ⟨first, List.mem_flatMap.mpr ⟨bucket, isBucket, kept⟩, sourced first inBucket.1,
      of_decide_eq_true inBucket.2⟩

/-- The entities of a card are rows that are kept. -/
theorem entities_of_mem_finishRanked (sourced : ∀ row ∈ rows, row.source.isSome)
    (member : card ∈ (finishRanked sourceContext searchTexts includeCode rows limit).sources) :
    card.entities = ((windowBySource rows limit).rows.filter fun row =>
      decide (row.kind ≠ .source) && decide (rowKey row = card.key)).map
        (cardEntity searchTexts includeCode) := by
  rw [finishRanked, toSourceResults] at member
  obtain ⟨entry, isEntry, rfl⟩ := List.mem_map.mp member
  rw [key_of_mem isEntry]
  exact entities_of_mem (fun row inWindow => sourced row (mem_of_mem_windowBySource inWindow).1) isEntry

end Finished

end MalloyPublisher.Context
