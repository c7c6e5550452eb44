import Mathlib.Data.List.Nodup

/-!
# Merging rows by key

A table is a list of rows with a key each. Merging a delta into it updates the rows whose
key the delta has, and inserts the delta's rows whose key the table does not have. When the
delta has each key at most once, merging keeps the keys of a table distinct, leaves every
row of another key alone, and repeating a merge changes nothing.

## Main definitions

* `DistinctKeys` — no two rows of a table have one key
* `mergeInto` — the merge

## Main results

* `DistinctKeys.mergeInto` — merging keeps keys distinct
* `mem_mergeInto_of_notMem`, `mergeInto_of_mem` — what becomes of a row
* `mergeInto_mergeInto` — merging the same delta twice
-/

namespace MalloyPublisher.Foundations

variable {Row Key : Type*} (key : Row → Key)

/-- No two rows have one key. -/
def DistinctKeys (rows : List Row) : Prop := (rows.map key).Nodup

/-- Rows of one key in a table of distinct keys are one row. -/
theorem DistinctKeys.eq_of_key {key : Row → Key} {rows : List Row} (distinct : DistinctKeys key rows)
    {left right : Row} (leftMember : left ∈ rows) (rightMember : right ∈ rows)
    (same : key left = key right) : left = right :=
  List.inj_on_of_nodup_map distinct leftMember rightMember same

variable [DecidableEq Key]

instance (rows : List Row) : Decidable (DistinctKeys key rows) :=
  inferInstanceAs (Decidable (rows.map key).Nodup)

/-- Merge a delta into a table: `update old new` where a row matches, `insert new` where none
does. -/
def mergeInto (update : Row → Row → Row) (insert : Row → Row) (target delta : List Row) :
    List Row :=
  target.map (fun row =>
      match delta.find? fun new => key row = key new with
      | some new => update row new
      | none => row) ++
    (delta.filter fun new => !target.any fun row => key row = key new).map insert

variable {key} {update : Row → Row → Row} {insert : Row → Row} {target delta : List Row}

/-- Of distinct keys, the row found for a key is the one that has it. -/
theorem DistinctKeys.find?_eq (distinct : DistinctKeys key delta) {row new : Row}
    (member : new ∈ delta) (same : key row = key new) :
    delta.find? (fun new => key row = key new) = some new := by
  cases found : delta.find? fun new => key row = key new with
  | none => simpa [same] using List.find?_eq_none.mp found new member
  | some other =>
    have matched : key row = key other := by simpa using List.find?_some found
    have equal := List.inj_on_of_nodup_map distinct (List.mem_of_find?_eq_some found) member
      (matched.symm.trans same)
    rw [equal]

/-- At most one row of distinct keys has a given key. -/
theorem DistinctKeys.length_filter_le (distinct : DistinctKeys key delta) (row : Row) :
    (delta.filter fun new => key row = key new).length ≤ 1 := by
  have subset : ((delta.filter fun new => key row = key new).map key).Nodup :=
    distinct.sublist ((List.filter_sublist).map key)
  have constant : (delta.filter fun new => key row = key new).map key =
      List.replicate (delta.filter fun new => key row = key new).length (key row) := by
    rw [List.eq_replicate_iff]
    refine ⟨List.length_map .., fun k member => ?_⟩
    obtain ⟨new, matched, rfl⟩ := List.mem_map.mp member
    simpa [eq_comm] using (List.mem_filter.mp matched).2
  rw [constant] at subset
  exact List.nodup_replicate.mp subset

/-- The keys of a merged table: those it had, then those it did not have. -/
theorem map_key_mergeInto (keepsKey : ∀ row, ∀ new ∈ delta, key (update row new) = key row)
    (insertsKey : ∀ new ∈ delta, key (insert new) = key new) :
    (mergeInto key update insert target delta).map key =
      target.map key ++
        (delta.filter fun new => !target.any fun row => key row = key new).map key := by
  rw [mergeInto, List.map_append, List.map_map, List.map_map]
  congr 1
  · refine List.map_congr_left fun row _ => ?_
    simp only [Function.comp_apply]
    split
    · exact keepsKey row _ (List.mem_of_find?_eq_some ‹_›)
    · rfl
  · exact List.map_congr_left fun new member => insertsKey new (List.mem_of_mem_filter member)

/-- Merging keeps keys distinct. -/
theorem DistinctKeys.mergeInto (distinct : DistinctKeys key target)
    (distinctDelta : DistinctKeys key delta)
    (keepsKey : ∀ row, ∀ new ∈ delta, key (update row new) = key row)
    (insertsKey : ∀ new ∈ delta, key (insert new) = key new) :
    DistinctKeys key (mergeInto key update insert target delta) := by
  rw [DistinctKeys, map_key_mergeInto keepsKey insertsKey, List.nodup_append]
  refine ⟨distinct, distinctDelta.sublist ((List.filter_sublist).map key), ?_⟩
  rintro k inTarget _ inDelta rfl
  obtain ⟨row, member, rfl⟩ := List.mem_map.mp inTarget
  obtain ⟨new, kept, same⟩ := List.mem_map.mp inDelta
  have unmatched := (List.mem_filter.mp kept).2
  simp only [Bool.not_eq_true', List.any_eq_false, decide_eq_true_eq] at unmatched
  exact unmatched row member same.symm

/-- A row whose key the delta does not have stays. -/
theorem mem_mergeInto_of_notMem {row : Row} (member : row ∈ target)
    (untouched : ∀ new ∈ delta, key row ≠ key new) :
    row ∈ mergeInto key update insert target delta := by
  have none : delta.find? (fun new => key row = key new) = none :=
    List.find?_eq_none.mpr fun new inside => by simpa using untouched new inside
  refine List.mem_append_left _ (List.mem_map.mpr ⟨row, member, ?_⟩)
  rw [none]

variable (update insert target) in
/-- A row of the delta is in the merged table, as an update or as an insertion. -/
theorem mergeInto_of_mem (distinct : DistinctKeys key delta) {new : Row} (member : new ∈ delta) :
    (∃ row ∈ target, key row = key new ∧
      update row new ∈ mergeInto key update insert target delta) ∨
    insert new ∈ mergeInto key update insert target delta := by
  by_cases matched : ∃ row ∈ target, key row = key new
  · obtain ⟨row, inTarget, same⟩ := matched
    refine .inl ⟨row, inTarget, same, ?_⟩
    refine List.mem_append_left _ (List.mem_map.mpr ⟨row, inTarget, ?_⟩)
    rw [distinct.find?_eq member same]
  · refine .inr (List.mem_append_right _ (List.mem_map_of_mem ?_))
    refine List.mem_filter.mpr ⟨member, ?_⟩
    simpa using fun row inTarget same => matched ⟨row, inTarget, same⟩

/-- Merging the same delta twice leaves what merging it once does. -/
theorem mergeInto_mergeInto (distinct : DistinctKeys key delta)
    (keepsKey : ∀ row, ∀ new ∈ delta, key (update row new) = key row)
    (insertsKey : ∀ new ∈ delta, key (insert new) = key new)
    (updateTwice : ∀ row, ∀ new ∈ delta, update (update row new) new = update row new)
    (updateInserted : ∀ new ∈ delta, update (insert new) new = insert new) :
    mergeInto key update insert (mergeInto key update insert target delta) delta =
      mergeInto key update insert target delta := by
  -- Every key of the delta is in the merged table, so nothing is inserted again.
  have matched : (delta.filter fun new =>
      !(mergeInto key update insert target delta).any fun row => key row = key new) = [] := by
    refine List.filter_eq_nil_iff.mpr fun new member => ?_
    simp only [Bool.not_eq_true, Bool.not_eq_false', List.any_eq_true, decide_eq_true_eq]
    rcases mergeInto_of_mem update insert target distinct member with
      ⟨row, -, same, updated⟩ | inserted
    · exact ⟨_, updated, (keepsKey row new member).trans same⟩
    · exact ⟨_, inserted, insertsKey new member⟩
  rw [mergeInto, matched, List.map_nil, List.append_nil]
  conv_rhs => rw [← List.map_id (mergeInto key update insert target delta)]
  refine List.map_congr_left fun row merged => ?_
  rw [id_eq]
  rcases List.mem_append.mp merged with kept | inserted
  · obtain ⟨old, -, rfl⟩ := List.mem_map.mp kept
    cases found : delta.find? fun new => key old = key new with
    | none => rw [found]
    | some new =>
      have member := List.mem_of_find?_eq_some found
      rw [keepsKey old new member, found]
      exact updateTwice old new member
  · obtain ⟨new, kept, rfl⟩ := List.mem_map.mp inserted
    have member := List.mem_of_mem_filter kept
    rw [distinct.find?_eq member (insertsKey new member)]
    exact updateInserted new member

end MalloyPublisher.Foundations
