import Mathlib.Data.List.Induction
import Mathlib.Data.List.Nodup

/-!
# Groups in the order of their keys

A map from keys to lists is filled item by item. Its keys stand in the order in which they came
first, and each group holds its items in theirs.

## Main definitions

* `pushTo` — an item put behind the others of its group
* `groupsOf` — the groups of a list

## Main results

* `nodup_groupsOf` — a key has one group
* `mem_groupsOf` — a group holds the items of its key
-/

namespace MalloyPublisher.Foundations

variable {κ α : Type*} [DecidableEq κ]

/-- An item put behind the others of its group, or in a new one. -/
def pushTo (groups : List (κ × List α)) (key : κ) (item : α) : List (κ × List α) :=
  if key ∈ groups.map Prod.fst then
    groups.map fun group => if group.1 = key then (group.1, group.2 ++ [item]) else group
  else groups ++ [(key, [item])]

def groupsOf (key : α → κ) (items : List α) : List (κ × List α) :=
  items.foldl (fun groups item => pushTo groups (key item) item) []

variable {key : α → κ} {items : List α} {item : α} {k : κ} {group : List α}

theorem groupsOf_append (key : α → κ) (items : List α) (item : α) :
    groupsOf key (items ++ [item]) = pushTo (groupsOf key items) (key item) item := by
  rw [groupsOf, List.foldl_append]
  rfl

theorem keys_pushTo (groups : List (κ × List α)) (key : κ) (item : α) :
    (pushTo groups key item).map Prod.fst =
      if key ∈ groups.map Prod.fst then groups.map Prod.fst else groups.map Prod.fst ++ [key] := by
  unfold pushTo
  split_ifs with old
  · rw [List.map_map]
    refine List.map_congr_left fun group _ => ?_
    rw [Function.comp_apply]
    split_ifs <;> rfl
  · rw [List.map_append]
    rfl

/-- A key has one group. -/
theorem nodup_groupsOf (key : α → κ) (items : List α) : ((groupsOf key items).map Prod.fst).Nodup := by
  induction items using List.reverseRecOn with
  | nil => exact List.nodup_nil
  | append_singleton items item ih =>
    rw [groupsOf_append, keys_pushTo]
    split_ifs with old
    · exact ih
    · rw [List.nodup_append]
      refine ⟨ih, List.nodup_singleton _, fun k member k' last => ?_⟩
      rw [List.mem_singleton.mp last]
      rintro rfl
      exact old member

/-- The keys are those of the items. -/
theorem mem_keys_groupsOf : k ∈ (groupsOf key items).map Prod.fst ↔ ∃ item ∈ items, key item = k := by
  induction items using List.reverseRecOn with
  | nil => simp [groupsOf]
  | append_singleton items item ih =>
    have members : (∃ other ∈ items ++ [item], key other = k) ↔
        (∃ other ∈ items, key other = k) ∨ key item = k := by simp [or_and_right, exists_or]
    rw [groupsOf_append, keys_pushTo, members, ← ih]
    split_ifs with old
    · refine ⟨.inl, fun either => either.elim id ?_⟩
      rintro rfl
      exact old
    · rw [List.mem_append, List.mem_singleton, eq_comm]

/-- A group holds the items of its key. -/
theorem mem_groupsOf : (k, group) ∈ groupsOf key items ↔
    group = items.filter (fun item => key item = k) ∧ group ≠ [] := by
  induction items using List.reverseRecOn generalizing group with
  | nil => simp [groupsOf]
  | append_singleton items item ih =>
    rw [groupsOf_append, List.filter_append]
    by_cases old : key item ∈ (groupsOf key items).map Prod.fst
    · rw [pushTo, if_pos old, List.mem_map]
      by_cases same : key item = k
      · rw [List.filter_cons_of_pos (by simpa using same), List.filter_nil]
        constructor
        · rintro ⟨⟨k', group'⟩, member, pushed⟩
          dsimp only at pushed
          split_ifs at pushed with isKey
          · obtain ⟨rfl, rfl⟩ := Prod.mk.inj pushed
            rw [(ih.mp member).1]
            exact ⟨rfl, by simp⟩
          · exact absurd ((Prod.mk.inj pushed).1.trans same.symm) isKey
        · rintro ⟨rfl, -⟩
          obtain ⟨other, inItems, isKey⟩ := mem_keys_groupsOf.mp old
          have nonempty : items.filter (fun item => key item = k) ≠ [] :=
            List.ne_nil_of_mem (List.mem_filter.mpr ⟨inItems, by simpa using isKey.trans same⟩)
          exact ⟨(k, _), ih.mpr ⟨rfl, nonempty⟩, if_pos same.symm⟩
      · rw [List.filter_cons_of_neg (by simpa using same), List.filter_nil, List.append_nil, ← ih]
        constructor
        · rintro ⟨⟨k', group'⟩, member, pushed⟩
          dsimp only at pushed
          split_ifs at pushed with isKey
          · exact absurd (isKey.symm.trans (Prod.mk.inj pushed).1) same
          · rwa [← pushed]
        · intro member
          exact ⟨(k, group), member, if_neg (Ne.symm same)⟩
    · rw [pushTo, if_neg old, List.mem_append, List.mem_singleton, Prod.mk.injEq]
      have none : items.filter (fun other => key other = key item) = [] := by
        rw [List.filter_eq_nil_iff]
        intro other inItems isKey
        exact old (mem_keys_groupsOf.mpr ⟨other, inItems, by simpa using isKey⟩)
      by_cases same : key item = k
      · subst same
        rw [List.filter_cons_of_pos (by simp), List.filter_nil, none, List.nil_append]
        constructor
        · rintro (member | ⟨-, rfl⟩)
          · exact absurd (List.mem_map.mpr ⟨_, member, rfl⟩) old
          · exact ⟨rfl, List.cons_ne_nil _ _⟩
        · rintro ⟨rfl, -⟩
          exact .inr ⟨rfl, rfl⟩
      · rw [List.filter_cons_of_neg (by simpa using same), List.filter_nil, List.append_nil, ← ih]
        exact or_iff_left fun new => same new.1.symm

end MalloyPublisher.Foundations
