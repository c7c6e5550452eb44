import MalloyPublisher.Foundations.KeyedRecord

/-!
# Gathering values by key

A sequence of keyed values is gathered into one group for each key. The first value of a key
starts its group and every value, the first included, is added to it; the groups stand in the
order in which their keys come up.

## Main definitions

* `gather` — the groups of a sequence
* `valuesOf` — the values of one key, in their order

## Main results

* `lookup_gather` — a group is what its key's values come to
* `mem_gather` — every key that comes up has one group
-/

namespace MalloyPublisher.Foundations

variable {κ α σ : Type*} [DecidableEq κ]

/-- Add a value to the group of its key. -/
def addToGroup (start : α → σ) (add : σ → α → σ) (groups : List (κ × σ)) (keyed : κ × α) :
    List (κ × σ) :=
  setKey keyed.1 (add ((groups.lookup keyed.1).getD (start keyed.2)) keyed.2) groups

/-- The groups of a sequence of keyed values. -/
def gather (start : α → σ) (add : σ → α → σ) (values : List (κ × α)) : List (κ × σ) :=
  values.foldl (addToGroup start add) []

/-- The values of one key. -/
def valuesOf (values : List (κ × α)) (key : κ) : List α :=
  (values.filter (·.1 = key)).map Prod.snd

theorem mem_valuesOf {values : List (κ × α)} {key : κ} {value : α} :
    value ∈ valuesOf values key ↔ (key, value) ∈ values := by
  simp [valuesOf]

theorem valuesOf_append_singleton (values : List (κ × α)) (last : κ × α) (key : κ) :
    valuesOf (values ++ [last]) key =
      valuesOf values key ++ if last.1 = key then [last.2] else [] := by
  unfold valuesOf
  rw [List.filter_append, List.map_append]
  by_cases same : last.1 = key <;> simp [same]

variable (start : α → σ) (add : σ → α → σ)

theorem gather_append_singleton (values : List (κ × α)) (last : κ × α) :
    gather start add (values ++ [last]) =
      addToGroup start add (gather start add values) last := by
  simp [gather]

/-- A group is what the values of its key come to. -/
theorem lookup_gather (values : List (κ × α)) (key : κ) :
    (gather start add values).lookup key =
      (valuesOf values key).head?.map fun first =>
        (valuesOf values key).foldl add (start first) := by
  induction values using List.reverseRecOn with
  | nil => rfl
  | append_singleton values last ih =>
    rw [gather_append_singleton, addToGroup, lookup_setKey, valuesOf_append_singleton]
    by_cases same : key = last.1
    · subst same
      rw [if_pos rfl, if_pos rfl, ih]
      cases valuesOf values last.1 with
      | nil => rfl
      | cons first rest => simp
    · rw [if_neg same, if_neg (Ne.symm same), List.append_nil, ih]

theorem nodup_gather (values : List (κ × α)) :
    ((gather start add values).map Prod.fst).Nodup := by
  induction values using List.reverseRecOn with
  | nil => exact List.nodup_nil
  | append_singleton values last ih =>
    rw [gather_append_singleton]
    exact nodup_setKey ih

/-- Every key that comes up has one group. -/
theorem mem_gather {values : List (κ × α)} {key : κ} {group : σ} :
    (key, group) ∈ gather start add values ↔
      ∃ first, (valuesOf values key).head? = some first ∧
        (valuesOf values key).foldl add (start first) = group := by
  rw [mem_iff_lookup (nodup_gather start add values), lookup_gather, Option.map_eq_some_iff]

/-- A key that comes up has a group. -/
theorem exists_group {values : List (κ × α)} {key : κ} {value : α}
    (member : (key, value) ∈ values) : ∃ group, (key, group) ∈ gather start add values := by
  obtain ⟨first, rest, split⟩ :=
    List.exists_cons_of_ne_nil (List.ne_nil_of_mem (mem_valuesOf.mpr member))
  exact ⟨_, (mem_gather start add).mpr ⟨first, by rw [split]; rfl, rfl⟩⟩

/-- The groups stand in the order in which their keys come up. -/
theorem keys_gather (values : List (κ × α)) :
    (gather start add values).map Prod.fst = (values.map Prod.fst).eraseDups := by
  induction values using List.reverseRecOn with
  | nil => rfl
  | append_singleton values last ih =>
    rw [gather_append_singleton, addToGroup, keys_setKey, ih, List.map_append, List.map_singleton,
      eraseDups_append_singleton]
    simp only [List.mem_eraseDups]

theorem valuesOf_append (first second : List (κ × α)) (key : κ) :
    valuesOf (first ++ second) key = valuesOf first key ++ valuesOf second key := by
  rw [valuesOf, List.filter_append, List.map_append, valuesOf, valuesOf]

theorem valuesOf_perm {first second : List (κ × α)} (perm : first.Perm second) (key : κ) :
    (valuesOf first key).Perm (valuesOf second key) :=
  (perm.filter _).map _

/-- Where keys stand once, each has one value. -/
theorem length_valuesOf_le_one {values : List (κ × α)} (distinct : (values.map Prod.fst).Nodup)
    (key : κ) : (valuesOf values key).length ≤ 1 := by
  induction values with
  | nil => simp [valuesOf]
  | cons first rest ih =>
    obtain ⟨fresh, distinct⟩ := List.nodup_cons.mp distinct
    by_cases same : first.1 = key
    · have none : valuesOf rest key = [] := by
        refine List.eq_nil_iff_forall_not_mem.mpr fun value member => fresh ?_
        rw [same]
        exact List.mem_map.mpr ⟨(key, value), mem_valuesOf.mp member, rfl⟩
      rw [← List.singleton_append, valuesOf_append, none]
      simp [valuesOf, same]
    · rw [← List.singleton_append, valuesOf_append]
      simpa [valuesOf, same] using ih distinct

end MalloyPublisher.Foundations
