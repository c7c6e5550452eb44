import Mathlib.Data.List.Induction
import Mathlib.Data.List.Nodup

/-!
# Records written key by key

A record is a list of keyed values. Writing a key replaces its value where it stands, and
adds it at the end where it does not. After a sequence of writes a key has the value of the
last write to it, or the value it started with.

## Main definitions

* `setKey`, `writeAll` — one write, and a sequence of them
* `lastWrite` — the last value a sequence writes to a key

## Main results

* `mem_writeAll` — what a record holds after a sequence of writes
-/

namespace MalloyPublisher.Foundations

variable {κ ν : Type*} [DecidableEq κ]

/-- Write a value under a key. -/
def setKey (key : κ) (value : ν) : List (κ × ν) → List (κ × ν)
  | [] => [(key, value)]
  | keyed :: rest =>
    if keyed.1 = key then (key, value) :: rest else keyed :: setKey key value rest

/-- Write a sequence of keyed values, one after the other. -/
def writeAll (record writes : List (κ × ν)) : List (κ × ν) :=
  writes.foldl (fun record keyed => setKey keyed.1 keyed.2 record) record

/-- The last value a sequence of writes gives a key. -/
def lastWrite (writes : List (κ × ν)) (key : κ) : Option ν := writes.reverse.lookup key

/-! ## Found by its key -/

section Find

variable {α : Type*} {key : α → κ} {listed : List α} {k : κ} {x : α}

theorem key_of_find (found : (listed.find? fun x => key x == k) = some x) : key x = k := by
  simpa using List.find?_some found

theorem find_key_eq_none : (listed.find? fun x => key x == k) = none ↔ k ∉ listed.map key := by
  simp

/-- Where no two have one key, each is the one its key finds. -/
theorem find_key_eq_some (distinct : (listed.map key).Nodup) :
    (listed.find? fun x => key x == k) = some x ↔ x ∈ listed ∧ key x = k := by
  constructor
  · intro found
    exact ⟨List.mem_of_find?_eq_some found, key_of_find found⟩
  · rintro ⟨member, rfl⟩
    cases found : listed.find? fun y => key y == key x with
    | none => exact absurd (List.mem_map_of_mem member) (find_key_eq_none.mp found)
    | some other =>
      exact congrArg some (List.inj_on_of_nodup_map distinct (List.mem_of_find?_eq_some found)
        member (key_of_find found))

/-- Two lists find the same under a key where they hold the same under it. -/
theorem find_key_congr {others : List α} (distinct : (listed.map key).Nodup)
    (distinct' : (others.map key).Nodup)
    (same : ∀ x, key x = k → (x ∈ listed ↔ x ∈ others)) :
    (listed.find? fun x => key x == k) = others.find? fun x => key x == k := by
  refine Option.ext fun x => ?_
  rw [find_key_eq_some distinct, find_key_eq_some distinct']
  exact and_congr_left fun isKey => same x isKey

end Find

/-! ## Written by key -/

theorem mem_keys_setKey {key other : κ} {value : ν} {record : List (κ × ν)} :
    other ∈ (setKey key value record).map Prod.fst ↔
      other = key ∨ other ∈ record.map Prod.fst := by
  induction record with
  | nil => simp [setKey]
  | cons keyed rest ih =>
    by_cases here : keyed.1 = key
    · simp [setKey, here]
    · rw [setKey, if_neg here, List.map_cons, List.mem_cons, ih, List.map_cons, List.mem_cons]
      exact or_left_comm

/-- A key that is new stands last. -/
theorem keys_setKey (key : κ) (value : ν) (record : List (κ × ν)) :
    (setKey key value record).map Prod.fst =
      if key ∈ record.map Prod.fst then record.map Prod.fst else record.map Prod.fst ++ [key] := by
  induction record with
  | nil => simp [setKey]
  | cons entry record ih =>
    obtain ⟨other, old⟩ := entry
    unfold setKey
    by_cases same : other = key
    · simp [same]
    · by_cases known : key ∈ record.map Prod.fst
      · rw [if_pos known] at ih
        simp [same, ih, known]
      · rw [if_neg known] at ih
        simp [same, Ne.symm same, ih, known]

/-- A write keeps the keys of a record distinct. -/
theorem setKey_of_not_mem {key : κ} {value : ν} {record : List (κ × ν)}
    (fresh : key ∉ record.map Prod.fst) : setKey key value record = record ++ [(key, value)] := by
  induction record with
  | nil => rfl
  | cons keyed rest ih =>
    rw [List.map_cons, List.mem_cons, not_or] at fresh
    rw [setKey, if_neg (Ne.symm fresh.1), ih fresh.2, List.cons_append]

/-- Writes to distinct keys that are not there yet are added at the end. -/
theorem writeAll_of_nodup {record writes : List (κ × ν)}
    (distinct : ((record ++ writes).map Prod.fst).Nodup) :
    writeAll record writes = record ++ writes := by
  induction writes generalizing record with
  | nil => simp [writeAll]
  | cons keyed writes ih =>
    have fresh : keyed.1 ∉ record.map Prod.fst := by
      rw [List.map_append, List.map_cons, List.nodup_append] at distinct
      exact fun there => distinct.2.2 _ there _ List.mem_cons_self rfl
    have moved : record ++ keyed :: writes = (record ++ [keyed]) ++ writes := by simp
    rw [moved] at distinct ⊢
    rw [← ih distinct, writeAll, List.foldl_cons, setKey_of_not_mem fresh]
    rfl

theorem nodup_setKey {key : κ} {value : ν} {record : List (κ × ν)}
    (distinct : (record.map Prod.fst).Nodup) :
    ((setKey key value record).map Prod.fst).Nodup := by
  induction record with
  | nil => simp [setKey]
  | cons keyed rest ih =>
    obtain ⟨absent, distinct⟩ := List.nodup_cons.mp distinct
    by_cases here : keyed.1 = key
    · rw [setKey, if_pos here]
      exact List.nodup_cons.mpr ⟨here ▸ absent, distinct⟩
    · rw [setKey, if_neg here]
      refine List.nodup_cons.mpr ⟨fun member => ?_, ih distinct⟩
      exact (mem_keys_setKey.mp member).elim here absent

/-- What a record of distinct keys holds after one write. -/
theorem mem_setKey {key : κ} {value : ν} {record : List (κ × ν)}
    (distinct : (record.map Prod.fst).Nodup) {keyed : κ × ν} :
    keyed ∈ setKey key value record ↔ keyed = (key, value) ∨ keyed.1 ≠ key ∧ keyed ∈ record := by
  induction record with
  | nil => simp [setKey]
  | cons first rest ih =>
    obtain ⟨absent, distinct⟩ := List.nodup_cons.mp distinct
    by_cases here : first.1 = key
    · have later : keyed ∈ rest → keyed.1 ≠ key := fun member same =>
        absent (here.trans same.symm ▸ List.mem_map_of_mem member)
      rw [setKey, if_pos here, List.mem_cons, List.mem_cons]
      constructor
      · exact Or.imp_right fun member => ⟨later member, .inr member⟩
      · rintro (written | ⟨other, rfl | member⟩)
        · exact .inl written
        · exact absurd here other
        · exact .inr member
    · rw [setKey, if_neg here, List.mem_cons, ih distinct, List.mem_cons]
      constructor
      · rintro (rfl | written | ⟨other, member⟩)
        · exact .inr ⟨here, .inl rfl⟩
        · exact .inl written
        · exact .inr ⟨other, .inr member⟩
      · rintro (written | ⟨other, same | member⟩)
        · exact .inr (.inl written)
        · exact .inl same
        · exact .inr (.inr ⟨other, member⟩)

/-- A write puts in nothing but what it writes. -/
theorem eq_or_mem_of_mem_setKey {key : κ} {value : ν} {record : List (κ × ν)} {keyed : κ × ν}
    (member : keyed ∈ setKey key value record) : keyed = (key, value) ∨ keyed ∈ record := by
  induction record with
  | nil => exact .inl (List.mem_singleton.mp member)
  | cons first rest ih =>
    rw [setKey] at member
    split_ifs at member
    · exact (List.mem_cons.mp member).imp_right (List.mem_cons_of_mem _)
    · rcases List.mem_cons.mp member with rfl | later
      · exact .inr (List.mem_cons_self ..)
      · exact (ih later).imp_right (List.mem_cons_of_mem _)

/-- A key reads as what was written to it, whichever way keys are compared. -/
theorem lookup_setKey [BEq κ] [LawfulBEq κ] {key other : κ} {value : ν} {record : List (κ × ν)} :
    (setKey key value record).lookup other =
      if other = key then some value else record.lookup other := by
  induction record with
  | nil =>
    by_cases same : other = key
    · simp [setKey, same]
    · simp [setKey, List.lookup_cons, same, beq_eq_false_iff_ne.mpr same]
  | cons first rest ih =>
    obtain ⟨written, kept⟩ := first
    by_cases here : written = key
    · subst here
      by_cases same : other = written
      · simp [setKey, same]
      · simp [setKey, List.lookup_cons, same, beq_eq_false_iff_ne.mpr same]
    · rw [setKey, if_neg here, List.lookup_cons, List.lookup_cons, ih]
      by_cases same : other = written
      · simp [same, here]
      · simp [beq_eq_false_iff_ne.mpr same]

/-- A key reads as something where the record has it. -/
theorem isSome_lookup_iff [BEq κ] [LawfulBEq κ] {key : κ} {record : List (κ × ν)} :
    (record.lookup key).isSome ↔ key ∈ record.map Prod.fst := by
  induction record with
  | nil => simp
  | cons first rest ih =>
    obtain ⟨written, value⟩ := first
    by_cases same : key = written
    · simp [same]
    · simp [List.lookup_cons, beq_eq_false_iff_ne.mpr same, same, ih]

/-- A record of distinct keys holds what its keys read as. -/
theorem mem_iff_lookup [BEq κ] [LawfulBEq κ] {record : List (κ × ν)}
    (distinct : (record.map Prod.fst).Nodup) {key : κ} {value : ν} :
    (key, value) ∈ record ↔ record.lookup key = some value := by
  induction record with
  | nil => simp
  | cons first rest ih =>
    obtain ⟨absent, apart⟩ := List.nodup_cons.mp distinct
    obtain ⟨written, kept⟩ := first
    rw [List.mem_cons, ih apart]
    by_cases same : key = written
    · subst same
      have unread : rest.lookup key ≠ some value := by
        intro read
        exact absent (isSome_lookup_iff.mp (by rw [read]; rfl))
      simp [unread, eq_comm]
    · simp [List.lookup_cons, beq_eq_false_iff_ne.mpr same, same]

/-- A key added at the end reads as what was there before, if anything. -/
theorem lookup_append_singleton [BEq κ] [LawfulBEq κ] {record : List (κ × ν)} {last : κ × ν}
    {key : κ} : (record ++ [last]).lookup key =
      (record.lookup key).or (if key = last.1 then some last.2 else none) := by
  obtain ⟨written, value⟩ := last
  rw [List.lookup_append]
  by_cases same : key = written
  · simp [same]
  · simp [List.lookup_cons, beq_eq_false_iff_ne.mpr same, same]

theorem lastWrite_append_singleton {writes : List (κ × ν)} {last : κ × ν} {key : κ} :
    lastWrite (writes ++ [last]) key =
      if key = last.1 then some last.2 else lastWrite writes key := by
  obtain ⟨written, latest⟩ := last
  simp only [lastWrite, List.reverse_append, List.reverse_singleton, List.singleton_append,
    List.lookup_cons]
  by_cases same : key = written
  · simp [same]
  · simp [same, beq_eq_false_iff_ne.mpr same]

theorem writeAll_append_singleton (record writes : List (κ × ν)) (last : κ × ν) :
    writeAll record (writes ++ [last]) = setKey last.1 last.2 (writeAll record writes) := by
  simp [writeAll]

theorem nodup_writeAll {record writes : List (κ × ν)} (distinct : (record.map Prod.fst).Nodup) :
    ((writeAll record writes).map Prod.fst).Nodup := by
  induction writes generalizing record with
  | nil => exact distinct
  | cons first rest ih => exact ih (nodup_setKey distinct)

/-- After a sequence of writes a key has its last written value, or the one it had. -/
theorem mem_writeAll {record writes : List (κ × ν)} (distinct : (record.map Prod.fst).Nodup)
    {key : κ} {value : ν} :
    (key, value) ∈ writeAll record writes ↔
      lastWrite writes key = some value ∨
        lastWrite writes key = none ∧ (key, value) ∈ record := by
  induction writes using List.reverseRecOn with
  | nil => simp [writeAll, lastWrite]
  | append_singleton writes last ih =>
    rw [writeAll_append_singleton, mem_setKey (nodup_writeAll distinct),
      lastWrite_append_singleton, ih, Prod.ext_iff]
    by_cases same : key = last.1
    · have newer : some last.2 = some value ↔ value = last.2 := by
        rw [Option.some.injEq]
        exact eq_comm
      simp [same, newer]
    · simp [same]

/-- Values changed key by key are written last where they were. -/
theorem lastWrite_map {μ : Type*} (change : κ → ν → μ) (writes : List (κ × ν)) (key : κ) :
    lastWrite (writes.map fun keyed => (keyed.1, change keyed.1 keyed.2)) key =
      (lastWrite writes key).map (change key) := by
  unfold lastWrite
  rw [← List.map_reverse]
  induction writes.reverse with
  | nil => rfl
  | cons first rest ih =>
    obtain ⟨written, value⟩ := first
    by_cases same : key = written
    · subst same
      simp
    · simpa [List.lookup_cons, beq_eq_false_iff_ne.mpr same] using ih

theorem mem_of_lastWrite {writes : List (κ × ν)} {key : κ} {value : ν}
    (last : lastWrite writes key = some value) : (key, value) ∈ writes := by
  obtain ⟨before, after, split, -⟩ := List.lookup_eq_some_iff.mp last
  have member : (key, value) ∈ writes.reverse := by simp [split]
  exact List.mem_reverse.mp member

/-- The last value written to a key stands after every other write to it. -/
theorem lastWrite_eq_some_iff {writes : List (κ × ν)} {key : κ} {value : ν} :
    lastWrite writes key = some value ↔
      ∃ before after, writes = before ++ (key, value) :: after ∧ key ∉ after.map Prod.fst := by
  unfold lastWrite
  rw [List.lookup_eq_some_iff]
  constructor
  · rintro ⟨after, before, split, absent⟩
    refine ⟨before.reverse, after.reverse, ?_, ?_⟩
    · rw [← List.reverse_reverse writes, split]
      simp
    · intro member
      obtain ⟨entry, inside, same⟩ := List.mem_map.mp member
      have other := absent entry (List.mem_reverse.mp inside)
      simp [same] at other
  · rintro ⟨before, after, rfl, absent⟩
    refine ⟨after.reverse, before.reverse, by simp, fun entry member => ?_⟩
    apply bne_iff_ne.mpr
    intro same
    exact absent (List.mem_map.mpr ⟨entry, List.mem_reverse.mp member, same.symm⟩)

/-- A key that is written has a last value. -/
theorem exists_lastWrite {writes : List (κ × ν)} {key : κ} {value : ν}
    (member : (key, value) ∈ writes) : ∃ last, lastWrite writes key = some last := by
  have written : key ∈ (writes.reverse).map Prod.fst :=
    List.mem_map.mpr ⟨(key, value), List.mem_reverse.mpr member, rfl⟩
  exact Option.isSome_iff_exists.mp (isSome_lookup_iff.mpr written)

theorem lastWrite_eq_none_iff {writes : List (κ × ν)} {key : κ} :
    lastWrite writes key = none ↔ key ∉ writes.map Prod.fst := by
  have read : (lastWrite writes key).isSome ↔ key ∈ writes.reverse.map Prod.fst :=
    isSome_lookup_iff
  rw [List.map_reverse, List.mem_reverse] at read
  rw [← read, Option.not_isSome_iff_eq_none]

/-- Where each key is written once, what is written last is what is written. -/
theorem lastWrite_eq_some_iff_mem {writes : List (κ × ν)}
    (distinct : (writes.map Prod.fst).Nodup) {key : κ} {value : ν} :
    lastWrite writes key = some value ↔ (key, value) ∈ writes := by
  have apart : (writes.reverse.map Prod.fst).Nodup := by
    rw [List.map_reverse]
    exact List.nodup_reverse.mpr distinct
  rw [← List.mem_reverse, mem_iff_lookup apart]
  rfl

omit [DecidableEq κ] in
/-- Keys read one by one make a record of distinct keys. -/
theorem nodup_map_fst_filterMap (read : κ → Option ν) {keys : List κ}
    (distinct : keys.Nodup) :
    ((keys.filterMap fun key => (read key).map fun value => (key, value)).map Prod.fst).Nodup := by
  induction keys with
  | nil => exact List.nodup_nil
  | cons key keys ih =>
    obtain ⟨absent, distinct⟩ := List.nodup_cons.mp distinct
    rw [List.filterMap_cons]
    cases read key with
    | none => exact ih distinct
    | some value =>
      refine List.nodup_cons.mpr ⟨fun member => absent ?_, ih distinct⟩
      obtain ⟨entry, inside, same⟩ := List.mem_map.mp member
      obtain ⟨other, listed, found⟩ := List.mem_filterMap.mp inside
      obtain ⟨_, _, rfl⟩ := Option.map_eq_some_iff.mp found
      exact (show other = key from same) ▸ listed

/-- Erasing duplicates leaves each value once. -/
theorem nodup_eraseDups (keys : List κ) : keys.eraseDups.Nodup := by
  match keys with
  | [] => exact List.nodup_nil
  | first :: rest =>
    rw [List.eraseDups_cons]
    exact List.nodup_cons.mpr ⟨by simp, nodup_eraseDups _⟩
termination_by keys.length
decreasing_by
  have shorter := List.length_filter_le (fun key => !key == first) rest
  simp only [List.length_cons]
  omega

/-- A value is kept where it stands first. -/
theorem eraseDups_append_singleton (keys : List κ) (last : κ) :
    (keys ++ [last]).eraseDups =
      if last ∈ keys then keys.eraseDups else keys.eraseDups ++ [last] := by
  rw [List.eraseDups_append]
  split_ifs with known
  · simp [List.removeAll, known]
  · simp [List.removeAll, known, List.eraseDups_cons]

/-- What is kept of a list of distinct keys is one value, when all that is kept has its key. -/
theorem filter_eq_singleton {α ι : Type*} {key : α → ι} {keep : α → Bool} {values : List α}
    {value : α} (distinct : (values.map key).Nodup) (member : value ∈ values)
    (kept : keep value = true)
    (only : ∀ other ∈ values, keep other = true → key other = key value) :
    values.filter keep = [value] := by
  obtain ⟨before, after, rfl⟩ := List.append_of_mem member
  rw [List.map_append, List.map_cons, List.nodup_middle, List.nodup_cons, ← List.map_append]
    at distinct
  have dropped : ∀ other ∈ before ++ after, ¬ keep other = true := by
    intro other inside keeps
    have listed : other ∈ before ++ value :: after := by
      rcases List.mem_append.mp inside with earlier | later
      · exact List.mem_append_left _ earlier
      · exact List.mem_append_right _ (List.mem_cons_of_mem _ later)
    exact distinct.1 (List.mem_map.mpr ⟨other, inside, only other listed keeps⟩)
  rw [List.filter_append, List.filter_cons_of_pos kept,
    List.filter_eq_nil_iff.mpr fun other inside => dropped other (List.mem_append_left _ inside),
    List.filter_eq_nil_iff.mpr fun other inside => dropped other (List.mem_append_right _ inside),
    List.nil_append]

end MalloyPublisher.Foundations
