/-
# Grafting row-level conditions onto a copied model

A row-level gate is enforced by recompiling against a deep copy of the model whose
target source carries the gate's condition. The copy keeps the sharing of the
original: one struct may stand under several names and inside several stored
queries, and one filter array in several structs.

The heap below has addresses for both, so that which write is seen where is decided
by the sharing and not by the model of it.
-/

import Mathlib.Data.List.Nodup

namespace MalloyPublisher.Grafting

/-! ## The heap -/

/-- A compiled filter condition. -/
structure FilterCondition where
  code : String
  e : String
  deriving DecidableEq, Repr

/-- What `isSourceDef` and a stored query's `type` tell apart. -/
inductive DefType
  | source
  | query
  | other
  deriving DecidableEq, Repr

/-- A stored query's run target: a name, or a struct inlined by reference. -/
inductive StructRef
  | absent
  | name (key : String)
  | inline (struct : ℕ)
  deriving DecidableEq, Repr

/-- An entry of a model's contents, its filter list held by reference. -/
structure StructDef where
  type : DefType
  sourceID : Option String
  structRef : StructRef
  filterList : Option ℕ
  deriving DecidableEq, Repr

/-- The struct a stored query inlines as its run target, if it does. -/
def StructDef.inlinedRunTarget (struct : StructDef) : Option ℕ :=
  match struct.type, struct.structRef with
  | .query, .inline snapshot => some snapshot
  | _, _ => none

/-- Structs and filter arrays by address. No struct points outside the arrays. -/
structure Heap where
  structs : List StructDef
  arrays : List (List FilterCondition)
  inRange : ∀ struct ∈ structs, ∀ array, struct.filterList = some array → array < arrays.length

/-- A model: its contents, by name. -/
abbrev ModelDef := List (String × ℕ)

/-- The filter list of the struct at an address, read through its reference. -/
def Heap.filterList (heap : Heap) (address : ℕ) : Option (List FilterCondition) :=
  (heap.structs[address]?).bind fun struct => struct.filterList.bind fun array => heap.arrays[array]?

/-- Assign a new array to a struct's filter list. No array is written to. -/
def Heap.assignFilterList (heap : Heap) (address : ℕ) (filters : List FilterCondition) : Heap where
  structs := heap.structs.modify address fun struct =>
    { struct with filterList := some heap.arrays.length }
  arrays := heap.arrays ++ [filters]
  inRange := by
    intro struct member array points
    obtain ⟨index, found⟩ := List.mem_iff_getElem?.mp member
    rw [List.getElem?_modify] at found
    obtain ⟨old, there, rfl⟩ := Option.map_eq_some_iff.mp found
    rw [List.length_append, List.length_singleton]
    split_ifs at points
    · cases points
      omega
    · have := heap.inRange old (List.mem_of_getElem? there) array points
      omega

/-- A struct with its references moved by the sizes of the heap it is copied into. -/
def StructDef.relocate (structs arrays : ℕ) (struct : StructDef) : StructDef where
  type := struct.type
  sourceID := struct.sourceID
  structRef := match struct.structRef with
    | .inline inner => .inline (inner + structs)
    | other => other
  filterList := struct.filterList.map (· + arrays)

/-- The deep copy: every struct and array once more, with the sharing they had. -/
def structuredClone (heap : Heap) (modelDef : ModelDef) : Heap × ModelDef :=
  ({ structs := heap.structs ++
      heap.structs.map (StructDef.relocate heap.structs.length heap.arrays.length)
     arrays := heap.arrays ++ heap.arrays
     inRange := by
      intro struct member array points
      rw [List.length_append]
      rcases List.mem_append.mp member with original | copied
      · have := heap.inRange struct original array points
        omega
      · obtain ⟨old, among, rfl⟩ := List.mem_map.mp copied
        obtain ⟨place, holds, rfl⟩ := Option.map_eq_some_iff.mp points
        have := heap.inRange old among place holds
        omega },
    modelDef.map fun entry => (entry.1, entry.2 + heap.structs.length))

/-! ## The graft -/

/-- A condition and the source it is grafted onto. -/
structure Graft where
  graftTarget : String
  condition : FilterCondition
  deriving DecidableEq, Repr

/-- Whether a filter list already carries a condition's code. -/
def carries (filters : Option (List FilterCondition)) (condition : FilterCondition) : Bool :=
  (filters.getD []).any fun f => f.code = condition.code

/-- One entry of the contents: append the condition to its inlined run target if that
is a snapshot of the target, once. -/
def graftIntoSnapshot (graftTarget sourceID : String) (condition : FilterCondition) (heap : Heap)
    (entry : String × ℕ) : Heap :=
  if entry.1 = graftTarget then heap
  else
    match (heap.structs[entry.2]?).bind StructDef.inlinedRunTarget with
    | none => heap
    | some snapshot =>
      match heap.structs[snapshot]? with
      | none => heap
      | some struct =>
        if struct.sourceID ≠ some sourceID then heap
        else if carries (heap.filterList snapshot) condition then heap
        else heap.assignFilterList snapshot ((heap.filterList snapshot).getD [] ++ [condition])

/-- Append the condition to every named query whose stored run target is a snapshot
of the target. Without a `sourceID` nothing tells one, and all are left alone. -/
def graftIntoNamedQuerySnapshots (heap : Heap) (copy : ModelDef) (graftTarget : String)
    (sourceID : Option String) (condition : FilterCondition) : Heap :=
  match sourceID with
  | none => heap
  | some sourceID =>
    if sourceID = "" then heap
    else copy.foldl (graftIntoSnapshot graftTarget sourceID condition) heap

/-- Append one condition to its target and to the target's snapshots. -/
def graftCondition (copy : ModelDef) (heap : Heap) (graft : Graft) : Except String Heap :=
  let refused := "graft target \"" ++ graft.graftTarget ++ "\" is not a source in this model"
  match copy.lookup graft.graftTarget with
  | none => .error refused
  | some address =>
    match heap.structs[address]? with
    | none => .error refused
    | some target =>
      if target.type ≠ .source then .error refused
      else
        let grafted := heap.assignFilterList address
          ((heap.filterList address).getD [] ++ [graft.condition])
        .ok (graftIntoNamedQuerySnapshots grafted copy graft.graftTarget target.sourceID
          graft.condition)

/-- Copy the model and graft every condition onto the copy, which is what the retained
runtime then loads. -/
def buildGraftedMaterializer (gateRuntime : Bool) (heap : Heap) (grafts : List Graft)
    (modelDef : ModelDef) : Except String (Heap × ModelDef) :=
  if gateRuntime then
    (grafts.foldlM (graftCondition (structuredClone heap modelDef).2)
      (structuredClone heap modelDef).1).map fun grafted =>
        (grafted, (structuredClone heap modelDef).2)
  else .error "no retained runtime to graft a row-level gate through"

/-! ## What one write changes -/

section Frame

variable {heap middle later : Heap} {address place : ℕ} {filters : List FilterCondition}

/-- A struct without its filter list: all that decides where a graft writes. -/
def StructDef.shape (struct : StructDef) : StructDef := { struct with filterList := none }

/-- The later heap differs from the earlier one in the filter lists of the written
structs alone, and no array of the earlier one has changed. -/
structure Frame (written : ℕ → Prop) (heap later : Heap) : Prop where
  shapes : later.structs.map StructDef.shape = heap.structs.map StructDef.shape
  structs : ∀ place, ¬ written place → later.structs[place]? = heap.structs[place]?
  arrays : heap.arrays <+: later.arrays

theorem Frame.refl (written : ℕ → Prop) (heap : Heap) : Frame written heap heap :=
  ⟨rfl, fun _ _ => rfl, List.prefix_rfl⟩

theorem Frame.trans {written : ℕ → Prop} (first : Frame written heap middle)
    (second : Frame written middle later) : Frame written heap later :=
  ⟨second.shapes.trans first.shapes,
    fun place kept => (second.structs place kept).trans (first.structs place kept),
    first.arrays.trans second.arrays⟩

theorem Frame.mono {written written' : ℕ → Prop} (frame : Frame written heap later)
    (wider : ∀ place, written place → written' place) : Frame written' heap later :=
  ⟨frame.shapes, fun place kept => frame.structs place fun wrote => kept (wider place wrote),
    frame.arrays⟩

theorem Frame.shape_eq {written : ℕ → Prop} (frame : Frame written heap later) (place : ℕ) :
    (later.structs[place]?).map StructDef.shape = (heap.structs[place]?).map StructDef.shape := by
  rw [← List.getElem?_map, frame.shapes, List.getElem?_map]

theorem frame_assignFilterList (heap : Heap) (address : ℕ) (filters : List FilterCondition) :
    Frame (· = address) heap (heap.assignFilterList address filters) where
  shapes := by
    apply List.ext_getElem?
    intro place
    simp only [Heap.assignFilterList, List.getElem?_map, List.getElem?_modify]
    cases heap.structs[place]? with
    | none => rfl
    | some struct =>
      simp only [Functor.map, Option.map_some]
      split_ifs <;> rfl
  structs := by
    intro place other
    simp only [Heap.assignFilterList, List.getElem?_modify, Ne.symm other, if_false]
    exact id_map _
  arrays := List.prefix_append _ _

/-- Assigning a filter list is seen at the assigned address and nowhere else, whoever
shares the old array. -/
theorem filterList_assignFilterList (allocated : address < heap.structs.length) :
    (heap.assignFilterList address filters).filterList place =
      if place = address then some filters else heap.filterList place := by
  have old : ∀ struct ∈ heap.structs, (struct.filterList.bind fun array =>
      (heap.arrays ++ [filters])[array]?) =
        struct.filterList.bind fun array => heap.arrays[array]? := by
    intro struct member
    cases points : struct.filterList with
    | none => rfl
    | some array =>
      exact List.getElem?_append_left (heap.inRange struct member array points)
  unfold Heap.filterList Heap.assignFilterList
  simp only [List.getElem?_modify]
  rcases eq_or_ne place address with rfl | other
  · rw [List.getElem?_eq_getElem allocated]
    simp
  · cases found : heap.structs[place]? with
    | none => simp [other]
    | some struct =>
      simpa [other, other.symm] using old struct (List.mem_of_getElem? found)

end Frame

/-! ## Where a graft writes -/

section Writes

/-- Whether the struct at an address is the inlined run target of a stored query under
another name than the target's, with the given `sourceID`. -/
def isSnapshot (heap : Heap) (contents : ModelDef) (graftTarget sourceID : String)
    (address : ℕ) : Bool :=
  (heap.structs[address]?).bind StructDef.sourceID = some sourceID &&
    contents.any fun entry => entry.1 ≠ graftTarget &&
      (heap.structs[entry.2]?).bind StructDef.inlinedRunTarget = some address

/-- Whether the struct at an address is a snapshot of the named target. -/
def isSnapshotOf (heap : Heap) (contents : ModelDef) (graftTarget : String) (address : ℕ) : Bool :=
  match (contents.lookup graftTarget).bind fun target =>
    (heap.structs[target]?).bind StructDef.sourceID with
  | some sourceID => sourceID ≠ "" && isSnapshot heap contents graftTarget sourceID address
  | none => false

/-- A filter list after a condition is appended unless its code is there. -/
def appendOnce (condition : FilterCondition) (filters : Option (List FilterCondition)) :
    Option (List FilterCondition) :=
  if carries filters condition then filters else some (filters.getD [] ++ [condition])

/-- What one graft makes of the filter list at an address. -/
def graftedAt (heap : Heap) (contents : ModelDef) (address : ℕ)
    (filters : Option (List FilterCondition)) (graft : Graft) : Option (List FilterCondition) :=
  if contents.lookup graft.graftTarget = some address then
    some (filters.getD [] ++ [graft.condition])
  else if isSnapshotOf heap contents graft.graftTarget address then
    appendOnce graft.condition filters
  else filters

variable {heap later : Heap} {contents : ModelDef} {graftTarget sourceID : String}
  {condition : FilterCondition} {address place : ℕ}

theorem carries_append_self (filters : List FilterCondition) :
    carries (some (filters ++ [condition])) condition = true := by
  simp [carries]

theorem appendOnce_of_carries {filters : Option (List FilterCondition)}
    (there : carries filters condition = true) : appendOnce condition filters = filters := by
  simp [appendOnce, there]

theorem carries_appendOnce (condition : FilterCondition)
    (filters : Option (List FilterCondition)) :
    carries (appendOnce condition filters) condition = true := by
  unfold appendOnce
  split_ifs with there
  · exact there
  · exact carries_append_self _

/-- Reads that ignore filter lists agree on heaps of equal shapes. -/
theorem Frame.bind_eq {written : ℕ → Prop} {β : Type*} (frame : Frame written heap later)
    (read : StructDef → Option β) (ignores : ∀ struct, read struct.shape = read struct)
    (place : ℕ) : (later.structs[place]?).bind read = (heap.structs[place]?).bind read := by
  have same := frame.shape_eq place
  cases before : heap.structs[place]? <;> cases after : later.structs[place]? <;>
    simp only [before, after, Option.map_none, Option.map_some, Option.some.injEq, reduceCtorEq]
      at same
  · rfl
  · rw [Option.bind_some, Option.bind_some, ← ignores, same, ignores]

theorem Frame.isSnapshot_eq {written : ℕ → Prop} (frame : Frame written heap later) :
    isSnapshot later contents graftTarget sourceID address =
      isSnapshot heap contents graftTarget sourceID address := by
  unfold isSnapshot
  rw [frame.bind_eq StructDef.sourceID fun _ => rfl]
  simp only [frame.bind_eq StructDef.inlinedRunTarget fun _ => rfl]

theorem Frame.isSnapshotOf_eq {written : ℕ → Prop} (frame : Frame written heap later) :
    isSnapshotOf later contents graftTarget address =
      isSnapshotOf heap contents graftTarget address := by
  unfold isSnapshotOf
  simp only [frame.bind_eq StructDef.sourceID fun _ => rfl, frame.isSnapshot_eq]

theorem Frame.graftedAt_eq {written : ℕ → Prop} (frame : Frame written heap later) :
    graftedAt later contents address = graftedAt heap contents address := by
  funext filters graft
  simp only [graftedAt, frame.isSnapshotOf_eq]

theorem isSnapshot_cons (entry : String × ℕ) (contents : ModelDef) :
    isSnapshot heap (entry :: contents) graftTarget sourceID place =
      (isSnapshot heap [entry] graftTarget sourceID place ||
        isSnapshot heap contents graftTarget sourceID place) := by
  simp [isSnapshot, Bool.and_or_distrib_left]

/-- The effect of a step that grafts into snapshots: where it writes, and what. -/
structure GraftsSnapshots (heap : Heap) (contents : ModelDef) (graftTarget sourceID : String)
    (condition : FilterCondition) (later : Heap) : Prop where
  frame : Frame (fun place => isSnapshot heap contents graftTarget sourceID place = true) heap later
  filters : ∀ place, later.filterList place =
    if isSnapshot heap contents graftTarget sourceID place then
      appendOnce condition (heap.filterList place)
    else heap.filterList place

theorem graftIntoSnapshot_spec (entry : String × ℕ) :
    GraftsSnapshots heap [entry] graftTarget sourceID condition
      (graftIntoSnapshot graftTarget sourceID condition heap entry) := by
  -- A step that writes nothing is right when no address is a snapshot, or all of them
  -- carry the code already.
  have idle (nothing : ∀ place, isSnapshot heap [entry] graftTarget sourceID place = true →
      carries (heap.filterList place) condition = true) :
      GraftsSnapshots heap [entry] graftTarget sourceID condition heap := by
    refine ⟨.refl _ _, fun place => ?_⟩
    split_ifs with hit
    · rw [appendOnce_of_carries (nothing place hit)]
    · rfl
  unfold graftIntoSnapshot
  split_ifs with same
  · exact idle fun place hit => by simp [isSnapshot, same] at hit
  · cases inlined : (heap.structs[entry.2]?).bind StructDef.inlinedRunTarget with
    | none => exact idle fun place hit => by simp [isSnapshot, inlined] at hit
    | some snapshot =>
      have hits (place : ℕ) : isSnapshot heap [entry] graftTarget sourceID place = true ↔
          (heap.structs[place]?).bind StructDef.sourceID = some sourceID ∧ snapshot = place := by
        simp [isSnapshot, same, inlined]
      simp only
      cases found : heap.structs[snapshot]? with
      | none =>
        exact idle fun place hit => by
          obtain ⟨owns, rfl⟩ := (hits place).mp hit
          simp [found] at owns
      | some struct =>
        simp only
        by_cases own : struct.sourceID = some sourceID
        · have owns : (heap.structs[snapshot]?).bind StructDef.sourceID = some sourceID := by
            simp [found, own]
          rw [if_neg (not_not.mpr own)]
          by_cases there : carries (heap.filterList snapshot) condition = true
          · rw [if_pos there]
            exact idle fun place hit => by
              obtain ⟨-, rfl⟩ := (hits place).mp hit
              exact there
          · rw [if_neg there]
            obtain ⟨allocated, -⟩ := List.getElem?_eq_some_iff.mp found
            refine ⟨(frame_assignFilterList _ _ _).mono fun place here => ?_, fun place => ?_⟩
            · rw [here]
              exact (hits snapshot).mpr ⟨owns, rfl⟩
            · rw [filterList_assignFilterList allocated]
              rcases eq_or_ne place snapshot with rfl | other
              · rw [if_pos rfl, if_pos ((hits place).mpr ⟨owns, rfl⟩), appendOnce, if_neg there]
              · rw [if_neg other, if_neg fun hit => other ((hits place).mp hit).2.symm]
        · rw [if_pos own]
          exact idle fun place hit => by
            obtain ⟨owns, rfl⟩ := (hits place).mp hit
            exact absurd (by simpa [found] using owns) own

theorem foldl_graftIntoSnapshot_spec :
    GraftsSnapshots heap contents graftTarget sourceID condition
      (contents.foldl (graftIntoSnapshot graftTarget sourceID condition) heap) := by
  induction contents generalizing heap with
  | nil => exact ⟨.refl _ _, fun place => by simp [isSnapshot]⟩
  | cons entry contents ih =>
    have first : GraftsSnapshots heap [entry] graftTarget sourceID condition _ :=
      graftIntoSnapshot_spec entry
    have rest := @ih (graftIntoSnapshot graftTarget sourceID condition heap entry)
    refine ⟨?_, fun place => ?_⟩
    · refine (first.frame.mono fun place hit => ?_).trans (rest.frame.mono fun place hit => ?_)
      · rw [isSnapshot_cons entry contents, hit, Bool.true_or]
      · rw [first.frame.isSnapshot_eq] at hit
        rw [isSnapshot_cons entry contents, hit, Bool.or_true]
    · rw [List.foldl_cons, rest.filters, first.frame.isSnapshot_eq, first.filters,
        isSnapshot_cons entry contents]
      cases isSnapshot heap [entry] graftTarget sourceID place <;>
        cases isSnapshot heap contents graftTarget sourceID place <;>
        simp [appendOnce_of_carries (carries_appendOnce _ _)]

/-- The named target is a source of the model. -/
def IsSourceTarget (heap : Heap) (contents : ModelDef) (graftTarget : String) : Prop :=
  ∃ address struct, contents.lookup graftTarget = some address ∧
    heap.structs[address]? = some struct ∧ struct.type = .source

theorem Frame.isSourceTarget_iff {written : ℕ → Prop} (frame : Frame written heap later) :
    IsSourceTarget later contents graftTarget ↔ IsSourceTarget heap contents graftTarget := by
  have types (address : ℕ) : (later.structs[address]?).map StructDef.type =
      (heap.structs[address]?).map StructDef.type := by
    have same := congrArg (Option.map StructDef.type) (frame.shape_eq address)
    simpa only [Option.map_map, Function.comp_def, StructDef.shape] using same
  have asType (heap : Heap) : IsSourceTarget heap contents graftTarget ↔ ∃ address,
      contents.lookup graftTarget = some address ∧
        (heap.structs[address]?).map StructDef.type = some .source := by
    simp only [IsSourceTarget, Option.map_eq_some_iff]
    exact ⟨fun ⟨address, struct, found, there, type⟩ => ⟨address, found, struct, there, type⟩,
      fun ⟨address, found, struct, there, type⟩ => ⟨address, struct, found, there, type⟩⟩
  simp only [asType, types]

/-- A condition whose target is no source is refused. -/
theorem graftCondition_of_not_isSourceTarget {graft : Graft}
    (missing : ¬ IsSourceTarget heap contents graft.graftTarget) :
    graftCondition contents heap graft = .error
      ("graft target \"" ++ graft.graftTarget ++ "\" is not a source in this model") := by
  unfold graftCondition
  cases found : contents.lookup graft.graftTarget with
  | none => rfl
  | some address =>
    cases there : heap.structs[address]? with
    | none => simp [there]
    | some struct =>
      have foreign : struct.type ≠ .source := fun type =>
        missing ⟨address, struct, found, there, type⟩
      simp [there, foreign]

/-- The effect of one condition: on its target, on the target's snapshots, and on no
other struct. -/
structure GraftsOne (heap : Heap) (contents : ModelDef) (graft : Graft) (later : Heap) : Prop where
  frame : Frame (fun place => contents.lookup graft.graftTarget = some place ∨
    isSnapshotOf heap contents graft.graftTarget place = true) heap later
  filters : ∀ place,
    later.filterList place = graftedAt heap contents place (heap.filterList place) graft

theorem graftCondition_of_isSourceTarget {graft : Graft}
    (source : IsSourceTarget heap contents graft.graftTarget) :
    ∃ later, graftCondition contents heap graft = .ok later ∧
      GraftsOne heap contents graft later := by
  obtain ⟨address, struct, found, there, type⟩ := source
  obtain ⟨allocated, -⟩ := List.getElem?_eq_some_iff.mp there
  obtain ⟨grafted, assigned⟩ : ∃ grafted, grafted = heap.assignFilterList address
    ((heap.filterList address).getD [] ++ [graft.condition]) := ⟨_, rfl⟩
  have first : Frame (· = address) heap grafted := assigned ▸ frame_assignFilterList _ _ _
  have filters (place : ℕ) : grafted.filterList place = if place = address then
      some ((heap.filterList address).getD [] ++ [graft.condition]) else heap.filterList place := by
    rw [assigned, filterList_assignFilterList allocated]
  have snapshotOf (place : ℕ) : isSnapshotOf heap contents graft.graftTarget place =
      match struct.sourceID with
      | some sourceID => sourceID ≠ "" && isSnapshot heap contents graft.graftTarget sourceID place
      | none => false := by
    simp [isSnapshotOf, found, there]
  have answers : graftCondition contents heap graft = .ok (graftIntoNamedQuerySnapshots grafted
      contents graft.graftTarget struct.sourceID graft.condition) := by
    simp [graftCondition, found, there, type, assigned]
  refine ⟨_, answers, ?_⟩
  -- Without a usable `sourceID` the target alone is written to.
  have alone (nowhere : ∀ place, isSnapshotOf heap contents graft.graftTarget place = false) :
      GraftsOne heap contents graft grafted := by
    refine ⟨first.mono fun place here => .inl (here ▸ found), fun place => ?_⟩
    rw [filters, graftedAt, found, nowhere]
    rcases eq_or_ne place address with rfl | other
    · simp
    · simp [other, Ne.symm other]
  cases owned : struct.sourceID with
  | none => exact alone fun place => by rw [snapshotOf, owned]
  | some sourceID =>
    by_cases empty : sourceID = ""
    · simp only [graftIntoNamedQuerySnapshots, empty, if_true]
      exact alone fun place => by simp [snapshotOf, owned, empty]
    · simp only [graftIntoNamedQuerySnapshots, if_neg empty]
      have snapshots (place : ℕ) : isSnapshotOf heap contents graft.graftTarget place =
          isSnapshot heap contents graft.graftTarget sourceID place := by
        simp [snapshotOf, owned, empty]
      have rest : GraftsSnapshots grafted contents graft.graftTarget sourceID graft.condition _ :=
        foldl_graftIntoSnapshot_spec
      refine ⟨?_, fun place => ?_⟩
      · refine (first.mono fun place here => .inl (here ▸ found)).trans
          (rest.frame.mono fun place hit => .inr ?_)
        rw [first.isSnapshot_eq] at hit
        rw [snapshots, hit]
      · rw [rest.filters, first.isSnapshot_eq, filters, graftedAt, found, snapshots]
        rcases eq_or_ne place address with rfl | other
        · -- The target carries the code by now, so a snapshot of itself gains nothing more.
          simp [appendOnce_of_carries (carries_append_self _)]
        · simp [other, Ne.symm other]

/-- The effect of a list of conditions: at each address, theirs in order. -/
structure GraftsAll (heap : Heap) (contents : ModelDef) (grafts : List Graft) (later : Heap) :
    Prop where
  frame : Frame (fun place => ∃ graft ∈ grafts, contents.lookup graft.graftTarget = some place ∨
    isSnapshotOf heap contents graft.graftTarget place = true) heap later
  filters : ∀ place, later.filterList place =
    grafts.foldl (graftedAt heap contents place) (heap.filterList place)

theorem foldlM_graftCondition {grafts : List Graft}
    (sources : ∀ graft ∈ grafts, IsSourceTarget heap contents graft.graftTarget) :
    ∃ later, grafts.foldlM (graftCondition contents) heap = .ok later ∧
      GraftsAll heap contents grafts later := by
  induction grafts generalizing heap with
  | nil => exact ⟨heap, rfl, .refl _ _, fun _ => rfl⟩
  | cons graft grafts ih =>
    obtain ⟨middle, answers, one⟩ :=
      graftCondition_of_isSourceTarget (sources graft List.mem_cons_self)
    obtain ⟨later, rest, all⟩ := @ih middle fun other member =>
      one.frame.isSourceTarget_iff.mpr (sources other (List.mem_cons_of_mem _ member))
    refine ⟨later, ?_, ?_, fun place => ?_⟩
    · rw [List.foldlM_cons, answers]
      exact rest
    · refine (one.frame.mono fun place wrote => ?_).trans (all.frame.mono ?_)
      · exact ⟨graft, List.mem_cons_self, wrote⟩
      · rintro place ⟨other, member, wrote⟩
        rw [one.frame.isSnapshotOf_eq] at wrote
        exact ⟨other, List.mem_cons_of_mem _ member, wrote⟩
    · rw [all.filters, one.frame.graftedAt_eq, one.filters, List.foldl_cons]

theorem foldlM_graftCondition_error {grafts : List Graft} {graft : Graft} (member : graft ∈ grafts)
    (missing : ¬ IsSourceTarget heap contents graft.graftTarget) :
    ∃ message, grafts.foldlM (graftCondition contents) heap = .error message := by
  induction grafts generalizing heap with
  | nil => cases member
  | cons first grafts ih =>
    rw [List.foldlM_cons]
    by_cases source : IsSourceTarget heap contents first.graftTarget
    · obtain ⟨middle, answers, one⟩ := graftCondition_of_isSourceTarget source
      rw [answers]
      rcases List.mem_cons.mp member with rfl | member
      · exact absurd source missing
      · exact ih member fun there => missing (one.frame.isSourceTarget_iff.mp there)
    · rw [graftCondition_of_not_isSourceTarget source]
      exact ⟨_, rfl⟩

end Writes

/-! ## The copy -/

section Clone

variable {heap : Heap} {modelDef : ModelDef} {graftTarget sourceID : String} {address : ℕ}

theorem structuredClone_structs (heap : Heap) (modelDef : ModelDef) (address : ℕ) :
    (structuredClone heap modelDef).1.structs[address + heap.structs.length]? =
      (heap.structs[address]?).map
        (StructDef.relocate heap.structs.length heap.arrays.length) := by
  simp only [structuredClone]
  rw [List.getElem?_append_right (by omega), Nat.add_sub_cancel, List.getElem?_map]

/-- A copied struct has the filter list of its original. -/
theorem structuredClone_filterList (heap : Heap) (modelDef : ModelDef) (address : ℕ) :
    (structuredClone heap modelDef).1.filterList (address + heap.structs.length) =
      heap.filterList address := by
  rw [Heap.filterList, structuredClone_structs, Heap.filterList]
  cases found : heap.structs[address]? with
  | none => rfl
  | some struct =>
    cases points : struct.filterList with
    | none => simp [StructDef.relocate, points]
    | some array =>
      simp only [Option.map_some, Option.bind_some, StructDef.relocate, points, structuredClone]
      rw [List.getElem?_append_right (by omega), Nat.add_sub_cancel]

theorem structuredClone_lookup (heap : Heap) (modelDef : ModelDef) (graftTarget : String) :
    (structuredClone heap modelDef).2.lookup graftTarget =
      (modelDef.lookup graftTarget).map (· + heap.structs.length) := by
  simp only [structuredClone]
  induction modelDef with
  | nil => rfl
  | cons entry modelDef ih =>
    rw [List.map_cons, List.lookup_cons, List.lookup_cons, ih]
    split <;> rfl

theorem relocate_inlinedRunTarget (structs arrays : ℕ) (struct : StructDef) :
    (struct.relocate structs arrays).inlinedRunTarget =
      struct.inlinedRunTarget.map (· + structs) := by
  unfold StructDef.inlinedRunTarget StructDef.relocate
  cases struct.type <;> cases struct.structRef <;> rfl

theorem structuredClone_sourceID (heap : Heap) (modelDef : ModelDef) (address : ℕ) :
    ((structuredClone heap modelDef).1.structs[address + heap.structs.length]?).bind
        StructDef.sourceID = (heap.structs[address]?).bind StructDef.sourceID := by
  rw [structuredClone_structs]
  cases heap.structs[address]? <;> rfl

theorem structuredClone_inlinedRunTarget (heap : Heap) (modelDef : ModelDef) (address : ℕ) :
    ((structuredClone heap modelDef).1.structs[address + heap.structs.length]?).bind
        StructDef.inlinedRunTarget =
      ((heap.structs[address]?).bind StructDef.inlinedRunTarget).map
        (· + heap.structs.length) := by
  rw [structuredClone_structs]
  cases heap.structs[address]? with
  | none => rfl
  | some struct => exact relocate_inlinedRunTarget _ _ struct

theorem structuredClone_isSnapshot (heap : Heap) (modelDef : ModelDef)
    (graftTarget sourceID : String) (address : ℕ) :
    isSnapshot (structuredClone heap modelDef).1 (structuredClone heap modelDef).2 graftTarget
        sourceID (address + heap.structs.length) =
      isSnapshot heap modelDef graftTarget sourceID address := by
  have entries : (structuredClone heap modelDef).2 =
      modelDef.map fun entry => (entry.1, entry.2 + heap.structs.length) := rfl
  rw [isSnapshot, isSnapshot, structuredClone_sourceID, entries, List.any_map]
  congr 2
  funext entry
  rw [Function.comp_apply, structuredClone_inlinedRunTarget]
  congr 1
  cases (heap.structs[entry.2]?).bind StructDef.inlinedRunTarget <;> simp

theorem structuredClone_isSnapshotOf (heap : Heap) (modelDef : ModelDef) (graftTarget : String)
    (address : ℕ) :
    isSnapshotOf (structuredClone heap modelDef).1 (structuredClone heap modelDef).2 graftTarget
        (address + heap.structs.length) = isSnapshotOf heap modelDef graftTarget address := by
  unfold isSnapshotOf
  rw [structuredClone_lookup]
  cases modelDef.lookup graftTarget with
  | none => rfl
  | some target =>
    simp only [Option.map_some, Option.bind_some, structuredClone_sourceID,
      structuredClone_isSnapshot]

theorem structuredClone_graftedAt (heap : Heap) (modelDef : ModelDef) (address : ℕ) :
    graftedAt (structuredClone heap modelDef).1 (structuredClone heap modelDef).2
      (address + heap.structs.length) = graftedAt heap modelDef address := by
  funext filters graft
  unfold graftedAt
  rw [structuredClone_isSnapshotOf, structuredClone_lookup]
  have same : (modelDef.lookup graft.graftTarget).map (· + heap.structs.length) =
      some (address + heap.structs.length) ↔ modelDef.lookup graft.graftTarget = some address := by
    cases modelDef.lookup graft.graftTarget <;> simp
  simp only [same]

theorem structuredClone_isSourceTarget :
    IsSourceTarget (structuredClone heap modelDef).1 (structuredClone heap modelDef).2 graftTarget ↔
      IsSourceTarget heap modelDef graftTarget := by
  unfold IsSourceTarget
  rw [structuredClone_lookup]
  cases modelDef.lookup graftTarget with
  | none => simp
  | some target =>
    simp only [Option.map_some, Option.some.injEq, exists_and_left, exists_eq_left',
      structuredClone_structs, Option.map_eq_some_iff]
    constructor
    · rintro ⟨_, ⟨struct, there, rfl⟩, type⟩
      exact ⟨struct, there, type⟩
    · rintro ⟨struct, there, type⟩
      exact ⟨_, ⟨struct, there, rfl⟩, type⟩

/-- A graft writes to the copy alone. -/
theorem structuredClone_writes {graftTarget : String} {place : ℕ}
    (wrote : (structuredClone heap modelDef).2.lookup graftTarget = some place ∨
      isSnapshotOf (structuredClone heap modelDef).1 (structuredClone heap modelDef).2 graftTarget
        place = true) : heap.structs.length ≤ place := by
  rcases wrote with target | snapshot
  · rw [structuredClone_lookup] at target
    obtain ⟨address, -, rfl⟩ := Option.map_eq_some_iff.mp target
    omega
  · unfold isSnapshotOf at snapshot
    split at snapshot
    · have entries : (structuredClone heap modelDef).2 =
          modelDef.map fun entry => (entry.1, entry.2 + heap.structs.length) := rfl
      simp only [isSnapshot, entries, List.any_map, Bool.and_eq_true, List.any_eq_true,
        Function.comp_apply, structuredClone_inlinedRunTarget, decide_eq_true_eq] at snapshot
      obtain ⟨-, -, entry, -, -, inlined⟩ := snapshot
      obtain ⟨address, -, rfl⟩ := Option.map_eq_some_iff.mp inlined
      omega
    · cases snapshot

end Clone

/-! ## What the graft touches -/

section Law

/-- The conditions a list of grafts holds for the sources a test picks. -/
def conditionsFor (grafts : List Graft) (picked : String → Bool) : List FilterCondition :=
  (grafts.filter fun graft => picked graft.graftTarget).map Graft.condition

/-- The list gains each condition once, and none whose code it has. -/
def GainsOnce (conditions : List FilterCondition) (old new : Option (List FilterCondition)) :
    Prop :=
  ∃ added, new.getD [] = old.getD [] ++ added ∧ (∀ c ∈ added, c ∈ conditions) ∧
    ∀ c ∈ conditions, added.countP (fun f => f.code = c.code) = if carries old c then 0 else 1

variable (heap : Heap) (modelDef : ModelDef) (grafts : List Graft) (later : Heap)

/-- A target's copy has the old list followed by the target's conditions in order. -/
def TargetsGain : Prop :=
  ∀ graft ∈ grafts, ∀ address, modelDef.lookup graft.graftTarget = some address →
    later.filterList (address + heap.structs.length) =
      some ((heap.filterList address).getD [] ++
        conditionsFor grafts fun name => name = graft.graftTarget)

/-- The copy of a struct gains the conditions of the targets it is a snapshot of. -/
def SnapshotGains (address : ℕ) : Prop :=
  GainsOnce (conditionsFor grafts fun name => isSnapshotOf heap modelDef name address)
    (heap.filterList address) (later.filterList (address + heap.structs.length))

/-- A struct under a grafted name. -/
def IsTarget (address : ℕ) : Prop :=
  ∃ graft ∈ grafts, modelDef.lookup graft.graftTarget = some address

/-- A struct some stored query holds as a snapshot of a target. -/
def IsSnapshot (address : ℕ) : Prop :=
  ∃ graft ∈ grafts, isSnapshotOf heap modelDef graft.graftTarget address = true

/-- Distinct targets are distinct structs, and none is a snapshot of another. -/
def TargetsSeparate : Prop :=
  ∀ graft ∈ grafts, ∀ other ∈ grafts, other.graftTarget ≠ graft.graftTarget →
    ∀ address, modelDef.lookup graft.graftTarget = some address →
      modelDef.lookup other.graftTarget ≠ some address ∧
        isSnapshotOf heap modelDef other.graftTarget address = false

variable {heap modelDef grafts later}

/-- Appending conditions one by one, each unless its code is there. -/
theorem gainsOnce_foldl (conditions : List FilterCondition)
    (old : Option (List FilterCondition)) :
    GainsOnce conditions old (conditions.foldl (fun filters c => appendOnce c filters) old) := by
  induction conditions generalizing old with
  | nil => exact ⟨[], by simp, by simp, by simp⟩
  | cons condition conditions ih =>
    obtain ⟨added, appended, among, counts⟩ := ih (appendOnce condition old)
    rw [List.foldl_cons]
    -- What the rest adds, the list so far does not carry.
    have fresh : ∀ c ∈ added, carries (appendOnce condition old) c = false := by
      intro c member
      by_contra there
      have none := counts c (among c member)
      rw [if_pos (by simpa using there), List.countP_eq_zero] at none
      exact none c member (by simp)
    have notAgain : added.countP (fun f => f.code = condition.code) = 0 := by
      refine List.countP_eq_zero.mpr fun c member same => ?_
      have new := fresh c member
      have there := carries_appendOnce condition old
      have code : c.code = condition.code := by simpa using same
      unfold carries at new there
      rw [code, there] at new
      cases new
    by_cases there : carries old condition = true
    · rw [appendOnce_of_carries there] at appended counts ⊢
      refine ⟨added, appended, fun c member => List.mem_cons_of_mem _ (among c member), ?_⟩
      intro c member
      rcases List.mem_cons.mp member with rfl | member
      · rw [notAgain, if_pos there]
      · exact counts c member
    · have mid : appendOnce condition old = some (old.getD [] ++ [condition]) := by
        rw [appendOnce, if_neg there]
      refine ⟨condition :: added, ?_, ?_, ?_⟩
      · rw [appended, mid]
        simp
      · rintro c member
        rcases List.mem_cons.mp member with rfl | member
        · exact List.mem_cons_self
        · exact List.mem_cons_of_mem _ (among c member)
      · intro c member
        rcases eq_or_ne condition.code c.code with same | other
        · have carried : carries old c = false := by
            unfold carries at there ⊢
            rw [← same]
            simpa using there
          rw [List.countP_cons, ← same, notAgain, carried]
          simp
        · have member := (List.mem_cons.mp member).resolve_left fun same => other (by rw [same])
          have counted := counts c member
          have sameCarry : carries (appendOnce condition old) c = carries old c := by
            simp [mid, carries, other]
          rw [sameCarry] at counted
          rw [List.countP_cons, counted]
          simp [other]

/-- At a struct that is no target, the grafts append their conditions once. -/
theorem foldl_graftedAt_of_not_isTarget {address : ℕ} (filters : Option (List FilterCondition))
    (untargeted : ∀ graft ∈ grafts, modelDef.lookup graft.graftTarget ≠ some address) :
    grafts.foldl (graftedAt heap modelDef address) filters =
      (conditionsFor grafts fun name => isSnapshotOf heap modelDef name address).foldl
        (fun filters c => appendOnce c filters) filters := by
  induction grafts generalizing filters with
  | nil => rfl
  | cons graft grafts ih =>
    have rest := fun filters => ih filters fun other member =>
      untargeted other (List.mem_cons_of_mem _ member)
    rw [List.foldl_cons, rest, graftedAt, if_neg (untargeted graft List.mem_cons_self)]
    cases snapshot : isSnapshotOf heap modelDef graft.graftTarget address <;>
      simp [conditionsFor, snapshot]

/-- At a target separate from the others, its own conditions are appended in order. -/
theorem foldl_graftedAt_of_target {address : ℕ} {graftTarget : String}
    (filters : Option (List FilterCondition))
    (found : modelDef.lookup graftTarget = some address)
    (separate : ∀ other ∈ grafts, other.graftTarget ≠ graftTarget →
      modelDef.lookup other.graftTarget ≠ some address ∧
        isSnapshotOf heap modelDef other.graftTarget address = false) :
    (grafts.foldl (graftedAt heap modelDef address) filters).getD [] =
        filters.getD [] ++ conditionsFor grafts (fun name => name = graftTarget) ∧
      ((∃ graft ∈ grafts, graft.graftTarget = graftTarget) ∨ filters.isSome →
        (grafts.foldl (graftedAt heap modelDef address) filters).isSome) := by
  induction grafts generalizing filters with
  | nil => simp [conditionsFor]
  | cons graft grafts ih =>
    obtain ⟨appended, present⟩ := ih (graftedAt heap modelDef address filters graft)
      fun other member => separate other (List.mem_cons_of_mem _ member)
    rw [List.foldl_cons]
    by_cases own : graft.graftTarget = graftTarget
    · have here : graftedAt heap modelDef address filters graft =
          some (filters.getD [] ++ [graft.condition]) := by
        rw [graftedAt, own, if_pos found]
      refine ⟨?_, fun _ => present (.inr (by simp [here]))⟩
      rw [appended, here]
      simp [conditionsFor, own]
    · obtain ⟨elsewhere, apart⟩ := separate graft List.mem_cons_self own
      have here : graftedAt heap modelDef address filters graft = filters := by
        simp [graftedAt, elsewhere, apart]
      rw [here] at appended present ⊢
      refine ⟨by simpa [conditionsFor, own] using appended, fun some => present ?_⟩
      rcases some with ⟨other, member, same⟩ | isSome
      · rcases List.mem_cons.mp member with rfl | member
        · exact absurd same own
        · exact .inl ⟨other, member, same⟩
      · exact .inr isSome

/-- Grafting touches exactly its targets and their snapshots. The original heap stays as
it was; in the copy a target separate from the others gains its conditions in order, a
snapshot that is no target gains each of its targets' conditions once, and every other
struct keeps its filter list. A target that is missing or no source is refused. -/
theorem buildGraftedMaterializer_touches (heap : Heap) (modelDef : ModelDef)
    (grafts : List Graft) :
    ((∃ graft ∈ grafts, ¬ IsSourceTarget heap modelDef graft.graftTarget) →
      ∃ message, buildGraftedMaterializer true heap grafts modelDef = .error message) ∧
    ((∀ graft ∈ grafts, IsSourceTarget heap modelDef graft.graftTarget) →
      ∃ later, buildGraftedMaterializer true heap grafts modelDef =
          .ok (later, (structuredClone heap modelDef).2) ∧
        heap.structs <+: later.structs ∧ heap.arrays <+: later.arrays ∧
        (TargetsSeparate heap modelDef grafts → TargetsGain heap modelDef grafts later) ∧
        (∀ address, IsSnapshot heap modelDef grafts address → ¬ IsTarget modelDef grafts address →
          SnapshotGains heap modelDef grafts later address) ∧
        ∀ address, ¬ IsSnapshot heap modelDef grafts address → ¬ IsTarget modelDef grafts address →
          later.filterList (address + heap.structs.length) = heap.filterList address) := by
  constructor
  · rintro ⟨graft, member, missing⟩
    obtain ⟨message, refused⟩ := foldlM_graftCondition_error member
      (mt structuredClone_isSourceTarget.mp missing)
    exact ⟨message, by rw [buildGraftedMaterializer, if_pos rfl, refused]; rfl⟩
  · intro sources
    obtain ⟨later, built, all⟩ := foldlM_graftCondition
      fun graft member => structuredClone_isSourceTarget.mpr (sources graft member)
    have lists (address : ℕ) : later.filterList (address + heap.structs.length) =
        grafts.foldl (graftedAt heap modelDef address) (heap.filterList address) := by
      rw [all.filters, structuredClone_graftedAt, structuredClone_filterList]
    refine ⟨later, ?_, ?_, ?_, ?_, ?_, ?_⟩
    · rw [buildGraftedMaterializer, if_pos rfl, built]
      rfl
    · refine List.prefix_iff_getElem?.mpr fun place within => ?_
      rw [all.frame.structs place fun ⟨graft, _, wrote⟩ =>
        absurd (structuredClone_writes wrote) (by omega)]
      simp only [structuredClone]
      rw [List.getElem?_append_left within, List.getElem?_eq_getElem within]
    · exact (List.prefix_append _ _).trans all.frame.arrays
    · intro separate graft member address found
      obtain ⟨appended, present⟩ := foldl_graftedAt_of_target (heap.filterList address) found
        fun other among apart => separate graft member other among apart address found
      rw [lists]
      obtain ⟨filters, some⟩ := Option.isSome_iff_exists.mp (present (.inl ⟨graft, member, rfl⟩))
      rw [some] at appended ⊢
      exact congrArg Option.some appended
    · intro address _ untargeted
      rw [SnapshotGains, lists, foldl_graftedAt_of_not_isTarget _ fun graft member found =>
        untargeted ⟨graft, member, found⟩]
      exact gainsOnce_foldl _ _
    · intro address unheld untargeted
      rw [lists, foldl_graftedAt_of_not_isTarget _ fun graft member found =>
        untargeted ⟨graft, member, found⟩]
      have none : conditionsFor grafts (fun name => isSnapshotOf heap modelDef name address) = [] := by
        simp only [conditionsFor, List.map_eq_nil_iff, List.filter_eq_nil_iff]
        exact fun graft member held => unheld ⟨graft, member, held⟩
      rw [none]
      rfl

end Law

section Sharing

/-- The law without regard to structs that play two parts: each target gains its
conditions in order, and each snapshot, a target or not, gains each condition once. -/
def UnsharedLaw (heap : Heap) (modelDef : ModelDef) (grafts : List Graft) : Prop :=
  ∀ later, buildGraftedMaterializer true heap grafts modelDef =
      .ok (later, (structuredClone heap modelDef).2) →
    TargetsGain heap modelDef grafts later ∧
      ∀ address, IsSnapshot heap modelDef grafts address →
        SnapshotGains heap modelDef grafts later address

def orgFilter : FilterCondition := { code := "org_id = 1", e := "org" }

def dayFilter : FilterCondition := { code := "day = 2", e := "day" }

def gatedSource (filterList : Option ℕ) : StructDef where
  type := .source
  sourceID := some "orders@model"
  structRef := .absent
  filterList := filterList

def queryOver (struct : ℕ) : StructDef where
  type := .query
  sourceID := none
  structRef := .inline struct
  filterList := none

/-- A source that carries the condition already and is a query's own run target. -/
def sharedRunTarget : Heap where
  structs := [gatedSource (some 0), queryOver 0]
  arrays := [[orgFilter]]
  inRange := by decide

/-- Two sources of one `sourceID`, the second a query's own run target. -/
def snapshotTarget : Heap where
  structs := [gatedSource none, gatedSource none, queryOver 1]
  arrays := []
  inRange := by decide

/-- A run target that is the target itself gains a condition it had, one struct under
two names gains both names' conditions, and a target that is another's snapshot gains
the other's too. -/
theorem not_unsharedLaw :
    ¬ UnsharedLaw sharedRunTarget [("orders", 0), ("tile", 1)] [⟨"orders", orgFilter⟩] ∧
      ¬ UnsharedLaw sharedRunTarget [("orders", 0), ("sales", 0)]
        [⟨"orders", orgFilter⟩, ⟨"sales", dayFilter⟩] ∧
      ¬ UnsharedLaw snapshotTarget [("orders", 0), ("sales", 1), ("tile", 2)]
        [⟨"orders", orgFilter⟩, ⟨"sales", dayFilter⟩] := by
  refine ⟨fun law => ?_, fun law => ?_, fun law => ?_⟩
  · obtain ⟨added, appended, -, counts⟩ := (law _ rfl).2 0 (by
      exact ⟨_, List.mem_cons_self, by decide⟩)
    have once := counts orgFilter (by decide)
    have appended : [orgFilter] ++ [orgFilter] = [orgFilter] ++ added := appended
    rw [← List.append_cancel_left appended] at once
    exact absurd once (by decide)
  · exact absurd ((law _ rfl).1 ⟨"orders", orgFilter⟩ (by decide) 0 rfl) (by decide)
  · exact absurd ((law _ rfl).1 ⟨"sales", dayFilter⟩ (by decide) 1 rfl) (by decide)

theorem snapshotTarget_touches :
    ∃ later, buildGraftedMaterializer true snapshotTarget [⟨"orders", orgFilter⟩]
        [("orders", 0), ("tile", 2)] =
          .ok (later, (structuredClone snapshotTarget [("orders", 0), ("tile", 2)]).2) ∧
      TargetsGain snapshotTarget [("orders", 0), ("tile", 2)] [⟨"orders", orgFilter⟩] later ∧
      SnapshotGains snapshotTarget [("orders", 0), ("tile", 2)] [⟨"orders", orgFilter⟩] later 1 := by
  obtain ⟨later, built, -, -, targets, snapshots, -⟩ :=
    (buildGraftedMaterializer_touches snapshotTarget [("orders", 0), ("tile", 2)]
      [⟨"orders", orgFilter⟩]).2 (by
        intro graft member
        obtain rfl := List.mem_singleton.mp member
        exact ⟨0, _, rfl, rfl, rfl⟩)
  refine ⟨later, built, targets ?_, snapshots 1 ?_ ?_⟩
  · intro graft member other among apart
    rw [List.mem_singleton.mp member, List.mem_singleton.mp among] at apart
    exact absurd rfl apart
  · exact ⟨_, List.mem_cons_self, by decide⟩
  · rintro ⟨graft, member, found⟩
    rw [List.mem_singleton.mp member] at found
    exact absurd found (by decide)

end Sharing

end MalloyPublisher.Grafting
