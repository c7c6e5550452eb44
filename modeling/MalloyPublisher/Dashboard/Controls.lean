import MalloyPublisher.Dashboard.Document

/-!
# The mapping of a control

A control filters the tiles that bind its given. A dialog opens on the mapping a control has, a row
for each tile, and what it is closed with is applied: the filters of the given are taken from each
tile, and one is put behind the others where the row is ticked. A row holds one binding, so a tile
with two of the same given, or with another filter behind the one, does not survive a dialog that
changes nothing.

## Main definitions

* `mappingOf`, `applyMapping` — the dialog's two ends
* `Reapplies` — a mapping that is applied as it was opened changes no tile
* `Settled` — a tile whose filters are as the dialog writes them

## Main results

* `reapplies_iff` — the tiles that can be bound have to be settled
-/

namespace MalloyPublisher.Dashboard.Controls

open Foundations

variable {N : Type*}

/-! ## The dialog -/

/-- How a binding to a given of a type compares. -/
def defaultOperator (type : Option Text) : Option Text :=
  match type with
  | none => none
  | some type =>
    if "filter<".toList.isPrefixOf type then none
    else if type = "string".toList ∨ type = "boolean".toList then some ['=']
    else some ['>', '=']

/-- One tile's row in a control's mapping. -/
structure MappingRow where
  included : Bool
  field : Text
  op : Option Text
  deriving DecidableEq

/-- A control as the dialog knows it. -/
structure Control where
  name : Text
  field : Option Text
  type : Option Text
  deriving DecidableEq

/-- Only a tile that refers to a view takes a refinement that is read back. -/
def canBind (tile : DashboardTile N) : Bool :=
  match tile.declaration with
  | .reference _ => true
  | _ => false

section Mapping

variable (toLowerCase : Text → Text)

/-- The row of one tile. -/
def rowOf (control : Control) (tile : DashboardTile N) : MappingRow :=
  let bound := (tile.filters.getD []).find? fun filter => filter.given = control.name
  { included := bound.isSome
    field := ((bound.map TileFilter.field).or control.field).getD (toLowerCase control.name)
    op := (bound.bind TileFilter.op).or (defaultOperator control.type) }

def mappingOf (document : DashboardDocument N) (control : Control) : List MappingRow :=
  document.tiles.map (rowOf toLowerCase control)

/-- The filter a ticked row writes. -/
def written (given : Text) (row : MappingRow) : TileFilter :=
  let field := trim row.field
  { field := if field = [] then toLowerCase given else field
    given := given
    op := row.op.filter fun op => op ≠ [] ∧ op ≠ ['~'] }

/-- One row applied to its tile. -/
def applyRow (given : Text) (row : MappingRow) (tile : DashboardTile N) : DashboardTile N :=
  if canBind tile then
    let rest := (tile.filters.getD []).filter fun filter => filter.given ≠ given
    let next := if row.included then rest ++ [written toLowerCase given row] else rest
    { tile with filters := if next = [] then none else some next }
  else tile

def applyMapping (draft : DashboardDocument N) (given : Text) (rows : List MappingRow) :
    DashboardDocument N :=
  { draft with
    tiles := rows.zipIdx.foldl
      (fun tiles entry => tiles.modify entry.2 (applyRow toLowerCase given entry.1)) draft.tiles }

/-! ## What it is for -/

/-- A tile with its filters; none at all is none in the list. -/
def withFilters (tile : DashboardTile N) : DashboardTile N :=
  { tile with filters := some (tile.filters.getD []) }

/-- A mapping that is applied as it was opened changes no tile. -/
def Reapplies (document : DashboardDocument N) (control : Control) : Prop :=
  (applyMapping toLowerCase document control.name (mappingOf toLowerCase document control)).tiles.map
    withFilters = document.tiles.map withFilters

/-- A comparison that is written as it was: one that is named, or none for a filter expression. -/
def OpKept (control : Control) : Option Text → Prop
  | some op => op ≠ [] ∧ op ≠ ['~']
  | none => ∀ type ∈ control.type, "filter<".toList.isPrefixOf type

/-- A field that is written as it was: one without white space around it, or the given's name for a
field of white space. -/
def FieldKept (given field : Text) : Prop :=
  (if trim field = [] then toLowerCase given else trim field) = field

/-- No filter of a tile binds the control, or the last one does and no other. -/
def Settled (control : Control) (filters : List TileFilter) : Prop :=
  (∀ filter ∈ filters, filter.given ≠ control.name) ∨
    ∃ before last, filters = before ++ [last] ∧ (∀ filter ∈ before, filter.given ≠ control.name) ∧
      last.given = control.name ∧ FieldKept toLowerCase control.name last.field ∧
        OpKept control last.op

/-! ## Rows and tiles -/

theorem modify_append {α : Type*} (f : α → α) (done : List α) (item : α) (rest : List α) :
    (done ++ item :: rest).modify done.length f = done ++ f item :: rest := by
  induction done with
  | nil => rfl
  | cons first done ih => exact congrArg (List.cons first) ih

theorem foldl_modify {α β : Type*} (row : α → β) (change : β → α → α) (rest done : List α) :
    ((rest.map row).zipIdx done.length).foldl (fun tiles entry => tiles.modify entry.2 (change entry.1))
      (done ++ rest) = done ++ rest.map fun item => change (row item) item := by
  induction rest generalizing done with
  | nil => rfl
  | cons item rest ih =>
    have changed : (done ++ item :: rest).modify done.length (change (row item)) =
        (done ++ [change (row item) item]) ++ rest := by
      rw [modify_append, List.append_assoc, List.singleton_append]
    have later := ih (done ++ [change (row item) item])
    rw [List.length_append, List.length_singleton] at later
    rw [List.map_cons, List.zipIdx_cons, List.foldl_cons, changed, later, List.append_assoc,
      List.singleton_append, List.map_cons]

variable {toLowerCase}

theorem tiles_applyMapping (document : DashboardDocument N) (control : Control) :
    (applyMapping toLowerCase document control.name (mappingOf toLowerCase document control)).tiles =
      document.tiles.map fun tile =>
        applyRow toLowerCase control.name (rowOf toLowerCase control tile) tile :=
  foldl_modify (rowOf toLowerCase control) (applyRow toLowerCase control.name) document.tiles []

/-! ## One tile -/

variable {control : Control} {tile : DashboardTile N} {filters before : List TileFilter}
  {bound last : TileFilter}

theorem defaultOperator_eq_none_iff (type : Option Text) :
    defaultOperator type = none ↔ ∀ type' ∈ type, "filter<".toList.isPrefixOf type' := by
  cases type with
  | none => exact iff_of_true rfl fun type member => by cases member
  | some type =>
    rw [defaultOperator]
    split_ifs with isFilter isValue
    · exact iff_of_true rfl fun type' member => Option.mem_some_iff.mp member ▸ isFilter
    · exact iff_of_false (fun same => by cases same) fun all => isFilter (all type rfl)
    · exact iff_of_false (fun same => by cases same) fun all => isFilter (all type rfl)

theorem filter_defaultOperator (type : Option Text) :
    ((defaultOperator type).filter fun op => op ≠ [] ∧ op ≠ ['~']) = defaultOperator type := by
  unfold defaultOperator
  split
  · rfl
  · split_ifs with isFilter isValue
    · rfl
    · rfl
    · rfl

/-- The comparison is kept exactly where it is written as it was. -/
theorem op_written_iff (op : Option Text) :
    ((op.or (defaultOperator control.type)).filter fun op => op ≠ [] ∧ op ≠ ['~']) = op ↔
      OpKept control op := by
  cases op with
  | none =>
    rw [Option.none_or, filter_defaultOperator]
    exact defaultOperator_eq_none_iff control.type
  | some op =>
    rw [Option.some_or, Option.filter_some]
    by_cases kept : op ≠ [] ∧ op ≠ ['~']
    · rw [if_pos (by simpa using kept)]
      exact iff_of_true rfl kept
    · rw [if_neg (by simpa using kept)]
      exact iff_of_false (fun same => by cases same) kept

/-- What is written of a filter is that filter exactly where its field and its comparison are kept.
-/
theorem written_eq_iff (isBound : (tile.filters.getD []).find? (fun filter => filter.given = control.name) =
    some bound) : written toLowerCase control.name (rowOf toLowerCase control tile) = bound ↔
      bound.given = control.name ∧ FieldKept toLowerCase control.name bound.field ∧
        OpKept control bound.op := by
  obtain ⟨field, given, op⟩ := bound
  rw [rowOf, isBound, written, TileFilter.mk.injEq, ← op_written_iff op]
  constructor
  · rintro ⟨fields, givens, ops⟩
    exact ⟨givens.symm, fields, ops⟩
  · rintro ⟨givens, fields, ops⟩
    exact ⟨fields, givens.symm, ops⟩

/-- The filters that a row leaves or writes. -/
def nextFilters (toLowerCase : Text → Text) (control : Control) (tile : DashboardTile N) :
    List TileFilter :=
  let rest := (tile.filters.getD []).filter fun filter => filter.given ≠ control.name
  let row := rowOf toLowerCase control tile
  if row.included then rest ++ [written toLowerCase control.name row] else rest

theorem filter_eq_self (others : ∀ filter ∈ before, filter.given ≠ control.name) :
    (before.filter fun filter => filter.given ≠ control.name) = before :=
  List.filter_eq_self.mpr fun filter member => decide_eq_true (others filter member)

/-- A list that ends with the only filter of a control. -/
theorem find?_last (others : ∀ filter ∈ before, filter.given ≠ control.name)
    (isLast : last.given = control.name) :
    (before ++ [last]).find? (fun filter => filter.given = control.name) = some last ∧
      ((before ++ [last]).filter fun filter => filter.given ≠ control.name) = before := by
  have none : before.find? (fun filter => filter.given = control.name) = none :=
    List.find?_eq_none.mpr fun filter member => by simpa using others filter member
  constructor
  · rw [List.find?_append, none, Option.none_or]
    simp [isLast]
  · rw [List.filter_append, filter_eq_self others]
    simp [isLast]

/-- The filters stay as they are exactly where they are settled. -/
theorem nextFilters_eq_iff : nextFilters toLowerCase control tile = tile.filters.getD [] ↔
    Settled toLowerCase control (tile.filters.getD []) := by
  cases isBound : (tile.filters.getD []).find? (fun filter => filter.given = control.name) with
  | none =>
    have others : ∀ filter ∈ tile.filters.getD [], filter.given ≠ control.name := by
      intro filter member
      simpa using List.find?_eq_none.mp isBound filter member
    have notIncluded : (rowOf toLowerCase control tile).included = false := by
      rw [rowOf, isBound]
      rfl
    rw [nextFilters, notIncluded]
    exact iff_of_true (filter_eq_self others) (.inl others)
  | some bound =>
    have included : (rowOf toLowerCase control tile).included = true := by
      rw [rowOf, isBound]
      rfl
    have isWritten : written toLowerCase control.name (rowOf toLowerCase control tile) = bound ↔
        bound.given = control.name ∧ FieldKept toLowerCase control.name bound.field ∧
          OpKept control bound.op := written_eq_iff isBound
    rw [nextFilters, included, if_pos rfl]
    constructor
    · intro same
      refine .inr ⟨_, _, same.symm, fun filter member => ?_, rfl, ?_⟩
      · simpa using List.of_mem_filter member
      · have others : ∀ filter ∈ (tile.filters.getD []).filter fun filter =>
            filter.given ≠ control.name, filter.given ≠ control.name :=
          fun filter member => by simpa using List.of_mem_filter member
        have found : (((tile.filters.getD []).filter fun filter => filter.given ≠ control.name) ++
            [written toLowerCase control.name (rowOf toLowerCase control tile)]).find?
              (fun filter => filter.given = control.name) =
            some (written toLowerCase control.name (rowOf toLowerCase control tile)) :=
          (find?_last others rfl).1
        rw [same, isBound] at found
        have kept := isWritten.mp (Option.some.inj found).symm
        rw [← Option.some.inj found]
        exact kept.2
    · rintro (others | ⟨before, last, split, others, isLast, field, op⟩)
      · have member := List.mem_of_find?_eq_some isBound
        have given := List.find?_some isBound
        exact absurd (by simpa using given) (others bound member)
      · obtain ⟨found, rest⟩ := find?_last others isLast
        rw [← split, isBound] at found
        rw [Option.some.inj found] at isWritten
        rw [isWritten.mpr ⟨isLast, field, op⟩, split, rest]

theorem withFilters_applyRow_iff : withFilters (applyRow toLowerCase control.name
      (rowOf toLowerCase control tile) tile) = withFilters tile ↔
    (canBind tile = true → Settled toLowerCase control (tile.filters.getD [])) := by
  by_cases binds : canBind tile
  · have applied : withFilters (applyRow toLowerCase control.name (rowOf toLowerCase control tile) tile) =
        { tile with filters := some (nextFilters toLowerCase control tile) } := by
      rw [applyRow, if_pos binds, withFilters]
      change { tile with filters := some ((if nextFilters toLowerCase control tile = [] then none
        else some (nextFilters toLowerCase control tile)).getD []) } = _
      split_ifs with empty
      · rw [empty]
        rfl
      · rfl
    rw [applied, withFilters, ← nextFilters_eq_iff]
    constructor
    · intro same _
      exact Option.some.inj (congrArg DashboardTile.filters same)
    · intro same
      rw [same binds]
  · rw [applyRow, if_neg binds]
    exact iff_of_true rfl fun bindable => absurd bindable binds

/-- A mapping that is applied as it was opened changes no tile exactly when those that can be bound
are settled. -/
theorem reapplies_iff (toLowerCase : Text → Text) (document : DashboardDocument N) (control : Control) :
    Reapplies toLowerCase document control ↔
      ∀ tile ∈ document.tiles, canBind tile = true →
        Settled toLowerCase control (tile.filters.getD []) := by
  rw [Reapplies, tiles_applyMapping, List.map_map, List.map_inj_left]
  refine forall₂_congr fun tile _ => ?_
  exact withFilters_applyRow_iff

/-- Two columns that one given bounds: the second filter goes. -/
theorem not_reapplies_twice : ¬∀ (toLowerCase : Text → Text) (document : DashboardDocument ℕ)
    (control : Control), Reapplies toLowerCase document control := by
  intro all
  let tile : DashboardTile ℕ :=
    { name := "shipping".toList
      source := "orders".toList
      declaration := .reference "by_ship_date".toList
      filters := some [⟨"ordered".toList, "SINCE".toList, some ['>', '=']⟩,
        ⟨"shipped".toList, "SINCE".toList, some ['>', '=']⟩] }
  let document : DashboardDocument ℕ :=
    { title := []
      description := none
      columns := none
      autorun := none
      imports := []
      sources := []
      localGivens := none
      startingGivens := none
      drills := none
      tiles := [tile] }
  let control : Control := { name := "SINCE".toList, field := none, type := some "date".toList }
  have applied : (applyMapping id document control.name (mappingOf id document control)).tiles.map
      withFilters ≠ document.tiles.map withFilters := by decide +kernel
  exact applied (all id document control)

end Mapping

end MalloyPublisher.Dashboard.Controls
