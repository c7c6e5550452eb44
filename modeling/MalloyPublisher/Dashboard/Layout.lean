import MalloyPublisher.Dashboard.Document
import MalloyPublisher.Foundations.RowFlow

/-!
# Where the rows of a dashboard end

The grid of the builder flows: a tile begins a row if it has a break, or if it is too wide for what
is left of the row. Where a row ends short, nothing is painted and nothing can be dropped. The
builder therefore lays a gap there, of the width that is left.

Widths are numbers of an ordered ring; a tile that names none is one column wide, and none is wider
than the grid.

## Main definitions

* `withGaps` — the entries of the grid
* `GridTile.slot` — what an entry takes in the grid
* `FillsRows` — the entries are the tiles, where they were, in full rows

## Main results

* `withGaps_fillsRows` — gaps fill what was empty
-/

namespace MalloyPublisher.Dashboard.Layout

open Foundations

variable {N : Type*}

/-- The layout an entry carries. -/
structure GridTile (N : Type*) where
  colspan : Option N
  lineBreak : Option Bool
  deriving DecidableEq

/-- A tile and its place among the tiles, or the empty end of a row. -/
inductive EntryKind (N : Type*) where
  | tile (tile : DashboardTile N) (index : ℕ)
  | gap (after : Text)
  deriving DecidableEq

/-- One thing the grid lays out. -/
structure GridEntry (N : Type*) extends GridTile N where
  kind : EntryKind N
  deriving DecidableEq

/-- `${tile.source}.${tile.name}` -/
def tileKey (tile : DashboardTile N) : Text := tile.source ++ '.' :: tile.name

def tileEntry (tile : DashboardTile N) (index : ℕ) : GridEntry N :=
  { colspan := tile.colspan
    lineBreak := tile.lineBreak
    kind := .tile tile index }

section Gaps

variable [CommRing N] [LinearOrder N]

def gapEntry (after : Text) (colspan : N) : GridEntry N :=
  { colspan := some colspan
    lineBreak := none
    kind := .gap after }

/-- `Math.min(tile.colspan ?? 1, columns)` -/
def spanOf (colspan : Option N) (columns : N) : N := min (colspan.getD 1) columns

/-- What the grid does with one tile, after `used` columns of the row. -/
def layTile (tiles : List (DashboardTile N)) (columns : N) (state : List (GridEntry N) × N)
    (tile : DashboardTile N) (index : ℕ) : List (GridEntry N) × N :=
  let (entries, used) := state
  let span := spanOf tile.colspan columns
  let startsRow := index = 0 ∨ tile.lineBreak = some true ∨ columns < used + span
  let gaps := if startsRow ∧ 0 < index ∧ used < columns then
      (tiles[index - 1]?.map fun previous => gapEntry (tileKey previous) (columns - used)).toList
    else []
  (entries ++ gaps ++ [tileEntry tile index], (if startsRow then 0 else used) + span)

/-- What the grid does behind the last tile. -/
def layLast (tiles : List (DashboardTile N)) (columns : N) (state : List (GridEntry N) × N) :
    List (GridEntry N) :=
  let (entries, used) := state
  match tiles.getLast? with
  | some last => if used < columns then entries ++ [gapEntry (tileKey last) (columns - used)] else entries
  | none => entries

def withGaps (tiles : List (DashboardTile N)) (columns : N) : List (GridEntry N) :=
  layLast tiles columns
    (tiles.zipIdx.foldl (fun state entry => layTile tiles columns state entry.1 entry.2) ([], 0))

/-! ## What it is for -/

/-- What an entry takes in the grid. -/
def GridTile.slot (entry : GridTile N) (columns : N) : Slot N :=
  ⟨spanOf entry.colspan columns, entry.lineBreak = some true⟩

def DashboardTile.slot (tile : DashboardTile N) (columns : N) : Slot N :=
  (tileEntry tile 0).slot columns

/-- The tile of an entry, and its place among the tiles. -/
def GridEntry.tile? (entry : GridEntry N) : Option (DashboardTile N × ℕ) :=
  match entry.kind with
  | .tile tile index => some (tile, index)
  | .gap _ => none

/-- Where the grid lays entries. -/
def places (columns : N) (entries : List (GridEntry N)) : List (Place N) :=
  flow columns (entries.map fun entry => entry.slot columns)

/-- Where the grid lays the tiles among entries. -/
def tilePlaces (columns : N) (entries : List (GridEntry N)) : List (Place N) :=
  (((places columns entries).zip entries).filter fun laid => laid.2.tile?.isSome).map Prod.fst

/-- The entries are the tiles in order, each where it is without the gaps, in rows that are full. -/
structure FillsRows (tiles : List (DashboardTile N)) (columns : N) (entries : List (GridEntry N)) :
    Prop where
  inOrder : entries.filterMap GridEntry.tile? = tiles.zipIdx
  inPlace : tilePlaces columns entries = flow columns (tiles.map fun tile => DashboardTile.slot tile columns)
  full : ∀ place ∈ places columns entries, rowWidth place.row (places columns entries)
    (entries.map fun entry => entry.slot columns) = columns

/-! ## The loop -/

/-- The gap behind a tile, if its row is short. -/
def gapsAfter (columns : N) (previous : DashboardTile N) (used : N) : List (GridEntry N) :=
  if used < columns then [gapEntry (tileKey previous) (columns - used)] else []

/-- The entries behind a tile. -/
def laidAfter (columns : N) : DashboardTile N → N → ℕ → List (DashboardTile N) → List (GridEntry N)
  | previous, used, _, [] => gapsAfter columns previous used
  | previous, used, index, tile :: tiles =>
    if (DashboardTile.slot tile columns).StartsRow columns used then
      gapsAfter columns previous used ++
        tileEntry tile index :: laidAfter columns tile (spanOf tile.colspan columns) (index + 1) tiles
    else
      tileEntry tile index ::
        laidAfter columns tile (used + spanOf tile.colspan columns) (index + 1) tiles

variable {columns used : N}

theorem startsRow_iff (tile : DashboardTile N) : (DashboardTile.slot tile columns).StartsRow columns used ↔
    tile.lineBreak = some true ∨ columns < used + spanOf tile.colspan columns :=
  or_congr decide_eq_true_iff Iff.rfl

/-- The loop behind a tile lays the entries behind it. -/
theorem foldl_layTile (tiles : List (DashboardTile N)) :
    ∀ (later done : List (DashboardTile N)) (previous : DashboardTile N) (entries : List (GridEntry N))
      (used : N), tiles = done ++ previous :: later →
    layLast tiles columns ((later.zipIdx (done.length + 1)).foldl
        (fun state entry => layTile tiles columns state entry.1 entry.2) (entries, used)) =
      entries ++ laidAfter columns previous used (done.length + 1) later := by
  intro later
  induction later with
  | nil =>
    intro done previous entries used split
    have last : tiles.getLast? = some previous := by
      rw [split, List.getLast?_append_of_ne_nil _ (List.cons_ne_nil _ _)]
      rfl
    rw [List.zipIdx_nil, List.foldl_nil, layLast, last, laidAfter, gapsAfter]
    split_ifs with short
    · rfl
    · rw [List.append_nil]
  | cons tile later ih =>
    intro done previous entries used split
    have split' : tiles = (done ++ [previous]) ++ tile :: later := by
      rw [split, List.append_assoc, List.singleton_append]
    have before : tiles[done.length + 1 - 1]? = some previous := by
      rw [split, Nat.add_sub_cancel]
      simp
    have later' := ih (done ++ [previous]) tile
    rw [List.length_append, List.length_singleton] at later'
    have laid : layTile tiles columns (entries, used) tile (done.length + 1) =
        (entries ++ (if (DashboardTile.slot tile columns).StartsRow columns used then
            gapsAfter columns previous used else []) ++ [tileEntry tile (done.length + 1)],
          (if (DashboardTile.slot tile columns).StartsRow columns used then 0 else used) +
            spanOf tile.colspan columns) := by
      have starts : (done.length + 1 = 0 ∨ tile.lineBreak = some true ∨
          columns < used + spanOf tile.colspan columns) ↔
          (DashboardTile.slot tile columns).StartsRow columns used := by
        rw [startsRow_iff]
        exact or_iff_right (Nat.succ_ne_zero _)
      unfold layTile
      simp only [starts, before, Nat.succ_pos, true_and, Option.map_some, Option.toList_some, gapsAfter]
      congr 3
      by_cases begins : (DashboardTile.slot tile columns).StartsRow columns used
      · simp [begins]
      · simp [begins]
    rw [List.zipIdx_cons, List.foldl_cons, laid, later' _ _ split', laidAfter]
    split_ifs with begins
    · rw [zero_add, List.append_assoc, List.append_assoc, List.singleton_append]
    · rw [List.append_nil, List.append_assoc, List.singleton_append]

/-- The first tile begins the first row. -/
theorem withGaps_cons (tile : DashboardTile N) (tiles : List (DashboardTile N)) :
    withGaps (tile :: tiles) columns =
      tileEntry tile 0 :: laidAfter columns tile (spanOf tile.colspan columns) 1 tiles := by
  have laid : layTile (tile :: tiles) columns ([], 0) tile 0 =
      ([tileEntry tile 0], spanOf tile.colspan columns) := by
    unfold layTile
    simp
  rw [withGaps, List.zipIdx_cons, List.foldl_cons, laid]
  exact foldl_layTile (tile :: tiles) tiles [] tile _ _ rfl

/-! ## The tiles among the entries -/

theorem tiles_gapsAfter (previous : DashboardTile N) :
    (gapsAfter columns previous used).filterMap GridEntry.tile? = [] := by
  unfold gapsAfter
  split_ifs with short
  · rfl
  · rfl

omit [CommRing N] [LinearOrder N] in
theorem tiles_tileEntry (tile : DashboardTile N) (index : ℕ) (entries : List (GridEntry N)) :
    (tileEntry tile index :: entries).filterMap GridEntry.tile? =
      (tile, index) :: entries.filterMap GridEntry.tile? := rfl

theorem tiles_laidAfter (tiles : List (DashboardTile N)) (previous : DashboardTile N) (used : N)
    (index : ℕ) : (laidAfter columns previous used index tiles).filterMap GridEntry.tile? =
      tiles.zipIdx index := by
  induction tiles generalizing previous used index with
  | nil => exact tiles_gapsAfter previous
  | cons tile tiles ih =>
    rw [laidAfter, List.zipIdx_cons]
    split_ifs with starts
    · rw [List.filterMap_append, tiles_gapsAfter, List.nil_append,
        tiles_tileEntry, ih]
    · rw [tiles_tileEntry, ih]

/-! ## The slots of the entries -/

/-- What an entry takes, and whether it is a tile's. -/
def GridEntry.laid (columns : N) (entry : GridEntry N) : Slot N × Bool :=
  (entry.slot columns, entry.tile?.isSome)

section Ordered

variable [IsStrictOrderedRing N]

theorem laid_gapsAfter (nonneg : 0 ≤ used) (previous : DashboardTile N) :
    (gapsAfter columns previous used).map (GridEntry.laid columns) = filler columns used := by
  unfold gapsAfter filler
  split_ifs with short
  · have span : min (columns - used) columns = columns - used :=
      min_eq_left (sub_le_self columns nonneg)
    simp [GridEntry.laid, gapEntry, GridTile.slot, spanOf, span, GridEntry.tile?]
  · rfl

theorem laid_laidAfter {tiles : List (DashboardTile N)}
    (wide : ∀ tile ∈ tiles, 0 ≤ spanOf tile.colspan columns) (nonneg : 0 ≤ used)
    (previous : DashboardTile N) (index : ℕ) :
    (laidAfter columns previous used index tiles).map (GridEntry.laid columns) =
      fillAfter columns used (tiles.map fun tile => DashboardTile.slot tile columns) := by
  induction tiles generalizing previous used index with
  | nil => exact laid_gapsAfter nonneg previous
  | cons tile tiles ih =>
    obtain ⟨first, wide⟩ := List.forall_mem_cons.mp wide
    rw [laidAfter, List.map_cons, fillAfter]
    split_ifs with starts
    · rw [List.map_append, laid_gapsAfter nonneg, List.map_cons, ih wide first]
      rfl
    · rw [List.map_cons, ih wide (add_nonneg nonneg first)]
      rfl

variable {tiles : List (DashboardTile N)}

theorem fits_slot (columnsPos : 1 ≤ columns) {tile : DashboardTile N}
    (wide : ∀ colspan ∈ tile.colspan, 1 ≤ colspan) : (DashboardTile.slot tile columns).Fits columns := by
  have colspan : 1 ≤ tile.colspan.getD 1 := by
    cases isColspan : tile.colspan with
    | none => exact le_rfl
    | some colspan => exact wide colspan isColspan
  exact ⟨zero_lt_one.trans_le (le_min colspan columnsPos), min_le_right _ _⟩

theorem laid_withGaps (columnsPos : 1 ≤ columns)
    (wide : ∀ tile ∈ tiles, ∀ colspan ∈ tile.colspan, 1 ≤ colspan) :
    (withGaps tiles columns).map (GridEntry.laid columns) =
      fill columns (tiles.map fun tile => DashboardTile.slot tile columns) := by
  cases tiles with
  | nil => rfl
  | cons tile tiles =>
    obtain ⟨first, wide⟩ := List.forall_mem_cons.mp wide
    have span : 0 ≤ spanOf tile.colspan columns := (fits_slot columnsPos first).1.le
    have spans : ∀ tile ∈ tiles, 0 ≤ spanOf tile.colspan columns :=
      fun tile member => (fits_slot columnsPos (wide tile member)).1.le
    rw [withGaps_cons, List.map_cons, laid_laidAfter spans span, List.map_cons, fill]
    rfl

/-- Gaps fill what was empty: the entries are the tiles in order, each where it is without the gaps,
and the rows are full. -/
theorem withGaps_fillsRows (columnsPos : 1 ≤ columns)
    (wide : ∀ tile ∈ tiles, ∀ colspan ∈ tile.colspan, 1 ≤ colspan) :
    FillsRows tiles columns (withGaps tiles columns) := by
  have fit : ∀ slot ∈ tiles.map fun tile => DashboardTile.slot tile columns, slot.Fits columns := by
    rw [List.forall_mem_map]
    exact fun tile member => fits_slot columnsPos (wide tile member)
  have laid := laid_withGaps columnsPos wide
  have slots : (withGaps tiles columns).map (fun entry => entry.slot columns) =
      (fill columns (tiles.map fun tile => DashboardTile.slot tile columns)).map Prod.fst := by
    rw [← laid, List.map_map]
    rfl
  refine ⟨?_, ?_, ?_⟩
  · cases tiles with
    | nil => rfl
    | cons tile tiles =>
      rw [withGaps_cons, tiles_tileEntry, tiles_laidAfter,
        List.zipIdx_cons]
  · have own : tilePlaces columns (withGaps tiles columns) = ownPlaces
        (places columns (withGaps tiles columns)) ((withGaps tiles columns).map (GridEntry.laid columns)) := by
      rw [tilePlaces, ownPlaces, List.zip_map_right, List.filter_map, List.map_map]
      rfl
    rw [own, laid, places, slots]
    exact flow_fill fit
  · rw [places, slots]
    exact rowWidth_fill fit

/-- A tile of the overview: `source.name`, so wide. -/
def overviewTile (name : String) (colspan : ℤ) (lineBreak : Option Bool) : DashboardTile ℤ :=
  { name := name.toList
    source := ['a']
    declaration := .inherited
    colspan := some colspan
    lineBreak := lineBreak }

/-- A half row before a break, and a tile that is too wide for the grid. -/
theorem withGaps_fillsRows_overview :
    FillsRows [overviewTile "trend" 6 none, overviewTile "kpis" 6 (some true), overviewTile "map" 20 none]
      12 [tileEntry (overviewTile "trend" 6 none) 0, gapEntry "a.trend".toList 6,
        tileEntry (overviewTile "kpis" 6 (some true)) 1, gapEntry "a.kpis".toList 6,
        tileEntry (overviewTile "map" 20 none) 2] := by
  have laid : withGaps [overviewTile "trend" 6 none, overviewTile "kpis" 6 (some true),
      overviewTile "map" 20 none] 12 = [tileEntry (overviewTile "trend" 6 none) 0,
        gapEntry "a.trend".toList 6, tileEntry (overviewTile "kpis" 6 (some true)) 1,
        gapEntry "a.kpis".toList 6, tileEntry (overviewTile "map" 20 none) 2] := by decide +kernel
  rw [← laid]
  exact withGaps_fillsRows (by decide) (by decide)

end Ordered

end Gaps

end MalloyPublisher.Dashboard.Layout
