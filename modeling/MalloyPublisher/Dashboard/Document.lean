import Mathlib.Data.List.Sort
import MalloyPublisher.Foundations.Text

/-!
# The document of a dashboard file

The dashboard builder works on a projection of a `dashboards/*.malloy` file: its title and
settings, its imports and source extensions, the givens and drills it declares, and its tiles
with their presentation. What a file says beyond that is not in the document.

Absent fields are `none`. Numbers are left open: a document only compares and prints them.

## Main definitions

* `DashboardDocument` and its parts
* `DashboardDocument.canonical` — the spelling under which documents are compared
* `tileKey`, `drillKey` — what makes a tile or a drill the same to the file
-/

namespace MalloyPublisher.Dashboard

open Foundations

/-- A text, or a line of one, as its characters. -/
abbrev Text := List Char

/-- One `import` line: the whole file's declarations, or specific names of it. -/
inductive DashboardImport where
  | all (path : Text)
  | names (names : List Text) (path : Text)
  deriving DecidableEq

/-- Where a picker gets its options. -/
structure Suggest where
  source : Option Text
  query : Option Text
  dimension : Text
  deriving DecidableEq

/-- A given that the dashboard declares itself, with its control contract. -/
structure LocalGiven (N : Type*) where
  name : Text
  type : Text
  default : Text
  label : Option Text := none
  description : Option Text := none
  control : Option Text := none
  suggest : Option Suggest := none
  rangeMin : Option N := none
  rangeMax : Option N := none
  deriving DecidableEq

/-- A `# drill` on a dimension of one of the dashboard's extensions, and where it leads to. -/
structure DashboardDrill where
  source : Text
  name : Text
  expression : Text
  destinations : List Text
  given : Option Text
  deriving DecidableEq

/-- Where the view of a tile is declared: in the file from another view or as a query of its
own, or not in the file at all. -/
inductive TileDeclaration where
  | reference (base : Text)
  | inline
  | inherited
  deriving DecidableEq

/-- A given binding of a tile. The comparison is `~` where there is none. -/
structure TileFilter where
  field : Text
  given : Text
  op : Option Text
  deriving DecidableEq

/-- One tile: a view shown on the page, and how it is presented. -/
structure DashboardTile (N : Type*) where
  name : Text
  source : Text
  declaration : TileDeclaration
  filters : Option (List TileFilter) := none
  label : Option Text := none
  subtitle : Option Text := none
  colspan : Option N := none
  lineBreak : Option Bool := none
  borderless : Option Bool := none
  deriving DecidableEq

/-- A dimension of one of the dashboard's extensions. -/
structure DashboardDimension where
  name : Text
  expression : Text
  deriving DecidableEq

/-- A source extension that the dashboard declares. -/
structure DashboardSource where
  name : Text
  base : Text
  doc : Option Text := none
  dimensions : Option (List DashboardDimension) := none
  deriving DecidableEq

/-- The builder's representation of a dashboard file. -/
structure DashboardDocument (N : Type*) where
  title : Text
  description : Option Text
  columns : Option N
  autorun : Option Bool
  imports : List DashboardImport
  sources : List DashboardSource
  localGivens : Option (List (LocalGiven N))
  startingGivens : Option (List (Text × Text))
  drills : Option (List DashboardDrill)
  tiles : List (DashboardTile N)
  deriving DecidableEq

variable {N : Type*}

/-- Starting values under sorted keys. -/
def sortedByKey (values : List (Text × Text)) : List (Text × Text) :=
  values.insertionSort fun a b =>
    a.1 = b.1 ∨ List.Lex (· < ·) (a.1.flatMap codeUnits) (b.1.flatMap codeUnits)

/-- A document as it is compared: the one record of it under sorted keys. Which fields are
absent is part of it, and the order of its lists. -/
def DashboardDocument.canonical (document : DashboardDocument N) : DashboardDocument N :=
  { document with startingGivens := document.startingGivens.map sortedByKey }

/-- A tile's identity to the file, without its presentation: what is written for it. -/
def tileKey (tile : DashboardTile N) : Text × Text × TileDeclaration :=
  (tile.name, tile.source, tile.declaration)

/-- `${d.source}.${d.name}` -/
def drillKey (drill : DashboardDrill) : Text := drill.source ++ '.' :: drill.name

end MalloyPublisher.Dashboard
