import MalloyPublisher.Incremental.TargetProbe

/-!
# Building beside the serving table

A colocated build creates its table under a staging name, drops the serving table and renames
the staging table to it. Each of the statements stands on its own, so a build that raises
between the drop and the rename leaves nothing under the serving name: the clean-up drops the
staging table, which holds the only copy of the new rows, and the old ones are gone.

The staging name is the serving name with a suffix of the source's content address. Whether the
two name different tables is for the engine to say, which may cut or fold an identifier; and
nothing keeps the staging name from being the name of another source's table.

## Main definitions

* `Outcome`, `Outcomes` — what comes of the statements of a build
* `StagedBuild.rebuild` — a build, statement by statement
* `StagedBuild.Spares` — a build that throws leaves the serving table as it was
* `StagedBuild.Survives` — the outcomes and names that come to that

## Main results

* `StagedBuild.stagingPath_identifiers`, `renameTarget_place` — where the statements act
* `StagedBuild.rebuild_spec` — what a build leaves, at each place
* `everyRebuild_spares_iff` — over the builds of a run
-/

namespace MalloyPublisher.Materialization

open Foundations Incremental

/-! ## Names -/

/-- The length of the prefix of a content address in a staging name. -/
def STAGING_ID_LEN : ℕ := 12

/-- The suffix of a table's name while it is being built. -/
def stagingSuffix (sourceEntityId : String) : String :=
  "_" ++ String.ofList ((sourceEntityId.toList.filter (· ≠ '-')).take STAGING_ID_LEN)

/-- The segment after the last dot of a path. -/
def bareTableName (tableName : String) : String := (splitDots tableName).getLastD tableName

/-- The dialects whose rename target is qualified. -/
def QUALIFIED_RENAME_TARGET_DIALECTS : List String := ["snowflake", "mysql", "trino"]

/-- The target of a rename: the whole path, or the name within its container. -/
def quoteRenameTarget (tableName dialect : String) : String :=
  if dialect ∈ QUALIFIED_RENAME_TARGET_DIALECTS then quoteTablePath tableName dialect
  else quoteIdentifier (bareTableName tableName) dialect

/-! ## Statements -/

/-- What the tables of an engine hold. -/
abbrev Tables (Place Rows : Type*) := Place → Option Rows

/-- An engine that statements are sent to: where it finds a path of identifiers, where a rename
takes a table, and what a query of the tables comes to. A qualified target of a rename names
the table's place; a bare one names it within its container. -/
structure Engine (Place Rows : Type*) where
  dialect : String
  locate : List String → Place
  renamed : List String → List String → Place
  query : String → Tables Place Rows → Rows
  renamed_qualified : dialect ∈ QUALIFIED_RENAME_TARGET_DIALECTS →
    ∀ source target, renamed source target = locate target
  renamed_bare : dialect ∉ QUALIFIED_RENAME_TARGET_DIALECTS →
    ∀ containers source target,
      renamed (containers ++ [source]) [target] = locate (containers ++ [target])

/-- A statement of a build, with the paths as they are quoted. -/
inductive Statement
  | dropTableIfExists (path : String)
  | createTableAs (path sql : String)
  | renameTable (path target : String)

section Engine

variable {Place Rows : Type*} [DecidableEq Place]

/-- Where an engine finds a quoted path. -/
def Engine.place (engine : Engine Place Rows) (path : String) : Place :=
  engine.locate (readIdentifiers engine.dialect path)

/-- What a statement does to the tables, if the engine does not reject it. -/
def Statement.effect (engine : Engine Place Rows) (tables : Tables Place Rows) :
    Statement → Option (Tables Place Rows)
  | .dropTableIfExists path => some (Function.update tables (engine.place path) none)
  | .createTableAs path sql =>
    if (tables (engine.place path)).isSome then none
    else some (Function.update tables (engine.place path) (some (engine.query sql tables)))
  | .renameTable path target =>
    let destination := engine.renamed (readIdentifiers engine.dialect path)
      (readIdentifiers engine.dialect target)
    let cleared := Function.update tables (engine.place path) none
    match tables (engine.place path) with
    | none => none
    | some rows =>
      if (cleared destination).isSome then none
      else some (Function.update cleared destination (some rows))

/-- What comes of a statement that is sent: it is done; it raises, and nothing was done; or it
is done and raises all the same, its answer being lost. -/
inductive Outcome
  | done
  | refused
  | lost
  deriving DecidableEq, Repr

/-- Whether a statement took effect. -/
def Outcome.took : Outcome → Bool
  | .done => true
  | .refused => false
  | .lost => true

@[simp] theorem Outcome.took_done : Outcome.done.took = true := rfl

@[simp] theorem Outcome.took_refused : Outcome.refused.took = false := rfl

@[simp] theorem Outcome.took_lost : Outcome.lost.took = true := rfl

/-- Send a statement: the tables after it, and whether it raised. -/
def send (engine : Engine Place Rows) (statement : Statement) (outcome : Outcome)
    (tables : Tables Place Rows) : Tables Place Rows × Bool :=
  match statement.effect engine tables with
  | none => (tables, true)
  | some after => (if outcome.took then after else tables, outcome ≠ .done)

/-! ## A build -/

/-- What comes of the steps of a build: whether dropping the ledger's boundary before it and
recording one after it raise, and the outcomes of the statements between. -/
structure Outcomes where
  resetRaises : Bool
  dropStaging : Outcome
  create : Outcome
  dropPhysical : Outcome
  rename : Outcome
  cleanup : Outcome
  advanceRaises : Bool
  deriving DecidableEq

/-- A source to build into its own warehouse. A content address is a digest. -/
structure StagedBuild (Place Rows : Type*) where
  engine : Engine Place Rows
  physicalTableName : String
  sourceEntityId : String
  buildSQL : String
  digest : '.' ∉ sourceEntityId.toList

namespace StagedBuild

def stagingTableName (build : StagedBuild Place Rows) : String :=
  build.physicalTableName ++ stagingSuffix build.sourceEntityId

def quotedStaging (build : StagedBuild Place Rows) : String :=
  quoteTablePath build.stagingTableName build.engine.dialect

def quotedPhysical (build : StagedBuild Place Rows) : String :=
  quoteTablePath build.physicalTableName build.engine.dialect

def quotedRenameTarget (build : StagedBuild Place Rows) : String :=
  quoteRenameTarget build.physicalTableName build.engine.dialect

/-- Create the staging table, drop the serving table, and rename the one to the other. -/
def swap (build : StagedBuild Place Rows) (outcomes : Outcomes) (tables : Tables Place Rows) :
    Tables Place Rows × Bool :=
  let (tables, raised) := send build.engine (.createTableAs build.quotedStaging build.buildSQL)
    outcomes.create tables
  if raised then (tables, true)
  else
    let (tables, raised) := send build.engine (.dropTableIfExists build.quotedPhysical)
      outcomes.dropPhysical tables
    if raised then (tables, true)
    else send build.engine (.renameTable build.quotedStaging build.quotedRenameTarget)
      outcomes.rename tables

/-- Build a source: the tables after it, and whether it threw. -/
def rebuild (build : StagedBuild Place Rows) (outcomes : Outcomes) (tables : Tables Place Rows) :
    Tables Place Rows × Bool :=
  if outcomes.resetRaises then (tables, true)
  else
    let (tables, raised) := send build.engine (.dropTableIfExists build.quotedStaging)
      outcomes.dropStaging tables
    if raised then (tables, true)
    else
      let (tables, raised) := build.swap outcomes tables
      -- What the clean-up raises is logged, and the build's own error thrown.
      if raised then
        ((send build.engine (.dropTableIfExists build.quotedStaging) outcomes.cleanup tables).1, true)
      else (tables, outcomes.advanceRaises)

/-! ## Where the statements act -/

section Places

omit [DecidableEq Place]

/-- Where the serving table stands. -/
def physical (build : StagedBuild Place Rows) : Place :=
  build.engine.locate (splitDots build.physicalTableName)

/-- Where the staging table stands. -/
def staging (build : StagedBuild Place Rows) : Place :=
  build.engine.locate (splitDots build.stagingTableName)

variable (build : StagedBuild Place Rows)

theorem place_quotedPhysical : build.engine.place build.quotedPhysical = build.physical := by
  rw [Engine.place, quotedPhysical, readIdentifiers_quoteTablePath, physical]

theorem place_quotedStaging : build.engine.place build.quotedStaging = build.staging := by
  rw [Engine.place, quotedStaging, readIdentifiers_quoteTablePath, staging]

theorem notMem_stagingSuffix {sourceEntityId : String} (digest : '.' ∉ sourceEntityId.toList) :
    '.' ∉ (stagingSuffix sourceEntityId).toList := by
  intro member
  rw [stagingSuffix, String.toList_append] at member
  rcases List.mem_append.mp member with inPrefix | inside
  · revert inPrefix
    decide
  · rw [String.toList_ofList] at inside
    exact digest (List.mem_filter.mp (List.mem_of_mem_take inside)).1

/-- The staging table stands in the containers of the serving table, under its name and the
suffix. -/
theorem stagingPath_identifiers : ∃ containers,
    splitDots (bareTableName build.physicalTableName) =
        [bareTableName build.physicalTableName] ∧
      splitDots build.physicalTableName = containers ++ [bareTableName build.physicalTableName] ∧
      splitDots build.stagingTableName =
        containers ++ [bareTableName build.physicalTableName ++
          stagingSuffix build.sourceEntityId] := by
  obtain ⟨containers, last, free, split, split'⟩ := exists_splitOn_append '.'
    build.physicalTableName.toList (notMem_stagingSuffix build.digest)
  have bare : bareTableName build.physicalTableName = String.ofList last := by
    simp [bareTableName, splitDots, split]
  refine ⟨containers.map String.ofList, ?_, ?_, ?_⟩
  · have unsplit : ∀ c ∈ last, (c == '.') = false := by
      intro c member
      exact beq_eq_false_iff_ne.mpr fun same => free (same ▸ member)
    have alone : last.splitOn '.' = [last] := List.splitOnP_eq_singleton unsplit
    rw [bare, splitDots, String.toList_ofList, alone, List.map_singleton]
  · rw [bare, splitDots, split, List.map_append, List.map_singleton]
  · rw [bare, splitDots, stagingTableName, String.toList_append, split', List.map_append,
      List.map_singleton, String.ofList_append, String.ofList_toList]

/-- The rename takes the staging table to the serving table's place. -/
theorem renameTarget_place :
    build.engine.renamed (readIdentifiers build.engine.dialect build.quotedStaging)
      (readIdentifiers build.engine.dialect build.quotedRenameTarget) = build.physical := by
  rw [quotedStaging, readIdentifiers_quoteTablePath, quotedRenameTarget, quoteRenameTarget]
  obtain ⟨containers, alone, split, split'⟩ := build.stagingPath_identifiers
  by_cases qualified : build.engine.dialect ∈ QUALIFIED_RENAME_TARGET_DIALECTS
  · rw [if_pos qualified, readIdentifiers_quoteTablePath, build.engine.renamed_qualified qualified,
      physical]
  · rw [if_neg qualified]
    have bare : quoteIdentifier (bareTableName build.physicalTableName) build.engine.dialect =
        quoteTablePath (bareTableName build.physicalTableName) build.engine.dialect := by
      rw [quoteTablePath, alone]
      simp
    rw [bare, readIdentifiers_quoteTablePath, alone, split',
      build.engine.renamed_bare qualified, physical, split]

/-- Where an engine tells any two paths apart, the staging table is not the serving table. -/
theorem staging_ne_physical (exact : Function.Injective build.engine.locate) :
    build.staging ≠ build.physical := by
  intro same
  obtain ⟨containers, -, split, split'⟩ := build.stagingPath_identifiers
  have paths : splitDots build.stagingTableName = splitDots build.physicalTableName := exact same
  rw [split, split'] at paths
  have names := List.cons.inj (List.append_cancel_left paths)
  have lengths := congrArg String.length names.1
  rw [String.length_append, stagingSuffix, String.length_append] at lengths
  have underscore : "_".length = 1 := rfl
  omega

end Places

/-! ## What a build leaves -/

end StagedBuild

/-- The build drops what stands under its staging name. -/
def Outcomes.begins (outcomes : Outcomes) : Bool :=
  !outcomes.resetRaises && outcomes.dropStaging.took

/-- The build drops the serving table. -/
def Outcomes.dropsPhysical (outcomes : Outcomes) : Bool :=
  !outcomes.resetRaises && outcomes.dropStaging = .done && outcomes.create = .done &&
    outcomes.dropPhysical.took

/-- The rename is reached and takes effect. -/
def Outcomes.renames (outcomes : Outcomes) : Bool :=
  !outcomes.resetRaises && outcomes.dropStaging = .done && outcomes.create = .done &&
    outcomes.dropPhysical = .done && outcomes.rename.took

/-- The staging table is created and neither renamed nor cleaned up. -/
def Outcomes.leavesStaging (outcomes : Outcomes) : Bool :=
  !outcomes.resetRaises && outcomes.dropStaging = .done && outcomes.create.took &&
    !outcomes.renames && !outcomes.cleanup.took

/-- Where both names are one place: the table created there is neither dropped nor cleaned up. -/
def Outcomes.leavesAliased (outcomes : Outcomes) : Bool :=
  !outcomes.resetRaises && outcomes.dropStaging = .done && outcomes.create.took &&
    !(outcomes.create = .done && outcomes.dropPhysical.took) && !outcomes.cleanup.took

/-- Nothing raises. -/
def Outcomes.completes (outcomes : Outcomes) : Bool :=
  outcomes.renames && outcomes.rename = .done && !outcomes.advanceRaises

namespace StagedBuild

section Spec

variable (build : StagedBuild Place Rows) (outcomes : Outcomes) (tables : Tables Place Rows)

/-- The rows a build creates, over the tables without its staging table. -/
def newRows : Rows :=
  build.engine.query build.buildSQL (Function.update tables build.staging none)

theorem send_dropStaging (outcome : Outcome) :
    send build.engine (.dropTableIfExists build.quotedStaging) outcome tables =
      (if outcome.took then Function.update tables build.staging none else tables,
        decide (outcome ≠ .done)) := by
  rw [send, Statement.effect, place_quotedStaging]

theorem send_dropPhysical (outcome : Outcome) :
    send build.engine (.dropTableIfExists build.quotedPhysical) outcome tables =
      (if outcome.took then Function.update tables build.physical none else tables,
        decide (outcome ≠ .done)) := by
  rw [send, Statement.effect, place_quotedPhysical]

theorem send_create (outcome : Outcome) (free : tables build.staging = none) :
    send build.engine (.createTableAs build.quotedStaging build.buildSQL) outcome tables =
      (if outcome.took then Function.update tables build.staging
          (some (build.engine.query build.buildSQL tables)) else tables,
        decide (outcome ≠ .done)) := by
  rw [send, Statement.effect, place_quotedStaging, free]
  rfl

theorem send_rename (outcome : Outcome) {rows : Rows} (created : tables build.staging = some rows)
    (free : Function.update tables build.staging none build.physical = none) :
    send build.engine (.renameTable build.quotedStaging build.quotedRenameTarget) outcome tables =
      (if outcome.took then Function.update (Function.update tables build.staging none)
          build.physical (some rows) else tables,
        decide (outcome ≠ .done)) := by
  rw [send, Statement.effect, place_quotedStaging, renameTarget_place, created]
  simp only [free, Option.isSome_none, Bool.false_eq_true, if_false]

/-- The tables with these at the staging place and the serving place. -/
def withTables (staged served : Option Rows) : Tables Place Rows :=
  Function.update (Function.update tables build.staging staged) build.physical served

variable {build tables}

theorem withTables_physical (staged served : Option Rows) :
    build.withTables tables staged served build.physical = served :=
  Function.update_self ..

theorem withTables_staging (apart : build.staging ≠ build.physical) (staged served : Option Rows) :
    build.withTables tables staged served build.staging = staged := by
  rw [withTables, Function.update_of_ne apart, Function.update_self]

theorem withTables_of_ne {place : Place} (notStaging : place ≠ build.staging)
    (notPhysical : place ≠ build.physical) (staged served : Option Rows) :
    build.withTables tables staged served place = tables place := by
  rw [withTables, Function.update_of_ne notPhysical, Function.update_of_ne notStaging]

variable (build tables) in
theorem withTables_self : build.withTables tables (tables build.staging) (tables build.physical) =
    tables := by
  rw [withTables, Function.update_eq_self, Function.update_eq_self]

theorem update_staging_withTables (apart : build.staging ≠ build.physical)
    (staged served new : Option Rows) :
    Function.update (build.withTables tables staged served) build.staging new =
      build.withTables tables new served := by
  rw [withTables, withTables, Function.update_comm apart.symm, Function.update_idem]

theorem update_physical_withTables (staged served new : Option Rows) :
    Function.update (build.withTables tables staged served) build.physical new =
      build.withTables tables staged new :=
  Function.update_idem ..

/-- The swap, where nothing stands under the staging name. -/
theorem swap_withTables (apart : build.staging ≠ build.physical) (served : Option Rows) :
    build.swap outcomes (build.withTables tables none served) =
      let rows := build.engine.query build.buildSQL (build.withTables tables none served)
      match outcomes.create, outcomes.dropPhysical with
      | .refused, _ => (build.withTables tables none served, true)
      | .lost, _ => (build.withTables tables (some rows) served, true)
      | .done, .refused => (build.withTables tables (some rows) served, true)
      | .done, .lost => (build.withTables tables (some rows) none, true)
      | .done, .done =>
        (if outcomes.rename.took then build.withTables tables none (some rows)
          else build.withTables tables (some rows) none, decide (outcomes.rename ≠ .done)) := by
  rw [swap, send_create _ _ _ (withTables_staging apart _ _)]
  cases outcomes.create with
  | refused => rfl
  | lost => simp [update_staging_withTables apart]
  | done =>
    simp only [Outcome.took_done, if_true, update_staging_withTables apart, ne_eq, not_true_eq_false,
      decide_false, Bool.false_eq_true, if_false]
    rw [send_dropPhysical]
    cases outcomes.dropPhysical with
    | refused => rfl
    | lost => simp [update_physical_withTables]
    | done =>
      simp only [Outcome.took_done, if_true, update_physical_withTables, ne_eq, not_true_eq_false,
        decide_false, Bool.false_eq_true, if_false]
      rw [send_rename build _ _ (withTables_staging apart _ _)
        (by rw [update_staging_withTables apart, withTables_physical]),
        update_staging_withTables apart, update_physical_withTables]

variable (tables) in
/-- What a build leaves under the staging name and the serving name, if these are two places. -/
theorem rebuild_spec (apart : build.staging ≠ build.physical) :
    build.rebuild outcomes tables =
      (build.withTables tables
        (if outcomes.begins then
          if outcomes.leavesStaging then some (build.newRows tables) else none
        else tables build.staging)
        (if outcomes.dropsPhysical then
          if outcomes.renames then some (build.newRows tables) else none
        else tables build.physical), !outcomes.completes) := by
  have dropped : Function.update tables build.staging none =
      build.withTables tables none (tables build.physical) := by
    conv_lhs => rw [← withTables_self build tables]
    exact update_staging_withTables apart _ _ _
  have rows : build.newRows tables = build.engine.query build.buildSQL
      (build.withTables tables none (tables build.physical)) := by
    rw [newRows, dropped]
  obtain ⟨resetRaises, dropStaging, create, dropPhysical, rename, cleanup, advanceRaises⟩ := outcomes
  rw [rebuild, send_dropStaging, dropped]
  cases resetRaises with
  | true => simp [Outcomes.begins, Outcomes.dropsPhysical, Outcomes.completes, Outcomes.renames,
      withTables_self]
  | false =>
    cases dropStaging with
    | refused => simp [Outcomes.begins, Outcomes.dropsPhysical, Outcomes.completes,
        Outcomes.renames, withTables_self]
    | lost => simp [Outcomes.begins, Outcomes.dropsPhysical, Outcomes.completes,
        Outcomes.renames, Outcomes.leavesStaging]
    | done =>
      simp only [Outcome.took_done, if_true, swap_withTables _ apart, rows]
      cases create <;> cases dropPhysical <;> cases rename <;>
        simp [Outcomes.begins, Outcomes.dropsPhysical, Outcomes.completes, Outcomes.renames,
          Outcomes.leavesStaging, send_dropStaging, update_staging_withTables apart] <;>
        cases cleanup.took <;> simp

/-- What a build leaves if the engine takes the staging name for the serving name: it always
throws, for there is nothing left to rename. -/
theorem rebuild_aliased (aliased : build.staging = build.physical) :
    build.rebuild outcomes tables =
      (Function.update tables build.physical
        (if outcomes.begins then
          if outcomes.leavesAliased then some (build.newRows tables) else none
        else tables build.physical), true) := by
  have created (outcome : Outcome) : send build.engine
      (.createTableAs build.quotedStaging build.buildSQL) outcome
      (Function.update tables build.physical none) =
      (if outcome.took then Function.update tables build.physical (some (build.newRows tables))
        else Function.update tables build.physical none, decide (outcome ≠ .done)) := by
    rw [send_create _ _ _ (by rw [aliased, Function.update_self]), aliased, Function.update_idem,
      newRows, aliased]
  have gone (outcome : Outcome) : send build.engine
      (.renameTable build.quotedStaging build.quotedRenameTarget) outcome
      (Function.update tables build.physical none) =
      (Function.update tables build.physical none, true) := by
    rw [send, Statement.effect, place_quotedStaging, aliased, Function.update_self]
  obtain ⟨resetRaises, dropStaging, create, dropPhysical, rename, cleanup, advanceRaises⟩ := outcomes
  rw [rebuild, send_dropStaging, aliased]
  cases resetRaises with
  | true => simp [Outcomes.begins]
  | false =>
    cases dropStaging with
    | refused => simp [Outcomes.begins]
    | lost => simp [Outcomes.begins, Outcomes.leavesAliased]
    | done =>
      simp only [Outcome.took_done, if_true, swap, created]
      cases create <;> cases dropPhysical <;>
        simp [Outcomes.begins, Outcomes.leavesAliased, send_dropStaging, send_dropPhysical, aliased,
          gone] <;>
        cases cleanup.took <;> simp

end Spec

/-! ## The serving table of a build that throws -/

/-- What a build that throws is to leave: the serving table as it was, or with the new rows; no
other table changed but the staging table, which is no other source's; and no staging table
behind, unless cleaning it up raised. -/
structure LeavesServing (build : StagedBuild Place Rows) (outcomes : Outcomes)
    (others : List Place) (tables after : Tables Place Rows) : Prop where
  served : after build.physical = tables build.physical ∨
    after build.physical = some (build.newRows tables)
  elsewhere : ∀ place, place ≠ build.physical → (place ≠ build.staging ∨ place ∈ others) →
    after place = tables place
  staging : after build.staging = none ∨ after build.staging = tables build.staging ∨
    outcomes.cleanup ≠ .done

/-- A build that throws spares the serving table, and the tables of the other sources. -/
def Spares (build : StagedBuild Place Rows) (outcomes : Outcomes) (others : List Place)
    (tables : Tables Place Rows) : Prop :=
  (build.rebuild outcomes tables).2 = true →
    build.LeavesServing outcomes others tables (build.rebuild outcomes tables).1

/-- The outcomes, names and tables with which a build spares the tables. -/
structure Survives (build : StagedBuild Place Rows) (outcomes : Outcomes) (others : List Place)
    (tables : Tables Place Rows) : Prop where
  /-- A serving table that is dropped is replaced. -/
  apart : build.staging ≠ build.physical →
    tables build.physical = none ∨ outcomes.dropsPhysical = false ∨ outcomes.renames = true
  /-- A serving table that the staging name is taken for is not dropped, or left new. -/
  aliased : build.staging = build.physical →
    tables build.physical = none ∨ outcomes.begins = false ∨ outcomes.leavesAliased = true
  /-- No other source's table stands under the staging name, unless it is as it was. -/
  neighbour : build.staging ≠ build.physical → build.staging ∈ others →
    outcomes.completes = true ∨ outcomes.begins = false ∨
      tables build.staging = if outcomes.leavesStaging then some (build.newRows tables) else none

section Sparing

variable {build : StagedBuild Place Rows} {outcomes : Outcomes} {others : List Place}
  {tables : Tables Place Rows}

/-- What is renamed was not left behind. -/
theorem leavesStaging_eq_false (clean : outcomes.cleanup = .done) :
    outcomes.leavesStaging = false := by
  simp [Outcomes.leavesStaging, clean]

theorem leavesAliased_eq_false (clean : outcomes.cleanup = .done) :
    outcomes.leavesAliased = false := by
  simp [Outcomes.leavesAliased, clean]

theorem renames_of_completes (completes : outcomes.completes = true) :
    outcomes.renames = true := by
  rw [Outcomes.completes, Bool.and_eq_true, Bool.and_eq_true] at completes
  exact completes.1.1

theorem spares_iff_of_apart (apart : build.staging ≠ build.physical) :
    build.Spares outcomes others tables ↔ build.Survives outcomes others tables := by
  rw [Spares, rebuild_spec outcomes tables apart]
  simp only
  constructor
  · intro spares
    refine ⟨fun _ => ?_, fun aliased => absurd aliased apart, fun _ neighbour => ?_⟩
    · by_contra! lost
      obtain ⟨stood, drops, kept⟩ := lost
      have notRenamed : outcomes.renames = false := by simpa using kept
      have threw : (!outcomes.completes) = true := by
        rw [Bool.not_eq_true', ← Bool.not_eq_true]
        exact fun completes => kept (renames_of_completes completes)
      have served := (spares threw).served
      rw [withTables_physical, if_pos (by simpa using drops), notRenamed] at served
      rcases served with same | new
      · exact stood same.symm
      · cases new
    · by_contra! changed
      obtain ⟨threw, begins, differs⟩ := changed
      have same := (spares (by simpa using threw)).elsewhere build.staging apart (.inr neighbour)
      rw [withTables_staging apart, if_pos (by simpa using begins)] at same
      exact differs same.symm
  · rintro ⟨replaced, -, neighbour⟩ threw
    refine ⟨?_, ?_, ?_⟩
    · rw [withTables_physical]
      rcases replaced apart with absent | kept | renames
      · rw [absent]
        split_ifs <;> simp
      · rw [kept]
        exact .inl rfl
      · rw [renames, if_pos rfl]
        split_ifs <;> simp
    · intro place notPhysical known
      by_cases staged : place = build.staging
      · subst staged
        have listed := known.resolve_left (absurd rfl)
        rw [withTables_staging apart]
        rcases neighbour apart listed with completes | idle | same
        · rw [completes] at threw
          cases threw
        · rw [idle]
          rfl
        · rw [same, ite_self]
      · exact withTables_of_ne staged notPhysical _ _
    · rw [withTables_staging apart]
      by_cases clean : outcomes.cleanup = .done
      · rw [leavesStaging_eq_false clean]
        split_ifs <;> simp_all
      · exact .inr (.inr clean)

theorem spares_iff_of_aliased (aliased : build.staging = build.physical) :
    build.Spares outcomes others tables ↔ build.Survives outcomes others tables := by
  rw [Spares, rebuild_aliased outcomes aliased]
  simp only [forall_const]
  constructor
  · intro spares
    refine ⟨fun apart => absurd aliased apart, fun _ => ?_, fun apart => absurd aliased apart⟩
    by_contra! lost
    obtain ⟨stood, begins, left⟩ := lost
    have served := spares.served
    rw [Function.update_self, if_pos (by simpa using begins), if_neg (by simpa using left)] at served
    rcases served with same | new
    · exact stood same.symm
    · cases new
  · rintro ⟨-, kept, -⟩
    refine ⟨?_, ?_, ?_⟩
    · rw [Function.update_self]
      rcases kept aliased with absent | idle | left
      · rw [absent]
        split_ifs <;> simp
      · rw [idle]
        exact .inl rfl
      · rw [left, if_pos rfl]
        split_ifs <;> simp
    · intro place notPhysical _
      exact Function.update_of_ne notPhysical _ _
    · rw [aliased, Function.update_self]
      by_cases clean : outcomes.cleanup = .done
      · rw [leavesAliased_eq_false clean]
        split_ifs <;> simp_all
      · exact .inr (.inr clean)

/-- A build spares the tables exactly with such outcomes, names and tables. -/
theorem spares_iff : build.Spares outcomes others tables ↔ build.Survives outcomes others tables := by
  by_cases aliased : build.staging = build.physical
  · exact spares_iff_of_aliased aliased
  · exact spares_iff_of_apart aliased

end Sparing

end StagedBuild

/-! ## The builds of a run -/

/-- The tables after the builds of a run. A build that throws does not end the run. -/
def runBuilds (builds : List (StagedBuild Place Rows × Outcomes)) (tables : Tables Place Rows) :
    Tables Place Rows :=
  builds.foldl (fun tables build => (build.1.rebuild build.2 tables).1) tables

/-- Something holds of each build of a run: of its outcomes, the places of the other sources'
tables, and the tables it finds. -/
def EachBuild (holds : StagedBuild Place Rows → Outcomes → List Place → Tables Place Rows → Prop)
    (builds : List (StagedBuild Place Rows × Outcomes)) (tables : Tables Place Rows) : Prop :=
  ∀ before build after, builds = before ++ build :: after →
    holds build.1 build.2 ((before ++ after).map fun other => other.1.physical)
      (runBuilds before tables)

/-- Each build of a run that throws spares the tables exactly if the outcomes of each build,
its names and the tables it finds are such. -/
theorem everyRebuild_spares_iff (builds : List (StagedBuild Place Rows × Outcomes))
    (tables : Tables Place Rows) :
    EachBuild StagedBuild.Spares builds tables ↔ EachBuild StagedBuild.Survives builds tables := by
  unfold EachBuild
  simp only [StagedBuild.spares_iff]

end Engine

/-! ## A rename that raises -/

/-- An engine that tells paths apart, in a dialect whose rename target is bare. -/
def exactEngine : Engine (List String) ℕ where
  dialect := "postgres"
  locate := id
  renamed source target := source.dropLast ++ target
  query _ _ := 2
  renamed_qualified qualified := absurd qualified (by decide)
  renamed_bare _ containers source target := by simp

/-- The build of a source `orders`. -/
def ordersBuild : StagedBuild (List String) ℕ where
  engine := exactEngine
  physicalTableName := "orders"
  sourceEntityId := "a1b2c3d4e5f60718"
  buildSQL := "SELECT 2"
  digest := by decide

/-- Every statement is done but the rename, which raises. -/
def renameRefused : Outcomes where
  resetRaises := false
  dropStaging := .done
  create := .done
  dropPhysical := .done
  rename := .refused
  cleanup := .done
  advanceRaises := false

/-- A warehouse with the rows of an earlier build of `orders`. -/
def ordersServed : Tables (List String) ℕ := fun place =>
  if place = ordersBuild.physical then some 1 else none

/-- The serving table held rows, and is gone. -/
theorem renameRefused_not_spares :
    ¬ EachBuild StagedBuild.Spares [(ordersBuild, renameRefused)] ordersServed := by
  intro spares
  have apart : ordersBuild.staging ≠ ordersBuild.physical :=
    ordersBuild.staging_ne_physical Function.injective_id
  have left := StagedBuild.rebuild_spec renameRefused ordersServed apart
  have threw : (ordersBuild.rebuild renameRefused ordersServed).2 = true := by
    rw [left]
    rfl
  have gone : (ordersBuild.rebuild renameRefused ordersServed).1 ordersBuild.physical = none := by
    rw [left]
    exact @StagedBuild.withTables_physical _ _ _ ordersBuild ordersServed none none
  have stood : ordersServed ordersBuild.physical = some 1 := if_pos rfl
  have spared : ordersBuild.LeavesServing renameRefused [] ordersServed
      (ordersBuild.rebuild renameRefused ordersServed).1 :=
    spares [] (ordersBuild, renameRefused) [] rfl threw
  rcases spared.served with same | new
  · rw [gone, stood] at same
    cases same
  · rw [gone] at new
    cases new

end MalloyPublisher.Materialization
