import MalloyPublisher.Foundations.KeyedMerge
import MalloyPublisher.Incremental.Refresh

/-!
# Runs of refreshes by merge key

With a merge key declared a delta is merged by identity, `NULL` matching `NULL`, so that a
row may be restated with a later watermark. Its old copy then sits in a range that is
covered already, and is replaced when the row's new range is merged.

A source change may insert rows and restate rows, each under a watermark at or above the
boundary recorded at the moment. Rows may also go: what a merge leaves of them has the key
of no source row.

## Main definitions

* `identity` — a row's merge key
* `RestatesAbove` — the source changes of a run
* `KeysCovered` — the invariant of a run
* `KeyedRun` — runs of changes and refreshes

## Main results

* `execScript_merge`, `execScript_merge_twice` — what a merge script does, once and again
* `KeysCovered.refreshSource` — one refresh keeps the invariant
* `KeyedRun.converges` — after every refresh the covered keys have the source's rows
-/

namespace MalloyPublisher.Incremental

open Foundations

variable {V W : Type*}

/-! ## Merging by identity -/

/-- The values of a row's merge key. -/
def identity (mergeKeys : List String) (row : Row V) : List (Option V) := mergeKeys.map row

variable {mergeKeys columns : List String} {old new row : Row V}

/-- An update leaves the merge key as it was. -/
theorem identity_updateRow :
    identity mergeKeys (updateRow columns mergeKeys old new) = identity mergeKeys old :=
  List.map_congr_left fun name member => by simp [updateRow, member]

theorem updateRow_updateRow :
    updateRow columns mergeKeys (updateRow columns mergeKeys old new) new =
      updateRow columns mergeKeys old new := by
  funext name
  by_cases set : name ∈ columns ∧ name ∉ mergeKeys <;> simp [updateRow, set]

theorem updateRow_project :
    updateRow columns mergeKeys (project columns new) new = project columns new := by
  funext name
  by_cases set : name ∈ columns ∧ name ∉ mergeKeys
  · simp [updateRow, project, set]
  · simp [updateRow, set]

/-- Updating a row by one of its own identity gives that row, column by column. -/
theorem updateRow_eq (same : identity mergeKeys old = identity mergeKeys new)
    (oldSupported : ∀ name, name ∉ columns → old name = none)
    (newSupported : ∀ name, name ∉ columns → new name = none) :
    updateRow columns mergeKeys old new = new := by
  funext name
  by_cases inside : name ∈ columns
  · by_cases key : name ∈ mergeKeys
    · have equal : old name = new name := List.map_inj_left.mp same name key
      simp [updateRow, key, equal]
    · simp [updateRow, inside, key]
  · simp [updateRow, inside, oldSupported name inside, newSupported name inside]

variable [DecidableEq V]

/-- The `ON` clause compares identities. -/
theorem sameIdentity_eq (mergeKeys : List String) (row : Row V) :
    sameIdentity mergeKeys row =
      fun new => decide (identity mergeKeys row = identity mergeKeys new) := by
  funext new
  rw [Bool.eq_iff_iff, decide_eq_true_iff, sameIdentity, List.all_eq_true, identity, identity,
    List.map_inj_left]
  simp

/-- A delta of distinct identities is never refused. -/
theorem mergeRows_eq {target delta : List (Row V)}
    (distinct : DistinctKeys (identity mergeKeys) delta) :
    mergeRows columns mergeKeys target delta =
      .ok (mergeInto (identity mergeKeys) (updateRow columns mergeKeys) (project columns) target
        delta) := by
  have once : ¬ (target.any fun row =>
      1 < (delta.filter (sameIdentity mergeKeys row)).length) = true := by
    simp only [List.any_eq_true, decide_eq_true_eq, not_exists, not_and, not_lt]
    intro row _
    simpa only [sameIdentity_eq] using distinct.length_filter_le row
  rw [mergeRows, if_neg once]
  simp only [mergeInto, sameIdentity_eq]
  refine congrArg Except.ok (congrArg₂ (· ++ ·) ?_ ?_)
  · refine List.map_congr_left fun row _ => ?_
    cases delta.find? fun new => decide (identity mergeKeys row = identity mergeKeys new) <;> rfl
  · rfl

variable [LinearOrder W] {numbers : NumberText} {engine : Engine V W}
  {dialect quotedTablePath watermarkName : String} {delta : DeltaRows} {start stop : WatermarkBound}
  {statements : List Statement} {source target : List (Row V)}

omit [DecidableEq V] in
theorem distinctKeys_select (distinct : DistinctKeys (identity mergeKeys) source) :
    DistinctKeys (identity mergeKeys) (delta.select engine source) :=
  List.Nodup.sublist (List.filter_sublist.map _) distinct

/-- With a merge key the script is one merge of the delta's rows. -/
theorem execScript_merge (keyed : mergeKeys ≠ [])
    (built : deltaStatements numbers dialect quotedTablePath delta columns mergeKeys watermarkName
      start stop = .ok statements)
    (distinct : DistinctKeys (identity mergeKeys) source) :
    execScript engine source statements target =
      .ok (mergeInto (identity mergeKeys) (updateRow columns mergeKeys) (project columns) target
        (delta.select engine source)) := by
  rw [deltaStatements, if_pos (List.length_pos_of_ne_nil keyed)] at built
  cases built
  simp [execScript, Statement.body, Dml.exec, mergeRows_eq (distinctKeys_select distinct), pure,
    Except.pure, bind, Except.bind]

/-- Applying a merge script twice leaves what applying it once does. -/
theorem execScript_merge_twice (keyed : mergeKeys ≠ [])
    (built : deltaStatements numbers dialect quotedTablePath delta columns mergeKeys watermarkName
      start stop = .ok statements)
    (distinct : DistinctKeys (identity mergeKeys) source)
    (supported : ∀ row ∈ source, ∀ name, name ∉ columns → row name = none) :
    ∃ once, execScript engine source statements target = .ok once ∧
      execScript engine source statements once = .ok once := by
  refine ⟨_, execScript_merge keyed built distinct, ?_⟩
  rw [execScript_merge keyed built distinct, mergeInto_mergeInto (distinctKeys_select distinct)]
  · exact fun _ _ _ => identity_updateRow
  · intro new member
    rw [project_eq_self (supported new (List.mem_of_mem_filter member))]
  · exact fun _ _ _ => updateRow_updateRow
  · exact fun _ _ => updateRow_project

/-- A merge script that commits leaves the merged table, under its old columns. -/
theorem applyDeltaScript_merge {fault : Option String} {world written : World V}
    {serving : Table V} (keyed : mergeKeys ≠ [])
    (built : deltaStatements numbers dialect quotedTablePath delta world.source.columns mergeKeys
      watermarkName start stop = .ok statements)
    (distinct : DistinctKeys (identity mergeKeys) world.source.rows)
    (serves : world.target = some serving) (columns : serving.columns = world.source.columns)
    (committed : applyDeltaScript engine fault statements world = .ok written) :
    ∃ table, written = { world with target := some table } ∧ table.columns = serving.columns ∧
      table.rows = mergeInto (identity mergeKeys) (updateRow world.source.columns mergeKeys)
        (project world.source.columns) serving.rows (delta.select engine world.source.rows) := by
  cases fault with
  | some message => simp [applyDeltaScript] at committed
  | none =>
    simp only [applyDeltaScript, serves, execScript_merge keyed built distinct, Except.map,
      Except.ok.injEq] at committed
    refine ⟨_, committed.symm, rfl, Table.withRows_rows _ ?_⟩
    intro row member name outside
    rcases List.mem_append.mp member with kept | inserted
    · obtain ⟨old, inside, rfl⟩ := List.mem_map.mp kept
      have absent := serving.supported old inside name outside
      rw [columns] at outside
      split <;> simp [updateRow, outside, absent]
    · obtain ⟨new, -, rfl⟩ := List.mem_map.mp inserted
      rw [columns] at outside
      simp [project, outside]

/-! ## The invariant of a run -/

/-- A source change that inserts or restates rows: every row is an old one, or has a
watermark at or above the recorded boundary. Identities stay distinct. -/
structure RestatesAbove (engine : Engine V W) (lineage : IncrementalLineage) (world : World V)
    (source : Table V) : Prop where
  columns : source.columns = world.source.columns
  distinct : DistinctKeys (identity lineage.mergeKeys) source.rows
  above : ∀ entry, world.ledger = some entry → ∀ row ∈ source.rows,
    row ∈ world.source.rows ∨
      ∀ w, mark engine lineage.watermarkName row = some w → engine.reads entry.bound ≤ w

variable (engine) in
/-- Identities are distinct on both sides, and the serving table holds every source row whose
watermark is below the recorded boundary; or it is gone, and `lost` holds. -/
structure KeysCovered (lineage : IncrementalLineage) (lost : Prop) (world : World V) : Prop where
  source : DistinctKeys (identity lineage.mergeKeys) world.source.rows
  target : ∀ target, world.target = some target →
    DistinctKeys (identity lineage.mergeKeys) target.rows
  covered : ∀ entry, world.ledger = some entry →
    (∃ target, world.target = some target ∧ target.columns = world.source.columns ∧
      ∀ row ∈ world.source.rows, ∀ w, mark engine lineage.watermarkName row = some w →
        w < engine.reads entry.bound → row ∈ target.rows) ∨
    (world.target = none ∧ lost)

namespace KeysCovered

variable {lineage : IncrementalLineage} {lost lost' : Prop} {world : World V}

omit [DecidableEq V] in
theorem mono (covered : KeysCovered engine lineage lost world) (weaker : lost → lost') :
    KeysCovered engine lineage lost' world where
  source := covered.source
  target := covered.target
  covered entry recorded := (covered.covered entry recorded).imp_right fun ⟨gone, because⟩ =>
    ⟨gone, weaker because⟩

omit [DecidableEq V] in
/-- A copy of the source is covered through any boundary. -/
theorem of_copy {copy : World V} (distinct : DistinctKeys (identity lineage.mergeKeys) copy.source.rows)
    (copied : copy.target = some copy.source) : KeysCovered engine lineage lost copy where
  source := distinct
  target target serving := by
    rw [copied] at serving
    exact Option.some.inj serving ▸ distinct
  covered entry _ := .inl ⟨copy.source, copied, rfl, fun row member _ _ _ => member⟩

omit [DecidableEq V] in
/-- A restated row leaves the covered ones alone. -/
theorem change {source : Table V} (covered : KeysCovered engine lineage lost world)
    (restates : RestatesAbove engine lineage world source) :
    KeysCovered engine lineage lost { world with source := source } where
  source := restates.distinct
  target := covered.target
  covered entry recorded := by
    refine (covered.covered entry recorded).imp_left fun ⟨target, serving, columns, holds⟩ => ?_
    refine ⟨target, serving, columns.trans restates.columns.symm, ?_⟩
    intro row member w marked below
    rcases restates.above entry recorded row member with old | above
    · exact holds row old w marked below
    · exact absurd below (not_lt.mpr (above w marked))

/-- A merge of the rows from the recorded boundary on keeps the keys covered: through that
boundary, and through the end of the range. -/
theorem applyDelta {quotedTablePath dialect : String} {fault : Option String} {delta : DeltaRows}
    {statements : List Statement} {written : World V} {entry : RecordedBoundary}
    {ledger : Option RecordedBoundary} {stop : WatermarkBound} {target : Table V}
    (covered : KeysCovered engine lineage lost world) (keyed : lineage.mergeKeys ≠ [])
    (recorded : world.ledger = some entry) (serving : world.target = some target)
    (reads : delta.column = lineage.watermarkName ∧ delta.start = entry.bound ∧ delta.stop = stop)
    (built : deltaStatements numbers dialect quotedTablePath delta world.source.columns
      lineage.mergeKeys lineage.watermarkName entry.bound stop = .ok statements)
    (committed : applyDeltaScript engine fault statements world = .ok written)
    (advanced : ∀ later, ledger = some later → later.bound = entry.bound ∨ later.bound = stop) :
    KeysCovered engine lineage lost { written with ledger := ledger } := by
  obtain ⟨columns, holds⟩ : target.columns = world.source.columns ∧
      ∀ row ∈ world.source.rows, ∀ w, mark engine lineage.watermarkName row = some w →
        w < engine.reads entry.bound → row ∈ target.rows := by
    rcases covered.covered entry recorded with ⟨found, serves, columns, holds⟩ | ⟨gone, -⟩
    · cases serving.symm.trans serves
      exact ⟨columns, holds⟩
    · simp [gone] at serving
  obtain ⟨table, rfl, sameColumns, rows⟩ := applyDeltaScript_merge keyed built covered.source
    serving columns committed
  have selected : DistinctKeys (identity lineage.mergeKeys)
      (delta.select engine world.source.rows) := distinctKeys_select covered.source
  have supported : ∀ new ∈ delta.select engine world.source.rows, ∀ name,
      name ∉ world.source.columns → new name = none :=
    fun new member => world.source.supported new (List.mem_of_mem_filter member)
  refine ⟨covered.source, ?_, ?_⟩
  · intro merged serves
    cases serves
    rw [rows]
    refine (covered.target target serving).mergeInto selected ?_ ?_
    · exact fun _ _ _ => identity_updateRow
    · intro new member
      rw [project_eq_self (supported new member)]
  · intro later landed
    refine .inl ⟨table, rfl, sameColumns.trans columns, ?_⟩
    intro row member w marked below
    have rowSupported := world.source.supported row member
    rw [rows]
    by_cases reached : engine.reads entry.bound ≤ w
    · -- The row is in the delta's range: the merge writes it as it is.
      have stopped : w < engine.reads stop := by
        rcases advanced later landed with stayed | moved
        · exact absurd below (not_lt.mpr (stayed ▸ reached))
        · exact moved ▸ below
      have inDelta : row ∈ delta.select engine world.source.rows := by
        refine List.mem_filter.mpr ⟨member, ?_⟩
        rw [reads.1, reads.2.1, reads.2.2, inRange_of_mark _ marked]
        exact decide_eq_true ⟨reached, stopped⟩
      rcases mergeInto_of_mem (updateRow world.source.columns lineage.mergeKeys)
        (project world.source.columns) target.rows selected inDelta with
        ⟨old, serves, same, updated⟩ | inserted
      · have oldSupported := target.supported old serves
        rw [columns] at oldSupported
        rwa [updateRow_eq same oldSupported rowSupported] at updated
      · rwa [project_eq_self rowSupported] at inserted
    · -- The row is below the range, and no other source row has its key.
      have below := not_le.mp reached
      refine mem_mergeInto_of_notMem (holds row member w marked below) fun new inDelta same => ?_
      obtain ⟨inSource, inside⟩ := List.mem_filter.mp inDelta
      obtain rfl := covered.source.eq_of_key member inSource same
      rw [reads.1, reads.2.1, inRange_of_mark _ marked] at inside
      exact reached (of_decide_eq_true inside).1

/-- One refresh, whatever goes wrong around it, keeps the keys covered through the boundary
recorded after it. -/
theorem refreshSource {refreshed : RefreshedSource} {context : IncrementalRunContext}
    {reseed : Bool} {faults : Faults} (covered : KeysCovered engine refreshed.lineage lost world)
    (keyed : refreshed.lineage.mergeKeys ≠ []) (stores : context.callerLedger = none) :
    KeysCovered engine refreshed.lineage (lost ∨ faults.resetLost = true ∧ faults.rebuild = .dropped)
      (refreshSource numbers engine refreshed context reseed faults world).1 := by
  generalize after : (Incremental.refreshSource numbers engine refreshed context reseed faults
    world).1 = later
  have effect : RefreshEffect numbers engine refreshed.lineage faults world later :=
    after ▸ refreshSource_effect stores
  cases effect with
  | unchanged => exact covered.mono .inl
  | delta ledger recorded serving fits reads built committed advanced =>
    exact (covered.applyDelta keyed recorded serving reads built committed advanced).mono .inl
  | copied ledger => exact of_copy covered.source rfl
  | cleared ledger kept =>
    refine ⟨covered.source, covered.target, fun entry recorded => ?_⟩
    exact (covered.covered entry (kept entry recorded)).imp_right fun ⟨gone, because⟩ =>
      ⟨gone, .inl because⟩
  | dropped ledger rebuild kept =>
    refine ⟨covered.source, nofun, fun entry recorded => ?_⟩
    exact .inr ⟨rfl, .inr ⟨(kept entry recorded).1, rebuild⟩⟩

end KeysCovered

/-! ## Runs -/

variable (numbers engine) in
/-- The worlds a sequence of restating source changes and refreshes can lead to. -/
inductive KeyedRun (refreshed : RefreshedSource) (initial : World V) :
    List (Event V) → World V → Prop
  | start : KeyedRun refreshed initial [] initial
  | change {events world} (source : Table V) (run : KeyedRun refreshed initial events world)
      (restates : RestatesAbove engine refreshed.lineage world source) :
      KeyedRun refreshed initial (.change source :: events) { world with source := source }
  | refresh {events world} (context : IncrementalRunContext) (reseed : Bool) (faults : Faults)
      (run : KeyedRun refreshed initial events world) (stores : context.callerLedger = none) :
      KeyedRun refreshed initial (.refresh context reseed faults :: events)
        (refreshSource numbers engine refreshed context reseed faults world).1

/-- The invariant holds along a run. -/
theorem KeyedRun.keysCovered {refreshed : RefreshedSource}
    (keyed : refreshed.lineage.mergeKeys ≠ []) {initial world : World V} {events : List (Event V)}
    (unrecorded : initial.ledger = none)
    (distinctSource : DistinctKeys (identity refreshed.lineage.mergeKeys) initial.source.rows)
    (distinctTarget : ∀ target, initial.target = some target →
      DistinctKeys (identity refreshed.lineage.mergeKeys) target.rows)
    (run : KeyedRun numbers engine refreshed initial events world) :
    KeysCovered engine refreshed.lineage (∃ event ∈ events, event.LosesTable) world := by
  induction run with
  | start =>
    refine ⟨distinctSource, distinctTarget, fun entry recorded => ?_⟩
    simp [unrecorded] at recorded
  | change source run restates covered =>
    refine (covered.change restates).mono ?_
    rintro ⟨event, member, loses⟩
    exact ⟨event, List.mem_cons_of_mem _ member, loses⟩
  | refresh context reseed faults run stores covered =>
    refine (covered.refreshSource keyed stores).mono ?_
    rintro (⟨event, member, loses⟩ | loses)
    · exact ⟨event, List.mem_cons_of_mem _ member, loses⟩
    · exact ⟨_, List.mem_cons_self, loses⟩

/-- Refreshes by merge key converge to the rebuild. In every run the serving table has at
most one row per key, and for every source row below the recorded boundary the table's row
of its key is that row in every column; the table can be missing only after a rebuild that
dropped it and did not finish. Applying a delta's script twice is applying it once. -/
theorem KeyedRun.converges {refreshed : RefreshedSource}
    (keyed : refreshed.lineage.mergeKeys ≠ []) {initial world : World V} {events : List (Event V)}
    (unrecorded : initial.ledger = none)
    (distinctSource : DistinctKeys (identity refreshed.lineage.mergeKeys) initial.source.rows)
    (distinctTarget : ∀ target, initial.target = some target →
      DistinctKeys (identity refreshed.lineage.mergeKeys) target.rows)
    (run : KeyedRun numbers engine refreshed initial events world) :
    (∀ target, world.target = some target →
      DistinctKeys (identity refreshed.lineage.mergeKeys) target.rows) ∧
    (∀ entry, world.ledger = some entry →
      (∃ target, world.target = some target ∧ ∀ row ∈ world.source.rows, ∀ w,
        mark engine refreshed.lineage.watermarkName row = some w →
        w < engine.reads entry.bound →
        row ∈ target.rows ∧ ∀ other ∈ target.rows,
          identity refreshed.lineage.mergeKeys other = identity refreshed.lineage.mergeKeys row →
          other = row) ∨
      (world.target = none ∧ ∃ event ∈ events, event.LosesTable)) ∧
    ∀ dialect quotedTablePath delta start stop statements target,
      deltaStatements numbers dialect quotedTablePath delta world.source.columns
        refreshed.lineage.mergeKeys refreshed.lineage.watermarkName start stop = .ok statements →
      ∃ once, execScript engine world.source.rows statements target = .ok once ∧
        execScript engine world.source.rows statements once = .ok once := by
  have covered := run.keysCovered keyed unrecorded distinctSource distinctTarget
  refine ⟨covered.target, fun entry recorded => ?_, ?_⟩
  · refine (covered.covered entry recorded).imp_left fun ⟨target, serving, _, holds⟩ => ?_
    refine ⟨target, serving, fun row member w marked below => ?_⟩
    have serves := holds row member w marked below
    exact ⟨serves, fun other found same =>
      (covered.target target serving).eq_of_key found serves same⟩
  · intro dialect quotedTablePath delta start stop statements target built
    exact execScript_merge_twice keyed built covered.source world.source.supported

/-! ## A run that restates a row -/

section RestatedRun

/-- A row of an order's number and the time it was last written. -/
def orderRow (order : ℕ × ℕ) : Row ℕ := fun column =>
  if column = "k" then some order.1 else if column = "id" then some order.2 else none

/-- The table of the listed orders. -/
def orderTable (orders : List (ℕ × ℕ)) : Table ℕ where
  columns := ["k", "id"]
  rows := orders.map orderRow
  supported := by
    intro row member column outside
    obtain ⟨order, -, rfl⟩ := List.mem_map.mp member
    simp_all [orderRow]

/-- Orders merged by their number. -/
def ordersByKey : RefreshedSource where
  dialect := "duckdb"
  quotedTablePath := "\"orders_v1\""
  sourceSQL := "SELECT k, id FROM orders"
  lineage := {
    physicalTableName := "orders_v1", connectionName := "warehouse", storageDestinationName := none
    sourceEntityId := "e1", watermarkName := "id", watermarkType := .number, mergeKeys := ["k"]
    strategy := .merge }

/-- One refresh nothing goes wrong around. -/
def refreshOrdersByKey (world : World ℕ) : World ℕ :=
  (refreshSource decimalText naturalEngine ordersByKey plainContext false Faults.none world).1

def unseededOrders : World ℕ :=
  { source := orderTable [(1, 1), (2, 3)], target := none, ledger := none }

/-- The orders after a seed: the first is written again, and a third comes in. -/
def restatedOrders : Table ℕ := orderTable [(1, 5), (2, 3), (3, 4)]

theorem restatedOrders_restatesAbove :
    RestatesAbove naturalEngine ordersByKey.lineage (refreshOrdersByKey unseededOrders)
      restatedOrders where
  columns := rfl
  distinct := by decide
  above := by
    have seeded : (refreshOrdersByKey unseededOrders).ledger =
        some (recordBoundary ordersByKey.lineage ⟨.number, "3"⟩) := by decide +kernel
    intro entry recorded row member
    obtain rfl := Option.some.inj (seeded.symm.trans recorded)
    obtain ⟨order, listed, rfl⟩ := List.mem_map.mp member
    have placed : ∀ order ∈ [(1, 5), (2, 3), (3, 4)],
        order ∈ [(1, 1), (2, 3)] ∨ 3 ≤ order.2 := by decide
    refine (placed order listed).imp (List.mem_map_of_mem) fun later w marked => ?_
    obtain rfl : order.2 = w := Option.some.inj marked
    exact later

/-- The world after a seed, the restatement, and a merge. -/
def mergedOrders : World ℕ :=
  refreshOrdersByKey { refreshOrdersByKey unseededOrders with source := restatedOrders }

theorem mergedOrders_run :
    KeyedRun decimalText naturalEngine ordersByKey unseededOrders
      [.refresh plainContext false Faults.none, .change restatedOrders,
        .refresh plainContext false Faults.none] mergedOrders :=
  .refresh _ _ _ (.change _ (.refresh _ _ _ .start rfl) restatedOrders_restatesAbove) rfl

theorem mergedOrders_converges :
    (∀ target, mergedOrders.target = some target →
      DistinctKeys (identity ["k"]) target.rows) ∧
    ((∃ target, mergedOrders.target = some target ∧ ∀ row ∈ mergedOrders.source.rows, ∀ w,
        mark naturalEngine "id" row = some w → w < naturalEngine.reads ⟨.number, "5"⟩ →
        row ∈ target.rows ∧ ∀ other ∈ target.rows,
          identity ["k"] other = identity ["k"] row → other = row) ∨
      (mergedOrders.target = none ∧ ∃ event ∈ ([.refresh plainContext false Faults.none,
        .change restatedOrders, .refresh plainContext false Faults.none] : List (Event ℕ)),
          event.LosesTable)) := by
  have recorded : mergedOrders.ledger =
      some (recordBoundary ordersByKey.lineage ⟨.number, "5"⟩) := by decide +kernel
  obtain ⟨distinct, covered, -⟩ := KeyedRun.converges (List.cons_ne_nil _ _) rfl
    (show DistinctKeys (identity ["k"]) unseededOrders.source.rows by decide)
    (fun _ serving => absurd serving (by simp [unseededOrders])) mergedOrders_run
  exact ⟨distinct, covered _ recorded⟩

end RestatedRun

end MalloyPublisher.Incremental
