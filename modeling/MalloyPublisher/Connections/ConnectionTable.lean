import MalloyPublisher.Connections.MergeUpdate

/-!
# An environment's connections, in memory and in the database

The list in memory is assembled as a whole, and refused as a whole where one of its connections is.
The database has a row for each connection, found by its name and written by its id.

A connection's config is taken without its name, which it is found by, and without its attributes,
which assembling computes from its type. Which configs assembling refuses is left open.

## Main definitions

* `assembleEnvironmentConnections` — the list in memory, from a list of configs
* `serve` — a call on a list of connections that is the same in memory and in the database
* `Table.write` — one await of a write of a row

## Main results

* `named_eq_some_iff`, `find_eq_some_iff` — where names are distinct, a connection is found by its
  own
* `named_serve_of_ne` — a call leaves the connections alone that it is not on
* `WellFormed.write` — a write keeps the rows distinct
-/

namespace MalloyPublisher.Connections

open Foundations

structure Connection where
  name : String
  config : List (String × Json)
deriving DecidableEq

/-! ## In memory -/

/-- The first connection of each name. -/
def firstByName (seen : List String) : List Connection → List Connection
  | [] => []
  | connection :: connections =>
    if connection.name ∈ seen then firstByName seen connections
    else connection :: firstByName (connection.name :: seen) connections

/-- The list in memory, unless a connection of it is refused. -/
def assembleEnvironmentConnections (accepts : Connection → Bool) (connections : List Connection) :
    Option (List Connection) :=
  let first := firstByName [] connections
  if first.all accepts then some first else none

/-- The connection of a name. -/
def named (connections : List Connection) (name : String) : Option Connection :=
  connections.find? fun connection => connection.name == name

/-- A connection and a patch of its config, merged. -/
def Connection.patched (stored : Connection) (patch : List (String × Json)) : Connection :=
  { stored with config := mergeConnectionUpdate (.object stored.config) (.object patch) }

/-- A list with an updated connection in the place of the one of its name. -/
def replaced (connections : List Connection) (updated : Connection) : List Connection :=
  connections.map fun connection => if connection.name = updated.name then updated else connection

/-- A list without the connection of a name. -/
def withoutConnection (connections : List Connection) (name : String) : List Connection :=
  connections.filter fun connection => connection.name != name

/-- A list that takes the place of another, each connection merged with the one of its name. -/
def mergedConnections (stored incoming : List Connection) : List Connection :=
  incoming.map fun connection =>
    match named stored connection.name with
    | some existing => existing.patched connection.config
    | none => connection

inductive Call
  /-- The name is that of the route, the other that of the body. -/
  | addConnection (name : String) (connection : Connection)
  | updateConnection (name : String) (patch : List (String × Json))
  | deleteConnection (name : String)
  | updateEnvironment (connections : List Connection)
deriving DecidableEq

/-- The connection a call is on, unless it is on all of them. -/
def Call.target : Call → Option String
  | .addConnection _ connection => some connection.name
  | .updateConnection name _ | .deleteConnection name => some name
  | .updateEnvironment _ => none

/-- A call served on its own. Nothing is changed by one that fails. -/
def serve (accepts : Connection → Bool) (connections : List Connection) :
    Call → Option (List Connection)
  | .addConnection name connection =>
    if (named connections name).isSome ∨ (named connections connection.name).isSome then none
    else assembleEnvironmentConnections accepts (connections ++ [connection])
  | .updateConnection name patch => (named connections name).bind fun stored =>
    assembleEnvironmentConnections accepts (replaced connections (stored.patched patch))
  | .deleteConnection name => (named connections name).bind fun _ =>
    assembleEnvironmentConnections accepts (withoutConnection connections name)
  | .updateEnvironment incoming =>
    assembleEnvironmentConnections accepts (mergedConnections connections incoming)

/-! ## In the database -/

structure Row where
  id : ℕ
  connection : Connection
deriving DecidableEq

/-- The rows of one environment, and the id of the next. -/
structure Table where
  rows : List Row
  nextId : ℕ
deriving DecidableEq

/-- `getConnectionByName`. -/
def Table.find (table : Table) (name : String) : Option Row :=
  table.rows.find? fun row => row.connection.name == name

/-- `deleteConnection`. -/
def Table.delete (table : Table) (id : ℕ) : Table :=
  { table with rows := table.rows.filter fun row => row.id != id }

/-- `UPDATE … WHERE id`. -/
def Table.set (table : Table) (id : ℕ) (config : List (String × Json)) : Table :=
  { table with rows := table.rows.map fun row =>
      if row.id = id then { row with connection := { row.connection with config := config } }
      else row }

/-- `INSERT`, of a connection whose name is not there. -/
def Table.add (table : Table) (connection : Connection) : Table :=
  { rows := table.rows ++ [⟨table.nextId, connection⟩], nextId := table.nextId + 1 }

/-- The awaits of a write of a row. -/
inductive Write
  /-- The store's `updateConnection` looks the row up by its name. -/
  | find
  /-- The repository's looks it up by its id. -/
  | check (id : ℕ)
  | set (id : ℕ)
  | insert
deriving DecidableEq

/-- A write goes on from its await, to the next if there is one, or it throws. -/
def Table.write (table : Table) (connection : Connection) : Write → Option (Table × Option Write)
  | .find =>
    match table.find connection.name with
    | none => some (table, none)
    | some row => some (table, some (.check row.id))
  | .check id => if table.rows.any fun row => row.id == id then some (table, some (.set id)) else none
  | .set id => some (table.set id connection.config, none)
  | .insert =>
    if (table.find connection.name).isSome then none else some (table.add connection, none)

/-! ## Connections by name -/

variable {accepts : Connection → Bool} {connections next : List Connection} {name : String}
  {connection : Connection}

theorem name_of_named (found : named connections name = some connection) :
    connection.name = name := key_of_find found

theorem named_eq_none_iff :
    named connections name = none ↔ name ∉ connections.map Connection.name := find_key_eq_none

theorem named_eq_some_iff (distinct : (connections.map Connection.name).Nodup) :
    named connections name = some connection ↔
      connection ∈ connections ∧ connection.name = name := find_key_eq_some distinct

theorem mem_names_firstByName (seen : List String) :
    ∀ name ∈ (firstByName seen connections).map Connection.name, name ∉ seen := by
  induction connections generalizing seen with
  | nil => simp [firstByName]
  | cons first connections ih =>
    intro name member
    unfold firstByName at member
    split_ifs at member with known
    · exact ih seen name member
    · obtain rfl | later := List.mem_cons.mp member
      · exact known
      · exact fun there => ih _ name later (List.mem_cons_of_mem _ there)

theorem nodup_firstByName (seen : List String) :
    ((firstByName seen connections).map Connection.name).Nodup := by
  induction connections generalizing seen with
  | nil => exact List.nodup_nil
  | cons first connections ih =>
    unfold firstByName
    split_ifs with known
    · exact ih seen
    · exact List.nodup_cons.mpr
        ⟨fun there => mem_names_firstByName _ _ there List.mem_cons_self, ih _⟩

/-- A list with distinct names has nothing to leave out. -/
theorem firstByName_of_nodup {seen : List String}
    (distinct : (connections.map Connection.name).Nodup)
    (fresh : ∀ name ∈ connections.map Connection.name, name ∉ seen) :
    firstByName seen connections = connections := by
  induction connections generalizing seen with
  | nil => rfl
  | cons first connections ih =>
    rw [List.map_cons, List.nodup_cons] at distinct
    rw [List.map_cons] at fresh
    rw [firstByName, if_neg (fresh _ List.mem_cons_self), ih distinct.2]
    intro name member there
    obtain rfl | known := List.mem_cons.mp there
    · exact distinct.1 member
    · exact fresh name (List.mem_cons_of_mem _ member) known

theorem mem_names_iff_firstByName {seen : List String} (unseen : name ∉ seen) :
    name ∈ (firstByName seen connections).map Connection.name ↔
      name ∈ connections.map Connection.name := by
  induction connections generalizing seen with
  | nil => simp [firstByName]
  | cons first connections ih =>
    unfold firstByName
    split_ifs with known
    · rw [ih unseen, List.map_cons, List.mem_cons]
      refine (or_iff_right ?_).symm
      rintro rfl
      exact unseen known
    · rw [List.map_cons, List.map_cons, List.mem_cons, List.mem_cons]
      by_cases same : name = first.name
      · simp [same]
      · rw [ih (by simp [same, unseen])]

theorem assemble_eq_some (assembled : assembleEnvironmentConnections accepts connections =
    some next) : next = firstByName [] connections := by
  rw [assembleEnvironmentConnections] at assembled
  split_ifs at assembled
  exact (Option.some.inj assembled).symm

theorem accepts_of_assemble (assembled : assembleEnvironmentConnections accepts connections =
    some next) : ∀ connection ∈ next, accepts connection = true := by
  rw [assembleEnvironmentConnections] at assembled
  split_ifs at assembled with accepted
  rw [← Option.some.inj assembled]
  exact List.all_eq_true.mp accepted

theorem nodup_assemble (assembled : assembleEnvironmentConnections accepts connections =
    some next) : (next.map Connection.name).Nodup :=
  assemble_eq_some assembled ▸ nodup_firstByName []

theorem assemble_of_nodup (distinct : (connections.map Connection.name).Nodup)
    (assembled : assembleEnvironmentConnections accepts connections = some next) :
    next = connections :=
  (assemble_eq_some assembled).trans (firstByName_of_nodup distinct (by simp))

/-! ## What a call leaves alone -/

theorem names_replaced (updated : Connection) :
    (replaced connections updated).map Connection.name = connections.map Connection.name := by
  rw [replaced, List.map_map]
  refine List.map_congr_left fun connection _ => ?_
  by_cases same : connection.name = updated.name <;> simp [same]

theorem mem_replaced_of_ne {updated : Connection} (other : connection.name ≠ updated.name) :
    connection ∈ replaced connections updated ↔ connection ∈ connections := by
  rw [replaced, List.mem_map]
  constructor
  · rintro ⟨source, member, same⟩
    split_ifs at same with isUpdated
    · exact absurd (congrArg Connection.name same).symm other
    · exact same ▸ member
  · exact fun member => ⟨connection, member, if_neg other⟩

theorem mem_replaced_self {updated : Connection}
    (known : updated.name ∈ connections.map Connection.name) :
    updated ∈ replaced connections updated := by
  obtain ⟨stored, member, same⟩ := List.mem_map.mp known
  exact List.mem_map.mpr ⟨stored, member, if_pos same⟩

theorem patched_name (stored : Connection) (patch : List (String × Json)) :
    (stored.patched patch).name = stored.name := rfl

theorem names_mergedConnections (stored incoming : List Connection) :
    (mergedConnections stored incoming).map Connection.name = incoming.map Connection.name := by
  rw [mergedConnections, List.map_map]
  refine List.map_congr_left fun connection _ => ?_
  rw [Function.comp_apply]
  split
  · rename_i existing found
    rw [patched_name, name_of_named found]
  · rfl

theorem nodup_append_singleton (distinct : (connections.map Connection.name).Nodup)
    (fresh : named connections connection.name = none) :
    ((connections ++ [connection]).map Connection.name).Nodup := by
  rw [List.map_append, List.nodup_append]
  refine ⟨distinct, List.nodup_singleton _, ?_⟩
  rintro name member other isNew rfl
  rw [List.mem_singleton.mp isNew] at member
  exact named_eq_none_iff.mp fresh member

theorem nodup_withoutConnection (distinct : (connections.map Connection.name).Nodup) :
    ((withoutConnection connections name).map Connection.name).Nodup :=
  (List.filter_sublist.map _).nodup distinct

/-- A call's list has distinct names. -/
theorem nodup_serve {call : Call} (served : serve accepts connections call = some next) :
    (next.map Connection.name).Nodup := by
  cases call with
  | addConnection =>
    rw [serve] at served
    split_ifs at served
    exact nodup_assemble served
  | updateConnection | deleteConnection =>
    rw [serve, Option.bind_eq_some_iff] at served
    obtain ⟨_, _, assembled⟩ := served
    exact nodup_assemble assembled
  | updateEnvironment => exact nodup_assemble served

/-- What is served of a call on one connection. -/
theorem serve_add (distinct : (connections.map Connection.name).Nodup)
    (served : serve accepts connections (.addConnection name connection) = some next) :
    named connections connection.name = none ∧ next = connections ++ [connection] := by
  rw [serve] at served
  split_ifs at served with known
  rw [not_or, Option.not_isSome_iff_eq_none, Option.not_isSome_iff_eq_none] at known
  exact ⟨known.2, assemble_of_nodup (nodup_append_singleton distinct known.2) served⟩

theorem serve_update {patch : List (String × Json)}
    (distinct : (connections.map Connection.name).Nodup)
    (served : serve accepts connections (.updateConnection name patch) = some next) :
    ∃ stored, named connections name = some stored ∧
      next = replaced connections (stored.patched patch) := by
  rw [serve, Option.bind_eq_some_iff] at served
  obtain ⟨stored, found, assembled⟩ := served
  exact ⟨stored, found, assemble_of_nodup (by rw [names_replaced]; exact distinct) assembled⟩

theorem serve_delete (distinct : (connections.map Connection.name).Nodup)
    (served : serve accepts connections (.deleteConnection name) = some next) :
    next = withoutConnection connections name := by
  rw [serve, Option.bind_eq_some_iff] at served
  obtain ⟨-, -, assembled⟩ := served
  exact assemble_of_nodup (nodup_withoutConnection distinct) assembled

/-- A call leaves the connections alone that it is not on. -/
theorem named_serve_of_ne {call : Call} {target : String}
    (distinct : (connections.map Connection.name).Nodup)
    (served : serve accepts connections call = some next) (isTarget : call.target = some target)
    (other : name ≠ target) : named next name = named connections name := by
  refine find_key_congr (nodup_serve served) distinct fun connection isNamed => ?_
  cases call with
  | addConnection _ added =>
    obtain rfl := Option.some.inj isTarget
    rw [(serve_add distinct served).2, List.mem_append, List.mem_singleton]
    refine or_iff_left ?_
    rintro rfl
    exact other isNamed.symm
  | updateConnection _ patch =>
    obtain rfl := Option.some.inj isTarget
    obtain ⟨stored, found, rfl⟩ := serve_update distinct served
    refine mem_replaced_of_ne ?_
    rw [patched_name, name_of_named found, isNamed]
    exact other
  | deleteConnection _ =>
    obtain rfl := Option.some.inj isTarget
    rw [serve_delete distinct served, withoutConnection, List.mem_filter, isNamed]
    exact and_iff_left (by simpa using other)
  | updateEnvironment => cases isTarget

theorem named_add (distinct : (connections.map Connection.name).Nodup)
    (served : serve accepts connections (.addConnection name connection) = some next) :
    named next connection.name = some connection := by
  rw [named_eq_some_iff (nodup_serve served), (serve_add distinct served).2]
  simp

theorem named_update {patch : List (String × Json)} {stored : Connection}
    (distinct : (connections.map Connection.name).Nodup)
    (found : named connections name = some stored)
    (served : serve accepts connections (.updateConnection name patch) = some next) :
    named next name = some (stored.patched patch) := by
  obtain ⟨other, found', rfl⟩ := serve_update distinct served
  obtain rfl := Option.some.inj (found.symm.trans found')
  have isNamed := name_of_named found
  rw [named_eq_some_iff (nodup_serve served)]
  refine ⟨mem_replaced_self ?_, by rw [patched_name, isNamed]⟩
  rw [patched_name]
  exact List.mem_map_of_mem ((named_eq_some_iff distinct).mp found).1

theorem named_delete (distinct : (connections.map Connection.name).Nodup)
    (served : serve accepts connections (.deleteConnection name) = some next) :
    named next name = none := by
  rw [named_eq_none_iff, serve_delete distinct served, withoutConnection]
  intro member
  obtain ⟨connection, kept, isNamed⟩ := List.mem_map.mp member
  simpa [isNamed] using (List.mem_filter.mp kept).2

/-- The connections of an environment are those of the list it is given. -/
theorem mem_names_updateEnvironment {incoming : List Connection}
    (served : serve accepts connections (.updateEnvironment incoming) = some next) :
    name ∈ next.map Connection.name ↔ name ∈ incoming.map Connection.name := by
  rw [assemble_eq_some served, mem_names_iff_firstByName (by simp), names_mergedConnections]

/-! ## The rows -/

/-- No two rows have one name or one id, and the next id is new. -/
structure Table.WellFormed (table : Table) : Prop where
  names : (table.rows.map fun row => row.connection.name).Nodup
  ids : (table.rows.map Row.id).Nodup
  fresh : ∀ row ∈ table.rows, row.id < table.nextId

variable {table after : Table} {row : Row} {id : ℕ}

theorem find_eq_some_iff (wellFormed : table.WellFormed) :
    table.find name = some row ↔ row ∈ table.rows ∧ row.connection.name = name :=
  find_key_eq_some wellFormed.names

/-- Rows and a list that have each name alike are the same connections. -/
theorem perm_of_mirrored (wellFormed : table.WellFormed)
    (names : (connections.map Connection.name).Nodup)
    (mirrored : ∀ name, (table.find name).map Row.connection = named connections name) :
    (table.rows.map Row.connection).Perm connections := by
  have rows : (table.rows.map Row.connection).Nodup := by
    have names := wellFormed.names
    rw [← Function.comp_def Connection.name, ← List.map_map] at names
    exact names.of_map _
  refine (List.perm_ext_iff_of_nodup rows (names.of_map _)).mpr fun connection => ?_
  have inMemory : named connections connection.name = some connection ↔ connection ∈ connections :=
    (named_eq_some_iff names).trans (and_iff_left rfl)
  rw [← inMemory, ← mirrored, Option.map_eq_some_iff, List.mem_map]
  refine exists_congr fun row => ?_
  rw [find_eq_some_iff wellFormed]
  constructor
  · rintro ⟨member, rfl⟩
    exact ⟨⟨member, rfl⟩, rfl⟩
  · rintro ⟨⟨member, -⟩, same⟩
    exact ⟨member, same⟩

namespace Table.WellFormed

theorem eq_of_id (wellFormed : table.WellFormed) {other : Row} (member : row ∈ table.rows)
    (member' : other ∈ table.rows) (same : row.id = other.id) : row = other :=
  List.inj_on_of_nodup_map wellFormed.ids member member' same

theorem set (wellFormed : table.WellFormed) (id : ℕ) (config : List (String × Json)) :
    (table.set id config).WellFormed where
  names := by
    have same : ((table.set id config).rows.map fun row => row.connection.name) =
        table.rows.map fun row => row.connection.name := by
      rw [Table.set, List.map_map]
      refine List.map_congr_left fun row _ => ?_
      by_cases isRow : row.id = id <;> simp [isRow]
    exact same ▸ wellFormed.names
  ids := by
    have same : (table.set id config).rows.map Row.id = table.rows.map Row.id := by
      rw [Table.set, List.map_map]
      refine List.map_congr_left fun row _ => ?_
      by_cases isRow : row.id = id <;> simp [isRow]
    exact same ▸ wellFormed.ids
  fresh row member := by
    obtain ⟨source, there, rfl⟩ := List.mem_map.mp member
    have below := wellFormed.fresh source there
    split_ifs <;> exact below

theorem add (wellFormed : table.WellFormed) (missing : table.find connection.name = none) :
    (table.add connection).WellFormed where
  names := by
    have unnamed : connection.name ∉ table.rows.map fun row => row.connection.name :=
      find_key_eq_none.mp missing
    rw [Table.add, List.map_append, List.nodup_append]
    refine ⟨wellFormed.names, List.nodup_singleton _, ?_⟩
    rintro name member other isNew rfl
    rw [List.mem_singleton.mp isNew] at member
    exact unnamed member
  ids := by
    rw [Table.add, List.map_append, List.nodup_append]
    refine ⟨wellFormed.ids, List.nodup_singleton _, ?_⟩
    rintro id member other isNew rfl
    rw [List.mem_singleton.mp isNew] at member
    obtain ⟨row, there, same⟩ := List.mem_map.mp member
    exact absurd same (wellFormed.fresh row there).ne
  fresh row member := by
    obtain there | isNew := List.mem_append.mp member
    · exact Nat.lt_succ_of_lt (wellFormed.fresh row there)
    · rw [List.mem_singleton.mp isNew]
      exact Nat.lt_succ_self _

theorem delete (wellFormed : table.WellFormed) (id : ℕ) : (table.delete id).WellFormed where
  names := (List.filter_sublist.map _).nodup wellFormed.names
  ids := (List.filter_sublist.map _).nodup wellFormed.ids
  fresh row member := wellFormed.fresh row (List.mem_of_mem_filter member)

theorem find_set_of_ne (wellFormed : table.WellFormed) {config : List (String × Json)}
    (found : table.find name = some row) {other : String} (apart : other ≠ name) :
    (table.set row.id config).find other = table.find other := by
  obtain ⟨there, isNamed⟩ := (find_eq_some_iff wellFormed).mp found
  refine find_key_congr
    (wellFormed.set row.id config).names wellFormed.names fun kept isOther => ?_
  rw [Table.set, List.mem_map]
  constructor
  · rintro ⟨source, member, rfl⟩
    split_ifs at isOther ⊢ with isRow
    · rw [wellFormed.eq_of_id member there isRow] at isOther
      exact absurd (isOther.symm.trans isNamed) apart
    · exact member
  · intro member
    refine ⟨kept, member, if_neg fun isRow => ?_⟩
    rw [wellFormed.eq_of_id member there isRow] at isOther
    exact apart (isOther.symm.trans isNamed)

theorem find_set_self (wellFormed : table.WellFormed) {config : List (String × Json)}
    (found : table.find name = some row) :
    (table.set row.id config).find name = some ⟨row.id, name, config⟩ := by
  obtain ⟨there, isNamed⟩ := (find_eq_some_iff wellFormed).mp found
  rw [find_eq_some_iff (wellFormed.set row.id config), Table.set, List.mem_map]
  refine ⟨⟨row, there, ?_⟩, rfl⟩
  rw [if_pos rfl, ← isNamed]

theorem find_add_of_ne (wellFormed : table.WellFormed)
    (missing : table.find connection.name = none) (apart : name ≠ connection.name) :
    (table.add connection).find name = table.find name := by
  refine find_key_congr
    (wellFormed.add missing).names wellFormed.names fun row isNamed => ?_
  rw [Table.add, List.mem_append, List.mem_singleton]
  refine or_iff_left ?_
  rintro rfl
  exact apart isNamed.symm

theorem find_add_self (wellFormed : table.WellFormed)
    (missing : table.find connection.name = none) :
    (table.add connection).find connection.name = some ⟨table.nextId, connection⟩ := by
  rw [find_eq_some_iff (wellFormed.add missing), Table.add]
  simp

theorem find_delete_of_ne (wellFormed : table.WellFormed) (found : table.find name = some row)
    {other : String} (apart : other ≠ name) : (table.delete row.id).find other = table.find other := by
  obtain ⟨there, isNamed⟩ := (find_eq_some_iff wellFormed).mp found
  refine find_key_congr
    (wellFormed.delete row.id).names wellFormed.names fun kept isOther => ?_
  rw [Table.delete, List.mem_filter]
  refine and_iff_left_of_imp fun member => ?_
  rw [bne_iff_ne]
  intro isRow
  rw [wellFormed.eq_of_id member there isRow] at isOther
  exact apart (isOther.symm.trans isNamed)

theorem find_delete_self (wellFormed : table.WellFormed) (found : table.find name = some row) :
    (table.delete row.id).find name = none := by
  obtain ⟨there, isNamed⟩ := (find_eq_some_iff wellFormed).mp found
  rw [Option.eq_none_iff_forall_ne_some]
  intro kept foundStill
  obtain ⟨member, isKept⟩ := (find_eq_some_iff (wellFormed.delete row.id)).mp foundStill
  rw [Table.delete, List.mem_filter, bne_iff_ne] at member
  refine member.2 (congrArg Row.id ?_)
  exact List.inj_on_of_nodup_map wellFormed.names member.1 there (isKept.trans isNamed.symm)

end Table.WellFormed

end MalloyPublisher.Connections
