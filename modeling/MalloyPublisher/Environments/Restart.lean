import MalloyPublisher.Environments.Registrations

/-!
# A restart restores what was in force

While each list of connections an operation carries is whole, the rows are what is in memory after
every operation, and a restart builds the same environment. It has the destinations of the server's
configuration where it had none. After a boot that could not read them, the rows of destinations
stay until an operation carries a list without them.

## Main definitions

* `Usable` — destinations that a restart takes as they are
* `Registered` — an environment whose rows are what is in memory
* `Operation.isWhole` — an operation that leaves no connection out

## Main results

* `Registered.sync` — the sync brings the rows after what is in memory
* `restart_restores` — a restart restores what was in force
* `clearedDestination_returns` — a destination that was removed and is back after a restart
-/

namespace MalloyPublisher.Environments

open Connections Foundations

variable {accepts usable : Connection → Bool} {live : Live} {stored : Stored}

/-! ## Destinations that are validated -/

theorem body_body (destination : Connection) : body (body destination) = body destination := by
  simp [body, withoutField]

/-- Destinations of distinct names that can be used, in the form in which they are kept. -/
structure Usable (usable : Connection → Bool) (destinations : List Connection) : Prop where
  names : (destinations.map Connection.name).Nodup
  each : ∀ destination ∈ destinations, usable destination = true ∧ body destination = destination

theorem Usable.perm {destinations others : List Connection} (sound : Usable usable destinations)
    (perm : destinations.Perm others) : Usable usable others where
  names := (perm.map _).nodup_iff.mp sound.names
  each destination member := sound.each destination (perm.mem_iff.mpr member)

theorem unseen_of_validated (seen : List String) (requested : Requested) :
    ∀ destination ∈ (validateStorageDestinations usable seen requested).1,
      destination.name ∉ seen := by
  induction requested generalizing seen with
  | nil => simp [validateStorageDestinations]
  | cons entry rest ih =>
    cases entry with
    | none => exact ih seen
    | some first =>
      rw [validateStorageDestinations]
      split_ifs with good
      · rintro destination member
        obtain rfl | later := List.mem_cons.mp member
        · exact good.2
        · exact fun there => ih _ destination later (List.mem_cons_of_mem _ there)
      · exact ih seen

theorem usable_validated (seen : List String) (requested : Requested) :
    Usable usable (validateStorageDestinations usable seen requested).1 := by
  induction requested generalizing seen with
  | nil => exact ⟨List.nodup_nil, by simp [validateStorageDestinations]⟩
  | cons entry rest ih =>
    cases entry with
    | none => exact ih seen
    | some first =>
      rw [validateStorageDestinations]
      split_ifs with good
      · have later := ih (first.name :: seen)
        constructor
        · refine List.nodup_cons.mpr ⟨fun member => ?_, later.names⟩
          obtain ⟨other, listed, same⟩ := List.mem_map.mp member
          refine unseen_of_validated _ _ other listed ?_
          rw [same]
          exact List.mem_cons_self
        · rintro destination member
          obtain rfl | other := List.mem_cons.mp member
          · exact ⟨good.1, body_body first⟩
          · exact later.each destination other
      · exact ih seen

/-- What is usable is taken as it is. -/
theorem validated_of_usable {destinations : List Connection} {seen : List String}
    (sound : Usable usable destinations)
    (fresh : ∀ destination ∈ destinations, destination.name ∉ seen) :
    validateStorageDestinations usable seen (destinations.map some) = (destinations, false) := by
  induction destinations generalizing seen with
  | nil => rfl
  | cons first rest ih =>
    obtain ⟨isUsable, isBody⟩ := sound.each first List.mem_cons_self
    have names := List.nodup_cons.mp sound.names
    have later : Usable usable rest :=
      ⟨names.2, fun destination member => sound.each _ (List.mem_cons_of_mem _ member)⟩
    have good : usable (body first) ∧ first.name ∉ seen :=
      ⟨isBody.symm ▸ isUsable, fresh first List.mem_cons_self⟩
    rw [List.map_cons, validateStorageDestinations, if_pos good, ih later, isBody]
    intro destination member there
    obtain same | known := List.mem_cons.mp there
    · exact names.1 (same ▸ List.mem_map_of_mem member)
    · exact fresh destination (List.mem_cons_of_mem _ member) known

/-- Where none is rejected, each that is listed is there. -/
theorem mem_validated {seen : List String} {requested : Requested} {destination : Connection}
    (accepted : (validateStorageDestinations usable seen requested).2 = false)
    (listed : some destination ∈ requested) :
    destination.name ∈
      (validateStorageDestinations usable seen requested).1.map Connection.name := by
  induction requested generalizing seen with
  | nil => cases listed
  | cons entry rest ih =>
    cases entry with
    | none => cases accepted
    | some first =>
      rw [validateStorageDestinations] at accepted ⊢
      split_ifs at accepted ⊢ with good
      rw [List.map_cons, List.mem_cons]
      obtain same | later := List.mem_cons.mp listed
      · left
        rw [Option.some.inj same]
        rfl
      · exact .inr (ih accepted later)

/-! ## The rows -/

/-- An environment whose rows are what is in memory. -/
structure Registered (accepts usable : Connection → Bool) (live : Live) (stored : Stored) :
    Prop where
  names : (live.connections.map Connection.name).Nodup
  accepted : ∀ connection ∈ live.connections, accepts connection = true
  table : stored.table.WellFormed
  mirrored : ∀ name, (stored.table.find name).map Row.connection = named live.connections name
  destinations : Usable usable live.destinations
  authoritative : live.destinationsAuthoritative = true
  keys : (stored.destinations.map Prod.fst).Nodup
  rows : ∀ name config,
    (name, config) ∈ stored.destinations ↔ ⟨name, config⟩ ∈ live.destinations

theorem find_storeConnection {table : Table} (wellFormed : table.WellFormed)
    (connection : Connection) : (storeConnection table connection).WellFormed ∧
      ∀ name, ((storeConnection table connection).find name).map Row.connection =
        if name = connection.name then some connection
        else (table.find name).map Row.connection := by
  unfold storeConnection
  cases found : table.find connection.name with
  | none =>
    refine ⟨wellFormed.add found, fun name => ?_⟩
    split_ifs with same
    · rw [same, wellFormed.find_add_self found]
      rfl
    · rw [wellFormed.find_add_of_ne found same]
  | some row =>
    refine ⟨wellFormed.set _ _, fun name => ?_⟩
    split_ifs with same
    · rw [same, wellFormed.find_set_self found]
      rfl
    · rw [wellFormed.find_set_of_ne found same]

/-- After the sync a connection's row is what is in memory, or what it was. -/
theorem find_addConnections {table : Table} (wellFormed : table.WellFormed)
    {connections : List Connection} (names : (connections.map Connection.name).Nodup) :
    (addConnections table connections).WellFormed ∧
      ∀ name, ((addConnections table connections).find name).map Row.connection =
        (named connections name).or ((table.find name).map Row.connection) := by
  induction connections generalizing table with
  | nil => exact ⟨wellFormed, fun name => rfl⟩
  | cons first rest ih =>
    obtain ⟨apart, names⟩ := List.nodup_cons.mp names
    obtain ⟨wellFormed', found⟩ := find_storeConnection wellFormed first
    obtain ⟨wellFormed'', found'⟩ := ih wellFormed' names
    refine ⟨wellFormed'', fun name => (found' name).trans ?_⟩
    rw [found]
    by_cases same : name = first.name
    · subst same
      have missing : named rest first.name = none := named_eq_none_iff.mpr apart
      have own : named (first :: rest) first.name = some first := by simp [named]
      rw [if_pos rfl, missing, own]
      rfl
    · have later : named (first :: rest) name = named rest name := by
        simp [named, Ne.symm same]
      rw [if_neg same, later]

/-- The sync of destinations leaves the rows of those in memory. -/
theorem mem_syncStorageDestinations {rows : List (String × List (String × Json))}
    (keys : (rows.map Prod.fst).Nodup) (sound : Usable usable live.destinations)
    (authoritative : live.destinationsAuthoritative = true) (name : String)
    (config : List (String × Json)) :
    (name, config) ∈ syncStorageDestinations live rows ↔ ⟨name, config⟩ ∈ live.destinations := by
  have writes : ((live.destinations.map fun destination =>
      (destination.name, destination.config)).map Prod.fst).Nodup := by
    rw [List.map_map]
    exact sound.names
  have written : ∀ value, (name, value) ∈ (live.destinations.map fun destination =>
      (destination.name, destination.config)) ↔ ⟨name, value⟩ ∈ live.destinations := by
    intro value
    rw [List.mem_map]
    constructor
    · rintro ⟨destination, member, same⟩
      rw [← (Prod.mk.inj same).1, ← (Prod.mk.inj same).2]
      exact member
    · exact fun member => ⟨_, member, rfl⟩
  rw [syncStorageDestinations]
  simp only [authoritative, if_true]
  rw [List.mem_filter, mem_writeAll keys]
  constructor
  · rintro ⟨last | ⟨unwritten, -⟩, listed⟩
    · exact (written config).mp (mem_of_lastWrite last)
    · obtain ⟨destination, member, same⟩ := List.any_eq_true.mp listed
      have isWritten : (name, destination.config) ∈ live.destinations.map fun destination =>
          (destination.name, destination.config) :=
        List.mem_map.mpr ⟨destination, member, by rw [eq_of_beq same]⟩
      obtain ⟨last, isLast⟩ := exists_lastWrite isWritten
      rw [unwritten] at isLast
      cases isLast
  · intro member
    have isWritten := (written config).mpr member
    obtain ⟨last, isLast⟩ := exists_lastWrite isWritten
    have same := List.inj_on_of_nodup_map writes (mem_of_lastWrite isLast) isWritten rfl
    refine ⟨.inl ?_, List.any_eq_true.mpr ⟨_, member, beq_self_eq_true _⟩⟩
    rw [isLast, (Prod.mk.inj same).2]

theorem nodup_syncStorageDestinations {rows : List (String × List (String × Json))}
    (keys : (rows.map Prod.fst).Nodup) :
    ((syncStorageDestinations live rows).map Prod.fst).Nodup := by
  rw [syncStorageDestinations]
  dsimp only
  split_ifs
  · exact (List.filter_sublist.map _).nodup (nodup_writeAll keys)
  · exact nodup_writeAll keys

/-- The sync brings the rows after what is in memory, where no row is of another connection. -/
theorem Registered.sync (names : (live.connections.map Connection.name).Nodup)
    (accepted : ∀ connection ∈ live.connections, accepts connection = true)
    (destinations : Usable usable live.destinations)
    (authoritative : live.destinationsAuthoritative = true) (table : stored.table.WellFormed)
    (known : ∀ name, named live.connections name = none → stored.table.find name = none)
    (keys : (stored.destinations.map Prod.fst).Nodup) :
    Registered accepts usable live (addEnvironmentToDatabase live stored) where
  names := names
  accepted := accepted
  table := (find_addConnections table names).1
  mirrored name := by
    refine ((find_addConnections table names).2 name).trans ?_
    cases inMemory : named live.connections name with
    | none => rw [known name inMemory]; rfl
    | some connection => rfl
  destinations := destinations
  authoritative := authoritative
  keys := nodup_syncStorageDestinations keys
  rows := mem_syncStorageDestinations keys destinations authoritative

/-! ## Operations -/

/-- An operation leaves no connection out: a list it carries names each that is there, and one that
is refused carries no destinations. -/
def Payload.isWhole (accepts : Connection → Bool) (live : Live) (payload : Payload) : Bool :=
  payload.connections.all fun incoming =>
    (live.connections.all fun connection =>
      incoming.any fun other => other.name == connection.name) &&
    (payload.storageDestinations.isNone ||
      (assembleEnvironmentConnections accepts
        (mergedConnections live.connections incoming)).isSome)

def Operation.isWhole (accepts : Connection → Bool) (server : Server) (operation : Operation) :
    Bool :=
  server.live.all fun live => match operation with
    | .addEnvironment payload | .updateEnvironment payload => payload.isWhole accepts live
    | .getEnvironment declared => (reloadPayload declared).isWhole accepts live
    | _ => true

/-- Operations one after the other, each of them whole. -/
def Server.runWhole (accepts usable : Connection → Bool) (server : Server)
    (operations : List Operation) : Option Server :=
  operations.foldlM (fun server operation =>
    if operation.isWhole accepts server then some (server.serve accepts usable operation)
    else none) server

/-- An environment that there is has its rows, and there are none of one that there is not. -/
def Server.Consistent (accepts usable : Connection → Bool) (server : Server) : Prop :=
  match server.live with
  | none => server.stored = {}
  | some live => Registered accepts usable live server.stored

theorem accepted_setStorageDestinations {requested : Requested} {updated : Live}
    (set : live.setStorageDestinations usable requested = some updated) :
    Usable usable updated.destinations ∧ updated.destinationsAuthoritative = true ∧
      updated.connections = live.connections := by
  rw [Live.setStorageDestinations, Option.map_eq_some_iff] at set
  obtain ⟨destinations, processed, rfl⟩ := set
  rw [processStorageDestinationsOrThrow] at processed
  split_ifs at processed
  exact ⟨Option.some.inj processed ▸ usable_validated _ _, rfl, rfl⟩

/-- A whole update leaves the rows as what is in memory. -/
theorem Registered.update (registered : Registered accepts usable live stored) {payload : Payload}
    (whole : payload.isWhole accepts live = true) :
    Server.Consistent accepts usable
      (Server.update accepts usable { live := some live, stored := stored } live payload) := by
  have known : ∀ name, named live.connections name = none → stored.table.find name = none := by
    intro name missing
    have mirrored := registered.mirrored name
    rw [missing, Option.map_eq_none_iff] at mirrored
    exact mirrored
  -- the destinations that are accepted, or those that are there
  have updates : ∀ updated,
      payload.storageDestinations.elim (some live) (live.setStorageDestinations usable) =
        some updated →
      Usable usable updated.destinations ∧ updated.destinationsAuthoritative = true ∧
        updated.connections = live.connections := by
    intro updated set
    cases requested : payload.storageDestinations with
    | none =>
      rw [requested] at set
      rw [← Option.some.inj set]
      exact ⟨registered.destinations, registered.authoritative, rfl⟩
    | some list =>
      rw [requested] at set
      exact accepted_setStorageDestinations set
  rw [Server.update, Live.update]
  cases set : payload.storageDestinations.elim (some live) (live.setStorageDestinations usable) with
  | none => exact registered
  | some updated =>
    obtain ⟨sound, authoritative, same⟩ := updates updated set
    cases incoming : payload.connections with
    | none =>
      exact .sync (same ▸ registered.names) (same ▸ registered.accepted) sound authoritative
        registered.table (same ▸ known) registered.keys
    | some list =>
      simp only [Payload.isWhole, incoming, Option.all_some, Bool.and_eq_true] at whole
      cases assembled : assembleEnvironmentConnections accepts
          (mergedConnections updated.connections list) with
      | none =>
        rw [same] at assembled
        simp only [assembled, Option.isSome_none, Bool.or_false,
          Option.isNone_iff_eq_none] at whole
        rw [whole.2] at set
        rw [← Option.some.inj set] at *
        simp only [assembled]
        exact registered
      | some next =>
        simp only [assembled]
        refine .sync (nodup_assemble assembled) (accepts_of_assemble assembled) sound authoritative
          registered.table (fun name missing => known name ?_) registered.keys
        have names : name ∈ _ ↔ _ := mem_names_updateEnvironment assembled
        change named next name = none at missing
        rw [named_eq_none_iff] at missing ⊢
        intro there
        obtain ⟨connection, member, rfl⟩ := List.mem_map.mp there
        obtain ⟨other, listed, isNamed⟩ :=
          List.any_eq_true.mp (List.all_eq_true.mp whole.1 connection member)
        exact missing (names.mpr (List.mem_map.mpr ⟨other, listed, eq_of_beq isNamed⟩))

/-- A new environment has its rows. -/
theorem Registered.create {connections : List Connection} {requested : Requested}
    (created : Live.create accepts usable connections requested = some live) :
    Registered accepts usable live (addEnvironmentToDatabase live {}) := by
  rw [Live.create, Option.map_eq_some_iff] at created
  obtain ⟨assembled, isAssembled, rfl⟩ := created
  exact .sync (nodup_assemble isAssembled) (accepts_of_assemble isAssembled)
    (usable_validated _ _) rfl ⟨List.nodup_nil, List.nodup_nil, by simp⟩ (fun _ _ => rfl)
    List.nodup_nil

/-- A call on one connection that changes its row as it changes the list. -/
theorem Registered.change (registered : Registered accepts usable live stored)
    {call : Connections.Call} {target : String} {next : List Connection} {table : Table}
    (served : Connections.serve accepts live.connections call = some next)
    (isTarget : call.target = some target)
    (accepted : ∀ connection ∈ next, accepts connection = true) (wellFormed : table.WellFormed)
    (same : ∀ other, other ≠ target → table.find other = stored.table.find other)
    (written : (table.find target).map Row.connection = named next target) :
    Registered accepts usable { live with connections := next } { stored with table := table } where
  names := nodup_serve served
  accepted := accepted
  table := wellFormed
  mirrored name := by
    by_cases isIt : name = target
    · exact isIt ▸ written
    · rw [named_serve_of_ne registered.names served isTarget isIt, ← registered.mirrored name]
      exact congrArg _ (same name isIt)
  destinations := registered.destinations
  authoritative := registered.authoritative
  keys := registered.keys
  rows := registered.rows

theorem Registered.row (registered : Registered accepts usable live stored) {name : String}
    {row : Row} (found : stored.table.find name = some row) :
    named live.connections name = some row.connection := by
  rw [← registered.mirrored, found]
  rfl

theorem Registered.missing (registered : Registered accepts usable live stored) {name : String}
    (missing : ¬ (stored.table.find name).isSome = true) : named live.connections name = none := by
  rw [← registered.mirrored, Option.not_isSome_iff_eq_none.mp missing]
  rfl

theorem Server.Consistent.addConnection {server : Server}
    (registered : Registered accepts usable live server.stored) (isLive : server.live = some live)
    (name : String) (connection : Connection) :
    (server.serve accepts usable (.addConnection name connection)).Consistent accepts usable := by
  have unchanged : server.Consistent accepts usable := by
    rw [Server.Consistent, isLive]
    exact registered
  simp only [Server.serve, isLive]
  cases assembled : assembleEnvironmentConnections accepts (live.connections ++ [connection]) with
  | none => split_ifs <;> exact unchanged
  | some next =>
    rw [Option.bind_some]
    split_ifs with known there
    · exact unchanged
    · exact unchanged
    have missing := registered.missing there
    have served : Connections.serve accepts live.connections (.addConnection name connection) =
        some next := by
      simpa [Connections.serve, registered.missing known, missing] using assembled
    have absent := Option.not_isSome_iff_eq_none.mp there
    refine registered.change served rfl (accepts_of_assemble assembled)
      (registered.table.add absent)
      (fun other apart => registered.table.find_add_of_ne absent apart) ?_
    rw [registered.table.find_add_self absent]
    exact (named_add registered.names served).symm

theorem Server.Consistent.updateConnection {server : Server}
    (registered : Registered accepts usable live server.stored) (isLive : server.live = some live)
    (name : String) (patch : List (String × Json)) :
    (server.serve accepts usable (.updateConnection name patch)).Consistent accepts usable := by
  have unchanged : server.Consistent accepts usable := by
    rw [Server.Consistent, isLive]
    exact registered
  simp only [Server.serve, isLive]
  cases found : server.stored.table.find name with
  | none => exact unchanged
  | some row =>
    rw [Option.bind_some]
    cases assembled : assembleEnvironmentConnections accepts
        (replaced live.connections (row.connection.patched patch)) with
    | none => exact unchanged
    | some next =>
      have inMemory := registered.row found
      have isNamed := name_of_named inMemory
      have served : Connections.serve accepts live.connections (.updateConnection name patch) =
          some next := by
        rw [Connections.serve, inMemory]
        exact assembled
      refine registered.change served rfl (accepts_of_assemble assembled)
        (registered.table.set row.id _)
        (fun other apart => registered.table.find_set_of_ne found apart) ?_
      rw [registered.table.find_set_self found, named_update registered.names inMemory served,
        ← isNamed]
      rfl

theorem Server.Consistent.deleteConnection {server : Server}
    (registered : Registered accepts usable live server.stored) (isLive : server.live = some live)
    (name : String) :
    (server.serve accepts usable (.deleteConnection name)).Consistent accepts usable := by
  have unchanged : server.Consistent accepts usable := by
    rw [Server.Consistent, isLive]
    exact registered
  simp only [Server.serve, isLive]
  cases found : server.stored.table.find name with
  | none => exact unchanged
  | some row =>
    rw [Option.bind_some, registered.row found, Option.bind_some]
    cases assembled : assembleEnvironmentConnections accepts
        (withoutConnection live.connections name) with
    | none => exact unchanged
    | some next =>
      have served : Connections.serve accepts live.connections (.deleteConnection name) = some next := by
        rw [Connections.serve, registered.row found]
        exact assembled
      refine registered.change served rfl (accepts_of_assemble assembled)
        (registered.table.delete row.id)
        (fun other apart => registered.table.find_delete_of_ne found apart) ?_
      rw [registered.table.find_delete_self found, named_delete registered.names served]
      rfl

/-- A whole operation leaves an environment and its rows consistent. -/
theorem Server.Consistent.step {server : Server} (consistent : server.Consistent accepts usable)
    {operation : Operation} (whole : operation.isWhole accepts server = true) :
    (server.serve accepts usable operation).Consistent accepts usable := by
  obtain ⟨isLive, stored⟩ := server
  cases isLive with
  | none =>
    have isEmpty : stored = {} := consistent
    subst isEmpty
    -- there is no environment, and it is created or the operation fails
    have creates : ∀ payload, (Server.addEnvironment accepts usable { live := none } payload).Consistent
        accepts usable := by
      intro payload
      rw [Server.addEnvironment]
      dsimp only
      cases created : Live.create accepts usable (payload.connections.getD [])
          (payload.storageDestinations.getD []) with
      | none => exact consistent
      | some live => exact Registered.create created
    cases operation with
    | addEnvironment payload => exact creates payload
    | getEnvironment declared =>
      rw [Server.serve]
      split_ifs
      · exact consistent
      · exact creates _
    | _ => exact consistent
  | some live =>
    have registered : Registered accepts usable live stored := consistent
    cases operation with
    | addEnvironment payload => exact registered.update whole
    | updateEnvironment payload => exact registered.update whole
    | getEnvironment declared =>
      rw [Server.serve, if_neg (by simp)]
      exact registered.update whole
    | addConnection name connection => exact .addConnection registered rfl name connection
    | updateConnection name patch => exact .updateConnection registered rfl name patch
    | deleteConnection name => exact .deleteConnection registered rfl name

theorem Server.Consistent.run {operations : List Operation} {server after : Server}
    (consistent : server.Consistent accepts usable)
    (ran : server.runWhole accepts usable operations = some after) :
    after.Consistent accepts usable := by
  induction operations generalizing server with
  | nil => exact Option.some.inj ran ▸ consistent
  | cons operation operations ih =>
    rw [Server.runWhole, List.foldlM_cons, Option.bind_eq_bind, Option.bind_eq_some_iff] at ran
    obtain ⟨between, served, ran⟩ := ran
    split_ifs at served with whole
    exact ih (Option.some.inj served ▸ consistent.step whole) ran

/-! ## A restart -/

/-- A restart builds an environment's connections and destinations, and takes what is declared for
the destinations where there are none. -/
theorem Registered.restore (registered : Registered accepts usable live stored)
    (declared : Option Declared) : ∃ restored,
      restore accepts usable stored declared false = some restored ∧
        restored.connections.Perm live.connections ∧
        restored.destinations.Perm (if live.destinations = [] then
          processStorageDestinations usable ((declared.map (·.storageDestinations)).getD [])
          else live.destinations) := by
  have perm := perm_of_mirrored registered.table registered.names registered.mirrored
  have names : ((stored.table.rows.map Row.connection).map Connection.name).Nodup :=
    (perm.map _).nodup_iff.mpr registered.names
  have assembled : assembleEnvironmentConnections accepts
      (stored.table.rows.map Row.connection) = some (stored.table.rows.map Row.connection) := by
    rw [assembleEnvironmentConnections, firstByName_of_nodup names (by simp), if_pos]
    exact List.all_eq_true.mpr fun connection member =>
      registered.accepted connection (perm.subset member)
  -- the rows of the destinations are those in memory
  have rows : stored.destinations.Perm (live.destinations.map fun destination =>
      (destination.name, destination.config)) := by
    have writes : ((live.destinations.map fun destination =>
        (destination.name, destination.config)).map Prod.fst).Nodup := by
      rw [List.map_map]
      exact registered.destinations.names
    refine (List.perm_ext_iff_of_nodup (registered.keys.of_map _) (writes.of_map _)).mpr ?_
    rintro ⟨name, config⟩
    rw [registered.rows, List.mem_map]
    constructor
    · exact fun member => ⟨_, member, rfl⟩
    · rintro ⟨destination, member, same⟩
      rw [← (Prod.mk.inj same).1, ← (Prod.mk.inj same).2]
      exact member
  have stands : (stored.destinations.map fun row => (⟨row.1, row.2⟩ : Connection)).Perm
      live.destinations := by
    refine (rows.map _).trans (List.Perm.of_eq ?_)
    rw [List.map_map]
    exact List.map_id _
  simp only [Environments.restore, Live.create, assembled, Option.map_some, Bool.false_eq_true,
    false_or]
  refine ⟨_, rfl, perm, ?_⟩
  by_cases empty : live.destinations = []
  · have noRows : stored.destinations = [] := by
      rw [empty] at rows
      exact List.Perm.eq_nil rows
    rw [if_pos empty, noRows]
    exact List.Perm.refl _
  · have someRows : stored.destinations.isEmpty = false := by
      rw [List.isEmpty_eq_false_iff]
      rintro noRows
      rw [noRows] at stands
      exact empty (List.Perm.nil_eq stands).symm
    have kept := validated_of_usable (registered.destinations.perm stands.symm)
      fun _ _ => List.not_mem_nil
    rw [List.map_map] at kept
    have isKept : processStorageDestinations usable (stored.destinations.map fun row =>
        some ⟨row.1, row.2⟩) = stored.destinations.map fun row => ⟨row.1, row.2⟩ :=
      congrArg Prod.fst kept
    simp only [someRows, Bool.false_eq_true, if_false, if_neg empty, isKept]
    exact stands

/-! ## What nobody asked to remove -/

/-- No list of destinations, or one that names it. -/
def Payload.keeps (payload : Payload) (name : String) : Bool :=
  payload.storageDestinations.all fun requested =>
    requested.any fun entry => entry.any fun destination => destination.name == name

/-- An operation carries no list of destinations, or one that names it. -/
def Operation.keeps (operation : Operation) (name : String) : Bool :=
  match operation with
  | .addEnvironment payload | .updateEnvironment payload => payload.keeps name
  | .getEnvironment declared => (reloadPayload declared).keeps name
  | _ => true

/-- A destination has its row, and is in memory if the rows are to be reconciled. -/
structure Server.Keeps (server : Server) (name : String) : Prop where
  stored : name ∈ server.stored.destinations.map Prod.fst
  isLive : server.live.isSome = true
  listed : ∀ live, server.live = some live → live.destinationsAuthoritative = true →
    name ∈ live.destinations.map Connection.name

theorem mem_keys_writeAll {record writes : List (String × List (String × Json))} {name : String}
    (member : name ∈ record.map Prod.fst) : name ∈ (writeAll record writes).map Prod.fst := by
  induction writes generalizing record with
  | nil => exact member
  | cons first rest ih => exact ih (mem_keys_setKey.mpr (.inr member))

theorem mem_keys_sync {rows : List (String × List (String × Json))} {name : String}
    (member : name ∈ rows.map Prod.fst)
    (listed : live.destinationsAuthoritative = true →
      name ∈ live.destinations.map Connection.name) :
    name ∈ (syncStorageDestinations live rows).map Prod.fst := by
  have upserted : name ∈ (writeAll rows (live.destinations.map fun destination =>
      (destination.name, destination.config))).map Prod.fst := mem_keys_writeAll member
  rw [syncStorageDestinations]
  dsimp only
  split_ifs with authoritative
  · obtain ⟨row, there, rfl⟩ := List.mem_map.mp upserted
    obtain ⟨destination, inMemory, same⟩ := List.mem_map.mp (listed authoritative)
    refine List.mem_map.mpr ⟨row, List.mem_filter.mpr ⟨there, ?_⟩, rfl⟩
    exact List.any_eq_true.mpr ⟨destination, inMemory, beq_iff_eq.mpr same⟩
  · exact upserted

theorem name_resolved (destinations : List Connection) (destination : Connection) :
    (resolveDestinationReference destinations destination).name = destination.name := by
  unfold resolveDestinationReference
  split_ifs
  · cases found : named destinations destination.name with
    | none => rfl
    | some stored => exact name_of_named found
  · rfl

/-- A list that names a destination keeps it, where it is accepted. -/
theorem mem_setStorageDestinations {requested : Requested} {updated : Live} {name : String}
    (set : live.setStorageDestinations usable requested = some updated)
    (names : (requested.any fun entry => entry.any fun destination =>
      destination.name == name) = true) : name ∈ updated.destinations.map Connection.name := by
  rw [Live.setStorageDestinations, Option.map_eq_some_iff] at set
  obtain ⟨destinations, processed, rfl⟩ := set
  rw [processStorageDestinationsOrThrow] at processed
  split_ifs at processed with rejected
  obtain ⟨entry, listed, isNamed⟩ := List.any_eq_true.mp names
  cases entry with
  | none => cases isNamed
  | some destination =>
    have resolved := mem_validated (eq_false_of_ne_true rejected)
      (List.mem_map.mpr ⟨some destination, listed, rfl⟩)
    rw [name_resolved, eq_of_beq isNamed, Option.some.inj processed] at resolved
    exact resolved

theorem Server.Keeps.update {server : Server} {name : String} (keeps : server.Keeps name)
    (isLive : server.live = some live) {payload : Payload} (asked : payload.keeps name = true) :
    (server.update accepts usable live payload).Keeps name := by
  have listed := keeps.listed live isLive
  have stays : ∀ updated,
      payload.storageDestinations.elim (some live) (live.setStorageDestinations usable) =
        some updated →
      updated.destinationsAuthoritative = true →
        name ∈ updated.destinations.map Connection.name := by
    intro updated set
    cases requested : payload.storageDestinations with
    | none =>
      rw [requested] at set
      exact Option.some.inj set ▸ listed
    | some list =>
      rw [requested] at set
      rw [Payload.keeps, requested] at asked
      exact fun _ => mem_setStorageDestinations set asked
  rw [Server.update, Live.update]
  cases set : payload.storageDestinations.elim (some live) (live.setStorageDestinations usable) with
  | none => exact ⟨keeps.stored, rfl, fun _ same => Option.some.inj same ▸ listed⟩
  | some updated =>
    have inMemory := stays updated set
    cases incoming : payload.connections with
    | none =>
      exact ⟨mem_keys_sync keeps.stored inMemory, rfl, fun _ same => Option.some.inj same ▸ inMemory⟩
    | some list =>
      simp only
      cases assembled : assembleEnvironmentConnections accepts
          (mergedConnections updated.connections list) with
      | none => exact ⟨keeps.stored, rfl, fun _ same => Option.some.inj same ▸ inMemory⟩
      | some next =>
        exact ⟨mem_keys_sync keeps.stored inMemory, rfl,
          fun _ same => Option.some.inj same ▸ inMemory⟩

theorem Server.Keeps.change {server : Server} {name : String} (keeps : server.Keeps name)
    (isLive : server.live = some live) (changed : Option (List Connection × Table)) :
    (server.change live changed).Keeps name := by
  cases changed with
  | none => exact keeps
  | some changed =>
    exact ⟨keeps.stored, rfl, fun _ same => Option.some.inj same ▸ keeps.listed live isLive⟩

theorem Server.Keeps.step {server : Server} {name : String} (keeps : server.Keeps name)
    {operation : Operation} (asked : operation.keeps name = true) :
    (server.serve accepts usable operation).Keeps name := by
  obtain ⟨live, isLive⟩ := Option.isSome_iff_exists.mp keeps.isLive
  cases operation with
  | addEnvironment payload =>
    rw [Server.serve, Server.addEnvironment, isLive]
    exact keeps.update isLive asked
  | updateEnvironment payload =>
    simp only [Server.serve, isLive]
    exact keeps.update isLive asked
  | getEnvironment declared =>
    rw [Server.serve, if_neg (by simp [isLive]), Server.addEnvironment, isLive]
    exact keeps.update isLive asked
  | addConnection | updateConnection | deleteConnection =>
    simp only [Server.serve, isLive]
    exact keeps.change isLive _

theorem Server.Keeps.run {operations : List Operation} {server : Server} {name : String}
    (keeps : server.Keeps name) (asked : ∀ operation ∈ operations, operation.keeps name = true) :
    (server.run accepts usable operations).Keeps name := by
  induction operations generalizing server with
  | nil => exact keeps
  | cons operation operations ih =>
    exact ih (keeps.step (asked operation List.mem_cons_self))
      fun other member => asked other (List.mem_cons_of_mem _ member)

/-- After operations that leave no connection out, a restart builds the connections and destinations
that were in force, and takes what is declared for the destinations where there were none. After a
boot that could not read the destinations, one that is stored stays until an operation carries a
list without it. -/
theorem restart_restores (accepts usable : Connection → Bool) :
    (∀ (operations : List Operation) (server : Server) (live : Live) (declared : Option Declared),
      Server.runWhole accepts usable {} operations = some server → server.live = some live →
      ∃ restored, restore accepts usable server.stored declared false = some restored ∧
        restored.connections.Perm live.connections ∧
        restored.destinations.Perm (if live.destinations = [] then
          processStorageDestinations usable ((declared.map (·.storageDestinations)).getD [])
          else live.destinations)) ∧
    ∀ (stored : Stored) (declared : Option Declared) (booted : Live)
      (operations : List Operation) (name : String),
      restore accepts usable stored declared true = some booted →
      name ∈ stored.destinations.map Prod.fst →
      (∀ operation ∈ operations, operation.keeps name = true) →
      name ∈ (Server.run accepts usable { live := some booted, stored := stored }
        operations).stored.destinations.map Prod.fst := by
  constructor
  · intro operations server live declared ran isLive
    have atStart : Server.Consistent accepts usable {} := rfl
    have consistent := atStart.run ran
    rw [Server.Consistent, isLive] at consistent
    exact Registered.restore consistent declared
  · intro stored declared booted operations name isBooted isStored asked
    have unread : booted.destinationsAuthoritative = false := by
      rw [restore, Option.map_eq_some_iff] at isBooted
      obtain ⟨created, -, rfl⟩ := isBooted
      rfl
    have keeps : Server.Keeps { live := some booted, stored := stored } name :=
      ⟨isStored, rfl, fun live same authoritative => by
        rw [← Option.some.inj same, unread] at authoritative
        cases authoritative⟩
    exact (keeps.run asked).stored

/-- A destination, and the connection of an environment. -/
def lake : Connection := ⟨"lake", [("type", .string "ducklake")]⟩

def orders : Connection := ⟨"orders", [("type", .string "postgres")]⟩

/-- An environment with both, of which the connection is updated. -/
def startup : List Operation :=
  [.addEnvironment { connections := some [orders], storageDestinations := some [some lake] },
    .updateConnection "orders" [("fingerprint", .string "f")]]

theorem restart_restores_startup :
    (∃ server live, Server.runWhole (fun _ => true) (fun _ => true) {} startup = some server ∧
      server.live = some live ∧ live.destinations = [lake] ∧
      ∃ restored, restore (fun _ => true) (fun _ => true) server.stored none false =
        some restored ∧ restored.connections.Perm live.connections ∧
        restored.destinations.Perm live.destinations) ∧
    "lake" ∈ (Server.run (fun _ => true) (fun _ => true)
      { live := some { connections := [], destinations := [], destinationsAuthoritative := false }
        stored := { destinations := [("lake", lake.config)] } }
      [.updateEnvironment { connections := some [orders] }]).stored.destinations.map Prod.fst := by
  constructor
  · have ran : (Server.runWhole (fun _ => true) (fun _ => true) {} startup).bind
        (fun server => server.live.map fun live => (server, live.destinations)) =
        (Server.runWhole (fun _ => true) (fun _ => true) {} startup).map
          fun server => (server, [lake]) := by decide +kernel
    have runs : (Server.runWhole (fun _ => true) (fun _ => true) {} startup).isSome = true := by
      decide +kernel
    obtain ⟨server, isServer⟩ := Option.isSome_iff_exists.mp runs
    rw [isServer, Option.bind_some, Option.map_some, Option.map_eq_some_iff] at ran
    obtain ⟨live, isLive, same⟩ := ran
    have destinations := (Prod.mk.inj same).2
    obtain ⟨restored, isRestored, connections, perm⟩ :=
      (restart_restores (fun _ => true) (fun _ => true)).1 startup server live none isServer isLive
    rw [if_neg (by simp [destinations])] at perm
    exact ⟨server, live, isServer, isLive, destinations, restored, isRestored, connections, perm⟩
  · exact (restart_restores (fun _ => true) (fun _ => true)).2 _ none _ _ "lake" (by decide +kernel)
      (by decide +kernel) (by decide +kernel)

/-- An update removes every destination, and the server's configuration declares the one that was
there. -/
theorem clearedDestination_returns : ¬ ∀ (accepts usable : Connection → Bool)
    (operations : List Operation) (live : Live) (declared : Option Declared),
    (Server.run accepts usable {} operations).live = some live →
    ∃ restored,
      restore accepts usable (Server.run accepts usable {} operations).stored declared false =
        some restored ∧ restored.connections.Perm live.connections ∧
        restored.destinations.Perm live.destinations := by
  intro restores
  obtain ⟨restored, isRestored, -, perm⟩ := restores (fun _ => true) (fun _ => true)
    [.addEnvironment { storageDestinations := some [some lake] },
      .updateEnvironment { storageDestinations := some [] }]
    { connections := [], destinations := [] } (some { storageDestinations := [some lake] })
    (by decide +kernel)
  have back : restore (fun _ => true) (fun _ => true)
      (Server.run (fun _ => true) (fun _ => true) {}
        [.addEnvironment { storageDestinations := some [some lake] },
          .updateEnvironment { storageDestinations := some [] }]).stored
      (some { storageDestinations := [some lake] }) false =
        some { connections := [], destinations := [lake] } := by decide +kernel
  rw [back] at isRestored
  rw [← Option.some.inj isRestored] at perm
  exact absurd perm.length_eq (by decide)

end MalloyPublisher.Environments
