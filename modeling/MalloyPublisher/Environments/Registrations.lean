import MalloyPublisher.Connections.ConnectionTable

/-!
# What an environment has registered, and what a restart restores

An environment has connections and storage destinations in memory, and rows for both in the
database. Operations on it change memory and then bring the rows after it. After a restart the
environment is built from its rows. The server's configuration stands in for destinations where
there is no row of one, or where the rows could not be read.

The operations come one after the other, and the database does what it is asked. A config is taken
here without its `resource` also, which a restart fills in where there is none. Which connections
assembling refuses is left open, and so is which destinations can be used.

## Main definitions

* `Live`, `Stored` — an environment in memory and in the database
* `Server.serve` — an operation
* `restore` — the environment a restart builds
-/

namespace MalloyPublisher.Environments

open Connections Foundations

/-! ## Storage destinations -/

/-- A list of destinations as it is requested. An entry that is no object with a name is nothing,
and so is a list that is not one, on its own. -/
abbrev Requested := List (Option Connection)

/-- A destination without the field that would address it. -/
def body (destination : Connection) : Connection :=
  { destination with config := withoutField "resource" destination.config }

/-- The destinations of a list that can be used, and whether one was rejected. -/
def validateStorageDestinations (usable : Connection → Bool) (seen : List String) :
    Requested → List Connection × Bool
  | [] => ([], false)
  | none :: rest => ((validateStorageDestinations usable seen rest).1, true)
  | some destination :: rest =>
    if usable (body destination) ∧ destination.name ∉ seen then
      let validated := validateStorageDestinations usable (destination.name :: seen) rest
      (body destination :: validated.1, validated.2)
    else ((validateStorageDestinations usable seen rest).1, true)

/-- Of a source that cannot be asked to fix it, the usable entries. -/
def processStorageDestinations (usable : Connection → Bool) (requested : Requested) :
    List Connection :=
  (validateStorageDestinations usable [] requested).1

/-- Of a request, all of them or none. -/
def processStorageDestinationsOrThrow (usable : Connection → Bool) (requested : Requested) :
    Option (List Connection) :=
  let validated := validateStorageDestinations usable [] requested
  if validated.2 then none else some validated.1

def DESTINATION_READ_FIELDS : List String := ["name", "type", "resource"]

/-- An entry that carries nothing but what a read reports stands for the destination of its name. -/
def resolveDestinationReference (destinations : List Connection) (destination : Connection) :
    Connection :=
  if destination.config.all fun (field, _) => DESTINATION_READ_FIELDS.contains field then
    (named destinations destination.name).getD destination
  else destination

/-! ## In memory -/

structure Live where
  connections : List Connection
  destinations : List Connection
  /-- The list of destinations is the one the rows are to be reconciled with. -/
  destinationsAuthoritative : Bool := true
deriving DecidableEq

/-- What an environment is created or updated with. -/
structure Payload where
  connections : Option (List Connection) := none
  storageDestinations : Option Requested := none
deriving DecidableEq

def Live.setStorageDestinations (usable : Connection → Bool) (live : Live)
    (requested : Requested) : Option Live :=
  (processStorageDestinationsOrThrow usable
    (requested.map (·.map (resolveDestinationReference live.destinations)))).map fun destinations =>
      { live with destinations := destinations, destinationsAuthoritative := true }

/-- The environment an update leaves, and whether it is accepted. Destinations that are accepted
stay where the connections are not. -/
def Live.update (accepts usable : Connection → Bool) (live : Live) (payload : Payload) :
    Live × Bool :=
  match payload.storageDestinations.elim (some live) (live.setStorageDestinations usable) with
  | none => (live, false)
  | some updated =>
    match payload.connections with
    | none => (updated, true)
    | some incoming =>
      match assembleEnvironmentConnections accepts
          (mergedConnections updated.connections incoming) with
      | none => (updated, false)
      | some next => ({ updated with connections := next }, true)

/-- A new environment. -/
def Live.create (accepts usable : Connection → Bool) (connections : List Connection)
    (destinations : Requested) : Option Live :=
  (assembleEnvironmentConnections accepts connections).map fun assembled =>
    { connections := assembled, destinations := processStorageDestinations usable destinations }

/-! ## In the database -/

structure Stored where
  table : Table := ⟨[], 0⟩
  /-- The destinations' configs, by their names. -/
  destinations : List (String × List (String × Json)) := []
deriving DecidableEq

/-- The row of a connection, updated or inserted. -/
def storeConnection (table : Table) (connection : Connection) : Table :=
  match table.find connection.name with
  | some row => table.set row.id connection.config
  | none => table.add connection

/-- The rows of connections, brought after a list of them. -/
def addConnections (table : Table) (connections : List Connection) : Table :=
  connections.foldl storeConnection table

/-- The rows of destinations, brought after those in memory. -/
def syncStorageDestinations (live : Live) (rows : List (String × List (String × Json))) :
    List (String × List (String × Json)) :=
  let upserted := writeAll rows (live.destinations.map fun destination =>
    (destination.name, destination.config))
  if live.destinationsAuthoritative then
    upserted.filter fun (name, _) => live.destinations.any fun destination => destination.name == name
  else upserted

def addEnvironmentToDatabase (live : Live) (stored : Stored) : Stored where
  table := addConnections stored.table live.connections
  destinations := syncStorageDestinations live stored.destinations

/-! ## Operations -/

/-- What the server's configuration declares of the environment. -/
structure Declared where
  connections : List Connection := []
  storageDestinations : Requested := []
deriving DecidableEq

structure Server where
  live : Option Live := none
  stored : Stored := {}
deriving DecidableEq

inductive Operation
  | addEnvironment (payload : Payload)
  | updateEnvironment (payload : Payload)
  /-- `getEnvironment` with `reload`, and what is declared at the time. -/
  | getEnvironment (declared : Option Declared)
  | addConnection (name : String) (connection : Connection)
  | updateConnection (name : String) (patch : List (String × Json))
  | deleteConnection (name : String)
deriving DecidableEq

/-- What a reload is asked to update the environment with. Destinations are asserted only where some
are declared. -/
def reloadPayload (declared : Option Declared) : Payload where
  connections := some ((declared.map (·.connections)).getD [])
  storageDestinations := declared.bind fun declared =>
    if declared.storageDestinations.isEmpty then none else some declared.storageDestinations

/-- An update of an environment that there is. -/
def Server.update (accepts usable : Connection → Bool) (server : Server) (live : Live)
    (payload : Payload) : Server :=
  let updated := live.update accepts usable payload
  { live := some updated.1
    stored := if updated.2 then addEnvironmentToDatabase updated.1 server.stored else server.stored }

def Server.addEnvironment (accepts usable : Connection → Bool) (server : Server)
    (payload : Payload) : Server :=
  match server.live with
  | some live => server.update accepts usable live payload
  | none =>
    match Live.create accepts usable (payload.connections.getD [])
        (payload.storageDestinations.getD []) with
    | none => server
    | some live => { live := some live, stored := addEnvironmentToDatabase live server.stored }

/-- A call on one connection, whose list and row are changed where it does not fail. -/
def Server.change (server : Server) (live : Live) (changed : Option (List Connection × Table)) :
    Server :=
  match changed with
  | none => server
  | some (next, table) =>
    { live := some { live with connections := next }, stored := { server.stored with table := table } }

/-- An operation. One that fails leaves what it has not changed. -/
def Server.serve (accepts usable : Connection → Bool) (server : Server) : Operation → Server
  | .addEnvironment payload => server.addEnvironment accepts usable payload
  | .updateEnvironment payload =>
    match server.live with
    | none => server
    | some live => server.update accepts usable live payload
  | .getEnvironment declared =>
    if server.live.isNone ∧ declared.isNone then server
    else server.addEnvironment accepts usable (reloadPayload declared)
  | .addConnection name connection =>
    match server.live with
    | none => server
    | some live => server.change live (
      if (server.stored.table.find name).isSome then none
      else (assembleEnvironmentConnections accepts (live.connections ++ [connection])).bind fun next =>
        if (server.stored.table.find connection.name).isSome then none
        else some (next, server.stored.table.add connection))
  | .updateConnection name patch =>
    match server.live with
    | none => server
    | some live => server.change live ((server.stored.table.find name).bind fun row =>
      let updated := row.connection.patched patch
      (assembleEnvironmentConnections accepts (replaced live.connections updated)).map fun next =>
        (next, server.stored.table.set row.id updated.config))
  | .deleteConnection name =>
    match server.live with
    | none => server
    | some live => server.change live ((server.stored.table.find name).bind fun row =>
      (named live.connections name).bind fun _ =>
        (assembleEnvironmentConnections accepts (withoutConnection live.connections name)).map
          fun next => (next, server.stored.table.delete row.id))

/-- Operations one after the other. -/
def Server.run (accepts usable : Connection → Bool) (server : Server)
    (operations : List Operation) : Server :=
  operations.foldl (Server.serve accepts usable) server

/-! ## A restart -/

/-- The environment a restart builds. The rows of its destinations may fail to be read. -/
def restore (accepts usable : Connection → Bool) (stored : Stored) (declared : Option Declared)
    (readFails : Bool) : Option Live :=
  let destinations :=
    if readFails ∨ stored.destinations.isEmpty then
      (declared.map (·.storageDestinations)).getD []
    else stored.destinations.map fun (name, config) => some ⟨name, config⟩
  (Live.create accepts usable (stored.table.rows.map Row.connection) destinations).map fun live =>
    { live with destinationsAuthoritative := !readFails }

end MalloyPublisher.Environments
