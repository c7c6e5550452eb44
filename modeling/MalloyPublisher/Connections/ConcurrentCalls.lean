import MalloyPublisher.Connections.ConnectionTable

/-!
# Concurrent calls on one environment's connections

A call that is on one connection reads its row, waits for the environment's mutex, writes the row
and puts the new list in memory. A call that replaces the list puts it in memory under the mutex and
brings the database after it once it has left it, row by row, from the list it then finds.

A call runs on its own between its awaits; which of them goes on next is left open. The reads and
writes of the database do not fail but as its constraints have it.

## Main definitions

* `Phase` — the await a call stands at
* `State.step` — the environment after a call is made or goes on
* `State.readsFresh` — a call goes on only where what it has read still holds
* `State.runFresh` — the environment after events that each meet this condition
* `InStep` — memory and the database agree, on what the calls leave one after the other
-/

namespace MalloyPublisher.Connections

open Foundations

/-! ## Calls -/

/-- The await at which a call stands. -/
inductive Phase
  /-- The read of its row or, of a call that replaces the list, the mutex. -/
  | entered
  /-- The mutex, with the row it has read. -/
  | waiting (read : Option Row)
  /-- The write of its connection's row, with the list that is to be in memory. -/
  | writing (write : Write) (connection : Connection) (next : List Connection)
  | deleting (id : ℕ) (next : List Connection)
  /-- The end of the write. -/
  | swapping (next : List Connection)
  /-- The environment's own row. -/
  | mirroring
  /-- The look at a connection's row, with the connections to come after it. -/
  | syncing (connection : Connection) (rest : List Connection)
  /-- The write of it. -/
  | storing (write : Write) (connection : Connection) (rest : List Connection)
  | done
  | failed
deriving DecidableEq

/-- Whether a call has the mutex. -/
def Phase.inTurn : Phase → Bool
  | .writing .. | .deleting .. | .swapping _ => true
  | _ => false

/-- Whether a call has written its row and not yet put its list in memory. -/
def Phase.isSwapping : Phase → Bool
  | .swapping _ => true
  | _ => false

/-- Whether a call's list is in memory. -/
def Phase.isServed : Phase → Bool
  | .mirroring | .syncing .. | .storing .. | .done => true
  | _ => false

/-- Whether a call is still to write a connection's row. -/
def Phase.owes : Phase → String → Bool
  | .mirroring, _ => true
  | .syncing connection rest, name | .storing _ connection rest, name =>
    (connection :: rest).any fun connection => connection.name == name
  | _, _ => false

structure Request where
  call : Call
  phase : Phase := .entered
deriving DecidableEq

structure State where
  memory : List Connection
  table : Table
  /-- The call that has the mutex. -/
  holder : Option ℕ := none
  requests : ℕ → Option Request := fun _ => none
  made : ℕ := 0

/-- A call comes to its next await. -/
def State.put (state : State) (i : ℕ) (request : Request) (phase : Phase) : State :=
  { state with requests := Function.update state.requests i (some { request with phase := phase }) }

/-- Where a call comes to on its turn, up to its first await. No other call waits for one. -/
def State.turn (accepts : Connection → Bool) (state : State) : Call → Option Row → Phase
  | .addConnection _ connection, _ =>
    match assembleEnvironmentConnections accepts (state.memory ++ [connection]) with
    | none => .failed
    | some next => .writing .insert connection next
  | .updateConnection name patch, some row =>
    let updated := { row.connection.patched patch with name := name }
    match assembleEnvironmentConnections accepts (replaced state.memory updated) with
    | none => .failed
    | some next => .writing .find updated next
  | .deleteConnection name, some row =>
    match named state.memory name with
    | none => .failed
    | some _ =>
      match assembleEnvironmentConnections accepts (withoutConnection state.memory name) with
      | none => .failed
      | some next => .deleting row.id next
  | _, _ => .failed

/-- Where the sync of a list comes to. -/
def syncPhase : List Connection → Phase
  | [] => .done
  | connection :: rest => .syncing connection rest

/-- A call goes on from its await, up to the next. -/
def State.resume (accepts : Connection → Bool) (state : State) (i : ℕ) (request : Request) :
    Option State :=
  match request.phase with
  | .entered =>
    match request.call with
    | .addConnection name _ =>
      some (state.put i request
        (if (state.table.find name).isSome then .failed else .waiting none))
    | .updateConnection name _ | .deleteConnection name =>
      some (state.put i request (match state.table.find name with
        | none => .failed
        | some row => .waiting (some row)))
    | .updateEnvironment incoming =>
      if state.holder.isSome then none
      else match assembleEnvironmentConnections accepts
          (mergedConnections state.memory incoming) with
        | none => some (state.put i request .failed)
        | some next => some { state.put i request .mirroring with memory := next }
  | .waiting read =>
    if state.holder.isSome then none
    else
      let phase := state.turn accepts request.call read
      some { state.put i request phase with holder := if phase.inTurn then some i else none }
  | .writing write connection next =>
    match state.table.write connection write with
    | none => some { state.put i request .failed with holder := none }
    | some (table, some write) =>
      some { state.put i request (.writing write connection next) with table := table }
    | some (table, none) => some { state.put i request (.swapping next) with table := table }
  | .deleting id next =>
    some { state.put i request (.swapping next) with table := state.table.delete id }
  | .swapping next => some { state.put i request .done with memory := next, holder := none }
  | .mirroring => some (state.put i request (syncPhase state.memory))
  | .syncing connection rest =>
    some (state.put i request (.storing
      (if (state.table.find connection.name).isSome then .find else .insert) connection rest))
  | .storing write connection rest =>
    match state.table.write connection write with
    -- what the sync throws is caught, and it does not go on
    | none => some (state.put i request .done)
    | some (table, some write) =>
      some { state.put i request (.storing write connection rest) with table := table }
    | some (table, none) => some { state.put i request (syncPhase rest) with table := table }
  | .done | .failed => none

inductive Event
  | call (call : Call)
  | resume (request : ℕ)
deriving DecidableEq

/-- The environment after an event, if it can happen. -/
def State.step (accepts : Connection → Bool) (state : State) : Event → Option State
  | .call call => some { state with
      requests := Function.update state.requests state.made (some { call := call })
      made := state.made + 1 }
  | .resume i => (state.requests i).bind fun request => state.resume accepts i request

/-- The environment after a sequence of events. -/
def State.run (accepts : Connection → Bool) (state : State) (events : List Event) : Option State :=
  events.foldlM (State.step accepts) state

/-! ## What a call has read -/

/-- No call that has the mutex is on a connection. -/
def State.quiet (state : State) (name : String) : Bool :=
  state.holder.all fun i => (state.requests i).all fun request => request.call.target != some name

/-- A write of a row finds it as the look before it did. -/
def Table.sees (table : Table) (name : String) : Write → Bool
  | .find => (table.find name).isSome
  | .check id | .set id => (table.find name).any fun row => row.id == id
  | .insert => (table.find name).isNone

/-- A call goes on only where what it has read still holds. One that adds a connection finds neither
it nor the name of its route, unless the row is there and the write is refused; one that changes a
connection finds it in memory and in the database as it read it; one that removes a connection finds
its row, unless it is gone from memory and the call is refused; one that replaces the list knows of
every connection; and its sync finds the connection in memory as it is to store it, no call in its
turn on it, and the row there or not as before. -/
def State.readsFresh (state : State) : Event → Bool
  | .call _ => true
  | .resume i => (state.requests i).all fun request => match request.phase, request.call with
    | .entered, .updateEnvironment incoming =>
      state.memory.all fun connection => incoming.any fun other => other.name == connection.name
    | .waiting _, .addConnection name connection =>
      (state.table.find connection.name).isSome ||
        (named state.memory connection.name).isNone && (named state.memory name).isNone
    | .waiting read, .updateConnection name _ =>
      state.table.find name == read && named state.memory name == read.map Row.connection
    | .waiting read, .deleteConnection name =>
      (named state.memory name).isNone ||
        (state.table.find name).map Row.id == read.map Row.id
    | .storing write connection _, _ =>
      named state.memory connection.name == some connection && state.quiet connection.name &&
        state.table.sees connection.name write
    | _, _ => true

/-- The environment after a sequence of events that each meet the condition. -/
def State.runFresh (accepts : Connection → Bool) (state : State) (events : List Event) :
    Option State :=
  events.foldlM (fun state event =>
    if state.readsFresh event then state.step accepts event else none) state

/-- An environment before any call: memory and the database agree. -/
structure State.Initial (state : State) : Prop where
  names : (state.memory.map Connection.name).Nodup
  table : state.table.WellFormed
  mirrored : (state.table.rows.map Row.connection).Perm state.memory
  free : state.holder = none
  idle : ∀ i, state.requests i = none

/-- Every call has come to an end. -/
def State.Settled (state : State) : Prop :=
  ∀ i < state.made, ∀ request, state.requests i = some request →
    request.phase = .done ∨ request.phase = .failed

/-- Memory and the database have the same connections, those that the calls that succeeded leave one
after the other in some order. -/
structure InStep (accepts : Connection → Bool) (start : List Connection) (state : State) : Prop where
  mirrored : (state.table.rows.map Row.connection).Perm state.memory
  serial : ∃ order : List (ℕ × Call), order.Nodup ∧
    (∀ i call, (i, call) ∈ order ↔
      ∃ request, state.requests i = some request ∧ request.call = call ∧ request.phase = .done) ∧
    (order.map Prod.snd).foldlM (serve accepts) start = some state.memory

end MalloyPublisher.Connections
