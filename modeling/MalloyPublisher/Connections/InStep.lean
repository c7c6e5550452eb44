import Mathlib.Tactic.IntervalCases
import MalloyPublisher.Connections.ConcurrentCalls

/-!
# Concurrent calls one after the other

While each call finds what it has read as it read it, the order in which the calls take their turns
is an order in which they could have been served alone. Memory follows it turn by turn. The database
follows a call's own connection within its turn, and a list that was replaced as its sync goes over
it.

## Main definitions

* `Fits` — what a call in its turn is about to leave
* `Kept` — what such steps keep

## Main results

* `Kept.step` — one step
* `inStep_of_runFresh` — after such steps, memory and the database are in step
* `staleRow_loses_update` — two updates of one connection of which one is lost
-/

namespace MalloyPublisher.Connections

open Foundations

variable {accepts : Connection → Bool} {start : List Connection} {state next : State} {i : ℕ}
  {request : Request} {phase : Phase} {name : String}

/-! ## One connection -/

/-- A connection is alike in memory and in the database. -/
def State.Mirrored (state : State) (name : String) : Prop :=
  (state.table.find name).map Row.connection = named state.memory name

/-- A connection's row is still to be written. -/
def State.Owed (state : State) (name : String) : Prop :=
  ∃ i request, state.requests i = some request ∧ request.phase.owes name = true

/-- A connection's row has been written and its place in memory has not. -/
def State.Swapping (state : State) (name : String) : Prop :=
  ∃ i request, state.requests i = some request ∧ request.phase.isSwapping = true ∧
    request.call.target = some name

/-- What a call in its turn is about to leave, and the row it is about to write. -/
inductive Fits (accepts : Connection → Bool) (memory : List Connection) (table : Table) :
    Call → Phase → Prop
  | adding {name : String} {connection : Connection} {after : List Connection}
      (serves : table.find connection.name = none →
        serve accepts memory (.addConnection name connection) = some after) :
      Fits accepts memory table (.addConnection name connection)
        (.writing .insert connection after)
  | updating {name : String} {patch : List (String × Json)} {write : Write}
      {connection : Connection} {after : List Connection} {row : Row}
      (found : table.find name = some row)
      (on : write = .find ∨ write = .check row.id ∨ write = .set row.id)
      (serves : serve accepts memory (.updateConnection name patch) = some after)
      (result : named after name = some connection) :
      Fits accepts memory table (.updateConnection name patch) (.writing write connection after)
  | deleting {name : String} {after : List Connection} {row : Row}
      (found : table.find name = some row)
      (serves : serve accepts memory (.deleteConnection name) = some after) :
      Fits accepts memory table (.deleteConnection name) (.deleting row.id after)
  | swapping {call : Call} {target : String} {after : List Connection}
      (isTarget : call.target = some target) (serves : serve accepts memory call = some after)
      (written : (table.find target).map Row.connection = named after target) :
      Fits accepts memory table call (.swapping after)
  | idle {call : Call} {phase : Phase} (idle : phase.inTurn = false) :
      Fits accepts memory table call phase

/-- A call in its turn does not mind what is written of other connections. -/
theorem Fits.of_find_eq {memory : List Connection} {table table' : Table} {call : Call}
    (fits : Fits accepts memory table call phase)
    (same : ∀ target, call.target = some target → table'.find target = table.find target) :
    Fits accepts memory table' call phase := by
  cases fits with
  | adding serves => exact .adding fun missing => serves (same _ rfl ▸ missing)
  | updating found on serves result => exact .updating ((same _ rfl).trans found) on serves result
  | deleting found serves => exact .deleting ((same _ rfl).trans found) serves
  | swapping isTarget serves written =>
    exact .swapping isTarget serves (by rw [same _ isTarget]; exact written)
  | idle idle => exact .idle idle

theorem Fits.of_swapping {memory after : List Connection} {table : Table} {call : Call}
    (fits : Fits accepts memory table call (.swapping after)) : ∃ target,
      call.target = some target ∧ serve accepts memory call = some after ∧
        (table.find target).map Row.connection = named after target := by
  cases fits with
  | swapping isTarget serves written => exact ⟨_, isTarget, serves, written⟩
  | idle idle => cases idle

/-- The calls that are served, in the order of their turns, leave what is in memory. -/
def State.Serial (accepts : Connection → Bool) (start : List Connection) (state : State) : Prop :=
  ∃ order : List (ℕ × Call), order.Nodup ∧
    (∀ i call, (i, call) ∈ order ↔ ∃ request, state.requests i = some request ∧
      request.call = call ∧ request.phase.isServed = true) ∧
    (order.map Prod.snd).foldlM (serve accepts) start = some state.memory

/-- What steps that meet the condition keep. -/
structure Kept (accepts : Connection → Bool) (start : List Connection) (state : State) : Prop where
  unmade : ∀ i, state.made ≤ i → state.requests i = none
  names : (state.memory.map Connection.name).Nodup
  table : state.table.WellFormed
  /-- A call in its turn has the mutex. -/
  turn : ∀ i request, state.requests i = some request → request.phase.inTurn = true →
    state.holder = some i
  fits : ∀ i request, state.requests i = some request →
    Fits accepts state.memory state.table request.call request.phase
  mirrored : ∀ name, state.Mirrored name ∨ state.Owed name ∨ state.Swapping name
  absent : ∀ name, named state.memory name = none →
    state.table.find name = none ∨ state.Swapping name
  serial : state.Serial accepts start

/-! ## A call that comes to its next await -/

theorem update_eq_some {requests : ℕ → Option Request} {now other : Request} {j : ℕ}
    (called : Function.update requests i (some now) j = some other) :
    j = i ∧ other = now ∨ j ≠ i ∧ requests j = some other := by
  by_cases same : j = i
  · subst same
    rw [Function.update_self] at called
    exact .inl ⟨rfl, (Option.some.inj called).symm⟩
  · rw [Function.update_of_ne same] at called
    exact .inr ⟨same, called⟩

theorem requests_put_self (state : State) (i : ℕ) (request : Request) (phase : Phase) :
    (state.put i request phase).requests i = some { request with phase := phase } :=
  Function.update_self ..

theorem requests_put_of_ne {j : ℕ} (other : j ≠ i) (state : State) (request : Request)
    (phase : Phase) : (state.put i request phase).requests j = state.requests j :=
  Function.update_of_ne other ..

/-- A call that another has come on is as it was, or was the one that came on. -/
theorem of_put {P : Request → Prop} (called : state.requests i = some request)
    (holds : ∃ j other, state.requests j = some other ∧ P other) :
    (∃ j other, (state.put i request phase).requests j = some other ∧ P other) ∨ P request := by
  obtain ⟨j, other, found, isSo⟩ := holds
  by_cases same : j = i
  · subst same
    rw [Option.some.inj (called.symm.trans found)]
    exact .inr isSo
  · exact .inl ⟨j, other, (requests_put_of_ne same ..).trans found, isSo⟩

theorem Kept.unmade_put (kept : Kept accepts start state)
    (called : state.requests i = some request) (j : ℕ) (unmade : state.made ≤ j) :
    (state.put i request phase).requests j = none := by
  have other : j ≠ i := by
    rintro rfl
    rw [kept.unmade j unmade] at called
    cases called
  exact (requests_put_of_ne other ..).trans (kept.unmade j unmade)

/-- A call that comes on without being served leaves the order as it was. -/
theorem State.Serial.put (serial : state.Serial accepts start)
    (called : state.requests i = some request)
    (same : phase.isServed = request.phase.isServed) :
    (state.put i request phase).Serial accepts start := by
  obtain ⟨order, nodup, served, replays⟩ := serial
  refine ⟨order, nodup, fun j call => ?_, replays⟩
  rw [served]
  by_cases isCall : j = i
  · subst isCall
    rw [requests_put_self, called]
    constructor
    · rintro ⟨other, found, isOf, isServed⟩
      obtain rfl := Option.some.inj found
      exact ⟨_, rfl, isOf, same.trans isServed⟩
    · rintro ⟨other, found, isOf, isServed⟩
      obtain rfl := Option.some.inj found
      exact ⟨_, rfl, isOf, same.symm.trans isServed⟩
  · rw [requests_put_of_ne isCall]

/-- A call that is served comes last. -/
theorem State.Serial.serve {after : List Connection} {holder : Option ℕ}
    (serial : state.Serial accepts start) (called : state.requests i = some request)
    (unserved : request.phase.isServed = false) (serves : phase.isServed = true)
    (isServed : serve accepts state.memory request.call = some after) :
    ({ state.put i request phase with memory := after, holder := holder }).Serial
      accepts start := by
  obtain ⟨order, nodup, served, replays⟩ := serial
  refine ⟨order ++ [(i, request.call)], ?_, fun j call => ?_, ?_⟩
  · rw [List.nodup_append]
    refine ⟨nodup, List.nodup_singleton _, ?_⟩
    rintro entry member other isLast rfl
    rw [List.mem_singleton.mp isLast] at member
    obtain ⟨found, isFound, -, earlier⟩ := (served i request.call).mp member
    rw [← Option.some.inj (called.symm.trans isFound), unserved] at earlier
    cases earlier
  · rw [List.mem_append, List.mem_singleton, Prod.mk.injEq, served]
    by_cases isCall : j = i
    · subst isCall
      have now : Function.update state.requests j (some { request with phase := phase }) j =
          some { request with phase := phase } := Function.update_self ..
      simp only [State.put, now, called]
      constructor
      · rintro (⟨other, found, isOf, isServed⟩ | ⟨-, rfl⟩)
        · rw [← Option.some.inj found, unserved] at isServed
          cases isServed
        · exact ⟨_, rfl, rfl, serves⟩
      · rintro ⟨other, found, isOf, -⟩
        obtain rfl := Option.some.inj found
        exact .inr ⟨trivial, isOf.symm⟩
    · have later : ¬ (j = i ∧ call = request.call) := fun both => isCall both.1
      simp only [later, or_false]
      have now : (state.put i request phase).requests j = state.requests j :=
        requests_put_of_ne isCall ..
      simp only [State.put] at now ⊢
      rw [now]
  · rw [List.map_append, List.foldlM_append, replays]
    simpa using isServed

namespace Kept

/-- Another call is in its turn only while this one is not. -/
theorem idle_of_holder (kept : Kept accepts start state) {j : ℕ} {other : Request}
    (called : state.requests j = some other) (free : state.holder ≠ some j) :
    other.phase.inTurn = false :=
  eq_false_of_ne_true fun inTurn => free (kept.turn j other called inTurn)

/-- A call comes on and nothing is written. It may take the mutex or leave it. -/
theorem rephase (kept : Kept accepts start state) (called : state.requests i = some request)
    (holder : Option ℕ) (own : phase.inTurn = true → holder = some i)
    (others : ∀ j, j ≠ i → state.holder = some j → holder = some j)
    (fits : Fits accepts state.memory state.table request.call phase)
    (swaps : request.phase.isSwapping = false)
    (owes : ∀ name, request.phase.owes name = true →
      phase.owes name = true ∨ state.Mirrored name ∨ state.Swapping name)
    (served : phase.isServed = request.phase.isServed) :
    Kept accepts start { state.put i request phase with holder := holder } where
  unmade := kept.unmade_put called
  names := kept.names
  table := kept.table
  turn j other found inTurn := by
    obtain ⟨rfl, rfl⟩ | ⟨apart, found⟩ := update_eq_some found
    · exact own inTurn
    · exact others j apart (kept.turn j other found inTurn)
  fits j other found := by
    obtain ⟨rfl, rfl⟩ | ⟨apart, found⟩ := update_eq_some found
    · exact fits
    · exact kept.fits j other found
  mirrored name := by
    have still : state.Swapping name → (state.put i request phase).Swapping name := fun there =>
      (of_put called there).resolve_right fun own => by simp [swaps] at own
    obtain mirrored | owed | swapping := kept.mirrored name
    · exact .inl mirrored
    · obtain there | own := of_put called owed
      · exact .inr (.inl there)
      · obtain owes | mirrored | swapping := owes name own
        · exact .inr (.inl ⟨i, _, requests_put_self .., owes⟩)
        · exact .inl mirrored
        · exact .inr (.inr (still swapping))
    · exact .inr (.inr (still swapping))
  absent name missing := (kept.absent name missing).imp_right fun there =>
    (of_put called there).resolve_right fun own => by simp [swaps] at own
  serial := kept.serial.put called served

/-- A call comes on and the row of one connection is written. -/
theorem write (kept : Kept accepts start state) (called : state.requests i = some request)
    {table : Table} {target : String} (wellFormed : table.WellFormed)
    (same : ∀ other, other ≠ target → table.find other = state.table.find other)
    (own : phase.inTurn = true → state.holder = some i)
    (alone : ∀ j other, j ≠ i → state.requests j = some other → other.phase.inTurn = true →
      other.call.target ≠ some target)
    (fits : Fits accepts state.memory table request.call phase)
    (swaps : request.phase.isSwapping = false)
    (written : (table.find target).map Row.connection = named state.memory target ∨
      phase.isSwapping = true ∧ request.call.target = some target)
    (owes : ∀ name, name ≠ target → request.phase.owes name = true → phase.owes name = true)
    (served : phase.isServed = request.phase.isServed) :
    Kept accepts start { state.put i request phase with table := table } where
  unmade := kept.unmade_put called
  names := kept.names
  table := wellFormed
  turn j other found inTurn := by
    obtain ⟨rfl, rfl⟩ | ⟨apart, found⟩ := update_eq_some found
    · exact own inTurn
    · exact kept.turn j other found inTurn
  fits j other found := by
    obtain ⟨rfl, rfl⟩ | ⟨apart, found⟩ := update_eq_some found
    · exact fits
    · by_cases inTurn : other.phase.inTurn = true
      · refine (kept.fits j other found).of_find_eq fun its isTarget => same its ?_
        rintro rfl
        exact alone j other apart found inTurn isTarget
      · exact .idle (eq_false_of_ne_true inTurn)
  mirrored name := by
    by_cases isTarget : name = target
    · subst isTarget
      obtain written | ⟨swapping, isTarget⟩ := written
      · exact .inl written
      · exact .inr (.inr ⟨i, _, requests_put_self .., swapping, isTarget⟩)
    · obtain mirrored | owed | swapping := kept.mirrored name
      · exact .inl ((congrArg (Option.map Row.connection) (same name isTarget)).trans mirrored)
      · obtain there | own := of_put called owed
        · exact .inr (.inl there)
        · exact .inr (.inl ⟨i, _, requests_put_self .., owes name isTarget own⟩)
      · exact .inr (.inr ((of_put called swapping).resolve_right fun own => by
          simp [swaps] at own))
  absent name missing := by
    by_cases isTarget : name = target
    · subst isTarget
      obtain written | ⟨swapping, isTarget⟩ := written
      · refine .inl ?_
        change named state.memory name = none at missing
        rw [missing, Option.map_eq_none_iff] at written
        exact written
      · exact .inr ⟨i, _, requests_put_self .., swapping, isTarget⟩
    · obtain absent | swapping := kept.absent name missing
      · exact .inl ((same name isTarget).trans absent)
      · exact .inr ((of_put called swapping).resolve_right fun own => by simp [swaps] at own)
  serial := kept.serial.put called served

/-- A call puts its list in memory and leaves the mutex. -/
theorem swap (kept : Kept accepts start state) (called : state.requests i = some request)
    {after : List Connection} (swapping : request.phase = .swapping after) :
    Kept accepts start { state.put i request .done with memory := after, holder := none } := by
  have holds : state.holder = some i := kept.turn i request called (by rw [swapping]; rfl)
  have fits := kept.fits i request called
  rw [swapping] at fits
  obtain ⟨target, isTarget, serves, written⟩ := fits.of_swapping
  have elsewhere : ∀ name, name ≠ target → ¬ state.Swapping name := by
    rintro name apart ⟨j, other, found, swaps, isOther⟩
    have inTurn : other.phase.inTurn = true := by
      cases phase : other.phase <;> simp_all [Phase.isSwapping, Phase.inTurn]
    obtain rfl := Option.some.inj (holds.symm.trans (kept.turn j other found inTurn))
    obtain rfl := Option.some.inj (called.symm.trans found)
    exact apart (Option.some.inj (isOther.symm.trans isTarget))
  exact {
    unmade := kept.unmade_put called
    names := nodup_serve serves
    table := kept.table
    turn := fun j other found inTurn => by
      obtain ⟨rfl, rfl⟩ | ⟨apart, found⟩ := update_eq_some found
      · cases inTurn
      · have idle := kept.idle_of_holder found (by rw [holds]; simpa using Ne.symm apart)
        rw [idle] at inTurn
        cases inTurn
    fits := fun j other found => by
      obtain ⟨rfl, rfl⟩ | ⟨apart, found⟩ := update_eq_some found
      · exact .idle rfl
      · exact .idle (kept.idle_of_holder found (by rw [holds]; simpa using Ne.symm apart))
    mirrored := fun name => by
      by_cases isIt : name = target
      · exact .inl (isIt ▸ written)
      · obtain mirrored | owed | swaps := kept.mirrored name
        · refine .inl (Eq.trans mirrored ?_)
          exact (named_serve_of_ne kept.names serves isTarget isIt).symm
        · refine .inr (.inl ((of_put called owed).resolve_right fun own => ?_))
          rw [swapping] at own
          cases own
        · exact absurd swaps (elsewhere name isIt)
    absent := fun name missing => by
      by_cases isIt : name = target
      · subst isIt
        change named after name = none at missing
        rw [missing, Option.map_eq_none_iff] at written
        exact .inl written
      · have before := (named_serve_of_ne kept.names serves isTarget isIt).symm.trans missing
        exact .inl ((kept.absent name before).resolve_right (elsewhere name isIt))
    serial := kept.serial.serve called (by rw [swapping]; rfl) rfl serves }

/-- A call puts a list in memory in the place of another. -/
theorem replace (kept : Kept accepts start state) (called : state.requests i = some request)
    (free : state.holder = none) (entered : request.phase = .entered)
    {incoming after : List Connection} (isCall : request.call = .updateEnvironment incoming)
    (serves : serve accepts state.memory request.call = some after)
    (complete : ∀ connection ∈ state.memory, connection.name ∈ incoming.map Connection.name) :
    Kept accepts start { state.put i request .mirroring with memory := after } := by
  have idle : ∀ j other, state.requests j = some other → other.phase.inTurn = false :=
    fun j other found => kept.idle_of_holder found (by simp [free])
  have names : ∀ name, named after name = none → named state.memory name = none := by
    intro name missing
    rw [named_eq_none_iff] at missing ⊢
    rw [isCall] at serves
    rw [mem_names_updateEnvironment serves] at missing
    intro there
    obtain ⟨connection, member, rfl⟩ := List.mem_map.mp there
    exact missing (complete connection member)
  have noSwap : ∀ name, ¬ state.Swapping name := by
    rintro name ⟨j, other, found, swaps, -⟩
    have inTurn := idle j other found
    cases phase : other.phase <;> simp_all [Phase.isSwapping, Phase.inTurn]
  exact {
    unmade := kept.unmade_put called
    names := nodup_serve serves
    table := kept.table
    turn := fun j other found inTurn => by
      obtain ⟨rfl, rfl⟩ | ⟨apart, found⟩ := update_eq_some found
      · cases inTurn
      · rw [idle j other found] at inTurn
        cases inTurn
    fits := fun j other found => by
      obtain ⟨rfl, rfl⟩ | ⟨apart, found⟩ := update_eq_some found
      · exact .idle rfl
      · exact .idle (idle j other found)
    mirrored := fun name => .inr (.inl ⟨i, _, requests_put_self .., rfl⟩)
    absent := fun name missing =>
      .inl ((kept.absent name (names name missing)).resolve_right (noSwap name))
    serial := kept.serial.serve called (by rw [entered]; rfl) rfl serves }

end Kept

/-! ## What a turn begins with -/

theorem isServed_turn (state : State) (call : Call) (read : Option Row) :
    (state.turn accepts call read).isServed = false := by
  unfold State.turn
  dsimp only
  repeat' split
  all_goals rfl

/-- On its turn a call finds what it has read, and so is served as it would be alone. -/
theorem fits_turn (kept : Kept accepts start state) (called : state.requests i = some request)
    {read : Option Row} (waiting : request.phase = .waiting read)
    (fresh : state.readsFresh (.resume i) = true) :
    Fits accepts state.memory state.table request.call (state.turn accepts request.call read) := by
  simp only [State.readsFresh, called, Option.all_some, waiting] at fresh
  cases isCall : request.call with
  | addConnection name connection =>
    simp only [isCall, Bool.or_eq_true, Bool.and_eq_true, Option.isNone_iff_eq_none] at fresh
    rw [State.turn]
    cases assembled : assembleEnvironmentConnections accepts (state.memory ++ [connection]) with
    | none => exact .idle rfl
    | some after =>
      refine .adding fun missing => ?_
      obtain there | ⟨noConnection, noName⟩ := fresh
      · rw [missing] at there
        cases there
      · simpa [serve, noConnection, noName] using assembled
  | updateConnection name patch =>
    simp only [isCall, Bool.and_eq_true, beq_iff_eq] at fresh
    obtain ⟨stored, inMemory⟩ := fresh
    cases read with
    | none => exact .idle rfl
    | some row =>
      have isNamed := ((find_eq_some_iff kept.table).mp stored).2
      have updated : { row.connection.patched patch with name := name } =
          row.connection.patched patch := by
        rw [← isNamed]
        rfl
      rw [State.turn]
      simp only [updated]
      cases assembled : assembleEnvironmentConnections accepts
          (replaced state.memory (row.connection.patched patch)) with
      | none => exact .idle rfl
      | some after =>
        have serves : serve accepts state.memory (.updateConnection name patch) = some after := by
          rw [serve, inMemory]
          exact assembled
        exact .updating stored (.inl rfl) serves (named_update kept.names inMemory serves)
  | deleteConnection name =>
    simp only [isCall, Bool.or_eq_true, beq_iff_eq, Option.isNone_iff_eq_none] at fresh
    cases read with
    | none => exact .idle rfl
    | some row =>
      rw [State.turn]
      cases inMemory : named state.memory name with
      | none => exact .idle rfl
      | some stored =>
        have sameId := fresh.resolve_left (by simp [inMemory])
        rw [Option.map_some, Option.map_eq_some_iff] at sameId
        obtain ⟨current, found, isId⟩ := sameId
        simp only
        cases assembled : assembleEnvironmentConnections accepts
            (withoutConnection state.memory name) with
        | none => exact .idle rfl
        | some after =>
          have serves : serve accepts state.memory (.deleteConnection name) = some after := by
            rw [serve, inMemory]
            exact assembled
          rw [← isId]
          exact .deleting found serves
  | updateEnvironment incoming =>
    cases read <;> exact .idle rfl

/-! ## What a sync still owes -/

theorem find_of_sees {table : Table} {id : ℕ}
    (sees : ((table.find name).any fun row => row.id == id) = true) :
    ∃ row, table.find name = some row ∧ row.id = id := by
  cases found : table.find name with
  | none => simp [found] at sees
  | some row => exact ⟨row, rfl, by simpa [found] using sees⟩

theorem owes_syncPhase (connections : List Connection) (name : String) :
    (syncPhase connections).owes name = connections.any fun connection => connection.name == name := by
  cases connections <;> rfl

theorem isServed_syncPhase (connections : List Connection) :
    (syncPhase connections).isServed = true := by
  cases connections <;> rfl

theorem inTurn_syncPhase (connections : List Connection) :
    (syncPhase connections).inTurn = false := by
  cases connections <;> rfl

namespace Kept

/-! ## Each await -/

/-- A call is made. -/
theorem call (kept : Kept accepts start state) (made : Call) :
    Kept accepts start { state with
      requests := Function.update state.requests state.made (some { call := made })
      made := state.made + 1 } := by
  have none := kept.unmade state.made le_rfl
  have apart : ∀ {j : ℕ} {other : Request}, state.requests j = some other → j ≠ state.made := by
    rintro j other found rfl
    rw [none] at found
    cases found
  have keeps : ∀ {P : Request → Prop},
      (∃ j other, state.requests j = some other ∧ P other) →
      ∃ j other, Function.update state.requests state.made (some { call := made }) j =
        some other ∧ P other := by
    rintro P ⟨j, other, found, isSo⟩
    exact ⟨j, other, (Function.update_of_ne (apart found) ..).trans found, isSo⟩
  exact {
    unmade := fun j unmade => by
      have isOther : j ≠ state.made := by
        rintro rfl
        exact absurd unmade (Nat.not_succ_le_self _)
      exact (Function.update_of_ne isOther ..).trans
        (kept.unmade j ((Nat.le_succ _).trans unmade))
    names := kept.names
    table := kept.table
    turn := fun j other found inTurn => by
      obtain ⟨rfl, rfl⟩ | ⟨-, found⟩ := update_eq_some found
      · cases inTurn
      · exact kept.turn j other found inTurn
    fits := fun j other found => by
      obtain ⟨rfl, rfl⟩ | ⟨-, found⟩ := update_eq_some found
      · exact .idle rfl
      · exact kept.fits j other found
    mirrored := fun name => (kept.mirrored name).imp_right fun there => there.imp keeps keeps
    absent := fun name missing => (kept.absent name missing).imp_right keeps
    serial := by
      obtain ⟨order, nodup, served, replays⟩ := kept.serial
      refine ⟨order, nodup, fun j call => ?_, replays⟩
      rw [served]
      constructor
      · exact fun there => by
          obtain ⟨other, found, isSo⟩ := there
          exact ⟨other, (Function.update_of_ne (apart found) ..).trans found, isSo⟩
      · rintro ⟨other, found, isOf, isServed⟩
        obtain ⟨rfl, rfl⟩ | ⟨-, found⟩ := update_eq_some found
        · cases isServed
        · exact ⟨other, found, isOf, isServed⟩ }

/-- A call comes to an await out of its turn, or fails there, before it is served. -/
theorem pass (kept : Kept accepts start state) (called : state.requests i = some request)
    (before : ∀ name, request.phase.owes name = false) (swaps : request.phase.isSwapping = false)
    (unserved : request.phase.isServed = false) (idle : phase.inTurn = false)
    (unserved' : phase.isServed = false) : Kept accepts start (state.put i request phase) :=
  kept.rephase called state.holder (fun inTurn => by simp [idle] at inTurn)
    (fun _ _ holds => holds) (.idle idle) swaps
    (fun name owes => by simp [before name] at owes) (unserved'.trans unserved.symm)

theorem entered (kept : Kept accepts start state) (called : state.requests i = some request)
    (phase : request.phase = .entered) (fresh : state.readsFresh (.resume i) = true)
    (resumed : state.resume accepts i request = some next) : Kept accepts start next := by
  have passes : ∀ {after : Phase}, after.inTurn = false → after.isServed = false →
      Kept accepts start (state.put i request after) := fun idle unserved =>
    kept.pass called (by rw [phase]; intro; rfl) (by rw [phase]; rfl) (by rw [phase]; rfl) idle
      unserved
  simp only [State.resume, phase] at resumed
  cases isCall : request.call with
  | addConnection name connection =>
    simp only [isCall, Option.some.injEq] at resumed
    rw [← resumed]
    split_ifs <;> exact passes rfl rfl
  | updateConnection name patch | deleteConnection name =>
    simp only [isCall, Option.some.injEq] at resumed
    rw [← resumed]
    split <;> exact passes rfl rfl
  | updateEnvironment incoming =>
    simp only [isCall] at resumed
    split_ifs at resumed with taken
    simp only [State.readsFresh, called, Option.all_some, phase, isCall] at fresh
    cases assembled : assembleEnvironmentConnections accepts
        (mergedConnections state.memory incoming) with
    | none =>
      simp only [assembled, Option.some.injEq] at resumed
      exact resumed ▸ passes rfl rfl
    | some after =>
      simp only [assembled, Option.some.injEq] at resumed
      rw [← resumed]
      refine kept.replace called (Option.not_isSome_iff_eq_none.mp taken) phase isCall
        (by rw [isCall]; exact assembled) fun connection member => ?_
      obtain ⟨other, listed, same⟩ := List.any_eq_true.mp (List.all_eq_true.mp fresh _ member)
      exact List.mem_map.mpr ⟨other, listed, eq_of_beq same⟩

theorem waiting (kept : Kept accepts start state) (called : state.requests i = some request)
    {read : Option Row} (phase : request.phase = .waiting read)
    (fresh : state.readsFresh (.resume i) = true)
    (resumed : state.resume accepts i request = some next) : Kept accepts start next := by
  simp only [State.resume, phase] at resumed
  split_ifs at resumed with taken
  · rename_i inTurn
    rw [← Option.some.inj resumed]
    exact kept.rephase called (some i) (fun _ => rfl)
      (fun j _ holds => by simp [holds] at taken) (fits_turn kept called phase fresh)
      (by rw [phase]; rfl) (fun name owes => by simp [phase, Phase.owes] at owes)
      ((isServed_turn ..).trans (by rw [phase]; rfl))
  · rename_i inTurn
    rw [← Option.some.inj resumed]
    exact kept.rephase called none (fun there => absurd there inTurn)
      (fun j _ holds => by simp [holds] at taken) (fits_turn kept called phase fresh)
      (by rw [phase]; rfl) (fun name owes => by simp [phase, Phase.owes] at owes)
      ((isServed_turn ..).trans (by rw [phase]; rfl))

end Kept

namespace Kept

/-- Others are not in their turn while one is. -/
theorem alone (kept : Kept accepts start state) (called : state.requests i = some request)
    (inTurn : request.phase.inTurn = true) {j : ℕ} {other : Request} (apart : j ≠ i)
    (found : state.requests j = some other) : other.phase.inTurn = false :=
  kept.idle_of_holder found (by rw [kept.turn i request called inTurn]; simpa using apart.symm)

theorem writing (kept : Kept accepts start state) (called : state.requests i = some request)
    {write : Write} {connection : Connection} {after : List Connection}
    (phase : request.phase = .writing write connection after)
    (resumed : state.resume accepts i request = some next) : Kept accepts start next := by
  have inTurn : request.phase.inTurn = true := by rw [phase]; rfl
  have holds := kept.turn i request called inTurn
  have swaps : request.phase.isSwapping = false := by rw [phase]; rfl
  have unserved : request.phase.isServed = false := by rw [phase]; rfl
  have owes : ∀ name, request.phase.owes name = false := fun name => by rw [phase]; rfl
  -- the write is done, and the row of the call's connection is the new one
  have finishes : ∀ {table : Table} {target : String}, request.call.target = some target →
      table.WellFormed → (∀ other, other ≠ target → table.find other = state.table.find other) →
      serve accepts state.memory request.call = some after →
      (table.find target).map Row.connection = named after target →
      Kept accepts start { state.put i request (.swapping after) with table := table } := by
    intro table target isTarget wellFormed same serves written
    exact kept.write called wellFormed same (fun _ => holds)
      (fun j other apart found there => by simp [kept.alone called inTurn apart found] at there)
      (.swapping isTarget serves written) swaps (.inr ⟨rfl, isTarget⟩)
      (fun name _ owed => by simp [owes name] at owed) unserved.symm
  have fits := kept.fits i request called
  simp only [State.resume, phase] at resumed
  rw [phase] at fits
  generalize isCall : request.call = call at fits
  cases fits with
  | idle idle => cases idle
  | adding serves =>
    rename_i name
    by_cases missing : state.table.find connection.name = none
    · simp only [Table.write, missing, Option.isSome_none, Bool.false_eq_true, if_false,
        Option.some.injEq] at resumed
      rw [← resumed]
      have served := serves missing
      refine finishes (by rw [isCall]; rfl) (kept.table.add missing)
        (fun other apart => kept.table.find_add_of_ne missing apart) (by rw [isCall]; exact served)
        ?_
      rw [kept.table.find_add_self missing]
      exact (named_add kept.names served).symm
    · have there := Option.isSome_iff_ne_none.mpr missing
      simp only [Table.write, there, if_true, Option.some.injEq] at resumed
      rw [← resumed]
      exact kept.rephase called none (fun inTurn => by cases inTurn)
        (fun j apart other => absurd (Option.some.inj (other.symm.trans holds)) apart)
        (.idle rfl) swaps (fun name owed => by simp [owes name] at owed) unserved.symm
  | updating found on serves result =>
    rename_i name patch row
    have isNamed := name_of_named result
    have isRow := ((find_eq_some_iff kept.table).mp found).1
    -- the row is there, so that the write goes on to it
    have goesOn : ∀ {other : Write}, other = .find ∨ other = .check row.id ∨ other = .set row.id →
        Kept accepts start (state.put i request (.writing other connection after)) := by
      intro other on
      refine kept.rephase called state.holder (fun _ => holds) (fun _ _ still => still) ?_ swaps
        (fun name owed => by simp [owes name] at owed) unserved.symm
      rw [isCall]
      exact .updating found on serves result
    obtain rfl | rfl | rfl := on
    · simp only [Table.write, isNamed, found, Option.some.injEq] at resumed
      exact resumed ▸ goesOn (.inr (.inl rfl))
    · have there : (state.table.rows.any fun other => other.id == row.id) = true :=
        List.any_eq_true.mpr ⟨row, isRow, beq_self_eq_true _⟩
      simp only [Table.write, there, if_true, Option.some.injEq] at resumed
      exact resumed ▸ goesOn (.inr (.inr rfl))
    · simp only [Table.write, Option.some.injEq] at resumed
      rw [← resumed]
      refine finishes (by rw [isCall]; rfl) (kept.table.set row.id connection.config)
        (fun other apart => kept.table.find_set_of_ne found apart) (by rw [isCall]; exact serves) ?_
      rw [kept.table.find_set_self found, result, ← isNamed]
      rfl

theorem deleting (kept : Kept accepts start state) (called : state.requests i = some request)
    {id : ℕ} {after : List Connection} (phase : request.phase = .deleting id after)
    (resumed : state.resume accepts i request = some next) : Kept accepts start next := by
  have inTurn : request.phase.inTurn = true := by rw [phase]; rfl
  have fits := kept.fits i request called
  simp only [State.resume, phase, Option.some.injEq] at resumed
  rw [phase] at fits
  generalize isCall : request.call = call at fits
  cases fits with
  | idle idle => cases idle
  | deleting found serves =>
    have written : ∀ row : Row, _ := fun row => kept.table.find_delete_self found
    have result := named_delete kept.names serves
    rw [← resumed]
    refine kept.write called (kept.table.delete _)
      (fun other apart => kept.table.find_delete_of_ne found apart)
      (fun _ => kept.turn i request called inTurn)
      (fun j other apart found there => by simp [kept.alone called inTurn apart found] at there)
      (.swapping (by rw [isCall]; rfl) (by rw [isCall]; exact serves) ?_)
      (by rw [phase]; rfl) (.inr ⟨rfl, by rw [isCall]; rfl⟩)
      (fun name _ owed => by simp [phase, Phase.owes] at owed) (by rw [phase]; rfl)
    rw [kept.table.find_delete_self found, result]
    rfl

theorem mirroring (kept : Kept accepts start state) (called : state.requests i = some request)
    (phase : request.phase = .mirroring) (resumed : state.resume accepts i request = some next) :
    Kept accepts start next := by
  simp only [State.resume, phase, Option.some.injEq] at resumed
  rw [← resumed]
  refine kept.rephase called state.holder
    (fun inTurn => by simp [inTurn_syncPhase] at inTurn) (fun _ _ holds => holds)
    (.idle (inTurn_syncPhase _)) (by rw [phase]; rfl) (fun name _ => ?_)
    (by rw [isServed_syncPhase, phase]; rfl)
  cases inMemory : named state.memory name with
  | some connection =>
    refine .inl ?_
    rw [owes_syncPhase]
    refine List.any_eq_true.mpr ⟨connection, ((named_eq_some_iff kept.names).mp inMemory).1, ?_⟩
    exact beq_iff_eq.mpr (name_of_named inMemory)
  | none =>
    obtain absent | swapping := kept.absent name inMemory
    · refine .inr (.inl ?_)
      rw [State.Mirrored, inMemory, absent]
      rfl
    · exact .inr (.inr swapping)

theorem syncing (kept : Kept accepts start state) (called : state.requests i = some request)
    {connection : Connection} {rest : List Connection}
    (phase : request.phase = .syncing connection rest)
    (resumed : state.resume accepts i request = some next) : Kept accepts start next := by
  simp only [State.resume, phase, Option.some.injEq] at resumed
  rw [← resumed]
  exact kept.rephase called state.holder (fun inTurn => by cases inTurn)
    (fun _ _ holds => holds) (.idle rfl) (by rw [phase]; rfl)
    (fun name owes => .inl (by rw [phase] at owes; exact owes)) (by rw [phase]; rfl)

theorem storing (kept : Kept accepts start state) (called : state.requests i = some request)
    {write : Write} {connection : Connection} {rest : List Connection}
    (phase : request.phase = .storing write connection rest)
    (fresh : state.readsFresh (.resume i) = true)
    (resumed : state.resume accepts i request = some next) : Kept accepts start next := by
  simp only [State.readsFresh, called, Option.all_some, phase, Bool.and_eq_true, beq_iff_eq] at fresh
  obtain ⟨⟨inMemory, quiet⟩, sees⟩ := fresh
  have swaps : request.phase.isSwapping = false := by rw [phase]; rfl
  have goesOn : ∀ other : Write, Kept accepts start
      (state.put i request (.storing other connection rest)) := fun other =>
    kept.rephase called state.holder (fun inTurn => by cases inTurn) (fun _ _ holds => holds)
      (.idle rfl) swaps (fun name owes => .inl (by rw [phase] at owes; exact owes))
      (by rw [phase]; rfl)
  -- the row is as it is in memory, and the sync goes over to the next connection
  have finishes : ∀ {table : Table}, table.WellFormed →
      (∀ other, other ≠ connection.name → table.find other = state.table.find other) →
      (table.find connection.name).map Row.connection = some connection →
      Kept accepts start { state.put i request (syncPhase rest) with table := table } := by
    intro table wellFormed same written
    refine kept.write called wellFormed same
      (fun inTurn => by simp [inTurn_syncPhase] at inTurn) (fun j other _ found there isOn => ?_)
      (.idle (inTurn_syncPhase _)) swaps (.inl (written.trans inMemory.symm))
      (fun name apart owes => ?_) (by rw [isServed_syncPhase, phase]; rfl)
    · simp [State.quiet, kept.turn j other found there, found, isOn] at quiet
    · rw [phase, Phase.owes, List.any_cons, Bool.or_eq_true, beq_iff_eq] at owes
      rw [owes_syncPhase]
      exact owes.resolve_left (Ne.symm apart)
  simp only [State.resume, phase] at resumed
  cases write with
  | find =>
    obtain ⟨row, found⟩ := Option.isSome_iff_exists.mp sees
    simp only [Table.write, found, Option.some.injEq] at resumed
    exact resumed ▸ goesOn _
  | check id =>
    obtain ⟨row, found, rfl⟩ := find_of_sees sees
    have there : (state.table.rows.any fun other => other.id == row.id) = true :=
      List.any_eq_true.mpr
        ⟨row, ((find_eq_some_iff kept.table).mp found).1, beq_self_eq_true _⟩
    simp only [Table.write, there, if_true, Option.some.injEq] at resumed
    exact resumed ▸ goesOn _
  | set id =>
    obtain ⟨row, found, rfl⟩ := find_of_sees sees
    simp only [Table.write, Option.some.injEq] at resumed
    rw [← resumed]
    refine finishes (kept.table.set row.id connection.config)
      (fun other apart => kept.table.find_set_of_ne found apart) ?_
    rw [kept.table.find_set_self found]
    rfl
  | insert =>
    have missing := Option.isNone_iff_eq_none.mp sees
    simp only [Table.write, missing, Option.isSome_none, Bool.false_eq_true, if_false,
      Option.some.injEq] at resumed
    rw [← resumed]
    refine finishes (kept.table.add missing)
      (fun other apart => kept.table.find_add_of_ne missing apart) ?_
    rw [kept.table.find_add_self missing]
    rfl

theorem step {event : Event} (kept : Kept accepts start state)
    (fresh : state.readsFresh event = true) (stepped : state.step accepts event = some next) :
    Kept accepts start next := by
  cases event with
  | call made =>
    rw [State.step, Option.some.injEq] at stepped
    exact stepped ▸ kept.call made
  | resume i =>
    rw [State.step, Option.bind_eq_some_iff] at stepped
    obtain ⟨request, called, resumed⟩ := stepped
    cases phase : request.phase with
    | entered => exact kept.entered called phase fresh resumed
    | waiting read => exact kept.waiting called phase fresh resumed
    | writing write connection after => exact kept.writing called phase resumed
    | deleting id after => exact kept.deleting called phase resumed
    | swapping after =>
      simp only [State.resume, phase, Option.some.injEq] at resumed
      exact resumed ▸ kept.swap called phase
    | mirroring => exact kept.mirroring called phase resumed
    | syncing connection rest => exact kept.syncing called phase resumed
    | storing write connection rest => exact kept.storing called phase fresh resumed
    | done | failed => simp [State.resume, phase] at resumed

theorem run {events : List Event} (kept : Kept accepts start state)
    (ran : state.runFresh accepts events = some next) : Kept accepts start next := by
  induction events generalizing state with
  | nil => exact Option.some.inj ran ▸ kept
  | cons event events ih =>
    rw [State.runFresh, List.foldlM_cons, Option.bind_eq_bind, Option.bind_eq_some_iff] at ran
    obtain ⟨between, stepped, ran⟩ := ran
    split_ifs at stepped with fresh
    exact ih (kept.step fresh stepped) ran

theorem initial (initial : state.Initial) : Kept accepts state.memory state where
  unmade i _ := initial.idle i
  names := initial.names
  table := initial.table
  turn i request called := by simp [initial.idle i] at called
  fits i request called := by simp [initial.idle i] at called
  mirrored name := by
    left
    have same : ∀ connection, (state.table.find name).map Row.connection = some connection ↔
        named state.memory name = some connection := by
      intro connection
      rw [named_eq_some_iff initial.names, ← initial.mirrored.mem_iff, Option.map_eq_some_iff,
        List.mem_map, ← exists_and_right]
      refine exists_congr fun row => ?_
      rw [find_eq_some_iff initial.table]
      constructor
      · rintro ⟨⟨member, isNamed⟩, rfl⟩
        exact ⟨⟨member, rfl⟩, isNamed⟩
      · rintro ⟨⟨member, rfl⟩, isNamed⟩
        exact ⟨⟨member, isNamed⟩, rfl⟩
    exact Option.ext same
  absent name missing := by
    left
    rw [named_eq_none_iff] at missing
    refine find_key_eq_none.mpr fun there => missing ?_
    obtain ⟨row, member, isNamed⟩ := List.mem_map.mp there
    have inMemory := initial.mirrored.subset (List.mem_map_of_mem member)
    exact List.mem_map.mpr ⟨row.connection, inMemory, isNamed⟩
  serial := ⟨[], List.nodup_nil, by simp [initial.idle], rfl⟩

theorem made_of_called (kept : Kept accepts start state)
    (called : state.requests i = some request) : i < state.made := by
  by_contra unmade
  rw [kept.unmade i (Nat.le_of_not_lt unmade)] at called
  cases called

/-- Once every call has come to an end, memory and the database are in step. -/
theorem inStep (kept : Kept accepts start state) (settled : state.Settled) :
    InStep accepts start state where
  mirrored := by
    have mirrored : ∀ name, state.Mirrored name := by
      intro name
      obtain mirrored | ⟨i, request, called, owes⟩ | ⟨i, request, called, swaps, -⟩ :=
        kept.mirrored name
      · exact mirrored
      · obtain phase | phase := settled i (kept.made_of_called called) request called <;>
          simp [phase, Phase.owes] at owes
      · obtain phase | phase := settled i (kept.made_of_called called) request called <;>
          simp [phase, Phase.isSwapping] at swaps
    exact perm_of_mirrored kept.table kept.names mirrored
  serial := by
    obtain ⟨order, nodup, served, replays⟩ := kept.serial
    refine ⟨order, nodup, fun i call => (served i call).trans ?_, replays⟩
    refine exists_congr fun request => and_congr_right fun called => and_congr_right fun _ => ?_
    obtain phase | phase := settled i (kept.made_of_called called) request called <;>
      simp [phase, Phase.isServed]

end Kept

/-- After events that each find what they have read, once every call has come to an end, memory and
the database have the same connections, those that the calls that succeeded leave one after the
other. -/
theorem inStep_of_runFresh (accepts : Connection → Bool) {state next : State}
    (initial : state.Initial) {events : List Event}
    (ran : state.runFresh accepts events = some next) (settled : next.Settled) :
    InStep accepts state.memory next :=
  ((Kept.initial initial).run ran).inStep settled

/-! ## Calls that have read a row that is stale -/

theorem requests_of_resume (resumed : state.resume accepts i request = some next) :
    (∃ phase, next.requests =
      Function.update state.requests i (some { request with phase := phase })) ∧
      next.made = state.made := by
  unfold State.resume at resumed
  repeat' split at resumed
  all_goals first
    | cases resumed; exact ⟨⟨_, rfl⟩, rfl⟩
    | cases resumed

/-- Only calls that have been made come on. -/
theorem unmade_of_run {events : List Event}
    (unmade : ∀ i, state.made ≤ i → state.requests i = none)
    (ran : state.run accepts events = some next) :
    ∀ i, next.made ≤ i → next.requests i = none := by
  induction events generalizing state with
  | nil => exact Option.some.inj ran ▸ unmade
  | cons event events ih =>
    rw [State.run, List.foldlM_cons, Option.bind_eq_bind, Option.bind_eq_some_iff] at ran
    obtain ⟨between, stepped, ran⟩ := ran
    refine ih (fun i later => ?_) ran
    cases event with
    | call made =>
      rw [State.step, Option.some.injEq] at stepped
      subst stepped
      have isOther : i ≠ state.made := by
        rintro rfl
        exact absurd later (Nat.not_succ_le_self _)
      exact (Function.update_of_ne isOther ..).trans (unmade i ((Nat.le_succ _).trans later))
    | resume j =>
      rw [State.step, Option.bind_eq_some_iff] at stepped
      obtain ⟨request, called, resumed⟩ := stepped
      obtain ⟨⟨phase, requests⟩, made⟩ := requests_of_resume resumed
      rw [made] at later
      have isOther : i ≠ j := by
        rintro rfl
        rw [unmade i later] at called
        cases called
      rw [requests, Function.update_of_ne isOther]
      exact unmade i later

/-- A connection that is updated twice. -/
def stored : Connection := ⟨"warehouse", [("type", .string "postgres"),
  ("postgresConnection", .object [("userName", .string "u"), ("password", .string "old")])]⟩

/-- Its environment. -/
def warehouse : State := { memory := [stored], table := ⟨[⟨0, stored⟩], 1⟩ }

/-- One caller gives it another password. -/
def rotates : Call := .updateConnection "warehouse"
  [("postgresConnection", .object [("userName", .string "u"), ("password", .string "new")])]

/-- Another gives it another resource. -/
def renames : Call := .updateConnection "warehouse" [("resource", .string "r")]

/-- Both read the row, and then each has its turn. -/
def staleRow : List Event :=
  [.call rotates, .call renames, .resume 0, .resume 1] ++
    List.replicate 5 (.resume 0) ++ List.replicate 5 (.resume 1)

/-- The second reads the row after the turn of the first. -/
def freshRow : List Event :=
  [.call rotates, .call renames] ++ List.replicate 6 (.resume 0) ++ List.replicate 6 (.resume 1)

/-- What two calls leave. -/
def State.outcome (state : State) : List Connection × ℕ × Option Request × Option Request :=
  (state.memory, state.made, state.requests 0, state.requests 1)

theorem initial_warehouse : warehouse.Initial where
  names := List.nodup_singleton _
  table := ⟨List.nodup_singleton _, List.nodup_singleton _, by simp [warehouse]⟩
  mirrored := List.Perm.refl _
  free := rfl
  idle _ := rfl

theorem settled_of_outcome {memory : List Connection} {first second : Call}
    (outcome : state.outcome = (memory, 2, some ⟨first, .done⟩, some ⟨second, .done⟩)) :
    state.Settled := by
  simp only [State.outcome, Prod.mk.injEq] at outcome
  obtain ⟨-, made, called, called'⟩ := outcome
  intro i below request found
  left
  rw [made] at below
  interval_cases i
  · rw [← Option.some.inj (called.symm.trans found)]
  · rw [← Option.some.inj (called'.symm.trans found)]

theorem inStep_freshRow : ∃ next, warehouse.runFresh (fun _ => true) freshRow = some next ∧
    InStep (fun _ => true) warehouse.memory next := by
  have ran : (warehouse.runFresh (fun _ => true) freshRow).map State.outcome =
      some ([⟨"warehouse", [("type", .string "postgres"),
        ("postgresConnection", .object [("userName", .string "u"), ("password", .string "new")]),
        ("resource", .string "r")]⟩], 2, some ⟨rotates, .done⟩, some ⟨renames, .done⟩) := by
    decide +kernel
  obtain ⟨next, run, outcome⟩ := Option.map_eq_some_iff.mp ran
  exact ⟨next, run, inStep_of_runFresh _ initial_warehouse run (settled_of_outcome outcome)⟩

/-- What is put back is the password that the first caller has changed. -/
theorem staleRow_loses_update : ¬ ∀ (accepts : Connection → Bool) (state next : State)
    (events : List Event), state.Initial → state.run accepts events = some next → next.Settled →
    InStep accepts state.memory next := by
  intro always
  have ran : (warehouse.run (fun _ => true) staleRow).map State.outcome =
      some ([⟨"warehouse", [("type", .string "postgres"),
        ("postgresConnection", .object [("userName", .string "u"), ("password", .string "old")]),
        ("resource", .string "r")]⟩], 2, some ⟨rotates, .done⟩, some ⟨renames, .done⟩) := by
    decide +kernel
  obtain ⟨next, run, outcome⟩ := Option.map_eq_some_iff.mp ran
  obtain ⟨order, nodup, served, replays⟩ :=
    (always _ _ next staleRow initial_warehouse run (settled_of_outcome outcome)).serial
  simp only [State.outcome, Prod.mk.injEq] at outcome
  obtain ⟨memory, made, called, called'⟩ := outcome
  have members : ∀ entry, entry ∈ order ↔ entry ∈ [(0, rotates), (1, renames)] := by
    rintro ⟨i, call⟩
    rw [served]
    constructor
    · rintro ⟨request, found, rfl, -⟩
      have below : i < 2 := by
        by_contra unmade
        rw [unmade_of_run (fun _ _ => rfl) run i (by omega)] at found
        cases found
      interval_cases i
      · simp [← Option.some.inj (called.symm.trans found)]
      · simp [← Option.some.inj (called'.symm.trans found)]
    · intro listed
      obtain ⟨rfl, rfl⟩ | ⟨rfl, rfl⟩ := by simpa using listed
      · exact ⟨_, called, rfl, rfl⟩
      · exact ⟨_, called', rfl, rfl⟩
  have length : order.length = 2 :=
    ((List.perm_ext_iff_of_nodup nodup (by decide)).mpr members).length_eq
  obtain ⟨first, second, rfl⟩ := List.length_eq_two.mp length
  have apart : first ≠ second := by
    rintro rfl
    simp at nodup
  rw [memory] at replays
  -- in either order the connection is left with the new password
  have isFirst := (members first).mp (by simp)
  have isSecond := (members second).mp (by simp)
  simp only [List.mem_cons, List.not_mem_nil, or_false] at isFirst isSecond
  obtain rfl | rfl := isFirst <;> obtain rfl | rfl := isSecond
  · exact apart rfl
  · revert replays
    decide +kernel
  · revert replays
    decide +kernel
  · exact apart rfl

end MalloyPublisher.Connections