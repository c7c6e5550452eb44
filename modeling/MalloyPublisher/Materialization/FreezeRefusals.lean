import MalloyPublisher.Foundations.CappedWalk
import MalloyPublisher.Gates.NoteSweep

/-!
# What must not be frozen

A source that is materialized is served from one table to everyone. It is refused where its
compiled definition depends on who asks: a parameter without a value, a given, a gate or a partition
marker, anywhere beneath it. The definition is an object graph of the compiler, with sharing and
cycles, and is walked without regard to its shape.

A colocated table keeps its own gate. There a second walk asks whether every gate beneath the
definition is also found without crossing a join; it compares notes by identity and leaves out those
that are bare strings.

## Main definitions

* `IrValue`, `IrNode` — an object graph
* `assertMaterializationEligible` — the refusals
* `isAuthorizeAttributedToEntryPoint` — whether every gate is found without crossing a join
* `NothingMissed`, `Attributed` — what is wanted of the two

## Main results

* `nothingMissed_of_eligible` — what is not refused depends on nobody
* `freezeRefusals_iff` — when the second walk means what it says
* `stringNote_misattributed` — a bare string behind a join is taken for no gate
-/

namespace MalloyPublisher.Materialization

open Foundations Gates

/-! ## Object graphs -/

variable {S : Type*}

inductive IrValue (S : Type*)
  | undefined
  | null
  | boolean (value : Bool)
  | number (value : ℤ)
  | string (value : String)
  | object (node : S)
deriving DecidableEq

inductive IrNode (S : Type*)
  | array (items : List (IrValue S))
  | record (properties : List (String × IrValue S))
deriving DecidableEq

/-- The object a value is, if it is one. -/
def IrValue.object? : IrValue S → Option S
  | .object node => some node
  | _ => none

section Graph

variable (graph : S → IrNode S)

/-- A property of a record. What an array has under a name is nothing. -/
def property (node : S) (key : String) : IrValue S :=
  match graph node with
  | .array _ => .undefined
  | .record properties => (properties.lookup key).getD .undefined

/-- A property of any value. -/
def propertyOf (value : IrValue S) (key : String) : IrValue S :=
  match value with
  | .object node => property graph node key
  | _ => .undefined

/-- The items of a value that is an array. -/
def items? (value : IrValue S) : Option (List (IrValue S)) :=
  match value with
  | .object node => match graph node with
    | .array items => some items
    | .record _ => none
  | _ => none

/-- Whether a value's `length` is more than zero. -/
def hasLength (value : IrValue S) : Bool :=
  match value with
  | .string text => 0 < text.length
  | .object node => match graph node with
    | .array items => 0 < items.length
    | .record properties => match properties.lookup "length" with
      | some (.number length) => 0 < length
      | _ => false
  | _ => false

/-- What a walk goes on to: the items of an array, the values of a record. -/
def children (node : S) : List (IrValue S) :=
  match graph node with
  | .array items => items
  | .record properties => properties.map Prod.snd

/-! ## The walks -/

/-- The deepest level a walk goes to. -/
def MAX_GIVEN_WALK_DEPTH : ℕ := 200

/-- A walk over all of a definition, up to the first node it looks for. -/
def refusalWalker (hit : S → Bool) : Walker (IrValue S) S S where
  node? := IrValue.object?
  hit := hit
  emit _ := []
  next := children graph

/-- A given, or what the compiler says about the givens it reads. -/
def isGivenNode (node : S) : Bool :=
  (match property graph node "node" with
    | .string kind => kind = "given" || kind = "givenReference"
    | _ => false) ||
  (match property graph node "givenRef" with
    | .undefined => false
    | _ => true) ||
    hasLength graph (propertyOf graph (property graph node "refSummary") "givenUsage") ||
    (items? graph (property graph node "givenUsage")).any fun usage => 0 < usage.length

/-- The slots an annotation's notes stand in. -/
def noteSlots : List String := ["blockNotes", "notes"]

/-- What is listed in a slot, if it is an array. -/
def slotNotes (node : S) (slot : String) : List (IrValue S) :=
  (items? graph (property graph node slot)).getD []

/-- The text of a note, a bare string or an object with a text. -/
def noteText (note : IrValue S) : Option String :=
  match note with
  | .string text => some text
  | .object node => match property graph node "text" with
    | .string text => some text
    | _ => none
  | _ => none

variable (routing : NoteRouting)

/-- A note that routes to `authorize`, malformed or not. -/
def isAuthorizeAnnotation (text : String) : Bool :=
  match parseAuthorizeAnnotation routing text with
  | .ok none => false
  | _ => true

def isAuthorizeNode (node : S) : Bool :=
  noteSlots.any fun slot => (slotNotes graph node slot).any fun note =>
    (noteText graph note).any ( isAuthorizeAnnotation routing)

def isPartitionNode (node : S) : Bool :=
  noteSlots.any fun slot => containsPartitionAnnotationTag routing
    ((slotNotes graph node slot).filterMap (noteText graph))

/-- A join: a record with the property, whatever its value. -/
def isJoined (node : S) : Bool :=
  match graph node with
  | .array _ => false
  | .record properties => (properties.lookup "join").isSome

/-- The gate notes of a node that are objects. -/
def authorizeNotes (node : S) : List S :=
  noteSlots.flatMap fun slot => (slotNotes graph node slot).filterMap fun note =>
    if (noteText graph note).any ( isAuthorizeAnnotation routing) then note.object? else none

/-- A walk that collects gate notes and stops at joins unless it is to cross them. -/
def noteWalker (crossJoins : Bool) : Walker (IrValue S) S S where
  node? := IrValue.object?
  hit _ := false
  emit node := if !crossJoins && isJoined graph node then [] else authorizeNotes graph routing node
  next node := if !crossJoins && isJoined graph node then [] else children graph node

variable [DecidableEq S]

/-- A walk's answer; a walk that fails counts as one that found something. -/
def refuses (hit : S → Bool) (sourceDef : IrValue S) : Bool :=
  match (refusalWalker graph hit).walk (MAX_GIVEN_WALK_DEPTH + 1) sourceDef ([], []) with
  | .passed _ => false
  | .hit | .tooDeep => true

def referencesGiven (sourceDef : IrValue S) : Bool := refuses graph (isGivenNode graph) sourceDef

def referencesAuthorize (sourceDef : IrValue S) : Bool :=
  refuses graph (isAuthorizeNode graph routing) sourceDef

def referencesPartition (sourceDef : IrValue S) : Bool :=
  refuses graph (isPartitionNode graph routing) sourceDef

def walkForAuthorizeNotes (crossJoins : Bool) (sourceDef : IrValue S) :
    WalkEnd (List S × List S) :=
  (noteWalker graph routing crossJoins).walk (MAX_GIVEN_WALK_DEPTH + 1) sourceDef ([], [])

/-- Whether every gate note beneath a definition is found without crossing a join. -/
def isAuthorizeAttributedToEntryPoint (sourceDef : IrValue S) : Bool :=
  match walkForAuthorizeNotes graph routing true sourceDef,
    walkForAuthorizeNotes graph routing false sourceDef with
  | .passed (_, deep), .passed (_, noJoins) => deep.all fun note => note ∈ noJoins
  | _, _ => false

/-! ## The refusals -/

structure PersistSource (S : Type*) where
  name : String
  sourceDef : IrValue S

structure MaterializationEligibilityError where
  reason : String
  message : String
deriving DecidableEq

def typeOf : IrValue S → String
  | .undefined => "undefined"
  | .null | .object _ => "object"
  | .boolean _ => "boolean"
  | .number _ => "number"
  | .string _ => "string"

/-- The parameters that are not bound to a value, or why that cannot be said. -/
def unboundParameterNames (sourceDef : IrValue S) : Except String (List String) :=
  match sourceDef with
  | .object node => match property graph node "parameters" with
    | .undefined | .null => .ok []
    | .object parameters => match graph parameters with
      | .array _ => .error "compiled source 'parameters' has an unexpected shape (array)"
      | .record properties => .ok ((properties.filter fun (_, param) =>
          match propertyOf graph param "value" with
          | .undefined | .null => true
          | _ => false).map Prod.fst)
    | other => .error ("compiled source 'parameters' has an unexpected shape (" ++ typeOf other ++ ")")
  | _ => .error "compiled source definition is not readable"

def refusal (reason sourceName detail : String) : MaterializationEligibilityError where
  reason := reason
  message := "Source '" ++ sourceName ++ "' cannot be materialized into a storage destination: " ++
    detail

/-- Refuse a source whose table would depend on who asks. -/
def assertMaterializationEligible (persistSource : PersistSource S) :
    Except MaterializationEligibilityError Unit :=
  let sourceName := persistSource.name
  let sourceDef := persistSource.sourceDef
  match unboundParameterNames graph sourceDef with
  | .error err => .error (refusal "free_parameter" sourceName
      ("its parameter surface could not be determined (" ++ err ++ "), so the publisher cannot " ++
        "prove the source has no free parameters. This is refused for safety. Drop 'storage=' " ++
        "to serve it live from the source warehouse."))
  | .ok (first :: more) => .error (refusal "free_parameter" sourceName
      ("it has unbound parameter(s) " ++
        ", ".intercalate ((first :: more).map fun p => "'" ++ p ++ "'") ++ ". A source with a " ++
        "free parameter is a template instantiated per query, so there is no single relation to " ++
        "materialize. Bind the parameter to a constant, or drop 'storage=' to serve it live from " ++
        "the source warehouse."))
  | .ok [] =>
    if referencesGiven graph sourceDef then .error (refusal "given" sourceName
      ("it references a given. Givens bind per query and are used for row-level access control, " ++
        "so a materialized-once table served to everyone would leak filtered rows across " ++
        "tenants. This is refused for safety. Serve this source live (drop 'storage=')."))
    else if referencesAuthorize graph routing sourceDef then .error (refusal "authorize" sourceName
      ("it is protected by an #(authorize) gate (its own or a joined source's). An authorize " ++
        "expression is evaluated per request; a materialized-once table served frozen carries " ++
        "no gate, so it would be served to everyone, bypassing authorization. This is refused " ++
        "for safety. Serve this source live (drop 'storage=')."))
    else if referencesPartition graph routing sourceDef then .error (refusal "partition" sourceName
      ("it declares a #(partition) marker. A partition filter binds a given at query time (the " ++
        "same mechanism as row-level access control), so a materialized-once table served " ++
        "frozen would leak every partition's rows to every caller. This is refused for safety. " ++
        "Serve this source live (drop 'storage=')."))
    else .ok ()

end Graph

/-! ## What is wanted of them -/

section Wanted

variable (graph : S → IrNode S) (routing : NoteRouting)

/-- A node of a definition: reached through properties and array items. -/
def Beneath (sourceDef : IrValue S) (node : S) : Prop :=
  IsBelow IrValue.object? (children graph) sourceDef node

/-- A node reached without entering a join. -/
def BeneathOutsideJoins (sourceDef : IrValue S) (node : S) : Prop :=
  isJoined graph node = false ∧
    IsBelow IrValue.object? (fun node => if isJoined graph node then [] else children graph node)
      sourceDef node

/-- A node that says a given is read. -/
inductive ReadsGiven (node : S) : Prop
  | given (kind : property graph node "node" = .string "given")
  | reference (kind : property graph node "node" = .string "givenReference")
  | ref (present : property graph node "givenRef" ≠ .undefined)
  | own {usage : List (IrValue S)} (listed : items? graph (property graph node "givenUsage") = some usage)
      (some : usage ≠ [])
  | summary {usage : List (IrValue S)}
      (listed : items? graph (propertyOf graph (property graph node "refSummary") "givenUsage") =
        .some usage) (some : usage ≠ [])

/-- A record lists a note in an array under one of its slots. -/
def ListsNote (holder notes : S) (note : IrValue S) : Prop :=
  ∃ slot ∈ noteSlots, property graph holder slot = .object notes ∧
    ∃ items, graph notes = .array items ∧ note ∈ items

/-- A note is one of a route. -/
def Routes (route : String) (note : IrValue S) : Prop :=
  ∃ text, noteText graph note = some text ∧ noteRoute routing text = some route

/-- Nothing beneath a definition depends on who asks, and none of it is too deep. -/
structure NothingMissed (sourceDef : IrValue S) : Prop where
  givens : ∀ node, Beneath graph sourceDef node → ¬ ReadsGiven graph node
  authorize : ∀ node, Beneath graph sourceDef node → ∀ notes note,
    ListsNote graph node notes note → ¬ Routes graph routing AUTHORIZE_ROUTE note
  partition : ∀ node, Beneath graph sourceDef node → ∀ notes note,
    ListsNote graph node notes note → ¬ Routes graph routing PARTITION_ROUTE note
  shallow : ∀ node, Beneath graph sourceDef node →
    IsBelowWithin IrValue.object? (children graph) MAX_GIVEN_WALK_DEPTH sourceDef node

/-- A note is found outside joins: an object wherever it is listed, a bare string in its array. -/
def FoundOutsideJoins (sourceDef : IrValue S) (notes : S) (note : IrValue S) : Prop :=
  ∃ holder others, BeneathOutsideJoins graph sourceDef holder ∧ ListsNote graph holder others note ∧
    (others = notes ∨ ∃ node, note = .object node)

/-- Every gate beneath a definition is found outside joins. -/
def Attributed (sourceDef : IrValue S) : Prop :=
  ∀ node notes note, Beneath graph sourceDef node → ListsNote graph node notes note →
    Routes graph routing AUTHORIZE_ROUTE note → FoundOutsideJoins graph sourceDef notes note

end Wanted

/-! ## What is not refused -/

section Refusals

variable {graph : S → IrNode S} {routing : NoteRouting} {sourceDef : IrValue S} {node notes : S}
variable {note : IrValue S}

theorem isAuthorizeAnnotation_iff {text : String} : isAuthorizeAnnotation routing text = true ↔
    noteRoute routing text = some AUTHORIZE_ROUTE := by
  have parsed := parseAuthorizeAnnotation_eq_none_iff routing text
  have content : authorizeNoteContent routing text = none ↔
      noteRoute routing text ≠ some AUTHORIZE_ROUTE := by
    rw [authorizeNoteContent]
    split_ifs with same <;> simp [same]
  rw [content] at parsed
  unfold isAuthorizeAnnotation
  split
  · rename_i none
    simpa using parsed.mp none
  · rename_i other
    simpa using fun routes => other (parsed.mpr routes)

theorem ListsNote.mem_slotNotes (lists : ListsNote graph node notes note) :
    ∃ slot ∈ noteSlots, note ∈ slotNotes graph node slot := by
  obtain ⟨slot, isSlot, isNotes, items, isArray, listed⟩ := lists
  exact ⟨slot, isSlot, by simpa [slotNotes, items?, isNotes, isArray] using listed⟩

theorem exists_listsNote {slot : String} (isSlot : slot ∈ noteSlots)
    (listed : note ∈ slotNotes graph node slot) : ∃ notes, ListsNote graph node notes note := by
  unfold slotNotes items? at listed
  cases isNotes : property graph node slot with
  | object notes =>
    cases isArray : graph notes with
    | array items => exact ⟨notes, slot, isSlot, isNotes, items, isArray, by
        simpa [isNotes, isArray] using listed⟩
    | record properties => simp [isNotes, isArray] at listed
  | _ => simp [isNotes] at listed

theorem isGivenNode_of_readsGiven (reads : ReadsGiven graph node) :
    isGivenNode graph node = true := by
  unfold isGivenNode
  cases reads with
  | given kind => simp [kind]
  | reference kind => simp [kind]
  | ref present =>
    cases ref : property graph node "givenRef" with
    | undefined => exact absurd ref present
    | _ => simp
  | own listed some => simp [listed, List.length_pos_iff, some]
  | @summary usage listed some =>
    have long : hasLength graph
        (propertyOf graph (property graph node "refSummary") "givenUsage") = true := by
      unfold items? at listed
      cases summary : propertyOf graph (property graph node "refSummary") "givenUsage" with
      | object found =>
        cases isArray : graph found with
        | array items =>
          simp only [summary, isArray, Option.some.injEq] at listed
          simp [hasLength, isArray, listed, List.length_pos_iff, some]
        | record properties => simp [summary, isArray] at listed
      | _ => simp [summary] at listed
    simp [long]

theorem isAuthorizeNode_of_lists (lists : ListsNote graph node notes note)
    (routes : Routes graph routing AUTHORIZE_ROUTE note) :
    isAuthorizeNode graph routing node = true := by
  obtain ⟨slot, isSlot, listed⟩ := lists.mem_slotNotes
  obtain ⟨text, hasText, route⟩ := routes
  refine List.any_eq_true.mpr ⟨slot, isSlot, List.any_eq_true.mpr ⟨note, listed, ?_⟩⟩
  rw [hasText]
  exact isAuthorizeAnnotation_iff.mpr route

theorem isPartitionNode_of_lists (lists : ListsNote graph node notes note)
    (routes : Routes graph routing PARTITION_ROUTE note) :
    isPartitionNode graph routing node = true := by
  obtain ⟨slot, isSlot, listed⟩ := lists.mem_slotNotes
  obtain ⟨text, hasText, route⟩ := routes
  refine List.any_eq_true.mpr ⟨slot, isSlot, List.any_eq_true.mpr ⟨text, ?_, by simpa using route⟩⟩
  exact List.mem_filterMap.mpr ⟨note, listed, hasText⟩

variable [DecidableEq S]

/-- A walk that refuses nothing has looked at everything. -/
theorem clear_of_refuses {hit : S → Bool} (clear : refuses graph hit sourceDef = false)
    (beneath : Beneath graph sourceDef node) : hit node = false ∧
      IsBelowWithin IrValue.object? (children graph) MAX_GIVEN_WALK_DEPTH sourceDef node := by
  unfold refuses at clear
  cases walked : (refusalWalker graph hit).walk (MAX_GIVEN_WALK_DEPTH + 1) sourceDef ([], []) with
  | tooDeep => simp [walked] at clear
  | hit => simp [walked] at clear
  | passed result => exact (Walker.walk_passed walked).1 node beneath

/-- What is not refused depends on nobody. -/
theorem nothingMissed_of_eligible {source : PersistSource S}
    (eligible : assertMaterializationEligible graph routing source = .ok ()) :
    NothingMissed graph routing source.sourceDef := by
  unfold assertMaterializationEligible at eligible
  simp only at eligible
  split at eligible
  · cases eligible
  · cases eligible
  · split_ifs at eligible with given authorize partition
    have givens := eq_false_of_ne_true given
    have gates := eq_false_of_ne_true authorize
    have markers := eq_false_of_ne_true partition
    refine ⟨fun node beneath reads => ?_, fun node beneath notes note lists routes => ?_,
      fun node beneath notes note lists routes => ?_,
      fun node beneath => (clear_of_refuses givens beneath).2⟩
    · exact ne_false_of_eq_true (isGivenNode_of_readsGiven reads)
        (clear_of_refuses givens beneath).1
    · exact ne_false_of_eq_true (isAuthorizeNode_of_lists lists routes)
        (clear_of_refuses gates beneath).1
    · exact ne_false_of_eq_true (isPartitionNode_of_lists lists routes)
        (clear_of_refuses markers beneath).1

/-! ## What is attributed -/

omit [DecidableEq S] in
theorem mem_authorizeNotes {gate : S} : gate ∈ authorizeNotes graph routing node ↔
    ∃ notes, ListsNote graph node notes (.object gate) ∧
      Routes graph routing AUTHORIZE_ROUTE (.object gate) := by
  simp only [authorizeNotes, List.mem_flatMap, List.mem_filterMap]
  constructor
  · rintro ⟨slot, isSlot, note, listed, kept⟩
    split_ifs at kept with gated
    cases note with
    | object itself =>
      obtain rfl := Option.some.inj kept
      obtain ⟨notes, lists⟩ := exists_listsNote isSlot listed
      cases hasText : noteText graph (.object itself) with
      | none => simp [hasText] at gated
      | some text =>
        rw [hasText, Option.any_some] at gated
        exact ⟨notes, lists, text, hasText, isAuthorizeAnnotation_iff.mp gated⟩
    | _ => cases kept
  · rintro ⟨notes, lists, text, hasText, route⟩
    obtain ⟨slot, isSlot, listed⟩ := lists.mem_slotNotes
    refine ⟨slot, isSlot, _, listed, ?_⟩
    rw [hasText, Option.any_some, if_pos (isAuthorizeAnnotation_iff.mpr route)]
    rfl

/-- What the walk across joins collects. -/
theorem mem_deep {entered deep : List S}
    (walked : walkForAuthorizeNotes graph routing true sourceDef = .passed (entered, deep))
    (gate : S) : gate ∈ deep ↔ ∃ node notes, Beneath graph sourceDef node ∧
      ListsNote graph node notes (.object gate) ∧
        Routes graph routing AUTHORIZE_ROUTE (.object gate) := by
  rw [(Walker.walk_passed walked).2 gate]
  refine exists_congr fun node => ?_
  rw [show (noteWalker graph routing true).emit node = authorizeNotes graph routing node from rfl,
    mem_authorizeNotes, ← exists_and_left]
  exact Iff.rfl

/-- What the walk that stops at joins collects. -/
theorem mem_noJoins {entered noJoins : List S}
    (walked : walkForAuthorizeNotes graph routing false sourceDef = .passed (entered, noJoins))
    (gate : S) : gate ∈ noJoins ↔ ∃ node notes, BeneathOutsideJoins graph sourceDef node ∧
      ListsNote graph node notes (.object gate) ∧
        Routes graph routing AUTHORIZE_ROUTE (.object gate) := by
  rw [(Walker.walk_passed walked).2 gate]
  refine exists_congr fun node => ?_
  have emits : gate ∈ (noteWalker graph routing false).emit node ↔
      isJoined graph node = false ∧ gate ∈ authorizeNotes graph routing node := by
    cases joined : isJoined graph node <;> simp [noteWalker, joined]
  have goes : (noteWalker graph routing false).next =
      fun node => if isJoined graph node then [] else children graph node := by
    funext node
    simp [noteWalker]
  rw [emits, mem_authorizeNotes, goes]
  constructor
  · rintro ⟨beneath, outside, notes, lists, routes⟩
    exact ⟨notes, ⟨outside, beneath⟩, lists, routes⟩
  · rintro ⟨notes, ⟨outside, beneath⟩, lists, routes⟩
    exact ⟨beneath, outside, notes, lists, routes⟩

/-- The answer is yes where both walks pass and all gates that are objects are found. -/
theorem isAuthorizeAttributedToEntryPoint_iff :
    isAuthorizeAttributedToEntryPoint graph routing sourceDef = true ↔
      walkForAuthorizeNotes graph routing true sourceDef ≠ .tooDeep ∧
      walkForAuthorizeNotes graph routing false sourceDef ≠ .tooDeep ∧
      ∀ node notes gate, Beneath graph sourceDef node → ListsNote graph node notes (.object gate) →
        Routes graph routing AUTHORIZE_ROUTE (.object gate) →
          FoundOutsideJoins graph sourceDef notes (.object gate) := by
  unfold isAuthorizeAttributedToEntryPoint
  cases deepWalk : walkForAuthorizeNotes graph routing true sourceDef with
  | tooDeep => simp
  | hit => exact absurd deepWalk (Walker.walk_ne_hit (fun _ => rfl) _ _ _)
  | passed result =>
    cases noJoinsWalk : walkForAuthorizeNotes graph routing false sourceDef with
    | tooDeep => simp
    | hit => exact absurd noJoinsWalk (Walker.walk_ne_hit (fun _ => rfl) _ _ _)
    | passed result' =>
      obtain ⟨entered, deep⟩ := result
      obtain ⟨entered', noJoins⟩ := result'
      simp only [ne_eq, reduceCtorEq, not_false_eq_true, true_and, List.all_eq_true,
        decide_eq_true_eq]
      constructor
      · intro all node notes gate beneath lists routes
        have found := all gate ((mem_deep deepWalk gate).mpr ⟨node, notes, beneath, lists, routes⟩)
        obtain ⟨holder, others, outside, lists, -⟩ := (mem_noJoins noJoinsWalk gate).mp found
        exact ⟨holder, others, outside, lists, .inr ⟨gate, rfl⟩⟩
      · intro all gate member
        obtain ⟨node, notes, beneath, lists, routes⟩ := (mem_deep deepWalk gate).mp member
        obtain ⟨holder, others, outside, lists, -⟩ := all node notes gate beneath lists routes
        exact (mem_noJoins noJoinsWalk gate).mpr ⟨holder, others, outside, lists, routes⟩

/-- What is not refused depends on nobody, and the second walk means what it says exactly where
every bare string that is a gate is found outside joins, or another gate is not, or the definition
is too deep to be walked. -/
theorem freezeRefusals_iff (graph : S → IrNode S) (routing : NoteRouting)
    (source : PersistSource S) :
    ((assertMaterializationEligible graph routing source = .ok () →
        NothingMissed graph routing source.sourceDef) ∧
      (isAuthorizeAttributedToEntryPoint graph routing source.sourceDef = true →
        Attributed graph routing source.sourceDef)) ↔
    (∀ node notes text, Beneath graph source.sourceDef node →
        ListsNote graph node notes (.string text) →
        Routes graph routing AUTHORIZE_ROUTE (.string text) →
          FoundOutsideJoins graph source.sourceDef notes (.string text)) ∨
      (∃ node notes gate, Beneath graph source.sourceDef node ∧
        ListsNote graph node notes (.object gate) ∧
        Routes graph routing AUTHORIZE_ROUTE (.object gate) ∧
          ¬ FoundOutsideJoins graph source.sourceDef notes (.object gate)) ∨
      walkForAuthorizeNotes graph routing true source.sourceDef = .tooDeep ∨
      walkForAuthorizeNotes graph routing false source.sourceDef = .tooDeep := by
  constructor
  · rintro ⟨-, attributed⟩
    by_cases yes : isAuthorizeAttributedToEntryPoint graph routing source.sourceDef = true
    · exact .inl fun node notes text beneath lists routes =>
        attributed yes node notes _ beneath lists routes
    · rw [isAuthorizeAttributedToEntryPoint_iff] at yes
      by_contra other
      simp only [not_or, not_exists, not_and, not_not] at other
      obtain ⟨-, found, deep, noJoins⟩ := other
      exact yes ⟨deep, noJoins, found⟩
  · intro condition
    refine ⟨nothingMissed_of_eligible, fun yes node notes note beneath lists routes => ?_⟩
    obtain ⟨deep, noJoins, found⟩ := isAuthorizeAttributedToEntryPoint_iff.mp yes
    cases note with
    | object gate => exact found node notes gate beneath lists routes
    | string text =>
      obtain strings | ⟨other, others, gate, below, listed, gated, missed⟩ | tooDeep | tooDeep :=
        condition
      · exact strings node notes text beneath lists routes
      · exact absurd (found other others gate below listed gated) missed
      · exact absurd tooDeep deep
      · exact absurd tooDeep noJoins
    | _ =>
      obtain ⟨text, hasText, -⟩ := routes
      cases hasText

end Refusals

/-! ## A bare string behind a join -/

/-- A gate, to the compiler. -/
def gateRouting : NoteRouting where
  routeOf text := if text = "#(authorize) false" then some "authorize" else none
  payloadOf _ := none

/-- A source that joins one whose gate is a bare string. -/
def joinedGate : Fin 5 → IrNode (Fin 5)
  | 0 => .record [("type", .string "table"), ("fields", .object 1)]
  | 1 => .array [.object 2]
  | 2 => .record [("join", .string "one"), ("annotations", .object 3)]
  | 3 => .record [("blockNotes", .object 4)]
  | 4 => .array [.string "#(authorize) false"]

/-- What is reached without entering the join. -/
theorem joinedGate_outside {value : IrValue (Fin 5)} {node : Fin 5}
    (below : IsBelow IrValue.object?
      (fun node => if isJoined joinedGate node then [] else children joinedGate node) value node)
    (start : value ∈ [.object 0, .object 1, .object 2, .string "table"]) : node ≠ 3 := by
  induction below with
  | here isNode =>
    rintro rfl
    revert start
    simp only [List.mem_cons, List.not_mem_nil, or_false]
    rintro (rfl | rfl | rfl | rfl) <;> simp [IrValue.object?] at isNode
  | @beyond value child node target isNode isChild _ ih =>
    have closed : ∀ node ∈ ([0, 1, 2] : List (Fin 5)),
        ∀ child ∈ (if isJoined joinedGate node then [] else children joinedGate node),
          child ∈ [.object 0, .object 1, .object 2, .string "table"] := by decide
    refine ih (closed node ?_ child isChild)
    simp only [List.mem_cons, List.not_mem_nil, or_false] at start
    obtain rfl | rfl | rfl | rfl := start <;> cases isNode <;> decide

theorem stringNote_misattributed : ¬ ∀ (graph : Fin 5 → IrNode (Fin 5)) (routing : NoteRouting)
    (source : PersistSource (Fin 5)),
    (assertMaterializationEligible graph routing source = .ok () →
      NothingMissed graph routing source.sourceDef) ∧
    (isAuthorizeAttributedToEntryPoint graph routing source.sourceDef = true →
      Attributed graph routing source.sourceDef) := by
  intro all
  have attributed := (all joinedGate gateRouting ⟨"orders", .object 0⟩).2 (by decide)
  have beneath : Beneath joinedGate (.object 0) 3 :=
    .beyond rfl (.tail _ (.head _))
      (.beyond rfl (.head _) (.beyond rfl (.tail _ (.head _)) (.here rfl)))
  have lists : ListsNote joinedGate 3 4 (.string "#(authorize) false") :=
    ⟨"blockNotes", .head _, rfl, _, rfl, .head _⟩
  obtain ⟨holder, others, ⟨-, below⟩, ⟨slot, isSlot, isNotes, -⟩, rfl | ⟨node, isObject⟩⟩ :=
    attributed 3 4 _ beneath lists ⟨_, rfl, by decide⟩
  · have only : ∀ holder : Fin 5, ∀ slot ∈ noteSlots,
        property joinedGate holder slot = .object 4 → holder = 3 := by decide
    exact joinedGate_outside below (.head _) (only holder slot isSlot isNotes)
  · cases isObject

end MalloyPublisher.Materialization
