import MalloyPublisher.Serving.RollupBindings
import MalloyPublisher.Foundations.SuspendedMemo

/-!
# The memoised serve shape

A routed query computes the bindings that are fresh now, and takes the memoised shape if it
was compiled under their key. Else it compiles one and is suspended meanwhile, then fills
the memo. The bindings, the destinations and the rollup plans may be set in between. The
setters empty the memo, but a query that is suspended still fills it with what it began.

The key names the fresh bindings and the version of the plans; the schemas and the
destinations are not in it. So a shape that is filled in after a rebind, under a key that
is still asked for, is taken by queries that start after the rebind.

## Main definitions

* `serveShapeKey` — the key of a shape
* `modelStep` — one step of a model's queries and setters
* `ShapeAgrees` — what the shape that a query loads its text into was compiled from

## Main results

* `serveShapeKey_unambiguous` — of one set of bindings, a key stands for one fresh set
* `shapeAgrees_of_run` — in a run without a late fill that is asked for, every shape agrees
-/

namespace MalloyPublisher.Serving

open Foundations

/-! ## Keys -/

section Keys

variable (parse : String → Option ℤ)

/-- A binding as the freshness gate reads it. -/
def ServeBinding.gated (binding : ServeBinding) : FreshnessAwareManifestEntry where
  tableName := binding.tablePath
  dataAsOf := binding.freshAsOf
  freshnessWindowSeconds := binding.freshnessWindowSeconds
  freshnessFallback := binding.freshnessFallback

/-- Whether a binding may be served from its table now. -/
def servesTable (now : ℤ) (binding : ServeBinding) : Bool :=
  evaluateManifestFreshness parse binding.gated now = .serveTable

def freshServeBindings (serveBindings : List ServeBinding) (now : ℤ) : List ServeBinding :=
  serveBindings.filter (servesTable parse now)

/-- How a key names a binding. -/
def bindingKey (binding : ServeBinding) : String :=
  binding.sourceName ++ "@" ++ binding.destinationName ++ "/" ++ binding.virtualHandle

def serveShapeKey (preaggregatePlansVersion : ℕ) (freshBindings : List ServeBinding) : String :=
  "v" ++ toString preaggregatePlansVersion ++ "|" ++
    "|".intercalate ((freshBindings.map bindingKey).mergeSort fun a b => !stringLess b a)

/-- What the names of a key take of it, each with its separator. -/
def keyWeight (bindings : List ServeBinding) : ℕ :=
  (bindings.map fun binding => (bindingKey binding).length + 1).sum

variable {parse} {bindings part : List ServeBinding}

theorem length_intercalate_bar (names : List String) :
    ("|".intercalate names).length + (if names = [] then 0 else 1) =
      (names.map fun name => name.length + 1).sum := by
  induction names with
  | nil => rfl
  | cons name names ih =>
    cases names with
    | nil => simp
    | cons next names =>
      rw [String.intercalate_cons_cons, String.length_append, String.length_append, List.map_cons,
        List.sum_cons, ← ih]
      have bar : "|".length = 1 := rfl
      simp only [bar, reduceCtorEq, if_false]
      omega

theorem serveShapeKey_length (version : ℕ) (bindings : List ServeBinding) :
    (serveShapeKey version bindings).length + (if bindings = [] then 0 else 1) =
      ("v" ++ toString version ++ "|").length + keyWeight bindings := by
  have names := length_intercalate_bar
    ((bindings.map bindingKey).mergeSort fun a b => !stringLess b a)
  have weight := ((List.mergeSort_perm (bindings.map bindingKey)
    fun a b => !stringLess b a).map fun name => name.length + 1).sum_nat
  rw [List.map_map] at weight
  have none : (bindings.map bindingKey).mergeSort (fun a b => !stringLess b a) = [] ↔
      bindings = [] := by
    rw [← List.length_eq_zero_iff, List.length_mergeSort, List.length_map, List.length_eq_zero_iff]
  simp only [none] at names
  rw [serveShapeKey, String.length_append, Nat.add_assoc, names, weight]
  rfl

theorem two_lt_keyWeight (some : bindings ≠ []) : 2 < keyWeight bindings := by
  obtain ⟨binding, rest, rfl⟩ := List.exists_cons_of_ne_nil some
  have marks : 2 ≤ (bindingKey binding).length := by
    have at_ : "@".length = 1 := rfl
    have slash : "/".length = 1 := rfl
    simp only [bindingKey, String.length_append, at_, slash]
    omega
  rw [keyWeight, List.map_cons, List.sum_cons]
  omega

theorem keyWeight_le (sublist : List.Sublist part bindings) :
    keyWeight part ≤ keyWeight bindings := by
  induction sublist with
  | slnil => exact le_rfl
  | cons binding _ ih => exact ih.trans (by simp [keyWeight])
  | cons_cons binding _ ih => simpa [keyWeight] using ih

/-- A part of some bindings takes as much of a key only where it is all of them. -/
theorem eq_of_keyWeight_eq (sublist : List.Sublist part bindings)
    (same : keyWeight part = keyWeight bindings) : part = bindings := by
  induction sublist with
  | slnil => rfl
  | cons binding sublist ih =>
    have less := keyWeight_le sublist
    simp only [keyWeight, List.map_cons, List.sum_cons] at same less
    omega
  | cons_cons binding _ ih =>
    rw [ih]
    simpa [keyWeight] using same

theorem keyWeight_eq_of_key {version : ℕ} {other : List ServeBinding}
    (same : serveShapeKey version bindings = serveShapeKey version other) :
    keyWeight bindings = keyWeight other := by
  have here := serveShapeKey_length version bindings
  have there := serveShapeKey_length version other
  have zero : keyWeight [] = 0 := rfl
  rw [← same] at there
  by_cases none : bindings = [] <;> by_cases none' : other = []
  · rw [none, none']
  · have weight := two_lt_keyWeight none'
    subst none
    simp only [none', if_true, if_false, zero] at here there ⊢
    omega
  · have weight := two_lt_keyWeight none
    subst none'
    simp only [none, if_true, if_false, zero] at here there ⊢
    omega
  · simp only [none, none', if_false] at here there
    omega

/-- What may be served later may be served now. -/
theorem servesTable_of_later {now later : ℤ} (passes : now ≤ later) {binding : ServeBinding}
    (serves : servesTable parse later binding = true) : servesTable parse now binding = true := by
  cases decision : evaluateManifestFreshness parse binding.gated now with
  | serveTable => exact decide_eq_true decision
  | serveLive =>
    -- Stale now is stale later.
    rw [evaluateManifestFreshness_eq_serveLive_iff] at decision
    have still := evaluateManifestFreshness_eq_serveLive_iff.mpr
      ⟨decision.1.later passes, decision.2⟩
    rw [servesTable, still] at serves
    cases serves

theorem freshServeBindings_sublist {now later : ℤ} (passes : now ≤ later)
    (bindings : List ServeBinding) :
    List.Sublist (freshServeBindings parse bindings later) (freshServeBindings parse bindings now) := by
  have fewer : freshServeBindings parse bindings later =
      (freshServeBindings parse bindings now).filter (servesTable parse later) := by
    unfold freshServeBindings
    rw [List.filter_filter]
    refine List.filter_congr fun binding _ => ?_
    by_cases serves : servesTable parse later binding = true
    · simp [serves, servesTable_of_later passes serves]
    · simp [serves]
  rw [fewer]
  exact List.filter_sublist

/-- Of one set of bindings, a key stands for one fresh set. -/
theorem serveShapeKey_unambiguous {version : ℕ} {now later : ℤ}
    (same : serveShapeKey version (freshServeBindings parse bindings now) =
      serveShapeKey version (freshServeBindings parse bindings later)) :
    freshServeBindings parse bindings now = freshServeBindings parse bindings later := by
  rcases le_total now later with passes | passes
  · exact (eq_of_keyWeight_eq (freshServeBindings_sublist passes bindings)
      (keyWeight_eq_of_key same.symm)).symm
  · exact eq_of_keyWeight_eq (freshServeBindings_sublist passes bindings) (keyWeight_eq_of_key same)

end Keys

/-! ## A model's queries and setters -/

/-- What is in force in a model: the parts its setters set. -/
structure ServeInputs (C : Type*) where
  serveBindings : List ServeBinding
  serveDestinationConfig : C
  preaggregateRollupPlans : List RollupPlan
  preaggregatePlansVersion : ℕ

/-- What a materializer was compiled from. -/
structure ShapeSources (C : Type*) where
  freshBindings : List ServeBinding
  rollupPlans : List RollupPlan
  destinationConfig : C

/-- The steps of a model. Those of one suspended query are told apart by its place among
the queries that are suspended. -/
inductive ModelEvent (C : Type*)
  | loadServeShapeQuery (now : ℤ)
  /-- A rung has failed: the next is compiled, against the destinations of now. -/
  | nextTier (who : ℕ)
  | compiled (who : ℕ)
  | compileFailed (who : ℕ)
  | setServeBindings (bindings : List ServeBinding)
  | setServeDestinationConfig (config : C)
  /-- The destinations that the provider answers have been replaced. -/
  | invalidateServeShapeCache (config : C)
  | buildPreaggregateServeModel (plans : List RollupPlan)

/-- A model's memo: who is suspended, what is held, what has been taken. -/
abbrev ModelState (C : Type*) := MemoState (ServeInputs C) ℤ String (ShapeSources C)

section Model

variable {C : Type*} (parse : String → Option ℤ) (hasModelDef : Bool)

def inputsKey (inputs : ServeInputs C) (now : ℤ) : String :=
  serveShapeKey inputs.preaggregatePlansVersion (freshServeBindings parse inputs.serveBindings now)

def shapeSources (inputs : ServeInputs C) (now : ℤ) : ShapeSources C where
  freshBindings := freshServeBindings parse inputs.serveBindings now
  rollupPlans := inputs.preaggregateRollupPlans
  destinationConfig := inputs.serveDestinationConfig

/-- Each rung is compiled against the destinations its materializer is built with. -/
def onDestinationsOf (inputs : ServeInputs C) (sources : ShapeSources C) : ShapeSources C :=
  { sources with destinationConfig := inputs.serveDestinationConfig }

/-- What a step of the model is to its memo. -/
def memoEvent (inputs : ServeInputs C) : ModelEvent C → Option (MemoEvent (ServeInputs C) ℤ)
  | .loadServeShapeQuery now =>
    -- Without a fresh binding the query throws and is answered live.
    if (freshServeBindings parse inputs.serveBindings now).isEmpty then none else some (.ask now)
  | .nextTier who => some (.advance who)
  | .compiled who => some (.resume who)
  | .compileFailed who => some (.abandon who)
  | .setServeBindings bindings => some (.change { inputs with serveBindings := bindings })
  | .setServeDestinationConfig config =>
    some (.change { inputs with serveDestinationConfig := config })
  | .invalidateServeShapeCache config =>
    some (.change { inputs with serveDestinationConfig := config })
  | .buildPreaggregateServeModel plans =>
    if hasModelDef then
      some (.change
        { inputs with
          preaggregateRollupPlans := plans
          preaggregatePlansVersion := inputs.preaggregatePlansVersion + 1 })
    else some (.change { inputs with preaggregateRollupPlans := [] })

def modelStep (state : ModelState C) (event : ModelEvent C) : ModelState C :=
  match memoEvent parse hasModelDef state.inputs event with
  | some event => state.step (inputsKey parse) (shapeSources parse) onDestinationsOf event
  | none => state

def modelRun (state : ModelState C) (events : List (ModelEvent C)) : ModelState C :=
  events.foldl (modelStep parse hasModelDef) state

/-- The shape a query loads its text into was compiled from the fresh bindings and plans in
force when the query computed its fresh set, and destinations of then or later; and not
before the query started. -/
def ShapeAgrees (history : List (ServeInputs C)) (load : Taken ℤ (ShapeSources C)) : Prop :=
  ∃ inputs, history[load.startedIn]? = some inputs ∧
    load.value.freshBindings = freshServeBindings parse inputs.serveBindings load.now ∧
    load.value.rollupPlans = inputs.preaggregateRollupPlans ∧
    (∃ later ∈ history.drop load.startedIn,
      load.value.destinationConfig = later.serveDestinationConfig) ∧
    load.startedIn ≤ load.madeIn

/-- A compile that ends fills the memo in time: nothing was set since it began, or nobody
can ask for its key any more. -/
def FillsInTime (state : ModelState C) : ModelEvent C → Prop
  | .compiled who => ∀ made, state.suspended[who]? = some made →
      made.startedIn = state.epoch ∨ ∀ now, inputsKey parse state.inputs now ≠ made.key
  | _ => True

/-- Every compile of a run fills the memo in time. -/
def RunFillsInTime : ModelState C → List (ModelEvent C) → Prop
  | _, [] => True
  | state, event :: events => FillsInTime parse state event ∧
      RunFillsInTime (modelStep parse hasModelDef state event) events

variable {parse hasModelDef} {state : ModelState C}

theorem harmless_of_fillsInTime {event : ModelEvent C} (inTime : FillsInTime parse state event)
    {step : MemoEvent (ServeInputs C) ℤ}
    (same : memoEvent parse hasModelDef state.inputs event = some step) :
    MemoState.Harmless (inputsKey parse) state step := by
  cases event with
  | compiled who =>
    cases same
    exact inTime
  | loadServeShapeQuery now =>
    simp only [memoEvent] at same
    split at same
    · cases same
    · cases same
      trivial
  | buildPreaggregateServeModel plans =>
    simp only [memoEvent] at same
    split at same <;> cases same <;> trivial
  | nextTier who => cases same; trivial
  | compileFailed who => cases same; trivial
  | setServeBindings bindings => cases same; trivial
  | setServeDestinationConfig config => cases same; trivial
  | invalidateServeShapeCache config => cases same; trivial

theorem sound_modelStep {event : ModelEvent C}
    (sound : MemoState.Sound (inputsKey parse) (shapeSources parse) onDestinationsOf state)
    (inTime : FillsInTime parse state event) :
    MemoState.Sound (inputsKey parse) (shapeSources parse) onDestinationsOf
      (modelStep parse hasModelDef state event) := by
  unfold modelStep
  split
  · rename_i step same
    refine sound.step (fun inputs now later keys => ?_) (fun _ _ => rfl)
      (harmless_of_fillsInTime inTime same)
    unfold shapeSources
    rw [serveShapeKey_unambiguous keys]
  · exact sound

theorem sound_modelRun {events : List (ModelEvent C)}
    (sound : MemoState.Sound (inputsKey parse) (shapeSources parse) onDestinationsOf state)
    (inTime : RunFillsInTime parse hasModelDef state events) :
    MemoState.Sound (inputsKey parse) (shapeSources parse) onDestinationsOf
      (modelRun parse hasModelDef state events) := by
  induction events generalizing state with
  | nil => exact sound
  | cons event events ih => exact ih (sound_modelStep sound inTime.1) inTime.2

/-- Destinations are all that a suspended compile reads again. -/
theorem foldl_onDestinationsOf (reread : List (ServeInputs C)) (sources : ShapeSources C) :
    let ended := reread.foldl (fun sources later => onDestinationsOf later sources) sources
    ended.freshBindings = sources.freshBindings ∧ ended.rollupPlans = sources.rollupPlans ∧
      (ended.destinationConfig = sources.destinationConfig ∨
        ∃ later ∈ reread, ended.destinationConfig = later.serveDestinationConfig) := by
  induction reread generalizing sources with
  | nil => exact ⟨rfl, rfl, .inl rfl⟩
  | cons inputs reread ih =>
    obtain ⟨fresh, plans, config⟩ := ih (onDestinationsOf inputs sources)
    refine ⟨fresh, plans, .inr ?_⟩
    rcases config with here | ⟨later, member, there⟩
    · exact ⟨inputs, List.mem_cons_self, here⟩
    · exact ⟨later, List.mem_cons_of_mem _ member, there⟩

theorem shapeAgrees_of_agrees {history : List (ServeInputs C)} {load : Taken ℤ (ShapeSources C)}
    (agrees : MemoState.Agrees (shapeSources parse) onDestinationsOf history load) :
    ShapeAgrees parse history load := by
  obtain ⟨⟨inputs, started, reread, later, value⟩, begun⟩ := agrees
  obtain ⟨fresh, plans, config⟩ := foldl_onDestinationsOf reread (shapeSources parse inputs load.now)
  rw [← value] at fresh plans config
  refine ⟨inputs, started, fresh, plans, ?_, begun⟩
  rcases config with here | ⟨other, member, there⟩
  · refine ⟨inputs, ?_, here⟩
    obtain ⟨within, same⟩ := List.getElem?_eq_some_iff.mp started
    rw [List.drop_eq_getElem_cons within, same]
    exact List.mem_cons_self
  · exact ⟨other, later other member, there⟩

/-- In every run in which no compile fills the memo late under a key that can be asked for,
every shape that a query loads agrees. -/
theorem shapeAgrees_of_run (inputs : ServeInputs C) (events : List (ModelEvent C))
    (inTime : RunFillsInTime parse hasModelDef (MemoState.initial inputs) events) :
    let reached := modelRun parse hasModelDef (MemoState.initial inputs) events
    ∀ load ∈ reached.taken, ShapeAgrees parse reached.history load := by
  intro reached load member
  exact shapeAgrees_of_agrees
    ((sound_modelRun (MemoState.sound_initial inputs) inTime).taken load member)

end Model

/-- A table over a handle, with a captured schema. -/
def storedOrders (schema : List Column) : ServeBinding where
  sourceName := "orders"
  origin := .persist
  destinationName := "lake"
  virtualHandle := "e1"
  tablePath := "lake.orders"
  schema := schema
  refinements := none
  freshAsOf := none
  freshnessWindowSeconds := none
  freshnessFallback := none

/-- A model that serves a stored source from one destination. -/
def ordersModel : ServeInputs Unit where
  serveBindings := [storedOrders [⟨"status", "VARCHAR"⟩]]
  serveDestinationConfig := ()
  preaggregateRollupPlans := []
  preaggregatePlansVersion := 0

/-- A rebind to a table of the same address with another column. -/
def rebound : ModelEvent Unit := .setServeBindings [storedOrders [⟨"state", "VARCHAR"⟩]]

theorem orders_shapeAgrees :
    let reached := modelRun (fun _ => none) true (MemoState.initial ordersModel)
      [.loadServeShapeQuery 0, .compiled 0, rebound, .loadServeShapeQuery 1, .compiled 0]
    ∀ load ∈ reached.taken, ShapeAgrees (fun _ => none) reached.history load := by
  refine shapeAgrees_of_run ordersModel _ ⟨trivial, ?_, trivial, trivial, ?_, trivial⟩
  · intro made found
    cases found
    exact .inl rfl
  · intro made found
    cases found
    exact .inl rfl

/-- A compile that ends after a rebind is taken by the query that starts next. -/
theorem late_fill_not_shapeAgrees :
    let reached := modelRun (fun _ => none) true (MemoState.initial ordersModel)
      [.loadServeShapeQuery 0, rebound, .compiled 0, .loadServeShapeQuery 1]
    ¬ ∀ load ∈ reached.taken, ShapeAgrees (fun _ => none) reached.history load := by
  intro reached agrees
  have taken : (reached.taken.map fun load => (load.startedIn, load.madeIn)) = [(0, 0), (1, 0)] := by
    decide +kernel
  have late : (1, 0) ∈ reached.taken.map fun load => (load.startedIn, load.madeIn) := by
    rw [taken]
    decide
  obtain ⟨load, member, same⟩ := List.mem_map.mp late
  obtain ⟨started, made⟩ := Prod.mk.inj same
  obtain ⟨_, _, _, _, _, begun⟩ := agrees load member
  omega

end MalloyPublisher.Serving
