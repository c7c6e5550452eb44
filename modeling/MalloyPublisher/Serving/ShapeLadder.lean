import MalloyPublisher.Serving.ServeShape

/-!
# The ladder of serve shapes

A shape that carries a refinement it cannot reproduce does not compile. The ladder tries
poorer shapes: without rollups, without views, without joins, at last the virtual bases
with their filters alone. A filter is part of what a source means, so every rung keeps it.
Where the last rung fails too, each binding is tried alone, those that fail are withheld,
and the ladder is climbed once more with the rest.

The order of declaration goes by name, and of several bindings of one name it keeps one.
The others are in no shape, whether or not anything failed.

## Main definitions

* `buildServeShapeTiers` — the rungs, richest first
* `compileServeShape` — the ladder
* `ServesFiltered` — what the shape of a ladder owes its bindings

## Main results

* `servesFiltered_iff` — it is owed exactly where bindings of one name declare the same
-/

namespace MalloyPublisher.Serving

/-! ## The rungs -/

/-- The kind of refinement that every rung carries. -/
def NEVER_THINNED : List RefinementKind := [.filter]

/-- The kinds of refinement a rung keeps, and the rollups it carries. -/
structure ServeShapeTier where
  keep : List RefinementKind
  groups : List RollupShapeGroup
  deriving DecidableEq, Repr

/-- The kinds kept, richest first. -/
def keepKinds : List (List RefinementKind) :=
  [NEVER_THINNED ++ [.join, .dimension, .measure, .view],
    NEVER_THINNED ++ [.join, .dimension, .measure],
    NEVER_THINNED ++ [.dimension, .measure],
    NEVER_THINNED]

/-- The ladder, richest first. -/
def buildServeShapeTiers (rollupGroups : List RollupShapeGroup) : List ServeShapeTier :=
  let richest := NEVER_THINNED ++ [.join, .dimension, .measure, .view]
  let withoutGroups (keep : List RefinementKind) : List ServeShapeTier :=
    if rollupGroups ≠ [] then [{ keep, groups := [] }] else []
  [{ keep := richest, groups := rollupGroups }] ++ withoutGroups richest ++
    keepKinds.tail.map (fun keep => { keep, groups := rollupGroups }) ++
      withoutGroups NEVER_THINNED

/-- The shape of a rung. The richest rung carries its bindings as they are. -/
def tierShape (enriched : List ServeBinding) (tier : ℕ) (rung : ServeShapeTier) : ServeShape :=
  let shaped := if tier = 0 then enriched else enriched.map (thinned rung.keep)
  buildServeShapeModelForBindings shaped rung.groups

/-! ## Climbing -/

/-- The shape a ladder returns, the rung and the bindings it is made of, and how often the
ladder was entered again. -/
structure ServeOutcome where
  bindings : List ServeBinding
  tier : ℕ
  rung : ServeShapeTier
  retries : ℕ

def ServeOutcome.shape (outcome : ServeOutcome) : ServeShape :=
  tierShape outcome.bindings outcome.tier outcome.rung

section Ladder

variable (compiles : String → Bool)

/-- The loop over the rungs: the one it leaves at, the last one at the latest. -/
def climb (enriched : List ServeBinding) (nothingToEscalate : Bool) :
    ℕ → ServeShapeTier → List ServeShapeTier → ℕ × ServeShapeTier
  | tier, last, [] => (tier, last)
  | tier, rung, next :: poorer =>
    if (tier = 0 && nothingToEscalate) || compiles (tierShape enriched tier rung).modelText then
      (tier, rung)
    else climb enriched nothingToEscalate (tier + 1) next poorer

/-- A binding with the refinements of the floor. -/
def floored (floorKeep : List RefinementKind) (binding : ServeBinding) : ServeBinding :=
  { binding with
    refinements := some ((binding.refinements.getD []).filter (·.kind ∈ floorKeep)) }

/-- Whether a binding compiles alone, at the floor. -/
def filtersCompile (floorKeep : List RefinementKind) (binding : ServeBinding) : Bool :=
  compiles (buildServeShapeModelForBindings [floored floorKeep binding] []).modelText

def bindingsWhoseFiltersCompile (enriched : List ServeBinding)
    (floorKeep : List RefinementKind) : List ServeBinding :=
  enriched.filter (filtersCompile compiles floorKeep)

variable (rollupGroups : List RollupShapeGroup)

/-- Whether a ladder carries nothing beyond the base. -/
def nothingToEscalate (enriched : List ServeBinding) : Bool :=
  rollupGroups.isEmpty && !enriched.any fun binding => !(binding.refinements.getD []).isEmpty

/-- The rung at which the ladder of some bindings is left. -/
def leaveAt (enriched : List ServeBinding) : ℕ × ServeShapeTier :=
  match buildServeShapeTiers rollupGroups with
  | [] => (0, { keep := NEVER_THINNED, groups := [] })
  | richest :: poorer =>
    climb compiles enriched (nothingToEscalate rollupGroups enriched) 0 richest poorer

/-- The shape that bindings are served from. -/
def compileServeShape (enriched : List ServeBinding) (isRetry : Bool) : ServeOutcome :=
  let lastTier := (buildServeShapeTiers rollupGroups).length - 1
  let left := leaveAt compiles rollupGroups enriched
  let here : ServeOutcome :=
    { bindings := enriched, tier := left.1, rung := left.2, retries := 0 }
  if left.1 = lastTier ∧ compiles here.shape.modelText = false then
    if isRetry then here
    else
      let servable := bindingsWhoseFiltersCompile compiles enriched left.2.keep
      let withheld := enriched.filter (· ∉ servable)
      if servable = [] ∨ withheld = [] then here
      else
        let again := compileServeShape servable true
        { again with retries := again.retries + 1 }
  else here
termination_by (!isRetry).toNat
decreasing_by simp [Bool.eq_false_of_not_eq_true ‹_›]

end Ladder

/-! ## What is owed -/

/-- What the shape of a ladder owes the bindings it was climbed for. -/
structure ServesFiltered (compiles : String → Bool) (rollupGroups : List RollupShapeGroup)
    (enriched : List ServeBinding) (outcome : ServeOutcome) : Prop where
  oneRetry : outcome.retries ≤ 1
  /-- What is declared is a binding's, with all of that binding's filters. -/
  filtered : ∀ source ∈ outcome.shape.sources, ∃ binding ∈ enriched,
    source = sourceShape (thinned outcome.rung.keep binding) ∧
      source.filterLines = (sourceShape binding).filterLines
  /-- No rung drops a filter. -/
  keeps : ∀ rung ∈ buildServeShapeTiers rollupGroups, .filter ∈ rung.keep
  /-- A rung is used where every richer one failed. -/
  climbed : (buildServeShapeTiers rollupGroups)[outcome.tier]? = some outcome.rung ∧
    ∀ tier < outcome.tier, ∀ rung, (buildServeShapeTiers rollupGroups)[tier]? = some rung →
      compiles (tierShape outcome.bindings tier rung).modelText = false
  /-- A binding is left out only where the floor failed, with the others and alone. -/
  absent : ∀ binding ∈ enriched,
    sourceShape (thinned outcome.rung.keep binding) ∈ outcome.shape.sources ∨
      ∃ floor, (buildServeShapeTiers rollupGroups).getLast? = some floor ∧
        compiles (buildServeShapeModelForBindings (enriched.map (thinned floor.keep))
          floor.groups).modelText = false ∧
        filtersCompile compiles floor.keep binding = false

/-- Bindings of one name declare the same. -/
def OneDeclaration (enriched : List ServeBinding) : Prop :=
  ∀ binding ∈ enriched, ∀ other ∈ enriched,
    binding.sourceName = other.sourceName → sourceShape binding = sourceShape other

/-! ## The ladder keeps what it owes -/

section Rungs

variable {rollupGroups : List RollupShapeGroup} {rung : ServeShapeTier} {tier : ℕ}

theorem buildServeShapeTiers_keep (member : rung ∈ buildServeShapeTiers rollupGroups) :
    rung.keep ∈ keepKinds := by
  simp only [buildServeShapeTiers, List.mem_append, List.mem_singleton, List.mem_map] at member
  rcases member with ((rfl | without) | ⟨keep, poorer, rfl⟩) | without
  · exact List.mem_cons_self
  · split_ifs at without
    · rw [List.mem_singleton.mp without]
      exact List.mem_cons_self
    · cases without
  · exact List.mem_of_mem_tail poorer
  · split_ifs at without
    · rw [List.mem_singleton.mp without]
      decide
    · cases without

/-- Every rung keeps filters. -/
theorem filter_mem_keep (member : rung ∈ buildServeShapeTiers rollupGroups) :
    .filter ∈ rung.keep := by
  have all : ∀ keep ∈ keepKinds, RefinementKind.filter ∈ keep := by decide
  exact all _ (buildServeShapeTiers_keep member)

/-- Every rung keeps both kinds of field, or neither. -/
theorem fields_together (member : rung ∈ buildServeShapeTiers rollupGroups) :
    .dimension ∈ rung.keep ↔ .measure ∈ rung.keep := by
  have all : ∀ keep ∈ keepKinds, RefinementKind.dimension ∈ keep ↔ .measure ∈ keep := by decide
  exact all _ (buildServeShapeTiers_keep member)

variable (rollupGroups) in
theorem buildServeShapeTiers_head : ∃ poorer, poorer ≠ [] ∧ buildServeShapeTiers rollupGroups =
    { keep := NEVER_THINNED ++ [.join, .dimension, .measure, .view],
      groups := rollupGroups } :: poorer := by
  refine ⟨_, ?_, by rw [buildServeShapeTiers, List.append_assoc, List.append_assoc]; rfl⟩
  simp [keepKinds]

/-- The richest rung keeps every kind. -/
theorem mem_richest (here : (buildServeShapeTiers rollupGroups)[0]? = some rung)
    (kind : RefinementKind) : kind ∈ rung.keep := by
  obtain ⟨poorer, -, same⟩ := buildServeShapeTiers_head rollupGroups
  rw [same] at here
  cases here
  cases kind <;> simp [NEVER_THINNED]

variable {bindings : List ServeBinding} {source : SourceShape} {binding other : ServeBinding}

/-- What a rung declares are its bindings, thinned. -/
theorem exists_of_mem_tierShape (here : (buildServeShapeTiers rollupGroups)[tier]? = some rung)
    (declared : source ∈ (tierShape bindings tier rung).sources) :
    ∃ binding ∈ bindings, source = sourceShape (thinned rung.keep binding) := by
  obtain ⟨shaped, ordered, rfl⟩ := List.mem_map.mp declared
  have among := mem_of_mem_orderBindingsByJoinDeps ordered
  split_ifs at among with richest
  · subst richest
    exact ⟨shaped, among, (sourceShape_thinned_of_all (mem_richest here)).symm⟩
  · obtain ⟨binding, member, rfl⟩ := List.mem_map.mp among
    exact ⟨binding, member, rfl⟩

/-- A rung declares each name once. -/
theorem eq_of_mem_tierShape {declared : SourceShape}
    (member : source ∈ (tierShape bindings tier rung).sources)
    (member' : declared ∈ (tierShape bindings tier rung).sources)
    (same : source.sourceName = declared.sourceName) : source = declared := by
  obtain ⟨binding, ordered, rfl⟩ := List.mem_map.mp member
  obtain ⟨other, ordered', rfl⟩ := List.mem_map.mp member'
  rw [eq_of_mem_orderBindingsByJoinDeps ordered ordered' same]

/-- Where bindings of one name declare the same, a rung declares all of its bindings. -/
theorem mem_tierShape (declaration : OneDeclaration bindings)
    (here : (buildServeShapeTiers rollupGroups)[tier]? = some rung) (member : binding ∈ bindings) :
    sourceShape (thinned rung.keep binding) ∈ (tierShape bindings tier rung).sources := by
  have together := fields_together (List.mem_of_getElem? here)
  by_cases richest : tier = 0
  · subst richest
    rw [sourceShape_thinned_of_all (mem_richest here)]
    obtain ⟨other, ordered, same⟩ := exists_mem_orderBindingsByJoinDeps member
    rw [declaration binding member other (mem_of_mem_orderBindingsByJoinDeps ordered) same.symm]
    exact List.mem_map_of_mem ordered
  · have shaped := List.mem_map_of_mem (f := thinned rung.keep) member
    obtain ⟨_, ordered, same⟩ := exists_mem_orderBindingsByJoinDeps shaped
    obtain ⟨other, among, rfl⟩ := List.mem_map.mp (mem_of_mem_orderBindingsByJoinDeps ordered)
    rw [sourceShape_thinned_congr together (declaration binding member other among same.symm)]
    unfold tierShape
    rw [if_neg richest]
    exact List.mem_map_of_mem ordered

end Rungs

section Climbing

variable {compiles : String → Bool} {rollupGroups : List RollupShapeGroup}
variable {enriched : List ServeBinding}

variable (compiles enriched) in
/-- The loop leaves at a rung past rungs that failed. -/
theorem climb_spec (nothing : Bool) (tier : ℕ) (rung : ServeShapeTier)
    (poorer : List ServeShapeTier) :
    ∃ passed, (climb compiles enriched nothing tier rung poorer).1 = tier + passed ∧
      (rung :: poorer)[passed]? = some (climb compiles enriched nothing tier rung poorer).2 ∧
      ∀ richer < passed, ∀ other, (rung :: poorer)[richer]? = some other →
        compiles (tierShape enriched (tier + richer) other).modelText = false := by
  induction poorer generalizing tier rung with
  | nil => exact ⟨0, rfl, rfl, fun _ below => absurd below (Nat.not_lt_zero _)⟩
  | cons next poorer ih =>
    rw [climb]
    split_ifs with leaves
    · exact ⟨0, rfl, rfl, fun _ below => absurd below (Nat.not_lt_zero _)⟩
    · obtain ⟨passed, left, here, failed⟩ := ih (tier + 1) next
      refine ⟨passed + 1, by rw [left]; omega, here, fun richer below other among => ?_⟩
      cases richer with
      | zero =>
        cases among
        rw [Bool.or_eq_true, not_or] at leaves
        exact Bool.eq_false_of_not_eq_true leaves.2
      | succ richer =>
        have earlier := failed richer (by omega) other among
        rwa [show tier + 1 + richer = tier + (richer + 1) by omega] at earlier

variable (compiles rollupGroups enriched) in
theorem leaveAt_spec :
    (buildServeShapeTiers rollupGroups)[(leaveAt compiles rollupGroups enriched).1]? =
        some (leaveAt compiles rollupGroups enriched).2 ∧
      ∀ tier < (leaveAt compiles rollupGroups enriched).1, ∀ rung,
        (buildServeShapeTiers rollupGroups)[tier]? = some rung →
          compiles (tierShape enriched tier rung).modelText = false := by
  obtain ⟨poorer, -, tiers⟩ := buildServeShapeTiers_head rollupGroups
  simp only [leaveAt, tiers]
  obtain ⟨passed, left, here, failed⟩ := climb_spec compiles enriched
    (nothingToEscalate rollupGroups enriched) 0 _ poorer
  rw [Nat.zero_add] at left
  rw [left]
  exact ⟨here, fun tier below rung among => by simpa using failed tier below rung among⟩

/-- What is served where a ladder is left. -/
def leftAt (compiles : String → Bool) (rollupGroups : List RollupShapeGroup)
    (bindings : List ServeBinding) : ServeOutcome where
  bindings := bindings
  tier := (leaveAt compiles rollupGroups bindings).1
  rung := (leaveAt compiles rollupGroups bindings).2
  retries := 0

theorem compileServeShape_retry :
    compileServeShape compiles rollupGroups enriched true = leftAt compiles rollupGroups enriched := by
  rw [compileServeShape]
  exact ite_id _

variable (rollupGroups) in
/-- The floor stands last, below the richest rung. -/
theorem buildServeShapeTiers_getLast : ∃ floor,
    (buildServeShapeTiers rollupGroups).getLast? = some floor ∧
      1 < (buildServeShapeTiers rollupGroups).length := by
  by_cases none : rollupGroups = []
  · subst none
    exact ⟨{ keep := NEVER_THINNED, groups := [] }, by decide⟩
  · exact ⟨{ keep := NEVER_THINNED, groups := [] }, by simp [buildServeShapeTiers, none, keepKinds]⟩

variable {served : List ServeBinding}

/-- What is served where a ladder is left is filtered, and comes after what failed. -/
theorem servesFiltered_leftAt (subset : ∀ binding ∈ served, binding ∈ enriched)
    (declaration : OneDeclaration enriched) {retries : ℕ} (few : retries ≤ 1)
    (withheld : ∀ binding ∈ enriched, binding ∉ served →
      ∃ floor, (buildServeShapeTiers rollupGroups).getLast? = some floor ∧
        compiles (buildServeShapeModelForBindings (enriched.map (thinned floor.keep))
          floor.groups).modelText = false ∧ filtersCompile compiles floor.keep binding = false) :
    ServesFiltered compiles rollupGroups enriched
      { leftAt compiles rollupGroups served with retries } where
  oneRetry := few
  filtered source declared := by
    have here := (leaveAt_spec compiles rollupGroups served).1
    obtain ⟨binding, member, rfl⟩ := exists_of_mem_tierShape here declared
    exact ⟨binding, subset binding member, rfl,
      filterLines_thinned (filter_mem_keep (List.mem_of_getElem? here))⟩
  keeps rung := filter_mem_keep
  climbed := leaveAt_spec compiles rollupGroups served
  absent binding member := by
    by_cases still : binding ∈ served
    · have declared : OneDeclaration served := fun binding member other member' =>
        declaration binding (subset binding member) other (subset other member')
      exact .inl (mem_tierShape declared (leaveAt_spec compiles rollupGroups served).1 still)
    · exact .inr (withheld binding member still)

/-- The ladder serves what it owes where bindings of one name declare the same. -/
theorem compileServeShape_servesFiltered (declaration : OneDeclaration enriched) :
    ServesFiltered compiles rollupGroups enriched
      (compileServeShape compiles rollupGroups enriched false) := by
  have all : ServesFiltered compiles rollupGroups enriched
      (leftAt compiles rollupGroups enriched) :=
    servesFiltered_leftAt (fun _ => id) declaration (Nat.zero_le 1)
      fun binding member absent => absurd member absent
  rw [compileServeShape]
  simp only [Bool.false_eq_true, if_false]
  split_ifs with failed isolated
  · exact all
  · -- The ladder is climbed again with those bindings that compile alone.
    rw [compileServeShape_retry]
    obtain ⟨floor, last, several⟩ :=
      buildServeShapeTiers_getLast rollupGroups
    have here := (leaveAt_spec compiles rollupGroups enriched).1
    rw [failed.1, ← List.getLast?_eq_getElem?, last, Option.some.injEq] at here
    rw [← here] at failed ⊢
    refine servesFiltered_leftAt (fun binding member => List.mem_of_mem_filter member)
      declaration le_rfl fun binding member withheld => ⟨floor, last, ?_, ?_⟩
    · have poorest : (leaveAt compiles rollupGroups enriched).1 ≠ 0 := by omega
      simpa only [ServeOutcome.shape, tierShape, if_neg poorest] using failed.2
    · by_contra compiled
      exact withheld (List.mem_filter.mpr ⟨member, Bool.eq_true_of_not_eq_false compiled⟩)
  · exact all

end Climbing

/-- A ladder that filters what it serves leaves none of two different declarations out. -/
theorem ServesFiltered.oneDeclaration {rollupGroups : List RollupShapeGroup}
    {enriched : List ServeBinding} {outcome : ServeOutcome}
    (serves : ServesFiltered (fun _ => true) rollupGroups enriched outcome) :
    OneDeclaration enriched := by
  have first : outcome.tier = 0 := by
    by_contra later
    obtain ⟨poorer, -, tiers⟩ := buildServeShapeTiers_head rollupGroups
    have failed := serves.climbed.2 0 (Nat.pos_of_ne_zero later) _ (by rw [tiers]; rfl)
    cases failed
  have richest := serves.climbed.1
  rw [first] at richest
  have declared (binding : ServeBinding) (member : binding ∈ enriched) :
      sourceShape binding ∈ outcome.shape.sources := by
    rcases serves.absent binding member with declared | ⟨floor, last, failed, alone⟩
    · rwa [sourceShape_thinned_of_all (mem_richest richest)] at declared
    · cases failed
  intro binding member other member' same
  exact eq_of_mem_tierShape (declared binding member) (declared other member') same

/-- Whatever compiles, the ladder never serves a source without its filters and withholds
none but for its own: exactly where bindings of one name declare the same. -/
theorem servesFiltered_iff (rollupGroups : List RollupShapeGroup) (enriched : List ServeBinding) :
    (∀ compiles, ServesFiltered compiles rollupGroups enriched
      (compileServeShape compiles rollupGroups enriched false)) ↔ OneDeclaration enriched :=
  ⟨fun serves => (serves fun _ => true).oneDeclaration,
    fun declaration _ => compileServeShape_servesFiltered declaration⟩

/-- A filtered source over the table a handle stands for. -/
def filteredOrders (virtualHandle filter : String) : ServeBinding where
  sourceName := "orders"
  origin := .persist
  destinationName := "lake"
  virtualHandle := virtualHandle
  tablePath := "lake.orders"
  schema := [⟨"status", "VARCHAR"⟩]
  refinements := some [.filter filter]
  freshAsOf := none
  freshnessWindowSeconds := none
  freshnessFallback := none

/-- Of two sources of one name the second is left out of a shape that compiles. -/
theorem two_orders_not_servesFiltered :
    ¬ ServesFiltered (fun _ => true) []
      [filteredOrders "e1" "status = 'paid'", filteredOrders "e2" "status = 'open'"]
      (compileServeShape (fun _ => true) []
        [filteredOrders "e1" "status = 'paid'", filteredOrders "e2" "status = 'open'"] false) := by
  intro serves
  have same := serves.oneDeclaration _ List.mem_cons_self _
    (List.mem_cons_of_mem _ List.mem_cons_self) rfl
  have handles : "e1" = "e2" := congrArg SourceShape.virtualHandle same
  exact absurd handles (by decide)

end MalloyPublisher.Serving
