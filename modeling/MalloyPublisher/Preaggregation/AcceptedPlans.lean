import MalloyPublisher.Preaggregation.Synthesis

/-!
# The rollups of an accepted source

What is planned for a source that is not refused, in terms of the lines that are read off its
fields: a rollup for each grain some line names, with the measures whose fields declare it.

## Main definitions

* `FieldDef.readLines` — the lines that are read off a field
* `FieldDef.lastGrain` — what the last of them at a grain declares
* `SourceDef.asks` — the places asked for at a grain

## Main results

* `mem_contributions` — what is brought to a rollup
* `namespace_planOf_eq_some`, `storage_planOf_eq_some` — where a rollup is created
-/

namespace MalloyPublisher.Preaggregation

open Foundations

/-! ## One line -/

/-- The `#@ preaggregate` lines that are read off a field. -/
def FieldDef.readLines (f : FieldDef) : List ReadTag := linesInForce (orderedNotes f.annotations)

/-- The grain of a line. -/
def ReadTag.dimensions (tag : ReadTag) : Option (List String) :=
  (tag.key "grain").map parseGrainDimensions

theorem readNamespace_eq_ok {name : String} {tag : ReadTag} {persistNamespace : Option String}
    (read : readNamespace name tag = .ok persistNamespace) :
    persistNamespace = (tag.key "namespace").map trimmed := by
  unfold readNamespace at read
  cases written : tag.key "namespace" with
  | none => simpa [written] using read.symm
  | some text =>
    simp only [written] at read
    split_ifs at read
    simpa using read.symm

theorem readStorage_eq_ok {name : String} {tag : ReadTag} {storage : Option String}
    (read : readStorage name tag = .ok storage) :
    storage = (tag.key "storage").map trimmed := by
  unfold readStorage at read
  cases written : tag.key "storage" with
  | none => simpa [written] using read.symm
  | some text =>
    simp only [written] at read
    split_ifs at read
    simpa using read.symm

/-- What is read off a usable line. -/
theorem lineGrain_eq_some {name : String} {tag : ReadTag} {grain : PreaggregateGrain}
    (read : lineGrain name tag = some grain) :
    tag.dimensions = some grain.dimensions ∧ grain.dimensions ≠ [] ∧
      grain.persistNamespace = (tag.key "namespace").map trimmed ∧
        grain.storage = (tag.key "storage").map trimmed := by
  unfold lineGrain readPreaggregateLine at read
  cases named : readNamespace name tag with
  | error error => simp [named, Except.toOption, bind, Except.bind] at read
  | ok persistNamespace =>
    cases stored : readStorage name tag with
    | error error => simp [named, stored, Except.toOption, bind, Except.bind] at read
    | ok storage =>
      cases written : tag.key "grain" with
      | none => simp [named, stored, written, Except.toOption, bind, Except.bind] at read
      | some text =>
        simp only [named, stored, written, bind, Except.bind] at read
        split_ifs at read with empty
        · cases read
        · obtain rfl := Option.some.inj read
          exact ⟨by rw [ReadTag.dimensions, written, Option.map_some],
            fun none => empty (List.isEmpty_iff.mpr none), readNamespace_eq_ok named,
            readStorage_eq_ok stored⟩

/-- The dimensions of a grain stand once each, in their order. -/
theorem parseGrainDimensions_sorted (text : String) :
    (parseGrainDimensions text).Pairwise (fun a b => sortLE a b = true) ∧
      (parseGrainDimensions text).Nodup := by
  unfold parseGrainDimensions
  refine ⟨List.pairwise_insertionSort _ _, ?_⟩
  exact (List.perm_insertionSort _ _).nodup_iff.mpr (nodup_eraseDups _)

/-- Whether two lists name the same dimensions. -/
def sameDimensions (first second : List String) : Bool :=
  first.all (· ∈ second) && second.all (· ∈ first)

/-- The grains of two lines, when they name the same dimensions, are one list. -/
theorem eq_of_sameDimensions {first second : ReadTag} {a b : List String}
    (firstGrain : first.dimensions = some a) (secondGrain : second.dimensions = some b)
    (same : sameDimensions a b = true) : a = b := by
  obtain ⟨firstText, -, rfl⟩ := Option.map_eq_some_iff.mp firstGrain
  obtain ⟨secondText, -, rfl⟩ := Option.map_eq_some_iff.mp secondGrain
  obtain ⟨sortedFirst, nodupFirst⟩ := parseGrainDimensions_sorted firstText
  obtain ⟨sortedSecond, nodupSecond⟩ := parseGrainDimensions_sorted secondText
  simp only [sameDimensions, Bool.and_eq_true, List.all_eq_true, decide_eq_true_eq] at same
  have perm : (parseGrainDimensions firstText).Perm (parseGrainDimensions secondText) :=
    (List.perm_ext_iff_of_nodup nodupFirst nodupSecond).mpr fun d => ⟨same.1 d, same.2 d⟩
  exact perm.eq_of_pairwise' sortedFirst sortedSecond

theorem sameDimensions_self (dimensions : List String) :
    sameDimensions dimensions dimensions = true := by
  simp [sameDimensions]

/-! ## What is asked for at a grain -/

/-- What a field's last line at a grain declares. -/
def FieldDef.lastGrain (f : FieldDef) (key : String) : Option PreaggregateGrain :=
  Preaggregation.lastGrain f.fieldName f.readLines key

/-- Whether a place is named by the last line of some field at a grain. -/
def SourceDef.asks (source : SourceDef) (place : PreaggregateGrain → Option String)
    (key asked : String) : Prop :=
  ∃ f ∈ source.fields, ∃ grain, f.lastGrain key = some grain ∧ place grain = some asked

variable {library : Library} {sourceName : String} {source : SourceDef}

/-- A field's last line at a grain is one of its lines at that grain. -/
theorem exists_line_of_lastGrain {f : FieldDef} {key : String} {grain : PreaggregateGrain}
    (last : f.lastGrain key = some grain) :
    ∃ line ∈ f.readLines, lineGrain f.fieldName line = some grain ∧
      grainKey grain.dimensions = key := by
  obtain ⟨declared, member, same⟩ := List.mem_map.mp (mem_of_lastWrite last)
  obtain ⟨keys, rfl⟩ := Prod.ext_iff.mp same
  obtain ⟨line, inside, read⟩ := List.mem_filterMap.mp member
  exact ⟨line, inside, read, keys⟩

/-- A field with a line at a grain has a last one there. -/
theorem exists_lastGrain {f : FieldDef} {line : ReadTag} {grain : PreaggregateGrain}
    (member : line ∈ f.readLines) (read : lineGrain f.fieldName line = some grain) :
    ∃ last, f.lastGrain (grainKey grain.dimensions) = some last :=
  exists_lastWrite (List.mem_map.mpr ⟨grain, List.mem_filterMap.mpr ⟨line, member, read⟩, rfl⟩)

theorem mem_grains_iff {f : FieldDef} {grain : PreaggregateGrain} :
    grain ∈ (declarationOf library f).grains ↔
      f.lastGrain (grainKey grain.dimensions) = some grain :=
  mem_grains

theorem declared_of_mem {f : FieldDef} {line : ReadTag} (member : line ∈ f.readLines) :
    (declarationOf library f).declared = true :=
  declared_iff.mpr (List.ne_nil_of_mem member)

/-- Each line that is read of an accepted source is usable. -/
theorem exists_grain_of_accepted
    (accepted : validateSourcePreaggregation library sourceName source = []) {f : FieldDef}
    (field : f ∈ source.fields) {line : ReadTag} (member : line ∈ f.readLines) :
    ∃ grain, lineGrain f.fieldName line = some grain :=
  errors_eq_nil_iff.mp (accepted_field accepted field (declared_of_mem member)).usable line member

/-- The grains of an accepted field are not empty and name nothing hidden. -/
theorem AcceptedField.shown {f : FieldDef} (field : AcceptedField library sourceName source f)
    {grain : PreaggregateGrain} (listed : grain ∈ (declarationOf library f).grains) :
    grain.dimensions ≠ [] ∧ ∀ d ∈ grain.dimensions, isHidden source d = false := by
  obtain ⟨line, -, read, -⟩ := exists_line_of_lastGrain (mem_grains_iff.mp listed)
  refine ⟨(lineGrain_eq_some read).2.1, fun dimension named => ?_⟩
  obtain ⟨g, found, shown, -⟩ :=
    exists_field_of_validateGrainDimension (field.resolved _ listed _ named)
  rw [isHidden, found, Option.any_some, shown]

/-- What an accepted source brings to a rollup is what its fields' last lines there declare. -/
theorem mem_contributions
    (accepted : validateSourcePreaggregation library sourceName source = []) {key : String}
    {c : Contribution} :
    (key, c) ∈ contributions library source ↔
      ∃ f ∈ source.fields, f.lastGrain key = some c.grain ∧
        f.reaggregate = some c.measure.reaggregate ∧ c.measure.name = f.fieldName ∧
          c.measure.partialName = f.fieldName ++ PARTIAL_SUFFIX := by
  unfold contributions
  rw [List.mem_flatMap]
  refine exists_congr fun f => and_congr_right fun member => ?_
  rw [mem_fieldContributions]
  constructor
  · rintro ⟨-, -, -, merge, name, partialName, listed, -, -, rfl⟩
    exact ⟨mem_grains_iff.mp listed, merge, name, partialName⟩
  · rintro ⟨last, merge, name, partialName⟩
    obtain ⟨line, inside, -, rfl⟩ := exists_line_of_lastGrain last
    have declared : (declarationOf library f).declared = true := declared_of_mem inside
    have field := accepted_field accepted member declared
    have listed : _ ∈ (declarationOf library f).grains := mem_grains_iff.mpr last
    exact ⟨declared, field.usable, (public_of_misplacement field.placed).1, merge, name,
      partialName, listed, (field.shown listed).1, (field.shown listed).2, rfl⟩

/-- An additive field's last line at a grain brings it to the rollup there. -/
theorem exists_contribution
    (accepted : validateSourcePreaggregation library sourceName source = []) {f : FieldDef}
    (member : f ∈ source.fields) {key : String} {grain : PreaggregateGrain}
    (last : f.lastGrain key = some grain) :
    ∃ merge, f.reaggregate = some merge ∧
      (key, (⟨grain, f.fieldName, f.fieldName ++ PARTIAL_SUFFIX, merge⟩ : Contribution)) ∈
        contributions library source := by
  obtain ⟨line, inside, -⟩ := exists_line_of_lastGrain last
  have field := accepted_field accepted member (declared_of_mem inside)
  obtain ⟨merge, additive⟩ := Option.isSome_iff_exists.mp field.additive
  exact ⟨merge, additive, (mem_contributions accepted).mpr ⟨f, member, last, additive, rfl, rfl⟩⟩

/-! ## Places -/

/-- A place that is asked for at a grain is recorded by the validator. -/
theorem exists_askedPlace
    (accepted : validateSourcePreaggregation library sourceName source = [])
    {place : PreaggregateGrain → Option String} {key asked : String}
    (asks : source.asks place key asked) :
    ∃ one, (key, one) ∈ askedPlaces library source place ∧ one.place = asked := by
  obtain ⟨f, member, grain, last, named⟩ := asks
  obtain ⟨line, inside, -, rfl⟩ := exists_line_of_lastGrain last
  have declared : (declarationOf library f).declared = true := declared_of_mem inside
  exact ⟨_, (accepted_field accepted member declared).asked member declared
    (mem_grains_iff.mpr last) named, rfl⟩

/-- The first place among the contributions to a grain is the one that is asked for there. -/
theorem findSome_place_eq_some
    (accepted : validateSourcePreaggregation library sourceName source = [])
    {place : PreaggregateGrain → Option String}
    (short : ∀ entry ∈ placesByGrain library source place, entry.2.length < 2)
    {key asked : String} :
    ((valuesOf (contributions library source) key).findSome? fun c => place c.grain) =
      some asked ↔ source.asks place key asked := by
  have sound : ∀ found, ((valuesOf (contributions library source) key).findSome?
      fun c => place c.grain) = some found → source.asks place key found := by
    intro found first
    obtain ⟨c, member, named⟩ := List.exists_of_findSome?_eq_some first
    obtain ⟨f, field, last, -⟩ := (mem_contributions accepted).mp (mem_valuesOf.mp member)
    exact ⟨f, field, c.grain, last, named⟩
  refine ⟨sound asked, fun asks => ?_⟩
  obtain ⟨f, member, grain, last, named⟩ := asks
  obtain ⟨merge, -, brought⟩ := exists_contribution accepted member last
  cases first : (valuesOf (contributions library source) key).findSome?
      fun c => place c.grain with
  | none =>
    have unnamed := List.findSome?_eq_none_iff.mp first _ (mem_valuesOf.mpr brought)
    rw [named] at unnamed
    cases unnamed
  | some found =>
    obtain ⟨one, oneAsked, rfl⟩ := exists_askedPlace accepted (sound found first)
    obtain ⟨other, otherAsked, rfl⟩ :=
      exists_askedPlace accepted ⟨f, member, grain, last, named⟩
    rw [one_place short oneAsked otherAsked]

/-! ## One rollup for each grain -/

/-- What a rollup is named for is the grain its contributions are declared at. -/
theorem grainKey_of_head {key : String} {first : Contribution}
    (head : (valuesOf (contributions library source) key).head? = some first) :
    grainKey first.grain.dimensions = key := by
  obtain ⟨f, -, brought⟩ :=
    List.mem_flatMap.mp (mem_valuesOf.mp (List.mem_of_mem_head? head))
  obtain ⟨-, -, -, -, -, -, -, -, -, keys⟩ := mem_fieldContributions.mp brought
  exact keys.symm

theorem nodup_grainKey_plans :
    ((planSourcePreaggregation library sourceName source).map fun plan =>
      grainKey plan.grainDimensions).Nodup := by
  have keys : (((gather startEntry GrainEntry.add (contributions library source)).map fun entry =>
      entry.2.plan library sourceName source).map fun plan => grainKey plan.grainDimensions) =
        (gather startEntry GrainEntry.add (contributions library source)).map Prod.fst := by
    rw [List.map_map]
    refine List.map_congr_left fun entry member => ?_
    obtain ⟨first, head, gathered⟩ := (mem_gather _ _).mp member
    rw [Function.comp_apply, ← gathered, foldl_add]
    exact grainKey_of_head head
  refine ((List.perm_insertionSort _ _).map _).nodup_iff.mpr ?_
  rw [keys]
  exact nodup_gather _ _ _

section Accepted

variable (accepted : validateSourcePreaggregation library sourceName source = [])

include accepted

/-- The namespace of a rollup is the one asked for at its grain, or its base's. -/
theorem namespace_planOf_eq_some {key asked : String} {first : Contribution} :
    (planOf library sourceName source first
        (valuesOf (contributions library source) key)).persistNamespace = some asked ↔
      source.asks PreaggregateGrain.persistNamespace key asked ∨
        (∀ other, ¬ source.asks PreaggregateGrain.persistNamespace key other) ∧
          basePersistNamespace source = some asked := by
  have asks : ∀ other, _ ↔ source.asks PreaggregateGrain.persistNamespace key other := fun _ =>
    findSome_place_eq_some accepted (namespace_short accepted)
  simp only [planOf, Option.or_eq_some_iff, asks, Option.eq_none_iff_forall_ne_some, ne_eq]

theorem storage_planOf_eq_some {key asked : String} {first : Contribution} :
    (planOf library sourceName source first
        (valuesOf (contributions library source) key)).storage = some asked ↔
      source.asks PreaggregateGrain.storage key asked :=
  findSome_place_eq_some accepted (storage_short accepted)

/-- The contributions to a grain come from lines that are read. -/
theorem exists_line_of_contribution {key : String} {c : Contribution}
    (member : c ∈ valuesOf (contributions library source) key) :
    ∃ f ∈ source.fields, f.lastGrain key = some c.grain ∧
      f.reaggregate = some c.measure.reaggregate ∧ c.measure.name = f.fieldName ∧
        ∃ line ∈ f.readLines, line.dimensions = some c.grain.dimensions ∧
          grainKey c.grain.dimensions = key := by
  obtain ⟨f, field, last, merge, name, -⟩ := (mem_contributions accepted).mp (mem_valuesOf.mp member)
  obtain ⟨line, inside, read, keys⟩ := exists_line_of_lastGrain last
  exact ⟨f, field, last, merge, name, line, inside, (lineGrain_eq_some read).1, keys⟩

end Accepted

/-! ## A plain model -/

/-- A note with sibling keys. -/
def siblingNote (text : String) (keys : List (String × String)) : Note where
  text := text
  tag := some {
    has := fun name => name = "preaggregate" || name ∈ keys.map Prod.fst
    text := fun path =>
      match path with
      | [key] => keys.lookup key
      | _ => none }

/-- The compiler's predicates, with a digest that is right for the grain `category`. -/
def plainLibrary : Library where
  isJoined := fun f => f.join.isSome
  expressionIsAggregate := fun type =>
    type = some .aggregate || type = some .ungrouped_aggregate || type = some .aggregate_analytic
  expressionIsAnalytic := fun type => type.any ExpressionType.isAnalytic
  localeLE := sortLE
  digest := fun _ => "edb2cd3b"

end MalloyPublisher.Preaggregation
