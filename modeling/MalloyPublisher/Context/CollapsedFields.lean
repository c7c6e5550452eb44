import MalloyPublisher.Context.CollapseAliases

/-!
# What folding aliases leaves

Fields are related when references lead between them. Folding loses no field when, in whatever
order the entities come, each is left or is listed by one that is left and related to it; of related
fields without a circle one is left, the same in every order; and the fields of a circle are all
left, as are the entities that are not folded.

## Main definitions

* `Refers` — one entity is defined as another
* `Collapses` — folding loses nothing and folds nothing else
* `Unshadowed` — no field that is referred to has a namesake of the other kind

## Main results

* `collapses_iff` — folding is right when there are no circles and no such namesakes
-/

namespace MalloyPublisher.Context

open Foundations Relation

variable {entities order left : List Entity} {entity target other keep : Entity}

/-- An entity is defined as another one of its card and kind. -/
structure Refers (entities : List Entity) (entity target : Entity) : Prop where
  mem : entity ∈ entities
  target_mem : target ∈ entities
  foldable : foldable entity = true
  target_foldable : Context.foldable target = true
  modelPath : target.modelPath = entity.modelPath
  source : target.source = entity.source
  kind : target.kind = entity.kind
  aliasOf : entity.aliasOf = some target.name
  ne : target ≠ entity

/-- References lead between two entities, in either direction. -/
abbrev Related (entities : List Entity) : Entity → Entity → Prop := EqvGen (Refers entities)

/-- References lead from an entity back to it. -/
def Circular (entities : List Entity) (entity : Entity) : Prop :=
  TransGen (Refers entities) entity entity

/-- An entity that is left lists another one, to which it is related. -/
structure Lists (entities : List Entity) (kept entity : Entity) : Prop where
  name : entity.name ∈ kept.aliases
  modelPath : kept.modelPath = entity.modelPath
  source : kept.source = entity.source
  kind : kept.kind = entity.kind
  related : ∃ origin ∈ entities, entityCardKey origin = entityCardKey kept ∧
    Related entities origin entity

/-- No related entity is on a circle. -/
def Straight (entities : List Entity) (entity : Entity) : Prop :=
  ∀ other, Related entities other entity → ¬Circular entities other

/-- What is left loses no field and folds nothing else. -/
structure Collapses (entities left : List Entity) : Prop where
  /-- An entity is left, or listed by one that is. -/
  accounted : ∀ entity ∈ entities, entityCardKey entity ∈ left.map entityCardKey ∨
    ∃! kept, kept ∈ left ∧ Lists entities kept entity
  /-- What is listed is not left, and listed by a relative. -/
  listed : ∀ kept ∈ left, ∀ name ∈ kept.aliases, ∃ entity ∈ entities, entity.name = name ∧
    entityCardKey entity ∉ left.map entityCardKey ∧ Lists entities kept entity
  /-- Of related entities without a circle one is left. -/
  one : ∀ entity ∈ entities, Straight entities entity → ∃! kept, kept ∈ left ∧
    ∃ origin ∈ entities, entityCardKey origin = entityCardKey kept ∧ Related entities origin entity
  /-- A circle is no fold. -/
  circular : ∀ entity ∈ entities, Circular entities entity →
    entityCardKey entity ∈ left.map entityCardKey
  unfoldable : ∀ entity ∈ entities, foldable entity = false → entity ∈ left
  documented : ∀ kept ∈ left, ∀ entity ∈ entities, Lists entities kept entity →
    documented entity = true → documented kept = true

/-- Folding is right in every order, and keeps the same names in each. -/
def CollapsesInAnyOrder (entities : List Entity) : Prop :=
  ∀ order : List Entity, order.Perm entities → Collapses entities (collapseAliases order) ∧
    ∀ entity ∈ entities, Straight entities entity →
      (Survives order entity ↔ Survives entities entity)

/-- No field that is referred to has a namesake of the other kind in its card. -/
def Unshadowed (entities : List Entity) : Prop :=
  ∀ entity target, Refers entities entity target → ∀ other ∈ entities, foldable other = true →
    other.modelPath = target.modelPath → other.source = target.source →
      other.name = target.name → other.kind = target.kind

/-! ## References and steps -/

theorem fieldKey_inj {path path' : Label} {source source' : Option Label} {name name' : Label} :
    fieldKey path source name = fieldKey path' source' name' ↔
      path = path' ∧ source = source' ∧ name = name' := by
  constructor
  · intro same
    have plain : ∀ (path : Label) (source : Option Label) (name : Label),
        ∀ part ∈ [path.text, sourceText source, name.text], keySeparator ∉ part.toList := by
      intro path source name part member
      simp only [List.mem_cons, List.not_mem_nil, or_false] at member
      obtain rfl | rfl | rfl := member
      · exact path.plain
      · exact plain_sourceText _
      · exact name.plain
    have parts := keyOf_inj (List.cons_ne_nil _ _) (List.cons_ne_nil _ _) (plain path source name)
      (plain path' source' name') same
    simp only [List.cons.injEq, and_true] at parts
    exact ⟨Label.text_injective parts.1, sourceText_injective parts.2.1,
      Label.text_injective parts.2.2⟩
  · rintro ⟨rfl, rfl, rfl⟩
    rfl

/-- A step of the walk is a reference. -/
theorem refers_of_step (step : (references entities).Step entity target) :
    Refers entities entity target := by
  obtain ⟨member, isReferent⟩ := step_iff.mp step
  obtain ⟨name, isAlias, folds, found, ne, kind⟩ := referentOf_eq_some.mp isReferent
  obtain ⟨targetMember, targetFolds, key⟩ := mem_of_byName found
  obtain ⟨path, source, rfl⟩ := fieldKey_inj.mp key
  exact ⟨member, targetMember, folds, targetFolds, path, source, kind, isAlias, ne⟩

/-- Entities of one card and kind with one name are one. -/
theorem Distinct.eq_of_name (distinct : Distinct entities) (member : entity ∈ entities)
    (member' : other ∈ entities) (path : other.modelPath = entity.modelPath)
    (source : other.source = entity.source) (kind : other.kind = entity.kind)
    (name : other.name = entity.name) : other = entity :=
  distinct.eq member' member (entityCardKey_inj.mpr ⟨path, kind, source, name⟩)

/-- A reference is a step of the walk when the last entity of its target's name is of its kind. -/
theorem step_of_refers (distinct : Distinct entities) (refers : Refers entities entity target)
    (last : ∀ found, byName entities (fieldKey entity.modelPath entity.source target.name) =
      some found → found.kind = target.kind) : (references entities).Step entity target := by
  refine step_iff.mpr ⟨refers.mem, referentOf_eq_some.mpr
    ⟨target.name, refers.aliasOf, refers.foldable, ?_, refers.ne, refers.kind⟩⟩
  cases found : byName entities (fieldKey entity.modelPath entity.source target.name) with
  | none =>
    have absent := List.find?_eq_none.mp found target (List.mem_reverse.mpr refers.target_mem)
    rw [refers.target_foldable, refers.modelPath, refers.source] at absent
    simp at absent
  | some other =>
    obtain ⟨member, -, key⟩ := mem_of_byName found
    obtain ⟨path, source, name⟩ := fieldKey_inj.mp key
    rw [distinct.eq_of_name refers.target_mem member (path.trans refers.modelPath.symm)
      (source.trans refers.source.symm) (last other found) name]

/-- Without namesakes of the other kind the walk follows the references. -/
theorem step_iff_refers (distinct : Distinct entities) (unshadowed : Unshadowed entities) :
    (references entities).Step entity target ↔ Refers entities entity target := by
  refine ⟨refers_of_step, fun refers => step_of_refers distinct refers fun found isFound => ?_⟩
  obtain ⟨member, folds, key⟩ := mem_of_byName isFound
  obtain ⟨path, source, name⟩ := fieldKey_inj.mp key
  exact unshadowed entity target refers found member folds (path.trans refers.modelPath.symm)
    (source.trans refers.source.symm) name

theorem Related.same (related : Related entities entity other) :
    entity.modelPath = other.modelPath ∧ entity.source = other.source ∧
      entity.kind = other.kind := by
  induction related with
  | rel _ _ refers => exact ⟨refers.modelPath.symm, refers.source.symm, refers.kind.symm⟩
  | refl => exact ⟨rfl, rfl, rfl⟩
  | symm _ _ _ ih => exact ⟨ih.1.symm, ih.2.1.symm, ih.2.2.symm⟩
  | trans _ _ _ _ _ ih ih' =>
    exact ⟨ih.1.trans ih'.1, ih.2.1.trans ih'.2.1, ih.2.2.trans ih'.2.2⟩

/-- An entity that cannot be folded is related to itself only. -/
theorem Related.eq_of_unfoldable (related : Related entities entity other)
    (fixed : foldable entity = false ∨ foldable other = false) : entity = other := by
  induction related with
  | rel _ _ refers =>
    rw [refers.foldable, refers.target_foldable] at fixed
    simp at fixed
  | refl => rfl
  | symm _ _ _ ih => exact (ih fixed.symm).symm
  | trans _ _ _ _ _ ih ih' =>
    obtain fixed | fixed := fixed
    · obtain rfl := ih (.inl fixed)
      exact ih' (.inl fixed)
    · obtain rfl := ih' (.inr fixed)
      exact ih (.inr fixed)

/-! ## Folding without circles -/

section Sound

/-- An entity as the groups leave it. -/
def nowOf (entities : List Entity) : Entity → Entity :=
  ((groups entities).foldl foldGroup ⟨id, []⟩).now

theorem mem_collapseAliases : keep ∈ collapseAliases entities ↔
    ∃ origin ∈ entities, Survives entities origin ∧ nowOf entities origin = keep := by
  simp only [collapseAliases, List.mem_map, List.mem_filter, decide_eq_true_eq]
  refine exists_congr fun origin => ?_
  rw [and_assoc]
  refine and_congr_right fun member => and_congr_left fun _ => ?_
  rw [survives_iff_not_dropped, and_iff_right (List.mem_map_of_mem member)]

theorem card_nowOf (entities : List Entity) (entity : Entity) :
    entityCardKey (nowOf entities entity) = entityCardKey entity := card_now _ _

/-- An entity that is in no group stays as it is. -/
theorem nowOf_of_refsOf (acyclic : (references entities).Acyclic)
    (alone : refsOf entities (rootOf entities entity) = []) : nowOf entities entity = entity := by
  refine (foldedIn_groups acyclic).others entity ?_
  rintro ⟨root, refs⟩ isGroup kept
  obtain ⟨rfl, -⟩ := mem_groups.mp isGroup
  have isRef := mem_of_keepOf kept
  have isRoot := (mem_refsOf.mp isRef).2.2
  rw [← isRoot, alone] at isRef
  cases isRef

theorem nowOf_of_keepOf (acyclic : (references entities).Acyclic)
    (kept : keepOf id (refsOf entities (rootOf entities entity)) = some entity) :
    nowOf entities entity =
      foldInto id (rootOf entities entity, refsOf entities (rootOf entities entity)) entity := by
  refine (foldedIn_groups acyclic).kept _ (mem_groups.mpr ⟨rfl, ?_⟩) entity kept
  exact List.ne_nil_of_mem (mem_of_keepOf kept)

/-- The entities with the same end are its group. -/
theorem mem_group (member : entity ∈ entities)
    (same : rootOf entities entity = rootOf entities keep) :
    entity ∈ rootOf entities keep :: refsOf entities (rootOf entities keep) := by
  by_cases isRoot : rootOf entities entity = entity
  · rw [← same, isRoot]
    exact List.mem_cons_self
  · exact List.mem_cons_of_mem _ (mem_refsOf.mpr ⟨member, isRoot, same⟩)

theorem mem_aliases_foldInto {now : Entity → Entity} {group : Entity × List Entity} {name : Label} :
    name ∈ (foldInto now group keep).aliases ↔
      ∃ entity ∈ group.1 :: group.2, entity ≠ keep ∧ entity.name = name := by
  simp only [foldInto, List.mem_map, List.mem_filter, decide_eq_true_eq, and_assoc]

/-- A documented member documents the spelling that is kept. -/
theorem documented_foldInto {group : Entity × List Entity} (member : entity ∈ group.1 :: group.2)
    (apart : entity ≠ keep) (isDocumented : documented entity = true) :
    documented (foldInto id group keep) = true := by
  have given : ∃ donor, ((group.1 :: group.2).find? fun entity =>
      entity ≠ keep && documented (id entity)) = some donor := by
    refine Option.isSome_iff_exists.mp (List.find?_isSome.mpr ⟨entity, member, ?_⟩)
    simp [apart, isDocumented]
  obtain ⟨donor, found⟩ := given
  have donates := List.find?_some found
  rw [Bool.and_eq_true] at donates
  simp only [foldInto, found, Option.map_some, withDocOf]
  split_ifs with own
  · exact own
  · exact donates.2

/-- Who lists an entity is related to it. -/
theorem Lists.origin (lists : Lists entities (nowOf entities keep) entity)
    (distinct : Distinct entities) (member : keep ∈ entities) : Related entities keep entity := by
  obtain ⟨origin, isMember, card, related⟩ := lists.related
  rwa [distinct.eq isMember member (card.trans (card_nowOf _ keep))] at related

variable (distinct : Distinct entities)
  (straight : ∀ entity ∈ entities, ¬Circular entities entity) (unshadowed : Unshadowed entities)

include distinct unshadowed

theorem step_eq : (references entities).Step = Refers entities := by
  funext entity target
  exact propext (step_iff_refers distinct unshadowed)

include straight

theorem acyclic_of_straight : (references entities).Acyclic := by
  intro entity circle
  rw [step_eq distinct unshadowed] at circle
  obtain ⟨target, refers, -⟩ := TransGen.head'_iff.mp circle
  exact straight entity refers.mem circle

theorem related_iff : Related entities entity other ↔
    rootOf entities entity = rootOf entities other := by
  rw [Related, ← step_eq distinct unshadowed]
  exact Links.connected_iff (acyclic_of_straight distinct straight unshadowed)

/-- What an entity that is left lists: the others with its end. -/
theorem mem_aliases_nowOf (plain : ∀ entity ∈ entities, entity.aliases = [])
    (member : keep ∈ entities) (survives : Survives entities keep) {name : Label} :
    name ∈ (nowOf entities keep).aliases ↔
      ∃ entity ∈ entities, Related entities keep entity ∧ entity ≠ keep ∧ entity.name = name := by
  have acyclic := acyclic_of_straight distinct straight unshadowed
  obtain alone | kept := (survives_iff acyclic distinct member).mp survives
  · rw [nowOf_of_refsOf acyclic alone, plain keep member]
    refine iff_of_false List.not_mem_nil ?_
    rintro ⟨entity, isMember, related, apart, -⟩
    have same := (related_iff distinct straight unshadowed).mp related
    have still : ∀ entity ∈ entities, rootOf entities entity = rootOf entities keep →
        rootOf entities entity = entity := by
      intro entity isMember same
      by_contra moves
      have isRef := mem_refsOf.mpr ⟨isMember, moves, same⟩
      rw [alone] at isRef
      cases isRef
    rw [← still entity isMember same.symm, ← same, still keep member rfl] at apart
    exact apart rfl
  · rw [nowOf_of_keepOf acyclic kept, mem_aliases_foldInto]
    dsimp only
    constructor
    · rintro ⟨entity, inGroup, apart, isName⟩
      have owned := (apart_groups acyclic).owned _
        (mem_groups.mpr ⟨rfl, List.ne_nil_of_mem (mem_of_keepOf kept)⟩) entity inGroup
      refine ⟨entity, ?_, (related_iff distinct straight unshadowed).mpr owned.symm, apart, isName⟩
      obtain rfl | isRef := List.mem_cons.mp inGroup
      · exact rootOf_mem member
      · exact (mem_refsOf.mp isRef).1
    · rintro ⟨entity, isMember, related, apart, isName⟩
      have same := (related_iff distinct straight unshadowed).mp related
      exact ⟨entity, mem_group isMember same.symm, apart, isName⟩

/-- Of related entities one survives. -/
theorem exists_unique_related (member : entity ∈ entities) :
    ∃! keep, keep ∈ entities ∧ Related entities keep entity ∧ Survives entities keep := by
  have related : ∀ keep, Related entities keep entity ↔
      rootOf entities keep = rootOf entities entity :=
    fun _ => related_iff distinct straight unshadowed
  simp only [related]
  exact exists_unique_survives (acyclic_of_straight distinct straight unshadowed) distinct member

theorem lists_nowOf (plain : ∀ entity ∈ entities, entity.aliases = []) (member : keep ∈ entities)
    (survives : Survives entities keep) (isMember : entity ∈ entities)
    (related : Related entities keep entity) (apart : entity ≠ keep) :
    Lists entities (nowOf entities keep) entity := by
  obtain ⟨path, kind, source, -⟩ := entityCardKey_inj.mp (card_nowOf entities keep)
  obtain ⟨path', source', kind'⟩ := related.same
  exact ⟨(mem_aliases_nowOf distinct straight unshadowed plain member survives).mpr
      ⟨entity, isMember, related, apart, rfl⟩, path.trans path', source.trans source',
    kind.trans kind', keep, member, (card_nowOf _ keep).symm, related⟩

/-- Without circles and namesakes of the other kind, folding loses nothing. -/
theorem collapses_collapseAliases (plain : ∀ entity ∈ entities, entity.aliases = []) :
    Collapses entities (collapseAliases entities) := by
  refine ⟨fun entity member => ?_, fun kept isLeft name listed => ?_, fun entity member _ => ?_,
    fun entity member circle => absurd circle (straight entity member),
    fun entity member fixed => ?_,
    fun kept isLeft entity member lists isDocumented => ?_⟩
  · by_cases survives : Survives entities entity
    · exact .inl survives
    · obtain ⟨keep, ⟨isMember, related, keeps⟩, unique⟩ :=
        exists_unique_related distinct straight unshadowed member
      have apart : entity ≠ keep := fun same => survives (same ▸ keeps)
      refine .inr ⟨nowOf entities keep, ⟨mem_collapseAliases.mpr ⟨keep, isMember, keeps, rfl⟩,
        lists_nowOf distinct straight unshadowed plain isMember keeps member related apart⟩, ?_⟩
      rintro other ⟨isLeft, lists⟩
      obtain ⟨origin, inEntities, survives', rfl⟩ := mem_collapseAliases.mp isLeft
      rw [unique origin ⟨inEntities,
        lists.origin distinct inEntities, survives'⟩]
  · obtain ⟨keep, isMember, survives, rfl⟩ := mem_collapseAliases.mp isLeft
    obtain ⟨entity, member, related, apart, rfl⟩ :=
      (mem_aliases_nowOf distinct straight unshadowed plain isMember survives).mp listed
    refine ⟨entity, member, rfl, fun survives' => apart ?_,
      lists_nowOf distinct straight unshadowed plain isMember survives member related apart⟩
    obtain ⟨one, -, unique⟩ := exists_unique_related distinct straight unshadowed isMember
    exact (unique entity ⟨member, .symm _ _ related, survives'⟩).trans
      (unique keep ⟨isMember, .refl _, survives⟩).symm
  · obtain ⟨keep, ⟨isMember, related, survives⟩, unique⟩ :=
      exists_unique_related distinct straight unshadowed member
    refine ⟨nowOf entities keep, ⟨mem_collapseAliases.mpr ⟨keep, isMember, survives, rfl⟩,
      keep, isMember, (card_nowOf _ keep).symm, related⟩, ?_⟩
    rintro other ⟨isLeft, origin, inEntities, card, related'⟩
    obtain ⟨keep', isMember', survives', rfl⟩ := mem_collapseAliases.mp isLeft
    obtain rfl := distinct.eq inEntities isMember' (card.trans (card_nowOf _ keep'))
    rw [unique origin ⟨inEntities, related', survives'⟩]
  · have acyclic := acyclic_of_straight distinct straight unshadowed
    have alone : refsOf entities (rootOf entities entity) = [] := by
      rw [List.eq_nil_iff_forall_not_mem]
      intro other isRef
      obtain ⟨-, moves, same⟩ := mem_refsOf.mp isRef
      have related := (related_iff distinct straight unshadowed).mpr same
      obtain rfl := Related.eq_of_unfoldable related (.inr fixed)
      obtain ⟨target, step⟩ := rootOf_ne_iff.mp moves
      rw [(refers_of_step step).foldable] at fixed
      cases fixed
    refine mem_collapseAliases.mpr ⟨entity, member, ?_, nowOf_of_refsOf acyclic alone⟩
    exact (survives_iff acyclic distinct member).mpr (.inl alone)
  · obtain ⟨keep, isMember, survives, rfl⟩ := mem_collapseAliases.mp isLeft
    have acyclic := acyclic_of_straight distinct straight unshadowed
    obtain ⟨one, inEntities, related, apart, name⟩ :=
      (mem_aliases_nowOf distinct straight unshadowed plain isMember survives).mp lists.name
    obtain ⟨path, source, kind⟩ := related.same
    obtain ⟨path', source', kind'⟩ := (lists.origin distinct isMember).same
    obtain rfl := distinct.eq_of_name member inEntities (path.symm.trans path')
      (source.symm.trans source') (kind.symm.trans kind') name
    have same := (related_iff distinct straight unshadowed).mp related
    obtain alone | kept := (survives_iff acyclic distinct isMember).mp survives
    · have listed := lists.name
      rw [nowOf_of_refsOf acyclic alone, plain keep isMember] at listed
      cases listed
    · rw [nowOf_of_keepOf acyclic kept]
      exact documented_foldInto (mem_group member same.symm) apart isDocumented

end Sound

/-! ## Any order -/

section Orders

variable (same : ∀ entity, entity ∈ order ↔ entity ∈ entities)

include same

theorem refers_congr : Refers order = Refers entities := by
  funext entity target
  refine propext ⟨fun refers => ?_, fun refers => ?_⟩
  · exact { refers with
      mem := (same _).mp refers.mem, target_mem := (same _).mp refers.target_mem }
  · exact { refers with
      mem := (same _).mpr refers.mem, target_mem := (same _).mpr refers.target_mem }

theorem lists_congr : Lists order = Lists entities := by
  funext kept entity
  refine propext ⟨fun lists => ?_, fun lists => ?_⟩
  · obtain ⟨origin, member, card, related⟩ := lists.related
    rw [Related, refers_congr same] at related
    exact { lists with related := ⟨origin, (same _).mp member, card, related⟩ }
  · obtain ⟨origin, member, card, related⟩ := lists.related
    rw [Related, ← refers_congr same] at related
    exact { lists with related := ⟨origin, (same _).mpr member, card, related⟩ }

theorem Collapses.congr (collapses : Collapses order left) : Collapses entities left := by
  obtain ⟨accounted, listed, one, circular, unfoldable, documented⟩ := collapses
  simp only [Straight, Circular, Related, refers_congr same, lists_congr same, same]
    at accounted listed one circular unfoldable documented
  exact ⟨accounted, listed, one, circular, unfoldable, documented⟩

omit same

/-- The group of an entity, by its references. -/
theorem mem_refsOf_iff (distinct : Distinct entities)
    (straight : ∀ entity ∈ entities, ¬Circular entities entity) (unshadowed : Unshadowed entities) :
    other ∈ refsOf entities (rootOf entities entity) ↔
      other ∈ entities ∧ (∃ target, Refers entities other target) ∧
        Related entities other entity := by
  rw [mem_refsOf, rootOf_ne_iff, related_iff distinct straight unshadowed,
    step_eq distinct unshadowed]

/-- What is left does not depend on the order. -/
theorem survives_congr (perm : order.Perm entities) (distinct : Distinct entities)
    (straight : ∀ entity ∈ entities, ¬Circular entities entity) (unshadowed : Unshadowed entities)
    (member : entity ∈ entities) : Survives order entity ↔ Survives entities entity := by
  have same : ∀ entity, entity ∈ order ↔ entity ∈ entities := fun _ => perm.mem_iff
  have distinct' : Distinct order := (perm.map _).nodup_iff.mpr distinct
  have straight' : ∀ entity ∈ order, ¬Circular order entity := by
    simpa only [Circular, refers_congr same, same] using straight
  have unshadowed' : Unshadowed order := by
    simpa only [Unshadowed, refers_congr same, same] using unshadowed
  have refs : ∀ other, other ∈ refsOf order (rootOf order entity) ↔
      other ∈ refsOf entities (rootOf entities entity) := by
    intro other
    rw [mem_refsOf_iff distinct' straight' unshadowed', mem_refsOf_iff distinct straight unshadowed,
      Related, refers_congr same, same]
  have acyclic := acyclic_of_straight distinct straight unshadowed
  have acyclic' := acyclic_of_straight distinct' straight' unshadowed'
  rw [survives_iff acyclic' distinct' ((same _).mpr member), survives_iff acyclic distinct member]
  refine or_congr (by simp only [List.eq_nil_iff_forall_not_mem, refs]) ?_
  by_cases empty : refsOf entities (rootOf entities entity) = []
  · have empty' : refsOf order (rootOf order entity) = [] := by
      simpa only [List.eq_nil_iff_forall_not_mem, refs] using empty
    rw [empty, empty']
  · have empty' : refsOf order (rootOf order entity) ≠ [] := by
      simpa only [ne_eq, List.eq_nil_iff_forall_not_mem, refs] using empty
    obtain ⟨keep, kept⟩ := exists_keepOf id empty
    obtain ⟨keep', kept'⟩ := exists_keepOf id empty'
    have names : ∀ a ∈ refsOf order (rootOf order entity), ∀ b ∈ refsOf order (rootOf order entity),
        a.name = b.name → a = b := by
      intro a inA b inB name
      obtain ⟨memberA, -, relatedA⟩ :=
        (mem_refsOf_iff distinct straight unshadowed).mp ((refs a).mp inA)
      obtain ⟨memberB, -, relatedB⟩ :=
        (mem_refsOf_iff distinct straight unshadowed).mp ((refs b).mp inB)
      obtain ⟨path, source, kind⟩ := relatedA.same
      obtain ⟨path', source', kind'⟩ := relatedB.same
      exact distinct.eq_of_name memberB memberA (path.trans path'.symm) (source.trans source'.symm)
        (kind.trans kind'.symm) name
    rw [kept, kept', keepOf_unique kept' kept refs names]

end Orders

/-! ## What circles and namesakes do -/

section Unsound

/-- The end of a chain is dropped once another entity has it. -/
theorem not_survives_rootOf (moves : rootOf entities entity ≠ entity) (member : entity ∈ entities) :
    ¬Survives entities (rootOf entities entity) := by
  have isRef : entity ∈ refsOf entities (rootOf entities entity) :=
    mem_refsOf.mpr ⟨member, moves, rfl⟩
  have apart : rootOf entities entity ∉ refsOf entities (rootOf entities entity) := by
    intro isRef
    obtain ⟨-, moves, same⟩ := mem_refsOf.mp isRef
    exact moves same
  have isGroup : (rootOf entities entity, refsOf entities (rootOf entities entity)) ∈
      groups entities := mem_groups.mpr ⟨rfl, List.ne_nil_of_mem isRef⟩
  have dropped := card_mem_dropped ⟨id, []⟩ isGroup (List.ne_nil_of_mem isRef) apart
  exact fun survives => (survives_iff_not_dropped.mp survives).2 dropped

/-- A circle of the walk loses one of its fields. -/
theorem exists_lost_of_circle (circle : TransGen (references entities).Step entity entity) :
    ∃ lost ∈ entities, Circular entities lost ∧ ¬Survives entities lost := by
  obtain ⟨target, step, -⟩ := TransGen.head'_iff.mp circle
  have member := (step_iff.mp step).1
  have moves := rootOf_ne_iff.mpr ⟨target, step⟩
  have refersOfStep : (references entities).Step ≤ Refers entities := fun _ _ => refers_of_step
  have onCircle := Links.Reaches.cycle (Links.reaches_walk _ [entity] entity) circle
  exact ⟨rootOf entities entity, rootOf_mem member,
    TransGen.mono refersOfStep _ _ onCircle,
    not_survives_rootOf moves member⟩

/-- With a namesake of the other kind behind it, a field that is referred to is not found. -/
theorem exists_order_of_namesake (refers : Refers entities entity target)
    (member : other ∈ entities)
    (folds : foldable other = true) (path : other.modelPath = target.modelPath)
    (source : other.source = target.source) (name : other.name = target.name)
    (kind : other.kind ≠ target.kind) : ∃ order : List Entity, order.Perm entities ∧
      rootOf order entity = entity := by
  refine ⟨entities.erase other ++ [other], ?_, ?_⟩
  · exact (List.perm_append_singleton other _).trans (List.perm_cons_erase member).symm
  · by_contra moves
    obtain ⟨found, step⟩ := rootOf_ne_iff.mp moves
    obtain ⟨-, isReferent⟩ := step_iff.mp step
    obtain ⟨name', isAlias, -, isFound, -, sameKind⟩ := referentOf_eq_some.mp isReferent
    obtain rfl := Option.some.inj (refers.aliasOf.symm.trans isAlias)
    have isLast : byName (entities.erase other ++ [other])
        (fieldKey entity.modelPath entity.source target.name) = some other := by
      rw [byName, List.reverse_append, List.reverse_singleton, List.singleton_append,
        List.find?_cons_of_pos]
      rw [folds, path, source, name, refers.modelPath, refers.source]
      simp
    obtain rfl := Option.some.inj (isLast.symm.trans isFound)
    exact kind (sameKind.trans refers.kind.symm)

variable (distinct : Distinct entities)

include distinct

/-- A circle is one of the walk when its fields come last. -/
theorem exists_order_of_circle (circle : Circular entities entity) :
    ∃ order : List Entity, order.Perm entities ∧
      TransGen (references order).Step entity entity := by
  classical
  let inCircle : Entity → Bool := fun other => decide (ReflTransGen (Refers entities) entity other)
  -- The entities that the circle leads to come last.
  let order := entities.filter (fun other => !inCircle other) ++ entities.filter inCircle
  have perm : order.Perm entities := by
    have split := List.filter_append_perm (fun other => !inCircle other) entities
    simpa only [Bool.not_not] using split
  have distinct' : Distinct order := (perm.map _).nodup_iff.mpr distinct
  have kinds : ∀ other, ReflTransGen (Refers entities) entity other → other.kind = entity.kind := by
    intro other reaches
    induction reaches with
    | refl => rfl
    | tail _ refers ih => exact refers.kind.trans ih
  have steps : ∀ {source target}, ReflTransGen (Refers entities) entity source →
      Refers entities source target → (references order).Step source target := by
    intro source target reaches refers
    have refers' : Refers order source target := by
      rw [refers_congr fun _ => perm.mem_iff]
      exact refers
    refine step_of_refers distinct' refers' fun found isFound => ?_
    have leads : inCircle target = true := decide_eq_true (reaches.tail refers)
    have isLast : ∃ last, (entities.filter inCircle).reverse.find? (fun entity =>
        foldable entity && fieldKey entity.modelPath entity.source entity.name =
          fieldKey source.modelPath source.source target.name) = some last := by
      refine Option.isSome_iff_exists.mp (List.find?_isSome.mpr ⟨target, ?_, ?_⟩)
      · exact List.mem_reverse.mpr (List.mem_filter.mpr ⟨refers.target_mem, leads⟩)
      · rw [refers.target_foldable, refers.modelPath, refers.source]
        simp
    obtain ⟨last, first⟩ := isLast
    rw [byName, List.reverse_append, List.find?_append, first, Option.some_or] at isFound
    obtain rfl := Option.some.inj isFound
    have inCircle := (List.mem_filter.mp (List.mem_reverse.mp (List.mem_of_find?_eq_some first))).2
    exact (kinds last (of_decide_eq_true inCircle)).trans (kinds target (reaches.tail refers)).symm
  refine ⟨order, perm, ?_⟩
  have lifted : ∀ other, TransGen (Refers entities) entity other →
      TransGen (references order).Step entity other := by
    intro other leads
    induction leads with
    | single refers => exact .single (steps .refl refers)
    | tail leads refers ih => exact ih.tail (steps leads.to_reflTransGen refers)
  exact lifted entity circle

theorem not_circular_of_collapses (collapses : CollapsesInAnyOrder entities) :
    ∀ entity ∈ entities, ¬Circular entities entity := by
  intro entity member circle
  obtain ⟨order, perm, circle'⟩ := exists_order_of_circle distinct circle
  have same : ∀ entity, entity ∈ order ↔ entity ∈ entities := fun _ => perm.mem_iff
  obtain ⟨lost, isMember, isCircular, gone⟩ :=
    exists_lost_of_circle circle'
  rw [Circular, refers_congr same] at isCircular
  exact gone ((collapses order perm).1.circular lost ((same _).mp isMember) isCircular)

theorem unshadowed_of_collapses (collapses : CollapsesInAnyOrder entities) :
    Unshadowed entities := by
  intro entity target refers other member folds path source name
  by_contra kind
  have straight := not_circular_of_collapses distinct collapses
  obtain ⟨order, perm, isRoot⟩ :=
    exists_order_of_namesake refers member folds path source name kind
  have same : ∀ entity, entity ∈ order ↔ entity ∈ entities := fun _ => perm.mem_iff
  have distinct' : Distinct order := (perm.map _).nodup_iff.mpr distinct
  have refersOfStep : ∀ a b, (references order).Step a b → Refers entities a b := fun a b step => by
    rw [← refers_congr same]
    exact refers_of_step step
  have acyclic : (references order).Acyclic := by
    intro node circle
    obtain ⟨next, step, -⟩ := TransGen.head'_iff.mp circle
    exact straight node ((same _).mp (step_iff.mp step).1) (TransGen.mono refersOfStep _ _ circle)
  -- One is left of the reference and one of what it refers to.
  obtain ⟨keep, ⟨inOrder, end_, survives⟩, -⟩ :=
    exists_unique_survives acyclic distinct' ((same _).mpr refers.mem)
  obtain ⟨keep', ⟨inOrder', end_', survives'⟩, -⟩ :=
    exists_unique_survives acyclic distinct' ((same _).mpr refers.target_mem)
  have related : ∀ {a b}, rootOf order a = rootOf order b → Related entities a b := fun ends =>
    EqvGen.mono refersOfStep _ _ ((Links.connected_iff acyclic).mpr ends)
  obtain ⟨one, -, unique⟩ := (collapses order perm).1.one entity refers.mem
    fun other related circle => by
      obtain ⟨next, step, -⟩ := TransGen.head'_iff.mp circle
      exact straight other step.mem circle
  have left := unique (nowOf order keep) ⟨mem_collapseAliases.mpr ⟨keep, inOrder, survives, rfl⟩,
    keep, (same _).mp inOrder, (card_nowOf _ keep).symm, related end_⟩
  have left' := unique (nowOf order keep')
    ⟨mem_collapseAliases.mpr ⟨keep', inOrder', survives', rfl⟩, keep', (same _).mp inOrder',
      (card_nowOf _ keep').symm,
    .trans _ _ _ (related end_') (.symm _ _ (.rel _ _ refers))⟩
  have cards := congrArg entityCardKey (left.trans left'.symm)
  rw [card_nowOf, card_nowOf] at cards
  obtain rfl := distinct'.eq inOrder inOrder' cards
  have ends : rootOf order target = entity := by rw [← end_', end_, isRoot]
  have reaches := Links.reaches_walk (references order) [target] target
  rw [show (references order).walk [target] target = entity from ends] at reaches
  exact straight entity refers.mem (.head' refers (ReflTransGen.mono refersOfStep _ _ reaches))

end Unsound

/-- Folding is right in every order if and only if no references go around in a circle and no field
that is referred to has a namesake of the other kind in its card. -/
theorem collapses_iff (entities : List Entity) (distinct : Distinct entities)
    (plain : ∀ entity ∈ entities, entity.aliases = []) : CollapsesInAnyOrder entities ↔
      (∀ entity ∈ entities, ¬Circular entities entity) ∧ Unshadowed entities := by
  constructor
  · exact fun collapses => ⟨not_circular_of_collapses distinct collapses,
      unshadowed_of_collapses distinct collapses⟩
  · rintro ⟨straight, unshadowed⟩ order perm
    have same : ∀ entity, entity ∈ order ↔ entity ∈ entities := fun _ => perm.mem_iff
    refine ⟨Collapses.congr same ?_, fun entity member _ =>
      survives_congr perm distinct straight unshadowed member⟩
    refine collapses_collapseAliases ((perm.map _).nodup_iff.mpr distinct) ?_ ?_ ?_
    · simpa only [Circular, refers_congr same, same] using straight
    · simpa only [Unshadowed, refers_congr same, same] using unshadowed
    · simpa only [same] using plain

/-- A dimension that is defined as another one. -/
def aliasField (name target : Label) : Entity where
  kind := .dimension
  name := name
  source := some ⟨"orders", by decide, by decide +kernel⟩
  modelPath := ⟨"orders.malloy", by decide, by decide +kernel⟩
  doc := ""
  embedDoc := ""
  relationship := none
  aliases := []
  code := some target.text
  aliasOf := some target
  dataType := some "string"
  joinPath := none

def labelSite : Label := ⟨"site", by decide, by decide +kernel⟩

def labelPlace : Label := ⟨"place", by decide, by decide +kernel⟩

/-- Two dimensions that are each defined as the other. -/
def siteAndPlace : List Entity :=
  [aliasField labelSite labelPlace, aliasField labelPlace labelSite]

theorem distinct_siteAndPlace : Distinct siteAndPlace := by
  unfold Distinct
  decide +kernel

theorem plain_siteAndPlace : ∀ entity ∈ siteAndPlace, entity.aliases = [] := by decide +kernel

theorem collapses_iff_siteAndPlace : CollapsesInAnyOrder siteAndPlace ↔
    (∀ entity ∈ siteAndPlace, ¬Circular siteAndPlace entity) ∧ Unshadowed siteAndPlace :=
  collapses_iff siteAndPlace distinct_siteAndPlace plain_siteAndPlace

theorem rootOf_siteAndPlace :
    rootOf siteAndPlace (aliasField labelSite labelPlace) = aliasField labelPlace labelSite ∧
      rootOf siteAndPlace (aliasField labelPlace labelSite) = aliasField labelSite labelPlace := by
  have site : (references siteAndPlace).next (aliasField labelSite labelPlace) =
      some (aliasField labelPlace labelSite) := by decide +kernel
  have place : (references siteAndPlace).next (aliasField labelPlace labelSite) =
      some (aliasField labelSite labelPlace) := by decide +kernel
  constructor
  · rw [rootOf, Links.walk_of_some site, if_neg (by decide +kernel), Links.walk_of_some place,
      if_pos (by decide +kernel)]
  · rw [rootOf, Links.walk_of_some place, if_neg (by decide +kernel), Links.walk_of_some site,
      if_pos (by decide +kernel)]

/-- Of two dimensions that are each defined as the other, neither is left. -/
theorem not_survives_siteAndPlace : ∀ entity ∈ siteAndPlace, ¬Survives siteAndPlace entity := by
  obtain ⟨site, place⟩ := rootOf_siteAndPlace
  have apart : aliasField labelSite labelPlace ≠ aliasField labelPlace labelSite := by
    decide +kernel
  intro entity member
  obtain rfl | rfl : entity = aliasField labelSite labelPlace ∨
      entity = aliasField labelPlace labelSite := by simpa [siteAndPlace] using member
  · rw [← place]
    exact not_survives_rootOf (by rwa [place]) (by decide +kernel)
  · rw [← site]
    exact not_survives_rootOf (by rw [site]; exact apart.symm) (by decide +kernel)

/-- Dimensions in a circle are lost: they are not left, and what is left does not list them. -/
theorem not_collapses_circle : collapseAliases siteAndPlace = [] ∧
    ¬CollapsesInAnyOrder siteAndPlace := by
  have none : collapseAliases siteAndPlace = [] := by
    rw [List.eq_nil_iff_forall_not_mem]
    intro kept isLeft
    obtain ⟨origin, member, survives, -⟩ := mem_collapseAliases.mp isLeft
    exact not_survives_siteAndPlace origin member survives
  refine ⟨none, fun collapses => ?_⟩
  obtain ⟨accounted, -⟩ := (collapses siteAndPlace (.refl _)).1
  have member : aliasField labelSite labelPlace ∈ siteAndPlace := List.mem_cons_self
  obtain survives | ⟨kept, ⟨isLeft, -⟩, -⟩ := accounted _ member
  · exact not_survives_siteAndPlace _ member survives
  · rw [none] at isLeft
    cases isLeft

end MalloyPublisher.Context
