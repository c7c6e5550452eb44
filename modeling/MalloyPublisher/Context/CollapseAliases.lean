import MalloyPublisher.Context.Entities
import MalloyPublisher.Foundations.Groups
import MalloyPublisher.Foundations.Links
import Mathlib.Data.List.Sort
import Mathlib.Data.Prod.Lex

/-!
# Folding aliases

A field whose whole definition is a reference to a sibling is another spelling of it. The spellings
of one column are folded into one of them: chains of references are walked to their ends, the fields
with the same end make a group with it, and the group keeps an alias, a documented one if there is
one.

Fields are changed as the groups are gone through, so a group finds what the groups before it left.

## Main definitions

* `referentOf`, `rootOf` — what a field is defined as, directly and in the end
* `collapseAliases` — the folding

## Main results

* `mem_collapseAliases_of_source` — a source is left as it is
* `card_mem_dropped` — the field that a group refers to is dropped
* `survives_iff` — what is left, where references go around in no circle
-/

namespace MalloyPublisher.Context

open Foundations

/-! ## The code -/

/-- A field that a reference could name. -/
def foldable (entity : Entity) : Bool :=
  (entity.kind = .dimension || entity.kind = .measure) && entity.joinPath.isNone

/-- The key of a name in a card. -/
def fieldKey (modelPath : Label) (source : Option Label) (name : Label) : String :=
  keyOf [modelPath.text, sourceText source, name.text]

/-- The foldable entity that a key names. The last one is the one that is kept. -/
def byName (entities : List Entity) (key : String) : Option Entity :=
  entities.reverse.find? fun entity =>
    foldable entity && fieldKey entity.modelPath entity.source entity.name = key

/-- The field that an entity is defined as, when there is one. A measure over a dimension is no
spelling of it. -/
def referentOf (entities : List Entity) (entity : Entity) : Option Entity :=
  match entity.aliasOf with
  | none => none
  | some name =>
    if foldable entity then
      (byName entities (fieldKey entity.modelPath entity.source name)).filter fun target =>
        target ≠ entity && target.kind = entity.kind
    else none

theorem mem_of_byName {entities : List Entity} {key : String} {target : Entity}
    (found : byName entities key = some target) :
    target ∈ entities ∧ foldable target = true ∧
      fieldKey target.modelPath target.source target.name = key := by
  have member := List.mem_of_find?_eq_some found
  have holds := List.find?_some found
  rw [Bool.and_eq_true, decide_eq_true_eq] at holds
  exact ⟨List.mem_reverse.mp member, holds⟩

theorem referentOf_eq_some {entities : List Entity} {entity target : Entity} :
    referentOf entities entity = some target ↔ ∃ name, entity.aliasOf = some name ∧
      foldable entity = true ∧
      byName entities (fieldKey entity.modelPath entity.source name) = some target ∧
      target ≠ entity ∧ target.kind = entity.kind := by
  unfold referentOf
  cases isAlias : entity.aliasOf with
  | none => simp
  | some name =>
    by_cases folds : foldable entity = true
    · simp [folds, Option.filter_eq_some_iff]
    · simp [folds]

/-- What the entities of a list are defined as. -/
def references (entities : List Entity) : Links Entity where
  nodes := entities
  next entity := if entity ∈ entities then referentOf entities entity else none
  closed entity target next := by
    split_ifs at next
    · obtain ⟨name, -, -, found, -⟩ := referentOf_eq_some.mp next
      exact (mem_of_byName found).1

/-- The end of a field's chain of references, which stops where it comes back. -/
def rootOf (entities : List Entity) (entity : Entity) : Entity :=
  (references entities).walk [entity] entity

/-- The entities that refer to another one in the end. -/
def folding (entities : List Entity) : List Entity :=
  entities.filter fun entity =>
    foldable entity && entity.aliasOf.isSome && rootOf entities entity ≠ entity

/-- The groups, each by the end of its chains. -/
def groups (entities : List Entity) : List (Entity × List Entity) :=
  groupsOf (rootOf entities) (folding entities)

/-- The entities as they are now, and the keys of those that were folded into others. -/
structure Folds where
  now : Entity → Entity
  dropped : List String

def documented (entity : Entity) : Bool := entity.embedDoc ≠ ""

/-- A documented name before others, and else by the order of names. -/
def Before (now : Entity → Entity) (a b : Entity) : Prop :=
  if documented (now b) ≠ documented (now a) then documented (now a) = true
  else sortLE a.name.text b.name.text = true

instance (now : Entity → Entity) : DecidableRel (Before now) := fun _ _ =>
  inferInstanceAs (Decidable (ite _ _ _))

/-- The spelling that a group keeps. -/
def keepOf (now : Entity → Entity) (refs : List Entity) : Option Entity :=
  (refs.insertionSort (Before now)).head?

/-- An entity with the doc of another one, unless it has its own. -/
def withDocOf (entity : Entity) (donor : Option Entity) : Entity :=
  if documented entity then entity
  else match donor with
    | none => entity
    | some donor => { entity with doc := donor.doc, embedDoc := donor.embedDoc }

/-- Fold the members of a group into the one it keeps. -/
def foldGroup (folds : Folds) (group : Entity × List Entity) : Folds :=
  match keepOf folds.now group.2 with
  | none => folds
  | some keep =>
    let members := group.1 :: group.2
    let donor := members.find? fun entity => entity ≠ keep && documented (folds.now entity)
    let folded := members.filter (· ≠ keep)
    let kept := withDocOf (folds.now keep) (donor.map folds.now)
    { now := Function.update folds.now keep { kept with aliases := folded.map Entity.name }
      dropped := folds.dropped ++ folded.map entityCardKey }

def collapseAliases (entities : List Entity) : List Entity :=
  let folds := (groups entities).foldl foldGroup ⟨id, []⟩
  (entities.filter fun entity => entityCardKey entity ∉ folds.dropped).map folds.now

/-! ## The spelling that is kept -/

section Kept

variable {now : Entity → Entity} {refs refs' : List Entity} {keep keep' a b : Entity}

/-- The order of spellings is that of a pair. -/
theorem before_iff : Before now a b ↔
    toLex (!documented (now a), utf16 a.name.text) ≤
      toLex (!documented (now b), utf16 b.name.text) := by
  rw [Prod.Lex.toLex_le_toLex]
  unfold Before
  rw [sortLE_iff]
  cases documented (now a) <;> cases documented (now b) <;> simp

instance : Std.Total (Before now) :=
  ⟨fun _ _ => by simpa only [before_iff] using le_total _ _⟩

instance : IsTrans Entity (Before now) :=
  ⟨fun _ _ _ => by simpa only [before_iff] using le_trans⟩

theorem name_eq_of_before (before : Before now a b) (before' : Before now b a) :
    a.name = b.name := by
  have same := le_antisymm (before_iff.mp before) (before_iff.mp before')
  exact Label.text_injective (utf16_injective (Prod.ext_iff.mp same).2)

theorem mem_of_keepOf (kept : keepOf now refs = some keep) : keep ∈ refs :=
  (List.mem_insertionSort _).mp (List.mem_of_mem_head? kept)

theorem exists_keepOf (now : Entity → Entity) (nonempty : refs ≠ []) :
    ∃ keep, keepOf now refs = some keep := by
  cases sorted : refs.insertionSort (Before now) with
  | nil =>
    have empty := List.perm_insertionSort (Before now) refs
    rw [sorted] at empty
    exact absurd empty.symm.eq_nil nonempty
  | cons keep rest => exact ⟨keep, by rw [keepOf, sorted]; rfl⟩

theorem before_keepOf (kept : keepOf now refs = some keep) :
    ∀ entity ∈ refs, Before now keep entity := by
  intro entity member
  have ordered := List.pairwise_insertionSort (Before now) refs
  have inSorted := (List.mem_insertionSort (Before now)).mpr member
  unfold keepOf at kept
  cases sorted : refs.insertionSort (Before now) with
  | nil => rw [sorted] at kept; cases kept
  | cons first rest =>
    rw [sorted] at kept ordered inSorted
    cases kept
    obtain rfl | later := List.mem_cons.mp inSorted
    · exact Std.Refl.refl _
    · exact List.rel_of_pairwise_cons ordered later

/-- Which spelling is kept depends on the spellings there are. -/
theorem keepOf_unique (kept : keepOf now refs = some keep) (kept' : keepOf now refs' = some keep')
    (same : ∀ entity, entity ∈ refs ↔ entity ∈ refs')
    (names : ∀ entity ∈ refs, ∀ other ∈ refs, entity.name = other.name → entity = other) :
    keep = keep' := by
  have member := mem_of_keepOf kept
  have member' := (same keep').mpr (mem_of_keepOf kept')
  have before := before_keepOf kept keep' member'
  have before' := before_keepOf kept' keep ((same keep).mp member)
  exact names keep member keep' member' (name_eq_of_before before before')

theorem keepOf_congr (unchanged : ∀ entity ∈ refs, now entity = entity) :
    keepOf now refs = keepOf id refs := by
  have sorted := List.map_insertionSort (r := Before now) (s := Before id) id refs
    fun a inA b inB => by
      rw [Before, Before, unchanged a inA, unchanged b inB]
      rfl
  rw [List.map_id, List.map_id] at sorted
  rw [keepOf, keepOf, sorted]

end Kept

/-! ## Going through the groups -/

section Folding

variable {folds : Folds} {gs : List (Entity × List Entity)} {group : Entity × List Entity}
  {keep entity : Entity} {key : String}

/-- What a group makes of the spelling it keeps. -/
def foldInto (now : Entity → Entity) (group : Entity × List Entity) (keep : Entity) : Entity :=
  let members := group.1 :: group.2
  let donor := members.find? fun entity => entity ≠ keep && documented (now entity)
  { withDocOf (now keep) (donor.map now) with
    aliases := (members.filter (· ≠ keep)).map Entity.name }

theorem foldGroup_of_keepOf (kept : keepOf folds.now group.2 = some keep) :
    foldGroup folds group =
      { now := Function.update folds.now keep (foldInto folds.now group keep)
        dropped := folds.dropped ++
          ((group.1 :: group.2).filter (· ≠ keep)).map entityCardKey } := by
  simp only [foldGroup, kept]
  rfl

theorem foldGroup_of_none (none : keepOf folds.now group.2 = none) :
    foldGroup folds group = folds := by simp only [foldGroup, none]

/-- An entity's card stays what it is of. -/
theorem card_foldInto (now : Entity → Entity) (group : Entity × List Entity) (keep : Entity) :
    entityCardKey (foldInto now group keep) = entityCardKey (now keep) := by
  simp only [foldInto, withDocOf]
  split_ifs
  · rfl
  · split <;> rfl

theorem card_now (gs : List (Entity × List Entity)) (entity : Entity) :
    entityCardKey ((gs.foldl foldGroup ⟨id, []⟩).now entity) = entityCardKey entity := by
  induction gs using List.reverseRecOn with
  | nil => rfl
  | append_singleton gs group ih =>
    rw [List.foldl_append, List.foldl_cons, List.foldl_nil]
    cases kept : keepOf (gs.foldl foldGroup ⟨id, []⟩).now group.2 with
    | none => rwa [foldGroup_of_none kept]
    | some keep =>
      rw [foldGroup_of_keepOf kept]
      dsimp only
      by_cases same : entity = keep
      · subst same
        rw [Function.update_self, card_foldInto, ih]
      · rwa [Function.update_of_ne same]

theorem dropped_foldGroup (member : key ∈ folds.dropped) :
    key ∈ (foldGroup folds group).dropped := by
  cases kept : keepOf folds.now group.2 with
  | none => rwa [foldGroup_of_none kept]
  | some keep =>
    rw [foldGroup_of_keepOf kept]
    exact List.mem_append_left _ member

theorem dropped_foldl (gs : List (Entity × List Entity)) (member : key ∈ folds.dropped) :
    key ∈ (gs.foldl foldGroup folds).dropped := by
  induction gs generalizing folds with
  | nil => exact member
  | cons group gs ih => exact ih (dropped_foldGroup member)

/-- The field that a group refers to is dropped, whatever the group finds. -/
theorem card_mem_dropped (folds : Folds) (isGroup : group ∈ gs) (nonempty : group.2 ≠ [])
    (apart : group.1 ∉ group.2) :
    entityCardKey group.1 ∈ (gs.foldl foldGroup folds).dropped := by
  induction gs generalizing folds with
  | nil => cases isGroup
  | cons first gs ih =>
    obtain rfl | isGroup := List.mem_cons.mp isGroup
    · obtain ⟨keep, kept⟩ := exists_keepOf folds.now nonempty
      refine dropped_foldl gs ?_
      rw [foldGroup_of_keepOf kept]
      refine List.mem_append_right _ (List.mem_map.mpr ⟨group.1, List.mem_filter.mpr ⟨?_, ?_⟩, rfl⟩)
      · exact List.mem_cons_self
      · refine decide_eq_true fun same => apart ?_
        rw [same]
        exact mem_of_keepOf kept
    · exact ih _ isGroup

/-- No entity is in two of the groups. -/
structure Apart (owner : Entity → Entity) (gs : List (Entity × List Entity)) : Prop where
  distinct : (gs.map Prod.fst).Nodup
  owned : ∀ group ∈ gs, ∀ entity ∈ group.1 :: group.2, owner entity = group.1

/-- What has become of the entities after groups with no entity in common. -/
structure FoldedIn (gs : List (Entity × List Entity)) (folds : Folds) : Prop where
  others : ∀ entity, (∀ group ∈ gs, keepOf id group.2 ≠ some entity) → folds.now entity = entity
  kept : ∀ group ∈ gs, ∀ keep, keepOf id group.2 = some keep →
    folds.now keep = foldInto id group keep
  dropped : ∀ key, key ∈ folds.dropped ↔ ∃ group ∈ gs, ∃ keep, keepOf id group.2 = some keep ∧
    ∃ entity ∈ group.1 :: group.2, entity ≠ keep ∧ entityCardKey entity = key

theorem find?_unchanged {now : Entity → Entity} (entities : List Entity)
    (p : Entity → Entity → Bool)
    (unchanged : ∀ entity ∈ entities, now entity = entity) :
    entities.find? (fun entity => p entity (now entity)) =
      entities.find? fun entity => p entity entity := by
  induction entities with
  | nil => rfl
  | cons first rest ih =>
    rw [List.find?_cons, List.find?_cons, unchanged first List.mem_cons_self,
      ih fun entity member => unchanged entity (List.mem_cons_of_mem _ member)]

theorem foldInto_congr {now : Entity → Entity} (member : keep ∈ group.1 :: group.2)
    (unchanged : ∀ entity ∈ group.1 :: group.2, now entity = entity) :
    foldInto now group keep = foldInto id group keep := by
  have same := find?_unchanged (group.1 :: group.2)
    (fun entity now => entity ≠ keep && documented now) unchanged
  simp only [foldInto, id]
  rw [same, unchanged keep member]
  cases found : (group.1 :: group.2).find? fun entity => entity ≠ keep && documented entity with
  | none => rfl
  | some donor =>
    rw [Option.map_some, unchanged donor (List.mem_of_find?_eq_some found)]
    rfl

/-- Each of such groups finds its entities as they came. -/
theorem foldedIn_foldl {owner : Entity → Entity} (apart : Apart owner gs) :
    FoldedIn gs (gs.foldl foldGroup ⟨id, []⟩) := by
  induction gs using List.reverseRecOn with
  | nil => exact ⟨fun _ _ => rfl, fun _ member => absurd member List.not_mem_nil, by simp⟩
  | append_singleton gs group ih =>
    obtain ⟨distinct, owned⟩ := apart
    rw [List.map_append, List.nodup_append] at distinct
    have before : ∀ earlier ∈ gs, earlier ∈ gs ++ [group] := fun _ => List.mem_append_left _
    have isLast : group ∈ gs ++ [group] := List.mem_append_right _ List.mem_cons_self
    have earlier := ih ⟨distinct.1, fun other isGroup => owned other (before other isGroup)⟩
    -- The groups before keep nothing of this one.
    have untouched : ∀ entity ∈ group.1 :: group.2, ∀ other ∈ gs,
        keepOf id other.2 ≠ some entity := by
      intro entity member other isGroup kept
      have ofOther := owned other (before other isGroup) entity
        (List.mem_cons_of_mem _ (mem_of_keepOf kept))
      exact distinct.2.2 other.1 (List.mem_map_of_mem isGroup) group.1 List.mem_cons_self
        (ofOther.symm.trans (owned group isLast entity member))
    have unchanged : ∀ entity ∈ group.1 :: group.2,
        (gs.foldl foldGroup ⟨id, []⟩).now entity = entity :=
      fun entity member => earlier.others entity (untouched entity member)
    have same := keepOf_congr fun entity member => unchanged entity (List.mem_cons_of_mem _ member)
    rw [List.foldl_append, List.foldl_cons, List.foldl_nil]
    cases kept : keepOf id group.2 with
    | none =>
      rw [foldGroup_of_none (same.trans kept)]
      refine ⟨fun entity unkept => ?_, fun other isGroup keep keeps => ?_, fun key => ?_⟩
      · exact earlier.others entity fun other isGroup => unkept other (before other isGroup)
      · obtain isGroup | isGroup := List.mem_append.mp isGroup
        · exact earlier.kept other isGroup keep keeps
        · obtain rfl := List.mem_singleton.mp isGroup
          cases kept.symm.trans keeps
      · rw [earlier.dropped]
        simp [or_and_right, exists_or, kept]
    | some keep =>
      have member := List.mem_cons_of_mem group.1 (mem_of_keepOf kept)
      rw [foldGroup_of_keepOf (same.trans kept), foldInto_congr member unchanged]
      refine ⟨fun entity unkept => ?_, fun other isGroup keep' keeps => ?_, fun key => ?_⟩
      · have apart : entity ≠ keep := fun isKept => unkept group isLast (isKept ▸ kept)
        dsimp only
        rw [Function.update_of_ne apart]
        exact earlier.others entity fun other isGroup => unkept other (before other isGroup)
      · dsimp only
        obtain isGroup | isGroup := List.mem_append.mp isGroup
        · have apart : keep' ≠ keep := fun isKept =>
            untouched keep member other isGroup (isKept ▸ keeps)
          rw [Function.update_of_ne apart]
          exact earlier.kept other isGroup keep' keeps
        · obtain rfl := List.mem_singleton.mp isGroup
          obtain rfl := Option.some.inj (kept.symm.trans keeps)
          rw [Function.update_self]
      · dsimp only
        rw [List.mem_append, earlier.dropped]
        simp only [List.mem_append, List.mem_singleton, or_and_right, exists_or, exists_eq_left,
          kept, Option.some.injEq, exists_eq_left', List.mem_map, List.mem_filter,
          decide_eq_true_eq, and_assoc]

end Folding

/-! ## References without circles -/

section Acyclic

variable {entities : List Entity} {entity target root : Entity} {refs : List Entity}

theorem step_iff : (references entities).Step entity target ↔
    entity ∈ entities ∧ referentOf entities entity = some target := by
  unfold Links.Step references
  dsimp only
  split_ifs with member
  · exact (and_iff_right member).symm
  · exact iff_of_false nofun fun both => member both.1

/-- An entity is the end of its own chain when it refers to nothing. -/
theorem rootOf_ne_iff : rootOf entities entity ≠ entity ↔
    ∃ target, (references entities).Step entity target := by
  cases next : (references entities).next entity with
  | none =>
    refine iff_of_false (fun moves => moves (Links.walk_of_none next)) ?_
    rintro ⟨target, step⟩
    cases next.symm.trans step
  | some target =>
    refine iff_of_true (fun same => ?_) ⟨target, next⟩
    obtain ⟨-, isReferent⟩ := step_iff.mp next
    obtain ⟨-, -, -, -, other, -⟩ := referentOf_eq_some.mp isReferent
    have onward : (references entities).walk [entity] entity =
        (references entities).walk [target, entity] target := by
      rw [Links.walk_of_some next, if_neg (by simpa using other)]
    rw [rootOf, onward] at same
    have ends := Links.walk_not_mem (references entities) [target, entity] target
    obtain still | fresh := ends
    · exact other (still.symm.trans same)
    · exact fresh (by simp [same])

theorem mem_folding : entity ∈ folding entities ↔
    entity ∈ entities ∧ rootOf entities entity ≠ entity := by
  rw [folding, List.mem_filter, Bool.and_eq_true, Bool.and_eq_true, decide_eq_true_eq]
  refine and_congr_right fun member => ⟨fun all => all.2, fun moves => ⟨?_, moves⟩⟩
  obtain ⟨target, step⟩ := rootOf_ne_iff.mp moves
  obtain ⟨name, isAlias, folds, -⟩ := referentOf_eq_some.mp (step_iff.mp step).2
  exact ⟨folds, by rw [isAlias]; rfl⟩

/-- The entities whose chains end at another one. -/
def refsOf (entities : List Entity) (root : Entity) : List Entity :=
  (folding entities).filter fun entity => rootOf entities entity = root

theorem mem_refsOf : entity ∈ refsOf entities root ↔
    entity ∈ entities ∧ rootOf entities entity ≠ entity ∧ rootOf entities entity = root := by
  rw [refsOf, List.mem_filter, mem_folding, decide_eq_true_eq, and_assoc]

theorem mem_groups : (root, refs) ∈ groups entities ↔ refs = refsOf entities root ∧ refs ≠ [] :=
  mem_groupsOf

theorem rootOf_mem (member : entity ∈ entities) : rootOf entities entity ∈ entities := by
  have reaches := Links.reaches_walk (references entities) [entity] entity
  obtain same | ⟨before, -, step⟩ := reaches.cases_tail
  · have isEnd : rootOf entities entity = entity := same
    rwa [isEnd]
  · exact (references entities).closed before _ step

variable (acyclic : (references entities).Acyclic)

include acyclic

theorem rootOf_rootOf (entity : Entity) :
    rootOf entities (rootOf entities entity) = rootOf entities entity :=
  Links.walk_of_none (Links.next_walk acyclic entity)

theorem apart_groups : Apart (rootOf entities) (groups entities) := by
  refine ⟨nodup_groupsOf _ _, ?_⟩
  rintro ⟨root, refs⟩ isGroup entity member
  obtain ⟨rfl, nonempty⟩ := mem_groups.mp isGroup
  obtain rfl | member := List.mem_cons.mp member
  · obtain ⟨other, isRef⟩ := List.exists_mem_of_ne_nil _ nonempty
    rw [← (mem_refsOf.mp isRef).2.2]
    exact rootOf_rootOf acyclic other
  · exact (mem_refsOf.mp member).2.2

/-- Where references go around in no circle, the groups find their entities as they came. -/
theorem foldedIn_groups : FoldedIn (groups entities) ((groups entities).foldl foldGroup ⟨id, []⟩) :=
  foldedIn_foldl (apart_groups acyclic)

omit acyclic

/-- Each entity has a card of its own. -/
def Distinct (entities : List Entity) : Prop := (entities.map entityCardKey).Nodup

/-- The card of an entity is left. -/
def Survives (entities : List Entity) (entity : Entity) : Prop :=
  entityCardKey entity ∈ (collapseAliases entities).map entityCardKey

theorem survives_iff_not_dropped : Survives entities entity ↔
    entityCardKey entity ∈ entities.map entityCardKey ∧
      entityCardKey entity ∉ ((groups entities).foldl foldGroup ⟨id, []⟩).dropped := by
  simp only [Survives, collapseAliases, List.mem_map, List.mem_filter, decide_eq_true_eq]
  constructor
  · rintro ⟨_, ⟨other, ⟨member, stays⟩, rfl⟩, same⟩
    rw [card_now] at same
    exact ⟨⟨other, member, same⟩, same ▸ stays⟩
  · rintro ⟨⟨other, member, same⟩, stays⟩
    exact ⟨_, ⟨other, ⟨member, same ▸ stays⟩, rfl⟩, (card_now _ _).trans same⟩

theorem Distinct.eq {other : Entity} (distinct : Distinct entities) (member : entity ∈ entities)
    (member' : other ∈ entities) (same : entityCardKey entity = entityCardKey other) :
    entity = other := List.inj_on_of_nodup_map distinct member member' same

include acyclic

/-- What is left: entities that no chain ends at and that end no chain, and what a group keeps. -/
theorem survives_iff (distinct : Distinct entities) (member : entity ∈ entities) :
    Survives entities entity ↔ refsOf entities (rootOf entities entity) = [] ∨
      keepOf id (refsOf entities (rootOf entities entity)) = some entity := by
  rw [survives_iff_not_dropped, and_iff_right (List.mem_map_of_mem member),
    (foldedIn_groups acyclic).dropped]
  constructor
  · intro stays
    by_cases empty : refsOf entities (rootOf entities entity) = []
    · exact .inl empty
    · obtain ⟨keep, kept⟩ := exists_keepOf id empty
      refine .inr (kept.trans (congrArg some ?_))
      by_contra apart
      refine stays ⟨_, mem_groups.mpr ⟨rfl, empty⟩, keep, kept, entity, ?_, Ne.symm apart, rfl⟩
      by_cases isRoot : rootOf entities entity = entity
      · rw [isRoot]
        exact List.mem_cons_self
      · exact List.mem_cons_of_mem _ (mem_refsOf.mpr ⟨member, isRoot, rfl⟩)
  · rintro keeps ⟨⟨root, refs⟩, isGroup, keep, kept, other, inGroup, apart, same⟩
    have owned := (apart_groups acyclic).owned _ isGroup other inGroup
    obtain ⟨rfl, nonempty⟩ := mem_groups.mp isGroup
    have isMember : other ∈ entities := by
      obtain rfl | isRef := List.mem_cons.mp inGroup
      · obtain ⟨one, isRef⟩ := List.exists_mem_of_ne_nil _ nonempty
        obtain ⟨inEntities, -, isRoot⟩ := mem_refsOf.mp isRef
        rw [← isRoot]
        exact rootOf_mem inEntities
      · exact (mem_refsOf.mp isRef).1
    obtain rfl := distinct.eq isMember member same
    dsimp only at owned nonempty kept
    rw [owned] at keeps
    obtain empty | kept' := keeps
    · exact nonempty empty
    · exact apart (Option.some.inj (kept'.symm.trans kept))

/-- Of the entities with one end, one is left. -/
theorem exists_unique_survives (distinct : Distinct entities) (member : entity ∈ entities) :
    ∃! keep, keep ∈ entities ∧ rootOf entities keep = rootOf entities entity ∧
      Survives entities keep := by
  by_cases empty : refsOf entities (rootOf entities entity) = []
  · have isRoot : ∀ other ∈ entities, rootOf entities other = rootOf entities entity →
        rootOf entities other = other := by
      intro other isMember same
      by_contra moves
      have isRef := mem_refsOf.mpr ⟨isMember, moves, same⟩
      rw [empty] at isRef
      cases isRef
    refine ⟨entity, ⟨member, rfl, ?_⟩, ?_⟩
    · exact (survives_iff acyclic distinct member).mpr (.inl empty)
    · rintro other ⟨isMember, same, -⟩
      rw [← isRoot other isMember same, same, isRoot entity member rfl]
  · obtain ⟨keep, kept⟩ := exists_keepOf id empty
    obtain ⟨isMember, -, same⟩ := mem_refsOf.mp (mem_of_keepOf kept)
    refine ⟨keep, ⟨isMember, same, ?_⟩, ?_⟩
    · rw [survives_iff acyclic distinct isMember, same]
      exact .inr kept
    · rintro other ⟨isMember', same', survives⟩
      rw [survives_iff acyclic distinct isMember', same'] at survives
      exact Option.some.inj ((survives.resolve_left empty).symm.trans kept)

end Acyclic

/-! ## Entities that are not folded -/

section Unfolded

variable {entities : List Entity} {entity root : Entity} {refs : List Entity}

theorem foldable_of_mem_groups (isGroup : (root, refs) ∈ groups entities)
    (member : entity ∈ root :: refs) : foldable entity = true := by
  obtain ⟨rfl, nonempty⟩ := mem_groups.mp isGroup
  have ofRef : ∀ other ∈ refsOf entities root, foldable other = true := by
    intro other isRef
    obtain ⟨target, step⟩ := rootOf_ne_iff.mp (mem_refsOf.mp isRef).2.1
    obtain ⟨_, -, folds, -⟩ := referentOf_eq_some.mp (step_iff.mp step).2
    exact folds
  obtain rfl | isRef := List.mem_cons.mp member
  · obtain ⟨other, isRef⟩ := List.exists_mem_of_ne_nil _ nonempty
    obtain ⟨-, moves, isRoot⟩ := mem_refsOf.mp isRef
    have reaches := Links.reaches_walk (references entities) [other] other
    obtain same | ⟨before, -, step⟩ := reaches.cases_tail
    · exact absurd same moves
    · have target : (references entities).Step before entity := isRoot ▸ step
      obtain ⟨_, -, -, found, -⟩ := referentOf_eq_some.mp (step_iff.mp target).2
      exact (mem_of_byName found).2.1
  · exact ofRef entity isRef

/-- Folding touches foldable entities only. -/
theorem untouched_foldl {gs : List (Entity × List Entity)}
    (folds : ∀ group ∈ gs, ∀ entity ∈ group.1 :: group.2, foldable entity = true) :
    (∀ entity, foldable entity = false → (gs.foldl foldGroup ⟨id, []⟩).now entity = entity) ∧
      ∀ key ∈ (gs.foldl foldGroup ⟨id, []⟩).dropped,
        ∃ entity, foldable entity = true ∧ entityCardKey entity = key := by
  induction gs using List.reverseRecOn with
  | nil => exact ⟨fun _ _ => rfl, fun _ member => absurd member List.not_mem_nil⟩
  | append_singleton gs group ih =>
    have isLast : group ∈ gs ++ [group] := List.mem_append_right _ List.mem_cons_self
    obtain ⟨same, cards⟩ := ih fun other member => folds other (List.mem_append_left _ member)
    rw [List.foldl_append, List.foldl_cons, List.foldl_nil]
    cases kept : keepOf (gs.foldl foldGroup ⟨id, []⟩).now group.2 with
    | none =>
      rw [foldGroup_of_none kept]
      exact ⟨same, cards⟩
    | some keep =>
      have member := List.mem_cons_of_mem group.1 (mem_of_keepOf kept)
      rw [foldGroup_of_keepOf kept]
      refine ⟨fun entity fixed => ?_, fun key dropped => ?_⟩
      · have apart : entity ≠ keep := by
          rintro rfl
          rw [folds group isLast entity member] at fixed
          cases fixed
        dsimp only
        rw [Function.update_of_ne apart, same entity fixed]
      · obtain dropped | dropped := List.mem_append.mp dropped
        · exact cards key dropped
        · obtain ⟨other, inGroup, rfl⟩ := List.mem_map.mp dropped
          exact ⟨other, folds group isLast other (List.mem_filter.mp inGroup).1, rfl⟩

theorem foldable_of_source (isSource : entity.kind = .source) : foldable entity = false := by
  rw [foldable, isSource]
  rfl

/-- Folding leaves the sources alone. -/
theorem mem_collapseAliases_of_source (isSource : entity.kind = .source) :
    entity ∈ collapseAliases entities ↔ entity ∈ entities := by
  have folds : ∀ group ∈ groups entities, ∀ other ∈ group.1 :: group.2, foldable other = true :=
    fun _ isGroup _ member => foldable_of_mem_groups isGroup member
  obtain ⟨same, cards⟩ := untouched_foldl folds
  simp only [collapseAliases, List.mem_map, List.mem_filter, decide_eq_true_eq]
  constructor
  · rintro ⟨origin, ⟨member, -⟩, isNow⟩
    have card := card_now (groups entities) origin
    rw [isNow] at card
    have kind := (entityCardKey_inj.mp card).2.1
    rw [same origin (foldable_of_source (kind.symm.trans isSource))] at isNow
    rwa [← isNow]
  · intro member
    refine ⟨entity, ⟨member, fun dropped => ?_⟩, same entity (foldable_of_source isSource)⟩
    obtain ⟨other, folds, card⟩ := cards _ dropped
    rw [foldable_of_source ((entityCardKey_inj.mp card).2.1.trans isSource)] at folds
    cases folds

theorem distinct_collapseAliases (distinct : Distinct entities) :
    Distinct (collapseAliases entities) := by
  have cards : (collapseAliases entities).map entityCardKey = (entities.filter fun entity =>
      entityCardKey entity ∉ ((groups entities).foldl foldGroup ⟨id, []⟩).dropped).map
        entityCardKey := by
    rw [collapseAliases, List.map_map]
    exact List.map_congr_left fun entity _ => card_now _ _
  rw [Distinct, cards]
  exact (List.filter_sublist.map entityCardKey).nodup distinct

end Unfolded

end MalloyPublisher.Context
