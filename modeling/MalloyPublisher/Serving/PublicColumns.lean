import MalloyPublisher.Serving.OwnTables

/-!
# The public columns of a captured schema

The columns of a stored table are those its source projects, the hidden ones among them. A serve
shape declares the captured columns that come to a public field, by the field's own name or by the
only one that folds alike, and of two that come to one field it takes the first. A hidden column can
fold onto a public field, and so can a column that stands before the field's own: then the shape
serves the one for the other.

## Main definitions

* `ComesTo` — the public field a captured column is taken for
* `EmittedAs` — a captured column that is declared, and under which name
* `NeverWidens` — the shape declares no more than the source's public surface, and all of it

## Main results

* `mem_narrowSchemaToPublic_iff` — what is declared: the first column that comes to each field
* `neverWidens_iff` — the surface is kept exactly where each such column may stand for its field
-/

namespace MalloyPublisher.Serving

variable (toLowerCase : String → String) (schema : List Column) (fields : List SourceField)

/-- The names of the fields whose access is restricted. -/
def restrictedNames : List String :=
  fields.filterMap fun field => if isAccessRestricted field then field.name else none

/-- A column is taken for the public field of its own name, or else for the only public field that
folds alike. -/
def ComesTo (column : Column) (name : String) : Prop :=
  column.name ∈ publicNames fields ∧ name = column.name ∨
    column.name ∉ publicNames fields ∧
      (publicNames fields).filter (toLowerCase · = toLowerCase column.name) = [name]

/-- The column that follows these is declared under a name. -/
def EmittedAs (before : List Column) (column : Column) (name : String) : Prop :=
  narrowSchemaToPublic toLowerCase (before ++ [column]) fields =
    narrowSchemaToPublic toLowerCase before fields ++ [{ name, type := column.type }]

/-- The declared columns are the public surface of a source, as far as it was captured, and no
more. -/
structure NeverWidens : Prop where
  distinct : ((narrowSchemaToPublic toLowerCase schema fields).map Column.name).Nodup
  visible : ∀ column ∈ narrowSchemaToPublic toLowerCase schema fields,
    column.name ∈ publicNames fields
  restricted : ∀ before column after, schema = before ++ column :: after →
    column.name ∈ restrictedNames fields → ∀ name, ¬EmittedAs toLowerCase fields before column name
  exact : ∀ name ∈ publicNames fields, ∀ column, schema.find? (·.name = name) = some column →
    ∀ emitted ∈ narrowSchemaToPublic toLowerCase schema fields, emitted.name = name →
      emitted.type = column.type
  complete : ∀ name ∈ publicNames fields,
    (∃ column ∈ schema, column.name = name ∨
      toLowerCase column.name = toLowerCase name ∧
        (publicNames fields).filter (toLowerCase · = toLowerCase name) = [name]) →
    name ∈ (narrowSchemaToPublic toLowerCase schema fields).map Column.name

/-- Each first column that comes to a public field is not restricted, and has the type of the
field's own column, where that was captured. -/
def FirstStandsForField : Prop :=
  ∀ before column after, schema = before ++ column :: after → ∀ name,
    ComesTo toLowerCase fields column name →
    (∀ earlier ∈ before, ¬ComesTo toLowerCase fields earlier name) →
    column.name ∉ restrictedNames fields ∧
      ∀ own, schema.find? (·.name = name) = some own → column.type = own.type

section Narrowing

variable {toLowerCase schema fields} {column : Column} {name : String} {before : List Column}

theorem authorName_eq_some_iff :
    authorName toLowerCase fields column = some name ↔ ComesTo toLowerCase fields column name := by
  unfold authorName ComesTo
  split_ifs with own
  · simp [own, eq_comm]
  · simp only [own, false_and, not_false_eq_true, true_and, false_or]
    split
    · next other alone => simp [alone]
    · next several =>
      exact ⟨nofun, fun alone => absurd alone (several name)⟩

/-- What comes to a name is a public field of that name. -/
theorem ComesTo.mem_publicNames (comes : ComesTo toLowerCase fields column name) :
    name ∈ publicNames fields := by
  obtain ⟨own, rfl⟩ | ⟨-, alone⟩ := comes
  · exact own
  · exact (List.mem_filter.mp (alone ▸ List.mem_singleton_self name)).1

/-- One turn of the loop. -/
theorem narrowSchemaToPublic_concat :
    narrowSchemaToPublic toLowerCase (before ++ [column]) fields =
      match authorName toLowerCase fields column with
      | none => narrowSchemaToPublic toLowerCase before fields
      | some name =>
        if name ∈ (narrowSchemaToPublic toLowerCase before fields).map Column.name then
          narrowSchemaToPublic toLowerCase before fields
        else narrowSchemaToPublic toLowerCase before fields ++ [{ name, type := column.type }] := by
  rw [narrowSchemaToPublic, List.foldl_concat]
  rfl

/-- A turn of the loop declares a column, or leaves what is declared. -/
theorem narrowSchemaToPublic_concat_cases :
    narrowSchemaToPublic toLowerCase (before ++ [column]) fields =
        narrowSchemaToPublic toLowerCase before fields ∧
      (∀ name, ComesTo toLowerCase fields column name →
        name ∈ (narrowSchemaToPublic toLowerCase before fields).map Column.name) ∨
    ∃ name, ComesTo toLowerCase fields column name ∧
      name ∉ (narrowSchemaToPublic toLowerCase before fields).map Column.name ∧
      EmittedAs toLowerCase fields before column name := by
  unfold EmittedAs
  rw [narrowSchemaToPublic_concat]
  simp only [← authorName_eq_some_iff]
  cases authorName toLowerCase fields column with
  | none => exact .inl ⟨rfl, nofun⟩
  | some name =>
    dsimp only
    split_ifs with declared
    · exact .inl ⟨rfl, fun other same => Option.some.inj same ▸ declared⟩
    · exact .inr ⟨name, rfl, declared, rfl⟩

/-- A name is declared where some captured column comes to it. -/
theorem mem_names_narrowSchemaToPublic_iff :
    name ∈ (narrowSchemaToPublic toLowerCase schema fields).map Column.name ↔
      ∃ column ∈ schema, ComesTo toLowerCase fields column name := by
  induction schema using List.reverseRecOn with
  | nil => simp [narrowSchemaToPublic]
  | append_singleton before column ih =>
    have split : (∃ captured ∈ before ++ [column], ComesTo toLowerCase fields captured name) ↔
        name ∈ (narrowSchemaToPublic toLowerCase before fields).map Column.name ∨
          ComesTo toLowerCase fields column name := by
      simp only [List.mem_append, List.mem_singleton, or_and_right, exists_or, exists_eq_left, ih]
    rw [split]
    obtain ⟨same, declared⟩ | ⟨other, comes, -, emitted⟩ := narrowSchemaToPublic_concat_cases
    · rw [same]
      exact ⟨.inl, fun there => there.elim id (declared name)⟩
    · have unique : ComesTo toLowerCase fields column name ↔ name = other := by
        rw [← authorName_eq_some_iff] at comes ⊢
        rw [comes, Option.some_inj, eq_comm]
      rw [emitted, List.map_append, List.mem_append, unique]
      simp

/-- A column is declared where it is the first that comes to a name. -/
theorem emittedAs_iff :
    EmittedAs toLowerCase fields before column name ↔
      ComesTo toLowerCase fields column name ∧
        ∀ earlier ∈ before, ¬ComesTo toLowerCase fields earlier name := by
  have unseen : (∀ earlier ∈ before, ¬ComesTo toLowerCase fields earlier name) ↔
      name ∉ (narrowSchemaToPublic toLowerCase before fields).map Column.name := by
    rw [mem_names_narrowSchemaToPublic_iff]
    push Not
    rfl
  rw [unseen]
  obtain ⟨same, declared⟩ | ⟨other, comes, undeclared, emitted⟩ :=
    narrowSchemaToPublic_concat_cases
  · refine ⟨fun emitted => ?_, fun ⟨comes, undeclared⟩ => absurd (declared name comes) undeclared⟩
    rw [EmittedAs, same, List.self_eq_append_right] at emitted
    cases emitted
  · constructor
    · intro isEmitted
      obtain rfl : other = name := by
        rw [EmittedAs, emitted, List.append_cancel_left_eq] at isEmitted
        exact congrArg Column.name (List.head_eq_of_cons_eq isEmitted)
      exact ⟨comes, undeclared⟩
    · rintro ⟨comes', -⟩
      rw [← authorName_eq_some_iff] at comes comes'
      exact Option.some.inj (comes.symm.trans comes') ▸ emitted

theorem narrowSchemaToPublic_subset_concat :
    narrowSchemaToPublic toLowerCase before fields ⊆
      narrowSchemaToPublic toLowerCase (before ++ [column]) fields := by
  obtain ⟨same, -⟩ | ⟨_, -, -, emitted⟩ := narrowSchemaToPublic_concat_cases
  · exact same ▸ List.Subset.refl _
  · rw [emitted]
    exact List.subset_append_left _ _

/-- The declared columns are the first that come to each public field, with their types. -/
theorem mem_narrowSchemaToPublic_iff {emitted : Column} :
    emitted ∈ narrowSchemaToPublic toLowerCase schema fields ↔
      ∃ before column after, schema = before ++ column :: after ∧ emitted.type = column.type ∧
        ComesTo toLowerCase fields column emitted.name ∧
          ∀ earlier ∈ before, ¬ComesTo toLowerCase fields earlier emitted.name := by
  induction schema using List.reverseRecOn with
  | nil => simp [narrowSchemaToPublic]
  | append_singleton captured last ih =>
    constructor
    · intro member
      have within : emitted ∈ narrowSchemaToPublic toLowerCase captured fields ∨
          ∃ name, emitted = { name, type := last.type } ∧
            EmittedAs toLowerCase fields captured last name := by
        obtain ⟨same, -⟩ | ⟨name, -, -, isEmitted⟩ := narrowSchemaToPublic_concat_cases
        · exact .inl (same ▸ member)
        · rw [isEmitted, List.mem_append, List.mem_singleton] at member
          exact member.imp_right fun same => ⟨name, same, isEmitted⟩
      obtain there | ⟨name, rfl, isEmitted⟩ := within
      · obtain ⟨before, column, after, rfl, rest⟩ := ih.mp there
        exact ⟨before, column, after ++ [last], by simp, rest⟩
      · exact ⟨captured, last, [], rfl, rfl, emittedAs_iff.mp isEmitted⟩
    · rintro ⟨before, column, after, split, type, comes⟩
      obtain rfl | ⟨after, other, rfl⟩ := List.eq_nil_or_concat after
      · obtain ⟨rfl, rfl⟩ := List.append_singleton_inj.mp split
        rw [emittedAs_iff.mpr comes, ← type]
        exact List.mem_append_right _ (List.mem_singleton_self _)
      · have shorter : captured = before ++ column :: after := by
          rw [List.concat_eq_append, ← List.cons_append, ← List.append_assoc] at split
          exact (List.append_singleton_inj.mp split).1
        exact narrowSchemaToPublic_subset_concat
          (ih.mpr ⟨before, column, after, shorter, type, comes⟩)

theorem nodup_names_narrowSchemaToPublic :
    ((narrowSchemaToPublic toLowerCase schema fields).map Column.name).Nodup := by
  induction schema using List.reverseRecOn with
  | nil => exact List.nodup_nil
  | append_singleton captured last ih =>
    obtain ⟨same, -⟩ | ⟨name, -, undeclared, emitted⟩ := narrowSchemaToPublic_concat_cases
    · rw [same]
      exact ih
    · rw [emitted, List.map_append, List.nodup_append']
      exact ⟨ih, List.nodup_singleton _, List.disjoint_singleton.mpr undeclared⟩

/-- A public field is declared where its own column was captured, or one that folds onto it
alone. -/
theorem mem_names_of_captured (isPublic : name ∈ publicNames fields) (member : column ∈ schema)
    (captured : column.name = name ∨ toLowerCase column.name = toLowerCase name ∧
      (publicNames fields).filter (toLowerCase · = toLowerCase name) = [name]) :
    name ∈ (narrowSchemaToPublic toLowerCase schema fields).map Column.name := by
  refine mem_names_narrowSchemaToPublic_iff.mpr ⟨column, member, ?_⟩
  obtain rfl | ⟨folds, alone⟩ := captured
  · exact .inl ⟨isPublic, rfl⟩
  · by_cases own : column.name ∈ publicNames fields
    · -- It is the only public field that folds so.
      have within : column.name ∈
          (publicNames fields).filter (toLowerCase · = toLowerCase name) :=
        List.mem_filter.mpr ⟨own, decide_eq_true folds⟩
      rw [alone, List.mem_singleton] at within
      exact .inl ⟨own, within.symm⟩
    · exact .inr ⟨own, folds ▸ alone⟩

end Narrowing

/-- The declared columns are no more than the public surface exactly where each first column that
comes to a public field may stand for it. -/
theorem neverWidens_iff :
    NeverWidens toLowerCase schema fields ↔ FirstStandsForField toLowerCase schema fields := by
  constructor
  · intro narrowed before column after split name comes first
    have emitted := emittedAs_iff.mpr ⟨comes, first⟩
    refine ⟨fun restricted => narrowed.restricted _ _ _ split restricted name emitted, ?_⟩
    intro own captured
    refine narrowed.exact name comes.mem_publicNames own captured { name, type := column.type }
      ?_ rfl
    exact mem_narrowSchemaToPublic_iff.mpr ⟨before, column, after, split, rfl, comes, first⟩
  · intro stands
    refine ⟨nodup_names_narrowSchemaToPublic, ?_, ?_, ?_, ?_⟩
    · intro column member
      obtain ⟨_, _, _, -, -, comes, -⟩ := mem_narrowSchemaToPublic_iff.mp member
      exact comes.mem_publicNames
    · intro before column after split restricted name emitted
      obtain ⟨comes, first⟩ := emittedAs_iff.mp emitted
      exact (stands before column after split name comes first).1 restricted
    · rintro name - own captured emitted member rfl
      obtain ⟨before, column, after, split, type, comes, first⟩ :=
        mem_narrowSchemaToPublic_iff.mp member
      exact type.trans ((stands before column after split _ comes first).2 own captured)
    · rintro name isPublic ⟨column, member, captured⟩
      exact mem_names_of_captured isPublic member captured

/-- A hidden `ID` is declared as the public `id`. -/
theorem hiddenColumn_emitted :
    ¬∀ (toLowerCase : String → String) (schema : List Column) (fields : List SourceField),
      NeverWidens toLowerCase schema fields := by
  intro always
  have narrowed := always String.toLower [⟨"ID", "string"⟩]
    [⟨some "id", none⟩, ⟨some "ID", some "private"⟩]
  refine narrowed.restricted [] _ [] rfl (by decide) "id" ?_
  exact emittedAs_iff.mpr ⟨.inr (by decide +kernel), by simp⟩

end MalloyPublisher.Serving
