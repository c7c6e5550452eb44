import MalloyPublisher.Givens.ParamCodec
import Mathlib.Data.List.Sort

/-!
# The state behind a control row

A reader edits the controls of a document, and the values that are applied are reported to the host,
which puts them in its URL and renders the document with that. What comes in with a render is then
the hook's own report, or an older one, or one that somebody else put there. Only the last is a new
starting point and takes the edits away. It is told from the others by two reports that are
remembered, the last one and the one that it replaced.

More than one report can be on its way, and then a render may see one that is not remembered.

## Main definitions

* `State`, `State.step` — the hook and its host, and what happens to them
* `Shown.step` — what a reader does to the values, without a URL
* `State.pushed` — the URL of a render is taken for a new starting point

## Main results

* `Anchored.step`, `Anchored.run` — the edits are what the reader made of them while no URL is
  taken for a new starting point
* `Anchored.pushed` — none is while every render sees a URL that is known
* `OneInFlight.recognised` — all are known while each report lands before the next is made
* `controlsFollow` — what the controls show, of edits and of what is pushed
-/

namespace MalloyPublisher.Givens

open Foundations

/-! ## Parameters and values -/

abbrev Values := List (String × GivenValue)

/-- A document as the hook is given it, its URL apart. -/
structure Document where
  documentKey : Option String
  declaredTypes : List (String × Option String)
  startingValues : Params
  autorun : Bool

def Document.types (document : Document) : DeclaredTypes := fun name =>
  document.declaredTypes.lookup name

/-- Parameters over others. -/
def Params.onto (params below : Params) : Params where
  entries := writeAll below.entries params.entries
  keys := nodup_writeAll below.keys

def Params.empty : Params where
  entries := []
  keys := List.nodup_nil

/-- Values for givens that are not declared any more, dropped. -/
def prune (values : Values) (declaredTypes : DeclaredTypes) : Values :=
  values.filter fun given => (declaredTypes given.1).isSome

/-- Entries in a fixed order. -/
def stableEntries (source : Params) : List (String × String) :=
  source.entries.insertionSort fun a b => sortLE a.1 b.1 = true

/-- The same value for every given that is declared. -/
def sameDeclaredParams (incoming reported : Params) (document : Document) : Bool :=
  document.declaredTypes.all fun declared =>
    incoming.entries.lookup declared.1 = reported.entries.lookup declared.1

/-- The same entries. -/
def sameParams (a b : Params) : Bool :=
  a.entries.length = b.entries.length &&
    a.entries.all fun entry => b.entries.lookup entry.1 = some entry.2

/-! ## The hook and its host -/

/-- What a starting point is told by. -/
structure InitialKey where
  documentKey : Option String
  startingValues : List (String × String)
  anchorParams : List (String × String)
  deriving DecidableEq

/-- What the controls show, and what queries run with. -/
structure Shown where
  draft : Values
  applied : Values

/-- Edits, with the starting point that they were made against. -/
structure Edits where
  key : InitialKey
  values : Shown

/-- The URL that defines a starting point, and its document. -/
structure Anchor where
  documentKey : Option String
  params : Params

/-- What a render leaves for its handlers and its effects. -/
structure View where
  document : Document
  initialKey : InitialKey
  initial : Values
  startingPoint : Values
  edits : Option Edits
  shown : Shown
  /-- Its effects have run. -/
  settled : Bool

/-- The host has a document at a URL and reports that it has not put there yet, the oldest first.
`reports` records all that were delivered, the latest first, and is not read. -/
structure State where
  document : Document
  params : Params
  inFlight : List Params
  edits : Option Edits
  lastReported : Option Params
  priorReported : Option Params
  anchor : Option Anchor
  view : Option View
  reports : List Params

/-- What happens: the reader does something, the document renders, the effects of a render run, the
host puts the oldest report into its URL, or it goes to a document and a URL of its own. -/
inductive Event
  | setGiven (name : String) (value : GivenValue)
  | apply
  | reset
  | render
  | effects
  | commit
  | push (document : Document) (params : Params)

def Document.initialKey (document : Document) (anchorParams : Params) : InitialKey where
  documentKey := document.documentKey
  startingValues := stableEntries document.startingValues
  anchorParams := stableEntries anchorParams

/-- The values that a URL starts a document with. -/
def Document.initial (document : Document) (anchorParams : Params) : Values :=
  paramsToGivens (anchorParams.onto document.startingValues).entries document.types

/-- The values that a document starts with by itself. -/
def Document.startingPoint (document : Document) : Values :=
  paramsToGivens document.startingValues.entries document.types

def View.appliedParams (view : View) : Params where
  entries := givensToParams view.shown.applied view.document.types
  keys := nodup_givensToParams _

/-- The edits of a render are to another starting point. -/
def View.discards (view : View) : Bool := view.edits.any fun edits => edits.key ≠ view.initialKey

namespace State

/-- Report what is applied, where it is not what was reported last. -/
def report (state : State) (appliedParams : Params) : State :=
  if sameParams (state.lastReported.getD Params.empty) appliedParams then state
  else { state with
    priorReported := state.lastReported
    lastReported := some appliedParams
    inFlight := state.inFlight ++ [appliedParams]
    reports := appliedParams :: state.reports }

/-- The effects of a render: edits to another starting point are discarded, and what is applied is
reported. -/
def runEffects (state : State) : State :=
  match state.view with
  | none => state
  | some view =>
    if view.settled then state
    else
      let kept := if view.discards then none else state.edits
      { state with edits := kept, view := some { view with settled := true } }.report
        view.appliedParams

/-- The incoming URL says nothing about the controls that a report did not. -/
def echoes (state : State) (reported : Option Params) : Bool :=
  match reported with
  | none => false
  | some reported => sameDeclaredParams state.params reported state.document

/-- The URL is taken for a new starting point. -/
def pushed (state : State) : Bool :=
  match state.anchor with
  | none => false
  | some anchor => anchor.documentKey ≠ state.document.documentKey ||
      (!sameParams state.params anchor.params && !state.echoes state.lastReported &&
        !state.echoes (if state.echoes state.lastReported then none else state.priorReported))

/-- The URL that the starting point is defined by, after a render. -/
def anchored (state : State) : Anchor :=
  let here := { documentKey := state.document.documentKey, params := state.params }
  if state.pushed then here else state.anchor.getD here

/-- A render, after the effects of the one before it. -/
def render (state : State) : State :=
  let state := state.runEffects
  let document := state.document
  let anchor := state.anchored
  let initialKey := document.initialKey anchor.params
  let initial := document.initial anchor.params
  let active := state.edits.filter fun edits => edits.key = initialKey
  let values := (active.map Edits.values).getD { draft := initial, applied := initial }
  let view : View := {
    document, initialKey, initial, startingPoint := document.startingPoint, edits := state.edits
    shown := { draft := prune values.draft document.types
               applied := prune values.applied document.types }
    settled := false }
  { state with
    anchor := some anchor
    priorReported := if state.echoes state.lastReported then none else state.priorReported
    lastReported := some (state.lastReported.getD view.appliedParams)
    view := some view }

/-- What the reader does is done to the edits of the starting point on screen. -/
def edit (state : State) (change : View → Shown → Shown) : State :=
  match state.view with
  | none => state
  | some view =>
    let base := match state.edits with
      | some edits =>
        if edits.key = view.initialKey then edits.values
        else { draft := view.initial, applied := view.initial }
      | none => { draft := view.initial, applied := view.initial }
    { state with edits := some { key := view.initialKey, values := change view base } }

/-- The host puts a report into its URL, and keeps what is not declared. -/
def commit (state : State) : State :=
  match state.inFlight with
  | [] => state
  | report :: rest =>
    let own : Params := {
      entries := state.params.entries.filter fun entry =>
        (state.document.types entry.1).isNone
      keys := (List.filter_sublist.map _).nodup state.params.keys }
    { state with params := report.onto own, inFlight := rest }

end State

/-- What a reader does to the values. -/
def setGiven (autorun : Bool) (name : String) (value : GivenValue) (from' : Shown) : Shown :=
  let next := match value with
    | .null => from'.draft.filter fun given => given.1 ≠ name
    | value => setKey name value from'.draft
  { draft := next, applied := if autorun then next else from'.applied }

/-- What happens to the hook and its host. -/
def State.step (state : State) : Event → State
  | .setGiven name value => state.edit fun view => setGiven view.document.autorun name value
  | .apply => state.edit fun _ from' => { draft := from'.draft, applied := from'.draft }
  | .reset => state.edit fun view _ =>
      { draft := view.startingPoint, applied := view.startingPoint }
  | .render => state.render
  | .effects => state.runEffects
  | .commit => state.commit
  | .push document params => { state with document, params }

/-- A document that has been rendered once. -/
def mounted (document : Document) (params : Params) : State :=
  State.render {
    document, params, inFlight := [], edits := none, lastReported := none, priorReported := none
    anchor := none, view := none, reports := [] }

def State.run (state : State) (events : List Event) : State := events.foldl State.step state

/-! ## What is said of it -/

/-- What a reader does to the values of a document, without a URL. -/
def Shown.step (document : Document) (shown : Shown) : Event → Shown
  | .setGiven name value => setGiven document.autorun name value shown
  | .apply => { draft := shown.draft, applied := shown.draft }
  | .reset => { draft := document.startingPoint, applied := document.startingPoint }
  | _ => shown

/-- What a reader made of the values that a document starts with at a URL. -/
def edited (document : Document) (params : Params) (events : List Event) : Shown :=
  events.foldl (Shown.step document)
    { draft := document.initial params, applied := document.initial params }

/-- The values of the edits, or those that a document starts with. -/
def State.held (state : State) (initial : Values) : Shown :=
  (state.edits.map Edits.values).getD { draft := initial, applied := initial }

def Shown.pruned (shown : Shown) (declaredTypes : DeclaredTypes) : Shown where
  draft := prune shown.draft declaredTypes
  applied := prune shown.applied declaredTypes

def NoNavigation (events : List Event) : Prop :=
  ∀ document params, Event.push document params ∉ events

/-- Every report has been put into the URL, and what the reader did has been rendered and its
effects have run. -/
structure State.AtRest (state : State) (view : View) : Prop where
  landed : state.inFlight = []
  viewed : state.view = some view
  rendered : view.edits = state.edits
  settled : view.settled = true

/-- The URL says what is applied. -/
def State.UrlSays (state : State) (view : View) : Prop :=
  sameDeclaredParams state.params view.appliedParams state.document = true

/-! ## Records of parameters -/

section Records

variable {a b c : Params} {document : Document}

theorem sameDeclaredParams_iff : sameDeclaredParams a b document = true ↔
    ∀ declared ∈ document.declaredTypes,
      a.entries.lookup declared.1 = b.entries.lookup declared.1 := by
  simp [sameDeclaredParams]

theorem sameDeclaredParams_trans (first : sameDeclaredParams a b document = true)
    (second : sameDeclaredParams b c document = true) :
    sameDeclaredParams a c document = true := by
  rw [sameDeclaredParams_iff] at *
  exact fun declared member => (first declared member).trans (second declared member)

/-- Records are the same where all their names are looked up alike. -/
theorem sameParams_iff : sameParams a b = true ↔
    ∀ name, a.entries.lookup name = b.entries.lookup name := by
  have isEntry : ∀ params : Params, ∀ entry : String × String,
      entry ∈ params.entries ↔ params.entries.lookup entry.1 = some entry.2 := fun params entry =>
    mem_iff_lookup params.keys
  simp only [sameParams, Bool.and_eq_true, decide_eq_true_eq, List.all_eq_true]
  constructor
  · rintro ⟨length, kept⟩
    have inside : a.entries ⊆ b.entries := fun entry member =>
      (isEntry b entry).mpr (kept entry member)
    have perm : a.entries.Perm b.entries :=
      (List.subperm_of_subset a.keys.of_map inside).perm_of_length_le length.ge
    intro name
    refine Option.ext fun value => ?_
    rw [← isEntry a (name, value), ← isEntry b (name, value), perm.mem_iff]
  · intro alike
    have perm : a.entries.Perm b.entries := by
      refine (List.perm_ext_iff_of_nodup a.keys.of_map b.keys.of_map).mpr fun entry => ?_
      rw [isEntry a, isEntry b, alike]
    exact ⟨perm.length_eq, fun entry member => alike entry.1 ▸ (isEntry a entry).mp member⟩

theorem sameDeclaredParams_of_sameParams (same : sameParams a b = true) :
    sameDeclaredParams a b document = true :=
  sameDeclaredParams_iff.mpr fun declared _ => sameParams_iff.mp same declared.1

/-- What is over other parameters is looked up first. -/
theorem lookup_over (params below : Params) (name : String) :
    (params.onto below).entries.lookup name =
      (params.entries.lookup name).or (below.entries.lookup name) := by
  refine (lookup_foldl_step (fun _ value => some value) (fun record entry other => ?_) params.keys
    below.entries name).trans ?_
  · rw [lookup_setKey]
    split_ifs <;> rfl
  · simp

/-- Keys in a fixed order tell records apart. -/
theorem sameParams_of_stableEntries (same : stableEntries a = stableEntries b) :
    sameParams a b = true := by
  have perm : a.entries.Perm b.entries := by
    refine (List.perm_insertionSort (fun a b => sortLE a.1 b.1 = true) a.entries).symm.trans ?_
    exact (congrArg (List.Perm · b.entries) same).mpr (List.perm_insertionSort _ b.entries)
  refine sameParams_iff.mpr fun name => Option.ext fun value => ?_
  rw [← mem_iff_lookup a.keys, ← mem_iff_lookup b.keys, perm.mem_iff]

end Records

/-! ## One document -/

section OneDocument

variable {document : Document} {params : Params} {state : State} {values : Shown} {view : View}

/-- A view of a document at the URL it started with. -/
structure Rendered (document : Document) (params : Params) (view : View) : Prop where
  sameDocument : view.document = document
  initialKey : view.initialKey = document.initialKey params
  initial : view.initial = document.initial params
  startingPoint : view.startingPoint = document.startingPoint
  keyed : ∀ edits, view.edits = some edits → edits.key = document.initialKey params
  shown : view.shown = Shown.pruned
    ((view.edits.map Edits.values).getD
      { draft := document.initial params, applied := document.initial params }) document.types

/-- The URL is the one before any report, or says what the last report to land did. -/
structure Delivered (params : Params) (state : State) : Prop where
  last : ∀ report rest, state.reports = report :: rest → state.lastReported = some report
  landed : ∃ landed, state.reports.reverse = landed ++ state.inFlight ∧
    (landed = [] → state.params = params) ∧
    ∀ report, landed.getLast? = some report →
      sameDeclaredParams state.params report state.document = true

/-- The hook has one starting point, and edits to it. -/
structure Anchored (document : Document) (params : Params) (values : Shown) (state : State) :
    Prop where
  sameDocument : state.document = document
  anchor : state.anchor = some { documentKey := document.documentKey, params := params }
  held : state.held (document.initial params) = values
  keyed : ∀ edits, state.edits = some edits → edits.key = document.initialKey params
  viewed : ∃ view, state.view = some view ∧ Rendered document params view ∧
    (view.settled = true → ∃ report, state.lastReported = some report ∧
      sameParams report view.appliedParams = true)
  remembers : state.lastReported.isSome
  delivered : Delivered params state

theorem report_fields (state : State) (appliedParams : Params) :
    let reported := state.report appliedParams
    reported.document = state.document ∧ reported.params = state.params ∧
      reported.edits = state.edits ∧ reported.anchor = state.anchor ∧
      reported.view = state.view := by
  unfold State.report
  dsimp only
  split_ifs <;> exact ⟨rfl, rfl, rfl, rfl, rfl⟩

/-- What was applied has been reported. -/
theorem report_lastReported (state : State) (remembers : state.lastReported.isSome)
    (appliedParams : Params) :
    ∃ report, (state.report appliedParams).lastReported = some report ∧
      sameParams report appliedParams = true := by
  obtain ⟨last, isLast⟩ := Option.isSome_iff_exists.mp remembers
  unfold State.report
  rw [isLast, Option.getD_some]
  split_ifs with same
  · exact ⟨last, isLast, same⟩
  · exact ⟨appliedParams, rfl, sameParams_iff.mpr fun _ => rfl⟩

theorem Delivered.report (delivered : Delivered params state) (appliedParams : Params) :
    Delivered params (state.report appliedParams) := by
  unfold State.report
  split_ifs
  · exact delivered
  · obtain ⟨landed, split, first, last⟩ := delivered.landed
    refine ⟨?_, landed, ?_, first, last⟩
    · rintro report rest same
      rw [(List.cons.inj same).1]
    · rw [List.reverse_cons, split, List.append_assoc]

theorem held_congr {other : State} (same : state.edits = other.edits) (initial : Values) :
    state.held initial = other.held initial := by
  rw [State.held, same, State.held]

theorem Rendered.discards (rendered : Rendered document params view) : view.discards = false := by
  unfold View.discards
  cases isEdits : view.edits with
  | none => rfl
  | some edits => simp [rendered.initialKey, rendered.keyed edits isEdits]

theorem Anchored.runEffects (anchored : Anchored document params values state) :
    Anchored document params values state.runEffects := by
  obtain ⟨view, viewed, rendered, reported⟩ := anchored.viewed
  unfold State.runEffects
  rw [viewed]
  dsimp only
  rw [rendered.discards, if_neg Bool.false_ne_true]
  split_ifs with settled
  · exact anchored
  · -- Nothing is discarded, and what the render applied is reported.
    let seen : State := { state with view := some { view with settled := true } }
    obtain ⟨sameDocument, -, sameEdits, sameAnchor, sameView⟩ :=
      report_fields seen view.appliedParams
    obtain ⟨report, isReport, alike⟩ :=
      report_lastReported seen anchored.remembers view.appliedParams
    have delivered : Delivered params seen := ⟨anchored.delivered.last, anchored.delivered.landed⟩
    refine ⟨sameDocument.trans anchored.sameDocument, sameAnchor.trans anchored.anchor, ?_, ?_,
      ⟨{ view with settled := true }, sameView, ?_, fun _ => ⟨report, isReport, alike⟩⟩, ?_,
      delivered.report _⟩
    · exact (held_congr sameEdits _).trans anchored.held
    · exact fun edits isEdits => anchored.keyed edits (sameEdits.symm.trans isEdits)
    · exact ⟨rendered.sameDocument, rendered.initialKey, rendered.initial, rendered.startingPoint,
        rendered.keyed, rendered.shown⟩
    · exact isReport ▸ rfl

/-- What the reader does is done to the edits. -/
theorem Anchored.edit {changed : Shown} (anchored : Anchored document params values state)
    (change : View → Shown → Shown)
    (changes : ∀ view, Rendered document params view → change view values = changed) :
    Anchored document params changed (state.edit change) := by
  obtain ⟨view, viewed, rendered, reported⟩ := anchored.viewed
  have base : (match state.edits with
      | some edits =>
        if edits.key = view.initialKey then edits.values
        else { draft := view.initial, applied := view.initial }
      | none => { draft := view.initial, applied := view.initial }) = values := by
    rw [← anchored.held, State.held]
    cases isEdits : state.edits with
    | none => rw [rendered.initial]; rfl
    | some edits => exact if_pos ((anchored.keyed edits isEdits).trans rendered.initialKey.symm)
  unfold State.edit
  rw [viewed]
  dsimp only
  rw [base, changes view rendered]
  refine ⟨anchored.sameDocument, anchored.anchor, rfl, ?_, ⟨view, rfl, rendered, reported⟩,
    anchored.remembers, anchored.delivered.last, anchored.delivered.landed⟩
  rintro edits isEdits
  rw [← Option.some.inj isEdits]
  exact rendered.initialKey

/-- A URL that is taken for an echo leaves the starting point and the edits. -/
theorem Anchored.render (anchored : Anchored document params values state)
    (recognised : state.runEffects.pushed = false) :
    Anchored document params values state.render := by
  have anchored := anchored.runEffects
  obtain ⟨last, isLast⟩ := Option.isSome_iff_exists.mp anchored.remembers
  unfold State.render
  dsimp only
  have stays : state.runEffects.anchored =
      { documentKey := document.documentKey, params := params } := by
    unfold State.anchored
    rw [recognised, if_neg Bool.false_ne_true, anchored.anchor]
    rfl
  have active : state.runEffects.edits.filter (fun edits =>
      decide (edits.key = document.initialKey params)) = state.runEffects.edits := by
    cases isEdits : state.runEffects.edits with
    | none => rfl
    | some edits => simp [anchored.keyed edits isEdits]
  rw [stays, anchored.sameDocument, active, isLast]
  refine ⟨rfl, rfl, anchored.held, anchored.keyed,
    ⟨_, rfl, ⟨rfl, rfl, rfl, rfl, anchored.keyed, rfl⟩, nofun⟩, rfl, ?_,
    anchored.sameDocument ▸ anchored.delivered.landed⟩
  intro report rest reports
  exact isLast.symm.trans (anchored.delivered.last report rest reports)

theorem lookup_filter_of_false {α : Type} {entries : List (String × α)} {name : String}
    (keep : String → Bool) (dropped : keep name = false) :
    (entries.filter fun entry => keep entry.1).lookup name = none := by
  rw [← Option.not_isSome_iff_eq_none, isSome_lookup_iff]
  intro member
  obtain ⟨entry, kept, rfl⟩ := List.mem_map.mp member
  exact absurd (List.mem_filter.mp kept).2 (Bool.eq_false_iff.mp dropped)

theorem isSome_types {declared : String × Option String}
    (member : declared ∈ document.declaredTypes) : (document.types declared.1).isSome :=
  isSome_lookup_iff.mpr (List.mem_map_of_mem member)

/-- What the host puts into its URL is what the oldest report that had not landed told it. -/
theorem Delivered.commit (delivered : Delivered params state) :
    Delivered params state.commit := by
  unfold State.commit
  split
  · exact delivered
  · rename_i report rest inFlight
    obtain ⟨landed, split, -, -⟩ := delivered.landed
    refine ⟨delivered.last, landed ++ [report], ?_, by simp, ?_⟩
    · rw [split, inFlight, List.append_assoc]
      rfl
    · rintro last isLast
      rw [List.getLast?_concat] at isLast
      rw [← Option.some.inj isLast, sameDeclaredParams_iff]
      intro declared member
      rw [lookup_over, lookup_filter_of_false (fun name => (state.document.types name).isNone)
        (by simpa using isSome_types member), Option.or_none]

theorem Anchored.commit (anchored : Anchored document params values state) :
    Anchored document params values state.commit := by
  have delivered := anchored.delivered.commit
  unfold State.commit at delivered ⊢
  split at delivered
  · exact anchored
  · exact ⟨anchored.sameDocument, anchored.anchor, anchored.held, anchored.keyed, anchored.viewed,
      anchored.remembers, delivered⟩

/-- What happens keeps the starting point and does to the edits what the reader did, but for a URL
that is taken for a new one. -/
theorem Anchored.step (anchored : Anchored document params values state) (event : Event)
    (noPush : ∀ document params, event ≠ .push document params)
    (recognised : event = .render → state.runEffects.pushed = false) :
    Anchored document params (values.step document event) (state.step event) := by
  cases event with
  | setGiven name value =>
    exact anchored.edit _ fun view rendered => by rw [rendered.sameDocument]; rfl
  | apply =>
    exact anchored.edit (fun _ from' => { draft := from'.draft, applied := from'.draft })
      fun _ _ => rfl
  | reset =>
    exact anchored.edit
      (fun view _ => { draft := view.startingPoint, applied := view.startingPoint })
      fun view rendered => by rw [rendered.startingPoint]; rfl
  | render => exact anchored.render (recognised rfl)
  | effects => exact anchored.runEffects
  | commit => exact anchored.commit
  | push document params => exact absurd rfl (noPush document params)

theorem anchored_mounted (document : Document) (params : Params) :
    Anchored document params
      { draft := document.initial params, applied := document.initial params }
      (mounted document params) :=
  ⟨rfl, rfl, rfl, nofun, ⟨_, rfl, ⟨rfl, rfl, rfl, rfl, nofun, rfl⟩, nofun⟩, rfl, nofun,
    [], rfl, fun _ => rfl, nofun⟩

/-- The URL is the one that the edits were made at, or says what a remembered report did. -/
def State.Known (params : Params) (state : State) : Prop :=
  sameParams state.params params = true ∨ state.echoes state.lastReported = true ∨
    state.echoes state.priorReported = true

/-- The URL of a render is known by what is remembered. -/
theorem Anchored.pushed (anchored : Anchored document params values state)
    (known : state.Known params) : state.pushed = false := by
  unfold State.pushed
  rw [anchored.anchor, anchored.sameDocument]
  rcases known with same | last | prior
  · simp [same]
  · simp [last]
  · by_cases last : state.echoes state.lastReported = true
    · simp [last]
    · simp [last, prior]

/-- Every render of a run sees a URL that is known. -/
def Recognised (document : Document) (params : Params) (events : List Event) : Prop :=
  ∀ before after, events = before ++ Event.render :: after →
    ((mounted document params).run before).runEffects.Known params

theorem Anchored.run (events : List Event) (stays : NoNavigation events)
    (recognised : Recognised document params events) :
    Anchored document params (edited document params events)
      ((mounted document params).run events) := by
  induction events using List.reverseRecOn with
  | nil => exact anchored_mounted document params
  | append_singleton events event ih =>
    have anchored := ih (fun document params member => stays document params (by simp [member]))
      fun before after split => recognised before (after ++ [event]) (by simp [split])
    rw [edited, State.run, List.foldl_concat, List.foldl_concat]
    refine anchored.step event
      (fun document params isPush => stays document params (by simp [isPush]))
      fun isRender => anchored.runEffects.pushed (recognised events [] (by rw [isRender]))

/-- At rest what is applied is what was edited, and the URL says it. -/
theorem Anchored.atRest (anchored : Anchored document params values state)
    (rest : state.AtRest view) :
    view.shown = values.pruned document.types ∧ (state.reports ≠ [] → state.UrlSays view) := by
  obtain ⟨seen, viewed, rendered, reported⟩ := anchored.viewed
  obtain rfl : seen = view := Option.some.inj (viewed.symm.trans rest.viewed)
  refine ⟨?_, fun some' => ?_⟩
  · rw [rendered.shown, rest.rendered, ← anchored.held]
    rfl
  · obtain ⟨report, isReport, alike⟩ := reported rest.settled
    obtain ⟨last, others, reports⟩ := List.exists_cons_of_ne_nil some'
    obtain rfl : last = report :=
      Option.some.inj ((anchored.delivered.last last others reports).symm.trans isReport)
    obtain ⟨landed, split, -, isLanded⟩ := anchored.delivered.landed
    refine sameDeclaredParams_trans (isLanded last ?_) (sameDeclaredParams_of_sameParams alike)
    rw [rest.landed, List.append_nil, reports] at split
    rw [← split, List.getLast?_reverse, List.head?_cons]

/-- A render and its effects bring the hook to rest, where they make no report. -/
theorem Anchored.rests (anchored : Anchored document params values state)
    (known : state.runEffects.Known params) (landed : state.render.runEffects.inFlight = []) :
    ∃ view, state.render.runEffects.AtRest view := by
  obtain ⟨view, viewed, rendered, -⟩ :=
    (anchored.render (anchored.runEffects.pushed known)).viewed
  have unsettled : view.settled = false := Option.some.inj viewed ▸ rfl
  have sameEdits : view.edits = state.render.edits := Option.some.inj viewed ▸ rfl
  let seen : State := { state.render with view := some { view with settled := true } }
  have made : state.render.runEffects = seen.report view.appliedParams := by
    simp [State.runEffects, viewed, unsettled, rendered.discards, seen]
  obtain ⟨-, -, editsReported, -, viewReported⟩ := report_fields seen view.appliedParams
  rw [made] at landed ⊢
  exact ⟨_, landed, viewReported, sameEdits.trans editsReported.symm, rfl⟩

/-! ## One report at a time -/

/-- Once every report has landed, the URL is still the first one or says what the last did. -/
theorem Delivered.known (delivered : Delivered params state) (landed : state.inFlight = []) :
    sameParams state.params params = true ∨ state.echoes state.lastReported = true := by
  obtain ⟨reports, split, first, last⟩ := delivered.landed
  rw [landed, List.append_nil] at split
  cases isReports : state.reports with
  | nil =>
    have same := first (by rw [← split, isReports]; rfl)
    exact Or.inl (sameParams_iff.mpr fun _ => same ▸ rfl)
  | cons report rest =>
    refine Or.inr ?_
    rw [delivered.last report rest isReports]
    exact last report (by rw [← split, List.getLast?_reverse, isReports, List.head?_cons])

theorem State.Known.report (known : state.Known params) (delivered : Delivered params state)
    {appliedParams : Params} (few : (state.report appliedParams).inFlight.length ≤ 1) :
    (state.report appliedParams).Known params := by
  unfold State.report at few ⊢
  split_ifs at few ⊢
  · exact known
  · -- The report before has landed, and it is the one that is replaced.
    have landed : state.inFlight = [] := by
      rw [List.length_append, List.length_singleton] at few
      exact List.length_eq_zero_iff.mp (by omega)
    rcases delivered.known landed with same | last
    · exact Or.inl same
    · exact Or.inr (Or.inr last)

theorem State.Known.runEffects (known : state.Known params)
    (anchored : Anchored document params values state)
    (few : state.runEffects.inFlight.length ≤ 1) : state.runEffects.Known params := by
  obtain ⟨view, viewed, rendered, -⟩ := anchored.viewed
  unfold State.runEffects at few ⊢
  rw [viewed] at few ⊢
  dsimp only at few ⊢
  rw [rendered.discards, if_neg Bool.false_ne_true] at few ⊢
  split_ifs at few ⊢
  · exact known
  · let seen : State := { state with view := some { view with settled := true } }
    have delivered : Delivered params seen := ⟨anchored.delivered.last, anchored.delivered.landed⟩
    have knownSeen : seen.Known params := known
    exact knownSeen.report delivered few

theorem State.Known.render (known : state.runEffects.Known params)
    (anchored : Anchored document params values state.runEffects) :
    state.render.Known params := by
  obtain ⟨last, isLast⟩ := Option.isSome_iff_exists.mp anchored.remembers
  have sameLast : state.render.lastReported = state.runEffects.lastReported := by
    rw [isLast]
    unfold State.render
    dsimp only
    rw [isLast, Option.getD_some]
  rcases known with same | echoed | echoed
  · exact Or.inl same
  · exact Or.inr (Or.inl (sameLast ▸ echoed))
  · by_cases recent : state.runEffects.echoes state.runEffects.lastReported = true
    · exact Or.inr (Or.inl (sameLast ▸ recent))
    · refine Or.inr (Or.inr ?_)
      have samePrior : state.render.priorReported = state.runEffects.priorReported := if_neg recent
      exact samePrior ▸ echoed

theorem Delivered.known_commit (delivered : Delivered params state)
    (few : state.inFlight.length ≤ 1) : state.commit.Known params := by
  have landed : state.commit.inFlight = [] := by
    unfold State.commit
    split
    · assumption
    · rename_i report rest inFlight
      rw [inFlight, List.length_cons] at few
      exact List.length_eq_zero_iff.mp (Nat.le_zero.mp (Nat.le_of_succ_le_succ few))
  exact (delivered.commit.known landed).imp_right Or.inl

/-- Each report lands before the next is made. -/
def OneInFlight (document : Document) (params : Params) (events : List Event) : Prop :=
  ∀ before after, events = before ++ after →
    ((mounted document params).run before).inFlight.length ≤ 1

theorem State.Known.step (known : state.Known params)
    (anchored : Anchored document params values state) (event : Event)
    (noPush : ∀ document params, event ≠ .push document params)
    (few : state.inFlight.length ≤ 1) (fewAfter : (state.step event).inFlight.length ≤ 1) :
    (state.step event).Known params := by
  have edit : ∀ change, (state.edit change).Known params := fun change => by
    unfold State.edit
    split <;> exact known
  cases event with
  | setGiven name value => exact edit _
  | apply => exact edit _
  | reset => exact edit _
  | render => exact (known.runEffects anchored fewAfter).render anchored.runEffects
  | effects => exact known.runEffects anchored fewAfter
  | commit => exact anchored.delivered.known_commit few
  | push document params => exact absurd rfl (noPush document params)

/-- While each report lands before the next is made, every render sees a URL that is known. -/
theorem OneInFlight.recognised {events : List Event} (one : OneInFlight document params events)
    (stays : NoNavigation events) : Recognised document params events := by
  suffices both : Recognised document params events ∧
      ((mounted document params).run events).Known params from both.1
  induction events using List.reverseRecOn with
  | nil =>
    exact ⟨fun before after split => by simp at split, Or.inl (sameParams_iff.mpr fun _ => rfl)⟩
  | append_singleton events event ih =>
    have staysBefore : NoNavigation events := fun document params member =>
      stays document params (by simp [member])
    have noPush : ∀ document params, event ≠ .push document params := fun document params isPush =>
      stays document params (by simp [isPush])
    obtain ⟨recognised, known⟩ := ih
      (fun before after split => one before (after ++ [event]) (by simp [split])) staysBefore
    have anchored := Anchored.run events staysBefore recognised
    have few := one events [event] rfl
    have fewAfter := one (events ++ [event]) [] (by simp)
    have runLast : (mounted document params).run (events ++ [event]) =
        ((mounted document params).run events).step event := List.foldl_concat ..
    rw [runLast] at fewAfter ⊢
    refine ⟨fun before after split => ?_, known.step anchored event noPush few fewAfter⟩
    rcases List.eq_nil_or_concat after with rfl | ⟨after, last, rfl⟩
    · -- It is the last render, whose effects leave one report at most.
      obtain ⟨rfl, isRender⟩ := List.append_inj' split rfl
      rw [List.cons.inj isRender |>.1] at fewAfter
      exact known.runEffects anchored fewAfter
    · rw [List.concat_eq_append, ← List.cons_append, ← List.append_assoc] at split
      exact recognised before after (List.append_inj' split rfl).1

end OneDocument

/-! ## A URL that is pushed -/

section Pushed

variable {state : State} {view : View}

/-- Edits are to the starting point on screen, or the effects of its render discard them. -/
structure Keyed (state : State) (view : View) (anchor : Anchor) : Prop where
  viewed : state.view = some view
  anchored : state.anchor = some anchor
  initialKey : view.initialKey = view.document.initialKey anchor.params
  documentKey : anchor.documentKey = view.document.documentKey
  keyed : ∀ edits, state.edits = some edits →
    edits.key = view.initialKey ∨ (view.settled = false ∧ view.edits = some edits)

theorem Keyed.congr {anchor : Anchor} {other : State} (keyed : Keyed state view anchor)
    (sameView : other.view = state.view) (sameAnchor : other.anchor = state.anchor)
    (sameEdits : other.edits = state.edits) : Keyed other view anchor :=
  ⟨sameView.trans keyed.viewed, sameAnchor.trans keyed.anchored, keyed.initialKey,
    keyed.documentKey, fun edits isEdits => keyed.keyed edits (sameEdits.symm.trans isEdits)⟩

theorem Keyed.runEffects {anchor : Anchor} (keyed : Keyed state view anchor) :
    Keyed state.runEffects { view with settled := true } anchor := by
  cases settled : view.settled with
  | true =>
    have same : state.runEffects = state := by simp [State.runEffects, keyed.viewed, settled]
    rw [same, show ({ view with settled := true } : View) = view by rw [← settled]]
    exact keyed
  | false =>
    let seen : State := { state with
      edits := if view.discards then none else state.edits
      view := some { view with settled := true } }
    have made : state.runEffects = seen.report view.appliedParams := by
      simp [State.runEffects, keyed.viewed, settled, seen]
    obtain ⟨-, -, sameEdits, sameAnchor, sameView⟩ := report_fields seen view.appliedParams
    have keyedSeen : Keyed seen { view with settled := true } anchor := by
      refine ⟨rfl, keyed.anchored, keyed.initialKey, keyed.documentKey, fun edits isEdits => ?_⟩
      obtain ⟨kept, isEdits⟩ := Option.ite_none_left_eq_some.mp isEdits
      refine Or.inl ((keyed.keyed edits isEdits).elim id fun pending => ?_)
      simpa [View.discards, pending.2] using kept
    exact made ▸ keyedSeen.congr sameView sameAnchor sameEdits

theorem Keyed.edit {anchor : Anchor} (keyed : Keyed state view anchor)
    (change : View → Shown → Shown) : Keyed (state.edit change) view anchor := by
  unfold State.edit
  rw [keyed.viewed]
  refine ⟨rfl, keyed.anchored, keyed.initialKey, keyed.documentKey, ?_⟩
  rintro edits isEdits
  exact Or.inl (Option.some.inj isEdits ▸ rfl)

/-- A render has a starting point of its own. -/
theorem Keyed.render {anchor : Anchor} (keyed : Keyed state view anchor) :
    ∃ view, Keyed state.render view state.runEffects.anchored := by
  refine ⟨_, rfl, rfl, rfl, ?_, fun edits isEdits => Or.inr ⟨rfl, isEdits⟩⟩
  show state.runEffects.anchored.documentKey = state.runEffects.document.documentKey
  unfold State.anchored
  split_ifs with pushed
  · rfl
  · rw [keyed.runEffects.anchored, Option.getD_some]
    unfold State.pushed at pushed
    rw [keyed.runEffects.anchored] at pushed
    simp only [Bool.or_eq_true, decide_eq_true_eq, not_or, not_not] at pushed
    exact pushed.1

theorem Keyed.step {anchor : Anchor} (keyed : Keyed state view anchor) (event : Event) :
    ∃ view anchor, Keyed (state.step event) view anchor := by
  have edit : ∀ change, ∃ view anchor, Keyed (state.edit change) view anchor := fun change =>
    ⟨view, anchor, keyed.edit change⟩
  cases event with
  | setGiven name value => exact edit _
  | apply => exact edit fun _ from' => { draft := from'.draft, applied := from'.draft }
  | reset => exact edit fun view _ => { draft := view.startingPoint, applied := view.startingPoint }
  | render => exact keyed.render.imp fun view keyed => ⟨_, keyed⟩
  | effects => exact ⟨_, anchor, keyed.runEffects⟩
  | commit =>
    refine ⟨view, anchor, ?_⟩
    show Keyed state.commit view anchor
    unfold State.commit
    split <;> exact keyed.congr rfl rfl rfl
  | push document params => exact ⟨view, anchor, keyed.congr rfl rfl rfl⟩

theorem Keyed.run (document : Document) (params : Params) (events : List Event) :
    ∃ view anchor, Keyed ((mounted document params).run events) view anchor := by
  induction events using List.reverseRecOn with
  | nil => exact ⟨_, _, rfl, rfl, rfl, rfl, nofun⟩
  | append_singleton events event ih =>
    obtain ⟨view, anchor, keyed⟩ := ih
    rw [State.run, List.foldl_concat]
    exact keyed.step event

/-- What the effects of a render do is not told by what the host goes to. -/
theorem runEffects_push (state : State) (document : Document) (params : Params) :
    { state with document, params }.runEffects =
      { state.runEffects with document, params } := by
  unfold State.runEffects
  cases viewed : state.view with
  | none => simp [viewed]
  | some view =>
    dsimp only
    unfold State.report
    split_ifs <;> simp [viewed]

/-- A document and a URL are not those of the starting point on screen, and the URL says what no
remembered report did. -/
def State.Differs (state : State) (document : Document) (params : Params) : Prop :=
  ∀ anchor, state.anchor = some anchor → anchor.documentKey ≠ document.documentKey ∨
    (sameParams params anchor.params = false ∧
      ∀ reported, state.lastReported = some reported ∨ state.priorReported = some reported →
        sameDeclaredParams params reported document = false)

/-- A URL starts a document with what is declared. -/
theorem prune_initial (document : Document) (params : Params) :
    prune (document.initial params) document.types = document.initial params := by
  refine List.filter_eq_self.mpr fun given member => ?_
  have read := (mem_iff_lookup (nodup_paramsToGivens _)).mp member
  rw [lookup_paramsToGivens (params.onto document.startingValues).keys] at read
  obtain ⟨raw, -, isMade⟩ := Option.bind_eq_some_iff.mp read
  obtain ⟨type, declared, -⟩ := Option.map_eq_some_iff.mp isMade
  rw [declared]
  rfl

/-- The render of another document, or of a URL that no remembered report says, shows the values
that it starts with. -/
theorem Keyed.shows_push {anchor : Anchor} (keyed : Keyed state view anchor) {document : Document}
    {params : Params} (differs : state.runEffects.Differs document params) :
    ∃ view, ((state.step (.push document params)).step .render).view = some view ∧
      view.shown = { draft := document.initial params, applied := document.initial params } := by
  have keyed := keyed.runEffects
  have differs := differs anchor keyed.anchored
  let arrived : State := { state.runEffects with document, params }
  have anchored : arrived.anchored = { documentKey := document.documentKey, params := params } := by
    refine if_pos ?_
    have isAnchor : arrived.anchor = some anchor := keyed.anchored
    unfold State.pushed
    rw [isAnchor]
    rcases differs with other | ⟨away, unsaid⟩
    · simp [arrived, other]
    · have silent : ∀ reported, (∀ report, reported = some report →
          state.runEffects.lastReported = some report ∨
            state.runEffects.priorReported = some report) → arrived.echoes reported = false := by
        intro reported isReported
        cases reported with
        | none => rfl
        | some report => exact unsaid report (isReported report rfl)
      have last := silent arrived.lastReported fun _ isLast => Or.inl isLast
      have prior := silent arrived.priorReported fun _ isPrior => Or.inr isPrior
      simp [last, prior, arrived, away]
  have noneActive : arrived.edits.filter (fun edits =>
      decide (edits.key = document.initialKey params)) = none := by
    refine Option.filter_eq_none_iff.mpr fun edits isEdits => ?_
    have isKey : edits.key = view.document.initialKey anchor.params := by
      refine ((keyed.keyed edits isEdits).resolve_right fun pending => ?_).trans keyed.initialKey
      exact Bool.noConfusion pending.1
    rw [decide_eq_true_eq, isKey]
    intro same
    rcases differs with other | ⟨away, -⟩
    · exact other (keyed.documentKey.trans (congrArg InitialKey.documentKey same))
    · have alike := sameParams_of_stableEntries (congrArg InitialKey.anchorParams same).symm
      exact absurd alike (Bool.eq_false_iff.mp away)
  have flushed : (state.step (.push document params)).runEffects = arrived :=
    runEffects_push state document params
  refine ⟨_, rfl, ?_⟩
  rw [flushed, anchored, noneActive, Option.map_none, Option.getD_none]
  exact congrArg (fun values : Values => Shown.mk values values) (prune_initial document params)

end Pushed

/-- Edits are kept while every render sees the URL that they were made at or one that a remembered
report says, as all do while each report lands before the next is made. At rest what is applied is
what was edited, and after a report the URL says it. A URL that no remembered report says shows its
own values, and so does another document. -/
theorem controlsFollow (document : Document) (params : Params) :
    (∀ events, NoNavigation events → Recognised document params events →
      let state := (mounted document params).run events
      let edits := edited document params events
      state.held (document.initial params) = edits ∧
      ∀ view, state.AtRest view →
        view.shown = edits.pruned document.types ∧ (state.reports ≠ [] → state.UrlSays view)) ∧
    (∀ events, NoNavigation events → OneInFlight document params events →
      Recognised document params events) ∧
    (∀ events document' params',
      ((mounted document params).run events).runEffects.Differs document' params' →
      let initial := document'.initial params'
      ∃ view, ((mounted document params).run (events ++ [.push document' params', .render])).view =
          some view ∧
        view.shown = { draft := initial, applied := initial }) := by
  refine ⟨fun events stays recognised => ?_, fun events stays one => one.recognised stays, ?_⟩
  · have anchored := Anchored.run events stays recognised
    exact ⟨anchored.held, fun view rest => anchored.atRest rest⟩
  · intro events document' params' differs
    obtain ⟨view, anchor, keyed⟩ := Keyed.run document params events
    rw [State.run, List.foldl_append]
    exact keyed.shows_push differs

/-! ## What is not followed -/

/-- One string is declared, and every edit is applied. -/
def oneString (startingValues : Params) : Document where
  documentKey := none
  declaredTypes := [("A", some "string")]
  startingValues := startingValues
  autorun := true

def onlyA (value : String) : Params where
  entries := [("A", value)]
  keys := List.nodup_singleton "A"

/-- An edit is made, rendered and reported. -/
def retype (value : String) : List Event :=
  [.setGiven "A" (.string value), .render, .effects]

theorem run_render_effects (state : State) (events : List Event) :
    state.run (events ++ [.render, .effects]) = (state.run events).render.runEffects :=
  List.foldl_append

/-- Edits are kept, and shown by the URL, where the one report lands before the URL is changed. -/
theorem controlsFollow_retype :
    let document := oneString Params.empty
    let before := retype "1" ++ [.commit]
    let events := before ++ [.render, .effects]
    let state := (mounted document Params.empty).run events
    state.held (document.initial Params.empty) = edited document Params.empty events ∧
      (∃ view, state.AtRest view ∧ state.UrlSays view) ∧
      ∃ view, ((mounted document Params.empty).run
          (events ++ [.push document (onlyA "2"), .render])).view = some view ∧
        view.shown = { draft := document.initial (onlyA "2")
                       applied := document.initial (onlyA "2") } := by
  intro document before events state
  obtain ⟨kept, known, shows⟩ := controlsFollow document Params.empty
  have stays : NoNavigation events := fun document params => by simp [events, before, retype]
  have one : OneInFlight document Params.empty events := by
    have few : ∀ count < 7,
        ((mounted document Params.empty).run (events.take count)).inFlight.length ≤ 1 := by decide
    intro before after split
    have length : 6 = before.length + after.length :=
      (congrArg List.length split).trans List.length_append
    have isTake : events.take before.length = before := by rw [split, List.take_left]
    exact isTake ▸ few before.length (by omega)
  have recognised := known events stays one
  obtain ⟨held, atRest⟩ := kept events stays recognised
  -- The last render and its effects bring the hook to rest.
  have ran := run_render_effects (mounted document Params.empty) before
  have anchored : Anchored document Params.empty _ ((mounted document Params.empty).run before) :=
    Anchored.run before
      (fun document params member => stays document params (List.mem_append_left _ member))
      fun first after split => recognised first (after ++ [.render, .effects])
        (by rw [show events = before ++ [.render, .effects] from rfl, split]; simp)
  have landed : state.inFlight = [] := List.length_eq_zero_iff.mp (by decide)
  obtain ⟨view, rest⟩ := anchored.rests (recognised before [.effects] rfl) (ran ▸ landed)
  rw [← ran] at rest
  have reported : state.reports ≠ [] := List.ne_nil_of_length_pos (by decide)
  refine ⟨held, ⟨view, rest, (atRest view rest).2 reported⟩, shows events document (onlyA "2") ?_⟩
  have away : state.runEffects.anchor.all fun anchor =>
      sameParams (onlyA "2") anchor.params = false := by decide
  have last : state.runEffects.lastReported.all fun reported =>
      sameDeclaredParams (onlyA "2") reported document = false := by decide
  have prior : state.runEffects.priorReported.all fun reported =>
      sameDeclaredParams (onlyA "2") reported document = false := by decide
  intro anchor isAnchor
  refine Or.inr ⟨of_decide_eq_true ((Option.all_eq_true _ _).mp away anchor isAnchor), ?_⟩
  rintro reported (isLast | isPrior)
  · exact of_decide_eq_true ((Option.all_eq_true _ _).mp last reported isLast)
  · exact of_decide_eq_true ((Option.all_eq_true _ _).mp prior reported isPrior)

/-- Starting values are in no URL before a report; a URL that says what the replaced report did is
taken for it; and the first of three reports is not remembered any more when it lands. -/
theorem echoes_unrecognised :
    (¬ ∀ document params events view, NoNavigation events →
      ((mounted document params).run events).AtRest view →
        ((mounted document params).run events).UrlSays view) ∧
    (¬ ∀ document params events params', NoNavigation events →
      let state := (mounted document params).run events
      (∀ report ∈ state.inFlight ++ state.reports.take 1,
        sameDeclaredParams params' report document = false) →
      ∀ view, (state.run [.push document params', .render]).view = some view →
        view.shown = { draft := document.initial params', applied := document.initial params' }) ∧
    (¬ ∀ document params events, NoNavigation events →
      ((mounted document params).run events).held (document.initial params) =
        edited document params events) := by
  refine ⟨fun all => ?_, fun all => ?_, fun all => ?_⟩
  · let state := (mounted (oneString (onlyA "1")) Params.empty).run [.effects]
    let view := state.view.get (by decide)
    have urlSays := all (oneString (onlyA "1")) Params.empty [.effects] view
      (fun document params => by simp) ⟨rfl, (Option.some_get _).symm, rfl, rfl⟩
    exact absurd urlSays (by unfold State.UrlSays; decide)
  · let events := retype "1" ++ [.commit, .render] ++ retype "2" ++ [.commit]
    let state := ((mounted (oneString Params.empty) Params.empty).run events).run
      [.push (oneString Params.empty) (onlyA "1"), .render]
    let view := state.view.get (by decide)
    have shows := all (oneString Params.empty) Params.empty events (onlyA "1")
      (fun document params => by simp [events, retype]) (by decide) view (Option.some_get _).symm
    have kept : givensToParams view.shown.draft (oneString Params.empty).types =
        [("A", "2")] := by decide
    rw [shows] at kept
    exact absurd kept (by decide)
  · have kept := all (oneString Params.empty) Params.empty
      (retype "1" ++ retype "2" ++ retype "3" ++ [.commit, .render, .effects])
      (fun document params => by simp [retype])
    exact absurd (congrArg (fun shown : Shown => shown.draft.length) kept) (by decide)

end MalloyPublisher.Givens
