import Mathlib.Data.List.Basic

/-!
# Which measures can be merged

A rollup stores what a measure comes to at a grain, and a query at a coarser grain merges what
is stored. The classifier tells from a measure's expression how its partials are merged, if they
can be: the measure has to be one aggregate at the root of its expression, bare or with one
filter written on it.

## Main definitions

* `Expr` — what is read of a compiled expression
* `walk` — what is found anywhere in it
* `classifyMeasureAdditivity` — how a measure's partials are merged, or why they are not
-/

namespace MalloyPublisher.Preaggregation

inductive ExpressionType
  | scalar | aggregate | scalar_analytic | aggregate_analytic | ungrouped_aggregate
deriving DecidableEq

def ExpressionType.text : ExpressionType → String
  | .scalar => "scalar"
  | .aggregate => "aggregate"
  | .scalar_analytic => "scalar_analytic"
  | .aggregate_analytic => "aggregate_analytic"
  | .ungrouped_aggregate => "ungrouped_aggregate"

/-- An expression, with the nodes the classifier tells apart. -/
inductive Expr
  | aggregate (function : String) (kids : List Expr)
  | filteredExpr (e : Expr) (filterList : List (ExpressionType × Expr))
  /-- `all` and `exclude`. -/
  | ungrouped (kids : List Expr)
  | functionCall (expressionType : ExpressionType) (kids : List Expr)
  | other (kids : List Expr)

/-- What one pass over an expression finds. -/
structure Findings where
  aggregates : List String := []
  filtered : ℕ := 0
  ungrouped : Bool := false
  analytic : Bool := false

def ExpressionType.isAnalytic : ExpressionType → Bool
  | .scalar_analytic | .aggregate_analytic => true
  | _ => false

mutual

/-- Walk a whole expression. -/
def walk : Expr → Findings → Findings
  | .aggregate function kids, found =>
    walkAll kids { found with aggregates := found.aggregates ++ [function] }
  | .filteredExpr e filterList, found =>
    walkConditions filterList (walk e { found with filtered := found.filtered + 1 })
  | .ungrouped kids, found => walkAll kids { found with ungrouped := true }
  | .functionCall expressionType kids, found =>
    walkAll kids { found with analytic := found.analytic || expressionType.isAnalytic }
  | .other kids, found => walkAll kids found

def walkAll : List Expr → Findings → Findings
  | [], found => found
  | kid :: kids, found => walkAll kids (walk kid found)

def walkConditions : List (ExpressionType × Expr) → Findings → Findings
  | [], found => found
  | (_, condition) :: conditions, found => walkConditions conditions (walk condition found)

end

/-- The aggregates whose partials can be merged. -/
inductive AdditiveAggregate
  | sum | count | min | max
deriving DecidableEq

/-- The aggregate that merges stored partials. -/
inductive ReaggregateFunction
  | sum | min | max
deriving DecidableEq

def ReaggregateFunction.text : ReaggregateFunction → String
  | .sum => "sum"
  | .min => "min"
  | .max => "max"

/-- How each aggregate merges: stored counts are summed. -/
def REAGGREGATE : AdditiveAggregate → ReaggregateFunction
  | .sum => .sum
  | .count => .sum
  | .min => .min
  | .max => .max

def isAdditiveAggregate : String → Option AdditiveAggregate
  | "sum" => some .sum
  | "count" => some .count
  | "min" => some .min
  | "max" => some .max
  | _ => none

inductive NonAdditiveReason
  | not_an_aggregate | no_expression | unsupported_aggregate | no_aggregate_found
  | multiple_aggregates | aggregate_not_at_root | filtered_aggregate | ungrouped_aggregate
  | requires_group_by | analytic
deriving DecidableEq

inductive AdditivityResult
  | additive (aggregate : AdditiveAggregate) (reaggregate : ReaggregateFunction)
  | nonAdditive (reason : NonAdditiveReason) (detail : String)

/-- What the classifier reads of a measure. Of the group-by requirements and the ungroupings it
reads how many there are. -/
structure ClassifiableMeasure where
  name : String
  e : Option Expr := none
  expressionType : Option ExpressionType := none
  requiresGroupBy : ℕ := 0
  ungroupings : ℕ := 0

/-- A name in backquotes. -/
def ticked (name : String) : String := "\x60" ++ name ++ "\x60"

/-- The expression an aggregate has to be at the root of: the measure's own, or what its one
filter is written on. -/
def aggregateRoot (found : Findings) (e : Expr) : Option Expr :=
  if found.filtered = 0 then some e
  else
    match e with
    | .filteredExpr (.aggregate function kids) filterList =>
      if found.filtered = 1 && filterList.all (·.1 = .scalar) then
        some (.aggregate function kids)
      else none
    | _ => none

def preaggregateNot : String := "Remove \x60#@ preaggregate\x60 from it."

def unsupportedHint (function : String) : String :=
  if function = "avg" then
    " Pre-aggregate a \x60sum\x60 and a \x60count\x60 instead, and divide them in a view."
  else if function = "distinct" then
    " A distinct count cannot be merged from per-group partials."
  else ""

/-- What an expression's findings make of a measure. -/
def classifyExpression (name : String) (e : Expr) : AdditivityResult :=
  let found := walk e {}
  if found.ungrouped then
    .nonAdditive .ungrouped_aggregate ("Measure " ++ ticked name ++ " contains an ungrouping " ++
      "(\x60all()\x60 or \x60exclude()\x60), so it cannot be re-aggregated from a stored " ++
      "partial. " ++ preaggregateNot)
  else if found.analytic then
    .nonAdditive .analytic ("Measure " ++ ticked name ++ " contains a window function, which is " ++
      "computed across result rows rather than within a group, so it cannot be " ++
      "pre-aggregated. " ++ preaggregateNot)
  else
    match aggregateRoot found e with
    | none =>
      .nonAdditive .filtered_aggregate ("Measure " ++ ticked name ++ " applies a filter this " ++
        "version cannot pre-aggregate: a filter is supported only when written directly on the " ++
        "measure's single aggregate, as \x60amount.sum() \x7b where: … \x7d\x60 (several " ++
        "conditions go in ONE \x60where:\x60, comma-separated, not chained). If the filter sits " ++
        "under a wrapper or refines a derived measure, pre-aggregate the bare filtered " ++
        "aggregate as its own measure and do the rest in a view, or remove " ++
        "\x60#@ preaggregate\x60 from it.")
    | some root =>
      if found.aggregates.length = 0 then
        .nonAdditive .no_aggregate_found ("Measure " ++ ticked name ++ " does not compute a " ++
          "single plain aggregate, and only \x60sum\x60, \x60count\x60, \x60min\x60 and " ++
          "\x60max\x60 can be re-aggregated from a stored partial. If it is derived from other " ++
          "measures, pre-aggregate those instead and compute this one in a view.")
      else if found.aggregates.length > 1 then
        .nonAdditive .multiple_aggregates ("Measure " ++ ticked name ++ " combines " ++
          toString found.aggregates.length ++ " aggregates, and a ratio or difference of " ++
          "aggregates cannot be re-aggregated from a single stored column. Pre-aggregate each " ++
          "aggregate as its own measure and combine them in a view.")
      else
        match root with
        | .aggregate function _ =>
          match isAdditiveAggregate function with
          | some aggregate => .additive aggregate (REAGGREGATE aggregate)
          | none =>
            .nonAdditive .unsupported_aggregate ("Measure " ++ ticked name ++ " uses " ++
              ticked function ++ ", which cannot be re-aggregated from a stored partial; only " ++
              "\x60sum\x60, \x60count\x60, \x60min\x60 and \x60max\x60 can." ++
              unsupportedHint function)
        | _ =>
          .nonAdditive .aggregate_not_at_root ("Measure " ++ ticked name ++ " wraps its " ++
            "aggregate in a further expression, so re-aggregating a stored partial would not " ++
            "reproduce it. Pre-aggregate the bare aggregate as its own measure and do the rest " ++
            "in a view.")

/-- Classify one measure. -/
def classifyMeasureAdditivity (measure : ClassifiableMeasure) : AdditivityResult :=
  let name := measure.name
  match measure.expressionType with
  | some .ungrouped_aggregate =>
    .nonAdditive .ungrouped_aggregate ("Measure " ++ ticked name ++ " uses \x60all()\x60 or " ++
      "\x60exclude()\x60, whose value depends on the query's grouping, so it cannot be " ++
      "re-aggregated from a stored partial. " ++ preaggregateNot)
  | some .scalar_analytic | some .aggregate_analytic =>
    .nonAdditive .analytic ("Measure " ++ ticked name ++ " is a window function, which is " ++
      "computed across result rows rather than within a group, so it cannot be " ++
      "pre-aggregated. " ++ preaggregateNot)
  | some .aggregate =>
    if measure.requiresGroupBy > 0 then
      .nonAdditive .requires_group_by ("Measure " ++ ticked name ++ " declares " ++
        "\x60grouped_by\x60, which constrains the grain a query may use it at; combining that " ++
        "with a rollup's own grain is not supported in this version. " ++ preaggregateNot)
    else if measure.ungroupings > 0 then
      .nonAdditive .ungrouped_aggregate ("Measure " ++ ticked name ++ " contains an ungrouping " ++
        "(\x60all()\x60 or \x60exclude()\x60), so it cannot be re-aggregated from a stored " ++
        "partial. " ++ preaggregateNot)
    else
      match measure.e with
      | none =>
        .nonAdditive .no_expression ("Measure " ++ ticked name ++ " has no expression the " ++
          "publisher can inspect, so it cannot be proven safe to pre-aggregate. " ++
          preaggregateNot)
      | some e => classifyExpression name e
  | other =>
    .nonAdditive .not_an_aggregate (ticked name ++ " is not an aggregate measure (it is " ++
      ticked ((other.map ExpressionType.text).getD "untyped") ++ "), and only measures can be " ++
      "pre-aggregated. " ++ preaggregateNot)

end MalloyPublisher.Preaggregation
