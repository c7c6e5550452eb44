/-
# The per-query freshness gate

A query may use a persisted source's table only while that table is within its
declared freshness window; past it the entry's fallback decides. The gate is
evaluated on every query, over a memo that is recomputed when the first entry it
serves crosses its window.

Instants are whole milliseconds and a window is a whole number of seconds, as the
wire format has them.
-/

import Mathlib.Data.Int.ConditionallyCompleteOrder
import Mathlib.Tactic.Linarith
import MalloyPublisher.Foundations.Deadline

namespace MalloyPublisher.Serving

open Foundations

/-- What a stale entry does at read time. -/
inductive FreshnessFallback
  | live
  | staleOk
  | fail
  deriving DecidableEq, Repr

/-- A bound manifest entry with its freshness fields. -/
structure FreshnessAwareManifestEntry where
  tableName : String
  dataAsOf : Option String
  freshnessWindowSeconds : Option ℤ
  freshnessFallback : Option FreshnessFallback
  deriving DecidableEq, Repr

/-- The entries in key order, keyed by source entity id. -/
abbrev FreshnessManifest := List (String × FreshnessAwareManifestEntry)

/-- The entries the runtime substitutes: source entity id to table name. -/
abbrev BuildManifest := List (String × String)

/-- What to do with a single manifest entry at query time. -/
inductive FreshnessDecision
  | serveTable
  | serveLive
  deriving DecidableEq, Repr

section Gate

-- `Date.parse`: the instant a text names, or none where it answers `NaN`.
variable (parse : String → Option ℤ)

/-- Evaluate one entry. Without a window or a readable anchor it is never stale. -/
def evaluateManifestFreshness (entry : FreshnessAwareManifestEntry) (now : ℤ) :
    FreshnessDecision :=
  match entry.freshnessWindowSeconds, entry.dataAsOf with
  | none, _ => .serveTable
  | some _, none => .serveTable
  | some window, some dataAsOf =>
    match parse dataAsOf with
    | none => .serveTable
    | some dataAsOfMs =>
      let ageSeconds : ℚ := ((now - dataAsOfMs : ℤ) : ℚ) / 1000
      if ageSeconds > window then
        if entry.freshnessFallback = some .staleOk then .serveTable else .serveLive
      else .serveTable

/-- The instant a gated entry crosses its window. -/
def staleSinceMs (entry : FreshnessAwareManifestEntry) : Option ℤ :=
  match entry.freshnessWindowSeconds, entry.dataAsOf with
  | some window, some dataAsOf => (parse dataAsOf).map fun dataAsOfMs => dataAsOfMs + window * 1000
  | _, _ => none

/-- The served entries, and the first instant one of them crosses its window. -/
structure FilteredManifest where
  manifest : BuildManifest
  nextStaleSince : Option ℤ

/-- One turn of the filter's loop. -/
def filterEntry (now : ℤ) (filtered : FilteredManifest)
    (keyed : String × FreshnessAwareManifestEntry) : FilteredManifest :=
  if evaluateManifestFreshness parse keyed.2 now = .serveLive then filtered
  else
    { manifest := filtered.manifest ++ [(keyed.1, keyed.2.tableName)]
      nextStaleSince :=
        match staleSinceMs parse keyed.2 with
        | some flipAt =>
          if flipAt > now then
            match filtered.nextStaleSince with
            | none => some flipAt
            | some earliest => some (min earliest flipAt)
          else filtered.nextStaleSince
        | none => filtered.nextStaleSince }

/-- The manifest of the entries served at `now`. -/
def filterFreshManifest (entries : FreshnessManifest) (now : ℤ) : FilteredManifest :=
  entries.foldl (filterEntry parse now) { manifest := [], nextStaleSince := none }

/-- The part of a package the gate reads and writes. -/
structure Package where
  freshnessEntries : Option FreshnessManifest
  freshManifestCache : Option (Memo ℤ BuildManifest)

/-- Store the entries of a rebind, and drop the memo of the entries they replace. -/
def recordManifestBinding (entries : FreshnessManifest) : Package where
  freshnessEntries := if 0 < entries.length then some entries else none
  freshManifestCache := none

/-- The manifest a query uses at `now`; none while the package serves live. -/
def getFreshBuildManifest (package : Package) (now : ℤ) : Option BuildManifest × Package :=
  match package.freshnessEntries with
  | none => (none, package)
  | some entries =>
    let compute (now : ℤ) :=
      ((filterFreshManifest parse entries now).manifest,
        (filterFreshManifest parse entries now).nextStaleSince)
    let (manifest, cache) := consult compute package.freshManifestCache now
    (some manifest, { package with freshManifestCache := cache })

/-- The manifests a package answers a sequence of queries with. -/
def serveQueries (package : Package) : List ℤ → List (ℤ × Option BuildManifest)
  | [] => []
  | now :: later =>
    (now, (getFreshBuildManifest parse package now).1) ::
      serveQueries (getFreshBuildManifest parse package now).2 later

end Gate

section FlipInstants

variable {parse : String → Option ℤ} {entry : FreshnessAwareManifestEntry} {now : ℤ}

/-- The entry's data is older than its window allows. -/
def ExceedsWindow (parse : String → Option ℤ) (entry : FreshnessAwareManifestEntry) (now : ℤ) :
    Prop :=
  ∃ window dataAsOf dataAsOfMs, entry.freshnessWindowSeconds = some window ∧
    entry.dataAsOf = some dataAsOf ∧ parse dataAsOf = some dataAsOfMs ∧
    ((now - dataAsOfMs : ℤ) : ℚ) / 1000 > window

theorem exceedsWindow_iff :
    ExceedsWindow parse entry now ↔
      ∃ flipAt, staleSinceMs parse entry = some flipAt ∧ flipAt < now := by
  have crossed (window dataAsOfMs : ℤ) : ((now - dataAsOfMs : ℤ) : ℚ) / 1000 > window ↔
      dataAsOfMs + window * 1000 < now := by
    rw [gt_iff_lt, lt_div_iff₀ (by norm_num)]
    constructor
    · intro older
      have : window * 1000 < now - dataAsOfMs := by exact_mod_cast older
      omega
    · intro older
      have : window * 1000 < now - dataAsOfMs := by omega
      exact_mod_cast this
  unfold ExceedsWindow staleSinceMs
  cases entry.freshnessWindowSeconds with
  | none => simp
  | some window =>
    cases entry.dataAsOf with
    | none => simp
    | some dataAsOf =>
      cases parsed : parse dataAsOf with
      | none => simp [parsed]
      | some dataAsOfMs =>
        simp only [Option.some.injEq, exists_eq_left', exists_and_left, parsed, crossed,
          Option.map_some]

/-- An entry is dropped exactly when its data is too old and its fallback does not
keep it. -/
theorem evaluateManifestFreshness_eq_serveLive_iff :
    evaluateManifestFreshness parse entry now = .serveLive ↔
      ExceedsWindow parse entry now ∧ entry.freshnessFallback ≠ some .staleOk := by
  unfold evaluateManifestFreshness ExceedsWindow
  cases entry.freshnessWindowSeconds with
  | none => simp
  | some window =>
    cases entry.dataAsOf with
    | none => simp
    | some dataAsOf =>
      cases parsed : parse dataAsOf with
      | none => simp [parsed]
      | some dataAsOfMs =>
        simp only [Option.some.injEq, exists_eq_left', exists_and_left, parsed]
        split_ifs <;> simp_all

/-- What one entry adds to the manifest served at `now`. -/
def served (parse : String → Option ℤ) (now : ℤ) (keyed : String × FreshnessAwareManifestEntry) :
    Option (String × String) :=
  if evaluateManifestFreshness parse keyed.2 now = .serveLive then none
  else some (keyed.1, keyed.2.tableName)

theorem served_eq_none_iff {keyed : String × FreshnessAwareManifestEntry} :
    served parse now keyed = none ↔
      evaluateManifestFreshness parse keyed.2 now = .serveLive := by
  simp [served]

theorem foldl_filterEntry_manifest (entries : FreshnessManifest) (filtered : FilteredManifest) :
    (entries.foldl (filterEntry parse now) filtered).manifest =
      filtered.manifest ++ entries.filterMap (served parse now) := by
  induction entries generalizing filtered with
  | nil => simp
  | cons keyed entries ih =>
    rw [List.foldl_cons, ih]
    by_cases dropped : evaluateManifestFreshness parse keyed.2 now = .serveLive
    · simp [filterEntry, served, dropped]
    · simp [filterEntry, served, dropped]

theorem filterFreshManifest_manifest (entries : FreshnessManifest) :
    (filterFreshManifest parse entries now).manifest = entries.filterMap (served parse now) := by
  simp [filterFreshManifest, foldl_filterEntry_manifest]

/-- Before the deadline means before every flip instant that is still to come. -/
theorem lt_deadline_foldl_filterEntry (entries : FreshnessManifest) (filtered : FilteredManifest)
    (later : ℤ) :
    later < deadline (entries.foldl (filterEntry parse now) filtered).nextStaleSince ↔
      later < deadline filtered.nextStaleSince ∧ ∀ keyed ∈ entries, ∀ flipAt,
        staleSinceMs parse keyed.2 = some flipAt → now < flipAt → later < flipAt := by
  induction entries generalizing filtered with
  | nil => simp
  | cons keyed entries ih =>
    rw [List.foldl_cons, ih, List.forall_mem_cons, ← and_assoc]
    refine and_congr_left fun _ => ?_
    by_cases dropped : evaluateManifestFreshness parse keyed.2 now = .serveLive
    · obtain ⟨flipAt, flips, passed⟩ :=
        exceedsWindow_iff.mp (evaluateManifestFreshness_eq_serveLive_iff.mp dropped).1
      simp [filterEntry, dropped, flips, passed.not_gt]
    · cases flips : staleSinceMs parse keyed.2 with
      | none => simp [filterEntry, dropped, flips]
      | some flipAt =>
        by_cases ahead : now < flipAt
        · cases earliest : filtered.nextStaleSince <;>
            simp [filterEntry, dropped, flips, ahead, earliest, deadline]
        · simp [filterEntry, dropped, flips, ahead]

theorem lt_deadline_filterFreshManifest (entries : FreshnessManifest) (later : ℤ) :
    later < deadline (filterFreshManifest parse entries now).nextStaleSince ↔
      ∀ keyed ∈ entries, ∀ flipAt,
        staleSinceMs parse keyed.2 = some flipAt → now < flipAt → later < flipAt := by
  rw [filterFreshManifest, lt_deadline_foldl_filterEntry]
  simp [deadline]

/-- Data only ages. -/
theorem ExceedsWindow.later {later : ℤ} (exceeds : ExceedsWindow parse entry now)
    (passes : now ≤ later) : ExceedsWindow parse entry later := by
  obtain ⟨flipAt, flips, passed⟩ := exceedsWindow_iff.mp exceeds
  exact exceedsWindow_iff.mpr ⟨flipAt, flips, by omega⟩

/-- Of two instants, the later serves fewer entries once it drops one the earlier keeps. -/
theorem length_filterMap_served_lt {entries : FreshnessManifest} {later : ℤ}
    {keyed : String × FreshnessAwareManifestEntry} (passes : now ≤ later)
    (member : keyed ∈ entries) (kept : served parse now keyed ≠ none)
    (dropped : served parse later keyed = none) :
    (entries.filterMap (served parse later)).length <
      (entries.filterMap (served parse now)).length := by
  have stays (other : String × FreshnessAwareManifestEntry) (gone : served parse now other = none) :
      served parse later other = none := by
    rw [served_eq_none_iff, evaluateManifestFreshness_eq_serveLive_iff] at gone ⊢
    exact ⟨gone.1.later passes, gone.2⟩
  have atMost (entries : FreshnessManifest) : (entries.filterMap (served parse later)).length ≤
      (entries.filterMap (served parse now)).length := by
    induction entries with
    | nil => simp
    | cons other entries ih =>
      cases here : served parse now other with
      | none => simpa [here, stays other here] using ih
      | some pair => cases there : served parse later other <;> simp [here, there] <;> omega
  induction entries with
  | nil => cases member
  | cons other entries ih =>
    have rest := atMost entries
    rcases List.mem_cons.mp member with rfl | member
    · obtain ⟨pair, here⟩ := Option.ne_none_iff_exists'.mp kept
      simp [here, dropped]
      omega
    · have fewer := ih member
      cases here : served parse now other with
      | none => simpa [here, stays other here] using fewer
      | some pair => cases there : served parse later other <;> simp [here, there] <;> omega

end FlipInstants

/-! ## The memoised gate -/

section MemoisedGate

variable (parse : String → Option ℤ) (entries : FreshnessManifest) (instants : List ℤ)

/-- The memoised gate answers every query as the filter does from scratch, and serves
no entry past its window whose fallback is to drop it. -/
def MemoAgreesWithFilter : Prop :=
  serveQueries parse (recordManifestBinding entries) instants =
      instants.map (fun now => (now, some (filterFreshManifest parse entries now).manifest)) ∧
    ∀ now manifest, (now, some manifest) ∈
        serveQueries parse (recordManifestBinding entries) instants →
      ∀ pair ∈ manifest, ∃ entry, (pair.1, entry) ∈ entries ∧ entry.tableName = pair.2 ∧
        ¬ (ExceedsWindow parse entry now ∧
          (entry.freshnessFallback = some .live ∨ entry.freshnessFallback = some .fail))

/-- No query lands exactly on the flip instant of an entry that is to be dropped,
unless the next flip instant comes no later than the next query. -/
def BoundariesCovered : Prop :=
  ∀ now ∈ instants, ∀ later ∈ instants, now < later →
    ∀ keyed ∈ entries, staleSinceMs parse keyed.2 = some now →
      keyed.2.freshnessFallback ≠ some .staleOk →
      ∃ other ∈ entries, ∃ flipAt, staleSinceMs parse other.2 = some flipAt ∧
        now < flipAt ∧ flipAt ≤ later

/-- The filter as the memo calls it. -/
def freshCompute (now : ℤ) : BuildManifest × Option ℤ :=
  ((filterFreshManifest parse entries now).manifest,
    (filterFreshManifest parse entries now).nextStaleSince)

variable {parse entries instants}

/-- A bound package answers its queries through the memo. -/
theorem serveQueries_eq_consultAll (memo : Option (Memo ℤ BuildManifest)) :
    serveQueries parse { freshnessEntries := some entries, freshManifestCache := memo } instants =
      (consultAll (freshCompute parse entries) memo instants).map fun answer =>
        (answer.1, some answer.2) := by
  induction instants generalizing memo with
  | nil => rfl
  | cons now later ih =>
    rw [serveQueries, consultAll, List.map_cons]
    exact congrArg _ (ih _)

theorem goodUntilDeadline_of_boundariesCovered (covered : BoundariesCovered parse entries instants) :
    GoodUntilDeadline (freshCompute parse entries) instants := by
  intro now queried later queriedLater passes valid
  have ahead := (lt_deadline_filterFreshManifest entries later).mp valid
  simp only [freshCompute, filterFreshManifest_manifest]
  refine List.filterMap_congr fun keyed member => ?_
  have same : evaluateManifestFreshness parse keyed.2 later = .serveLive ↔
      evaluateManifestFreshness parse keyed.2 now = .serveLive := by
    rw [evaluateManifestFreshness_eq_serveLive_iff, evaluateManifestFreshness_eq_serveLive_iff]
    refine and_congr_left fun droppable => ⟨fun exceeds => ?_, fun exceeds => exceeds.later passes⟩
    obtain ⟨flipAt, flips, passed⟩ := exceedsWindow_iff.mp exceeds
    refine exceedsWindow_iff.mpr ⟨flipAt, flips, ?_⟩
    rcases lt_trichotomy flipAt now with before | rfl | after
    · exact before
    · -- The entry is at its boundary: another flip instant ends the memo in time.
      obtain ⟨other, among, next, otherFlips, soon, reached⟩ :=
        covered flipAt queried later queriedLater passed keyed member flips droppable
      exact absurd reached (not_le.mpr (ahead other among next otherFlips soon))
    · exact absurd (ahead keyed member flipAt flips after) (not_lt.mpr passed.le)
  simp only [served, same]

theorem recordManifestBinding_of_pos (bound : 0 < entries.length) :
    recordManifestBinding entries =
      { freshnessEntries := some entries, freshManifestCache := none } := by
  simp [recordManifestBinding, bound]

/-- What the filter serves is in the entries and is not due to be dropped. -/
theorem mem_filterFreshManifest {now : ℤ} {pair : String × String}
    (member : pair ∈ (filterFreshManifest parse entries now).manifest) :
    ∃ entry, (pair.1, entry) ∈ entries ∧ entry.tableName = pair.2 ∧
      ¬ (ExceedsWindow parse entry now ∧
        (entry.freshnessFallback = some .live ∨ entry.freshnessFallback = some .fail)) := by
  rw [filterFreshManifest_manifest] at member
  obtain ⟨⟨key, entry⟩, among, serves⟩ := List.mem_filterMap.mp member
  have kept : evaluateManifestFreshness parse entry now ≠ .serveLive := by
    intro dropped
    simp [served, dropped] at serves
  simp only [served, kept, if_false, Option.some.injEq] at serves
  subst serves
  refine ⟨entry, among, rfl, fun ⟨exceeds, fallback⟩ => kept ?_⟩
  refine evaluateManifestFreshness_eq_serveLive_iff.mpr ⟨exceeds, ?_⟩
  rcases fallback with fallback | fallback <;> simp [fallback]

/-- A query exactly on a boundary keeps the entry, and the memo of that query keeps
it until the next flip instant. -/
theorem boundariesCovered_of_consultAll (clock : instants.Pairwise (· ≤ ·))
    (agrees : consultAll (freshCompute parse entries) none instants =
      instants.map fun now => (now, (freshCompute parse entries now).1)) :
    BoundariesCovered parse entries instants := by
  intro now queried later queriedLater after keyed member flips droppable
  by_contra uncovered
  push Not at uncovered
  have valid : later < deadline (freshCompute parse entries now).2 :=
    (lt_deadline_filterFreshManifest entries later).mpr fun other among flipAt otherFlips soon =>
      uncovered other among flipAt otherFlips soon
  have expires : ∀ earlier ∈ instants, earlier < now →
      deadline (freshCompute parse entries earlier).2 ≤ now := by
    intro earlier _ before
    by_contra outlives
    exact lt_irrefl _ ((lt_deadline_filterFreshManifest entries now).mp (not_le.mp outlives)
      keyed member now flips before)
  have answered : (later, (freshCompute parse entries now).1) ∈
      consultAll (freshCompute parse entries) none instants :=
    mem_consultAll_of_deadline clock queried queriedLater after expires valid
      fun _ none => nomatch none
  rw [agrees] at answered
  obtain ⟨instant, -, answer⟩ := List.mem_map.mp answered
  obtain ⟨rfl, same⟩ := Prod.mk.inj answer
  have kept : served parse now keyed ≠ none := by
    rw [Ne, served_eq_none_iff, evaluateManifestFreshness_eq_serveLive_iff, exceedsWindow_iff]
    rintro ⟨⟨flipAt, again, passed⟩, -⟩
    cases flips.symm.trans again
    exact lt_irrefl _ passed
  have dropped : served parse instant keyed = none := by
    rw [served_eq_none_iff, evaluateManifestFreshness_eq_serveLive_iff, exceedsWindow_iff]
    exact ⟨⟨now, flips, after⟩, droppable⟩
  have fewer := length_filterMap_served_lt after.le member kept dropped
  simp only [freshCompute, filterFreshManifest_manifest] at same
  rw [same] at fewer
  exact lt_irrefl _ fewer

/-- The memoised gate agrees with the filter over a whole run exactly when every
query that lands on a boundary is followed by another flip instant in time. -/
theorem memoAgreesWithFilter_iff (bound : 0 < entries.length)
    (clock : instants.Pairwise (· ≤ ·)) :
    MemoAgreesWithFilter parse entries instants ↔ BoundariesCovered parse entries instants := by
  have run : serveQueries parse (recordManifestBinding entries) instants =
      (consultAll (freshCompute parse entries) none instants).map fun answer =>
        (answer.1, some answer.2) := by
    rw [recordManifestBinding_of_pos bound, serveQueries_eq_consultAll]
  constructor
  · rintro ⟨agrees, -⟩
    refine boundariesCovered_of_consultAll clock ?_
    have injective : Function.Injective fun answer : ℤ × BuildManifest =>
        (answer.1, some answer.2) := by
      rintro ⟨now, manifest⟩ ⟨later, other⟩ same
      simpa using same
    apply List.map_injective_iff.mpr injective
    rw [← run, agrees, List.map_map]
    rfl
  · intro covered
    have agrees : consultAll (freshCompute parse entries) none instants =
        instants.map fun now => (now, (freshCompute parse entries now).1) :=
      consultAll_eq_map clock (goodUntilDeadline_of_boundariesCovered covered)
        fun _ none => nomatch none
    have scratch : serveQueries parse (recordManifestBinding entries) instants =
        instants.map fun now => (now, some (filterFreshManifest parse entries now).manifest) := by
      rw [run, agrees, List.map_map]
      rfl
    refine ⟨scratch, fun now manifest answered pair member => ?_⟩
    rw [scratch] at answered
    obtain ⟨instant, -, answer⟩ := List.mem_map.mp answered
    obtain ⟨rfl, same⟩ := Prod.mk.inj answer
    obtain rfl := Option.some.inj same
    exact mem_filterFreshManifest member

/-- A table of a minute's window, and queries at its last fresh millisecond and the next. -/
def minuteTable : FreshnessManifest :=
  [("e1", { tableName := "orders_v1", dataAsOf := some "1970-01-01T00:00:00Z",
            freshnessWindowSeconds := some 60, freshnessFallback := some .live })]

/-- `Date.parse` on the one text the example holds. -/
def epochOnly (text : String) : Option ℤ :=
  if text = "1970-01-01T00:00:00Z" then some 0 else none

theorem minuteTable_served_past_window :
    ¬ MemoAgreesWithFilter epochOnly minuteTable [60000, 60001] := by
  rintro ⟨agrees, -⟩
  revert agrees
  decide +kernel

theorem minuteTable_memoAgrees_iff :
    MemoAgreesWithFilter epochOnly minuteTable [59999, 60001] ↔
      BoundariesCovered epochOnly minuteTable [59999, 60001] :=
  memoAgreesWithFilter_iff (by decide) (by decide)

end MemoisedGate

end MalloyPublisher.Serving
