import Mathlib.Data.List.Chain
import Mathlib.Data.List.Nodup

/-!
# Following aliases to a marked name

A walk follows a table of aliases from a name, one entry after another, and answers the
first marked name it looks at. It stops where a name has no entry and where it comes to a
name a second time. Against another account of what leads where, the walk is right for
every marking exactly when the names it looks at are the other account's chain.

## Main definitions

* `followAliases` — the walk
* `lookedAt` — the names it looks at
* `FirstOnChain` — the first marked name on a chain of steps
* `IsChainOf` — a list of names is the chain of steps from a name

## Main results

* `followAliases_eq` — the walk finds the first marked of the names it looks at
* `rightFor_iff_isChainOf` — when the names are right for every marking
-/

namespace MalloyPublisher.Foundations

open Relation

variable {N : Type*}

section Walk

variable [DecidableEq N]

/-- The entries for names that are not seen yet. -/
def unseenEntries (entries : List (N × N)) (seen : List N) : List (N × N) :=
  entries.filter fun entry => entry.1 ∉ seen

theorem length_unseenEntries_lt {entries : List (N × N)} {seen : List N} {current next : N}
    (fresh : current ∉ seen) (found : entries.lookup current = some next) :
    (unseenEntries entries (current :: seen)).length < (unseenEntries entries seen).length := by
  have fewer : unseenEntries entries (current :: seen) =
      (unseenEntries entries seen).filter fun entry => entry.1 ≠ current := by
    rw [unseenEntries, unseenEntries, List.filter_filter]
    apply List.filter_congr
    intro entry _
    simp
  have mem : (current, next) ∈ unseenEntries entries seen := by
    obtain ⟨before, after, shape, _⟩ := List.lookup_eq_some_iff.mp found
    have inEntries : (current, next) ∈ entries := by
      rw [shape]
      exact List.mem_append_right before (.head after)
    exact List.mem_filter.mpr ⟨inEntries, by simpa using fresh⟩
  rw [fewer, List.length_filter_lt_length_iff_exists]
  exact ⟨_, mem, by simp⟩

/-- Follow the aliases from `current` to the first marked name. -/
def followAliases (entries : List (N × N)) (marked : N → Bool) (seen : List N) (current : N) :
    Option N :=
  if current ∈ seen then none
  else if marked current then some current
  else
    match _found : entries.lookup current with
    | none => none
    | some next => followAliases entries marked (current :: seen) next
termination_by (unseenEntries entries seen).length
decreasing_by exact length_unseenEntries_lt ‹_› ‹_›

/-- The names the walk looks at, were none of them marked. -/
def lookedAt (entries : List (N × N)) (seen : List N) (current : N) : List N :=
  if current ∈ seen then []
  else
    match _found : entries.lookup current with
    | none => [current]
    | some next => current :: lookedAt entries (current :: seen) next
termination_by (unseenEntries entries seen).length
decreasing_by exact length_unseenEntries_lt ‹_› ‹_›

theorem followAliases_eq (entries : List (N × N)) (marked : N → Bool) (seen : List N) (current : N) :
    followAliases entries marked seen current = (lookedAt entries seen current).find? marked := by
  fun_induction followAliases entries marked seen current with
  | case1 seen current repeats => rw [lookedAt, if_pos repeats]; rfl
  | case2 seen current fresh isMarked =>
    rw [lookedAt, if_neg fresh]
    split <;> rw [List.find?_cons_of_pos isMarked]
  | case3 seen current fresh unmarked stops =>
    rw [lookedAt, if_neg fresh, stops, List.find?_cons_of_neg unmarked]
    rfl
  | case4 seen current fresh unmarked next goesOn ih =>
    rw [lookedAt, if_neg fresh, goesOn, List.find?_cons_of_neg unmarked, ih]

theorem lookedAt_nodup (entries : List (N × N)) (seen : List N) (current : N) :
    (lookedAt entries seen current).Nodup ∧ ∀ name ∈ lookedAt entries seen current, name ∉ seen := by
  fun_induction lookedAt entries seen current with
  | case1 => exact ⟨.nil, fun _ mem => absurd mem List.not_mem_nil⟩
  | case2 seen current fresh stops =>
    exact ⟨List.nodup_singleton current, fun name mem => List.mem_singleton.mp mem ▸ fresh⟩
  | case3 seen current fresh next goesOn ih =>
    refine ⟨List.nodup_cons.mpr ⟨fun mem => ih.2 current mem (.head seen), ih.1⟩, ?_⟩
    exact List.forall_mem_cons.mpr ⟨fresh, fun name mem inSeen => ih.2 name mem (.tail _ inSeen)⟩

end Walk

/-! ## The first marked name on a chain -/

/-- The first marked name on the chain of steps from a name. -/
inductive FirstOnChain (step : N → N → Prop) (marked : N → Prop) : N → N → Prop
  | here {name : N} (isMarked : marked name) : FirstOnChain step marked name name
  | later {name next found : N} (unmarked : ¬ marked name) (leads : step name next)
      (first : FirstOnChain step marked next found) : FirstOnChain step marked name found

/-- A list of names is the chain of steps from a name, up to a name with no step or with a
step back. -/
structure IsChainOf (step : N → N → Prop) (start : N) (names : List N) : Prop where
  starts : names.head? = some start
  chain : names.IsChain step
  ends : ∀ last, names.getLast? = some last → ∀ next, step last next → next ∈ names

variable {step : N → N → Prop} {marked : N → Prop} {start found other last name next : N}
  {names rest : List N}

theorem FirstOnChain.reach (first : FirstOnChain step marked start found) :
    ReflTransGen step start found := by
  induction first with
  | here => exact .refl
  | later _ leads _ ih => exact .head leads ih

theorem FirstOnChain.isMarked (first : FirstOnChain step marked start found) : marked found := by
  induction first with
  | here isMarked => exact isMarked
  | later _ _ _ ih => exact ih

theorem FirstOnChain.unique (single : Relator.RightUnique step)
    (first : FirstOnChain step marked start found) (second : FirstOnChain step marked start other) :
    found = other := by
  induction first with
  | here isMarked =>
    cases second with
    | here => rfl
    | later unmarked => exact absurd isMarked unmarked
  | later unmarked leads _ ih =>
    cases second with
    | here isMarked => exact absurd isMarked unmarked
    | later _ leads' second =>
      rw [single leads' leads] at second
      exact ih second

/-- Along a chain, the first marked of its names is first on the chain. -/
theorem firstOnChain_of_find [DecidablePred marked] (starts : names.head? = some start)
    (chain : names.IsChain step) (finds : names.find? (marked ·) = some found) :
    FirstOnChain step marked start found := by
  induction names generalizing start with
  | nil => cases finds
  | cons name names ih =>
    rw [List.head?_cons, Option.some_inj] at starts
    subst starts
    by_cases isMarked : marked name
    · have first : (name :: names).find? (marked ·) = some name := by simp [isMarked]
      exact Option.some_inj.mp (first.symm.trans finds) ▸ .here isMarked
    · have skips : (name :: names).find? (marked ·) = names.find? (marked ·) := by simp [isMarked]
      rw [skips] at finds
      cases names with
      | nil => cases finds
      | cons next names =>
        obtain ⟨leads, chain⟩ := List.isChain_cons_cons.mp chain
        exact .later isMarked leads (ih rfl chain finds)

/-- Past an unmarked chain, the next name is first if it is marked. -/
theorem firstOnChain_of_past (starts : names.head? = some start) (chain : names.IsChain step)
    (unmarked : ∀ name ∈ names, ¬ marked name) (last_ : names.getLast? = some last)
    (leads : step last next) (isMarked : marked next) : FirstOnChain step marked start next := by
  induction names generalizing start with
  | nil => cases starts
  | cons name names ih =>
    rw [List.head?_cons, Option.some_inj] at starts
    subst starts
    have here := unmarked name (.head names)
    cases names with
    | nil =>
      rw [List.getLast?_singleton, Option.some_inj] at last_
      exact .later here (last_ ▸ leads) (.here isMarked)
    | cons second names =>
      obtain ⟨first, chain⟩ := List.isChain_cons_cons.mp chain
      refine .later here first (ih rfl chain (fun name mem => unmarked name (.tail _ mem)) ?_)
      rwa [List.getLast?_cons_cons] at last_

/-- A step from a name on a chain stays on it or leaves from its end. -/
theorem mem_or_last (single : Relator.RightUnique step)
    (chain : names.IsChain step) (mem : name ∈ names) (leads : step name next) :
    next ∈ names ∨ names.getLast? = some name := by
  induction names with
  | nil => cases mem
  | cons first names ih =>
    cases names with
    | nil =>
      rw [List.mem_singleton] at mem
      exact .inr (mem ▸ rfl)
    | cons second names =>
      obtain ⟨step_, chain⟩ := List.isChain_cons_cons.mp chain
      rw [List.getLast?_cons_cons]
      rcases List.mem_cons.mp mem with rfl | mem
      · exact .inl (single leads step_ ▸ .tail _ (.head names))
      · exact (ih chain mem).imp_left (.tail _)

/-- A reachable name off a chain is reached through the chain's end. -/
theorem exists_step_off (single : Relator.RightUnique step)
    (chain : names.IsChain step) (mem : start ∈ names) (reach : ReflTransGen step start found)
    (off : found ∉ names) :
    ∃ last next, names.getLast? = some last ∧ step last next ∧ next ∉ names := by
  induction reach using ReflTransGen.head_induction_on with
  | refl => exact absurd mem off
  | @head name next leads _ ih =>
    by_cases stays : next ∈ names
    · exact ih stays
    · exact ⟨name, next, (mem_or_last single chain mem leads).resolve_left stays, leads, stays⟩

theorem IsChainOf.mem_of_reach
    (single : Relator.RightUnique step)
    (isChain : IsChainOf step start names) (reach : ReflTransGen step start found) :
    found ∈ names := by
  by_contra off
  obtain ⟨last, next, isLast, leads, leaves⟩ :=
    exists_step_off single isChain.chain (List.mem_of_head? isChain.starts) reach off
  exact leaves (isChain.ends last isLast next leads)

/-! ## Right for every marking -/

section Markings

variable [DecidableEq N]

/-- The first marked of the names is the first marked name on the chain, and no name off
the chain is found. -/
structure RightFor (step : N → N → Prop) (start : N) (names marks : List N) : Prop where
  finds : ∀ found, FirstOnChain step (· ∈ marks) start found →
    names.find? (· ∈ marks) = some found
  reaches : ∀ found, names.find? (· ∈ marks) = some found → ReflTransGen step start found

theorem IsChainOf.rightFor
    (single : Relator.RightUnique step)
    (isChain : IsChainOf step start names) (marks : List N) : RightFor step start names marks where
  finds found first := by
    have mem := isChain.mem_of_reach single first.reach
    cases finds : names.find? (· ∈ marks) with
    | none => exact absurd first.isMarked (by simpa using List.find?_eq_none.mp finds found mem)
    | some other =>
      have first' := firstOnChain_of_find isChain.starts isChain.chain finds
      rw [first'.unique single first]
  reaches found finds := (firstOnChain_of_find isChain.starts isChain.chain finds).reach

/-- Marks that leave a front of the names out are found behind it. -/
theorem find_append_of_unmarked {front marks : List N} (unmarked : ∀ name ∈ front, name ∉ marks) :
    (front ++ rest).find? (· ∈ marks) = rest.find? (· ∈ marks) := by
  rw [List.find?_append, List.find?_eq_none.mpr (by simpa using unmarked), Option.none_or]

/-- The names start where the chain does. -/
theorem head_of_rightFor (right : ∀ marks, RightFor step start names marks) :
    names.head? = some start := by
  cases names with
  | nil => exact (right [start]).finds start (.here (.head _))
  | cons name names =>
    have finds := (right [name, start]).finds start (.here (.tail _ (.head _)))
    rwa [List.find?_cons_of_pos (by simp)] at finds

/-- A step from the end of a front that leaves the front leads to the name behind it. -/
theorem head_rest_of_step {front : List N} (nodup : (front ++ rest).Nodup)
    (right : ∀ marks, RightFor step start (front ++ rest) marks) (chain : front.IsChain step)
    (starts : front.head? = some start) (isLast : front.getLast? = some last)
    (leads : step last next) (leaves : next ∉ front) : rest.head? = some next := by
  have unmarked : ∀ name ∈ front, name ∉ next :: rest := by
    intro name mem inMarks
    rcases List.mem_cons.mp inMarks with rfl | inRest
    · exact leaves mem
    · exact (List.nodup_append.mp nodup).2.2 name mem name inRest rfl
  have finds := (right (next :: rest)).finds next
    (firstOnChain_of_past starts chain unmarked isLast leads (.head rest))
  rw [find_append_of_unmarked unmarked] at finds
  cases rest with
  | nil => cases finds
  | cons name rest => rwa [List.find?_cons_of_pos (by simp)] at finds

/-- Every front of the names is a chain. -/
theorem isChain_of_rightFor
    (single : Relator.RightUnique step)
    (front : List N) (nodup : (front ++ rest).Nodup) (nonempty : front ≠ [])
    (right : ∀ marks, RightFor step start (front ++ rest) marks) (chain : front.IsChain step) :
    (front ++ rest).IsChain step := by
  induction rest generalizing front with
  | nil => rwa [List.append_nil]
  | cons name rest ih =>
    obtain ⟨last, isLast⟩ := Option.isSome_iff_exists.mp (List.getLast?_isSome.mpr nonempty)
    have starts : front.head? = some start := by
      have head := head_of_rightFor right
      rwa [List.head?_append_of_ne_nil front nonempty] at head
    have off : name ∉ front := fun mem =>
      (List.nodup_append.mp nodup).2.2 name mem name (.head rest) rfl
    have unmarked : ∀ other ∈ front, other ∉ [name] := fun other mem isName =>
      off (List.mem_singleton.mp isName ▸ mem)
    -- the name behind the front is reachable, so a step leaves the front for it
    have reach : ReflTransGen step start name := by
      apply (right [name]).reaches
      rw [find_append_of_unmarked unmarked, List.find?_cons_of_pos (by simp)]
    obtain ⟨last', next, isLast', leads, leaves⟩ :=
      exists_step_off single chain (List.mem_of_head? starts) reach off
    rw [isLast, Option.some_inj] at isLast'
    subst isLast'
    have same := head_rest_of_step nodup right chain starts isLast leads leaves
    rw [List.head?_cons, Option.some_inj] at same
    subst same
    rw [List.append_cons] at nodup ⊢
    simp only [List.append_cons front name rest] at right
    refine ih (front ++ [name]) nodup (by simp) right ?_
    refine chain.append (List.isChain_singleton name) fun x xLast y yHead => ?_
    rw [Option.mem_def, isLast, Option.some_inj] at xLast
    rw [Option.mem_def, List.head?_cons, Option.some_inj] at yHead
    rwa [← xLast, ← yHead]

/-- The names are right for every marking exactly where they are the chain. -/
theorem rightFor_iff_isChainOf
    (single : Relator.RightUnique step)
    (nodup : names.Nodup) :
    (∀ marks, RightFor step start names marks) ↔ IsChainOf step start names := by
  constructor
  · intro right
    have starts := head_of_rightFor right
    have chain : names.IsChain step := by
      cases names with
      | nil => exact .nil
      | cons name names =>
        exact isChain_of_rightFor single [name] nodup (by simp) right (List.isChain_singleton name)
    refine ⟨starts, chain, fun last isLast next leads => ?_⟩
    by_contra leaves
    have behind : ([] : List N).head? = some next :=
      head_rest_of_step (by rwa [List.append_nil]) (by rwa [List.append_nil]) chain starts isLast
        leads leaves
    cases behind
  · exact fun isChain marks => isChain.rightFor single marks

end Markings

end MalloyPublisher.Foundations
