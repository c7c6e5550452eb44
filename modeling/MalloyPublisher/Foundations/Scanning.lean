import MalloyPublisher.Foundations.Text
import Mathlib.Data.Option.Basic

/-!
# Reading a text with a pattern

A pattern reads a value off the front of a text. Scanned over a whole text it is tried at
each place in turn, and after a match the scan goes on behind it, so matches do not
overlap and what a match runs over is not tried again.

## Main definitions

* `Pattern` — a reader that always takes something
* `scanAll`, `replaceAll` — all matches, left to right, and a text with them replaced
* `ComesTo` — the places at which the scan tries the pattern
* `readWord`, `skipSpace`, `readSpace`, `readName` — readers of single tokens
* `wordPattern` — the pattern of one word

## Main results

* `mem_scanAll_iff` — what is found is what the pattern reads at a place the scan comes to
* `not_infix_replaceAll` — a replaced word is gone
-/

namespace MalloyPublisher.Foundations

section Patterns

variable {σ α : Type*}

/-- A way to read a value off the front of a text. -/
structure Pattern (σ α : Type*) where
  read : List σ → Option (α × List σ)
  shrinks : ∀ {text value rest}, read text = some (value, rest) → rest.length < text.length

/-- All matches of a pattern, left to right, each tried from where the last one ended. -/
def scanAll (pattern : Pattern σ α) (text : List σ) : List α :=
  match _found : pattern.read text with
  | some (value, rest) => value :: scanAll pattern rest
  | none =>
    match text with
    | [] => []
    | _ :: rest => scanAll pattern rest
termination_by text.length
decreasing_by
  · exact pattern.shrinks _found
  · exact Nat.lt_succ_self _

/-- A text with something else in the place of each match of a pattern. -/
def replaceAll (pattern : Pattern σ α) (write text : List σ) : List σ :=
  match _found : pattern.read text with
  | some (_, rest) => write ++ replaceAll pattern write rest
  | none =>
    match text with
    | [] => []
    | c :: rest => c :: replaceAll pattern write rest
termination_by text.length
decreasing_by
  · exact pattern.shrinks _found
  · exact Nat.lt_succ_self _

/-- The first match of a pattern. -/
def scanFirst (pattern : Pattern σ α) (text : List σ) : Option α := (scanAll pattern text).head?

variable {pattern : Pattern σ α} {text place rest : List σ} {value : α}

/-- The scan of the first text comes to try the pattern at the second. -/
inductive ComesTo (pattern : Pattern σ α) : List σ → List σ → Prop
  | here (text : List σ) : ComesTo pattern text text
  | past {c : σ} {rest place : List σ} (noMatch : pattern.read (c :: rest) = none)
      (later : ComesTo pattern rest place) : ComesTo pattern (c :: rest) place
  | after {text rest place : List σ} {value : α} (matched : pattern.read text = some (value, rest))
      (later : ComesTo pattern rest place) : ComesTo pattern text place

theorem scanAll_of_match (matched : pattern.read text = some (value, rest)) :
    scanAll pattern text = value :: scanAll pattern rest := by
  rw [scanAll]
  split
  next _ _ found =>
    rw [matched, Option.some_inj, Prod.mk.injEq] at found
    rw [found.1, found.2]
  next found => cases matched.symm.trans found

theorem scanAll_of_noMatch {c : σ} (noMatch : pattern.read (c :: rest) = none) :
    scanAll pattern (c :: rest) = scanAll pattern rest := by
  rw [scanAll]
  split
  next _ _ found => cases noMatch.symm.trans found
  next => rfl

theorem replaceAll_of_noMatch {write : List σ} {c : σ}
    (noMatch : pattern.read (c :: rest) = none) :
    replaceAll pattern write (c :: rest) = c :: replaceAll pattern write rest := by
  rw [replaceAll]
  split
  next _ _ found => cases noMatch.symm.trans found
  next => rfl

theorem mem_scanAll_of_comesTo (comes : ComesTo pattern text place)
    (reads : pattern.read place = some (value, rest)) : value ∈ scanAll pattern text := by
  induction comes with
  | here text => exact scanAll_of_match reads ▸ .head _
  | past noMatch _ ih => exact scanAll_of_noMatch noMatch ▸ ih reads
  | after matched _ ih => exact scanAll_of_match matched ▸ .tail _ (ih reads)

theorem mem_scanAll_iff : value ∈ scanAll pattern text ↔
    ∃ place rest, ComesTo pattern text place ∧ pattern.read place = some (value, rest) := by
  constructor
  · intro found
    fun_induction scanAll pattern text with
    | case1 text first rest matched ih =>
      rcases List.mem_cons.mp found with rfl | found
      · exact ⟨text, rest, .here text, matched⟩
      · obtain ⟨place, after, comes, reads⟩ := ih found
        exact ⟨place, after, .after matched comes, reads⟩
    | case2 => cases found
    | case3 c rest noMatch ih =>
      obtain ⟨place, after, comes, reads⟩ := ih found
      exact ⟨place, after, .past noMatch comes, reads⟩
  · rintro ⟨place, rest, comes, reads⟩
    exact mem_scanAll_of_comesTo comes reads

end Patterns

/-! ## Tokens -/

/-- What follows a word that stands at the front of a text. -/
def readWord (word text : List Char) : Option (List Char) :=
  if word.isPrefixOf text then some (text.drop word.length) else none

/-- The text behind its leading white space. -/
def skipSpace (text : List Char) : List Char := text.dropWhile isSpace

/-- The text behind its leading white space, of which there is some. -/
def readSpace (text : List Char) : Option (List Char) :=
  if text.head?.any isSpace then some (skipSpace text) else none

/-- A name, quoted or a run of the given characters, and what follows it. -/
def readName (isNameChar : Char → Bool) (text : List Char) : Option (String × List Char) :=
  match text with
  | '`' :: rest =>
    if rest.takeWhile (· ≠ '`') = [] ∨ rest.dropWhile (· ≠ '`') = [] then none
    else some (String.ofList (rest.takeWhile (· ≠ '`')), (rest.dropWhile (· ≠ '`')).drop 1)
  | _ =>
    if text.takeWhile isNameChar = [] then none
    else some (String.ofList (text.takeWhile isNameChar), text.dropWhile isNameChar)

/-- A word is read where the text goes on with it. -/
theorem readWord_eq_some_iff {word text rest : List Char} :
    readWord word text = some rest ↔ text = word ++ rest := by
  rw [readWord]
  constructor
  · intro reads
    split at reads
    next starts =>
      obtain ⟨after, rfl⟩ := List.isPrefixOf_iff_prefix.mp starts
      rw [List.drop_left, Option.some_inj] at reads
      rw [reads]
    next => cases reads
  · rintro rfl
    rw [if_pos (List.isPrefixOf_iff_prefix.mpr (List.prefix_append ..)), List.drop_left]

theorem length_readWord {word text rest : List Char} (reads : readWord word text = some rest) :
    rest.length ≤ text.length := by
  rw [readWord] at reads
  split at reads
  · rw [← Option.some_inj.mp reads, List.length_drop]
    omega
  · cases reads

theorem length_skipSpace (text : List Char) : (skipSpace text).length ≤ text.length :=
  (List.dropWhile_sublist _).length_le

theorem length_readSpace {text rest : List Char} (reads : readSpace text = some rest) :
    rest.length ≤ text.length := by
  rw [readSpace] at reads
  split at reads
  · rw [← Option.some_inj.mp reads]
    exact length_skipSpace text
  · cases reads

/-- A name is never empty. -/
theorem length_readName {isNameChar : Char → Bool} {text rest : List Char} {name : String}
    (reads : readName isNameChar text = some (name, rest)) : rest.length < text.length := by
  unfold readName at reads
  split at reads
  next after =>
    split at reads
    · cases reads
    · rw [Option.some_inj, Prod.mk.injEq] at reads
      have := (List.dropWhile_sublist (· ≠ '`') (l := after)).length_le
      rw [← reads.2, List.length_drop, List.length_cons]
      omega
  next =>
    split at reads
    · cases reads
    next some =>
      rw [Option.some_inj, Prod.mk.injEq] at reads
      have whole := congrArg List.length (List.takeWhile_append_dropWhile (p := isNameChar) (l := text))
      have := List.length_pos_iff.mpr some
      rw [List.length_append] at whole
      rw [← reads.2]
      omega

/-! ## Replacing a word -/

/-- The pattern that reads one word. -/
def wordPattern (word : List Char) (long : word ≠ []) : Pattern Char Unit where
  read text := (readWord word text).map fun rest => ((), rest)
  shrinks {text _ _} reads := by
    obtain ⟨after, found, same⟩ := Option.map_eq_some_iff.mp reads
    have here := readWord_eq_some_iff.mp found
    obtain ⟨-, rfl⟩ := Prod.mk.inj same
    have := List.length_pos_iff.mpr long
    rw [here, List.length_append]
    omega

section Replacing

variable {word other write text : List Char} {long : word ≠ []}

theorem eq_append_of_read {rest : List Char} {value : Unit}
    (reads : (wordPattern word long).read text = some (value, rest)) : text = word ++ rest := by
  obtain ⟨after, found, same⟩ := Option.map_eq_some_iff.mp reads
  rw [← (Prod.mk.inj same).2]
  exact readWord_eq_some_iff.mp found

theorem not_prefix_of_read (noMatch : (wordPattern word long).read text = none) :
    ¬ word <+: text := by
  rintro ⟨rest, rfl⟩
  have reads : readWord word (word ++ rest) = some rest := readWord_eq_some_iff.mpr rfl
  simp [wordPattern, reads] at noMatch

/-- What stands behind a text that shares no character with it. -/
theorem infix_of_infix_append (apart : ∀ c ∈ other, c ∉ write) (nonempty : other ≠ [])
    (occurs : other <:+: write ++ text) : other <:+: text := by
  induction write with
  | nil => exact occurs
  | cons c write ih =>
    rcases List.infix_cons_iff.mp occurs with starts | later
    · obtain ⟨d, other, rfl⟩ := List.exists_cons_of_ne_nil nonempty
      exact absurd ((List.cons_prefix_cons.mp starts).1 ▸ List.mem_cons_self)
        (apart d List.mem_cons_self)
    · exact ih (fun d member among => apart d member (List.mem_cons_of_mem _ among)) later

/-- A replaced text starts with nothing new. -/
theorem prefix_of_prefix_replaceAll (filled : write ≠ []) (apart : ∀ c ∈ other, c ∉ write)
    (starts : other <+: replaceAll (wordPattern word long) write text) : other <+: text := by
  fun_induction replaceAll (wordPattern word long) write text generalizing other with
  | case1 text _ rest matched _ =>
    obtain ⟨c, write, rfl⟩ := List.exists_cons_of_ne_nil filled
    cases other with
    | nil => exact List.nil_prefix
    | cons d other =>
      exact absurd ((List.cons_prefix_cons.mp starts).1 ▸ List.mem_cons_self)
        (apart d List.mem_cons_self)
  | case2 => exact starts
  | case3 c rest noMatch ih =>
    cases other with
    | nil => exact List.nil_prefix
    | cons d other =>
      obtain ⟨same, behind⟩ := List.cons_prefix_cons.mp starts
      exact List.cons_prefix_cons.mpr
        ⟨same, ih (fun d member => apart d (List.mem_cons_of_mem _ member)) behind⟩

/-- Replacing a word brings up no text that shares no character with what is written. -/
theorem infix_of_infix_replaceAll (filled : write ≠ []) (apart : ∀ c ∈ other, c ∉ write)
    (nonempty : other ≠ []) (occurs : other <:+: replaceAll (wordPattern word long) write text) :
    other <:+: text := by
  fun_induction replaceAll (wordPattern word long) write text with
  | case1 text _ rest matched ih =>
    have behind := ih (infix_of_infix_append apart nonempty occurs)
    rw [eq_append_of_read matched]
    exact behind.trans (List.suffix_append word rest).isInfix
  | case2 => exact occurs
  | case3 c rest noMatch ih =>
    rcases List.infix_cons_iff.mp occurs with starts | later
    · have whole : other <+: replaceAll (wordPattern word long) write (c :: rest) := by
        rw [replaceAll_of_noMatch noMatch]
        exact starts
      exact (prefix_of_prefix_replaceAll filled apart whole).isInfix
    · exact (ih later).trans (List.suffix_cons c rest).isInfix

/-- A replaced word is gone. -/
theorem not_infix_replaceAll (filled : write ≠ []) (apart : ∀ c ∈ word, c ∉ write) :
    ¬ word <:+: replaceAll (wordPattern word long) write text := by
  fun_induction replaceAll (wordPattern word long) write text with
  | case1 text _ rest matched ih => exact fun occurs => ih (infix_of_infix_append apart long occurs)
  | case2 => exact fun occurs => long (List.infix_nil.mp occurs)
  | case3 c rest noMatch ih =>
    intro occurs
    rcases List.infix_cons_iff.mp occurs with starts | later
    · have whole : word <+: replaceAll (wordPattern word long) write (c :: rest) := by
        rw [replaceAll_of_noMatch noMatch]
        exact starts
      exact not_prefix_of_read noMatch (prefix_of_prefix_replaceAll filled apart whole)
    · exact ih later

/-- A text without the word stays as it is. -/
theorem replaceAll_of_not_infix (absent : ¬ word <:+: text) :
    replaceAll (wordPattern word long) write text = text := by
  fun_induction replaceAll (wordPattern word long) write text with
  | case1 text _ rest matched ih =>
    rw [eq_append_of_read matched] at absent
    exact absurd (List.prefix_append word rest).isInfix absent
  | case2 => rfl
  | case3 c rest noMatch ih =>
    have behind := ih fun occurs => absent (occurs.trans (List.suffix_cons c rest).isInfix)
    exact congrArg (c :: ·) behind

end Replacing

end MalloyPublisher.Foundations
