import Mathlib.Data.List.Basic

/-!
# Quoted paths

A quoted identifier is its text between two quote characters, with every quote character
inside it doubled. A path is a row of identifiers with a separator between them, and a
separator inside the quotes is text. Reading a path of quoted identifiers gives back what
was written, whatever the identifiers hold.

## Main definitions

* `quoted`, `quotedPath` — an identifier and a path as they are written
* `readPath` — the identifiers of a path of quoted identifiers

## Main results

* `readPath_quotedPath` — the round trip
-/

namespace MalloyPublisher.Foundations

variable {α : Type*} [DecidableEq α] {quote separator : α}

/-- A text with its quote characters doubled. -/
def doubled (quote : α) (body : List α) : List α :=
  body.flatMap fun c => if c = quote then [quote, quote] else [c]

/-- A text between quotes. -/
def quoted (quote : α) (body : List α) : List α := quote :: doubled quote body ++ [quote]

/-- Quoted identifiers with separators between them. -/
def quotedPath (quote separator : α) (segments : List (List α)) : List α :=
  [separator].intercalate (segments.map (quoted quote))

/-- Where a reader of a path stands: before a quote that opens, inside, or behind a quote
that closes unless another follows. -/
inductive PathPlace
  | before
  | inside
  | behind
  deriving DecidableEq

/-- Read on from a place. What was read of the current identifier is kept last first. -/
def readFrom (quote separator : α) : PathPlace → List α → List α → Option (List (List α))
  | .before, _, [] => none
  | .before, _, c :: rest => if c = quote then readFrom quote separator .inside [] rest else none
  | .inside, _, [] => none
  | .inside, read, c :: rest =>
    if c = quote then readFrom quote separator .behind read rest
    else readFrom quote separator .inside (c :: read) rest
  | .behind, read, [] => some [read.reverse]
  | .behind, read, c :: rest =>
    if c = quote then readFrom quote separator .inside (c :: read) rest
    else if c = separator then
      (readFrom quote separator .before [] rest).map (read.reverse :: ·)
    else none

/-- The identifiers of a path, each of which has to be quoted. -/
def readPath (quote separator : α) (text : List α) : Option (List (List α)) :=
  readFrom quote separator .before [] text

variable (quote separator) in
/-- Inside the quotes a doubled text is read back as it was. -/
theorem readFrom_doubled (body read rest : List α) :
    readFrom quote separator .inside read (doubled quote body ++ quote :: rest) =
      readFrom quote separator .behind (body.reverse ++ read) rest := by
  induction body generalizing read with
  | nil => simp [doubled, readFrom]
  | cons c body ih =>
    have step := ih (c :: read)
    by_cases closing : c = quote
    · subst closing
      simpa [doubled, readFrom] using step
    · simpa [doubled, readFrom, closing] using step

variable (quote separator) in
theorem readPath_quoted (body rest : List α) :
    readPath quote separator (quoted quote body ++ rest) =
      readFrom quote separator .behind body.reverse rest := by
  have inside := readFrom_doubled quote separator body [] rest
  simpa [readPath, quoted, readFrom] using inside

/-- A path that is written quoted is read back. -/
theorem readPath_quotedPath (distinct : separator ≠ quote) {segments : List (List α)}
    (some_segment : segments ≠ []) :
    readPath quote separator (quotedPath quote separator segments) = some segments := by
  induction segments with
  | nil => exact absurd rfl some_segment
  | cons segment segments ih =>
    cases segments with
    | nil =>
      have last := readPath_quoted quote separator segment []
      simpa [quotedPath, List.intercalate, readFrom] using last
    | cons next segments =>
      have path : quotedPath quote separator (segment :: next :: segments) =
          quoted quote segment ++ separator :: quotedPath quote separator (next :: segments) := by
        simp [quotedPath, List.intercalate]
      have later := ih (List.cons_ne_nil _ _)
      rw [readPath] at later
      rw [path, readPath_quoted, readFrom, if_neg distinct, if_pos rfl, later]
      simp

variable (separator) in
/-- An element of a list is the separator it is split on, or stands in one of the pieces. -/
theorem eq_or_mem_splitOn {xs : List α} {c : α} (member : c ∈ xs) :
    c = separator ∨ ∃ piece ∈ xs.splitOn separator, c ∈ piece := by
  induction xs with
  | nil => cases member
  | cons x xs ih =>
    obtain ⟨piece, pieces, split⟩ := List.exists_cons_of_ne_nil (List.splitOn_ne_nil separator xs)
    have whole := List.splitOn_cons_eq_if_modifyHead (a := separator) x xs
    rw [split] at whole ih
    by_cases separates : x = separator
    · rw [if_pos (beq_iff_eq.mpr separates)] at whole
      rcases List.mem_cons.mp member with rfl | later
      · exact .inl separates
      · refine (ih later).imp_right fun ⟨piece, found, inside⟩ => ?_
        exact ⟨piece, whole ▸ List.mem_cons_of_mem _ found, inside⟩
    · rw [if_neg (mt beq_iff_eq.mp separates), List.modifyHead_cons] at whole
      rw [whole]
      rcases List.mem_cons.mp member with rfl | later
      · exact .inr ⟨_, List.mem_cons_self, List.mem_cons_self⟩
      · refine (ih later).imp_right fun ⟨found, place, inside⟩ => ?_
        rcases List.mem_cons.mp place with rfl | place
        · exact ⟨_, List.mem_cons_self, List.mem_cons_of_mem _ inside⟩
        · exact ⟨found, List.mem_cons_of_mem _ place, inside⟩

variable (separator) in
/-- What is added to the end of a path without a separator is added to its last piece. -/
theorem exists_splitOn_append (xs : List α) {ys : List α} (unsplit : separator ∉ ys) :
    ∃ containers last, separator ∉ last ∧ xs.splitOn separator = containers ++ [last] ∧
      (xs ++ ys).splitOn separator = containers ++ [last ++ ys] := by
  induction xs with
  | nil =>
    refine ⟨[], [], List.not_mem_nil, List.splitOn_nil _, ?_⟩
    have none : ∀ y ∈ ys, (y == separator) = false := by
      intro y member
      exact beq_eq_false_iff_ne.mpr fun same => unsplit (same ▸ member)
    exact List.splitOnP_eq_singleton none
  | cons x xs ih =>
    obtain ⟨containers, last, free, split, split'⟩ := ih
    rw [List.cons_append, List.splitOn_cons_eq_if_modifyHead, List.splitOn_cons_eq_if_modifyHead,
      split, split']
    by_cases separates : x = separator
    · refine ⟨[] :: containers, last, free, ?_, ?_⟩
      · rw [if_pos (beq_iff_eq.mpr separates), List.cons_append]
      · rw [if_pos (beq_iff_eq.mpr separates), List.cons_append]
    · rw [if_neg (mt beq_iff_eq.mp separates), if_neg (mt beq_iff_eq.mp separates)]
      cases containers with
      | nil =>
        refine ⟨[], x :: last, ?_, rfl, rfl⟩
        exact List.not_mem_cons_of_ne_of_not_mem (Ne.symm separates) free
      | cons first containers => exact ⟨(x :: first) :: containers, last, free, rfl, rfl⟩

end MalloyPublisher.Foundations
