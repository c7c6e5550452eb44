import MalloyPublisher.Foundations.Text

/-!
# Comments, literals, names and annotations in a caller's text

A caller's text is scanned for declarations before it is compiled. The scan must see what
the compiler's lexer sees as syntax, so comments and the bodies of string literals are
blanked first, character for character.

The scanner that blanks them knows four kinds of tokens. The lexer has a fifth, the
annotation, which runs from `#` to the end of its line whatever stands in it. The scanner
reads its content as ordinary text.

## Main definitions

* `lex` — the pieces of a text, with annotations as tokens or as ordinary text
* `stripMalloyCommentsAndLiterals` — the scanner
* `faithfulBlanking` — the text with what the lexer says is comment or literal body blanked

## Main results

* `stripMalloyCommentsAndLiterals_eq` — the scanner blanks by the four kinds of tokens
* `stripMalloyCommentsAndLiterals_eq_faithfulBlanking_iff` — when that is faithful
-/

namespace MalloyPublisher.QueryText

open Foundations

/-! ## Pieces -/

/-- A piece of a text. A tag is an annotation, to the end of its line. -/
inductive Piece
  | code (c : Char)
  | comment (chars : List Char)
  | literal (quote : Char) (body close : List Char)
  | name (chars : List Char)
  | tag (chars : List Char)
  deriving DecidableEq, Repr

/-- The characters a piece stands for. -/
def Piece.text : Piece → List Char
  | .code c => [c]
  | .comment chars => chars
  | .literal quote body close => quote :: body ++ close
  | .name chars => chars
  | .tag chars => chars

/-- Which of a piece's characters are inside a comment or a literal body. -/
def Piece.inside : Piece → List Bool
  | .code _ => [false]
  | .comment chars => chars.map fun _ => true
  | .literal _ body close => false :: body.map (fun _ => true) ++ close.map fun _ => false
  | .name chars => chars.map fun _ => false
  | .tag chars => chars.map fun _ => false

/-- The rest of a line. -/
def lineOf (chars : List Char) : List Char := chars.takeWhile (· ≠ '\n')

/-- What follows a line, its newline included. -/
def afterLine (chars : List Char) : List Char := chars.dropWhile (· ≠ '\n')

/-- The rest of a block comment, its closer included, and what follows. -/
def splitBlock : List Char → List Char × List Char
  | [] => ([], [])
  | [c] => ([c], [])
  | c :: d :: rest =>
    if c = '*' ∧ d = '/' then ([c, d], rest)
    else ((c :: (splitBlock (d :: rest)).1), (splitBlock (d :: rest)).2)

/-- The body of a literal, escapes kept, and what follows from its closing quote on. -/
def splitLiteral (quote : Char) : List Char → List Char × List Char
  | [] => ([], [])
  | c :: rest =>
    if c = quote then ([], c :: rest)
    else if c = '\\' then
      match rest with
      | [] => ([c], [])
      | escaped :: more => (c :: escaped :: (splitLiteral quote more).1, (splitLiteral quote more).2)
    else (c :: (splitLiteral quote rest).1, (splitLiteral quote rest).2)

theorem splitBlock_append (chars : List Char) :
    (splitBlock chars).1 ++ (splitBlock chars).2 = chars := by
  fun_induction splitBlock with
  | case1 => rfl
  | case2 => rfl
  | case3 c d rest closes => rfl
  | case4 c d rest goesOn ih => rw [List.cons_append, ih]

theorem splitLiteral_append (quote : Char) (chars : List Char) :
    (splitLiteral quote chars).1 ++ (splitLiteral quote chars).2 = chars := by
  fun_induction splitLiteral with
  | case1 => rfl
  | case2 => rfl
  | case3 => rfl
  | case4 _ _ _ ih => rw [List.cons_append, List.cons_append, ih]
  | case5 c rest _ _ ih => rw [List.cons_append, ih]

theorem length_splitBlock_le (chars : List Char) : (splitBlock chars).2.length ≤ chars.length := by
  have whole := congrArg List.length (splitBlock_append chars)
  rw [List.length_append] at whole
  omega

theorem length_splitLiteral_le (quote : Char) (chars : List Char) :
    (splitLiteral quote chars).2.length ≤ chars.length := by
  have whole := congrArg List.length (splitLiteral_append quote chars)
  rw [List.length_append] at whole
  omega

theorem length_dropWhile_le (p : Char → Bool) (chars : List Char) :
    (chars.dropWhile p).length ≤ chars.length :=
  (List.dropWhile_sublist p).length_le

/-- The pieces of a text. Annotations are tokens of their own, or ordinary text. -/
def lex (annotations : Bool) (text : List Char) : List Piece :=
  match text with
  | [] => []
  | c :: rest =>
    if (c :: rest).take 2 = ['-', '-'] ∨ (c :: rest).take 2 = ['/', '/'] then
      .comment (c :: lineOf rest) :: lex annotations (afterLine rest)
    else if (c :: rest).take 2 = ['/', '*'] then
      .comment (c :: rest.take 1 ++ (splitBlock (rest.drop 1)).1) ::
        lex annotations (splitBlock (rest.drop 1)).2
    else if c = '`' then
      .name (c :: rest.takeWhile (· ≠ '`') ++ (rest.dropWhile (· ≠ '`')).take 1) ::
        lex annotations ((rest.dropWhile (· ≠ '`')).drop 1)
    else if c = '\'' ∨ c = '"' then
      .literal c (splitLiteral c rest).1 ((splitLiteral c rest).2.take 1) ::
        lex annotations ((splitLiteral c rest).2.drop 1)
    else if annotations ∧ c = '#' then
      .tag (c :: lineOf rest) :: lex annotations (afterLine rest)
    else .code c :: lex annotations rest
termination_by text.length
decreasing_by
  all_goals simp only [List.length_cons, List.length_drop, afterLine]
  · have := length_dropWhile_le (· ≠ '\n') rest
    omega
  · have := length_splitBlock_le (rest.drop 1)
    simp only [List.length_drop] at this
    omega
  · have := length_dropWhile_le (· ≠ '`') rest
    omega
  · have := length_splitLiteral_le c rest
    omega
  · have := length_dropWhile_le (· ≠ '\n') rest
    omega
  · omega

/-- Nothing of a text is lost in its pieces. -/
theorem lex_text (annotations : Bool) (text : List Char) :
    (lex annotations text).flatMap Piece.text = text := by
  fun_induction lex with
  | case1 => rfl
  | case2 c rest _ ih =>
    rw [List.flatMap_cons, ih]
    exact congrArg (c :: ·) List.takeWhile_append_dropWhile
  | case3 c rest _ _ ih =>
    rw [List.flatMap_cons, ih, Piece.text, List.append_assoc, splitBlock_append]
    exact congrArg (c :: ·) (List.take_append_drop 1 rest)
  | case4 rest _ _ ih =>
    rw [List.flatMap_cons, ih, Piece.text, List.append_assoc, List.take_append_drop]
    exact congrArg ('`' :: ·) List.takeWhile_append_dropWhile
  | case5 c rest _ _ _ _ ih =>
    rw [List.flatMap_cons, ih, Piece.text, List.append_assoc, List.take_append_drop,
      List.cons_append, splitLiteral_append]
  | case6 c rest _ _ _ _ _ ih =>
    rw [List.flatMap_cons, ih]
    exact congrArg (c :: ·) List.takeWhile_append_dropWhile
  | case7 c rest _ _ _ _ _ ih => rw [List.flatMap_cons, ih]; rfl

/-! ## The scanner -/

/-- The blank in place of a character: a newline stays, and what takes two code units
becomes two spaces. -/
def blankChar (c : Char) : List Char :=
  if c = '\n' then [c] else (codeUnits c).map fun _ => ' '

/-- The scanner's text: comments and literal bodies are blanked in one pass. -/
def stripMalloyCommentsAndLiterals (text : List Char) : List Char :=
  match text with
  | [] => []
  | c :: rest =>
    if (c :: rest).take 2 = ['-', '-'] ∨ (c :: rest).take 2 = ['/', '/'] then
      -- the newline that ends the comment is stepped over as it stands
      (c :: lineOf rest).flatMap blankChar ++ (afterLine rest).take 1 ++
        stripMalloyCommentsAndLiterals ((afterLine rest).drop 1)
    else if (c :: rest).take 2 = ['/', '*'] then
      (c :: rest.take 1 ++ (splitBlock (rest.drop 1)).1).flatMap blankChar ++
        stripMalloyCommentsAndLiterals (splitBlock (rest.drop 1)).2
    else if c = '`' then
      c :: rest.takeWhile (· ≠ '`') ++ (rest.dropWhile (· ≠ '`')).take 1 ++
        stripMalloyCommentsAndLiterals ((rest.dropWhile (· ≠ '`')).drop 1)
    else if c = '\'' ∨ c = '"' then
      -- both delimiters stay
      c :: (splitLiteral c rest).1.flatMap blankChar ++ (splitLiteral c rest).2.take 1 ++
        stripMalloyCommentsAndLiterals ((splitLiteral c rest).2.drop 1)
    else c :: stripMalloyCommentsAndLiterals rest
termination_by text.length
decreasing_by
  all_goals simp only [List.length_cons, List.length_drop, afterLine]
  · have := length_dropWhile_le (· ≠ '\n') rest
    omega
  · have := length_splitBlock_le (rest.drop 1)
    simp only [List.length_drop] at this
    omega
  · have := length_dropWhile_le (· ≠ '`') rest
    omega
  · have := length_splitLiteral_le c rest
    omega
  · omega

/-! ## Blanking by a mask -/

/-- A text with the characters a mask names blanked. -/
def blankBy : List Char → List Bool → List Char
  | [], _ => []
  | c :: text, [] => c :: text
  | c :: text, inside :: mask =>
    if inside then blankChar c ++ blankBy text mask else c :: blankBy text mask

/-- Which characters of a text are inside a comment or a literal body. -/
def inside (annotations : Bool) (text : List Char) : List Bool :=
  (lex annotations text).flatMap Piece.inside

/-- The text with what the compiler's lexer has as comment or literal body blanked. -/
def faithfulBlanking (text : List Char) : List Char := blankBy text (inside true text)

/-- Reading annotations as ordinary text changes nothing that shows: spaces and newlines
look the same blanked. -/
def AnnotationsInert (text : List Char) : Prop :=
  ∀ (i : ℕ) (c : Char), text[i]? = some c → c ≠ ' ' → c ≠ '\n' → (inside true text)[i]? = (inside false text)[i]?

theorem length_inside_piece (piece : Piece) : piece.inside.length = piece.text.length := by
  cases piece <;> simp [Piece.inside, Piece.text]

theorem length_flatMap_inside (pieces : List Piece) :
    (pieces.flatMap Piece.inside).length = (pieces.flatMap Piece.text).length := by
  induction pieces with
  | nil => rfl
  | cons piece pieces ih => simp [ih, length_inside_piece]

theorem length_inside (annotations : Bool) (text : List Char) :
    (inside annotations text).length = text.length := by
  rw [inside, length_flatMap_inside, lex_text]

theorem blankBy_append (first second : List Char) (mask rest : List Bool)
    (same : mask.length = first.length) :
    blankBy (first ++ second) (mask ++ rest) = blankBy first mask ++ blankBy second rest := by
  induction first generalizing mask with
  | nil =>
    rw [List.length_nil, List.length_eq_zero_iff] at same
    rw [same]
    rfl
  | cons c first ih =>
    cases mask with
    | nil => cases same
    | cons inside mask =>
      have shorter := ih mask (Nat.succ.inj same)
      cases inside <;> simp [blankBy, shorter]

theorem blankBy_all (text : List Char) :
    blankBy text (text.map fun _ => true) = text.flatMap blankChar := by
  induction text with
  | nil => rfl
  | cons c text ih => rw [List.map_cons, List.flatMap_cons, blankBy, if_pos rfl, ih]

theorem blankBy_none (text : List Char) : blankBy text (text.map fun _ => false) = text := by
  induction text with
  | nil => rfl
  | cons c text ih => rw [List.map_cons, blankBy, if_neg Bool.false_ne_true, ih]

/-- A piece with its comment or literal body blanked. -/
def Piece.blanked (piece : Piece) : List Char := blankBy piece.text piece.inside

theorem blanked_comment (chars : List Char) :
    (Piece.comment chars).blanked = chars.flatMap blankChar := blankBy_all chars

theorem blanked_name (chars : List Char) : (Piece.name chars).blanked = chars := blankBy_none chars

theorem blanked_code (c : Char) : (Piece.code c).blanked = [c] := rfl

theorem blanked_literal (quote : Char) (body close : List Char) :
    (Piece.literal quote body close).blanked = quote :: body.flatMap blankChar ++ close := by
  simp only [Piece.blanked, Piece.text, Piece.inside, List.cons_append, blankBy]
  rw [blankBy_append _ _ _ _ (List.length_map ..), blankBy_all, blankBy_none]
  rfl

theorem blankBy_pieces (pieces : List Piece) :
    blankBy (pieces.flatMap Piece.text) (pieces.flatMap Piece.inside) =
      pieces.flatMap Piece.blanked := by
  induction pieces with
  | nil => rfl
  | cons piece pieces ih =>
    rw [List.flatMap_cons, List.flatMap_cons, List.flatMap_cons,
      blankBy_append _ _ _ _ (length_inside_piece piece), ih]
    rfl

theorem blankBy_inside (annotations : Bool) (text : List Char) :
    blankBy text (inside annotations text) = (lex annotations text).flatMap Piece.blanked := by
  rw [← blankBy_pieces, lex_text]
  rfl

/-- What ends a line comment is code to the pieces and is stepped over by the scanner. -/
theorem lex_afterLine (annotations : Bool) (chars : List Char) :
    (lex annotations (afterLine chars)).flatMap Piece.blanked =
      (afterLine chars).take 1 ++
        (lex annotations ((afterLine chars).drop 1)).flatMap Piece.blanked := by
  cases shape : afterLine chars with
  | nil => simp [lex]
  | cons c rest =>
    have newline : c = '\n' := by
      have stops := List.head?_dropWhile_not (· ≠ '\n') chars
      rw [show chars.dropWhile (· ≠ '\n') = c :: rest from shape] at stops
      simpa using stops
    subst newline
    rw [lex]
    simp [blanked_code]

/-- The scanner blanks by the four kinds of tokens it knows. -/
theorem stripMalloyCommentsAndLiterals_eq (text : List Char) :
    stripMalloyCommentsAndLiterals text = blankBy text (inside false text) := by
  rw [blankBy_inside]
  fun_induction stripMalloyCommentsAndLiterals with
  | case1 => rw [lex]; rfl
  | case2 c rest opens ih =>
    rw [lex, if_pos opens, List.flatMap_cons (f := Piece.blanked), lex_afterLine, ← ih,
      blanked_comment, List.append_assoc]
  | case3 c rest line opens ih =>
    rw [lex, if_neg line, if_pos opens, List.flatMap_cons, ← ih, blanked_comment]
  | case4 rest line block ih =>
    rw [lex, if_neg line, if_neg block, if_pos rfl, List.flatMap_cons, ← ih, blanked_name]
  | case5 c rest line block name opens ih =>
    rw [lex, if_neg line, if_neg block, if_neg name, if_pos opens, List.flatMap_cons, ← ih,
      blanked_literal]
  | case6 c rest line block name quote ih =>
    rw [lex, if_neg line, if_neg block, if_neg name, if_neg quote,
      if_neg (fun h => Bool.false_ne_true h.1), List.flatMap_cons, ← ih]
    rfl

/-! ## What a blanking keeps, and when two blankings agree -/

/-- Where the newlines of a text are, code unit by code unit. -/
def newlines (text : List Char) : List Bool := (text.flatMap codeUnits).map (· == 10)

theorem newlines_blankChar (c : Char) : newlines (blankChar c) = newlines [c] := by
  by_cases newline : c = '\n'
  · rw [blankChar, if_pos newline]
  · have spaces : ∀ units : List ℕ, newlines (units.map fun _ => ' ') = units.map fun _ => false := by
      intro units
      induction units with
      | nil => rfl
      | cons unit units ih => exact congrArg (false :: ·) ih
    have noNewline : ∀ unit ∈ codeUnits c, (unit == 10) = false := by
      intro unit mem
      have notTen : c.toNat ≠ 10 := fun ten => newline (Char.ext (UInt32.toNat_inj.mp ten))
      rw [codeUnits] at mem
      split at mem <;> simp only [List.mem_cons, List.not_mem_nil, or_false] at mem <;>
        simp only [beq_eq_false_iff_ne] <;> omega
    rw [blankChar, if_neg newline, spaces, newlines, List.flatMap_singleton]
    exact (List.map_congr_left noNewline).symm

theorem newlines_append (first second : List Char) :
    newlines (first ++ second) = newlines first ++ newlines second := by
  rw [newlines, List.flatMap_append, List.map_append]
  rfl

/-- A blanked text has as many code units as the text, and the same of them are newlines. -/
theorem newlines_blankBy (text : List Char) (mask : List Bool) :
    newlines (blankBy text mask) = newlines text := by
  induction text generalizing mask with
  | nil => rfl
  | cons c text ih =>
    cases mask with
    | nil => rfl
    | cons inside mask =>
      have whole : newlines (c :: text) = newlines [c] ++ newlines text := newlines_append [c] text
      rw [blankBy, whole, ← ih mask]
      split
      · rw [newlines_append, newlines_blankChar]
      · exact newlines_append [c] _

theorem blankChar_ne_cons (c : Char) (space : c ≠ ' ') (newline : c ≠ '\n') (rest more : List Char) :
    blankChar c ++ rest ≠ c :: more := by
  rw [blankChar, if_neg newline, codeUnits]
  split <;> simpa using fun same => absurd same.symm space

theorem blankChar_of_space (c : Char) (space : c = ' ' ∨ c = '\n') : blankChar c = [c] := by
  rcases space with rfl | rfl <;> decide

/-- Two blankings of a text are the same where their masks agree on what shows. -/
theorem blankBy_eq_iff (text : List Char) (first second : List Bool)
    (same : first.length = second.length) :
    blankBy text first = blankBy text second ↔
      ∀ (i : ℕ) (c : Char), text[i]? = some c → c ≠ ' ' → c ≠ '\n' → first[i]? = second[i]? := by
  induction text generalizing first second with
  | nil => simp [blankBy]
  | cons c text ih =>
    cases first with
    | nil =>
      rw [List.length_eq_zero_iff.mp same.symm]
      simp
    | cons inside first =>
      cases second with
      | nil => cases same
      | cons inside' second =>
        have step : blankBy (c :: text) (inside :: first) = blankBy (c :: text) (inside' :: second) ↔
            (c ≠ ' ' → c ≠ '\n' → inside = inside') ∧ blankBy text first = blankBy text second := by
          by_cases shows : c = ' ' ∨ c = '\n'
          · have kept := blankChar_of_space c shows
            have silent : (c ≠ ' ' → c ≠ '\n' → inside = inside') := fun space newline =>
              absurd shows (not_or.mpr ⟨space, newline⟩)
            rw [and_iff_right silent]
            simp [blankBy, kept]
          · obtain ⟨space, newline⟩ := not_or.mp shows
            have differ := fun rest more => blankChar_ne_cons c space newline rest more
            cases inside <;> cases inside' <;> simp [blankBy, space, newline, differ]
            exact fun h => differ _ _ h.symm
        rw [step, ih first second (Nat.succ.inj same)]
        constructor
        · rintro ⟨head, tail⟩ i d found space newline
          cases i with
          | zero =>
            rw [List.getElem?_cons_zero, Option.some_inj] at found
            subst found
            rw [List.getElem?_cons_zero, List.getElem?_cons_zero, head space newline]
          | succ i => exact tail i d found space newline
        · intro agree
          refine ⟨fun space newline => ?_, fun i d found => agree (i + 1) d found⟩
          simpa using agree 0 c rfl space newline

/-- The scanner is faithful to the lexer where the content of annotations is inert. -/
theorem stripMalloyCommentsAndLiterals_eq_faithfulBlanking_iff (text : List Char) :
    stripMalloyCommentsAndLiterals text = faithfulBlanking text ↔ AnnotationsInert text := by
  rw [stripMalloyCommentsAndLiterals_eq, faithfulBlanking, eq_comm]
  exact blankBy_eq_iff text _ _ (by rw [length_inside, length_inside])

end MalloyPublisher.QueryText
