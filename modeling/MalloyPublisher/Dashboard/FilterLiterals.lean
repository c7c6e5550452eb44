import MalloyPublisher.Foundations.Text

/-!
# Filter literals in annotations

A value of an annotation may be a filter, an `f` before a text in quotes. The language of
annotations does not have this form, so that a filter literal is put between double quotes before
the annotation is read. The walk that finds the literals has to leave alone what stands inside
strings, names and here-documents, where what looks like a filter literal is text.

## Main definitions

* `endOfDelimited` — the end of a string, a name or a here-document
* `quoteFilterLiterals`, `unwrapFilterLiteral` — what is written, and how a value is read back
* `bareString` — a literal as the language reads its string

## Main results

* `endOfDelimited_take` — a region ends where it ends, whatever follows
* `isString_quotedLiteral`, `unwrapFilterLiteral_unescape` — what is written is one string, from
  which the literal is read back
-/

namespace MalloyPublisher.Dashboard

open Foundations

/-! ## Regions -/

/-- How far a name in backquotes goes, behind its opening one. -/
def identifierEnd : List Char → ℕ
  | [] => 0
  | [_] => 1
  | c :: d :: rest =>
    if c = '\\' then identifierEnd rest + 2
    else if c = '\x60' then 1
    else if c = '\n' then rest.length + 2
    else identifierEnd (d :: rest) + 1

/-- How far a string in single marks goes, behind its opening one. -/
def stringEnd (quote : Char) : List Char → ℕ
  | [] => 0
  | [c] => if c = '\n' then 0 else 1
  | c :: d :: rest =>
    if c = '\\' then stringEnd quote rest + 2
    else if c = quote then 1
    else if c = '\n' then 0
    else stringEnd quote (d :: rest) + 1

/-- How far a string in triple marks goes, behind its opening ones. -/
def tripleEnd (quote : Char) : List Char → ℕ
  | [] => 0
  | [_] => 1
  | c :: d :: rest =>
    if c = '\\' then tripleEnd quote rest + 2
    else if [quote, quote, quote] <+: c :: d :: rest then 3
    else tripleEnd quote (d :: rest) + 1

/-- How far a here-document goes, behind its mark and a part of a line. -/
def heredocEnd (line : List Char) : List Char → ℕ
  | [] => 0
  | c :: rest =>
    if c = '\n' then
      if trim line = ['>', '>', '>'] then 0 else heredocEnd [] rest + 1
    else heredocEnd (line ++ [c]) rest + 1

/-- How far the region goes that begins a text, where one does. -/
def endOfDelimited : List Char → ℕ
  | [] => 0
  | c :: rest =>
    if c = '\x60' then identifierEnd rest + 1
    else if ['<', '<', '<'] <+: c :: rest then heredocEnd [] (rest.drop 2) + 3
    else if c = '"' ∨ c = '\'' then
      if [c, c, c] <+: c :: rest then tripleEnd c (rest.drop 2) + 3 else stringEnd c rest + 1
    else 0

theorem identifierEnd_le (text : List Char) : identifierEnd text ≤ text.length := by
  fun_induction identifierEnd text <;> simp_all

theorem stringEnd_le (quote : Char) (text : List Char) : stringEnd quote text ≤ text.length := by
  fun_induction stringEnd quote text <;> simp_all

theorem tripleEnd_le (quote : Char) (text : List Char) : tripleEnd quote text ≤ text.length := by
  fun_induction tripleEnd quote text with
  | case1 => exact le_rfl
  | case2 => exact le_rfl
  | case3 d rest ih => simpa using ih
  | case4 c d rest plain closes =>
    have three := closes.length_le
    simpa using three
  | case5 c d rest plain goesOn ih => simpa using ih

theorem heredocEnd_le (line text : List Char) : heredocEnd line text ≤ text.length := by
  fun_induction heredocEnd line text <;> simp_all

theorem endOfDelimited_le (text : List Char) : endOfDelimited text ≤ text.length := by
  unfold endOfDelimited
  split
  · exact le_rfl
  · next c rest =>
    split_ifs with name heredoc quote triple
    · have inside := identifierEnd_le rest
      simpa using inside
    · have inside := heredocEnd_le [] (rest.drop 2)
      have three := heredoc.length_le
      simp only [List.length_cons, List.length_nil, List.length_drop] at *
      omega
    · have inside := tripleEnd_le c (rest.drop 2)
      have three := triple.length_le
      simp only [List.length_cons, List.length_nil, List.length_drop] at *
      omega
    · have inside := stringEnd_le c rest
      simpa using inside
    · exact Nat.zero_le _

/-! ## Literals -/

/-- A filter literal, and what follows it. -/
structure BareLiteral where
  blanks : List Char
  quote : Char
  body : List Char
  rest : List Char
deriving DecidableEq

/-- The text up to the quote that closes it, and what follows. A backslash takes a character with it
that it may escape. -/
def closing (escapes plain : Char → Bool) (quote : Char) :
    List Char → Option (List Char × List Char)
  | [] => none
  | [c] => if c = quote then some ([], []) else none
  | c :: d :: rest =>
    if c = quote then some ([], d :: rest)
    else if c = '\\' then
      if escapes d then
        (closing escapes plain quote rest).map fun read => (c :: d :: read.1, read.2)
      else none
    else if plain c then
      (closing escapes plain quote (d :: rest)).map fun read => (c :: read.1, read.2)
    else none

def isBlank (c : Char) : Bool := c = ' ' || c = '\t'

/-- The characters that `.` does not match. -/
def isLineTerminator (c : Char) : Bool := c.toNat ∈ [0xA, 0xD, 0x2028, 0x2029]

/-- Blanks, and an `f` before a text in quotes. -/
def literalAt (escapes plain : Char → Bool) (text : List Char) : Option BareLiteral :=
  match text.dropWhile isBlank with
  | 'f' :: quote :: rest =>
    if quote = '\'' ∨ quote = '"' then
      (closing escapes plain quote rest).map fun read =>
        ⟨text.takeWhile isBlank, quote, read.1, read.2⟩
    else none
  | _ => none

/-- `/^([ \t]*)f(['"])((?:\\.|(?!\2)[^\\])*)\2/`. -/
def bareFilterLiteral (text : List Char) : Option BareLiteral :=
  literalAt (fun c => !isLineTerminator c) (fun _ => true) text

/-- `/[=[,]/`. -/
def isValueStart (c : Char) : Bool := c = '=' || c = '[' || c = ','

/-- Double each backslash, then put one before each double quote. -/
def escapeBody (body : List Char) : List Char :=
  (body.flatMap fun c => if c = '\\' then ['\\', '\\'] else [c]).flatMap
    fun c => if c = '"' then ['\\', '"'] else [c]

/-- What a literal is replaced by. -/
def quotedLiteral (body : List Char) : List Char :=
  ['"', 'f', '\''] ++ escapeBody body ++ ['\'', '"']

theorem length_closing {escapes plain : Char → Bool} {quote : Char} {text : List Char}
    {read : List Char × List Char} (closes : closing escapes plain quote text = some read) :
    read.2.length < text.length := by
  fun_induction closing escapes plain quote text generalizing read with
  | case1 => cases closes
  | case2 =>
    cases closes
    exact Nat.zero_lt_one
  | case3 => cases closes
  | case4 =>
    cases closes
    exact Nat.lt_succ_self _
  | case5 d rest plain escaped ih =>
    obtain ⟨later, isLater, rfl⟩ := Option.map_eq_some_iff.mp closes
    have shorter := ih isLater
    exact Nat.lt_trans shorter (Nat.lt_add_of_pos_right Nat.two_pos)
  | case6 => cases closes
  | case7 c d rest other escape plain ih =>
    obtain ⟨later, isLater, rfl⟩ := Option.map_eq_some_iff.mp closes
    have shorter := ih isLater
    exact Nat.lt_succ_of_lt shorter
  | case8 => cases closes

theorem length_literalAt {escapes plain : Char → Bool} {text : List Char} {literal : BareLiteral}
    (isLiteral : literalAt escapes plain text = some literal) :
    literal.rest.length < text.length := by
  unfold literalAt at isLiteral
  split at isLiteral
  · next quote rest behind =>
    split_ifs at isLiteral
    obtain ⟨read, isRead, rfl⟩ := Option.map_eq_some_iff.mp isLiteral
    have shorter := length_closing isRead
    have whole := (List.dropWhile_sublist isBlank (l := text)).length_le
    rw [behind] at whole
    simp only [List.length_cons] at whole ⊢
    omega
  · cases isLiteral

def quoteFilterLiterals : List Char → List Char
  | [] => []
  | c :: rest =>
    if 0 < endOfDelimited (c :: rest) then
      (c :: rest).take (endOfDelimited (c :: rest)) ++
        quoteFilterLiterals ((c :: rest).drop (endOfDelimited (c :: rest)))
    else if isValueStart c then
      match _isLiteral : bareFilterLiteral rest with
      | some literal =>
        c :: (literal.blanks ++ quotedLiteral literal.body) ++ quoteFilterLiterals literal.rest
      | none => c :: quoteFilterLiterals rest
    else c :: quoteFilterLiterals rest
termination_by text => text.length
decreasing_by
  all_goals simp only [List.length_cons, List.length_drop]
  · omega
  · exact Nat.lt_succ_of_lt (length_literalAt _isLiteral)
  · omega
  · omega

/-- `/^f(['"])([\s\S]*)\1$/`. -/
def unwrapFilterLiteral (value : List Char) : List Char :=
  match value with
  | 'f' :: quote :: rest =>
    if (quote = '\'' ∨ quote = '"') ∧ rest.getLast? = some quote then rest.dropLast else value
  | _ => value

/-- What a double-quoted string stands for, behind its opening quote: a backslash before a backslash
or a quote is dropped. -/
def unescape : List Char → List Char
  | '\\' :: '\\' :: rest => '\\' :: unescape rest
  | '\\' :: '"' :: rest => '"' :: unescape rest
  | c :: rest => c :: unescape rest
  | [] => []

/-- A text is one double-quoted string, whatever follows it. -/
def IsString (text : List Char) : Prop :=
  ∃ inside, text = '"' :: (inside ++ ['"']) ∧
    ∀ rest, endOfDelimited (text ++ rest) = text.length

/-- An `f` before a string that is closed, as the language of annotations reads strings: a backslash
escapes any character, and the end of a line ends the string. -/
def bareString (text : List Char) : Option BareLiteral :=
  literalAt (fun _ => true) (fun c => decide (c ≠ '\n')) text

/-! ## What a literal consists of -/

section Source

variable {escapes plain : Char → Bool} {quote : Char} {text body rest : List Char}
  {literal : BareLiteral}

theorem closing_source (closes : closing escapes plain quote text = some (body, rest)) :
    text = body ++ quote :: rest := by
  fun_induction closing escapes plain quote text generalizing body with
  | case1 => cases closes
  | case2 =>
    cases closes
    rfl
  | case3 => cases closes
  | case4 =>
    cases closes
    rfl
  | case5 d rest plain escaped ih =>
    obtain ⟨later, isLater, same⟩ := Option.map_eq_some_iff.mp closes
    cases same
    rw [ih isLater]
    rfl
  | case6 => cases closes
  | case7 c d rest other escape plain ih =>
    obtain ⟨later, isLater, same⟩ := Option.map_eq_some_iff.mp closes
    cases same
    rw [ih isLater]
    rfl
  | case8 => cases closes

/-- What a literal that is found consists of. -/
structure BareLiteral.Found (literal : BareLiteral) (escapes plain : Char → Bool)
    (text : List Char) : Prop where
  source : text = literal.blanks ++ ['f', literal.quote] ++ literal.body ++
    literal.quote :: literal.rest
  blanks : literal.blanks.all isBlank = true
  quote : literal.quote = '\'' ∨ literal.quote = '"'
  closes : closing escapes plain literal.quote (literal.body ++ literal.quote :: literal.rest) =
    some (literal.body, literal.rest)

theorem found_of_literalAt (isLiteral : literalAt escapes plain text = some literal) :
    literal.Found escapes plain text := by
  unfold literalAt at isLiteral
  split at isLiteral
  · next quote rest behind =>
    split_ifs at isLiteral with isQuote
    obtain ⟨read, isRead, rfl⟩ := Option.map_eq_some_iff.mp isLiteral
    have inside := closing_source isRead
    refine ⟨?_, List.all_takeWhile, isQuote, inside ▸ isRead⟩
    calc text = text.takeWhile isBlank ++ text.dropWhile isBlank :=
          List.takeWhile_append_dropWhile.symm
      _ = _ := by
          rw [behind, inside]
          simp
  · cases isLiteral

theorem span_blanks {blanks : List Char} (all : blanks.all isBlank = true) (rest : List Char) :
    (blanks ++ 'f' :: rest).takeWhile isBlank = blanks ∧
      (blanks ++ 'f' :: rest).dropWhile isBlank = 'f' :: rest := by
  have each : ∀ c ∈ blanks, isBlank c = true := List.all_eq_true.mp all
  rw [List.takeWhile_append_of_pos each, List.dropWhile_append_of_pos each]
  have stops : isBlank 'f' = false := by decide
  simp [stops]

/-- Blanks, an `f` and a quote are looked at from the quote. -/
theorem literalAt_append {blanks : List Char} (all : blanks.all isBlank = true)
    (isQuote : quote = '\'' ∨ quote = '"') (rest : List Char) :
    literalAt escapes plain (blanks ++ 'f' :: quote :: rest) =
      (closing escapes plain quote rest).map fun read => ⟨blanks, quote, read.1, read.2⟩ := by
  rw [literalAt, (span_blanks all _).1, (span_blanks all _).2]
  exact if_pos isQuote

end Source

/-! ## A region ends where it ends -/

section Regions

variable {c d quote : Char} {text rest more line : List Char}

theorem three_prefix_iff : [quote, quote, quote] <+: c :: rest ↔
    quote = c ∧ rest.take 2 = [quote, quote] := by
  rw [List.cons_prefix_cons, List.prefix_iff_eq_take]
  exact and_congr_right fun _ => eq_comm

/-- What is put behind a text that a region leaves begins as what was left. -/
theorem exists_cons_take (n : ℕ) (same : more.head? = ((d :: rest).drop n).head?) :
    ∃ later, (d :: rest).take n ++ more = d :: later := by
  cases n with
  | zero =>
    cases more with
    | nil => cases same
    | cons e more =>
      cases same
      exact ⟨more, rfl⟩
  | succ n => exact ⟨rest.take n ++ more, rfl⟩

theorem eq_nil_of_head? (same : more.head? = ([] : List Char).head?) : more = [] :=
  List.head?_eq_none_iff.mp same

theorem identifierEnd_take (same : more.head? = (text.drop (identifierEnd text)).head?) :
    identifierEnd (text.take (identifierEnd text) ++ more) = identifierEnd text := by
  fun_induction identifierEnd text with
  | case1 =>
    rw [eq_nil_of_head? same]
    rfl
  | case2 c =>
    rw [eq_nil_of_head? same]
    rfl
  | case3 d rest ih =>
    rw [List.take_succ_cons, List.take_succ_cons, List.cons_append, List.cons_append,
      identifierEnd, if_pos rfl, ih same]
  | case4 d rest plain =>
    cases more with
    | nil => rfl
    | cons e more => rfl
  | case5 d rest plain noClose =>
    have whole : ('\n' :: d :: rest).drop (rest.length + 2) = [] := by simp
    rw [whole] at same
    have short : ('\n' :: d :: rest).take (rest.length + 2) = '\n' :: d :: rest := by simp
    rw [eq_nil_of_head? same, short, List.append_nil, identifierEnd, if_neg plain, if_neg noClose,
      if_pos rfl]
  | case6 c d rest plain noClose noBreak ih =>
    change more.head? = ((d :: rest).drop _).head? at same
    obtain ⟨later, isLater⟩ := exists_cons_take _ same
    have inner := ih same
    rw [List.take_succ_cons, List.cons_append, isLater, identifierEnd, if_neg plain,
      if_neg noClose, if_neg noBreak, ← isLater, inner]

theorem stringEnd_break (notBreak : quote ≠ '\n') (more : List Char) :
    stringEnd quote ('\n' :: more) = 0 := by
  cases more with
  | nil => rfl
  | cons e more =>
    rw [stringEnd, if_neg (by decide), if_neg notBreak.symm, if_pos rfl]

theorem stringEnd_close (notBreak : quote ≠ '\n') (notEscape : quote ≠ '\\')
    (more : List Char) : stringEnd quote (quote :: more) = 1 := by
  cases more with
  | nil => rw [stringEnd, if_neg notBreak]
  | cons e more => rw [stringEnd, if_neg notEscape, if_pos rfl]

theorem stringEnd_take (notBreak : quote ≠ '\n')
    (same : more.head? = (text.drop (stringEnd quote text)).head?) :
    stringEnd quote (text.take (stringEnd quote text) ++ more) = stringEnd quote text := by
  fun_induction stringEnd quote text with
  | case1 =>
    rw [eq_nil_of_head? same]
    rfl
  | case2 =>
    cases more with
    | nil => cases same
    | cons e more =>
      cases same
      exact stringEnd_break notBreak more
  | case3 c noBreak =>
    rw [eq_nil_of_head? same]
    simp [stringEnd, noBreak]
  | case4 d rest ih =>
    rw [List.take_succ_cons, List.take_succ_cons, List.cons_append, List.cons_append,
      stringEnd, if_pos rfl, ih same]
  | case5 d rest plain => exact stringEnd_close notBreak plain more
  | case6 d rest plain noClose =>
    cases more with
    | nil => cases same
    | cons e more =>
      cases same
      exact stringEnd_break notBreak more
  | case7 c d rest plain noClose noBreak ih =>
    change more.head? = ((d :: rest).drop _).head? at same
    obtain ⟨later, isLater⟩ := exists_cons_take _ same
    have inner := ih same
    rw [List.take_succ_cons, List.cons_append, isLater, stringEnd, if_neg plain,
      if_neg noClose, if_neg noBreak, ← isLater, inner]

/-- What begins as a rest did and stands behind two characters or less of a text begins as the text
did. -/
theorem take_two_append (n : ℕ) (some : 0 < n ∨ text = [])
    (same : more.head? = (text.drop n).head?) :
    (text.take n ++ more).take 2 = text.take 2 := by
  match text, n with
  | [], n =>
    rw [List.drop_nil] at same
    rw [eq_nil_of_head? same]
    simp
  | _ :: _, 0 => simp at some
  | c :: rest, 1 =>
    change more.head? = rest.head? at same
    cases rest with
    | nil => simp [eq_nil_of_head? same]
    | cons d rest =>
      cases more with
      | nil => cases same
      | cons e more =>
        cases same
        rfl
  | [c], n + 2 =>
    have none : more = [] := eq_nil_of_head? (same.trans (by simp))
    simp [none]
  | c :: d :: rest, n + 2 => simp

theorem tripleEnd_pos (text : List Char) : 0 < tripleEnd quote text ∨ text = [] := by
  fun_cases tripleEnd quote text with
  | case1 => exact .inr rfl
  | case2 => exact .inl Nat.zero_lt_one
  | case3 => exact .inl (Nat.succ_pos _)
  | case4 => exact .inl (Nat.succ_pos _)
  | case5 => exact .inl (Nat.succ_pos _)

theorem tripleEnd_take (same : more.head? = (text.drop (tripleEnd quote text)).head?) :
    tripleEnd quote (text.take (tripleEnd quote text) ++ more) = tripleEnd quote text := by
  fun_induction tripleEnd quote text with
  | case1 =>
    rw [eq_nil_of_head? same]
    rfl
  | case2 c =>
    rw [eq_nil_of_head? same]
    rfl
  | case3 d rest ih =>
    rw [List.take_succ_cons, List.take_succ_cons, List.cons_append, List.cons_append,
      tripleEnd, if_pos rfl, ih same]
  | case4 c d rest plain closes =>
    obtain ⟨rfl, two⟩ := three_prefix_iff.mp closes
    have front : (quote :: d :: rest).take 3 = [quote, quote, quote] := by
      rw [List.take_succ_cons, two]
    rw [front]
    change tripleEnd quote (quote :: quote :: (quote :: more)) = 3
    rw [tripleEnd, if_neg plain, if_pos ⟨more, rfl⟩]
  | case5 c d rest plain goesOn ih =>
    change more.head? = ((d :: rest).drop _).head? at same
    obtain ⟨later, isLater⟩ := exists_cons_take _ same
    have inner := ih same
    have two := take_two_append _ (tripleEnd_pos (d :: rest)) same
    have goesOn' : ¬[quote, quote, quote] <+: c :: d :: later := by
      rw [three_prefix_iff, ← isLater, two, ← three_prefix_iff]
      exact goesOn
    rw [List.take_succ_cons, List.cons_append, isLater, tripleEnd, if_neg plain, if_neg goesOn',
      ← isLater, inner]

theorem heredocEnd_take (same : more.head? = (text.drop (heredocEnd line text)).head?) :
    heredocEnd line (text.take (heredocEnd line text) ++ more) = heredocEnd line text := by
  fun_induction heredocEnd line text with
  | case1 =>
    rw [eq_nil_of_head? same]
    rfl
  | case2 line rest closes =>
    cases more with
    | nil => cases same
    | cons e more =>
      cases same
      rw [List.take_zero, List.nil_append, heredocEnd, if_pos rfl, if_pos closes]
  | case3 line rest goesOn ih =>
    rw [List.take_succ_cons, List.cons_append, heredocEnd, if_pos rfl, if_neg goesOn, ih same]
  | case4 line c rest noBreak ih =>
    rw [List.take_succ_cons, List.cons_append, heredocEnd, if_neg noBreak, ih same]

theorem stringEnd_pos (text : List Char) :
    0 < stringEnd quote text ∨ text.head? = none ∨ text.head? = some '\n' := by
  fun_cases stringEnd quote text with
  | case1 => exact .inr (.inl rfl)
  | case2 => exact .inr (.inr rfl)
  | case3 => exact .inl Nat.zero_lt_one
  | case4 => exact .inl (Nat.succ_pos _)
  | case5 => exact .inl Nat.zero_lt_one
  | case6 => exact .inr (.inr rfl)
  | case7 => exact .inl (Nat.succ_pos _)

theorem endOfDelimited_name (rest : List Char) :
    endOfDelimited ('\x60' :: rest) = identifierEnd rest + 1 := rfl

theorem endOfDelimited_heredoc (rest : List Char) :
    endOfDelimited ('<' :: '<' :: '<' :: rest) = heredocEnd [] rest + 3 := by
  rw [endOfDelimited, if_neg (by decide), if_pos ⟨rest, rfl⟩]
  rfl

theorem not_heredoc (isQuote : quote = '\'' ∨ quote = '"') :
    ¬['<', '<', '<'] <+: quote :: rest := by
  rw [List.cons_prefix_cons]
  rintro ⟨rfl, -⟩
  simp at isQuote

theorem endOfDelimited_triple (isQuote : quote = '\'' ∨ quote = '"') (rest : List Char) :
    endOfDelimited (quote :: quote :: quote :: rest) = tripleEnd quote rest + 3 := by
  have noName : quote ≠ '\x60' := by rcases isQuote with rfl | rfl <;> decide
  rw [endOfDelimited, if_neg noName, if_neg (not_heredoc isQuote), if_pos isQuote.symm,
    if_pos ⟨rest, rfl⟩]
  rfl

theorem endOfDelimited_string (isQuote : quote = '\'' ∨ quote = '"')
    (single : rest.take 2 ≠ [quote, quote]) :
    endOfDelimited (quote :: rest) = stringEnd quote rest + 1 := by
  have noName : quote ≠ '\x60' := by rcases isQuote with rfl | rfl <;> decide
  rw [endOfDelimited, if_neg noName, if_neg (not_heredoc isQuote), if_pos isQuote.symm, if_neg]
  rw [three_prefix_iff]
  exact fun both => single both.2

/-- What a region begins with. -/
inductive Opens : List Char → Prop
  | name (rest : List Char) : Opens ('\x60' :: rest)
  | heredoc (rest : List Char) : Opens ('<' :: '<' :: '<' :: rest)
  | triple {quote : Char} (isQuote : quote = '\'' ∨ quote = '"') (rest : List Char) :
    Opens (quote :: quote :: quote :: rest)
  | string {quote : Char} (isQuote : quote = '\'' ∨ quote = '"') {rest : List Char}
    (single : rest.take 2 ≠ [quote, quote]) : Opens (quote :: rest)

theorem endOfDelimited_pos_iff : 0 < endOfDelimited text ↔ Opens text := by
  constructor
  · intro delimited
    unfold endOfDelimited at delimited
    split at delimited
    · cases delimited
    · next c rest =>
      split_ifs at delimited with name heredoc quote triple
      · subst name
        exact .name rest
      · obtain ⟨more, same⟩ := heredoc
        rw [← same]
        exact .heredoc more
      · obtain ⟨more, same⟩ := triple
        rw [← same]
        exact .triple quote.symm more
      · refine .string quote.symm fun two => triple ?_
        exact three_prefix_iff.mpr ⟨rfl, two⟩
      · cases delimited
  · intro opens
    cases opens with
    | name rest => exact Nat.succ_pos _
    | heredoc rest => simp [endOfDelimited_heredoc]
    | triple isQuote rest => simp [endOfDelimited_triple isQuote]
    | string isQuote single => simp [endOfDelimited_string isQuote single]

/-- A region is where it is whatever begins as what it left. -/
theorem endOfDelimited_take (same : more.head? = (text.drop (endOfDelimited text)).head?)
    (delimited : 0 < endOfDelimited text) :
    endOfDelimited (text.take (endOfDelimited text) ++ more) = endOfDelimited text := by
  cases endOfDelimited_pos_iff.mp delimited with
  | name rest =>
    rw [endOfDelimited_name] at same ⊢
    rw [List.take_succ_cons, List.cons_append, endOfDelimited_name, identifierEnd_take same]
  | heredoc rest =>
    rw [endOfDelimited_heredoc] at same ⊢
    rw [List.take_succ_cons, List.take_succ_cons, List.take_succ_cons, List.cons_append,
      List.cons_append, List.cons_append, endOfDelimited_heredoc, heredocEnd_take same]
  | triple isQuote rest =>
    rw [endOfDelimited_triple isQuote] at same ⊢
    rw [List.take_succ_cons, List.take_succ_cons, List.take_succ_cons, List.cons_append,
      List.cons_append, List.cons_append, endOfDelimited_triple isQuote, tripleEnd_take same]
  | @string quote isQuote rest single =>
    have notBreak : quote ≠ '\n' := by rcases isQuote with rfl | rfl <;> decide
    rw [endOfDelimited_string isQuote single] at same ⊢
    change more.head? = (rest.drop _).head? at same
    have single' : (rest.take (stringEnd quote rest) ++ more).take 2 ≠ [quote, quote] := by
      rcases stringEnd_pos rest with goesOn | isEnd | isEnd
      · rw [take_two_append _ (.inl goesOn) same]
        exact single
      · rw [List.head?_eq_none_iff] at isEnd
        subst isEnd
        have none : more = [] := eq_nil_of_head? same
        simp [none]
      · obtain ⟨later, rfl⟩ : ∃ later, rest = '\n' :: later := by
          cases rest with
          | nil => cases isEnd
          | cons e later =>
            cases isEnd
            exact ⟨later, rfl⟩
        rw [stringEnd_break notBreak] at same ⊢
        cases more with
        | nil => cases same
        | cons e more =>
          cases same
          simp [notBreak.symm]
    rw [List.take_succ_cons, List.cons_append, endOfDelimited_string isQuote single',
      stringEnd_take notBreak same]

end Regions

/-! ## What is written is read -/

section Written

variable {body rest : List Char}

theorem stringEnd_plain {c : Char} (plain : c ≠ '\\' ∧ c ≠ '"' ∧ c ≠ '\n') (some : rest ≠ []) :
    stringEnd '"' (c :: rest) = stringEnd '"' rest + 1 := by
  cases rest with
  | nil => exact absurd rfl some
  | cons d rest => rw [stringEnd, if_neg plain.1, if_neg plain.2.1, if_neg plain.2.2]

/-- How one character of a body is written. -/
def escapeChar (c : Char) : List Char :=
  if c = '\\' then ['\\', '\\'] else if c = '"' then ['\\', '"'] else [c]

theorem escapeBody_cons (c : Char) (body : List Char) :
    escapeBody (c :: body) = escapeChar c ++ escapeBody body := by
  unfold escapeBody escapeChar
  rw [List.flatMap_cons, List.flatMap_append]
  congr 1
  by_cases backslash : c = '\\'
  · subst backslash
    rfl
  · by_cases mark : c = '"' <;> simp [backslash, mark]

theorem stringEnd_escapeBody (noBreak : '\n' ∉ body) (rest : List Char) :
    stringEnd '"' (escapeBody body ++ '\'' :: '"' :: rest) = (escapeBody body).length + 2 := by
  induction body with
  | nil =>
    change stringEnd '"' ('\'' :: '"' :: rest) = 2
    rw [stringEnd_plain (by decide) (by simp), stringEnd_close (by decide) (by decide)]
  | cons c body ih =>
    have onward := ih fun member => noBreak (List.mem_cons_of_mem _ member)
    have notBreak : c ≠ '\n' := fun is => noBreak (is ▸ List.mem_cons_self)
    rw [escapeBody_cons, List.append_assoc, List.length_append]
    unfold escapeChar
    split_ifs with backslash mark
    · rw [List.cons_append, List.singleton_append, stringEnd, if_pos rfl, onward,
        List.length_cons, List.length_singleton]
      omega
    · rw [List.cons_append, List.singleton_append, stringEnd, if_pos rfl, onward,
        List.length_cons, List.length_singleton]
      omega
    · rw [List.singleton_append, stringEnd_plain ⟨backslash, mark, notBreak⟩ (by simp), onward,
        List.length_singleton]
      omega

theorem isString_quotedLiteral (noBreak : '\n' ∉ body) : IsString (quotedLiteral body) := by
  refine ⟨['f', '\''] ++ escapeBody body ++ ['\''], by simp [quotedLiteral], fun rest => ?_⟩
  have shape : quotedLiteral body ++ rest =
      '"' :: 'f' :: '\'' :: (escapeBody body ++ '\'' :: '"' :: rest) := by
    simp [quotedLiteral]
  rw [shape, endOfDelimited_string (.inr rfl) (by simp), stringEnd_plain (by decide) (by simp),
    stringEnd_plain (by decide) (by simp), stringEnd_escapeBody noBreak]
  simp only [quotedLiteral, List.length_append, List.length_cons, List.length_nil]
  omega

theorem unescape_plain {c : Char} (plain : c ≠ '\\') : unescape (c :: rest) = c :: unescape rest := by
  rw [unescape]
  · rintro more rfl
    exact fun _ => plain rfl
  · rintro more rfl
    exact fun _ => plain rfl

theorem unescape_escapeBody (body rest : List Char) :
    unescape (escapeBody body ++ rest) = body ++ unescape rest := by
  induction body with
  | nil => rfl
  | cons c body ih =>
    rw [escapeBody_cons, List.append_assoc]
    unfold escapeChar
    split_ifs with backslash mark
    · rw [backslash, List.cons_append, List.singleton_append, unescape, ih, List.cons_append]
    · rw [mark, List.cons_append, List.singleton_append, unescape, ih, List.cons_append]
    · rw [List.singleton_append, unescape_plain backslash, ih, List.cons_append]

/-- The body of a literal is read back. -/
theorem unwrapFilterLiteral_unescape (body : List Char) :
    unwrapFilterLiteral (unescape (quotedLiteral body).tail.dropLast) = body := by
  have inside : (quotedLiteral body).tail.dropLast =
      'f' :: '\'' :: (escapeBody body ++ ['\'']) := by
    have last : (quotedLiteral body).tail = ('f' :: '\'' :: (escapeBody body ++ ['\''])) ++ ['"'] := by
      simp [quotedLiteral]
    rw [last, List.dropLast_concat]
  rw [inside, unescape_plain (by decide), unescape_plain (by decide), unescape_escapeBody,
    unescape_plain (by decide)]
  simp [unwrapFilterLiteral, unescape]

end Written

/-! ## Two readings of a literal -/

section Readings

variable {escapes plain escapes' plain' : Char → Bool} {quote : Char} {text body : List Char}

/-- Two readings that find a text find the same. -/
theorem closing_unique {read read' : List Char × List Char}
    (closes : closing escapes plain quote text = some read)
    (closes' : closing escapes' plain' quote text = some read') : read = read' := by
  fun_induction closing escapes plain quote text generalizing read read' with
  | case1 => cases closes
  | case2 =>
    rw [closing, if_pos rfl] at closes'
    exact Option.some.inj (closes.symm.trans closes')
  | case3 => cases closes
  | case4 =>
    rw [closing, if_pos rfl] at closes'
    exact Option.some.inj (closes.symm.trans closes')
  | case5 d rest _ notQuote ih =>
    rw [closing, if_neg notQuote, if_pos rfl] at closes'
    obtain ⟨later, isLater, rfl⟩ := Option.map_eq_some_iff.mp closes
    split_ifs at closes'
    obtain ⟨later', isLater', rfl⟩ := Option.map_eq_some_iff.mp closes'
    rw [ih isLater isLater']
  | case6 => cases closes
  | case7 c d rest notQuote notEscape kept ih =>
    rw [closing, if_neg notQuote, if_neg notEscape] at closes'
    obtain ⟨later, isLater, rfl⟩ := Option.map_eq_some_iff.mp closes
    split_ifs at closes'
    obtain ⟨later', isLater', rfl⟩ := Option.map_eq_some_iff.mp closes'
    rw [ih isLater isLater']
  | case8 => cases closes

theorem literalAt_unique {literal literal' : BareLiteral}
    (isLiteral : literalAt escapes plain text = some literal)
    (isLiteral' : literalAt escapes' plain' text = some literal') : literal = literal' := by
  unfold literalAt at isLiteral isLiteral'
  split at isLiteral
  · next quote rest behind =>
    rw [behind] at isLiteral'
    split_ifs at isLiteral with isQuote
    simp only [isQuote, if_true] at isLiteral'
    obtain ⟨read, isRead, rfl⟩ := Option.map_eq_some_iff.mp isLiteral
    obtain ⟨read', isRead', rfl⟩ := Option.map_eq_some_iff.mp isLiteral'
    rw [closing_unique isRead isRead']
  · cases isLiteral

/-- A text that both readings find has no line break in it. -/
theorem not_mem_body {rest : List Char}
    (escaped : escapes '\n' = false) (kept : plain' '\n' = false)
    (closes : closing escapes plain quote text = some (body, rest))
    (closes' : closing escapes' plain' quote text = some (body, rest)) : '\n' ∉ body := by
  fun_induction closing escapes plain quote text generalizing body with
  | case1 => cases closes
  | case2 =>
    cases closes
    simp
  | case3 => cases closes
  | case4 =>
    cases closes
    simp
  | case5 d more mayEscape notQuote ih =>
    rw [closing, if_neg notQuote, if_pos rfl] at closes'
    obtain ⟨later, isLater, same⟩ := Option.map_eq_some_iff.mp closes
    split_ifs at closes'
    obtain ⟨later', isLater', same'⟩ := Option.map_eq_some_iff.mp closes'
    have equal := closing_unique isLater isLater'
    subst equal
    cases same
    have inner := ih isLater isLater'
    have notBreak : d ≠ '\n' := by
      rintro rfl
      rw [escaped] at mayEscape
      cases mayEscape
    simp [inner, Ne.symm notBreak]
  | case6 => cases closes
  | case7 c d more notQuote notEscape isPlain ih =>
    rw [closing, if_neg notQuote, if_neg notEscape] at closes'
    obtain ⟨later, isLater, same⟩ := Option.map_eq_some_iff.mp closes
    split_ifs at closes' with isPlain'
    obtain ⟨later', isLater', same'⟩ := Option.map_eq_some_iff.mp closes'
    have equal := closing_unique isLater isLater'
    subst equal
    cases same
    have inner := ih isLater isLater'
    have notBreak : c ≠ '\n' := by
      rintro rfl
      rw [kept] at isPlain'
      cases isPlain'
    simp [inner, Ne.symm notBreak]
  | case8 => cases closes

end Readings

end MalloyPublisher.Dashboard
