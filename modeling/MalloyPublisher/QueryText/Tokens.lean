import MalloyPublisher.Foundations.Literals
import MalloyPublisher.Foundations.Text

/-!
# The tokens of a query

What is written into a query as text is read by the compiler's rules: names stand between
backquotes, texts between quotes, a filter's text behind an `f`, a date behind `@`, and comments are
skipped. A text whose tokens do not depend on what follows it can be put together with others.

## Main definitions

* `readTokens` — the tokens of a text
* `Closed`, `Lexes` — a text has these tokens whatever follows it, or wherever it ends

## Main results

* `Lexes.append` — texts that follow each other
* `readTokens_line` — what stands on a later line is read by itself
-/

namespace MalloyPublisher.QueryText

open Foundations

/-! ## The lexer -/

/-- A token of a query. -/
inductive Token
  | identifier (name : List Char)
  | literal (value : List Char)
  | filter (body : List Char)
  | number (text : List Char)
  | date (text : List Char)
  | word (text : List Char)
  | symbol (c : Char)
deriving DecidableEq

/-- What a backslash makes of one character. -/
def malloyUnescape (c : Char) : Char :=
  match c with
  | 'n' => '\n'
  | 'r' => '\r'
  | 't' => '\t'
  | c => c

/-- The rules of what stands between quotes: a backslash escapes, and a line may not end. -/
def quoted (quote : Char) : LiteralRules where
  quote := quote
  doubles := false
  escapes := some malloyUnescape
  breaks := false

def isIdentifierChar (c : Char) : Bool := c.isAlphanum || c = '_'

def isDateChar (c : Char) : Bool := c.isDigit || c = '-'

/-- The body of a filter's text as it is written, and what follows it. -/
def readRaw (quote : Char) : List Char → Option (List Char × List Char)
  | [] => none
  | [c] => if c = quote then some ([], []) else none
  | c :: d :: rest =>
    if c = quote then some ([], d :: rest)
    else if c = '\n' then none
    else if c = '\\' then (readRaw quote rest).map fun read => (c :: d :: read.1, read.2)
    else (readRaw quote (d :: rest)).map fun read => (c :: read.1, read.2)

/-- The digits of a fraction, with its point, and what follows them. -/
def readFraction : List Char → List Char × List Char
  | '.' :: d :: rest =>
    if d.isDigit then ('.' :: d :: rest.takeWhile Char.isDigit, rest.dropWhile Char.isDigit)
    else ([], '.' :: d :: rest)
  | text => ([], text)

/-- An exponent, and what follows it. -/
def readExponent : List Char → List Char × List Char
  | 'e' :: sign :: d :: rest =>
    if (sign = '+' ∨ sign = '-') ∧ d.isDigit then
      ('e' :: sign :: d :: rest.takeWhile Char.isDigit, rest.dropWhile Char.isDigit)
    else ([], 'e' :: sign :: d :: rest)
  | text => ([], text)

/-- The rest of a number whose first digit has been read, and what follows it. -/
def readNumber (text : List Char) : List Char × List Char :=
  let fraction := readFraction (text.dropWhile Char.isDigit)
  let exponent := readExponent fraction.2
  (text.takeWhile Char.isDigit ++ (fraction.1 ++ exponent.1), exponent.2)

/-- What follows a block comment whose opener has been read. -/
def afterBlock : List Char → Option (List Char)
  | c :: d :: rest => if c = '*' ∧ d = '/' then some rest else afterBlock (d :: rest)
  | _ => none

/-- What stands at the front of a text, a token or none, and what follows it. -/
def next (c : Char) (rest : List Char) : Option (List Token × List Char) :=
  if isSpace c then some ([], rest)
  else if (c = '-' ∨ c = '/') ∧ rest.head? = some c then
    some ([], rest.dropWhile (· ≠ '\n'))
  else if c = '/' ∧ rest.head? = some '*' then
    (afterBlock rest.tail).map fun rest => ([], rest)
  else if c = '\x60' then
    ((quoted c).read rest).map fun read => ([.identifier read.1], read.2)
  else if c = '\'' ∨ c = '"' then
    ((quoted c).read rest).map fun read => ([.literal read.1], read.2)
  else if c = 'f' ∧ rest.head? = some '\'' then
    (readRaw '\'' rest.tail).map fun read => ([.filter read.1], read.2)
  else if c = '@' then
    some ([.date (rest.takeWhile isDateChar)], rest.dropWhile isDateChar)
  else if c.isDigit then some ([.number (c :: (readNumber rest).1)], (readNumber rest).2)
  else if isIdentifierChar c then
    some ([.word (c :: rest.takeWhile isIdentifierChar)], rest.dropWhile isIdentifierChar)
  else some ([.symbol c], rest)

def readFrom : ℕ → List Char → Option (List Token)
  | _, [] => some []
  | 0, _ :: _ => none
  | fuel + 1, c :: rest => do
    let (tokens, rest) ← next c rest
    let later ← readFrom fuel rest
    return tokens ++ later

/-- The tokens of a text, where it has no open literal or comment. -/
def readTokens (text : List Char) : Option (List Token) := readFrom text.length text

section Lexing

variable {c quote : Char} {text rest rest' more : List Char} {tokens : List Token}

theorem length_afterBlock (after : afterBlock text = some rest) : rest.length ≤ text.length := by
  fun_induction afterBlock text with
  | case1 c d more closes =>
    cases after
    simp only [List.length_cons]
    omega
  | case2 c d more goesOn ih => exact (ih after).trans (Nat.le_succ _)
  | case3 => cases after

theorem length_readRaw {read : List Char × List Char} (isRead : readRaw quote text = some read) :
    read.2.length ≤ text.length := by
  fun_induction readRaw quote text generalizing read with
  | case1 => cases isRead
  | case2 => cases isRead; exact Nat.zero_le _
  | case3 => cases isRead
  | case4 => cases isRead; exact Nat.le_succ _
  | case5 => cases isRead
  | case6 d rest plain noBreak ih =>
    obtain ⟨later, isLater, rfl⟩ := Option.map_eq_some_iff.mp isRead
    have shorter := ih isLater
    exact Nat.le_trans shorter (Nat.le_add_right _ 2)
  | case7 c d rest plain noBreak unescaped ih =>
    obtain ⟨later, isLater, rfl⟩ := Option.map_eq_some_iff.mp isRead
    have shorter := ih isLater
    exact Nat.le_trans shorter (Nat.le_succ _)

theorem length_readFraction (text : List Char) : (readFraction text).2.length ≤ text.length := by
  fun_cases readFraction text with
  | case1 d rest isDigit =>
    have shorter := (List.dropWhile_sublist Char.isDigit (l := rest)).length_le
    simp only [List.length_cons]
    omega
  | case2 => exact le_rfl
  | case3 => exact le_rfl

theorem length_readExponent (text : List Char) : (readExponent text).2.length ≤ text.length := by
  fun_cases readExponent text with
  | case1 sign d rest isExponent =>
    have shorter := (List.dropWhile_sublist Char.isDigit (l := rest)).length_le
    simp only [List.length_cons]
    omega
  | case2 => exact le_rfl
  | case3 => exact le_rfl

theorem length_readNumber (text : List Char) : (readNumber text).2.length ≤ text.length :=
  (length_readExponent _).trans
    ((length_readFraction _).trans (List.dropWhile_sublist _).length_le)

/-- What follows a token is no longer than what follows its first character. -/
theorem length_next (step : next c rest = some (tokens, rest')) : rest'.length ≤ rest.length := by
  unfold next at step
  split_ifs at step
  · cases step
    exact le_rfl
  · cases step
    exact (List.dropWhile_sublist _).length_le
  · obtain ⟨after, isAfter, same⟩ := Option.map_eq_some_iff.mp step
    cases same
    exact (length_afterBlock isAfter).trans (by simp)
  · obtain ⟨read, isRead, same⟩ := Option.map_eq_some_iff.mp step
    cases same
    exact LiteralRules.length_read isRead
  · obtain ⟨read, isRead, same⟩ := Option.map_eq_some_iff.mp step
    cases same
    exact LiteralRules.length_read isRead
  · obtain ⟨read, isRead, same⟩ := Option.map_eq_some_iff.mp step
    cases same
    exact (length_readRaw isRead).trans (by simp)
  · cases step
    exact (List.dropWhile_sublist _).length_le
  · cases step
    exact length_readNumber rest
  · cases step
    exact (List.dropWhile_sublist _).length_le
  · cases step
    exact le_rfl

/-- Fuel that a text does not need changes nothing. -/
theorem readFrom_eq {fuel : ℕ} (enough : text.length ≤ fuel) : readFrom fuel text = readTokens text := by
  suffices same : ∀ fuel fuel' : ℕ, ∀ text : List Char, text.length ≤ fuel → text.length ≤ fuel' →
      readFrom fuel text = readFrom fuel' text from same _ _ _ enough le_rfl
  intro fuel
  induction fuel with
  | zero =>
    intro fuel' text enough _
    rw [List.length_eq_zero_iff.mp (Nat.le_zero.mp enough), readFrom, readFrom]
  | succ fuel ih =>
    intro fuel' text enough enough'
    cases text with
    | nil => rw [readFrom, readFrom]
    | cons c rest =>
      obtain ⟨fuel', rfl⟩ := Nat.exists_eq_add_of_lt (Nat.zero_lt_of_lt enough')
      rw [Nat.zero_add, readFrom, readFrom]
      cases step : next c rest with
      | none => rfl
      | some stepped =>
        have shorter := length_next step
        simp only [List.length_cons] at enough enough'
        simp only [Option.bind_eq_bind, Option.bind_some]
        rw [ih fuel' stepped.2 (by omega) (by omega)]

/-- A text is read token by token. -/
theorem readTokens_cons (step : next c rest = some (tokens, rest')) :
    readTokens (c :: rest) = (readTokens rest').map (tokens ++ ·) := by
  rw [readTokens, List.length_cons, readFrom, step, Option.bind_eq_bind, Option.bind_some]
  dsimp only
  rw [readFrom_eq (length_next step)]
  cases readTokens rest' <;> rfl

end Lexing

/-! ## A later line -/

section Line

variable {c quote : Char} {text rest rest' more : List Char} {tokens : List Token}

theorem dropWhile_line {p : Char → Bool} (stops : p '\n' = false) (text more : List Char) :
    (text ++ '\n' :: more).dropWhile p = text.dropWhile p ++ '\n' :: more := by
  induction text with
  | nil => simp [stops]
  | cons c text ih =>
    rw [List.cons_append, List.dropWhile_cons, List.dropWhile_cons]
    split
    · exact ih
    · rfl

theorem takeWhile_line {p : Char → Bool} (stops : p '\n' = false) (text more : List Char) :
    (text ++ '\n' :: more).takeWhile p = text.takeWhile p := by
  induction text with
  | nil => simp [stops]
  | cons c text ih =>
    rw [List.cons_append, List.takeWhile_cons, List.takeWhile_cons]
    split
    · rw [ih]
    · rfl

/-- The line end is no character that a token looks for. -/
theorem head?_line {d : Char} (noBreak : d ≠ '\n') (text more : List Char) :
    (text ++ '\n' :: more).head? = some d ↔ text.head? = some d := by
  cases text with
  | nil => simp [Ne.symm noBreak]
  | cons c text => simp

theorem afterBlock_append (after : afterBlock text = some rest) :
    afterBlock (text ++ more) = some (rest ++ more) := by
  fun_induction afterBlock text with
  | case1 c d later closes =>
    cases after
    rw [List.cons_append, List.cons_append, afterBlock, if_pos closes]
  | case2 c d later goesOn ih =>
    rw [List.cons_append, List.cons_append, afterBlock, if_neg goesOn]
    exact ih after
  | case3 => cases after

theorem readRaw_append {read : List Char × List Char} (isRead : readRaw quote text = some read) :
    readRaw quote (text ++ more) = some (read.1, read.2 ++ more) := by
  fun_induction readRaw quote text generalizing read with
  | case1 => cases isRead
  | case2 =>
    cases isRead
    cases more with
    | nil => simp [readRaw]
    | cons d more => simp [readRaw]
  | case3 => cases isRead
  | case4 =>
    cases isRead
    simp [readRaw]
  | case5 => cases isRead
  | case6 d rest plain noBreak ih =>
    obtain ⟨later, isLater, rfl⟩ := Option.map_eq_some_iff.mp isRead
    rw [List.cons_append, List.cons_append, readRaw, if_neg plain, if_neg noBreak, if_pos rfl,
      ih isLater]
    rfl
  | case7 c d rest plain noBreak unescaped ih =>
    obtain ⟨later, isLater, rfl⟩ := Option.map_eq_some_iff.mp isRead
    have onward := ih isLater
    rw [List.cons_append] at onward
    rw [List.cons_append, List.cons_append, readRaw, if_neg plain, if_neg noBreak,
      if_neg unescaped, onward]
    rfl

theorem readFraction_line (text more : List Char) :
    readFraction (text ++ '\n' :: more) =
      ((readFraction text).1, (readFraction text).2 ++ '\n' :: more) := by
  have stops : Char.isDigit '\n' = false := by decide
  match text with
  | [] => rfl
  | [c] =>
    by_cases point : c = '.'
    · subst point
      rfl
    · simp [readFraction, point]
  | c :: d :: rest =>
    by_cases point : c = '.'
    · subst point
      simp only [List.cons_append, readFraction, takeWhile_line stops, dropWhile_line stops]
      split <;> rfl
    · simp [readFraction, point]

theorem readExponent_line (text more : List Char) :
    readExponent (text ++ '\n' :: more) =
      ((readExponent text).1, (readExponent text).2 ++ '\n' :: more) := by
  have stops : Char.isDigit '\n' = false := by decide
  match text with
  | [] =>
    cases more with
    | nil => rfl
    | cons c more => rfl
  | [c] =>
    by_cases mark : c = 'e'
    · subst mark
      cases more with
      | nil => rfl
      | cons c more => simp [readExponent]
    · simp [readExponent, mark]
  | [c, sign] =>
    by_cases mark : c = 'e'
    · subst mark
      simp [readExponent, stops]
    · simp [readExponent, mark]
  | c :: sign :: d :: rest =>
    by_cases mark : c = 'e'
    · subst mark
      simp only [List.cons_append, readExponent, takeWhile_line stops, dropWhile_line stops]
      split <;> rfl
    · simp [readExponent, mark]

theorem readNumber_line (text more : List Char) :
    readNumber (text ++ '\n' :: more) =
      ((readNumber text).1, (readNumber text).2 ++ '\n' :: more) := by
  have stops : Char.isDigit '\n' = false := by decide
  simp only [readNumber, takeWhile_line stops, dropWhile_line stops, readFraction_line,
    readExponent_line]

/-- A token does not reach over the end of a line. -/
theorem next_line (noBreak : c ≠ '\n') (step : next c rest = some (tokens, rest')) :
    next c (rest ++ '\n' :: more) = some (tokens, rest' ++ '\n' :: more) := by
  have star : (rest ++ '\n' :: more).head? = some '*' ↔ rest.head? = some '*' :=
    head?_line (by decide) rest more
  have quote : (rest ++ '\n' :: more).head? = some '\'' ↔ rest.head? = some '\'' :=
    head?_line (by decide) rest more
  have tail : ∀ d, rest.head? = some d → (rest ++ '\n' :: more).tail = rest.tail ++ '\n' :: more := by
    intro d isHead
    cases rest with
    | nil => cases isHead
    | cons e rest => rfl
  unfold next at step ⊢
  simp only [head?_line noBreak, star, quote]
  split_ifs at step ⊢ with space line block name literal filter date digit word
  · cases step
    rfl
  · cases step
    rw [dropWhile_line (by decide)]
  · obtain ⟨after, isAfter, same⟩ := Option.map_eq_some_iff.mp step
    cases same
    rw [tail _ block.2, afterBlock_append isAfter]
    rfl
  · obtain ⟨read, isRead, same⟩ := Option.map_eq_some_iff.mp step
    cases same
    rw [LiteralRules.read_append rfl isRead]
    rfl
  · obtain ⟨read, isRead, same⟩ := Option.map_eq_some_iff.mp step
    cases same
    rw [LiteralRules.read_append rfl isRead]
    rfl
  · obtain ⟨read, isRead, same⟩ := Option.map_eq_some_iff.mp step
    cases same
    rw [tail _ filter.2, readRaw_append isRead]
    rfl
  · cases step
    rw [dropWhile_line (by decide), takeWhile_line (by decide)]
  · cases step
    rw [readNumber_line]
  · cases step
    rw [dropWhile_line (by decide), takeWhile_line (by decide)]
  · cases step
    rfl

theorem readTokens_nil : readTokens [] = some [] := rfl

theorem readTokens_space (space : isSpace c = true) (rest : List Char) :
    readTokens (c :: rest) = readTokens rest := by
  rw [readTokens_cons (by rw [next, if_pos space])]
  simp

/-- What follows the end of a line is read by itself, where no literal is open there. -/
theorem readTokens_line (isRead : readTokens text = some tokens) (more : List Char) :
    readTokens (text ++ '\n' :: more) = (readTokens more).map (tokens ++ ·) := by
  induction size : text.length using Nat.strong_induction_on generalizing text tokens with
  | h size ih =>
    cases text with
    | nil =>
      cases isRead
      rw [List.nil_append, readTokens_space (by decide)]
      simp
    | cons c rest =>
      cases step : next c rest with
      | none =>
        rw [readTokens, List.length_cons, readFrom, step] at isRead
        cases isRead
      | some stepped =>
        obtain ⟨front, after⟩ := stepped
        rw [readTokens_cons step] at isRead
        obtain ⟨later, isLater, rfl⟩ := Option.map_eq_some_iff.mp isRead
        have onward := ih after.length (by
          have shorter := length_next step
          simp only [List.length_cons] at size
          omega) isLater rfl
        have step' : next c (rest ++ '\n' :: more) = some (front, after ++ '\n' :: more) := by
          by_cases isBreak : c = '\n'
          · subst isBreak
            cases step
            rfl
          · exact next_line isBreak step
        rw [List.cons_append, readTokens_cons step', onward, Option.map_map]
        congr 1
        funext tokens
        exact (List.append_assoc _ _ _).symm

end Line

/-! ## Texts that are put together -/

/-- A text that goes on no token before it. -/
def Ends (rest : List Char) : Prop :=
  ∀ c ∈ rest.head?, isIdentifierChar c = false ∧ c ≠ '-' ∧ c ≠ '.'

/-- A text has these tokens, whatever follows it. -/
def Closed (text : List Char) (tokens : List Token) : Prop :=
  ∀ rest, readTokens (text ++ rest) = (readTokens rest).map (tokens ++ ·)

/-- A text has these tokens, wherever it ends. -/
def Lexes (text : List Char) (tokens : List Token) : Prop :=
  ∀ rest, Ends rest → readTokens (text ++ rest) = (readTokens rest).map (tokens ++ ·)

section Lexes

variable {c : Char} {first second text rest : List Char} {tokens later : List Token}

theorem ends_nil : Ends [] := by
  rintro c ⟨⟩

theorem ends_cons (word : isIdentifierChar c = false) (hyphen : c ≠ '-') (point : c ≠ '.') :
    Ends (c :: rest) := by
  rintro d ⟨⟩
  exact ⟨word, hyphen, point⟩

theorem Ends.append (ends : Ends first) (ends' : Ends second) : Ends (first ++ second) := by
  cases first with
  | nil => exact ends'
  | cons c first => exact ends

theorem Lexes.readTokens (lexes : Lexes text tokens) : readTokens text = some tokens := by
  have whole := lexes [] ends_nil
  rw [List.append_nil] at whole
  rw [whole, readTokens_nil, Option.map_some, List.append_nil]

theorem Closed.lexes (closed : Closed text tokens) : Lexes text tokens := fun rest _ => closed rest

theorem closed_nil : Closed [] [] := by
  intro rest
  simp

/-- The tokens of two texts, where the second is read behind the first. -/
theorem readTokens_append
    (lexes : readTokens (first ++ (second ++ rest)) =
      (readTokens (second ++ rest)).map (tokens ++ ·))
    (lexes' : readTokens (second ++ rest) = (readTokens rest).map (later ++ ·)) :
    readTokens (first ++ second ++ rest) = (readTokens rest).map (tokens ++ later ++ ·) := by
  rw [List.append_assoc, lexes, lexes', Option.map_map]
  congr 1
  funext tokens
  exact (List.append_assoc _ _ _).symm

theorem Closed.append (closed : Closed first tokens) (closed' : Closed second later) :
    Closed (first ++ second) (tokens ++ later) :=
  fun rest => readTokens_append (closed _) (closed' rest)

theorem Closed.append_lexes (closed : Closed first tokens) (lexes : Lexes second later) :
    Lexes (first ++ second) (tokens ++ later) :=
  fun rest isEnd => readTokens_append (closed _) (lexes rest isEnd)

theorem Lexes.append (lexes : Lexes first tokens) (lexes' : Lexes second later)
    (ends : Ends second) : Lexes (first ++ second) (tokens ++ later) :=
  fun rest isEnd => readTokens_append (lexes _ (ends.append isEnd)) (lexes' rest isEnd)

theorem Lexes.append_closed (lexes : Lexes first tokens) (closed : Closed (c :: second) later)
    (ends : Ends [c]) : Closed (first ++ c :: second) (tokens ++ later) :=
  fun rest => readTokens_append (lexes _ fun d isHead => ends d isHead) (closed rest)

/-- A text whose first token is known. -/
theorem lexes_of_next
    (step : ∀ rest, Ends rest → next c (text ++ rest) = some (tokens, rest)) :
    Lexes (c :: text) tokens := by
  intro rest isEnd
  rw [List.cons_append, readTokens_cons (step rest isEnd)]

theorem closed_of_next (step : ∀ rest, next c (text ++ rest) = some (tokens, rest)) :
    Closed (c :: text) tokens := by
  intro rest
  rw [List.cons_append, readTokens_cons (step rest)]

theorem closed_space (space : isSpace c = true) : Closed [c] [] :=
  closed_of_next fun rest => by rw [next, if_pos space, List.nil_append]

/-- What nothing else begins with. -/
def symbols : List Char := ['=', '>', '<', '~', '(', ')', '+', '{', '}', ':', ',']

theorem next_symbol (isSymbol : c ∈ symbols) (rest : List Char) :
    next c rest = some ([.symbol c], rest) := by
  simp only [symbols, List.mem_cons, List.not_mem_nil, or_false] at isSymbol
  rcases isSymbol with rfl | rfl | rfl | rfl | rfl | rfl | rfl | rfl | rfl | rfl | rfl <;> rfl

theorem closed_symbol (isSymbol : c ∈ symbols) : Closed [c] [.symbol c] :=
  closed_of_next fun rest => next_symbol isSymbol rest

/-- A symbol and a space before what is read. -/
theorem Lexes.symbol_space (lexes : Lexes text tokens) (isSymbol : c ∈ symbols) :
    Lexes (c :: ' ' :: text) (.symbol c :: tokens) :=
  (closed_symbol isSymbol).append_lexes ((closed_space (by decide)).append_lexes lexes)

theorem closed_name {name : List Char} (plain : ∀ c ∈ name, c ≠ '\x60' ∧ c ≠ '\\' ∧ c ≠ '\n') :
    Closed ('\x60' :: (name ++ ['\x60'])) [.identifier name] := by
  refine closed_of_next fun rest => ?_
  have read : (quoted '\x60').read (name.flatMap (fun c => [c]) ++ '\x60' :: rest) =
      some (name, rest) := by
    refine LiteralRules.read_flatMap (fun c member rest => ?_) (by simp [quoted])
    obtain ⟨noQuote, noBackslash, noBreak⟩ := plain c member
    exact LiteralRules.read_plain noQuote (fun is => absurd is noBackslash)
      fun is => absurd is noBreak
  rw [List.flatMap_singleton'] at read
  rw [List.append_assoc, List.singleton_append]
  change ((quoted '\x60').read _).map _ = _
  rw [read]
  rfl

/-- A literal whose characters are written so that they are read. -/
theorem closed_literal {write : Char → List Char} {value : List Char}
    (writes : ∀ c ∈ value, (quoted '\'').Writes write c) :
    Closed ('\'' :: (value.flatMap write ++ ['\''])) [.literal value] := by
  refine closed_of_next fun rest => ?_
  have read : (quoted '\'').read (value.flatMap write ++ '\'' :: rest) = some (value, rest) :=
    LiteralRules.read_flatMap writes (by simp [quoted])
  rw [List.append_assoc, List.singleton_append]
  change ((quoted '\'').read _).map _ = _
  rw [read]
  rfl

theorem toNat_of_isIdentifierChar (word : isIdentifierChar c = true) :
    (65 ≤ c.toNat ∧ c.toNat ≤ 90) ∨ (97 ≤ c.toNat ∧ c.toNat ≤ 122) ∨
      (48 ≤ c.toNat ∧ c.toNat ≤ 57) ∨ c.toNat = 95 := by
  change (((decide (c.val ≥ 'A'.val ∧ c.val ≤ 'Z'.val) || (c.val ≥ 'a'.val && c.val ≤ 'z'.val)) ||
    (c.val ≥ '0'.val && c.val ≤ '9'.val)) || decide (c = '_')) = true at word
  simp only [Bool.or_eq_true, Bool.and_eq_true, decide_eq_true_eq, ge_iff_le,
    UInt32.le_iff_toNat_le] at word
  rcases word with ((upper | lower) | digit) | rfl
  · exact .inl upper
  · exact .inr (.inl lower)
  · exact .inr (.inr (.inl digit))
  · exact .inr (.inr (.inr rfl))

/-- A character of a word begins nothing but words, numbers and filters. -/
theorem plain_of_isIdentifierChar (word : isIdentifierChar c = true) :
    isSpace c = false ∧ c ≠ '-' ∧ c ≠ '/' ∧ c ≠ '\x60' ∧ c ≠ '\'' ∧ c ≠ '"' ∧ c ≠ '@' := by
  have code := toNat_of_isIdentifierChar word
  refine ⟨?_, ?_, ?_, ?_, ?_, ?_, ?_⟩
  · simp only [isSpace, Bool.or_eq_false_iff, decide_eq_false_iff_not, List.mem_cons,
      List.not_mem_nil, Bool.and_eq_false_iff, not_or, or_false]
    omega
  all_goals
    rintro rfl
    exact absurd word (by decide)

/-- What a run of characters takes, and what it leaves. -/
theorem span_eq {p : Char → Bool} (all : ∀ c ∈ first, p c = true)
    (ends : ∀ c ∈ rest.head?, p c = false) :
    (first ++ rest).takeWhile p = first ∧ (first ++ rest).dropWhile p = rest := by
  rw [List.takeWhile_append_of_pos all, List.dropWhile_append_of_pos all]
  cases rest with
  | nil => simp
  | cons c rest =>
    have stops := ends c rfl
    simp [stops]

/-- A word that is not the mark of a filter. -/
theorem lexes_word {word : List Char} (letters : ∀ d ∈ c :: word, isIdentifierChar d = true)
    (noDigit : c.isDigit = false) (noMark : c = 'f' → word ≠ []) :
    Lexes (c :: word) [.word (c :: word)] := by
  refine lexes_of_next fun rest isEnd => ?_
  have noFilter : ¬(c = 'f' ∧ (word ++ rest).head? = some '\'') := by
    rintro ⟨isMark, isQuote⟩
    obtain ⟨d, more, rfl⟩ := List.exists_cons_of_ne_nil (noMark isMark)
    have isQuote : d = '\'' := Option.some.inj isQuote
    have letter := letters d (List.mem_cons_of_mem _ List.mem_cons_self)
    rw [isQuote] at letter
    exact absurd letter (by decide)
  obtain ⟨space, hyphen, slash, name, quote, doubleQuote, at_⟩ :=
    plain_of_isIdentifierChar (letters c List.mem_cons_self)
  have taken : (word ++ rest).takeWhile isIdentifierChar = word ∧
      (word ++ rest).dropWhile isIdentifierChar = rest :=
    span_eq (fun d member => letters d (List.mem_cons_of_mem _ member))
      fun d isHead => (isEnd d isHead).1
  unfold next
  rw [if_neg (by simp [space]), if_neg (by simp [hyphen, slash]), if_neg (by simp [slash]),
    if_neg name, if_neg (by simp [quote, doubleQuote]), if_neg noFilter, if_neg at_,
    if_neg (by simp [noDigit]), if_pos (letters c List.mem_cons_self), taken.1, taken.2]

/-- A date. -/
theorem lexes_date {date : List Char} (isDate : ∀ c ∈ date, isDateChar c = true) :
    Lexes ('@' :: date) [.date date] := by
  refine lexes_of_next fun rest isEnd => ?_
  have taken : (date ++ rest).takeWhile isDateChar = date ∧
      (date ++ rest).dropWhile isDateChar = rest := by
    refine span_eq isDate fun c isHead => ?_
    obtain ⟨word, hyphen, -⟩ := isEnd c isHead
    have noDigit : c.isDigit = false := by
      simp only [isIdentifierChar, Char.isAlphanum, Bool.or_eq_false_iff] at word
      exact word.1.2
    simp [isDateChar, noDigit, hyphen]
  change some _ = _
  rw [taken.1, taken.2]

/-- Texts with a word between them. -/
theorem lexes_intercalate {separator : List Char} {between : List Token}
    (closed : Closed (c :: separator) between) (ends : Ends [c]) {texts : List (List Char)}
    {tokens : List (List Token)} (lexes : List.Forall₂ Lexes texts tokens) :
    Lexes ((c :: separator).intercalate texts) (between.intercalate tokens) := by
  induction lexes with
  | nil => exact closed_nil.lexes
  | @cons text tokens texts later first rest ih =>
    cases rest with
    | nil => simpa using first
    | cons second rest =>
      rw [List.intercalate_cons_cons, List.intercalate_cons_cons, List.append_assoc,
        List.append_assoc]
      exact first.append (closed.append_lexes ih) fun d isHead => ends d isHead

end Lexes

end MalloyPublisher.QueryText
