import Mathlib.Data.List.TakeWhile
import MalloyPublisher.Foundations.Literals
import MalloyPublisher.Foundations.QuotedPath
import MalloyPublisher.Foundations.Text
import MalloyPublisher.Foundations.TokenReading

/-!
# The tokens of a statement

A statement is words, numbers, symbols and what stands between quotes. A dialect decides how the
latter is read. A fixed piece of a statement is read by itself; a value that is written with the
dialect's escapes is read as one literal, and a value that is only put between quotes is read as
one exactly when it holds no quote.

Comments are not read: nothing here writes one, and a value that could bring one in has ended its
literal before.

## Main definitions

* `SqlToken`, `sqlReader` — the tokens, and how a dialect takes them off a statement
* `SqlDialect.doubling` — the dialect in which a quote that is written twice is the only escape

## Main results

* `SqlDialect.closed_piece` — a fixed piece that ends in a blank or a symbol
* `SqlDialect.lexes_literal`, `SqlDialect.lexes_quoted` — a value that is written with escapes
* `SqlDialect.lexes_bare` — a value that is put between quotes as it is
-/

namespace MalloyPublisher.Foundations

inductive SqlToken
  | word (text : List Char)
  | number (digits : List Char)
  | symbol (c : Char)
  /-- What stands between single quotes. -/
  | literal (text : List Char)
  /-- What stands between double quotes. -/
  | name (text : List Char)
deriving DecidableEq

/-- A character a word may begin with. -/
def isWordStart (c : Char) : Bool := c.isAlpha || c = '_' || (128 ≤ c.toNat && !isSpace c)

def isWordChar (c : Char) : Bool := isWordStart c || c.isDigit || c = '$'

theorem plain_of_isWordStart {c : Char} (start : isWordStart c = true) :
    isSpace c = false ∧ c ≠ '\'' ∧ c ≠ '"' := by
  refine ⟨?_, ?_, ?_⟩
  · simp only [isWordStart, Bool.or_eq_true, Bool.and_eq_true, Bool.not_eq_true',
      decide_eq_true_eq] at start
    rcases start with (alpha | rfl) | other
    · change (decide (c.val ≥ 'A'.val ∧ c.val ≤ 'Z'.val) || (c.val ≥ 'a'.val && c.val ≤ 'z'.val)) =
        true at alpha
      simp only [Bool.or_eq_true, Bool.and_eq_true, decide_eq_true_eq, ge_iff_le,
        UInt32.le_iff_toNat_le] at alpha
      change ('A'.toNat ≤ c.toNat ∧ c.toNat ≤ 'Z'.toNat) ∨
        ('a'.toNat ≤ c.toNat ∧ c.toNat ≤ 'z'.toNat) at alpha
      have bounds : 65 ≤ c.toNat ∧ c.toNat ≤ 122 := by
        have codes : 'A'.toNat = 65 ∧ 'Z'.toNat = 90 ∧ 'a'.toNat = 97 ∧ 'z'.toNat = 122 := by decide
        omega
      simp only [isSpace, Bool.or_eq_false_iff, decide_eq_false_iff_not, List.mem_cons,
        List.not_mem_nil, Bool.and_eq_false_iff, not_or, or_false]
      omega
    · decide
    · exact other.2
  · rintro rfl
    exact absurd start (by decide)
  · rintro rfl
    exact absurd start (by decide)

/-- How a dialect reads what stands between single and between double quotes. -/
structure SqlDialect where
  literals : LiteralRules
  names : LiteralRules
  single : literals.quote = '\''
  double : names.quote = '"'

namespace SqlDialect

variable (dialect : SqlDialect)

/-- The next token, and what is left. -/
def next (c : Char) (rest : List Char) : Option (List SqlToken × List Char) :=
  if isSpace c then some ([], rest)
  else if c = '\'' then (dialect.literals.read rest).map fun read => ([.literal read.1], read.2)
  else if c = '"' then (dialect.names.read rest).map fun read => ([.name read.1], read.2)
  else if isWordStart c then
    some ([.word (c :: rest.takeWhile isWordChar)], rest.dropWhile isWordChar)
  else if c.isDigit then
    some ([.number (c :: rest.takeWhile Char.isDigit)], rest.dropWhile Char.isDigit)
  else some ([.symbol c], rest)

theorem suffix_next {c : Char} {text rest : List Char} {tokens : List SqlToken}
    (step : dialect.next c text = some (tokens, rest)) : rest <:+ text := by
  unfold next at step
  split_ifs at step
  · cases step
    exact List.suffix_refl _
  · obtain ⟨read, isRead, same⟩ := Option.map_eq_some_iff.mp step
    cases same
    exact LiteralRules.suffix_read isRead
  · obtain ⟨read, isRead, same⟩ := Option.map_eq_some_iff.mp step
    cases same
    exact LiteralRules.suffix_read isRead
  · cases step
    exact List.dropWhile_suffix _
  · cases step
    exact List.dropWhile_suffix _
  · cases step
    exact List.suffix_refl _

theorem settled_next {c : Char} {text rest : List Char} {tokens : List SqlToken}
    (step : dialect.next c text = some (tokens, rest)) (left : rest ≠ []) (more : List Char) :
    dialect.next c (text ++ more) = some (tokens, rest ++ more) := by
  unfold next at step ⊢
  split_ifs at step ⊢
  · cases step
    rfl
  · obtain ⟨read, isRead, same⟩ := Option.map_eq_some_iff.mp step
    cases same
    rw [LiteralRules.read_settled isRead fun _ => left]
    rfl
  · obtain ⟨read, isRead, same⟩ := Option.map_eq_some_iff.mp step
    cases same
    rw [LiteralRules.read_settled isRead fun _ => left]
    rfl
  · cases step
    obtain ⟨taken, dropped⟩ := takeWhile_dropWhile_append left more
    rw [taken, dropped]
  · cases step
    obtain ⟨taken, dropped⟩ := takeWhile_dropWhile_append left more
    rw [taken, dropped]
  · cases step
    rfl

/-- How a dialect reads a statement. -/
def reader : Reader Char SqlToken := ⟨dialect.next, suffix_next dialect, settled_next dialect⟩

/-- The tokens of a statement. -/
abbrev read (statement : List Char) : Option (List SqlToken) := dialect.reader.read statement

variable {dialect} {text value rest : List Char} {c : Char} {tokens later : List SqlToken}

/-! ### Fixed pieces -/

/-- A character that is no part of a word and begins no literal. -/
def isBreak (c : Char) : Bool := !isWordChar c && c != '\'' && c != '"'

theorem parts_of_isBreak (breaks : isBreak c = true) :
    isWordChar c = false ∧ isWordStart c = false ∧ c.isDigit = false ∧ c ≠ '\'' ∧ c ≠ '"' := by
  simp only [isBreak, Bool.and_eq_true, Bool.not_eq_true', bne_iff_ne] at breaks
  obtain ⟨⟨word, quote⟩, double⟩ := breaks
  have parts := word
  simp only [isWordChar, Bool.or_eq_false_iff] at parts
  exact ⟨word, parts.1.1, parts.1.2, quote, double⟩

theorem isBreak_of_isSpace (space : isSpace c = true) : isBreak c = true := by
  have noStart : isWordStart c = false := by
    cases start : isWordStart c with
    | false => rfl
    | true =>
      rw [(plain_of_isWordStart start).1] at space
      cases space
  have others : c.isDigit = false ∧ c ≠ '$' ∧ c ≠ '\'' ∧ c ≠ '"' := by
    refine ⟨?_, ?_, ?_, ?_⟩
    · cases digit : c.isDigit with
      | false => rfl
      | true =>
        change (decide (c.val ≥ '0'.val) && decide (c.val ≤ '9'.val)) = true at digit
        simp only [Bool.and_eq_true, decide_eq_true_eq, ge_iff_le, UInt32.le_iff_toNat_le] at digit
        change '0'.toNat ≤ c.toNat ∧ c.toNat ≤ '9'.toNat at digit
        have codes : '0'.toNat = 48 ∧ '9'.toNat = 57 := by decide
        simp only [isSpace, Bool.or_eq_true, decide_eq_true_eq, List.mem_cons, List.not_mem_nil,
          Bool.and_eq_true, or_false] at space
        omega
    all_goals
      rintro rfl
      exact absurd space (by decide)
  simp [isBreak, isWordChar, noStart, others]

/-- Blanks are no tokens. -/
theorem closed_blanks {blanks : List Char} (all : blanks.all isSpace = true) :
    dialect.reader.Closed blanks [] := by
  induction blanks with
  | nil => exact Reader.closed_nil
  | cons c blanks ih =>
    rw [List.all_cons, Bool.and_eq_true] at all
    intro rest
    have step : dialect.next c (blanks ++ rest) = some ([], blanks ++ rest) := by
      rw [next, if_pos all.1]
    rw [List.cons_append, Reader.read_cons step, ih all.2 rest]
    simp

/-- A break is a token of its own, or none at all. -/
theorem next_break (breaks : isBreak c = true) (more : List Char) :
    dialect.next c more = some (if isSpace c then [] else [.symbol c], more) := by
  obtain ⟨-, start, digit, quote, double⟩ := parts_of_isBreak breaks
  by_cases space : isSpace c = true
  · simp [next, space]
  · simp [next, space, quote, double, start, digit]

theorem dropWhile_concat_ne {p : Char → Bool} (stops : p c = false) :
    (text ++ [c]).dropWhile p ≠ [] := by
  intro used
  have all := List.dropWhile_eq_nil_iff.mp used c (by simp)
  rw [stops] at all
  cases all

/-- No token ends in a break unless it is the break. -/
theorem next_concat_ne (breaks : isBreak c = true) {d : Char} :
    dialect.next d (text ++ [c]) ≠ some (tokens, []) := by
  obtain ⟨word, -, digit, quote, double⟩ := parts_of_isBreak breaks
  have used : ∀ rules : LiteralRules, c ≠ rules.quote →
      ∀ value, rules.read (text ++ [c]) ≠ some (value, []) := by
    intro rules differs value isRead
    have last := LiteralRules.getLast?_of_read isRead
    rw [List.getLast?_concat, Option.some_inj] at last
    exact differs last
  intro step
  unfold next at step
  split_ifs at step
  · simp at step
  · obtain ⟨⟨value, left⟩, isRead, same⟩ := Option.map_eq_some_iff.mp step
    cases same
    exact used _ (by rwa [dialect.single]) _ isRead
  · obtain ⟨⟨value, left⟩, isRead, same⟩ := Option.map_eq_some_iff.mp step
    cases same
    exact used _ (by rwa [dialect.double]) _ isRead
  · exact dropWhile_concat_ne word (Prod.mk.inj (Option.some.inj step)).2
  · exact dropWhile_concat_ne digit (Prod.mk.inj (Option.some.inj step)).2
  · simp at step

/-- A fixed piece that ends in a break is closed. -/
theorem closed_piece (isRead : dialect.read text = some tokens)
    (breaks : text.getLast?.any isBreak = true) : dialect.reader.Closed text tokens := by
  obtain ⟨c, isLast, breaks⟩ := (Option.any_eq_true _ _).mp breaks
  rw [← List.dropLast_append_getLast? c isLast] at isRead ⊢
  exact Reader.closed_of_read isRead (next_break breaks) (next_concat_ne breaks)

/-! ### Values -/

/-- A value may stand before what does not go on with a quote. -/
def Ends (rest : List Char) : Prop := rest.head? ≠ some '\''

instance : DecidablePred Ends := fun rest => inferInstanceAs (Decidable (rest.head? ≠ some '\''))

/-- A value that is written with the dialect's escapes is one literal. -/
theorem lexes_literal {write : Char → List Char}
    (writes : ∀ c ∈ value, dialect.literals.Writes write c) :
    dialect.reader.Lexes Ends ('\'' :: (value.flatMap write ++ ['\''])) [.literal value] := by
  intro rest ended
  have isRead : dialect.literals.read (value.flatMap write ++ '\'' :: rest) = some (value, rest) := by
    have whole := LiteralRules.read_flatMap writes
      (fun _ => by rwa [dialect.single] : dialect.literals.doubles = true →
        rest.head? ≠ some dialect.literals.quote)
    rwa [dialect.single] at whole
  rw [List.cons_append, List.append_assoc]
  refine Reader.read_cons ?_
  change (dialect.literals.read _).map _ = _
  rw [List.singleton_append, isRead]
  rfl

/-- What is written between double quotes with the dialect's escapes is one token. -/
theorem lexes_name {write : Char → List Char} (writes : ∀ c ∈ value, dialect.names.Writes write c) :
    dialect.reader.Lexes (fun rest => dialect.names.doubles = true → rest.head? ≠ some '"')
      ('"' :: (value.flatMap write ++ ['"'])) [.name value] := by
  intro rest ended
  have isRead : dialect.names.read (value.flatMap write ++ '"' :: rest) = some (value, rest) := by
    have whole := LiteralRules.read_flatMap writes
      (fun doubles => by
        rw [dialect.double]
        exact ended doubles : dialect.names.doubles = true →
          rest.head? ≠ some dialect.names.quote)
    rwa [dialect.double] at whole
  rw [List.cons_append, List.append_assoc]
  refine Reader.read_cons ?_
  change (dialect.names.read _).map _ = _
  rw [List.singleton_append, isRead]
  rfl

/-- A dialect in which a quote that is written twice is the only escape. -/
def doubling : SqlDialect where
  literals := { quote := '\'', doubles := true, escapes := none, breaks := true }
  names := { quote := '"', doubles := true, escapes := none, breaks := true }
  single := rfl
  double := rfl

theorem onlyDoubles : doubling.literals.OnlyDoubles := ⟨rfl, rfl, rfl⟩

theorem writes_double (c : Char) :
    doubling.literals.Writes (fun c => if c = '\'' then ['\'', '\''] else [c]) c := by
  intro rest
  by_cases quote : c = '\''
  · subst quote
    exact LiteralRules.read_doubled rfl
  · simp only [if_neg quote]
    exact onlyDoubles.read_other quote

/-- A value whose quotes are doubled is one literal. -/
theorem lexes_quoted (value : List Char) :
    doubling.reader.Lexes Ends (quoted '\'' value) [.literal value] :=
  lexes_literal fun c _ => writes_double c

/-- The characters of a value stand for themselves where none is a quote. -/
theorem lexes_bare (free : '\'' ∉ value) :
    doubling.reader.Lexes Ends ('\'' :: (value ++ ['\''])) [.literal value] := by
  have writes : ∀ c ∈ value, doubling.literals.Writes (fun c => [c]) c := by
    intro c member rest
    refine onlyDoubles.read_other ?_
    rintro rfl
    exact free member
  simpa using lexes_literal writes

/-- A word is one token before what is no part of it. -/
theorem lexes_word {word : List Char} (start : isWordStart c = true)
    (letters : word.all isWordChar = true) :
    dialect.reader.Lexes (fun rest => ∀ d ∈ rest.head?, isWordChar d = false) (c :: word)
      [.word (c :: word)] := by
  intro rest ended
  obtain ⟨space, quote, double⟩ := plain_of_isWordStart start
  have run : (word ++ rest).takeWhile isWordChar = word ∧
      (word ++ rest).dropWhile isWordChar = rest := by
    rw [List.all_eq_true] at letters
    rw [List.takeWhile_append_of_pos letters, List.dropWhile_append_of_pos letters]
    cases rest with
    | nil => simp
    | cons d rest => simp [ended d rfl]
  refine Reader.read_cons ?_
  change dialect.next c (word ++ rest) = _
  rw [next, space, if_neg (by decide), if_neg quote, if_neg double, if_pos start, run.1, run.2]

/-- A text that is one word. -/
def isWord : List Char → Bool
  | [] => false
  | c :: rest => isWordStart c && rest.all isWordChar

theorem isWord_append {first rest : List Char} (word : isWord first = true)
    (letters : rest.all isWordChar = true) : isWord (first ++ rest) = true := by
  cases first with
  | nil => cases word
  | cons c first =>
    simp only [isWord, Bool.and_eq_true] at word
    simp only [List.cons_append, isWord, List.all_append, letters, word.1, word.2, Bool.and_true]

/-- What may follow anything: nothing, or a break. -/
def Breaks (rest : List Char) : Prop := ∀ d ∈ rest.head?, isBreak d = true

theorem breaks_cons (breaks : isBreak c = true) : Breaks (c :: rest) := by
  rintro d ⟨⟩
  exact breaks

theorem Breaks.ends (breaks : Breaks rest) : Ends rest := by
  intro quote
  have fine := breaks _ quote
  revert fine
  decide

theorem lexes_isWord {word : List Char} (isWord : isWord word = true) :
    dialect.reader.Lexes Breaks word [.word word] := by
  cases word with
  | nil => cases isWord
  | cons c word =>
    simp only [SqlDialect.isWord, Bool.and_eq_true] at isWord
    exact (lexes_word isWord.1 isWord.2).mono fun rest breaks d first =>
      (parts_of_isBreak (breaks d first)).1

end SqlDialect

end MalloyPublisher.Foundations
