import MalloyPublisher.Foundations.Literals
import MalloyPublisher.Foundations.TokenReading
import Mathlib.Data.List.TakeWhile

/-!
# Keyword and value pairs

Settings are handed to a client as one text of pairs `keyword=value` with blanks between them. A
value is bare, and ends before the first blank, or stands between quotes; either way a backslash
escapes what is behind it. A value that is always quoted when it has to be is read as it is meant. A
value that is always written bare is so exactly when it needs no quotes: no value can be spelled so
that its own reading, or that of what follows, gives it back by accident.

## Main definitions

* `KeywordValues.read` — the pairs of a text
* `KeywordValues.bare`, `KeywordValues.spelled` — a pair with a bare value, and with a quoted one
* `KeywordValues.Plain` — a value that needs no quotes

## Main results

* `KeywordValues.read_intercalate` — pairs that are each written to be read are read
* `KeywordValues.read_bare_iff` — bare values are read exactly when all are plain
-/

namespace MalloyPublisher.Foundations

namespace KeywordValues

/-- What separates pairs, and may stand around a `=`. -/
def isBlank (c : Char) : Bool := c ∈ [' ', '\t', '\n', '\x0b', '\x0c', '\r']

/-- A value between quotes. -/
def quotes : LiteralRules where
  quote := '\''
  doubles := false
  escapes := some id
  breaks := true

/-- A bare value, and what follows the blank that ends it. -/
def bareValue : List Char → List Char × List Char
  | [] => ([], [])
  | [c] => if isBlank c || c = '\\' then ([], []) else ([c], [])
  | c :: d :: rest =>
    if isBlank c then ([], d :: rest)
    else if c = '\\' then LiteralRules.put d (bareValue rest)
    else LiteralRules.put c (bareValue (d :: rest))

/-- A value, behind the blanks that may stand behind a `=`. -/
def value (text : List Char) : Option (List Char × List Char) :=
  match text.dropWhile isBlank with
  | [] => some ([], [])
  | c :: rest => if c = '\'' then quotes.read rest else some (bareValue (c :: rest))

def isKeyChar (c : Char) : Bool := c ≠ '=' && !isBlank c

/-- The next pair, or a blank between pairs. -/
def next (c : Char) (text : List Char) : Option (List (List Char × List Char) × List Char) :=
  if isBlank c then some ([], text)
  else
    match ((c :: text).dropWhile isKeyChar).dropWhile isBlank with
    | [] => none
    | d :: rest =>
      if d = '=' then
        (value rest).map fun found => ([((c :: text).takeWhile isKeyChar, found.1)], found.2)
      else none

/-! ## Suffixes -/

section Suffix

variable {text rest : List Char} {c : Char} {found : List Char × List Char}

theorem suffix_bareValue (text : List Char) : (bareValue text).2 <:+ text := by
  fun_induction bareValue text with
  | case1 => exact List.suffix_refl _
  | case2 => exact List.nil_suffix
  | case3 => exact List.nil_suffix
  | case4 c d rest => exact List.suffix_cons _ _
  | case5 d rest _ ih => exact ih.trans (List.suffix_append [_, _] rest)
  | case6 c d rest _ _ ih => exact ih.trans (List.suffix_cons _ _)

theorem bareValue_append {more : List Char} (left : (bareValue text).2 ≠ []) :
    bareValue (text ++ more) = ((bareValue text).1, (bareValue text).2 ++ more) := by
  fun_induction bareValue text with
  | case1 => exact absurd rfl left
  | case2 => exact absurd rfl left
  | case3 => exact absurd rfl left
  | case4 c d rest blank =>
    rw [List.cons_append, List.cons_append, bareValue, if_pos blank]
  | case5 d rest blank ih =>
    rw [List.cons_append, List.cons_append, bareValue, if_neg blank, if_pos rfl, ih left]
    rfl
  | case6 c d rest blank plain ih =>
    rw [List.cons_append, List.cons_append, bareValue, if_neg blank, if_neg plain,
      ← List.cons_append, ih left]
    rfl

theorem suffix_value (isValue : value text = some found) : found.2 <:+ text := by
  have behind := List.dropWhile_suffix isBlank (l := text)
  unfold value at isValue
  cases step : text.dropWhile isBlank with
  | nil =>
    rw [step] at isValue
    cases isValue
    exact List.nil_suffix
  | cons c rest =>
    rw [step] at isValue behind
    simp only at isValue
    split_ifs at isValue with quote
    · exact (LiteralRules.suffix_read isValue).trans ((List.suffix_cons _ _).trans behind)
    · cases isValue
      exact (suffix_bareValue _).trans behind

theorem value_append {more : List Char} (isValue : value text = some found) (left : found.2 ≠ []) :
    value (text ++ more) = some (found.1, found.2 ++ more) := by
  unfold value at isValue ⊢
  cases step : text.dropWhile isBlank with
  | nil =>
    rw [step] at isValue
    cases isValue
    exact absurd rfl left
  | cons c rest =>
    have goesOn : text.dropWhile isBlank ≠ [] := by rw [step]; exact List.cons_ne_nil _ _
    rw [step] at isValue
    rw [(takeWhile_dropWhile_append goesOn more).2, step]
    simp only [List.cons_append] at isValue ⊢
    split_ifs at isValue ⊢ with quote
    · exact LiteralRules.read_settled isValue fun _ => left
    · cases isValue
      rw [← List.cons_append, bareValue_append left]

theorem next_eq_some {tokens : List (List Char × List Char)} :
    next c text = some (tokens, rest) ↔
      isBlank c = true ∧ tokens = [] ∧ rest = text ∨
      isBlank c = false ∧ ∃ behind found,
        ((c :: text).dropWhile isKeyChar).dropWhile isBlank = '=' :: behind ∧
        value behind = some found ∧ tokens = [((c :: text).takeWhile isKeyChar, found.1)] ∧
        rest = found.2 := by
  unfold next
  cases blank : isBlank c with
  | true =>
    simp only [↓reduceIte, Option.some_inj, Prod.mk.injEq, true_and, Bool.true_eq_false, false_and,
      or_false]
    exact and_congr eq_comm eq_comm
  | false =>
    cases step : ((c :: text).dropWhile isKeyChar).dropWhile isBlank with
    | nil => simp
    | cons d behind =>
      by_cases equals : d = '='
      · subst equals
        simp only [Bool.false_eq_true, ↓reduceIte, Option.map_eq_some_iff, Prod.mk.injEq,
          false_and, true_and, false_or, List.cons.injEq]
        constructor
        · rintro ⟨found, isValue, rfl, rfl⟩
          exact ⟨behind, found, rfl, isValue, rfl, rfl⟩
        · rintro ⟨_, found, rfl, isValue, rfl, rfl⟩
          exact ⟨found, isValue, rfl, rfl⟩
      · simp [equals]

theorem suffix_next {tokens : List (List Char × List Char)}
    (step : next c text = some (tokens, rest)) : rest <:+ text := by
  rcases next_eq_some.mp step with ⟨-, -, rfl⟩ | ⟨blank, behind, found, equals, isValue, -, rfl⟩
  · exact List.suffix_refl _
  · have inner := (List.suffix_cons '=' behind)
    rw [← equals] at inner
    have dropped := inner.trans ((List.dropWhile_suffix _).trans (List.dropWhile_suffix _))
    -- the first character is not what follows the `=`
    rcases List.suffix_cons_iff.mp dropped with whole | later
    · have lengths := congrArg List.length whole
      have shorter := congrArg List.length equals
      have bound := ((List.dropWhile_suffix isBlank (l := (c :: text).dropWhile isKeyChar)).trans
        (List.dropWhile_suffix isKeyChar)).length_le
      rw [List.length_cons] at shorter
      omega
    · exact (suffix_value isValue).trans later

theorem settled_next {tokens : List (List Char × List Char)}
    (step : next c text = some (tokens, rest)) (left : rest ≠ []) (more : List Char) :
    next c (text ++ more) = some (tokens, rest ++ more) := by
  rw [next_eq_some] at step ⊢
  rcases step with ⟨blank, rfl, rfl⟩ | ⟨blank, behind, found, equals, isValue, rfl, rfl⟩
  · exact .inl ⟨blank, rfl, rfl⟩
  · have goesOn : ((c :: text).dropWhile isKeyChar).dropWhile isBlank ≠ [] := by
      rw [equals]
      exact List.cons_ne_nil _ _
    have goesOn' : (c :: text).dropWhile isKeyChar ≠ [] := by
      intro empty
      rw [empty] at goesOn
      exact goesOn rfl
    obtain ⟨taken, dropped⟩ := takeWhile_dropWhile_append goesOn' more
    refine .inr ⟨blank, behind ++ more, (found.1, found.2 ++ more), ?_, value_append isValue left, ?_,
      rfl⟩
    · rw [← List.cons_append, dropped, (takeWhile_dropWhile_append goesOn more).2, equals]
      rfl
    · rw [← List.cons_append, taken]

end Suffix

/-- How a client reads its settings. -/
def reader : Reader Char (List Char × List Char) := ⟨next, suffix_next, settled_next⟩

/-- The pairs of a text. -/
abbrev read (text : List Char) : Option (List (List Char × List Char)) := reader.read text

/-! ## Pairs that are written -/

/-- A keyword is read to its end. -/
structure IsKeyword (key : List Char) : Prop where
  given : key ≠ []
  chars : ∀ c ∈ key, isKeyChar c = true ∧ c ≠ '\\' ∧ c ≠ '\''

instance (key : List Char) : Decidable (IsKeyword key) :=
  decidable_of_iff
    (key ≠ [] ∧ key.all (fun c => decide (isKeyChar c = true ∧ c ≠ '\\' ∧ c ≠ '\'')) = true)
    ⟨fun ⟨given, chars⟩ => ⟨given, forall_mem_of_all chars⟩,
      fun ⟨given, chars⟩ => ⟨given, all_of_forall_mem chars⟩⟩

/-- A value that needs no quotes. -/
structure Plain (text : List Char) : Prop where
  free : ∀ c ∈ text, isBlank c = false ∧ c ≠ '\\'
  start : text.head? ≠ some '\''

instance (text : List Char) : Decidable (Plain text) :=
  decidable_of_iff
    (text.all (fun c => decide (isBlank c = false ∧ c ≠ '\\')) = true ∧ text.head? ≠ some '\'')
    ⟨fun ⟨free, start⟩ => ⟨forall_mem_of_all free, start⟩,
      fun ⟨free, start⟩ => ⟨all_of_forall_mem free, start⟩⟩

/-- What may stand behind a pair. -/
def Ends (rest : List Char) : Prop := ∀ c ∈ rest.head?, isBlank c = true

/-- A pair with its value as it stands. -/
def bare (pair : List Char × List Char) : List Char := pair.1 ++ '=' :: pair.2

def escape (c : Char) : List Char := if c = '\\' ∨ c = '\'' then ['\\', c] else [c]

/-- A pair with its value between quotes. -/
def spelled (pair : List Char × List Char) : List Char :=
  pair.1 ++ '=' :: '\'' :: (pair.2.flatMap escape ++ ['\''])

variable {key text rest : List Char} {pairs : List (List Char × List Char)} {c : Char}

theorem ne_of_isKeyChar (isKey : isKeyChar c = true) : c ≠ '=' ∧ isBlank c = false := by
  simpa [isKeyChar] using isKey

/-- A pair is read up to what its value leaves. -/
theorem read_pair (keyword : IsKeyword key) (text : List Char) :
    read (key ++ '=' :: text) =
      (value text).bind fun found => (read found.2).map ((key, found.1) :: ·) := by
  obtain ⟨c, others, rfl⟩ := List.exists_cons_of_ne_nil keyword.given
  have keys : ∀ d ∈ c :: others, isKeyChar d = true := fun d member => (keyword.chars d member).1
  have dropped : (c :: (others ++ '=' :: text)).dropWhile isKeyChar = '=' :: text := by
    rw [← List.cons_append, List.dropWhile_append_of_pos keys]
    rfl
  have taken : (c :: (others ++ '=' :: text)).takeWhile isKeyChar = c :: others := by
    rw [← List.cons_append, List.takeWhile_append_of_pos keys, List.takeWhile_cons_of_neg (by decide),
      List.append_nil]
  have step : reader.next c (others ++ '=' :: text) =
      (value text).map fun found => ([(c :: others, found.1)], found.2) := by
    change next c (others ++ '=' :: text) = _
    rw [next, if_neg (by rw [(ne_of_isKeyChar (keys c List.mem_cons_self)).2]; decide), dropped, taken]
    rfl
  rw [List.cons_append]
  cases isValue : value text with
  | none =>
    rw [isValue] at step
    exact Reader.read_cons_none step
  | some found =>
    rw [isValue, Option.map_some] at step
    exact Reader.read_cons step

/-- The blank behind a pair is nothing by itself. -/
theorem read_tail (ended : Ends rest) : read rest.tail = read rest := by
  cases rest with
  | nil => rfl
  | cons c rest =>
    have blank : isBlank c = true := ended c rfl
    have step : next c rest = some ([], rest) := if_pos blank
    rw [List.tail_cons, read, read, Reader.read_cons step]
    simp

theorem closed_blank : reader.Closed [' '] [] := by
  intro rest
  exact Reader.read_cons rfl

theorem bareValue_blank (blank : isBlank c = true) : bareValue (c :: rest) = ([], rest) := by
  cases rest with
  | nil => simp [bareValue, blank]
  | cons d rest => rw [bareValue, if_pos blank]

theorem bareValue_plain (plain : isBlank c = false ∧ c ≠ '\\') :
    bareValue (c :: rest) = LiteralRules.put c (bareValue rest) := by
  obtain ⟨notBlank, notEscape⟩ := plain
  cases rest with
  | nil => simp [bareValue, notBlank, notEscape, LiteralRules.put]
  | cons d rest => rw [bareValue, if_neg (by rw [notBlank]; decide), if_neg notEscape]

/-- What is in front of a bare value's first blank and first backslash is read as it stands. -/
theorem bareValue_append_plain (free : ∀ c ∈ text, isBlank c = false ∧ c ≠ '\\') :
    bareValue (text ++ rest) = (text ++ (bareValue rest).1, (bareValue rest).2) := by
  induction text with
  | nil => rfl
  | cons c text ih =>
    rw [List.cons_append, bareValue_plain (free c List.mem_cons_self),
      ih fun d member => free d (List.mem_cons_of_mem _ member)]
    rfl

theorem bareValue_ends (ended : Ends rest) : bareValue rest = ([], rest.tail) := by
  cases rest with
  | nil => rfl
  | cons c rest => exact bareValue_blank (ended c rfl)

theorem dropWhile_start (notBlank : isBlank c = false) :
    (c :: rest).dropWhile isBlank = c :: rest :=
  List.dropWhile_cons_of_neg (by rw [notBlank]; decide)

/-- A plain value is read as it stands. -/
theorem value_plain (given : text ≠ []) (plain : Plain text) (ended : Ends rest) :
    value (text ++ rest) = some (text, rest.tail) := by
  obtain ⟨c, text, rfl⟩ := List.exists_cons_of_ne_nil given
  have start : c ≠ '\'' := fun same => plain.start (congrArg some same)
  have whole : bareValue (c :: text ++ rest) = (c :: text, rest.tail) := by
    rw [bareValue_append_plain plain.free, bareValue_ends ended, List.append_nil]
  unfold value
  rw [List.cons_append, dropWhile_start (plain.free c List.mem_cons_self).1]
  simp only [if_neg start]
  rw [← List.cons_append, whole]

theorem lexes_bare (keyword : IsKeyword key) (given : text ≠ []) (plain : Plain text) :
    reader.Lexes Ends (bare (key, text)) [(key, text)] := by
  intro rest ended
  have isRead := read_pair keyword (text ++ rest)
  rw [value_plain given plain ended, Option.bind_some, read_tail ended] at isRead
  simpa [bare] using isRead

theorem writes_escape (c : Char) : quotes.Writes escape c := by
  intro rest
  unfold escape
  have escapes : quotes.escapes = some id := rfl
  split_ifs with special
  · exact LiteralRules.read_escaped escapes (by decide)
  · rw [not_or] at special
    exact LiteralRules.read_plain special.2 (fun same => absurd same special.1) fun _ => rfl

theorem lexes_spelled (keyword : IsKeyword key) :
    reader.Lexes Ends (spelled (key, text)) [(key, text)] := by
  intro rest _
  have isValue : value ('\'' :: (text.flatMap escape ++ '\'' :: rest)) = some (text, rest) := by
    unfold value
    rw [dropWhile_start (by decide)]
    exact LiteralRules.read_flatMap (fun c _ => writes_escape c) (fun doubles => absurd doubles (by decide))
  have isRead := read_pair keyword ('\'' :: (text.flatMap escape ++ '\'' :: rest))
  rw [isValue, Option.bind_some] at isRead
  simpa [spelled] using isRead

theorem ends_blank (rest : List Char) : Ends (' ' :: rest) := by
  intro c first
  cases first
  rfl

theorem ends_nil : Ends [] := by
  intro c first
  cases first

theorem intercalate_single (pairs : List (List Char × List Char)) :
    [].intercalate (pairs.map fun pair => [pair]) = pairs := by
  induction pairs with
  | nil => rfl
  | cons pair pairs ih =>
    cases pairs with
    | nil => rfl
    | cons other pairs =>
      rw [List.map_cons] at ih ⊢
      rw [List.map_cons, List.intercalate_cons_cons, ih]
      rfl

/-- Pairs that are each written to be read are read. -/
theorem read_intercalate {write : List Char × List Char → List Char}
    (lexes : ∀ pair ∈ pairs, reader.Lexes Ends (write pair) [pair]) :
    read ([' '].intercalate (pairs.map write)) = some pairs := by
  have whole := (Reader.Lexes.intercalate closed_blank ends_blank lexes).read ends_nil
  rwa [intercalate_single] at whole

/-! ## Values that are not plain -/

/-- A character that is never read where it stands. -/
def isSpecial (c : Char) : Bool := isBlank c || c = '\\' || c = '\''

/-- What follows a bare value is at the end, or is a blank and the next keyword. -/
structure Follows (rest : List Char) : Prop where
  ended : Ends rest
  next : ∀ c ∈ rest.tail.head?, isSpecial c = false

/-- A value that ends in an escaped blank goes on with what follows. -/
theorem Follows.bareValue_tail (follows : Follows rest) (special : isSpecial c = true) :
    (bareValue rest.tail).1.head? ≠ some c := by
  cases behind : rest.tail with
  | nil => simp [bareValue]
  | cons d later =>
    have plain : isSpecial d = false := follows.next d (by rw [behind]; rfl)
    have notSpecial : isBlank d = false ∧ d ≠ '\\' := by
      simp only [isSpecial, Bool.or_eq_false_iff, decide_eq_false_iff_not] at plain
      exact plain.1
    rw [bareValue_plain notSpecial]
    intro same
    cases same
    rw [plain] at special
    cases special

theorem forall_isSpecial_append {first : Char} {others more : List Char}
    (special : ∀ c ∈ first :: others, isSpecial c = true) (also : ∀ c ∈ more, isSpecial c = true) :
    ∀ c ∈ others ++ more, isSpecial c = true := fun c member =>
  (List.mem_append.mp member).elim (fun inside => special c (List.mem_cons_of_mem _ inside)) (also c)

/-- What has been put off is never caught up with: a bare value cannot be longer than its text by
characters that are only read when they are escaped. -/
theorem bareValue_ne (follows : Follows rest) {owed : List Char} (owes : owed ≠ [])
    (special : ∀ c ∈ owed, isSpecial c = true) : (bareValue (text ++ rest)).1 ≠ owed ++ text := by
  induction length : text.length using Nat.strongRecOn generalizing text owed with
  | _ size ih =>
    obtain ⟨first, others, rfl⟩ := List.exists_cons_of_ne_nil owes
    intro isRead
    cases text with
    | nil =>
      rw [List.nil_append, bareValue_ends follows.ended] at isRead
      cases isRead
    | cons c text =>
      by_cases blank : isBlank c = true
      · rw [List.cons_append, bareValue_blank blank] at isRead
        cases isRead
      · by_cases escaped : c = '\\'
        · subst escaped
          cases text with
          | nil =>
            -- the backslash escapes the blank in front of the next keyword
            cases rest with
            | nil => cases isRead
            | cons d rest =>
              rw [List.singleton_append, bareValue, if_neg blank, if_pos rfl] at isRead
              have behind : (bareValue rest).1 = others ++ ['\\'] := (List.cons.inj isRead).2
              cases others with
              | nil => exact follows.bareValue_tail rfl (congrArg List.head? behind)
              | cons e others =>
                exact follows.bareValue_tail (special e (by simp)) (congrArg List.head? behind)
          | cons d text =>
            rw [List.cons_append, List.cons_append, bareValue, if_neg blank, if_pos rfl] at isRead
            have isFirst : d = first := (List.cons.inj isRead).1
            have behind : (bareValue (text ++ rest)).1 = (others ++ ['\\', d]) ++ text := by
              rw [List.append_assoc]
              exact (List.cons.inj isRead).2
            refine ih text.length ?_ (by simp) ?_ rfl behind
            · rw [← length, List.length_cons, List.length_cons]
              omega
            · exact forall_isSpecial_append special (List.forall_mem_cons.mpr ⟨rfl,
                List.forall_mem_singleton.mpr (isFirst ▸ special first List.mem_cons_self)⟩)
        · have plain : isBlank c = false ∧ c ≠ '\\' := ⟨by simpa using blank, escaped⟩
          rw [List.cons_append, bareValue_plain plain] at isRead
          have isFirst : c = first := (List.cons.inj isRead).1
          have behind : (bareValue (text ++ rest)).1 = (others ++ [c]) ++ text := by
            rw [List.append_assoc]
            exact (List.cons.inj isRead).2
          refine ih text.length (by rw [← length]; simp) (by simp) ?_ rfl behind
          exact forall_isSpecial_append special
            (List.forall_mem_singleton.mpr (isFirst ▸ special first List.mem_cons_self))

/-- What is quoted from the next keyword on begins with it. -/
theorem Follows.quotes_tail (follows : Follows rest) {found : List Char × List Char}
    (isRead : quotes.read rest.tail = some found) : ∃ c later, found.1 = c :: later ∧
      isSpecial c = false := by
  cases behind : rest.tail with
  | nil =>
    rw [behind] at isRead
    cases isRead
  | cons d later =>
    have plain : isSpecial d = false := follows.next d (by rw [behind]; rfl)
    have parts := plain
    simp only [isSpecial, Bool.or_eq_false_iff, decide_eq_false_iff_not] at parts
    have goesOn : quotes.read (d :: later) = (quotes.read later).map (LiteralRules.put d) :=
      LiteralRules.read_plain parts.2 (fun same => absurd same parts.1.2) fun _ => rfl
    rw [behind, goesOn, Option.map_eq_some_iff] at isRead
    obtain ⟨inner, -, rfl⟩ := isRead
    exact ⟨d, inner.1, rfl, plain⟩

/-- The same between quotes, which what follows would have to close. -/
theorem quotes_ne (follows : Follows rest) {owed left : List Char} (owes : owed ≠ [])
    (special : ∀ c ∈ owed, isSpecial c = true) :
    quotes.read (text ++ rest) ≠ some (owed ++ text, left) := by
  induction length : text.length using Nat.strongRecOn generalizing text owed with
  | _ size ih =>
    obtain ⟨first, others, rfl⟩ := List.exists_cons_of_ne_nil owes
    intro isRead
    -- nothing that is owed is where the next keyword begins
    have notBehind : ∀ {owed : List Char}, (∀ c ∈ owed, isSpecial c = true) →
        quotes.read rest.tail ≠ some (owed, left) := by
      intro owed special isRead
      obtain ⟨c, later, rfl, plain⟩ := follows.quotes_tail isRead
      have isSpecial := special c List.mem_cons_self
      rw [plain] at isSpecial
      cases isSpecial
    cases text with
    | nil =>
      cases rest with
      | nil => cases isRead
      | cons d rest =>
        have blank : isBlank d = true := follows.ended d rfl
        have goesOn : quotes.read (d :: rest) = (quotes.read rest).map (LiteralRules.put d) := by
          refine LiteralRules.read_plain ?_ (fun same => ?_) fun _ => rfl
          · rintro rfl
            cases blank
          · rw [same] at blank
            cases blank
        rw [List.nil_append, goesOn, List.append_nil, Option.map_eq_some_iff] at isRead
        obtain ⟨⟨found, left'⟩, isFound, same⟩ := isRead
        cases same
        exact notBehind (fun c member => special c (List.mem_cons_of_mem _ member)) isFound
    | cons c text =>
      by_cases closes : c = '\''
      · subst closes
        have ends : quotes.read ('\'' :: (text ++ rest)) = some ([], text ++ rest) :=
          LiteralRules.read_quote fun doubles => absurd doubles (by decide)
        rw [List.cons_append, ends] at isRead
        cases isRead
      · by_cases escaped : c = '\\'
        · subst escaped
          have goesOn : ∀ d later, quotes.read ('\\' :: d :: later) =
              (quotes.read later).map (LiteralRules.put d) := by
            intro d later
            have escapes : quotes.escapes = some id := rfl
            exact LiteralRules.read_escaped escapes (by decide)
          cases text with
          | nil =>
            cases rest with
            | nil => cases isRead
            | cons d rest =>
              rw [List.singleton_append, goesOn, Option.map_eq_some_iff] at isRead
              obtain ⟨⟨found, left'⟩, isFound, same⟩ := isRead
              cases same
              refine notBehind ?_ isFound
              intro e member
              rcases List.mem_append.mp member with member | member
              · exact special e (List.mem_cons_of_mem _ member)
              · rw [List.mem_singleton.mp member]
                rfl
          | cons d text =>
            rw [List.cons_append, List.cons_append, goesOn, Option.map_eq_some_iff] at isRead
            obtain ⟨⟨found, left'⟩, isFound, same⟩ := isRead
            have isFirst : d = first := (List.cons.inj (Prod.mk.inj same).1).1
            have behind : found = (others ++ ['\\', d]) ++ text := by
              rw [List.append_assoc]
              exact (List.cons.inj (Prod.mk.inj same).1).2
            have isLeft : left' = left := (Prod.mk.inj same).2
            rw [behind, isLeft] at isFound
            refine ih text.length ?_ (by simp) ?_ rfl isFound
            · rw [← length, List.length_cons, List.length_cons]
              omega
            · exact forall_isSpecial_append special (List.forall_mem_cons.mpr ⟨rfl,
                List.forall_mem_singleton.mpr (isFirst ▸ special first List.mem_cons_self)⟩)
        · have goesOn : quotes.read (c :: (text ++ rest)) =
              (quotes.read (text ++ rest)).map (LiteralRules.put c) :=
            LiteralRules.read_plain closes (fun same => absurd same escaped) fun _ => rfl
          rw [List.cons_append, goesOn, Option.map_eq_some_iff] at isRead
          obtain ⟨⟨found, left'⟩, isFound, same⟩ := isRead
          have isFirst : c = first := (List.cons.inj (Prod.mk.inj same).1).1
          have behind : found = (others ++ [c]) ++ text := by
            rw [List.append_assoc]
            exact (List.cons.inj (Prod.mk.inj same).1).2
          have isLeft : left' = left := (Prod.mk.inj same).2
          rw [behind, isLeft] at isFound
          refine ih text.length (by rw [← length]; simp) (by simp) ?_ rfl isFound
          exact forall_isSpecial_append special
            (List.forall_mem_singleton.mpr (isFirst ▸ special first List.mem_cons_self))

/-- A bare value that is read as it stands has no blank and no backslash. -/
theorem free_of_bareValue (follows : Follows rest) (isRead : (bareValue (text ++ rest)).1 = text) :
    ∀ c ∈ text, isBlank c = false ∧ c ≠ '\\' := by
  induction text with
  | nil => simp
  | cons c text ih =>
    by_cases blank : isBlank c = true
    · rw [List.cons_append, bareValue_blank blank] at isRead
      cases isRead
    · by_cases escaped : c = '\\'
      · subst escaped
        cases text with
        | nil =>
          cases rest with
          | nil => cases isRead
          | cons d rest =>
            rw [List.singleton_append, bareValue, if_neg blank, if_pos rfl] at isRead
            have isBackslash : d = '\\' := (List.cons.inj isRead).1
            have isBlank := follows.ended d rfl
            rw [isBackslash] at isBlank
            cases isBlank
        | cons d text =>
          rw [List.cons_append, List.cons_append, bareValue, if_neg blank, if_pos rfl] at isRead
          have isBackslash : d = '\\' := (List.cons.inj isRead).1
          have behind : (bareValue (text ++ rest)).1 = ['\\'] ++ text := by
            rw [(List.cons.inj isRead).2, isBackslash]
            rfl
          refine absurd behind (bareValue_ne follows (List.cons_ne_nil _ _) ?_)
          intro e member
          rw [List.mem_singleton.mp member]
          rfl
      · have plain : isBlank c = false ∧ c ≠ '\\' := ⟨by simpa using blank, escaped⟩
        rw [List.cons_append, bareValue_plain plain] at isRead
        have inner := ih (List.cons.inj isRead).2
        intro d member
        rcases List.mem_cons.mp member with rfl | member
        · exact plain
        · exact inner d member

/-- A value that is read as it stands is plain. -/
theorem plain_of_value (follows : Follows rest) (given : text ≠ []) {left : List Char}
    (isRead : value (text ++ rest) = some (text, left)) : Plain text := by
  have split : text.takeWhile isBlank ++ text.dropWhile isBlank = text := List.takeWhile_append_dropWhile
  have blanks : ∀ c ∈ text.takeWhile isBlank, isSpecial c = true := by
    intro c member
    have blank : isBlank c = true := List.mem_takeWhile_imp member
    simp [isSpecial, blank]
  unfold value at isRead
  cases step : text.dropWhile isBlank with
  | nil =>
    -- all blanks: what is read is what follows
    rw [step, List.append_nil] at split
    have allBlank : ∀ c ∈ text, isBlank c = true := by
      intro c member
      rw [← split] at member
      exact List.mem_takeWhile_imp member
    obtain ⟨first, others, rfl⟩ := List.exists_cons_of_ne_nil given
    rw [List.dropWhile_append_of_pos allBlank] at isRead
    have behind : rest.dropWhile isBlank = rest.tail := by
      cases rest with
      | nil => rfl
      | cons d rest =>
        rw [List.dropWhile_cons_of_pos (follows.ended d rfl), List.tail_cons]
        cases rest with
        | nil => rfl
        | cons e rest =>
          refine dropWhile_start ?_
          have plain := follows.next e rfl
          simp only [isSpecial, Bool.or_eq_false_iff] at plain
          exact plain.1.1
    rw [behind] at isRead
    cases tail : rest.tail with
    | nil =>
      rw [tail] at isRead
      cases isRead
    | cons e later =>
      have plain := follows.next e (by rw [tail]; rfl)
      simp only [isSpecial, Bool.or_eq_false_iff, decide_eq_false_iff_not] at plain
      rw [tail] at isRead
      simp only [if_neg plain.2, Option.some_inj] at isRead
      refine absurd ?_ (follows.bareValue_tail (c := first) (by
        simp [isSpecial, allBlank first List.mem_cons_self]))
      rw [tail, isRead]
      rfl
  | cons c later =>
    rw [step] at split
    have goesOn : text.dropWhile isBlank ≠ [] := by rw [step]; exact List.cons_ne_nil _ _
    rw [(takeWhile_dropWhile_append goesOn rest).2, step, List.cons_append] at isRead
    simp only at isRead
    split_ifs at isRead with quote
    · subst quote
      have special : ∀ d ∈ text.takeWhile isBlank ++ ['\''], isSpecial d = true := by
        intro d member
        rcases List.mem_append.mp member with member | member
        · exact blanks d member
        · rw [List.mem_singleton.mp member]
          rfl
      have differs : quotes.read (later ++ rest) ≠
          some (text.takeWhile isBlank ++ ['\''] ++ later, left) := quotes_ne follows (by simp) special
      rw [List.append_assoc, List.singleton_append, split] at differs
      exact absurd isRead differs
    · have whole : (bareValue (c :: later ++ rest)).1 = text := congrArg Prod.fst (Option.some.inj isRead)
      by_cases noBlanks : text.takeWhile isBlank = []
      · rw [noBlanks, List.nil_append] at split
        rw [split] at whole
        refine ⟨free_of_bareValue follows whole, ?_⟩
        rw [← split]
        exact fun same => quote (Option.some.inj same)
      · have differs : (bareValue (c :: later ++ rest)).1 ≠ text.takeWhile isBlank ++ c :: later :=
          bareValue_ne follows noBlanks blanks
        rw [split] at differs
        exact absurd whole differs

/-- Bare values are read as they stand exactly when all of them are plain. -/
theorem read_bare_iff (keywords : ∀ pair ∈ pairs, IsKeyword pair.1)
    (given : ∀ pair ∈ pairs, pair.2 ≠ []) :
    read ([' '].intercalate (pairs.map bare)) = some pairs ↔ ∀ pair ∈ pairs, Plain pair.2 := by
  constructor
  · intro isRead
    induction pairs with
    | nil => simp
    | cons pair pairs ih =>
      obtain ⟨key, text⟩ := pair
      have keyword : IsKeyword key := keywords _ List.mem_cons_self
      have others : ∀ pair ∈ pairs, IsKeyword pair.1 :=
        fun pair member => keywords pair (List.mem_cons_of_mem _ member)
      -- what follows the value of the first pair
      obtain ⟨rest, split, follows, later⟩ : ∃ rest, [' '].intercalate (((key, text) :: pairs).map bare) =
          key ++ '=' :: (text ++ rest) ∧ Follows rest ∧
          read rest = read ([' '].intercalate (pairs.map bare)) := by
        cases pairs with
        | nil => exact ⟨[], by simp [bare], ⟨ends_nil, by simp⟩, rfl⟩
        | cons other pairs =>
          refine ⟨' ' :: [' '].intercalate ((other :: pairs).map bare), ?_, ⟨ends_blank _, ?_⟩, ?_⟩
          · simp [bare, List.intercalate_cons_cons]
          · obtain ⟨c, key', isKey⟩ := List.exists_cons_of_ne_nil (others other List.mem_cons_self).given
            have keyChar := (others other List.mem_cons_self).chars c (by rw [isKey]; exact List.mem_cons_self)
            have starts : ∃ later, [' '].intercalate ((other :: pairs).map bare) = c :: later := by
              cases pairs with
              | nil => exact ⟨_, by rw [List.map_singleton, List.intercalate_singleton, bare, isKey]; rfl⟩
              | cons next pairs =>
                exact ⟨_, by rw [List.map_cons, List.map_cons, List.intercalate_cons_cons, bare, isKey]; rfl⟩
            obtain ⟨later, starts⟩ := starts
            rw [starts]
            intro d first
            cases first
            simp [isSpecial, (ne_of_isKeyChar keyChar.1).2, keyChar.2]
          · exact (read_tail (ends_blank _)).symm
      rw [split, read_pair keyword] at isRead
      obtain ⟨⟨found, left⟩, isValue, isRead⟩ := Option.bind_eq_some_iff.mp isRead
      obtain ⟨remaining, isRemaining, same⟩ := Option.map_eq_some_iff.mp isRead
      cases same
      have plain := plain_of_value follows (given _ List.mem_cons_self) isValue
      rw [value_plain (given _ List.mem_cons_self) plain follows.ended] at isValue
      cases isValue
      rw [read_tail follows.ended, later] at isRemaining
      have inner := ih others (fun pair member => given pair (List.mem_cons_of_mem _ member)) isRemaining
      intro pair member
      rcases List.mem_cons.mp member with rfl | member
      · exact plain
      · exact inner pair member
  · intro plain
    exact read_intercalate fun pair member =>
      lexes_bare (keywords pair member) (given pair member) (plain pair member)

end KeywordValues

end MalloyPublisher.Foundations
