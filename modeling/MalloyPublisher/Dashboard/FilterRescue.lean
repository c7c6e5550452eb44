import MalloyPublisher.Dashboard.FilterLiterals

/-!
# The rescue of filter literals

An annotation is regions, filter literals where a value begins, and other characters. The literals
are put between double quotes and nothing else changes; what is written is not rewritten again. The
rewriting looks for the quote that closes a literal beyond the end of the line, where the language
does not.

## Main definitions

* `segments` — an annotation as regions, literals and other characters
* `Rescued` — literals are rewritten and nothing else
* `Aligned` — where the rewriting reads what the language reads

## Main results

* `segments_source` — the segments of an annotation are its text
* `rewritten_iff` — where literals are rewritten and nothing else
* `rescued_iff` — where they are rewritten once and for all
-/

namespace MalloyPublisher.Dashboard

open Foundations

/-! ## What is asked for -/

/-- A piece of an annotation: a region, a literal behind the character that begins a value, or one
character. -/
inductive Segment
  | region (text : List Char)
  | literal (start : Char) (blanks : List Char) (quote : Char) (body : List Char)
  | char (c : Char)
deriving DecidableEq

/-- What a segment is in the annotation. -/
def Segment.source : Segment → List Char
  | .region text => text
  | .literal start blanks quote body => start :: blanks ++ ['f', quote] ++ body ++ [quote]
  | .char c => [c]

/-- What a segment becomes. -/
def Segment.render : Segment → List Char
  | .literal start blanks _ body => start :: blanks ++ quotedLiteral body
  | segment => segment.source

def textOf (segments : List Segment) : List Char := segments.flatMap Segment.source

def renderAll (segments : List Segment) : List Char := segments.flatMap Segment.render

/-- The segments of an annotation, from left to right. -/
def segments : List Char → List Segment
  | [] => []
  | c :: rest =>
    if 0 < endOfDelimited (c :: rest) then
      .region ((c :: rest).take (endOfDelimited (c :: rest))) ::
        segments ((c :: rest).drop (endOfDelimited (c :: rest)))
    else if isValueStart c then
      match _isLiteral : bareString rest with
      | some literal =>
        .literal c literal.blanks literal.quote literal.body :: segments literal.rest
      | none => .char c :: segments rest
    else .char c :: segments rest
termination_by text => text.length
decreasing_by
  all_goals simp only [List.length_cons, List.length_drop]
  · omega
  · exact Nat.lt_succ_of_lt (length_literalAt _isLiteral)
  · omega
  · omega

/-- The literals of an annotation are rewritten and nothing else: each becomes one string, from
which its text is read back, and nothing is rewritten twice. -/
structure Rescued (text : List Char) : Prop where
  rewritten : quoteFilterLiterals text = renderAll (segments text)
  strings : ∀ start blanks quote body, .literal start blanks quote body ∈ segments text →
    IsString (quotedLiteral body) ∧
      unwrapFilterLiteral (unescape (quotedLiteral body).tail.dropLast) = body
  again : quoteFilterLiterals (quoteFilterLiterals text) = quoteFilterLiterals text

/-! ## Where it holds -/

/-- A text has no quote and no escaped line terminator, as the rewriting reads it. -/
def clear (quote : Char) : List Char → Bool
  | [] => true
  | [c] => c ≠ quote
  | c :: d :: rest =>
    if c = quote then false
    else if c = '\\' then !isLineTerminator d && clear quote rest
    else clear quote (d :: rest)

def Segment.isLiteral : Segment → Bool
  | .literal .. => true
  | _ => false

/-- What stands behind the beginning of a value, for a segment that is one. -/
def Segment.behind (later : List Segment) : Segment → Option (List Char)
  | .region _ => none
  | .literal _ blanks quote body => some (blanks ++ ['f', quote] ++ body ++ quote :: textOf later)
  | .char c => if isValueStart c then some (textOf later) else none

/-- Something holds wherever a value begins, of the text behind it and the segments after it. -/
def EachValue (holds : List Char → List Segment → Prop) (all : List Segment) : Prop :=
  ∀ before segment later rest, all = before ++ segment :: later →
    segment.behind later = some rest → holds rest later

/-- The rewriting reads a literal where the language does. -/
def ReadAlike (rest : List Char) (_later : List Segment) : Prop :=
  bareFilterLiteral rest = bareString rest

/-- Behind a literal that is not closed on its line there is no other literal, before which its
quote would be closed. -/
def NotReopened (rest : List Char) (later : List Segment) : Prop :=
  bareString rest = none →
    ∀ blanks quote open' before start blanks' quote' body after,
      blanks.all isBlank = true → quote = '\'' ∨ quote = '"' →
        later = before ++ .literal start blanks' quote' body :: after →
          before.any Segment.isLiteral = false →
            textOf before = blanks ++ 'f' :: quote :: open' → clear quote (open' ++ [start]) = false

/-- The values of an annotation begin so that they are read alike, and stay so. -/
def Aligned (text : List Char) : Prop :=
  EachValue (fun rest later => ReadAlike rest later ∧ NotReopened rest later) (segments text)

/-! ## Segments and their text -/

section Steps

variable {c : Char} {rest : List Char}

theorem segments_region (delimited : 0 < endOfDelimited (c :: rest)) :
    segments (c :: rest) = .region ((c :: rest).take (endOfDelimited (c :: rest))) ::
      segments ((c :: rest).drop (endOfDelimited (c :: rest))) := by
  rw [segments, if_pos delimited]

theorem segments_char (open' : endOfDelimited (c :: rest) = 0)
    (without : isValueStart c = true → bareString rest = none) :
    segments (c :: rest) = .char c :: segments rest := by
  rw [segments, if_neg (by omega)]
  split_ifs with begins
  · split
    · next found isFound =>
      rw [without begins] at isFound
      cases isFound
    · rfl
  · rfl

theorem quoteFilterLiterals_region (delimited : 0 < endOfDelimited (c :: rest)) :
    quoteFilterLiterals (c :: rest) = (c :: rest).take (endOfDelimited (c :: rest)) ++
      quoteFilterLiterals ((c :: rest).drop (endOfDelimited (c :: rest))) := by
  rw [quoteFilterLiterals, if_pos delimited]

theorem quoteFilterLiterals_literal (open' : endOfDelimited (c :: rest) = 0)
    (begins : isValueStart c = true) {literal : BareLiteral}
    (isLiteral : bareFilterLiteral rest = some literal) :
    quoteFilterLiterals (c :: rest) = c :: (literal.blanks ++ quotedLiteral literal.body) ++
      quoteFilterLiterals literal.rest := by
  rw [quoteFilterLiterals, if_neg (by omega), if_pos begins]
  split
  · next found isFound =>
    rw [isLiteral] at isFound
    cases isFound
    rfl
  · next without =>
    rw [isLiteral] at without
    cases without

theorem quoteFilterLiterals_char (open' : endOfDelimited (c :: rest) = 0)
    (without : isValueStart c = true → bareFilterLiteral rest = none) :
    quoteFilterLiterals (c :: rest) = c :: quoteFilterLiterals rest := by
  rw [quoteFilterLiterals, if_neg (by omega)]
  split_ifs with begins
  · split
    · next found isFound =>
      rw [without begins] at isFound
      cases isFound
    · rfl
  · rfl

/-- The segments of a text are the text. -/
theorem segments_source (text : List Char) : textOf (segments text) = text := by
  fun_induction segments text with
  | case1 => rfl
  | case2 c rest delimited ih =>
    rw [textOf, List.flatMap_cons]
    change _ ++ textOf _ = _
    rw [ih]
    exact List.take_append_drop _ _
  | case3 c rest open' begins literal isLiteral ih =>
    have found := found_of_literalAt isLiteral
    rw [textOf, List.flatMap_cons]
    change _ ++ textOf _ = _
    rw [ih]
    conv_rhs => rw [found.source]
    simp [Segment.source]
  | case4 c rest open' begins without ih =>
    rw [textOf, List.flatMap_cons]
    change _ ++ textOf _ = _
    rw [ih]
    rfl
  | case5 c rest open' other ih =>
    rw [textOf, List.flatMap_cons]
    change _ ++ textOf _ = _
    rw [ih]
    rfl

end Steps

/-! ## The walk -/

section Walk

variable {c quote : Char} {text rest blanks : List Char}

theorem endOfDelimited_eq_zero (closed : ¬Opens (c :: rest)) : endOfDelimited (c :: rest) = 0 := by
  by_contra delimited
  exact closed (endOfDelimited_pos_iff.mp (Nat.pos_of_ne_zero delimited))

/-- A character that begins no region, whatever follows it. -/
theorem not_opens (name : c ≠ '\x60') (heredoc : c ≠ '<') (mark : c ≠ '\'') (doubleMark : c ≠ '"') :
    ¬Opens (c :: rest) := by
  intro opens
  cases opens with
  | name rest => exact name rfl
  | heredoc rest => exact heredoc rfl
  | triple isQuote rest => exact isQuote.elim mark doubleMark
  | string isQuote single => exact isQuote.elim mark doubleMark

theorem not_opens_of_isValueStart (begins : isValueStart c = true) : ¬Opens (c :: rest) := by
  simp only [isValueStart, Bool.or_eq_true, decide_eq_true_eq] at begins
  rcases begins with (rfl | rfl) | rfl <;> exact not_opens (by decide) (by decide) (by decide) (by decide)

theorem not_opens_of_isBlank (blank : isBlank c = true) : ¬Opens (c :: rest) := by
  simp only [isBlank, Bool.or_eq_true, decide_eq_true_eq] at blank
  rcases blank with rfl | rfl <;> exact not_opens (by decide) (by decide) (by decide) (by decide)

theorem not_isValueStart_of_isBlank (blank : isBlank c = true) : isValueStart c = false := by
  simp only [isBlank, Bool.or_eq_true, decide_eq_true_eq] at blank
  rcases blank with rfl | rfl <;> decide

theorem opens_quote (isQuote : quote = '\'' ∨ quote = '"') (rest : List Char) :
    Opens (quote :: rest) := by
  by_cases triple : rest.take 2 = [quote, quote]
  · obtain ⟨more, same⟩ := three_prefix_iff.mpr ⟨rfl, triple⟩
    rw [← same]
    exact .triple isQuote more
  · exact .string isQuote triple

/-- What is not a region's and begins no value stays. -/
theorem quoteFilterLiterals_plain (closed : ¬Opens (c :: rest)) (plain : isValueStart c = false) :
    quoteFilterLiterals (c :: rest) = c :: quoteFilterLiterals rest :=
  quoteFilterLiterals_char (endOfDelimited_eq_zero closed) fun begins => by
    rw [plain] at begins
    cases begins

theorem segments_plain (closed : ¬Opens (c :: rest)) (plain : isValueStart c = false) :
    segments (c :: rest) = .char c :: segments rest :=
  segments_char (endOfDelimited_eq_zero closed) fun begins => by
    rw [plain] at begins
    cases begins

/-- The first character stays. -/
theorem head?_quoteFilterLiterals (text : List Char) :
    (quoteFilterLiterals text).head? = text.head? := by
  cases text with
  | nil => rw [quoteFilterLiterals]
  | cons c rest =>
    by_cases delimited : 0 < endOfDelimited (c :: rest)
    · obtain ⟨n, size⟩ := Nat.exists_eq_add_of_lt delimited
      rw [quoteFilterLiterals_region delimited, size, Nat.zero_add, List.take_succ_cons]
      rfl
    · have open' : endOfDelimited (c :: rest) = 0 := by omega
      by_cases begins : isValueStart c = true
      · cases isLiteral : bareFilterLiteral rest with
        | some literal =>
          rw [quoteFilterLiterals_literal open' begins isLiteral]
          rfl
        | none =>
          rw [quoteFilterLiterals_char open' fun _ => isLiteral]
          rfl
      · rw [quoteFilterLiterals_char open' fun is => absurd is begins]
        rfl

theorem exists_of_head? {first second : List Char} (same : first.head? = second.head?)
    (shape : first = c :: rest) : ∃ more, second = c :: more := by
  rw [shape] at same
  cases second with
  | nil => cases same
  | cons d more =>
    cases same
    exact ⟨more, rfl⟩

/-- A character that begins no region begins none in what is written. -/
theorem not_opens_quoteFilterLiterals (closed : ¬Opens (c :: rest)) :
    ¬Opens (c :: quoteFilterLiterals rest) := by
  intro opens
  generalize written : quoteFilterLiterals rest = later at opens
  cases opens with
  | name => exact closed (.name rest)
  | triple isQuote => exact closed (opens_quote isQuote rest)
  | string isQuote => exact closed (opens_quote isQuote rest)
  | heredoc more =>
    obtain ⟨second, rfl⟩ := exists_of_head? (head?_quoteFilterLiterals rest) written
    by_cases delimited : Opens ('<' :: second)
    · generalize whole : '<' :: second = text at delimited
      cases delimited with
      | heredoc third =>
        cases whole
        exact closed (.heredoc ('<' :: third))
      | name => cases whole
      | triple isQuote =>
        cases whole
        simp at isQuote
      | string isQuote =>
        cases whole
        simp at isQuote
    · rw [quoteFilterLiterals_plain delimited (by decide)] at written
      obtain ⟨third, rfl⟩ := exists_of_head? (head?_quoteFilterLiterals second)
        (List.cons.inj written).2
      exact closed (.heredoc third)

/-- Blanks before an `f` stay. -/
theorem quoteFilterLiterals_blanks (all : blanks.all isBlank = true) (rest : List Char) :
    quoteFilterLiterals (blanks ++ rest) = blanks ++ quoteFilterLiterals rest := by
  induction blanks with
  | nil => rfl
  | cons c blanks ih =>
    rw [List.all_cons, Bool.and_eq_true] at all
    rw [List.cons_append, quoteFilterLiterals_plain (not_opens_of_isBlank all.1)
      (not_isValueStart_of_isBlank all.1), ih all.2, List.cons_append]

theorem segments_blanks (all : blanks.all isBlank = true) (rest : List Char) :
    segments (blanks ++ rest) = blanks.map Segment.char ++ segments rest := by
  induction blanks with
  | nil => rfl
  | cons c blanks ih =>
    rw [List.all_cons, Bool.and_eq_true] at all
    rw [List.cons_append, segments_plain (not_opens_of_isBlank all.1)
      (not_isValueStart_of_isBlank all.1), ih all.2, List.map_cons, List.cons_append]

theorem quoteFilterLiterals_f (rest : List Char) :
    quoteFilterLiterals ('f' :: rest) = 'f' :: quoteFilterLiterals rest :=
  quoteFilterLiterals_plain (not_opens (by decide) (by decide) (by decide) (by decide)) (by decide)

theorem segments_f (rest : List Char) : segments ('f' :: rest) = .char 'f' :: segments rest :=
  segments_plain (not_opens (by decide) (by decide) (by decide) (by decide)) (by decide)

theorem renderAll_chars (chars : List Char) (later : List Segment) :
    renderAll (chars.map Segment.char ++ later) = chars ++ renderAll later := by
  induction chars with
  | nil => rfl
  | cons c chars ih => exact congrArg (c :: ·) ih

/-- What begins with blanks and an `f` began so. -/
theorem exists_blanks_f {more : List Char} (all : blanks.all isBlank = true)
    (shape : quoteFilterLiterals text = blanks ++ 'f' :: more) :
    ∃ rest, text = blanks ++ 'f' :: rest ∧ quoteFilterLiterals rest = more := by
  induction blanks generalizing text with
  | nil =>
    obtain ⟨rest, rfl⟩ := exists_of_head? (head?_quoteFilterLiterals text) shape
    rw [quoteFilterLiterals_f] at shape
    exact ⟨rest, rfl, (List.cons.inj shape).2⟩
  | cons c blanks ih =>
    rw [List.all_cons, Bool.and_eq_true] at all
    obtain ⟨rest, rfl⟩ := exists_of_head? (head?_quoteFilterLiterals text) shape
    rw [quoteFilterLiterals_plain (not_opens_of_isBlank all.1)
      (not_isValueStart_of_isBlank all.1)] at shape
    obtain ⟨more', rfl, same⟩ := ih all.2 (List.cons.inj shape).2
    exact ⟨more', rfl, same⟩

end Walk

/-! ## What is rewritten -/

section Rewritten

variable {holds : List Char → List Segment → Prop} {segment : Segment} {later : List Segment}

theorem eachValue_nil : EachValue holds [] := by
  intro before segment later rest shape
  cases before <;> cases shape

theorem eachValue_cons :
    EachValue holds (segment :: later) ↔
      (∀ rest, segment.behind later = some rest → holds rest later) ∧ EachValue holds later := by
  constructor
  · intro each
    refine ⟨fun rest => each [] segment later rest rfl, ?_⟩
    intro before other after rest shape
    exact each (segment :: before) other after rest (congrArg (segment :: ·) shape)
  · rintro ⟨own, each⟩ before other after rest shape
    cases before with
    | nil =>
      cases shape
      exact own rest
    | cons first before =>
      cases shape
      exact each before other after rest rfl

theorem eachValue_and {other : List Char → List Segment → Prop} {all : List Segment} :
    EachValue (fun rest later => holds rest later ∧ other rest later) all ↔
      EachValue holds all ∧ EachValue other all :=
  ⟨fun each => ⟨fun before segment later rest shape behind =>
      (each before segment later rest shape behind).1, fun before segment later rest shape behind =>
        (each before segment later rest shape behind).2⟩,
    fun both before segment later rest shape behind =>
      ⟨both.1 before segment later rest shape behind,
        both.2 before segment later rest shape behind⟩⟩

variable {c : Char} {rest : List Char}

theorem renderAll_cons (segment : Segment) (later : List Segment) :
    renderAll (segment :: later) = segment.render ++ renderAll later := List.flatMap_cons

/-- What a literal is rewritten to is not how it begins. -/
theorem quoted_ne {blanks first second body : List Char} :
    blanks ++ 'f' :: first ≠ blanks ++ quotedLiteral body ++ second := by
  rw [List.append_assoc]
  intro same
  have behind := List.append_cancel_left same
  cases behind

theorem quoteFilterLiterals_ne_of_found {literal : BareLiteral} {escapes plain : Char → Bool}
    (found : literal.Found escapes plain rest) {second body : List Char} :
    quoteFilterLiterals rest ≠ literal.blanks ++ quotedLiteral body ++ second := by
  rw [found.source, List.append_assoc, List.append_assoc, quoteFilterLiterals_blanks found.blanks]
  change literal.blanks ++ quoteFilterLiterals ('f' :: _) ≠ _
  rw [quoteFilterLiterals_f]
  exact quoted_ne

theorem renderAll_ne_of_found {literal : BareLiteral} {escapes plain : Char → Bool}
    (found : literal.Found escapes plain rest) {second body : List Char} :
    renderAll (segments rest) ≠ literal.blanks ++ quotedLiteral body ++ second := by
  rw [found.source, List.append_assoc, List.append_assoc, segments_blanks found.blanks,
    renderAll_chars]
  change literal.blanks ++ renderAll (segments ('f' :: _)) ≠ _
  rw [segments_f]
  exact quoted_ne

/-- What is rewritten is what the language reads just where both read alike. -/
theorem rewritten_iff (text : List Char) :
    quoteFilterLiterals text = renderAll (segments text) ↔ EachValue ReadAlike (segments text) := by
  fun_induction segments text with
  | case1 => simp [quoteFilterLiterals, renderAll, eachValue_nil]
  | case2 c rest delimited ih =>
    rw [quoteFilterLiterals_region delimited, renderAll_cons, eachValue_cons, ← ih]
    simp [Segment.render, Segment.source, Segment.behind]
  | case3 c rest delimited begins literal isLiteral ih =>
    have open' : endOfDelimited (c :: rest) = 0 := by omega
    have found := found_of_literalAt isLiteral
    have behind : (Segment.literal c literal.blanks literal.quote literal.body).behind
        (segments literal.rest) = some rest := by
      rw [Segment.behind, segments_source, ← found.source]
    rw [eachValue_cons, renderAll_cons, behind, ← ih]
    simp only [Option.some.injEq, forall_eq']
    rw [ReadAlike, isLiteral]
    cases isFilter : bareFilterLiteral rest with
    | some other =>
      have same := literalAt_unique isFilter isLiteral
      subst same
      rw [quoteFilterLiterals_literal open' begins isFilter]
      simp [Segment.render]
    | none =>
      rw [quoteFilterLiterals_char open' fun _ => isFilter]
      have differs : ¬(c :: quoteFilterLiterals rest =
          (Segment.literal c literal.blanks literal.quote literal.body).render ++
            renderAll (segments literal.rest)) := by
        intro same
        exact quoteFilterLiterals_ne_of_found found (List.cons.inj same).2
      simp [differs]
  | case4 c rest delimited begins without ih =>
    have open' : endOfDelimited (c :: rest) = 0 := by omega
    have behind : (Segment.char c).behind (segments rest) = some rest := by
      rw [Segment.behind, if_pos begins, segments_source]
    rw [eachValue_cons, renderAll_cons, behind, ← ih]
    simp only [Option.some.injEq, forall_eq']
    rw [ReadAlike, without]
    cases isFilter : bareFilterLiteral rest with
    | some other =>
      rw [quoteFilterLiterals_literal open' begins isFilter]
      have differs : ¬(c :: (other.blanks ++ quotedLiteral other.body) ++
          quoteFilterLiterals other.rest = (Segment.char c).render ++ renderAll (segments rest)) := by
        intro same
        exact renderAll_ne_of_found (found_of_literalAt isFilter) (List.cons.inj same).2.symm
      exact iff_of_false differs fun both => by cases both.1
    | none =>
      rw [quoteFilterLiterals_char open' fun _ => isFilter]
      simp [Segment.render, Segment.source]
  | case5 c rest delimited plain ih =>
    have open' : endOfDelimited (c :: rest) = 0 := by omega
    rw [quoteFilterLiterals_char open' fun begins => absurd begins plain, eachValue_cons,
      renderAll_cons, ← ih]
    simp [Segment.render, Segment.source, Segment.behind, plain]

end Rewritten

/-! ## What is rewritten twice -/

section Again

variable {c start quote : Char} {text rest blanks open' first second : List Char}

/-- The body of a literal as the rewriting reads it. -/
def closingFilter (quote : Char) (text : List Char) : Option (List Char × List Char) :=
  closing (fun c => !isLineTerminator c) (fun _ => true) quote text

/-- A quote is found behind a text without one, and only there. -/
theorem closingFilter_of_clear (isClear : clear quote (open' ++ [start]) = true)
    (noEscape : start ≠ '\\') :
    (closingFilter quote (open' ++ start :: rest)).isSome = (closingFilter quote rest).isSome := by
  have one : ∀ c, c ≠ quote → c ≠ '\\' →
      ∀ text, (closingFilter quote (c :: text)).isSome = (closingFilter quote text).isSome := by
    intro c notQuote notEscape text
    cases text with
    | nil => simp [closingFilter, closing, notQuote]
    | cons d text =>
      rw [closingFilter, closing, if_neg notQuote, if_neg notEscape, if_pos rfl, Option.isSome_map]
      rfl
  generalize whole : open' ++ [start] = line at isClear
  fun_induction clear quote line generalizing open' with
  | case1 => simp at whole
  | case2 c =>
    have none : open' = [] := by
      have size := congrArg List.length whole
      simpa using size
    subst none
    cases whole
    exact one start (by simpa using isClear) noEscape rest
  | case3 => cases isClear
  | case4 d more notQuote ih =>
    rw [Bool.and_eq_true] at isClear
    cases open' with
    | nil => simp at whole
    | cons e open' =>
      cases open' with
      | nil =>
        simp only [List.cons_append, List.nil_append, List.cons.injEq] at whole
        obtain ⟨rfl, rfl, rfl⟩ := whole
        rw [List.cons_append, List.nil_append, closingFilter, closing.eq_def]
        simp [notQuote, isClear.1, closingFilter]
      | cons f open' =>
        simp only [List.cons_append, List.cons.injEq] at whole
        obtain ⟨rfl, rfl, rfl⟩ := whole
        rw [← ih rfl isClear.2, List.cons_append, List.cons_append, closingFilter, closing,
          if_neg notQuote, if_pos rfl, if_pos isClear.1, Option.isSome_map]
        rfl
  | case5 c d more notQuote notEscape ih =>
    cases open' with
    | nil => simp at whole
    | cons e open' =>
      simp only [List.cons_append, List.cons.injEq] at whole
      obtain ⟨rfl, same⟩ := whole
      rw [← ih same isClear, List.cons_append, one e notQuote notEscape]

/-- Before a text with a quote, or a backslash before a line terminator, nothing behind it counts.
-/
theorem closingFilter_of_not_clear (isNot : clear quote (open' ++ [start]) = false)
    (noQuote : start ≠ quote) :
    (closingFilter quote (open' ++ start :: first)).isSome =
      (closingFilter quote (open' ++ start :: second)).isSome := by
  generalize whole : open' ++ [start] = line at isNot
  fun_induction clear quote line generalizing open' with
  | case1 => cases isNot
  | case2 c =>
    have none : open' = [] := by
      have size := congrArg List.length whole
      simpa using size
    subst none
    cases whole
    simp [noQuote] at isNot
  | case3 d more =>
    cases open' with
    | nil => simp at whole
    | cons e open' =>
      simp only [List.cons_append, List.cons.injEq] at whole
      obtain ⟨rfl, -⟩ := whole
      have found : ∀ text, (closingFilter e (e :: text)).isSome = true := by
        intro text
        cases text <;> simp [closingFilter, closing]
      rw [List.cons_append, List.cons_append, found, found]
  | case4 d more notQuote ih =>
    cases open' with
    | nil => simp at whole
    | cons e open' =>
      cases open' with
      | nil =>
        simp only [List.cons_append, List.nil_append, List.cons.injEq] at whole
        obtain ⟨rfl, rfl, rfl⟩ := whole
        simp only [clear, Bool.and_true, Bool.not_eq_false'] at isNot
        simp [closingFilter, closing, notQuote, isNot]
      | cons f open' =>
        simp only [List.cons_append, List.cons.injEq] at whole
        obtain ⟨rfl, rfl, rfl⟩ := whole
        by_cases ends : isLineTerminator f = true
        · simp [closingFilter, closing, notQuote, ends]
        · have inner := ih rfl (by simpa [ends] using isNot)
          simpa [closingFilter, closing, notQuote, ends] using inner
  | case5 c d more notQuote notEscape ih =>
    cases open' with
    | nil => simp at whole
    | cons e open' =>
      simp only [List.cons_append, List.cons.injEq] at whole
      obtain ⟨rfl, same⟩ := whole
      have inner := ih same isNot
      have one : ∀ text, text ≠ [] → (closingFilter quote (e :: text)).isSome =
          (closingFilter quote text).isSome := by
        intro text some
        cases text with
        | nil => exact absurd rfl some
        | cons d text =>
          rw [closingFilter, closing, if_neg notQuote, if_neg notEscape, if_pos rfl,
            Option.isSome_map]
          rfl
      rw [List.cons_append, List.cons_append, one _ (by simp), one _ (by simp), inner]

/-- What a literal is rewritten to holds both quotes. -/
theorem closingFilter_quoted (isQuote : quote = '\'' ∨ quote = '"')
    (all : blanks.all isBlank = true) (body rest : List Char) :
    (closingFilter quote (blanks ++ quotedLiteral body ++ rest)).isSome = true := by
  induction blanks with
  | nil =>
    change (closingFilter quote ('"' :: 'f' :: '\'' :: (escapeBody body ++ ['\'', '"'] ++ rest))).isSome = _
    rcases isQuote with rfl | rfl
    · generalize escapeBody body ++ ['\'', '"'] ++ rest = more
      cases more <;> simp [closingFilter, closing]
    · simp [closingFilter, closing]
  | cons c blanks ih =>
    rw [List.all_cons, Bool.and_eq_true] at all
    have notEscape : c ≠ '\\' := by
      rintro rfl
      exact absurd all.1 (by decide)
    have notQuote : c ≠ quote := by
      rintro rfl
      rcases isQuote with rfl | rfl <;> exact absurd all.1 (by decide)
    obtain ⟨d, more, shape⟩ : ∃ d more, blanks ++ quotedLiteral body ++ rest = d :: more := by
      cases blanks <;> simp [quotedLiteral]
    have inner := ih all.2
    rw [List.cons_append, List.cons_append, shape, closingFilter, closing, if_neg notQuote,
      if_neg notEscape, if_pos rfl, Option.isSome_map, ← shape]
    exact inner

/-- What the literals of an annotation begin with. -/
theorem of_literal_mem {body : List Char}
    (member : .literal start blanks quote body ∈ segments text) :
    isValueStart start = true ∧ blanks.all isBlank = true := by
  fun_induction segments text with
  | case1 => cases member
  | case2 c rest delimited ih =>
    rcases List.mem_cons.mp member with same | later
    · cases same
    · exact ih later
  | case3 c rest delimited begins literal isLiteral ih =>
    rcases List.mem_cons.mp member with same | later
    · cases same
      exact ⟨begins, (found_of_literalAt isLiteral).blanks⟩
    · exact ih later
  | case4 c rest delimited begins without ih =>
    rcases List.mem_cons.mp member with same | later
    · cases same
    · exact ih later
  | case5 c rest delimited plain ih =>
    rcases List.mem_cons.mp member with same | later
    · cases same
    · exact ih later

theorem not_escape_of_isValueStart (begins : isValueStart start = true) :
    start ≠ '\\' ∧ start ≠ '\'' ∧ start ≠ '"' := by
  refine ⟨?_, ?_, ?_⟩ <;>
  · rintro rfl
    exact absurd begins (by decide)

theorem renderAll_of_no_literal {before : List Segment}
    (none : before.any Segment.isLiteral = false) : renderAll before = textOf before := by
  induction before with
  | nil => rfl
  | cons segment before ih =>
    rw [List.any_cons, Bool.or_eq_false_iff] at none
    have own : segment.render = segment.source := by
      cases segment with
      | literal => cases none.1
      | region => rfl
      | char => rfl
    rw [renderAll_cons, ih none.2, own]
    rfl

/-- The first literal of a list of segments, where there is one. -/
theorem exists_first_literal (all : List Segment) (some : all.any Segment.isLiteral = true) :
    ∃ before start blanks quote body after,
      all = before ++ .literal start blanks quote body :: after ∧
        before.any Segment.isLiteral = false := by
  induction all with
  | nil => cases some
  | cons segment all ih =>
    cases isLiteral : segment.isLiteral with
    | true =>
      cases segment with
      | literal start blanks quote body =>
        exact ⟨[], start, blanks, quote, body, all, rfl, rfl⟩
      | region => cases isLiteral
      | char => cases isLiteral
    | false =>
      rw [List.any_cons, isLiteral, Bool.false_or] at some
      obtain ⟨before, start, blanks, quote, body, after, rfl, none⟩ := ih some
      refine ⟨segment :: before, start, blanks, quote, body, after, rfl, ?_⟩
      rw [List.any_cons, isLiteral, Bool.false_or]
      exact none

theorem bareFilterLiteral_isSome (all : blanks.all isBlank = true)
    (isQuote : quote = '\'' ∨ quote = '"') (rest : List Char) :
    (bareFilterLiteral (blanks ++ 'f' :: quote :: rest)).isSome =
      (closingFilter quote rest).isSome := by
  rw [bareFilterLiteral, literalAt_append all isQuote, Option.isSome_map]
  rfl

/-- The text before a literal behind a filter's mark begins with the mark. -/
theorem exists_open {before after : List Segment} {quote' : Char} {blanks' body : List Char}
    (all : blanks.all isBlank = true) (isQuote : quote = '\'' ∨ quote = '"')
    (shape : segments (blanks ++ 'f' :: quote :: rest) =
      before ++ .literal start blanks' quote' body :: after) :
    ∃ open', textOf before = blanks ++ 'f' :: quote :: open' := by
  have delimited : 0 < endOfDelimited (quote :: rest) :=
    endOfDelimited_pos_iff.mpr (opens_quote isQuote rest)
  obtain ⟨n, size⟩ := Nat.exists_eq_add_of_lt delimited
  rw [segments_blanks all, segments_f, segments_region delimited, size, Nat.zero_add,
    List.take_succ_cons] at shape
  generalize segments ((quote :: rest).drop (n + 1)) = tail at shape
  induction blanks generalizing before with
  | nil =>
    cases before with
    | nil => cases shape
    | cons _ before =>
      cases before with
      | nil => cases shape
      | cons _ before =>
        simp only [List.map_nil, List.nil_append, List.cons_append, List.cons.injEq] at shape
        obtain ⟨rfl, rfl, -⟩ := shape
        exact ⟨rest.take n ++ textOf before, rfl⟩
  | cons c blanks ih =>
    rw [List.all_cons, Bool.and_eq_true] at all
    cases before with
    | nil => cases shape
    | cons _ before =>
      simp only [List.map_cons, List.cons_append, List.cons.injEq] at shape
      obtain ⟨rfl, shape⟩ := shape
      obtain ⟨open', isOpen⟩ := ih all.2 shape
      exact ⟨open', congrArg (c :: ·) isOpen⟩

theorem textOf_append (before later : List Segment) :
    textOf (before ++ later) = textOf before ++ textOf later := List.flatMap_append

theorem renderAll_append (before later : List Segment) :
    renderAll (before ++ later) = renderAll before ++ renderAll later := List.flatMap_append

/-- What is written behind the beginning of a value is no literal where none was. -/
theorem bareFilterLiteral_quoteFilterLiterals_iff
    (alike : EachValue ReadAlike (segments rest)) (without : bareString rest = none)
    (without' : bareFilterLiteral rest = none) :
    bareFilterLiteral (quoteFilterLiterals rest) = none ↔ NotReopened rest (segments rest) := by
  have written := (rewritten_iff rest).mpr alike
  constructor
  · intro none _ blanks quote open' before start blanks' quote' body after all isQuote shape
      noLiteral isOpen
    obtain ⟨begins, all'⟩ := of_literal_mem (shape ▸ List.mem_append_right _ List.mem_cons_self)
    obtain ⟨noEscape, -⟩ := not_escape_of_isValueStart begins
    by_contra isClear
    rw [Bool.not_eq_false] at isClear
    have whole : quoteFilterLiterals rest = blanks ++ 'f' :: quote :: (open' ++
        start :: (blanks' ++ quotedLiteral body ++ renderAll after)) := by
      rw [written, shape, renderAll_append, renderAll_of_no_literal noLiteral, isOpen,
        renderAll_cons]
      simp [Segment.render]
    have some : (bareFilterLiteral (quoteFilterLiterals rest)).isSome = true := by
      rw [whole, bareFilterLiteral_isSome all isQuote, closingFilter_of_clear isClear noEscape]
      exact closingFilter_quoted isQuote all' body _
    rw [none] at some
    cases some
  · intro notReopened
    cases isLiteral : bareFilterLiteral (quoteFilterLiterals rest) with
    | none => rfl
    | some literal =>
      exfalso
      have found := found_of_literalAt isLiteral
      have source := found.source
      rw [List.append_assoc, List.append_assoc] at source
      obtain ⟨rest', rfl, inner⟩ := exists_blanks_f found.blanks source
      obtain ⟨more, rfl⟩ := exists_of_head? (head?_quoteFilterLiterals rest') inner
      cases hasLiteral : (segments
          (literal.blanks ++ 'f' :: literal.quote :: more)).any Segment.isLiteral with
      | false =>
        rw [written, renderAll_of_no_literal hasLiteral, segments_source, without'] at isLiteral
        cases isLiteral
      | true =>
        obtain ⟨before, start, blanks', quote', body, after, shape, noLiteral⟩ :=
          exists_first_literal _ hasLiteral
        obtain ⟨open', isOpen⟩ := exists_open found.blanks found.quote shape
        obtain ⟨begins, -⟩ := of_literal_mem (shape ▸ List.mem_append_right _ List.mem_cons_self)
        obtain ⟨noEscape, noMark, noDoubleMark⟩ := not_escape_of_isValueStart begins
        have noQuote : start ≠ literal.quote := by
          rcases found.quote with same | same <;> rw [same]
          · exact noMark
          · exact noDoubleMark
        have notClear := notReopened without literal.blanks literal.quote open' before start
          blanks' quote' body after found.blanks found.quote shape noLiteral isOpen
        have inside : literal.blanks ++ 'f' :: literal.quote :: more =
            literal.blanks ++ 'f' :: literal.quote :: (open' ++
              start :: (blanks' ++ ['f', quote'] ++ body ++ quote' :: textOf after)) := by
          have all := segments_source (literal.blanks ++ 'f' :: literal.quote :: more)
          rw [shape, textOf_append, isOpen] at all
          rw [← all]
          simp [textOf, Segment.source]
        have outside : quoteFilterLiterals (literal.blanks ++ 'f' :: literal.quote :: more) =
            literal.blanks ++ 'f' :: literal.quote :: (open' ++
              start :: (blanks' ++ quotedLiteral body ++ renderAll after)) := by
          rw [written, shape, renderAll_append, renderAll_of_no_literal noLiteral, isOpen,
            renderAll_cons]
          simp [Segment.render]
        have some := congrArg Option.isSome isLiteral
        rw [outside, bareFilterLiteral_isSome found.blanks found.quote,
          closingFilter_of_not_clear notClear noQuote,
          ← bareFilterLiteral_isSome found.blanks found.quote, ← inside, without'] at some
        cases some

/-- A literal that both read has no line break in it. -/
theorem not_mem_of_readAlike {literal : BareLiteral} (isLiteral : bareString rest = some literal)
    (alike : bareFilterLiteral rest = bareString rest) : '\n' ∉ literal.body := by
  have found := found_of_literalAt isLiteral
  have found' := found_of_literalAt (alike.trans isLiteral)
  exact not_mem_body (by decide) (by decide) found'.closes found.closes

/-- A string that was written stays. -/
theorem quoteFilterLiterals_quoted {body : List Char} (noBreak : '\n' ∉ body) (rest : List Char) :
    quoteFilterLiterals (quotedLiteral body ++ rest) =
      quotedLiteral body ++ quoteFilterLiterals rest := by
  obtain ⟨inside, shape, isEnd⟩ := isString_quotedLiteral noBreak
  have ends := isEnd rest
  have some : quotedLiteral body ++ rest = '"' :: (inside ++ ['"'] ++ rest) := by
    rw [shape]
    simp
  rw [some] at ends ⊢
  rw [quoteFilterLiterals_region (by rw [ends, shape]; simp), ends, ← some, List.take_left,
    List.drop_left]

/-- What is written is written again as it is just where no literal is opened anew. -/
theorem again_iff (text : List Char) (alike : EachValue ReadAlike (segments text)) :
    quoteFilterLiterals (quoteFilterLiterals text) = quoteFilterLiterals text ↔
      EachValue NotReopened (segments text) := by
  fun_induction segments text with
  | case1 => simp [quoteFilterLiterals, eachValue_nil]
  | case2 c rest delimited ih =>
    rw [eachValue_cons] at alike
    have same := head?_quoteFilterLiterals ((c :: rest).drop (endOfDelimited (c :: rest)))
    have stays := endOfDelimited_take same delimited
    have size : ((c :: rest).take (endOfDelimited (c :: rest))).length =
        endOfDelimited (c :: rest) := List.length_take_of_le (endOfDelimited_le _)
    rw [quoteFilterLiterals_region delimited, eachValue_cons, ← ih alike.2]
    generalize quoteFilterLiterals ((c :: rest).drop (endOfDelimited (c :: rest))) = later at *
    obtain ⟨n, isEnd⟩ := Nat.exists_eq_add_of_lt delimited
    rw [Nat.zero_add] at isEnd
    have begins : (c :: rest).take (endOfDelimited (c :: rest)) ++ later =
        c :: (rest.take n ++ later) := by
      rw [isEnd]
      rfl
    rw [begins] at stays ⊢
    rw [quoteFilterLiterals_region (stays ▸ delimited), stays, ← begins, List.take_left' size,
      List.drop_left' size]
    simp [Segment.behind]
  | case3 c rest delimited begins literal isLiteral ih =>
    have open' : endOfDelimited (c :: rest) = 0 := by omega
    have found := found_of_literalAt isLiteral
    have behind : (Segment.literal c literal.blanks literal.quote literal.body).behind
        (segments literal.rest) = some rest := by
      rw [Segment.behind, segments_source, ← found.source]
    rw [eachValue_cons, behind] at alike
    have own : bareFilterLiteral rest = bareString rest := alike.1 rest rfl
    have noBreak := not_mem_of_readAlike isLiteral own
    have noLiteral : ∀ more, bareFilterLiteral (literal.blanks ++ quotedLiteral literal.body ++ more) =
        none := by
      intro more
      have each : ∀ c ∈ literal.blanks, isBlank c = true := List.all_eq_true.mp found.blanks
      rw [bareFilterLiteral, literalAt, List.append_assoc, List.dropWhile_append_of_pos each]
      rfl
    rw [quoteFilterLiterals_literal open' begins (own.trans isLiteral), eachValue_cons, behind,
      ← ih alike.2, List.cons_append, quoteFilterLiterals_char
        (endOfDelimited_eq_zero (not_opens_of_isValueStart begins)) fun _ => noLiteral _,
      List.append_assoc, quoteFilterLiterals_blanks found.blanks,
      quoteFilterLiterals_quoted noBreak]
    simp [NotReopened, isLiteral]
  | case4 c rest delimited begins without ih =>
    have open' : endOfDelimited (c :: rest) = 0 := by omega
    have behind : (Segment.char c).behind (segments rest) = some rest := by
      rw [Segment.behind, if_pos begins, segments_source]
    rw [eachValue_cons, behind] at alike
    have own : bareFilterLiteral rest = none := (alike.1 rest rfl).trans without
    have reopened := bareFilterLiteral_quoteFilterLiterals_iff alike.2 without own
    rw [quoteFilterLiterals_char open' fun _ => own, eachValue_cons, behind, ← ih alike.2]
    simp only [Option.some.injEq, forall_eq']
    rw [← reopened]
    have open'' := endOfDelimited_eq_zero
      (@not_opens_of_isValueStart c (quoteFilterLiterals rest) begins)
    cases isLiteral : bareFilterLiteral (quoteFilterLiterals rest) with
    | none =>
      rw [quoteFilterLiterals_char open'' fun _ => isLiteral]
      simp
    | some literal =>
      have found := found_of_literalAt isLiteral
      have source := found.source
      rw [quoteFilterLiterals_literal open'' begins isLiteral]
      refine iff_of_false (fun same => ?_) fun both => nomatch both.1
      rw [source, List.append_assoc, List.append_assoc] at same
      exact quoted_ne (List.cons.inj same).2.symm
  | case5 c rest delimited plain ih =>
    have open' : endOfDelimited (c :: rest) = 0 := by omega
    have closed : ¬Opens (c :: rest) := fun opens => delimited (endOfDelimited_pos_iff.mpr opens)
    have isPlain : isValueStart c = false := by simpa using plain
    rw [eachValue_cons] at alike
    rw [quoteFilterLiterals_plain closed isPlain, eachValue_cons, ← ih alike.2,
      quoteFilterLiterals_plain (not_opens_quoteFilterLiterals closed) isPlain]
    simp [Segment.behind, isPlain]

end Again

/-! ## Main results -/

/-- No literal that both read has a line break in it. -/
theorem not_mem_body_of_eachValue {text : List Char} {start quote : Char} {blanks body : List Char}
    (alike : EachValue ReadAlike (segments text))
    (member : .literal start blanks quote body ∈ segments text) : '\n' ∉ body := by
  fun_induction segments text with
  | case1 => cases member
  | case2 c rest delimited ih =>
    rw [eachValue_cons] at alike
    rcases List.mem_cons.mp member with same | later
    · cases same
    · exact ih alike.2 later
  | case3 c rest delimited begins literal isLiteral ih =>
    rw [eachValue_cons] at alike
    rcases List.mem_cons.mp member with same | later
    · cases same
      refine not_mem_of_readAlike isLiteral (alike.1 rest ?_)
      rw [Segment.behind, segments_source, ← (found_of_literalAt isLiteral).source]
    · exact ih alike.2 later
  | case4 c rest delimited begins without ih =>
    rw [eachValue_cons] at alike
    rcases List.mem_cons.mp member with same | later
    · cases same
    · exact ih alike.2 later
  | case5 c rest delimited plain ih =>
    rw [eachValue_cons] at alike
    rcases List.mem_cons.mp member with same | later
    · cases same
    · exact ih alike.2 later

/-- The literals of an annotation are rewritten and nothing else, once and for all, just where each
value begins so that it is read as the language reads it and stays so. -/
theorem rescued_iff (text : List Char) : Rescued text ↔ Aligned text := by
  rw [Aligned, eachValue_and]
  constructor
  · intro rescued
    have alike := (rewritten_iff text).mp rescued.rewritten
    exact ⟨alike, (again_iff text alike).mp rescued.again⟩
  · rintro ⟨alike, notReopened⟩
    refine ⟨(rewritten_iff text).mpr alike, ?_, (again_iff text alike).mpr notReopened⟩
    intro start blanks quote body member
    exact ⟨isString_quotedLiteral (not_mem_body_of_eachValue alike member),
      unwrapFilterLiteral_unescape body⟩

/-- A quote that is not closed on its line is closed on a later one. -/
theorem not_rescued_across_lines : ¬Rescued "=f\"a\n=f'b'\"".toList := by
  intro rescued
  have alike := (rewritten_iff _).mp rescued.rewritten
  change EachValue ReadAlike (segments ('=' :: "f\"a\n=f'b'\"".toList)) at alike
  rw [segments_char (by decide) (fun _ => by decide), eachValue_cons] at alike
  have own := alike.1 _ rfl
  rw [segments_source] at own
  revert own
  unfold ReadAlike
  decide

end MalloyPublisher.Dashboard
