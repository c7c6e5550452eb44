import Mathlib.Data.List.Basic

/-!
# Reading a text token by token

A reader takes tokens off the front of a text until the text is used up. Most texts a program
writes are put together from fixed pieces and from values written between them, so what matters is
when a piece can be read by itself: it is closed when nothing that follows can change how it is
read, and fixed pieces that end in a token of their own are closed as soon as they are read alone.

## Main definitions

* `Reader` — how the next tokens are taken off a text
* `Reader.read` — the tokens of a text
* `Reader.Lexes`, `Reader.Closed` — a piece that is read as its tokens before what follows

## Main results

* `Reader.closed_of_read` — a piece that ends in a token of its own is closed
* `Reader.Closed.read_eq_some` — what stands behind a closed piece decides how the whole is read
-/

namespace MalloyPublisher.Foundations

section Members

variable {α : Type*} {items : List α} {p : α → Prop} [DecidablePred p]

/-- What is checked of each item of a fixed list. -/
theorem forall_mem_of_all (all : items.all (fun item => decide (p item)) = true) :
    ∀ item ∈ items, p item :=
  fun item member => of_decide_eq_true (List.all_eq_true.mp all item member)

theorem all_of_forall_mem (each : ∀ item ∈ items, p item) :
    items.all (fun item => decide (p item)) = true :=
  List.all_eq_true.mpr fun item member => decide_eq_true (each item member)

theorem decide_ne_of_not_mem {β : Type*} [DecidableEq β] {text : List β} {symbol : β}
    (absent : symbol ∉ text) : ∀ c ∈ text, decide (c ≠ symbol) = true :=
  fun _ member => decide_eq_true fun same => absent (same ▸ member)

end Members

/-- A run of symbols that ends before the text is the same in a longer text. -/
theorem takeWhile_dropWhile_append {σ : Type*} {p : σ → Bool} {text : List σ}
    (left : text.dropWhile p ≠ []) (more : List σ) :
    (text ++ more).takeWhile p = text.takeWhile p ∧
      (text ++ more).dropWhile p = text.dropWhile p ++ more := by
  induction text with
  | nil => exact absurd rfl left
  | cons c text ih =>
    by_cases run : p c = true
    · rw [List.dropWhile_cons_of_pos run] at left
      obtain ⟨taken, dropped⟩ := ih left
      simp [run, taken, dropped]
    · simp [run]

/-- How tokens are taken off a text, given its first symbol and the rest. -/
structure Reader (σ τ : Type*) where
  next : σ → List σ → Option (List τ × List σ)
  /-- What is left is an end of the text. -/
  suffix : ∀ {c text tokens rest}, next c text = some (tokens, rest) → rest <:+ text
  /-- A token that ends before the text does is read the same in a longer text. -/
  settled : ∀ {c text tokens rest}, next c text = some (tokens, rest) → rest ≠ [] →
    ∀ more, next c (text ++ more) = some (tokens, rest ++ more)

namespace Reader

variable {σ τ : Type*} {reader : Reader σ τ} {c : σ} {text rest first second : List σ}
  {tokens later : List τ}

variable (reader) in
/-- The tokens of a text, or `none` where it cannot be read. -/
def readFrom : ℕ → List σ → Option (List τ)
  | _, [] => some []
  | 0, _ :: _ => none
  | fuel + 1, c :: text =>
    match reader.next c text with
    | some (tokens, rest) => (readFrom fuel rest).map (tokens ++ ·)
    | none => none

variable (reader) in
def read (text : List σ) : Option (List τ) := reader.readFrom text.length text

theorem readFrom_eq {fuel : ℕ} (enough : text.length ≤ fuel) :
    reader.readFrom fuel text = reader.read text := by
  induction fuel using Nat.strongRecOn generalizing text with
  | _ fuel ih =>
    cases text with
    | nil => cases fuel <;> rfl
    | cons c text =>
      cases fuel with
      | zero => exact absurd enough (by simp)
      | succ fuel =>
        rw [read, List.length_cons, readFrom, readFrom]
        cases step : reader.next c text with
        | none => rfl
        | some found =>
          have shorter : found.2.length ≤ text.length := (reader.suffix step).length_le
          have enough : text.length ≤ fuel := Nat.le_of_succ_le_succ enough
          simp only
          rw [ih fuel (Nat.lt_succ_self _) (Nat.le_trans shorter enough),
            ih text.length (Nat.lt_succ_of_le enough) shorter]

@[simp] theorem read_nil : reader.read [] = some [] := rfl

theorem read_cons (step : reader.next c text = some (tokens, rest)) :
    reader.read (c :: text) = (reader.read rest).map (tokens ++ ·) := by
  rw [read, List.length_cons, readFrom, step]
  simp only
  rw [readFrom_eq (reader.suffix step).length_le]

theorem read_cons_none (step : reader.next c text = none) : reader.read (c :: text) = none := by
  rw [read, List.length_cons, readFrom, step]

/-! ## Pieces -/

variable (reader) in
/-- A piece that is read as its tokens before anything that meets a condition. -/
def Lexes (ends : List σ → Prop) (text : List σ) (tokens : List τ) : Prop :=
  ∀ rest, ends rest → reader.read (text ++ rest) = (reader.read rest).map (tokens ++ ·)

variable (reader) in
/-- A piece that is read as its tokens whatever follows. -/
def Closed (text : List σ) (tokens : List τ) : Prop :=
  ∀ rest, reader.read (text ++ rest) = (reader.read rest).map (tokens ++ ·)

variable {ends : List σ → Prop}

theorem Closed.lexes (closed : reader.Closed text tokens) : reader.Lexes ends text tokens :=
  fun rest _ => closed rest

theorem closed_nil : reader.Closed [] [] := by
  intro rest
  simp

/-- What may stand before less may stand before what is wanted. -/
theorem Lexes.mono {stricter : List σ → Prop} (lexes : reader.Lexes ends text tokens)
    (stronger : ∀ rest, stricter rest → ends rest) : reader.Lexes stricter text tokens :=
  fun rest ended => lexes rest (stronger rest ended)

theorem Closed.append (closed : reader.Closed first tokens) (closed' : reader.Closed second later) :
    reader.Closed (first ++ second) (tokens ++ later) := by
  intro rest
  rw [List.append_assoc, closed, closed', Option.map_map]
  congr 1
  funext read
  simp

/-- A closed piece before any other. -/
theorem Closed.append_lexes (closed : reader.Closed first tokens)
    (lexes : reader.Lexes ends second later) :
    reader.Lexes ends (first ++ second) (tokens ++ later) := by
  intro rest ended
  rw [List.append_assoc, closed, lexes rest ended, Option.map_map]
  congr 1
  funext read
  simp

/-- A piece is closed by a closed one that it may stand before. -/
theorem Lexes.append_closed (lexes : reader.Lexes ends first tokens)
    (closed : reader.Closed second later) (ended : ∀ rest, ends (second ++ rest)) :
    reader.Closed (first ++ second) (tokens ++ later) := by
  intro rest
  rw [List.append_assoc, lexes _ (ended rest), closed, Option.map_map]
  congr 1
  funext read
  simp

/-- Pieces with closed separators between them. -/
theorem Lexes.intercalate {ι : Type*} {write : ι → List σ} {meant : ι → List τ}
    {separator : List σ} {between : List τ} {parts : List ι}
    (closed : reader.Closed separator between) (ended : ∀ rest, ends (separator ++ rest))
    (lexes : ∀ part ∈ parts, reader.Lexes ends (write part) (meant part)) :
    reader.Lexes ends (separator.intercalate (parts.map write))
      (between.intercalate (parts.map meant)) := by
  induction parts with
  | nil => exact closed_nil.lexes
  | cons part parts ih =>
    have first := lexes part (by simp)
    have others := ih fun other member => lexes other (List.mem_cons_of_mem _ member)
    cases parts with
    | nil => simpa using first
    | cons next parts =>
      simp only [List.map_cons, List.intercalate_cons_cons] at others ⊢
      exact (first.append_closed closed ended).append_lexes others

/-- A piece before what is read. -/
theorem Lexes.read_append (lexes : reader.Lexes ends first tokens)
    (isRead : reader.read second = some later) (ended : ends second) :
    reader.read (first ++ second) = some (tokens ++ later) := by
  rw [lexes second ended, isRead]
  rfl

/-- A piece that may stand at the end is read as its tokens. -/
theorem Lexes.read (lexes : reader.Lexes ends text tokens) (ended : ends []) :
    reader.read text = some tokens := by
  have alone := lexes [] ended
  rwa [List.append_nil, read_nil, Option.map_some, List.append_nil] at alone

theorem Closed.read (closed : reader.Closed text tokens) : reader.read text = some tokens := by
  have lexes : reader.Lexes (fun _ => True) text tokens := closed.lexes
  exact lexes.read trivial

/-- The tokens of a closed piece are in front of those of what follows, and of nothing else. -/
theorem Closed.read_eq_some (closed : reader.Closed first tokens) :
    reader.read (first ++ second) = some (tokens ++ later) ↔ reader.read second = some later := by
  rw [closed second, Option.map_eq_some_iff]
  constructor
  · rintro ⟨found, isRead, same⟩
    rw [isRead, List.append_cancel_left same]
  · intro isRead
    exact ⟨later, isRead, rfl⟩

/-- A piece that can be read alone is closed, if its last symbol is a token of its own. -/
theorem closed_of_read {last : List τ} (isRead : reader.read (text ++ [c]) = some tokens)
    (own : ∀ more, reader.next c more = some (last, more))
    (alone : ∀ {d text tokens}, reader.next d (text ++ [c]) ≠ some (tokens, [])) :
    reader.Closed (text ++ [c]) tokens := by
  intro rest
  induction length : text.length using Nat.strongRecOn generalizing text tokens with
  | _ size ih =>
    cases text with
    | nil =>
      rw [List.nil_append, read_cons (own []), read_nil, Option.map_some, Option.some_inj,
        List.append_nil] at isRead
      rw [← isRead]
      exact read_cons (own rest)
    | cons d text =>
      cases step : reader.next d (text ++ [c]) with
      | none =>
        rw [List.cons_append, read_cons_none step] at isRead
        cases isRead
      | some found =>
        obtain ⟨found, left⟩ := found
        have notEnd : left ≠ [] := by
          rintro rfl
          exact alone step
        -- what is left still ends in the last symbol
        obtain ⟨left, rfl⟩ : ∃ shorter, left = shorter ++ [c] := by
          obtain ⟨taken, split⟩ := reader.suffix step
          have isLast : left.getLast? = some c := by
            rw [← List.getLast?_append_of_ne_nil taken notEnd, split, List.getLast?_concat]
          exact ⟨left.dropLast, (List.dropLast_append_getLast? c isLast).symm⟩
        rw [List.cons_append, read_cons step, Option.map_eq_some_iff] at isRead
        obtain ⟨later, isLater, rfl⟩ := isRead
        have shorter : left.length < size := by
          have bound := (reader.suffix step).length_le
          rw [List.length_append, List.length_append] at bound
          rw [← length, List.length_cons]
          exact Nat.lt_succ_of_le (Nat.le_of_add_le_add_right bound)
        have settled := reader.settled step notEnd rest
        calc reader.read (d :: text ++ [c] ++ rest)
            = (reader.read (left ++ [c] ++ rest)).map (found ++ ·) := read_cons settled
          _ = ((reader.read rest).map (later ++ ·)).map (found ++ ·) := by
              rw [ih left.length shorter isLater rfl]
          _ = (reader.read rest).map (found ++ later ++ ·) := by
              rw [Option.map_map]
              congr 1
              funext read
              simp

end Reader

end MalloyPublisher.Foundations
