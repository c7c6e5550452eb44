import Mathlib.Data.List.Basic

/-!
# A memo that is filled after a suspension

One slot holds a value and the key it was made under. A query computes its key from the
inputs in force and takes the held value if the keys agree. Else it begins to make one and
is suspended. When it resumes it fills the slot, whatever the slot holds by then, and takes
what it made. A change of the inputs empties the slot; it does not stop a query that is
suspended, whose value is then filled in late.

Where no late value is filled in under a key that somebody can still ask for, every query
takes what was made of the inputs in force when it asked, or of later ones.
-/

namespace MalloyPublisher.Foundations

variable {σ ι K V : Type*}

/-- A value a query makes: when it began, under which key, and what it has so far. -/
structure Making (ι K V : Type*) where
  now : ι
  startedIn : ℕ
  key : K
  value : V

/-- What a query took, and when that was begun. -/
structure Taken (ι V : Type*) where
  now : ι
  startedIn : ℕ
  value : V
  madeIn : ℕ
  deriving DecidableEq, Repr

/-- The memo, the queries that are suspended, and what has been taken so far. -/
structure MemoState (σ ι K V : Type*) where
  past : List σ
  inputs : σ
  slot : Option (Making ι K V)
  suspended : List (Making ι K V)
  taken : List (Taken ι V)

inductive MemoEvent (σ ι : Type*)
  | ask (now : ι)
  /-- A suspended query goes on, and reads some of the inputs again. -/
  | advance (who : ℕ)
  | resume (who : ℕ)
  | abandon (who : ℕ)
  | change (inputs : σ)

namespace MemoState

/-- The inputs that have been in force, the present ones last. -/
def history (state : MemoState σ ι K V) : List σ := state.past ++ [state.inputs]

/-- How often the inputs have changed. -/
def epoch (state : MemoState σ ι K V) : ℕ := state.past.length

section Step

variable [DecidableEq K] (key : σ → ι → K) (build : σ → ι → V) (advanced : σ → V → V)

def ask (state : MemoState σ ι K V) (now : ι) : MemoState σ ι K V :=
  match state.slot.filter (·.key = key state.inputs now) with
  | some held =>
    { state with taken := state.taken ++
        [{ now, startedIn := state.epoch, value := held.value, madeIn := held.startedIn }] }
  | none =>
    { state with suspended := state.suspended ++
        [{ now, startedIn := state.epoch, key := key state.inputs now,
           value := build state.inputs now }] }

/-- Fill the slot, and take what was made. -/
def resume (state : MemoState σ ι K V) (who : ℕ) : MemoState σ ι K V :=
  match state.suspended[who]? with
  | some made =>
    { state with
      slot := some made
      suspended := state.suspended.eraseIdx who
      taken := state.taken ++
        [{ now := made.now, startedIn := made.startedIn, value := made.value,
           madeIn := made.startedIn }] }
  | none => state

def advance (state : MemoState σ ι K V) (who : ℕ) : MemoState σ ι K V :=
  match state.suspended[who]? with
  | some made =>
    { state with suspended :=
        state.suspended.set who { made with value := advanced state.inputs made.value } }
  | none => state

def change (state : MemoState σ ι K V) (inputs : σ) : MemoState σ ι K V :=
  { state with past := state.history, inputs, slot := none }

def step (state : MemoState σ ι K V) : MemoEvent σ ι → MemoState σ ι K V
  | .ask now => state.ask key build now
  | .advance who => state.advance advanced who
  | .resume who => state.resume who
  | .abandon who => { state with suspended := state.suspended.eraseIdx who }
  | .change inputs => state.change inputs

end Step

/-! ## What is taken -/

section Sound

variable (key : σ → ι → K) (build : σ → ι → V) (advanced : σ → V → V)

/-- A value made of the inputs of an epoch, some of them read again later. -/
def Grown (history : List σ) (startedIn : ℕ) (now : ι) (value : V) : Prop :=
  ∃ inputs, history[startedIn]? = some inputs ∧ ∃ reread : List σ,
    (∀ later ∈ reread, later ∈ history.drop startedIn) ∧
      value = reread.foldl (fun value later => advanced later value) (build inputs now)

/-- What was taken was made of the inputs of its query, and not before the query. -/
structure Agrees (history : List σ) (taken : Taken ι V) : Prop where
  grown : Grown build advanced history taken.startedIn taken.now taken.value
  later : taken.startedIn ≤ taken.madeIn

/-- No late value is filled in under a key that can still be asked for. -/
def Harmless (state : MemoState σ ι K V) : MemoEvent σ ι → Prop
  | .resume who => ∀ made, state.suspended[who]? = some made →
      made.startedIn = state.epoch ∨ ∀ now, key state.inputs now ≠ made.key
  | _ => True

/-- A value in the making is one of the epoch it was begun in. -/
structure MadeWell (past : List σ) (inputs : σ) (made : Making ι K V) : Prop where
  grown : Grown build advanced (past ++ [inputs]) made.startedIn made.now made.value
  begun : made.startedIn ≤ past.length
  present : made.startedIn = past.length →
    made.key = key inputs made.now ∧ made.value = build inputs made.now

/-- What the slot holds is of the inputs in force, or nobody asks for it. -/
def HeldWell (past : List σ) (inputs : σ) (held : Making ι K V) : Prop :=
  (held.startedIn = past.length ∧ MadeWell key build advanced past inputs held) ∨
    ∀ now, key inputs now ≠ held.key

structure Sound (state : MemoState σ ι K V) : Prop where
  suspended : ∀ made ∈ state.suspended, MadeWell key build advanced state.past state.inputs made
  held : ∀ held, state.slot = some held →
    HeldWell key build advanced state.past state.inputs held
  taken : ∀ taken ∈ state.taken, Agrees build advanced state.history taken

variable {key build advanced} {state : MemoState σ ι K V}

theorem getElem?_epoch (state : MemoState σ ι K V) :
    state.history[state.epoch]? = some state.inputs := by
  simp [history, epoch]

/-- What is made anew is made of the inputs in force. -/
theorem grown_build (state : MemoState σ ι K V) (now : ι) :
    Grown build advanced state.history state.epoch now (build state.inputs now) :=
  ⟨state.inputs, state.getElem?_epoch, [], fun _ member => absurd member List.not_mem_nil, rfl⟩

theorem Grown.append {history more : List σ} {startedIn : ℕ} {now : ι} {value : V}
    (grown : Grown build advanced history startedIn now value) :
    Grown build advanced (history ++ more) startedIn now value := by
  obtain ⟨inputs, started, reread, later, rfl⟩ := grown
  have within : startedIn ≤ history.length :=
    Nat.le_of_lt (List.getElem?_eq_some_iff.mp started).1
  refine ⟨inputs, ?_, reread, fun other member => ?_, rfl⟩
  · rw [List.getElem?_append_left (List.getElem?_eq_some_iff.mp started).1, started]
  · rw [List.drop_append_of_le_length within]
    exact List.mem_append_left _ (later other member)

/-- A query that goes on reads inputs that came no earlier. -/
theorem Grown.reread {startedIn : ℕ} {now : ι} {value : V}
    (grown : Grown build advanced state.history startedIn now value)
    (past : startedIn ≤ state.epoch) :
    Grown build advanced state.history startedIn now (advanced state.inputs value) := by
  obtain ⟨inputs, started, reread, later, rfl⟩ := grown
  refine ⟨inputs, started, reread ++ [state.inputs], fun other member => ?_, by simp⟩
  rcases List.mem_append.mp member with member | here
  · exact later other member
  · rw [List.mem_singleton.mp here, history, List.drop_append_of_le_length past]
    exact List.mem_append_right _ (List.mem_singleton_self _)

theorem Sound.ask [DecidableEq K] (sound : Sound key build advanced state)
    (unambiguous : ∀ inputs now later,
      key inputs now = key inputs later → build inputs now = build inputs later) (now : ι) :
    Sound key build advanced (state.ask key build now) := by
  unfold MemoState.ask
  split
  · rename_i held found
    obtain ⟨filled, same⟩ := Option.filter_eq_some_iff.mp found
    have asked : key state.inputs now = held.key := (of_decide_eq_true same).symm
    -- The slot's key is asked for, so its value is of the inputs in force.
    obtain ⟨startedIn, well⟩ := (sound.held held filled).resolve_right fun unasked => unasked now asked
    obtain ⟨made, value⟩ := well.present startedIn
    refine { suspended := sound.suspended, held := sound.held, taken := fun taken member => ?_ }
    rcases List.mem_append.mp member with member | here
    · exact sound.taken taken member
    · rw [List.mem_singleton.mp here]
      refine ⟨?_, Nat.le_of_eq startedIn.symm⟩
      have exact : held.value = build state.inputs now :=
        value.trans (unambiguous _ _ _ (asked.trans made).symm)
      exact exact ▸ grown_build state now
  · refine { suspended := fun made member => ?_, held := sound.held, taken := sound.taken }
    rcases List.mem_append.mp member with member | here
    · exact sound.suspended made member
    · rw [List.mem_singleton.mp here]
      exact ⟨grown_build state now, Nat.le_refl _, fun _ => ⟨rfl, rfl⟩⟩

theorem Sound.resume (sound : Sound key build advanced state) {who : ℕ}
    (harmless : Harmless key state (.resume who)) :
    Sound key build advanced (state.resume who) := by
  unfold MemoState.resume
  split
  · rename_i made found
    have well := sound.suspended made (List.mem_of_getElem? found)
    refine
      { suspended := fun other member => sound.suspended other (List.mem_of_mem_eraseIdx member),
        held := fun held filled => ?_, taken := fun taken member => ?_ }
    · cases filled
      exact (harmless made found).imp_left fun startedIn => ⟨startedIn, well⟩
    · rcases List.mem_append.mp member with member | here
      · exact sound.taken taken member
      · rw [List.mem_singleton.mp here]
        exact ⟨well.grown, Nat.le_refl _⟩
  · exact sound

theorem Sound.advance (sound : Sound key build advanced state)
    (settled : ∀ inputs now, advanced inputs (build inputs now) = build inputs now) (who : ℕ) :
    Sound key build advanced (state.advance advanced who) := by
  unfold MemoState.advance
  split
  · rename_i made found
    have well := sound.suspended made (List.mem_of_getElem? found)
    refine { suspended := fun other member => ?_, held := sound.held, taken := sound.taken }
    rcases List.mem_or_eq_of_mem_set member with member | rfl
    · exact sound.suspended other member
    · refine ⟨well.grown.reread well.begun, well.begun, fun startedIn => ?_⟩
      obtain ⟨made, value⟩ := well.present startedIn
      exact ⟨made, by simp only [value, settled]⟩
  · exact sound

theorem Sound.change (sound : Sound key build advanced state) (inputs : σ) :
    Sound key build advanced (state.change inputs) := by
  have longer : (state.change inputs).past.length = state.past.length + 1 := by
    simp [MemoState.change, history]
  refine
    { suspended := fun made member => ?_, held := fun held filled => ?_,
      taken := fun taken member => ?_ }
  · have well := sound.suspended made member
    have begun := well.begun
    refine ⟨well.grown.append, by omega, fun startedIn => ?_⟩
    omega
  · cases filled
  · have agrees := sound.taken taken member
    exact ⟨agrees.grown.append, agrees.later⟩

/-- What one event preserves, unless it fills in a late value that can be asked for. -/
theorem Sound.step [DecidableEq K] (sound : Sound key build advanced state)
    (unambiguous : ∀ inputs now later,
      key inputs now = key inputs later → build inputs now = build inputs later)
    (settled : ∀ inputs now, advanced inputs (build inputs now) = build inputs now)
    {event : MemoEvent σ ι} (harmless : Harmless key state event) :
    Sound key build advanced (state.step key build advanced event) := by
  cases event with
  | ask now => exact sound.ask unambiguous now
  | advance who => exact sound.advance settled who
  | resume who => exact sound.resume harmless
  | abandon who =>
    exact
      { suspended := fun made member => sound.suspended made (List.mem_of_mem_eraseIdx member),
        held := sound.held, taken := sound.taken }
  | change inputs => exact sound.change inputs

/-- Before any query. -/
def initial (inputs : σ) : MemoState σ ι K V where
  past := []
  inputs := inputs
  slot := none
  suspended := []
  taken := []

theorem sound_initial (inputs : σ) : Sound key build advanced (initial (ι := ι) inputs) :=
  ⟨fun _ member => absurd member List.not_mem_nil, fun _ filled => (nomatch filled),
    fun _ member => absurd member List.not_mem_nil⟩

end Sound

end MemoState

end MalloyPublisher.Foundations
