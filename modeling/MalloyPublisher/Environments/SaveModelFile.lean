import MalloyPublisher.Environments.InstallPackage
import MalloyPublisher.Foundations.CriticalSections

/-!
# Saving a model file

A save reads the file, checks what it holds, puts the new text in place, loads the package again and
has the caller verify it. If the load or the verification throws, what the file held is put back and
the package is loaded once more. All of it is one hold of the package's lock.

What the steps of a call come to is a parameter, since each may fail at any time. A call starts here
once its package name and its path have passed their checks.

## Main definitions

* `ServedPackage` — a package's files, and what is served of them
* `writeModelFileTransactional` — a save
* `Saved` — a save either happened or did not
* `SavedOrUndone` — the same, where a save that comes to no write leaves the package as it finds it

## Main results

* `saved_iff_keeps` — when a save either happens or does not
* `savedOrUndone_of_reachable` — saves among other calls
-/

namespace MalloyPublisher.Environments.ModelFiles

open Foundations

/-- The files of a package by their paths, and the environment's entries for it. -/
structure ServedPackage (π : Type) where
  files : String → Option String
  package : Option π
  status : Option PackageStatus
  staleCompileError : Option String

/-- What loads a package from its files. -/
abbrev Create (π : Type) := (String → Option String) → Except String π

/-- A save throws what one of its steps threw, or that it was undone. -/
inductive SaveError
  | raised (message : String)
  | rolledBack (message : String)
  deriving DecidableEq, Repr

/-- What the steps of a write do. A step without an error does not throw. -/
structure WriteSteps where
  uuid : String
  makeDirectory : Option String
  /-- The error, with what it leaves of the temporary file. -/
  writeTemporary : Option (String × Option String)
  rename : Option String

/-- What the steps of a save do. -/
structure SaveSteps where
  read : Option String
  write : WriteSteps
  load : Option String
  restore : WriteSteps
  remove : Option String
  reload : Option String

structure SaveCall (π T : Type) where
  target : String
  source : String
  /-- The error of a precondition that refuses. -/
  check : Option String → Option String
  verify : π → Except String T
  steps : SaveSteps

/-- The temporary file beside a file. -/
def temporaryOf (target uuid : String) : String := target ++ "." ++ uuid ++ ".tmp"

section Steps

variable {π T : Type}

/-- What runs while a call has the package's lock. -/
abbrev Locked (π α : Type) := Attempt SaveError (ServedPackage π) α

def ServedPackage.put (served : ServedPackage π) (path : String) (text : Option String) :
    ServedPackage π :=
  { served with files := Function.update served.files path text }

/-- A step that throws what it is given, and does nothing else. -/
def raiseIf (error : Option String) : Locked π Unit :=
  .atomically fun served => (served, match error with
    | some message => .error (.raised message)
    | none => .ok ())

def readModelFile (target : String) (error : Option String) : Locked π (Option String) :=
  .atomically fun served => (served, match error with
    | some message => .error (.raised message)
    | none => .ok (served.files target))

def writeTemporary (temporary source : String) (error : Option (String × Option String)) :
    Locked π Unit :=
  .atomically fun served => match error with
    | none => (served.put temporary source, .ok ())
    | some (message, none) => (served, .error (.raised message))
    | some (message, some part) => (served.put temporary part, .error (.raised message))

def rename (temporary target : String) (error : Option String) : Locked π Unit :=
  .atomically fun served => match error, served.files temporary with
    | some message, _ => (served, .error (.raised message))
    | none, none => (served, .error (.raised "ENOENT: no such file or directory"))
    | none, some text => ((served.put target text).put temporary none, .ok ())

/-- Put text at a model path, by way of a temporary file. -/
def writeModelFile (target source : String) (steps : WriteSteps) : Locked π Unit := do
  raiseIf steps.makeDirectory
  let temporary := temporaryOf target steps.uuid
  writeTemporary temporary source steps.writeTemporary
  rename temporary target steps.rename

def removeModelFile (target : String) (error : Option String) : Locked π Unit :=
  .atomically fun served => match error with
    | some message => (served, .error (.raised message))
    | none => (served.put target none, .ok ())

variable (create : Create π)

/-- Load a package from its files, unless something else throws. -/
def createPackage (error : Option String) : Locked π π :=
  .atomically fun served => (served, match error with
    | some message => .error (.raised message)
    | none => match create served.files with
      | .error message => .error (.raised message)
      | .ok package => .ok package)

def setPackageStatus (status : PackageStatus) : Locked π Unit :=
  .atomically fun served => ({ served with status := some status }, .ok ())

/-- The text of an error. -/
def SaveError.message : SaveError → String
  | raised message => message
  | rolledBack message => message

/-- Load a package, unless it is loaded and is not to be loaded again. -/
def loadOrGetPackage (reload : Bool) (error : Option String) : Locked π π := do
  let existing : Option π ← .atomically fun served => (served, .ok served.package)
  match existing, reload with
  | some package, false => return package
  | _, _ =>
    setPackageStatus .loading
    tryCatch
      (do
        let package ← createPackage create error
        .atomically fun served => ({ served with
          package := some package, status := some .serving, staleCompileError := none }, .ok ())
        return package)
      fun thrown => do
        if existing.isSome && reload then
          -- What was loaded last is served on.
          .atomically fun served => ({ served with
            status := some .serving, staleCompileError := some thrown.message }, .ok ())
        else
          .atomically fun served => ({ served with package := none, status := none }, .ok ())
        throw thrown

/-- What the caller of a save is told when the save was undone. -/
def rolledBackMessage (target : String) : String :=
  "The package did not reload with the new `" ++ target ++
    "`, so the previous text was put back and nothing changed."

/-- Put back what the file held, or remove it when it is new. -/
def putBack (call : SaveCall π T) (previous : Option String) : Locked π Unit :=
  match previous with
  | some text => writeModelFile call.target text call.steps.restore
  | none => removeModelFile call.target call.steps.remove

/-- Put back what the file held, load the package again and tell the caller. -/
def rollBack (call : SaveCall π T) (previous : Option String) : Locked π (Option String × T) := do
  putBack call previous
  -- The caller is not told of a package that does not load again.
  tryCatch
    (do
      let _ ← loadOrGetPackage create true call.steps.reload
      return ())
    fun _ => return ()
  throw (.rolledBack (rolledBackMessage call.target))

/-- Write one model file and load the package behind it, or put back what was there. -/
def writeModelFileTransactional (call : SaveCall π T) : Locked π (Option String × T) := do
  let previous ← readModelFile call.target call.steps.read
  raiseIf (call.check previous)
  writeModelFile call.target call.source call.steps.write
  tryCatch
    (do
      let reloaded ← loadOrGetPackage create true call.steps.load
      let verified ← .atomically fun served =>
        (served, (call.verify reloaded).mapError SaveError.raised)
      return (previous, verified))
    fun _ => rollBack create call previous

/-- A call that takes the package's lock: a save, or any other. -/
inductive LockedCall (π T : Type)
  | save (call : SaveCall π T)
  | other (routine : Routine (ServedPackage π) Unit)

/-- What a call runs, with what a save comes to. -/
def LockedCall.routine : LockedCall π T →
    Routine (ServedPackage π) (Option (Except SaveError (Option String × T)))
  | save call =>
    (writeModelFileTransactional create call).run.bind fun result => .done (some result)
  | other routine => routine.bind fun _ => .done none

end Steps

/-! ## What a save comes to -/

section Saved

variable {π T : Type} (create : Create π)

/-- What a reload makes of a package, if nothing but its files can fail it. -/
def reloaded (served : ServedPackage π) : ServedPackage π :=
  (loadOrGetPackage create true none).outcome served |>.1

/-- No step of the write throws. -/
structure WriteSteps.Succeeds (steps : WriteSteps) : Prop where
  makeDirectory : steps.makeDirectory = none
  writeTemporary : steps.writeTemporary = none
  rename : steps.rename = none

/-- The write throws with its temporary file there. -/
def WriteSteps.Leaves (steps : WriteSteps) : Prop :=
  steps.makeDirectory = none ∧
    ((∃ message part, steps.writeTemporary = some (message, some part)) ∨
      steps.writeTemporary = none ∧ steps.rename.isSome)

/-- The save comes to its write. -/
def SaveCall.Writes (call : SaveCall π T) (found : ServedPackage π) : Prop :=
  call.steps.read = none ∧ call.check (found.files call.target) = none

/-- The save puts its text in place, after which what throws has it undone. -/
def SaveCall.Puts (call : SaveCall π T) (found : ServedPackage π) : Prop :=
  call.Writes found ∧ call.steps.write.Succeeds

/-- No step of undoing the save fails, neither putting back what the file held nor the load. -/
structure SaveCall.Restores (call : SaveCall π T) (found : ServedPackage π) : Prop where
  write : found.files call.target ≠ none → call.steps.restore.Succeeds
  remove : found.files call.target = none → call.steps.remove = none
  reload : call.steps.reload = none
  loads : ∃ package, create found.files = .ok package

/-- A save either happened or did not. -/
structure Saved (call : SaveCall π T) (found left : ServedPackage π)
    (result : Except SaveError (Option String × T)) : Prop where
  /-- A save that returned is on disk, served and verified. -/
  returned : ∀ previous verified, result = .ok (previous, verified) →
    previous = found.files call.target ∧ left.files call.target = call.source ∧
      left.status = some .serving ∧ ∃ package, create left.files = .ok package ∧
        left.package = some package ∧ call.verify package = .ok verified
  /-- A save that threw, and was undone if its text was in place, left the file as it was and the
  package as its files load, and nothing beside it. -/
  thrown : ∀ error, result = .error error → (call.Puts found → call.Restores create found) →
    left.files call.target = found.files call.target ∧
      left.package = (reloaded create found).package ∧
      left.status = (reloaded create found).status ∧
      ∀ uuid, left.files (temporaryOf call.target uuid) ≠ none →
        found.files (temporaryOf call.target uuid) ≠ none
  /-- What others wrote stays. -/
  others : ∀ path, path ≠ call.target → path ≠ temporaryOf call.target call.steps.write.uuid →
    path ≠ temporaryOf call.target call.steps.restore.uuid → left.files path = found.files path

/-- What a save that threw leaves: the file as it was; the package as its files load if the save was
undone, and as it was found otherwise; and nothing beside the file, unless the write threw. -/
structure Undone (call : SaveCall π T) (found left : ServedPackage π) : Prop where
  file : left.files call.target = found.files call.target
  reloaded : call.Puts found → left.package = (reloaded create found).package ∧
    left.status = (reloaded create found).status
  untouched : ¬call.Puts found → left.package = found.package ∧ left.status = found.status
  clean : ¬(call.Writes found ∧ call.steps.write.Leaves) → ∀ uuid,
    left.files (temporaryOf call.target uuid) ≠ none →
      found.files (temporaryOf call.target uuid) ≠ none

/-- A save is on disk, served and verified, or leaves what it found. -/
structure SavedOrUndone (call : SaveCall π T) (found left : ServedPackage π)
    (result : Except SaveError (Option String × T)) : Prop where
  returned : ∀ previous verified, result = .ok (previous, verified) →
    previous = found.files call.target ∧ left.files call.target = call.source ∧
      left.status = some .serving ∧ ∃ package, create left.files = .ok package ∧
        left.package = some package ∧ call.verify package = .ok verified
  thrown : ∀ error, result = .error error → (call.Puts found → call.Restores create found) →
    Undone create call found left
  others : ∀ path, path ≠ call.target → path ≠ temporaryOf call.target call.steps.write.uuid →
    path ≠ temporaryOf call.target call.steps.restore.uuid → left.files path = found.files path

/-- The package is served as its files load. -/
def Settled (served : ServedPackage π) : Prop :=
  served.package = (reloaded create served).package ∧
    served.status = (reloaded create served).status

/-- When a save either happens or does not: it puts its text in place, or it throws before, leaves
no temporary file and finds the package served as its files load. -/
def SaveCall.Keeps (call : SaveCall π T) (found : ServedPackage π) : Prop :=
  call.Puts found ∨ ¬(call.Writes found ∧ call.steps.write.Leaves) ∧ Settled create found

/-- The names of the temporary files are new. -/
structure SaveCall.Fresh (call : SaveCall π T) (found : ServedPackage π) : Prop where
  write : found.files (temporaryOf call.target call.steps.write.uuid) = none
  restore : found.files (temporaryOf call.target call.steps.restore.uuid) = none

end Saved

section Outcomes

variable {π T : Type} {create : Create π} {call : SaveCall π T}
  {served found left : ServedPackage π} {target source uuid path : String} {text : Option String}
  {steps : WriteSteps}

theorem temporaryOf_ne (target uuid : String) : temporaryOf target uuid ≠ target := by
  intro same
  have lengths := congrArg String.length same
  have suffix : ".tmp".length = 4 := by decide
  simp only [temporaryOf, String.length_append, suffix] at lengths
  omega

@[simp] theorem put_files_self : (served.put path text).files path = text := Function.update_self ..

theorem put_files_of_ne {other : String} (isOther : other ≠ path) :
    (served.put path text).files other = served.files other := Function.update_of_ne isOther ..

/-- A write by way of a new temporary file writes the file alone. -/
theorem outcome_writeModelFile (succeeds : steps.Succeeds)
    (fresh : served.files (temporaryOf target steps.uuid) = none) :
    (writeModelFile (π := π) target source steps).outcome served =
      (served.put target source, .ok ()) := by
  obtain ⟨made, written, renamed⟩ := succeeds
  simp only [writeModelFile, raiseIf, writeTemporary, rename, Attempt.outcome_bind,
    Attempt.outcome_atomically, made, written, renamed, put_files_self]
  refine Prod.ext ?_ rfl
  dsimp only [ServedPackage.put]
  congr 1
  funext path
  by_cases temporary : path = temporaryOf target steps.uuid
  · subst temporary
    rw [Function.update_self, Function.update_of_ne (temporaryOf_ne _ _), fresh]
  · rw [Function.update_of_ne temporary]
    by_cases same : path = target
    · subst same
      rw [Function.update_self, Function.update_self]
    · rw [Function.update_of_ne same, Function.update_of_ne temporary, Function.update_of_ne same]

/-- A write that throws left at most its temporary file. -/
theorem outcome_writeModelFile_of_not (served : ServedPackage π) (target source : String)
    (fails : ¬steps.Succeeds) : ∃ message left,
    (writeModelFile target source steps).outcome served = (left, .error (.raised message)) ∧
      ((∃ part, left = served.put (temporaryOf target steps.uuid) (some part)) ∧ steps.Leaves ∨
        left = served ∧ ¬steps.Leaves) := by
  simp only [writeModelFile, raiseIf, writeTemporary, rename, Attempt.outcome_bind,
    Attempt.outcome_atomically]
  rcases made : steps.makeDirectory with _ | message
  · rcases written : steps.writeTemporary with _ | ⟨message, _ | part⟩
    · rcases renamed : steps.rename with _ | message
      · exact absurd ⟨made, written, renamed⟩ fails
      · exact ⟨message, _, rfl, .inl ⟨⟨source, rfl⟩, made, .inr ⟨written, by rw [renamed]; rfl⟩⟩⟩
    · refine ⟨message, served, rfl, .inr ⟨rfl, ?_⟩⟩
      rintro ⟨-, ⟨_, _, leaves⟩ | ⟨none, -⟩⟩
      · simp [written] at leaves
      · simp [written] at none
    · exact ⟨message, _, rfl, .inl ⟨⟨part, rfl⟩, made, .inl ⟨message, part, written⟩⟩⟩
  · refine ⟨message, served, rfl, .inr ⟨rfl, fun leaves => ?_⟩⟩
    cases made.symm.trans leaves.1

/-- What a failed load leaves: what was loaded is served on, and nothing is if nothing was. -/
def ServedPackage.loadFailed (served : ServedPackage π) (message : String) : ServedPackage π :=
  if served.package.isSome then
    { served with status := some .serving, staleCompileError := some message }
  else { served with package := none, status := none }

/-- A load again, with what its files and anything else make of it. -/
theorem outcome_loadOrGetPackage (create : Create π)
    (error : Option String) (served : ServedPackage π) :
    (loadOrGetPackage create true error).outcome served =
      match error.elim (create served.files) .error with
      | .ok package =>
        ({ served with
            package := some package, status := some .serving, staleCompileError := none },
          .ok package)
      | .error message => (served.loadFailed message, .error (.raised message)) := by
  simp only [loadOrGetPackage, createPackage, setPackageStatus, Attempt.outcome_bind,
    Attempt.outcome_tryCatch, Attempt.outcome_atomically]
  obtain ⟨files, package, status, stale⟩ := served
  rcases error with _ | message
  · rcases create files with message | created
    · cases package <;> simp [ServedPackage.loadFailed, SaveError.message, Attempt.outcome_bind]
    · cases package <;> simp
  · cases package <;> simp [ServedPackage.loadFailed, SaveError.message, Attempt.outcome_bind]

theorem files_loadFailed (message : String) : (served.loadFailed message).files = served.files := by
  unfold ServedPackage.loadFailed
  split_ifs <;> rfl

/-- Putting back leaves the files as they were found. -/
theorem outcome_putBack (restores : call.Restores create found) (fresh : call.Fresh found)
    (written : served.files = Function.update found.files call.target (some call.source)) :
    (putBack call (found.files call.target)).outcome served =
      ({ served with files := found.files }, .ok ()) := by
  have unwritten : served.put call.target (found.files call.target) =
      { served with files := found.files } := by
    rw [ServedPackage.put, written, Function.update_idem, Function.update_eq_self]
  have isFresh : served.files (temporaryOf call.target call.steps.restore.uuid) = none := by
    rw [written, Function.update_of_ne (temporaryOf_ne _ _), fresh.restore]
  rw [← unwritten]
  unfold putBack
  cases held : found.files call.target with
  | some text =>
    have succeeds := restores.write (by rw [held]; exact Option.some_ne_none text)
    exact outcome_writeModelFile succeeds isFresh
  | none =>
    simp only [removeModelFile, Attempt.outcome_atomically, restores.remove held]

/-- Putting back writes the file and its temporary file only, and throws no more than an error. -/
theorem files_putBack (call : SaveCall π T) (previous : Option String)
    (fresh : served.files (temporaryOf call.target call.steps.restore.uuid) = none)
    (isOther : path ≠ call.target)
    (beside : path ≠ temporaryOf call.target call.steps.restore.uuid) :
    ((putBack call previous).outcome served).1.files path = served.files path := by
  unfold putBack
  cases previous with
  | some text =>
    by_cases succeeds : call.steps.restore.Succeeds
    · dsimp only
      rw [outcome_writeModelFile succeeds fresh, put_files_of_ne isOther]
    · obtain ⟨message, left, outcome, ⟨⟨part, rfl⟩, -⟩ | ⟨rfl, -⟩⟩ :=
        outcome_writeModelFile_of_not served call.target text succeeds
      · dsimp only
        rw [outcome, put_files_of_ne beside]
      · dsimp only
        rw [outcome]
  | none =>
    simp only [removeModelFile, Attempt.outcome_atomically]
    cases call.steps.remove with
    | none => exact put_files_of_ne isOther
    | some message => rfl

/-- An undone save leaves the files and the package they load. -/
theorem outcome_rollBack (restores : call.Restores create found) (fresh : call.Fresh found)
    (written : served.files = Function.update found.files call.target (some call.source)) :
    ∃ package stale, create found.files = .ok package ∧
      (rollBack create call (found.files call.target)).outcome served =
        (⟨found.files, some package, some .serving, stale⟩,
          .error (.rolledBack (rolledBackMessage call.target))) := by
  obtain ⟨package, loads⟩ := restores.loads
  refine ⟨package, none, loads, ?_⟩
  simp only [rollBack, Attempt.outcome_bind, Attempt.outcome_tryCatch,
    outcome_putBack restores fresh written, outcome_loadOrGetPackage, restores.reload, Option.elim,
    loads, Attempt.outcome_pure, Attempt.outcome_throw]

/-- Whatever fails, undoing a save throws and leaves what others wrote. -/
theorem files_rollBack (create : Create π) (call : SaveCall π T) (previous : Option String)
    (fresh : served.files (temporaryOf call.target call.steps.restore.uuid) = none) :
    (∃ error, ((rollBack create call previous).outcome served).2 = .error error) ∧
      ∀ path, path ≠ call.target → path ≠ temporaryOf call.target call.steps.restore.uuid →
        ((rollBack create call previous).outcome served).1.files path = served.files path := by
  have same : ∀ path, path ≠ call.target →
      path ≠ temporaryOf call.target call.steps.restore.uuid →
        ((putBack call previous).outcome served).1.files path = served.files path :=
    fun _ isOther beside => files_putBack call previous fresh isOther beside
  simp only [rollBack, Attempt.outcome_bind, Attempt.outcome_tryCatch, outcome_loadOrGetPackage]
  rcases put : (putBack call previous).outcome served with ⟨after, error | ⟨⟩⟩
  · rw [put] at same
    exact ⟨⟨error, rfl⟩, same⟩
  · rw [put] at same
    dsimp only at same ⊢
    rcases call.steps.reload.elim (create after.files) .error with message | package
    · refine ⟨⟨_, rfl⟩, fun path isOther beside => ?_⟩
      rw [← same path isOther beside]
      simp only [Attempt.outcome_pure, Attempt.outcome_throw, files_loadFailed]
    · exact ⟨⟨_, rfl⟩, same⟩

/-- A save that does not come to its reload throws, and left at most its temporary file. -/
theorem outcome_save_of_not_puts
    (create : Create π) (stops : ¬call.Puts found) : ∃ message left,
    (writeModelFileTransactional create call).outcome found = (left, .error (.raised message)) ∧
      ((∃ part, left =
          found.put (temporaryOf call.target call.steps.write.uuid) (some part)) ∧
          call.Writes found ∧ call.steps.write.Leaves ∨
        left = found ∧ ¬(call.Writes found ∧ call.steps.write.Leaves)) := by
  simp only [writeModelFileTransactional, readModelFile, raiseIf, Attempt.outcome_bind,
    Attempt.outcome_atomically]
  cases read : call.steps.read with
  | some message =>
    refine ⟨message, found, rfl, .inr ⟨rfl, fun comes => ?_⟩⟩
    cases read.symm.trans comes.1.1
  | none =>
    cases checked : call.check (found.files call.target) with
    | some message =>
      refine ⟨message, found, by simp only [checked], .inr ⟨rfl, fun comes => ?_⟩⟩
      cases checked.symm.trans comes.1.2
    | none =>
      have writes : call.Writes found := ⟨read, checked⟩
      obtain ⟨message, left, outcome, leaves⟩ := outcome_writeModelFile_of_not found call.target
        call.source fun succeeds => stops ⟨writes, succeeds⟩
      refine ⟨message, left, by simp only [checked, outcome], ?_⟩
      exact leaves.imp (fun both => ⟨both.1, writes, both.2⟩)
        fun both => ⟨both.1, fun comes => both.2 comes.2⟩

/-- A save that comes to its reload. -/
theorem outcome_save_of_puts (puts : call.Puts found) (fresh : call.Fresh found) :
    (writeModelFileTransactional create call).outcome found =
      (tryCatch
        (do
          let reloaded ← loadOrGetPackage create true call.steps.load
          let verified ← .atomically fun served =>
            (served, (call.verify reloaded).mapError SaveError.raised)
          return (found.files call.target, verified) : Locked π (Option String × T))
        fun _ => rollBack create call (found.files call.target)).outcome
          (found.put call.target (some call.source)) := by
  obtain ⟨⟨read, checked⟩, succeeds⟩ := puts
  simp only [writeModelFileTransactional, readModelFile, raiseIf, Attempt.outcome_bind,
    Attempt.outcome_atomically, read, checked, outcome_writeModelFile succeeds fresh.write]

/-- A save that comes to its reload happens or does not. -/
theorem saved_of_puts (create : Create π) (puts : call.Puts found) (fresh : call.Fresh found) :
    Saved create call found ((writeModelFileTransactional create call).outcome found).1
      ((writeModelFileTransactional create call).outcome found).2 := by
  -- Undoing the save, from any state with its text in place.
  have undone : ∀ served : ServedPackage π,
      served.files = Function.update found.files call.target (some call.source) →
        Saved create call found
          ((rollBack create call (found.files call.target)).outcome served).1
          ((rollBack create call (found.files call.target)).outcome served).2 := by
    intro served written
    have isFresh : served.files (temporaryOf call.target call.steps.restore.uuid) = none := by
      rw [written, Function.update_of_ne (temporaryOf_ne _ _), fresh.restore]
    obtain ⟨⟨error, throws⟩, same⟩ :=
      files_rollBack create call (found.files call.target) isFresh
    refine ⟨fun previous verified returns => ?_, fun error _ restores => ?_,
      fun path isOther _ beside => ?_⟩
    · rw [throws] at returns
      cases returns
    · obtain ⟨package, stale, loads, outcome⟩ := outcome_rollBack (restores puts) fresh written
      have again : reloaded create found = ⟨found.files, some package, some .serving, none⟩ := by
        simp only [reloaded, outcome_loadOrGetPackage, Option.elim, loads]
      rw [outcome, again]
      exact ⟨rfl, rfl, rfl, fun _ => id⟩
    · rw [same path isOther beside, written, Function.update_of_ne isOther]
  rw [outcome_save_of_puts puts fresh]
  simp only [Attempt.outcome_tryCatch, Attempt.outcome_bind, outcome_loadOrGetPackage,
    Attempt.outcome_atomically]
  rcases loads : call.steps.load.elim
      (create (found.put call.target (some call.source)).files) .error with message | package
  · exact undone _ (files_loadFailed message)
  · dsimp only
    cases verified : call.verify package with
    | error message => exact undone _ rfl
    | ok verified' =>
      refine ⟨fun previous verified returns => ?_, nofun,
        fun path isOther _ _ => put_files_of_ne isOther⟩
      cases returns
      refine ⟨rfl, put_files_self, rfl, package, ?_, rfl, verified⟩
      cases failed : call.steps.load with
      | none => rwa [failed] at loads
      | some message =>
        rw [failed] at loads
        cases loads

/-- A save either happens or does not, if and only if it is of the kinds that do. -/
theorem saved_iff_keeps (fresh : call.Fresh found) :
    Saved create call found ((writeModelFileTransactional create call).outcome found).1
      ((writeModelFileTransactional create call).outcome found).2 ↔ call.Keeps create found := by
  by_cases puts : call.Puts found
  · exact iff_of_true (saved_of_puts create puts fresh) (.inl puts)
  · obtain ⟨message, left, outcome, ⟨⟨part, rfl⟩, leaves⟩ | ⟨rfl, leaves⟩⟩ :=
      outcome_save_of_not_puts create puts
    · rw [outcome]
      refine iff_of_false (fun saved => ?_) (fun keeps => keeps.elim puts fun both => both.1 leaves)
      have remains := (saved.thrown _ rfl fun comes => absurd comes puts).2.2.2
        call.steps.write.uuid
      rw [put_files_self, fresh.write] at remains
      exact remains (Option.some_ne_none part) rfl
    · rw [outcome]
      constructor
      · intro saved
        obtain ⟨-, package, status, -⟩ := saved.thrown _ rfl fun comes => absurd comes puts
        exact .inr ⟨leaves, package, status⟩
      · intro keeps
        obtain ⟨-, package, status⟩ := keeps.resolve_left puts
        exact ⟨nofun, fun _ _ _ => ⟨rfl, package, status, fun _ => id⟩, fun _ _ _ _ => rfl⟩

/-- A save is on disk, served and verified, or leaves what it found. -/
theorem savedOrUndone (create : Create π) (fresh : call.Fresh found) :
    SavedOrUndone create call found ((writeModelFileTransactional create call).outcome found).1
      ((writeModelFileTransactional create call).outcome found).2 := by
  by_cases puts : call.Puts found
  · obtain ⟨returned, thrown, others⟩ := saved_of_puts create puts fresh
    refine ⟨returned, fun error throws restores => ?_, others⟩
    obtain ⟨file, package, status, clean⟩ := thrown error throws restores
    exact ⟨file, fun _ => ⟨package, status⟩, fun stops => absurd puts stops, fun _ => clean⟩
  · obtain ⟨message, left, outcome, ⟨⟨part, rfl⟩, leaves⟩ | ⟨rfl, leaves⟩⟩ :=
      outcome_save_of_not_puts create puts
    · rw [outcome]
      refine ⟨nofun, fun _ _ _ => ?_, fun path _ beside _ => put_files_of_ne beside⟩
      exact ⟨put_files_of_ne (temporaryOf_ne _ _).symm, fun comes => absurd comes puts,
        fun _ => ⟨rfl, rfl⟩, fun clean => absurd leaves clean⟩
    · rw [outcome]
      exact ⟨nofun, fun _ _ _ => ⟨rfl, fun comes => absurd comes puts, fun _ => ⟨rfl, rfl⟩,
        fun _ _ => id⟩, fun _ _ _ _ => rfl⟩

end Outcomes

/-! ## Saves among other calls -/

/-- In every order in which calls that take the package's lock can step, a save that came to its end
found what the calls before it left, and is on disk, served and verified, or leaves what it found.
-/
theorem savedOrUndone_of_reachable {π T ι : Type} [DecidableEq ι]
    (create : Create π) (calls : ι → LockedCall π T)
    (start : ServedPackage π)
    (mutex : Mutex ι (ServedPackage π) (Option (Except SaveError (Option String × T))))
    (reached : Mutex.Reachable (fun i => (calls i).routine create) start mutex) (i : ι)
    (call : SaveCall π T) (isSave : calls i = .save call) (found left : ServedPackage π)
    (outcome : Option (Except SaveError (Option String × T)))
    (isLeft : mutex.callers i = .left found left outcome) (fresh : call.Fresh found) :
    (∃ before after, mutex.turns = before ++ i :: after ∧
      found = Mutex.serve (fun i => (calls i).routine create) start before) ∧
    ∃ result, outcome = some result ∧ SavedOrUndone create call found left result := by
  obtain ⟨before, after, turns, isFound, ran⟩ := reached.left isLeft
  refine ⟨⟨before, after, turns, isFound⟩, ?_⟩
  rw [isSave, LockedCall.routine, Routine.run_bind] at ran
  have saved := savedOrUndone create fresh
  obtain ⟨rfl, rfl⟩ := Prod.mk.inj ran
  exact ⟨_, rfl, saved⟩

/-- A package of one model that is registered and not loaded. -/
def onePackage : ServedPackage (Option String) where
  files path := if path = "a.malloy" then some "source: a is b" else none
  package := none
  status := some .serving
  staleCompileError := none

/-- Loads the one model. -/
def createOne : Create (Option String) := fun files => .ok (files "a.malloy")

/-- A save whose check may refuse and whose rename may fail. -/
def saveOver (refusal renameError : Option String) : SaveCall (Option String) Unit where
  target := "a.malloy"
  source := "source: a is c"
  check _ := refusal
  verify _ := .ok ()
  steps := {
    read := none
    write := ⟨"7d1e", none, none, renameError⟩
    load := none
    restore := ⟨"02af", none, none, none⟩
    remove := none
    reload := none }

section Examples

variable {refusal renameError : Option String}

theorem fresh_saveOver : (saveOver refusal renameError).Fresh onePackage :=
  have absent : ∀ uuid, onePackage.files (temporaryOf "a.malloy" uuid) = none := fun uuid => by
    simp only [onePackage, if_neg (temporaryOf_ne "a.malloy" uuid)]
  ⟨absent _, absent _⟩

theorem not_settled_onePackage : ¬Settled createOne onePackage := fun settled => nomatch settled.1

/-- The only caller may come to its end. -/
theorem exists_left_saveOver (refusal renameError : Option String) : ∃ mutex,
    Mutex.Reachable
      (fun _ : Unit => (LockedCall.save (saveOver refusal renameError)).routine createOne)
      onePackage mutex ∧
    mutex.callers () = .left onePackage
      ((writeModelFileTransactional createOne (saveOver refusal renameError)).outcome onePackage).1
      (some ((writeModelFileTransactional createOne (saveOver refusal renameError)).outcome
        onePackage).2) := by
  have left := Mutex.exists_left
    (fun _ : Unit => (LockedCall.save (saveOver refusal renameError)).routine createOne)
    onePackage ()
  rwa [LockedCall.routine, Routine.run_bind] at left

theorem savedOrUndone_of_reachable_saveOver : ∃ mutex,
    Mutex.Reachable (fun _ : Unit => (LockedCall.save (saveOver none none)).routine createOne)
      onePackage mutex ∧
    ∃ found left outcome, mutex.callers () = .left found left outcome ∧ ∃ result,
      outcome = some result ∧ SavedOrUndone createOne (saveOver none none) found left result := by
  obtain ⟨mutex, reached, left⟩ := exists_left_saveOver none none
  exact ⟨mutex, reached, _, _, _, left,
    (savedOrUndone_of_reachable createOne (fun _ => .save (saveOver none none)) onePackage mutex
      reached () (saveOver none none) rfl _ _ _ left fresh_saveOver).2⟩

/-- A check that refuses leaves a package unloaded that a reload loads, and a rename that fails
leaves its temporary file. -/
theorem not_saved :
    (∃ mutex, Mutex.Reachable
      (fun _ : Unit => (LockedCall.save (saveOver (some "409") none)).routine createOne)
        onePackage mutex ∧
      ∃ found left result, mutex.callers () = .left found left (some result) ∧
        ¬Saved createOne (saveOver (some "409") none) found left result) ∧
    ∃ mutex, Mutex.Reachable
      (fun _ : Unit =>
        (LockedCall.save (saveOver none (some "EBUSY: resource busy, rename"))).routine createOne)
        onePackage mutex ∧
      ∃ found left result, mutex.callers () = .left found left (some result) ∧
        ¬Saved createOne (saveOver none (some "EBUSY: resource busy, rename")) found left result := by
  constructor
  · obtain ⟨mutex, reached, left⟩ := exists_left_saveOver (some "409") none
    refine ⟨mutex, reached, _, _, _, left, fun saved => ?_⟩
    obtain puts | ⟨-, settled⟩ := (saved_iff_keeps fresh_saveOver).mp saved
    · cases puts.1.2
    · exact not_settled_onePackage settled
  · obtain ⟨mutex, reached, left⟩ :=
      exists_left_saveOver none (some "EBUSY: resource busy, rename")
    refine ⟨mutex, reached, _, _, _, left, fun saved => ?_⟩
    obtain puts | ⟨-, settled⟩ := (saved_iff_keeps fresh_saveOver).mp saved
    · cases puts.2.rename
    · exact not_settled_onePackage settled

end Examples

end MalloyPublisher.Environments.ModelFiles
