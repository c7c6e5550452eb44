import Mathlib.Data.Option.Basic
import Mathlib.Tactic.SplitIfs

/-!
# Loading, adding and installing a package

An environment keeps a package in three places: its tree on disk, the loaded package, and the status
that listings go by. A status may stand without a loaded package, since the packages of a
configuration are registered as serving at boot and loaded when they are asked for. An install
writes the new tree beside the old one, sets the old one aside and puts the new one in its place; if
something then throws, one rollback puts the old tree back.

A call runs here from the state it finds once it has the package's lock. Removing a directory
succeeds; what else can throw is an outcome.

## Main definitions

* `PackageState` — the places a package is kept in
* `getPackage`, `addPackage`, `installPackage` — the calls that load it
* `Registration`, `prior` — a package between calls

## Main results

* `Between.serve`, `between_run` — between calls a loaded package is listed, over every run
* `installPackage_failed` — what a failed install leaves
-/

namespace MalloyPublisher.Environments

inductive PackageStatus
  | loading
  | serving
  | unloading
  deriving DecidableEq, Repr

/-- The places an environment keeps a package in, with the directories of an install. -/
structure PackageState (τ π : Type*) where
  canonical : Option τ
  staging : Option τ
  retired : Option τ
  /-- The entry of `packages`. -/
  package : Option π
  /-- The entry of `packageStatuses`, which listings enumerate. -/
  status : Option PackageStatus

/-- What the steps of an install do. A step without an error does not throw. -/
structure InstallSteps (τ π : Type*) where
  makeDirectory : Option String
  /-- What the downloader leaves in the staging directory. -/
  downloaded : Option τ
  download : Option String
  setAside : Option String
  swap : Option String
  create : Except String π
  validate : Option String
  /-- Whether the rename-back of a rollback succeeds. -/
  restores : Bool

section Calls

variable {τ π : Type*} (state : PackageState τ π)

/-- Load the package from disk, unless it is loaded and is not to be loaded again. -/
def getPackage (reload : Bool) (create : Except String π) : PackageState τ π × Except String π :=
  match state.package with
  | some existing =>
    if reload then
      match create with
      | .ok package =>
        ({ state with package := some package, status := some .serving }, .ok package)
      -- What is served stays.
      | .error error => ({ state with status := some .serving }, .error error)
    else (state, .ok existing)
  | none =>
    match create with
    | .ok package => ({ state with package := some package, status := some .serving }, .ok package)
    | .error error => ({ state with status := none }, .error error)

/-- Load a package that is not loaded. -/
def addPackage (create : Except String π) : PackageState τ π × Except String π :=
  match state.package with
  | some existing => (state, .ok existing)
  | none =>
    match create with
    | .ok package => ({ state with package := some package, status := some .serving }, .ok package)
    | .error error => ({ state with status := none }, .error error)

/-- Rename the canonical tree aside, if there is one. -/
def setAside (steps : InstallSteps τ π) : Except String (PackageState τ π) :=
  match state.canonical, steps.setAside with
  | none, _ => .ok state
  | some _, some error => .error error
  | some tree, none => .ok { state with canonical := none, retired := some tree }

/-- Put the staged tree in place, load it and validate it, with the state at the end or at the
throw. A staging directory that is not there cannot be renamed, and a tree that cannot be loaded is
removed. -/
def swapIn (steps : InstallSteps τ π) : PackageState τ π × Except String π :=
  match state.staging, steps.swap with
  | none, _ => (state, .error "ENOENT: no such file or directory")
  | some _, some error => (state, .error error)
  | some tree, none =>
    let swapped := { state with canonical := some tree, staging := none, status := some .loading }
    match steps.create with
    | .error error => ({ swapped with canonical := none }, .error error)
    | .ok package =>
      match steps.validate with
      | some message => (swapped, .error message)
      | none => (swapped, .ok package)

/-- Remove the canonical tree and the staged one, and put the old tree back if one was set aside. -/
def rollback (oldPackage : Option π) (restores : Bool) : PackageState τ π :=
  let restored := state.retired.isSome && restores
  let cleared := { state with
    canonical := if restored then state.retired else none
    retired := if restored then none else state.retired
    staging := none }
  if oldPackage.isSome && restored then { cleared with status := some .serving }
  else { cleared with package := none, status := none }

/-- Replace the package on disk, then load it. -/
def installPackage (steps : InstallSteps τ π) : PackageState τ π × Except String π :=
  match steps.makeDirectory with
  | some error => (state, .error error)
  | none =>
    match steps.download with
    | some error => ({ state with staging := none }, .error error)
    | none =>
      let staged := { state with staging := steps.downloaded, retired := none }
      match setAside staged steps with
      | .error error => (staged, .error error)
      | .ok aside =>
        match swapIn aside steps with
        | (thrown, .error error) => (rollback thrown state.package steps.restores, .error error)
        | (swapped, .ok package) =>
          -- What was set aside is removed in the background.
          ({ swapped with package := some package, status := some .serving, retired := none },
            .ok package)

end Calls

/-! ## Between calls -/

section Between

variable {τ π : Type*}

/-- A loaded package is serving, and one that is not loaded is at most registered as serving. -/
structure PackageState.Between (state : PackageState τ π) : Prop where
  loaded : state.package.isSome → state.status = some .serving
  registered : state.status = none ∨ state.status = some .serving

/-- A call, with what it comes to. -/
inductive PackageCall (τ π : Type*)
  | get (reload : Bool) (create : Except String π)
  | add (create : Except String π)
  | install (steps : InstallSteps τ π)

/-- The state a call leaves. -/
def serve (state : PackageState τ π) : PackageCall τ π → PackageState τ π
  | .get reload create => (getPackage state reload create).1
  | .add create => (addPackage state create).1
  | .install steps => (installPackage state steps).1

variable {state aside : PackageState τ π} {steps : InstallSteps τ π}

theorem setAside_eq_ok (isAside : setAside state steps = .ok aside) :
    aside.package = state.package ∧ aside.status = state.status ∧
      aside.staging = state.staging ∧ aside.canonical = none ∧
      aside.retired = state.canonical.or state.retired := by
  unfold setAside at isAside
  split at isAside
  · next bare =>
    cases isAside
    simp [bare]
  · cases isAside
  · next tree _ =>
    cases isAside
    simp [*]

theorem swapIn_package (state : PackageState τ π) (steps : InstallSteps τ π) :
    (swapIn state steps).1.package = state.package ∧
    (swapIn state steps).1.retired = state.retired := by
  unfold swapIn
  split
  · exact ⟨rfl, rfl⟩
  · exact ⟨rfl, rfl⟩
  · dsimp only
    split
    · exact ⟨rfl, rfl⟩
    · split <;> exact ⟨rfl, rfl⟩

/-- A rollback serves the old package if its tree is back, and drops it otherwise. -/
theorem between_rollback (oldPackage : Option π) (restores : Bool)
    (kept : state.package = oldPackage) :
    (rollback state oldPackage restores).Between := by
  subst kept
  unfold rollback
  dsimp only
  by_cases served : (state.package.isSome && (state.retired.isSome && restores)) = true
  · rw [if_pos served]
    exact ⟨fun _ => rfl, .inr rfl⟩
  · rw [if_neg served]
    exact ⟨nofun, .inl rfl⟩

theorem PackageState.Between.installPackage (between : state.Between) (steps : InstallSteps τ π) :
    (installPackage state steps).1.Between := by
  unfold Environments.installPackage
  split
  · exact between
  · split
    · exact ⟨between.loaded, between.registered⟩
    · dsimp only
      split
      · exact ⟨between.loaded, between.registered⟩
      · next aside isAside =>
        have same := (setAside_eq_ok isAside).1
        have kept := (swapIn_package aside steps).1.trans same
        split
        · next thrown error stepped =>
          rw [stepped] at kept
          exact between_rollback _ _ kept
        · exact ⟨fun _ => rfl, .inr rfl⟩

theorem PackageState.Between.getPackage (between : state.Between) (reload : Bool)
    (create : Except String π) : (getPackage state reload create).1.Between := by
  unfold Environments.getPackage
  split
  · split_ifs
    · split <;> exact ⟨fun _ => rfl, .inr rfl⟩
    · exact between
  · next absent =>
    split
    · exact ⟨fun _ => rfl, .inr rfl⟩
    · exact ⟨fun loaded => absurd loaded (by simp [absent]), .inl rfl⟩

theorem PackageState.Between.addPackage (between : state.Between) (create : Except String π) :
    (addPackage state create).1.Between := by
  unfold Environments.addPackage
  split
  · exact between
  · next absent =>
    split
    · exact ⟨fun _ => rfl, .inr rfl⟩
    · exact ⟨fun loaded => absurd loaded (by simp [absent]), .inl rfl⟩

/-- Each call leaves the package between calls. -/
theorem PackageState.Between.serve (between : state.Between) (call : PackageCall τ π) :
    (Environments.serve state call).Between := by
  cases call with
  | get reload create => exact between.getPackage reload create
  | add create => exact between.addPackage create
  | install steps => exact between.installPackage steps

/-- Over every run of calls, a loaded package is listed. -/
theorem between_run (between : state.Between) (calls : List (PackageCall τ π)) :
    (calls.foldl Environments.serve state).Between := by
  induction calls generalizing state with
  | nil => exact between
  | cons call later ih => exact ih (between.serve call)

/-- A package that is added, and whose reload fails. -/
theorem between_added : (([.add (.ok 1), .get true (.error "Not found.")] :
    List (PackageCall Nat Nat)).foldl Environments.serve ⟨some 1, none, none, none, none⟩).Between :=
  between_run ⟨by simp, .inl rfl⟩ _

end Between

/-! ## A failed install -/

section Failed

variable {τ π : Type*}

/-- Where a package stands between calls. -/
inductive Registration (π : Type*)
  | loaded (package : π)
  | registered
  | absent

/-- The state before an install. -/
def prior (tree : Option τ) : Registration π → PackageState τ π
  | .loaded package => ⟨tree, none, none, some package, some .serving⟩
  | .registered => ⟨tree, none, none, none, some .serving⟩
  | .absent => ⟨tree, none, none, none, none⟩

theorem between_prior (tree : Option τ) (registration : Registration π) :
    (prior tree registration).Between := by
  cases registration with
  | loaded package => exact ⟨fun _ => rfl, .inr rfl⟩
  | registered => exact ⟨nofun, .inr rfl⟩
  | absent => exact ⟨nofun, .inl rfl⟩

/-- The install comes as far as putting the staged tree in place. -/
def InstallSteps.Swaps (steps : InstallSteps τ π) (tree : Option τ) : Prop :=
  steps.makeDirectory = none ∧ steps.download = none ∧ (tree.isSome → steps.setAside = none)

/-- Everything as it was, and nothing left of the install. -/
structure Undone (before after : PackageState τ π) : Prop where
  canonical : after.canonical = before.canonical
  package : after.package = before.package
  status : after.status = before.status
  staging : after.staging = none
  agree : after.package.isSome → after.status.isSome

/-- A package that is loaded, though its tree is not on disk. -/
def Registration.HasNoTree (tree : Option τ) (registration : Registration π) : Prop :=
  tree = none ∧ ∃ package, registration = .loaded package

/-- What a failed install leaves: the tree as it was; the package as it was, unless it was loaded
without a tree and the install came to the swap, when it is dropped with its status; its status,
with the same exception, unless the package was only registered and the install came to the swap;
and no staged tree, unless the old tree could not be set aside. -/
structure RolledBack (tree : Option τ) (registration : Registration π) (steps : InstallSteps τ π)
    (after : PackageState τ π) : Prop where
  canonical : after.canonical = tree
  package : ¬(registration.HasNoTree tree ∧ steps.Swaps tree) →
    after.package = (prior tree registration).package
  status : ¬(registration.HasNoTree tree ∧ steps.Swaps tree) →
    ¬(registration = .registered ∧ steps.Swaps tree) →
    after.status = (prior tree registration).status
  dropped : registration.HasNoTree tree → steps.Swaps tree →
    after.package = none ∧ after.status = none
  staging : (tree.isSome → steps.setAside = none) → after.staging = none
  agree : after.package.isSome → after.status.isSome

variable {tree : Option τ} {registration : Registration π} {steps : InstallSteps τ π}

@[simp] theorem canonical_prior : (prior tree registration).canonical = tree := by
  cases registration <;> rfl

/-- Before the swap only the staging directory changes. -/
theorem rolledBack_of_not_swaps {staging : Option τ} (early : ¬steps.Swaps tree)
    (cleared : (tree.isSome → steps.setAside = none) → staging = none) :
    RolledBack tree registration steps { prior tree registration with staging := staging } where
  canonical := canonical_prior
  package _ := rfl
  status _ _ := rfl
  dropped _ swaps := absurd swaps early
  staging := cleared
  agree loaded := by rw [(between_prior tree registration).loaded loaded]; rfl

/-- With nothing set aside, a rollback drops everything. -/
theorem rollback_bare {thrown : PackageState τ π} (bare : thrown.retired = none)
    (oldPackage : Option π) (restores : Bool) :
    rollback thrown oldPackage restores = ⟨none, none, none, none, none⟩ := by
  simp [rollback, bare]

/-- With a tree set aside, it is put back, and what was loaded serves it. -/
theorem rollback_aside {thrown : PackageState τ π} {old : τ} (isAside : thrown.retired = some old) :
    rollback thrown thrown.package true =
      ⟨some old, none, none, thrown.package, thrown.package.map fun _ => .serving⟩ := by
  cases loaded : thrown.package <;> simp [rollback, isAside, loaded]

/-- From the swap on, the rollback restores by what was set aside. -/
theorem rolledBack_rollback {thrown : PackageState τ π} (swaps : steps.Swaps tree)
    (kept : thrown.package = (prior tree registration).package) (isAside : thrown.retired = tree)
    (restored : tree.isSome → steps.restores = true) :
    RolledBack tree registration steps (rollback thrown thrown.package steps.restores) := by
  cases tree with
  | none =>
    rw [rollback_bare isAside]
    refine ⟨rfl, fun hasTree => ?_, fun hasTree isLoaded => ?_, fun _ _ => ⟨rfl, rfl⟩, fun _ => rfl,
      nofun⟩
    · cases registration with
      | loaded package => exact absurd ⟨⟨rfl, package, rfl⟩, swaps⟩ hasTree
      | registered => rfl
      | absent => rfl
    · cases registration with
      | loaded package => exact absurd ⟨⟨rfl, package, rfl⟩, swaps⟩ hasTree
      | registered => exact absurd ⟨rfl, swaps⟩ isLoaded
      | absent => rfl
  | some old =>
    rw [restored rfl, rollback_aside isAside, kept]
    refine ⟨rfl, fun _ => rfl, fun _ isLoaded => ?_, fun bare => (nomatch bare.1), fun _ => rfl,
      fun loaded => by simpa using loaded⟩
    cases registration with
    | loaded package => rfl
    | registered => exact absurd ⟨rfl, swaps⟩ isLoaded
    | absent => rfl

end Failed

/-- What an install that throws leaves, where the old tree, if there was one, could be put back. -/
theorem installPackage_failed {τ π : Type*} (tree : Option τ) (registration : Registration π)
    (steps : InstallSteps τ π) (error : String)
    (fails : (installPackage (prior tree registration) steps).2 = .error error)
    (restored : tree.isSome → steps.restores = true) :
    RolledBack tree registration steps (installPackage (prior tree registration) steps).1 := by
  unfold installPackage at fails ⊢
  cases made : steps.makeDirectory with
  | some failed =>
    have early : ¬steps.Swaps tree := fun swaps => nomatch made.symm.trans swaps.1
    cases registration <;> exact rolledBack_of_not_swaps early fun _ => rfl
  | none =>
    cases loaded : steps.download with
    | some failed =>
      have early : ¬steps.Swaps tree := fun swaps => nomatch loaded.symm.trans swaps.2.1
      exact rolledBack_of_not_swaps early fun _ => rfl
    | none =>
      simp only [made, loaded] at fails ⊢
      cases isAside : setAside { prior tree registration with
          staging := steps.downloaded, retired := none } steps with
      | error failed =>
        -- The old tree is there and stays.
        have stuck : ¬(tree.isSome → steps.setAside = none) := by
          intro could
          unfold setAside at isAside
          rw [canonical_prior] at isAside
          cases tree with
          | none => cases isAside
          | some old =>
            rw [could rfl] at isAside
            cases isAside
        have unchanged : RolledBack tree registration steps
            { prior tree registration with staging := steps.downloaded } :=
          rolledBack_of_not_swaps (fun swaps => stuck swaps.2.2) fun could => absurd could stuck
        cases registration <;> exact unchanged
      | ok aside =>
        obtain ⟨samePackage, -, -, -, retired⟩ := setAside_eq_ok isAside
        obtain ⟨kept, keptAside⟩ := swapIn_package aside steps
        have swaps : steps.Swaps tree := by
          refine ⟨made, loaded, fun onDisk => ?_⟩
          obtain ⟨old, rfl⟩ := Option.isSome_iff_exists.mp onDisk
          unfold setAside at isAside
          rw [canonical_prior] at isAside
          cases could : steps.setAside with
          | none => rfl
          | some failed =>
            rw [could] at isAside
            cases isAside
        simp only [isAside] at fails ⊢
        cases stepped : swapIn aside steps with
        | mk thrown outcome =>
          rw [stepped] at kept keptAside fails
          cases outcome with
          | ok package => cases fails
          | error failed =>
            have same : thrown.package = (prior tree registration).package := kept.trans samePackage
            rw [← same]
            refine rolledBack_rollback swaps same (keptAside.trans (retired.trans ?_)) restored
            rw [canonical_prior, Option.or_none]

/-! ## A rejected publish -/

/-- An install whose new tree is rejected by the validation. -/
def rejected : InstallSteps Nat Nat where
  makeDirectory := none
  downloaded := some 2
  download := none
  setAside := none
  swap := none
  create := .ok 2
  validate := some "The package is not valid."
  restores := true

/-- A rejected publish of a loaded package leaves it loaded and listed. -/
theorem installPackage_failed_rejected :
    RolledBack (some 1) (.loaded 1) rejected
      (installPackage (prior (some 1) (.loaded 1)) rejected).1 :=
  installPackage_failed (some 1) (.loaded 1) rejected "The package is not valid." rfl fun _ => rfl

/-- A rejected publish drops a package that was loaded without its tree on disk. -/
theorem rejected_dropsLoaded :
    ¬∀ (tree : Option Nat) (registration : Registration Nat) (steps : InstallSteps Nat Nat)
      (error : String),
      (installPackage (prior tree registration) steps).2 = .error error →
      (tree.isSome → steps.restores = true) →
      Undone (prior tree registration) (installPackage (prior tree registration) steps).1 := by
  intro always
  have undone := always none (.loaded 1) rejected _ rfl fun _ => rfl
  exact absurd undone.package nofun

end MalloyPublisher.Environments
