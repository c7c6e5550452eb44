import Mathlib.Data.List.Infix

/-!
# Statements that meet an expired credential

A connection that reads from object storage holds a secret whose credentials run out. A statement
that fails for this reason has the secret renewed and is tried again. The renewal is itself a
statement of the same connection; a flag on the connection keeps it from starting another one.

Calls are numbered in the order in which they are made, the renewals' own calls among them. A call
gives way at each await: between any two of its events other calls may go on.

## Main definitions

* `DuckLakeConnection.step` — what one call does between two awaits
* `Retried` — what a caller's call may have done
* `Disturbed` — a statement meets an expired credential while another call renews it

## Main results

* `Consistent.run` — the flag is up while a renewal runs, and no renewal starts another
* `retried_run_iff` — every caller's call is retried as it should be in the runs without a disturbed
  statement, and in no others
-/

namespace MalloyPublisher.Duckdb

/-! ## The connection -/

/-- What a promise is rejected with. -/
inductive Thrown
  | error (message : String)
  | text (text : String)
  | other
deriving DecidableEq

inductive Outcome (A : Type)
  | answer (answer : A)
  | failed (error : Thrown)
deriving DecidableEq

def isExpiredCredentialError (error : Thrown) : Bool :=
  let message := match error with
    | .error message => message
    | .text text => text
    | .other => ""
  decide ("ExpiredToken".toList <:+: message.toList)

def shouldRenewStorageSecret (error : Thrown) (hasRenewer alreadyRenewing : Bool) : Bool :=
  hasRenewer && !alreadyRenewing && isExpiredCredentialError error

/-- What happens to a call, as its caller and DuckDB see it. -/
inductive Event (A : Type)
  | started (sql : String)
  | attempted (outcome : Outcome A)
  /-- The renewal that the call waits for has finished, or failed. -/
  | renewed (failure : Option Thrown)
  | settled (outcome : Outcome A)
deriving DecidableEq

/-- What a call waits for. -/
inductive Phase (A : Type)
  | trying
  | renewing (inner : ℕ)
  | retrying
  | settled (outcome : Outcome A)
deriving DecidableEq

structure Call (A : Type) where
  sql : String
  /-- The call whose renewal this one is; a caller's call is none. -/
  renews : Option ℕ
  phase : Phase A := .trying
  record : List (Event A) := [.started sql]
deriving DecidableEq

def Call.move {A : Type} (call : Call A) (phase : Phase A) (events : List (Event A)) : Call A :=
  { call with phase := phase, record := call.record ++ events }

def Call.settle {A : Type} (call : Call A) (event : Event A) (outcome : Outcome A) : Call A :=
  call.move (.settled outcome) [event, .settled outcome]

structure DuckLakeConnection (A : Type) where
  /-- The statement that the renewer runs. -/
  storageSecretRenewer : Option String
  renewingStorageSecret : Bool := false
  calls : List (Call A) := []
deriving DecidableEq

namespace DuckLakeConnection

variable {A : Type}

def update (connection : DuckLakeConnection A) (i : ℕ) (call : Call A) : DuckLakeConnection A :=
  { connection with calls := connection.calls.set i call }

/-- A call is made: its statement is handed to DuckDB. -/
def runSQL (connection : DuckLakeConnection A) (sql : String) (renews : Option ℕ) :
    DuckLakeConnection A :=
  { connection with calls := connection.calls ++ [{ sql := sql, renews := renews }] }

/-- A first attempt has failed. -/
def rescue (connection : DuckLakeConnection A) (i : ℕ) (call : Call A) (error : Thrown) :
    DuckLakeConnection A :=
  match connection.storageSecretRenewer with
  | some renewal =>
    if shouldRenewStorageSecret error true connection.renewingStorageSecret then
      { connection.update i (call.move (.renewing connection.calls.length)
          [.attempted (.failed error)]) with renewingStorageSecret := true }.runSQL renewal (some i)
    else connection.update i (call.settle (.attempted (.failed error)) (.failed error))
  | none => connection.update i (call.settle (.attempted (.failed error)) (.failed error))

def lower (connection : DuckLakeConnection A) : DuckLakeConnection A :=
  { connection with renewingStorageSecret := false }

/-- The renewal's call is settled, and the call that waits for it goes on. -/
def resume (connection : DuckLakeConnection A) (i : ℕ) (call : Call A) (outcome : Outcome A) :
    DuckLakeConnection A :=
  match outcome with
  | .answer _ =>
    connection.lower.update i (call.move .retrying [.renewed none, .started call.sql])
  | .failed error =>
    connection.lower.update i (call.settle (.renewed (some error)) (.failed error))

end DuckLakeConnection

/-- What may happen next on a connection. -/
inductive Action (A : Type)
  | call (sql : String)
  | attempt (i : ℕ) (outcome : Outcome A)
  | resume (i : ℕ)
deriving DecidableEq

namespace DuckLakeConnection

variable {A : Type}

def step (connection : DuckLakeConnection A) : Action A → Option (DuckLakeConnection A)
  | .call sql => some (connection.runSQL sql none)
  | .attempt i outcome =>
    connection.calls[i]?.bind fun call =>
      match call.phase, outcome with
      | .trying, .answer answer =>
        some (connection.update i (call.settle (.attempted (.answer answer)) (.answer answer)))
      | .trying, .failed error => some (connection.rescue i call error)
      | .retrying, outcome => some (connection.update i (call.settle (.attempted outcome) outcome))
      | _, _ => none
  | .resume i =>
    connection.calls[i]?.bind fun call =>
      match call.phase with
      | .renewing inner =>
        connection.calls[inner]?.bind fun renewal =>
          match renewal.phase with
          | .settled outcome => some (connection.resume i call outcome)
          | _ => none
      | _ => none

def run : DuckLakeConnection A → List (Action A) → Option (DuckLakeConnection A)
  | connection, [] => some connection
  | connection, action :: actions => (connection.step action).bind fun next => next.run actions

/-- A connection that has a renewer, before its first call. -/
def attached (renewal : String) : DuckLakeConnection A := { storageSecretRenewer := some renewal }

end DuckLakeConnection

/-! ## What is asked for -/

/-- All that a caller's call may have done when it is settled: it was attempted once, or failed with
an expired credential and was attempted again behind a renewal, or got the renewal's failure. -/
inductive Whole {A : Type} (sql : String) : List (Event A) → Prop
  | once {outcome : Outcome A}
      (other : ∀ error, outcome = .failed error → isExpiredCredentialError error = false) :
      Whole sql [.started sql, .attempted outcome, .settled outcome]
  | again {error : Thrown} (expired : isExpiredCredentialError error = true)
      (outcome : Outcome A) :
      Whole sql [.started sql, .attempted (.failed error), .renewed none, .started sql,
        .attempted outcome, .settled outcome]
  | notRenewed {error : Thrown} (expired : isExpiredCredentialError error = true)
      (failure : Thrown) :
      Whole sql [.started sql, .attempted (.failed error), .renewed (some failure),
        .settled (.failed failure)]

/-- A call has done a part of what it may do, and all of it once it is settled. -/
def Call.Retried {A : Type} (call : Call A) : Prop :=
  ∃ record, Whole call.sql record ∧ call.record <+: record ∧
    ∀ outcome, call.phase = .settled outcome →
      call.record = record ∧ call.record.getLast? = some (.settled outcome)

/-- Every caller's call is retried as it should be. -/
def DuckLakeConnection.Retried {A : Type} (connection : DuckLakeConnection A) : Prop :=
  ∀ (i : ℕ) (call : Call A), connection.calls[i]? = some call → call.renews = none → call.Retried

/-- A caller's first attempt fails with an expired credential while a renewal runs. -/
def Disturbed {A : Type} (connection : DuckLakeConnection A) : Action A → Prop
  | .attempt i (.failed error) =>
    connection.renewingStorageSecret = true ∧ isExpiredCredentialError error = true ∧
      ∃ call, connection.calls[i]? = some call ∧ call.phase = .trying ∧ call.renews = none
  | _ => False

/-- No step of a run is disturbed. -/
def Undisturbed {A : Type} : DuckLakeConnection A → List (Action A) → Prop
  | _, [] => True
  | connection, action :: actions =>
    ¬Disturbed connection action ∧
      ∀ next, connection.step action = some next → Undisturbed next actions

/-! ## What a step does -/

section Step

variable {A : Type} {connection next : DuckLakeConnection A} {i : ℕ} {call : Call A}

/-- The record of a call says what it waits for. -/
def Call.Tells (call : Call A) : Prop :=
  match call.phase with
  | .trying => call.record = [.started call.sql]
  | .renewing _ =>
    call.renews = none ∧ ∃ error, isExpiredCredentialError error = true ∧
      call.record = [.started call.sql, .attempted (.failed error)]
  | .retrying =>
    call.renews = none ∧ ∃ error, isExpiredCredentialError error = true ∧
      call.record =
        [.started call.sql, .attempted (.failed error), .renewed none, .started call.sql]
  | .settled outcome =>
    call.record = [.started call.sql, .attempted outcome, .settled outcome] ∨
      call.renews = none ∧ Whole call.sql call.record ∧
        call.record.getLast? = some (.settled outcome)

/-- A call waits for the renewal that it has started. -/
def Waits (connection : DuckLakeConnection A) (i inner : ℕ) : Prop :=
  ∃ call, connection.calls[i]? = some call ∧ call.phase = .renewing inner

/-- What holds of a connection between any two steps. -/
structure Consistent (connection : DuckLakeConnection A) : Prop where
  renewer : connection.storageSecretRenewer.isSome
  tells : ∀ (i : ℕ) (call : Call A), connection.calls[i]? = some call → call.Tells
  /-- The flag is up while a call waits for its renewal, and only then. -/
  flag : connection.renewingStorageSecret = true ↔ ∃ i inner, Waits connection i inner
  /-- No two calls wait for renewals. -/
  one : ∀ i j inner inner', Waits connection i inner → Waits connection j inner' → i = j
  /-- A renewal's call that is not settled is waited for. -/
  waited : ∀ (j i : ℕ) (inner : Call A), connection.calls[j]? = some inner →
    inner.renews = some i → inner.phase = .trying → Waits connection i j

/-- What can happen on a connection that has a renewer. -/
inductive Steps (connection : DuckLakeConnection A) : Action A → DuckLakeConnection A → Prop
  | call (sql : String) : Steps connection (.call sql) (connection.runSQL sql none)
  | once {i : ℕ} {call : Call A} {outcome : Outcome A} (isCall : connection.calls[i]? = some call)
      (phase : call.phase = .trying)
      (kept : ∀ error, outcome = .failed error → isExpiredCredentialError error = true →
        connection.renewingStorageSecret = true) :
      Steps connection (.attempt i outcome)
        (connection.update i (call.settle (.attempted outcome) outcome))
  | again {i : ℕ} {call : Call A} {outcome : Outcome A} (isCall : connection.calls[i]? = some call)
      (phase : call.phase = .retrying) :
      Steps connection (.attempt i outcome)
        (connection.update i (call.settle (.attempted outcome) outcome))
  | rescued {i : ℕ} {call : Call A} {error : Thrown} {renewal : String}
      (isCall : connection.calls[i]? = some call) (phase : call.phase = .trying)
      (down : connection.renewingStorageSecret = false)
      (expired : isExpiredCredentialError error = true) :
      Steps connection (.attempt i (.failed error))
        ({ connection.update i (call.move (.renewing connection.calls.length)
          [.attempted (.failed error)]) with renewingStorageSecret := true }.runSQL renewal (some i))
  | resumed {i inner : ℕ} {call renewal : Call A} {outcome : Outcome A}
      (isCall : connection.calls[i]? = some call) (phase : call.phase = .renewing inner)
      (isRenewal : connection.calls[inner]? = some renewal)
      (settled : renewal.phase = .settled outcome) :
      Steps connection (.resume i) (connection.resume i call outcome)

theorem steps_rescue {error : Thrown} (renewer : connection.storageSecretRenewer.isSome)
    (isCall : connection.calls[i]? = some call) (phase : call.phase = .trying) :
    Steps connection (.attempt i (.failed error)) (connection.rescue i call error) := by
  obtain ⟨renewal, isRenewer⟩ := Option.isSome_iff_exists.mp renewer
  rw [DuckLakeConnection.rescue, isRenewer]
  dsimp only
  split
  · next renews =>
    simp only [shouldRenewStorageSecret, Bool.true_and, Bool.and_eq_true, Bool.not_eq_true']
      at renews
    exact .rescued isCall phase renews.1 renews.2
  · next kept =>
    refine .once isCall phase fun error' same expired => ?_
    cases same
    simpa [shouldRenewStorageSecret, expired] using kept

theorem steps_of_step {action : Action A} (renewer : connection.storageSecretRenewer.isSome)
    (step : connection.step action = some next) : Steps connection action next := by
  cases action with
  | call sql =>
    cases step
    exact .call sql
  | attempt i outcome =>
    obtain ⟨call, isCall, step⟩ := Option.bind_eq_some_iff.mp step
    cases phase : call.phase with
    | trying =>
      cases outcome with
      | answer answer =>
        simp only [phase] at step
        cases step
        exact .once isCall phase (by rintro error ⟨⟩)
      | failed error =>
        simp only [phase] at step
        cases step
        exact steps_rescue renewer isCall phase
    | renewing inner => simp [phase] at step
    | retrying =>
      simp only [phase] at step
      cases step
      exact .again isCall phase
    | settled outcome => simp [phase] at step
  | resume i =>
    obtain ⟨call, isCall, step⟩ := Option.bind_eq_some_iff.mp step
    split at step
    · next inner phase =>
      obtain ⟨renewal, isRenewal, step⟩ := Option.bind_eq_some_iff.mp step
      split at step
      · next outcome settled =>
        cases step
        exact .resumed isCall phase isRenewal settled
      · cases step
    · cases step

/-! ### One call at a time -/

theorem calls_update (isCall : connection.calls[i]? = some call) (changed : Call A) (j : ℕ) :
    (connection.update i changed).calls[j]? =
      if j = i then some changed else connection.calls[j]? := by
  have inside : i < connection.calls.length := (List.getElem?_eq_some_iff.mp isCall).1
  rw [DuckLakeConnection.update, List.getElem?_set]
  by_cases same : i = j
  · simp [← same, inside]
  · simp [same, Ne.symm same]

theorem waits_update (isCall : connection.calls[i]? = some call) {changed : Call A}
    (goesOn : ∀ inner, changed.phase ≠ .renewing inner) {j inner : ℕ} :
    Waits (connection.update i changed) j inner ↔ j ≠ i ∧ Waits connection j inner := by
  simp only [Waits, calls_update isCall]
  by_cases same : j = i
  · simp [same, goesOn]
  · simp [same]

theorem calls_runSQL (sql : String) (renews : Option ℕ) (j : ℕ) :
    (connection.runSQL sql renews).calls[j]? =
      if j = connection.calls.length then some { sql := sql, renews := renews }
      else connection.calls[j]? := by
  rw [DuckLakeConnection.runSQL, List.getElem?_append]
  split_ifs with inside last last
  · omega
  · rfl
  · simp [last]
  · rw [List.getElem?_eq_none (by simp; omega), List.getElem?_eq_none (by omega)]

theorem waits_runSQL {sql : String} {renews : Option ℕ} {j inner : ℕ} :
    Waits (connection.runSQL sql renews) j inner ↔ Waits connection j inner := by
  simp only [Waits, calls_runSQL]
  by_cases last : j = connection.calls.length
  · simp [last]
  · simp [last]

/-! ### Every step keeps the flag -/

theorem Consistent.settle (consistent : Consistent connection)
    (isCall : connection.calls[i]? = some call) (goesOn : ∀ inner, call.phase ≠ .renewing inner)
    {event : Event A} {outcome : Outcome A} (tells : (call.settle event outcome).Tells) :
    Consistent (connection.update i (call.settle event outcome)) where
  renewer := consistent.renewer
  tells j other isOther := by
    rw [calls_update isCall] at isOther
    split_ifs at isOther
    · cases isOther
      exact tells
    · exact consistent.tells j other isOther
  flag := by
    have notWaiting : ∀ inner, ¬Waits connection i inner := by
      rintro inner ⟨other, isOther, phase⟩
      rw [isCall] at isOther
      cases isOther
      exact goesOn inner phase
    have same : ∀ j inner, Waits (connection.update i (call.settle event outcome)) j inner ↔
        Waits connection j inner := by
      intro j inner
      rw [waits_update isCall (by simp [Call.settle, Call.move])]
      refine ⟨And.right, fun waits => ⟨?_, waits⟩⟩
      rintro rfl
      exact notWaiting inner waits
    simp only [same]
    exact consistent.flag
  one j k inner inner' waits waits' := by
    rw [waits_update isCall (by simp [Call.settle, Call.move])] at waits waits'
    exact consistent.one j k inner inner' waits.2 waits'.2
  waited j k inner isInner renews phase := by
    rw [calls_update isCall] at isInner
    split_ifs at isInner
    · cases isInner
      cases phase
    · have waits := consistent.waited j k inner isInner renews phase
      rw [waits_update isCall (by simp [Call.settle, Call.move])]
      refine ⟨?_, waits⟩
      rintro rfl
      obtain ⟨other, isOther, isPhase⟩ := waits
      rw [isCall] at isOther
      cases isOther
      exact goesOn j isPhase

theorem Consistent.runSQL (consistent : Consistent connection) (sql : String) :
    Consistent (connection.runSQL sql none) where
  renewer := consistent.renewer
  tells j other isOther := by
    rw [calls_runSQL] at isOther
    split_ifs at isOther
    · cases isOther
      rfl
    · exact consistent.tells j other isOther
  flag := by
    simp only [waits_runSQL]
    exact consistent.flag
  one j k inner inner' waits waits' :=
    consistent.one j k inner inner' (waits_runSQL.mp waits) (waits_runSQL.mp waits')
  waited j k inner isInner renews phase := by
    rw [calls_runSQL] at isInner
    split_ifs at isInner
    · cases isInner
      cases renews
    · exact waits_runSQL.mpr (consistent.waited j k inner isInner renews phase)

/-- While the flag is down nothing waits, so a renewal that starts is the only one. -/
theorem Consistent.rescued (consistent : Consistent connection)
    (isCall : connection.calls[i]? = some call)
    (down : connection.renewingStorageSecret = false) {events : List (Event A)} {renewal : String}
    (tells : (call.move (.renewing connection.calls.length) events).Tells) :
    Consistent ({ connection.update i (call.move (.renewing connection.calls.length) events) with
      renewingStorageSecret := true }.runSQL renewal (some i)) := by
  have notWaiting : ∀ j inner, ¬Waits connection j inner := by
    intro j inner waits
    have up := consistent.flag.mpr ⟨j, inner, waits⟩
    rw [down] at up
    cases up
  have size : ({ connection.update i (call.move (.renewing connection.calls.length) events) with
      renewingStorageSecret := true } : DuckLakeConnection A).calls.length =
        connection.calls.length := List.length_set
  have waits : ∀ j inner, Waits ({ connection.update i
      (call.move (.renewing connection.calls.length) events) with
        renewingStorageSecret := true }.runSQL renewal (some i)) j inner ↔
          j = i ∧ inner = connection.calls.length := by
    intro j inner
    rw [waits_runSQL]
    change Waits (connection.update i _) j inner ↔ _
    simp only [Waits, calls_update isCall]
    by_cases same : j = i
    · simp [same, Call.move, eq_comm]
    · simp only [same, if_false, false_and, iff_false]
      exact notWaiting j inner
  refine ⟨consistent.renewer, fun j other isOther => ?_, ?_, ?_, ?_⟩
  · rw [calls_runSQL] at isOther
    split_ifs at isOther
    · cases isOther
      rfl
    · change (connection.update i _).calls[j]? = _ at isOther
      rw [calls_update isCall] at isOther
      split_ifs at isOther
      · cases isOther
        exact tells
      · exact consistent.tells j other isOther
  · simp only [waits]
    exact ⟨fun _ => ⟨i, _, rfl, rfl⟩, fun _ => rfl⟩
  · intro j k inner inner' isWaiting isWaiting'
    exact ((waits j inner).mp isWaiting).1.trans ((waits k inner').mp isWaiting').1.symm
  · intro j k inner isInner renews phase
    rw [waits]
    rw [calls_runSQL] at isInner
    split_ifs at isInner with last
    · cases isInner
      cases renews
      exact ⟨rfl, last.trans size⟩
    · change (connection.update i _).calls[j]? = _ at isInner
      rw [calls_update isCall] at isInner
      split_ifs at isInner
      · cases isInner
        cases phase
      · exact absurd (consistent.waited j k inner isInner renews phase) (notWaiting _ _)

/-- Once the call that waits goes on, nothing waits. -/
theorem Consistent.resumed (consistent : Consistent connection)
    (isCall : connection.calls[i]? = some call) {inner : ℕ} (phase : call.phase = .renewing inner)
    {renewal : Call A} (isRenewal : connection.calls[inner]? = some renewal) {outcome : Outcome A}
    (settled : renewal.phase = .settled outcome) {changed : Call A} (tells : changed.Tells)
    (renewed : ∀ inner, changed.phase ≠ .renewing inner) (tried : changed.phase ≠ .trying) :
    Consistent (connection.lower.update i changed) := by
  have lowered : connection.lower.calls[i]? = some call := isCall
  have own : Waits connection i inner := ⟨call, isCall, phase⟩
  have notWaiting : ∀ j inner,
      ¬Waits (connection.lower.update i changed) j inner := by
    intro j inner' waits
    obtain ⟨other, waits⟩ := (waits_update lowered renewed).mp waits
    exact other (consistent.one j i inner' inner waits own)
  refine ⟨consistent.renewer, fun j other isOther => ?_, ?_, ?_, ?_⟩
  · rw [calls_update lowered] at isOther
    split_ifs at isOther
    · cases isOther
      exact tells
    · exact consistent.tells j other isOther
  · simp only [notWaiting, exists_false, iff_false]
    exact Bool.false_ne_true
  · intro j k inner inner' waits
    exact absurd waits (notWaiting j inner)
  · intro j k other isOther renews isTrying
    rw [calls_update lowered] at isOther
    split_ifs at isOther
    · cases isOther
      exact absurd isTrying tried
    · have waits := consistent.waited j k other isOther renews isTrying
      have same := consistent.one k i j inner waits own
      subst same
      obtain ⟨waiting, isWaiting, isPhase⟩ := waits
      rw [isCall] at isWaiting
      cases isWaiting
      rw [phase] at isPhase
      cases isPhase
      change connection.calls[inner]? = _ at isOther
      rw [isRenewal] at isOther
      cases isOther
      rw [settled] at isTrying
      cases isTrying

/-! ### What a call tells when it goes on -/

theorem Call.Tells.settle_trying (tells : call.Tells) (phase : call.phase = .trying)
    (outcome : Outcome A) : (call.settle (.attempted outcome) outcome).Tells := by
  rw [Call.Tells, phase] at tells
  refine .inl ?_
  rw [Call.settle, Call.move, tells]
  rfl

theorem Call.Tells.settle_retrying (tells : call.Tells) (phase : call.phase = .retrying)
    (outcome : Outcome A) : (call.settle (.attempted outcome) outcome).Tells := by
  rw [Call.Tells, phase] at tells
  obtain ⟨caller, error, expired, record⟩ := tells
  refine .inr ⟨caller, ?_, ?_⟩
  · rw [Call.settle, Call.move, record]
    exact .again expired outcome
  · rw [Call.settle, Call.move, record]
    rfl

theorem Call.Tells.renew (tells : call.Tells) (phase : call.phase = .trying)
    (caller : call.renews = none) {error : Thrown}
    (expired : isExpiredCredentialError error = true) (inner : ℕ) :
    (call.move (.renewing inner) [.attempted (.failed error)]).Tells := by
  rw [Call.Tells, phase] at tells
  refine ⟨caller, error, expired, ?_⟩
  rw [Call.move, tells]
  rfl

theorem Call.Tells.retry (tells : call.Tells) {inner : ℕ} (phase : call.phase = .renewing inner) :
    (call.move .retrying [.renewed none, .started call.sql]).Tells := by
  rw [Call.Tells, phase] at tells
  obtain ⟨caller, error, expired, record⟩ := tells
  refine ⟨caller, error, expired, ?_⟩
  rw [Call.move, record]
  rfl

theorem Call.Tells.settle_renewing (tells : call.Tells) {inner : ℕ}
    (phase : call.phase = .renewing inner) (failure : Thrown) :
    (call.settle (.renewed (some failure)) (.failed failure)).Tells := by
  rw [Call.Tells, phase] at tells
  obtain ⟨caller, error, expired, record⟩ := tells
  refine .inr ⟨caller, ?_, ?_⟩
  · rw [Call.settle, Call.move, record]
    exact .notRenewed expired failure
  · rw [Call.settle, Call.move, record]
    rfl

/-- A call that goes on without a renewal that runs is a caller's. -/
theorem Consistent.renews_eq_none (consistent : Consistent connection)
    (isCall : connection.calls[i]? = some call) (phase : call.phase = .trying)
    (down : connection.renewingStorageSecret = false) : call.renews = none := by
  cases renews : call.renews with
  | none => rfl
  | some j =>
    have up := consistent.flag.mpr ⟨j, i, consistent.waited i j call isCall renews phase⟩
    rw [down] at up
    cases up

/-- Every step keeps the flag up while a renewal runs, and no longer. -/
theorem Consistent.step {action : Action A} (consistent : Consistent connection)
    (steps : Steps connection action next) : Consistent next := by
  cases steps with
  | call sql => exact consistent.runSQL sql
  | @once i call outcome isCall phase kept =>
    exact consistent.settle isCall (by simp [phase])
      ((consistent.tells i call isCall).settle_trying phase outcome)
  | @again i call outcome isCall phase =>
    exact consistent.settle isCall (by simp [phase])
      ((consistent.tells i call isCall).settle_retrying phase outcome)
  | @rescued i call error renewal isCall phase down expired =>
    exact consistent.rescued isCall down ((consistent.tells i call isCall).renew phase
      (consistent.renews_eq_none isCall phase down) expired _)
  | @resumed i inner call renewal outcome isCall phase isRenewal settled =>
    have tells := consistent.tells i call isCall
    cases outcome with
    | answer answer =>
      exact consistent.resumed isCall phase isRenewal settled (tells.retry phase)
        (by simp [Call.move]) (by simp [Call.move])
    | failed failure =>
      exact consistent.resumed isCall phase isRenewal settled (tells.settle_renewing phase failure)
        (by simp [Call.settle, Call.move]) (by simp [Call.settle, Call.move])

/-! ### What a step does to what is asked for -/

/-- A call that is not settled may still do all that it should. -/
theorem Call.Tells.retried (tells : call.Tells) (goesOn : ∀ outcome, call.phase ≠ .settled outcome) :
    call.Retried := by
  cases phase : call.phase with
  | trying =>
    rw [Call.Tells, phase] at tells
    have unexpired : ∀ error, (.failed .other : Outcome A) = .failed error →
        isExpiredCredentialError error = false := by
      rintro error ⟨⟩
      decide
    exact ⟨_, .once unexpired, ⟨_, congrArg (· ++ _) tells⟩, by simp [phase]⟩
  | renewing inner =>
    rw [Call.Tells, phase] at tells
    obtain ⟨-, error, expired, record⟩ := tells
    exact ⟨_, .again expired (.failed .other), ⟨_, congrArg (· ++ _) record⟩, by simp [phase]⟩
  | retrying =>
    rw [Call.Tells, phase] at tells
    obtain ⟨-, error, expired, record⟩ := tells
    exact ⟨_, .again expired (.failed .other), ⟨_, congrArg (· ++ _) record⟩, by simp [phase]⟩
  | settled outcome => exact absurd phase (goesOn outcome)

/-- A call that did all it should. -/
theorem Call.retried_of_whole (whole : Whole call.sql call.record) {outcome : Outcome A}
    (phase : call.phase = .settled outcome)
    (last : call.record.getLast? = some (.settled outcome)) : call.Retried := by
  refine ⟨call.record, whole, List.prefix_rfl, fun outcome' isPhase => ⟨rfl, ?_⟩⟩
  rw [phase] at isPhase
  cases isPhase
  exact last

/-- A call that is settled at its first attempt did all it should where it met no expired
credential. -/
theorem Call.Tells.retried_settle_iff (tells : call.Tells) (phase : call.phase = .trying)
    {outcome : Outcome A} :
    (call.settle (.attempted outcome) outcome).Retried ↔
      ∀ error, outcome = .failed error → isExpiredCredentialError error = false := by
  rw [Call.Tells, phase] at tells
  have record : (call.settle (.attempted outcome) outcome).record =
      [.started call.sql, .attempted outcome, .settled outcome] := by
    rw [Call.settle, Call.move, tells]
    rfl
  constructor
  · rintro ⟨whole, isWhole, -, settled⟩
    have same := (settled outcome rfl).1
    rw [record] at same
    rw [← same] at isWhole
    cases isWhole with
    | once other => exact other
  · intro other
    refine Call.retried_of_whole ?_ rfl (by rw [record]; rfl)
    rw [record]
    exact .once other

theorem retried_update (isCall : connection.calls[i]? = some call) (before : call.Retried)
    (changed : Call A) (same : changed.renews = call.renews) :
    (connection.update i changed).Retried ↔
      connection.Retried ∧ (call.renews = none → changed.Retried) := by
  constructor
  · intro retried
    refine ⟨fun j other isOther caller => ?_, fun caller => ?_⟩
    · by_cases own : j = i
      · subst own
        rw [isCall] at isOther
        cases isOther
        exact before
      · refine retried j other ?_ caller
        rw [calls_update isCall, if_neg own]
        exact isOther
    · refine retried i changed ?_ (same.trans caller)
      rw [calls_update isCall, if_pos rfl]
  · rintro ⟨retried, own⟩ j other isOther caller
    rw [calls_update isCall] at isOther
    split_ifs at isOther
    · cases isOther
      exact own (same.symm.trans caller)
    · exact retried j other isOther caller

theorem retried_runSQL (sql : String) (renews : Option ℕ) :
    (connection.runSQL sql renews).Retried ↔ connection.Retried := by
  constructor
  · intro retried j other isOther caller
    refine retried j other ?_ caller
    rw [calls_runSQL, if_neg, isOther]
    rintro rfl
    simp at isOther
  · intro retried j other isOther caller
    rw [calls_runSQL] at isOther
    split_ifs at isOther
    · cases isOther
      have tells : Call.Tells (A := A) { sql := sql, renews := renews } := rfl
      exact tells.retried (by simp)
    · exact retried j other isOther caller

/-- A step is what is asked for unless it is disturbed. -/
theorem retried_step_iff {action : Action A} (consistent : Consistent connection)
    (steps : Steps connection action next) :
    next.Retried ↔ connection.Retried ∧ ¬Disturbed connection action := by
  cases steps with
  | call sql => simp [retried_runSQL, Disturbed]
  | @once i call outcome isCall phase kept =>
    have tells := consistent.tells i call isCall
    rw [retried_update isCall (tells.retried (by simp [phase])) (call.settle _ _) rfl,
      tells.retried_settle_iff phase]
    refine and_congr_right fun _ => ?_
    cases outcome with
    | answer answer => simp [Disturbed]
    | failed error =>
      constructor
      · rintro unexpired ⟨-, expired, other, isOther, -, caller⟩
        rw [isCall] at isOther
        cases isOther
        rw [unexpired caller error rfl] at expired
        cases expired
      · rintro undisturbed caller error' ⟨⟩
        by_contra expired
        rw [Bool.not_eq_false] at expired
        exact undisturbed ⟨kept error rfl expired, expired, call, isCall, phase, caller⟩
  | @again i call outcome isCall phase =>
    have tells := consistent.tells i call isCall
    have undisturbed : ¬Disturbed connection (.attempt i outcome) := by
      cases outcome with
      | answer answer => exact id
      | failed error =>
        rintro ⟨-, -, other, isOther, isTrying, -⟩
        rw [isCall] at isOther
        cases isOther
        rw [phase] at isTrying
        cases isTrying
    have settled := tells.settle_retrying phase outcome
    rw [retried_update isCall (tells.retried (by simp [phase])) (call.settle _ _) rfl]
    refine and_congr_right fun _ => ⟨fun _ => undisturbed, fun _ _ => ?_⟩
    rw [Call.Tells, phase] at tells
    obtain ⟨-, error, expired, record⟩ := tells
    refine Call.retried_of_whole ?_ rfl (by rw [Call.settle, Call.move, record]; rfl)
    rw [Call.settle, Call.move, record]
    exact .again expired outcome
  | @rescued i call error renewal isCall phase down expired =>
    have tells := consistent.tells i call isCall
    have renewed := tells.renew phase (consistent.renews_eq_none isCall phase down) expired
      connection.calls.length
    rw [retried_runSQL]
    change (connection.update i _).Retried ↔ _
    rw [retried_update isCall (tells.retried (by simp [phase])) (call.move _ _) rfl]
    refine and_congr_right fun _ => ⟨?_, fun _ _ => renewed.retried (by simp [Call.move])⟩
    rintro - ⟨up, -⟩
    rw [down] at up
    cases up
  | @resumed i inner call renewal outcome isCall phase isRenewal settled =>
    have tells := consistent.tells i call isCall
    have before := tells.retried (by simp [phase])
    have lowered : connection.lower.calls[i]? = some call := isCall
    cases outcome with
    | answer answer =>
      refine (retried_update lowered before (call.move _ _) rfl).trans (and_congr_right fun _ => ?_)
      exact ⟨fun _ => id, fun _ _ => (tells.retry phase).retried (by simp [Call.move])⟩
    | failed failure =>
      refine (retried_update lowered before (call.settle _ _) rfl).trans
        (and_congr_right fun _ => ⟨fun _ => id, fun _ _ => ?_⟩)
      rw [Call.Tells, phase] at tells
      obtain ⟨-, error, expired, record⟩ := tells
      refine Call.retried_of_whole ?_ rfl (by rw [Call.settle, Call.move, record]; rfl)
      rw [Call.settle, Call.move, record]
      exact .notRenewed expired failure

end Step

/-! ## Runs -/

section Run

variable {A : Type} {connection final : DuckLakeConnection A} {actions : List (Action A)}

theorem Consistent.run (consistent : Consistent connection)
    (ran : connection.run actions = some final) : Consistent final := by
  induction actions generalizing connection with
  | nil =>
    cases ran
    exact consistent
  | cons action actions ih =>
    obtain ⟨next, step, ran⟩ := Option.bind_eq_some_iff.mp ran
    exact ih (consistent.step (steps_of_step consistent.renewer step)) ran

theorem retried_run_iff (consistent : Consistent connection)
    (ran : connection.run actions = some final) :
    final.Retried ↔ connection.Retried ∧ Undisturbed connection actions := by
  induction actions generalizing connection with
  | nil =>
    cases ran
    simp [Undisturbed]
  | cons action actions ih =>
    obtain ⟨next, step, ran⟩ := Option.bind_eq_some_iff.mp ran
    have steps := steps_of_step consistent.renewer step
    rw [ih (consistent.step steps) ran, retried_step_iff consistent steps, Undisturbed]
    simp only [step, Option.some.injEq, forall_eq', and_assoc]

theorem consistent_attached (renewal : String) :
    Consistent (DuckLakeConnection.attached (A := A) renewal) where
  renewer := rfl
  tells i call isCall := by simp [DuckLakeConnection.attached] at isCall
  flag := by simp [DuckLakeConnection.attached, Waits]
  one i j inner inner' waits := by simp [DuckLakeConnection.attached, Waits] at waits
  waited j i inner isInner := by simp [DuckLakeConnection.attached] at isInner

/-- In a run on a connection with a renewer, every caller's call is retried as it should be just if
no statement meets an expired credential while another renews it. No renewal's statement is ever
retried, and the flag is down when no renewal runs. -/
theorem statements_are_retried_iff {renewal : String}
    (ran : (DuckLakeConnection.attached (A := A) renewal).run actions = some final) :
    (final.Retried ↔ Undisturbed (DuckLakeConnection.attached renewal) actions) ∧
      (∀ (i : ℕ) (call : Call A), final.calls[i]? = some call → call.renews.isSome →
        ∃ outcome, call.record <+: [.started call.sql, .attempted outcome, .settled outcome]) ∧
      (final.renewingStorageSecret = true ↔ ∃ i inner, Waits final i inner) := by
  have start := consistent_attached (A := A) renewal
  have consistent := start.run ran
  refine ⟨?_, fun i call isCall inner => ?_, consistent.flag⟩
  · rw [retried_run_iff start ran]
    refine and_iff_right ?_
    intro i call isCall
    simp [DuckLakeConnection.attached] at isCall
  · have tells := consistent.tells i call isCall
    have notCaller : call.renews ≠ none := Option.isSome_iff_ne_none.mp inner
    cases phase : call.phase with
    | trying =>
      rw [Call.Tells, phase] at tells
      exact ⟨.failed .other, _, congrArg (· ++ _) tells⟩
    | renewing inner =>
      rw [Call.Tells, phase] at tells
      exact absurd tells.1 notCaller
    | retrying =>
      rw [Call.Tells, phase] at tells
      exact absurd tells.1 notCaller
    | settled outcome =>
      rw [Call.Tells, phase] at tells
      rcases tells with record | ⟨caller, -⟩
      · exact ⟨outcome, record ▸ List.prefix_rfl⟩
      · exact absurd caller notCaller

/-- An expiry that two statements meet one after the other. -/
def apart : List (Action ℕ) :=
  [.call "a", .attempt 0 (.failed (.error "ExpiredToken")), .attempt 1 (.answer 0), .resume 0,
    .attempt 0 (.answer 1), .call "b", .attempt 2 (.answer 2)]

theorem statements_are_retried_iff_apart :
    ∃ final, (DuckLakeConnection.attached "renew").run apart = some final ∧ final.Retried := by
  refine ⟨_, rfl, (@statements_are_retried_iff ℕ _ apart "renew" rfl).1.mpr ?_⟩
  refine ⟨id, ?_⟩
  rintro next ⟨⟩
  refine ⟨fun disturbed => absurd disturbed.1 (by decide), ?_⟩
  rintro next ⟨⟩
  refine ⟨id, ?_⟩
  rintro next ⟨⟩
  refine ⟨id, ?_⟩
  rintro next ⟨⟩
  refine ⟨id, ?_⟩
  rintro next ⟨⟩
  refine ⟨id, ?_⟩
  rintro next ⟨⟩
  refine ⟨id, ?_⟩
  rintro next ⟨⟩
  trivial

/-- Two statements meet an expired credential at once, and the second is not tried again although
the renewal succeeds. -/
def together : List (Action ℕ) :=
  [.call "a", .call "b", .attempt 0 (.failed (.error "ExpiredToken")),
    .attempt 1 (.failed (.error "ExpiredToken")), .attempt 2 (.answer 0), .resume 0,
    .attempt 0 (.answer 1)]

theorem not_every_statement_is_retried :
    ∃ final, (DuckLakeConnection.attached "renew").run together = some final ∧
      final.calls[1]? = some ⟨"b", none, .settled (.failed (.error "ExpiredToken")),
        [.started "b", .attempted (.failed (.error "ExpiredToken")),
          .settled (.failed (.error "ExpiredToken"))]⟩ ∧ ¬final.Retried := by
  refine ⟨_, rfl, rfl, fun retried => ?_⟩
  obtain ⟨whole, isWhole, -, settled⟩ := retried 1 _ rfl rfl
  have same := (settled _ rfl).1
  rw [← same] at isWhole
  cases isWhole with
  | once other =>
    have unexpired := other _ rfl
    revert unexpired
    decide +kernel

end Run

end MalloyPublisher.Duckdb
