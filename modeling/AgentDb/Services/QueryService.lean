import AgentDb.Executor.Write
import AgentDb.Operations.Execution
import AgentDb.Safety.L1Parse

/-!
# One SQL operation: `services/query_service.rs`

`run_desktop_sql` claims an operation, runs its statement on the target and records what became
of it. `settle` is the part that turns the executor's result into a verdict. The verdict is
checked against the target: `verdict_sound_iff` says when `failed` and `cancelled` can be relied
on to mean that nothing was changed.

The audit and history rows the service writes along the way are left out; they neither read nor
change an operation.
-/

namespace AgentDb
namespace Services

open Executor Json Operations Safety

/-! ### The run -/

/-- What `run_desktop_sql` has reloaded and checked before it registers for cancellation. -/
structure Prepared where
  engine : Engine
  classification : Classification
  statement : Statement
  changes : Bool
  allowWrites : Bool

def Prepared.isWrite (p : Prepared) : Bool := p.classification.kind ≠ .read

/-- The statement as the target receives it. -/
def Prepared.request (p : Prepared) : Request where
  engine := p.engine
  class_ := txClass p.engine p.statement
  number := 1
  changes := p.changes

/-- What a run meets outside the store: its checks, the cancel signal as it stands after the
claim, the audit record, the two halves of the connection, and the target. -/
structure DesktopRun where
  precheck : AppResult Prepared
  signalled : Bool
  audit : AppResult Unit
  connect : AppResult Unit
  backend : AppResult Unit
  read : AppResult ExecOutcome
  answers : WriteAnswers

/-- `executor::execute`. -/
def execute (run : DesktopRun) (p : Prepared) (grant : ExecutionGrant) (operationId : Uuid) :
    AppResult ExecOutcome × Target :=
  match p.classification.kind with
  | .read => (run.read, {})
  | .write | .ddl | .privilege =>
      runWrite p.request p.allowWrites grant operationId run.answers {}

/-- A call that ends the execution. -/
structure Receipt where
  target : OperationState
  details : Value

def isOutcomeUnknown : AppError → Bool
  | .outcomeUnknown _ => true
  | _ => false

/-- The error of a write that was interrupted, as it is reported. -/
def settleError (isWrite : Bool) (error : AppError) : AppError :=
  if isWrite && (isCancelled error || isTimedOut error || isOutcomeUnknown error) then
    match error with
    | .outcomeUnknown message => .outcomeUnknown message
    | other => .outcomeUnknown
        ("write execution was interrupted before rollback or commit could be confirmed: " ++
          other.toText)
  else error

/-- The call an error of the executor leads to. -/
def settle (isWrite : Bool) (error : AppError) : Receipt :=
  let settled := settleError isWrite error
  if isOutcomeUnknown settled then ⟨.outcomeUnknown, reasonDetails "target_outcome_unconfirmed"⟩
  else if isCancelled error then ⟨.cancelled, reasonDetails "user_cancelled"⟩
  else ⟨.failed, reasonDetails settled.kind⟩

/-- An optional number as JSON. -/
def numberOrNull : Option ℕ → Value
  | none => .null
  | some n => .number (.int n)

/-- The details of a success. -/
def successDetails (outcome : ExecOutcome) : Value :=
  .object [("committed", .bool outcome.committed),
    ("durationMs", numberOrNull outcome.durationMs),
    ("rowCount", numberOrNull (outcome.rowCount <|> outcome.affected))]

section

variable (x : Crates) (runtimeId : Uuid) (clock : ℕ → DateTime) (ids : ℕ → Uuid)

/-- `run_desktop_sql` after its claim. The store calls take the clock readings and the identifiers
in their order. -/
def runClaimed (run : DesktopRun) (p : Prepared) (grant : ExecutionGrant) (operationId : Uuid)
    (t : Tables) : AppResult ExecOutcome × Tables × Target :=
  let receipt := fun (target : OperationState) (details : Value) =>
    finish x runtimeId operationId target details (clock 1) (ids 1) t
  if run.signalled then
    match receipt .cancelled (reasonDetails "user_cancelled_before_target_access") with
    | (.error e, t) => (.error e, t, {})
    | (.ok _, t) => (.error (.safety "query cancelled"), t, {})
  else match (if p.isWrite then run.audit else .ok ()), run.connect, run.backend with
  | .error e, _, _ =>
      (.error (.config ("audit pre-record failed — refusing to run write: " ++ e.toText)),
        (receipt .failed (reasonDetails "audit_pre_record_failed")).2, {})
  | _, .error e, _ => (.error e, (receipt .failed (reasonDetails "connection_failed")).2, {})
  | _, _, .error e => (.error e, (receipt .failed (reasonDetails "sql_backend_unavailable")).2, {})
  | .ok _, .ok _, .ok _ =>
    match execute run p grant operationId with
    | (.ok outcome, target) =>
        match receipt .succeeded (successDetails outcome) with
        | (.ok _, t) => (.ok outcome, t, target)
        | (.error e, t) =>
            let fallback := if p.isWrite then OperationState.outcomeUnknown else .failed
            (.error e, (finish x runtimeId operationId fallback
              (reasonDetails "local_receipt_failed") (clock 2) (ids 2) t).2, target)
    | (.error e, target) =>
        let verdict := settle p.isWrite e
        (.error (settleError p.isWrite e), (receipt verdict.target verdict.details).2, target)

/-- `run_desktop_sql`, with the tables it leaves and the session it leaves on the target. -/
def runDesktopSql (run : DesktopRun) (operationId : Uuid) (t : Tables) :
    AppResult ExecOutcome × Tables × Target :=
  match t.get x operationId, run.precheck with
  | .error e, _ | _, .error e => (.error e, t, {})
  | .ok _, .ok p =>
    match claim x runtimeId operationId (clock 0) (ids 0) t with
    | (.error e, t) => (.error e, t, {})
    | (.ok claimed, t) => runClaimed x runtimeId clock ids run p claimed.grant operationId t

end

/-! ### What is recorded -/

/-- The run gets to the target: nothing stops it between the claim and `BEGIN`. -/
structure ReachesTarget (run : DesktopRun) (p : Prepared) : Prop where
  notSignalled : run.signalled = false
  audit : run.audit = .ok ()
  connect : run.connect = .ok ()
  backend : run.backend = .ok ()
  allowWrites : p.allowWrites

/-- The terminal states a write is recorded in, with what they rest on. -/
inductive Recorded (run : DesktopRun) (p : Prepared) : OperationState → Prop
  | early {s : OperationState} (hreach : ¬ ReachesTarget run p)
      (hs : s = .failed ∨ s = .cancelled) : Recorded run p s
  | succeeded {affected : ℕ}
      (hwrite : (writeFuture p.request run.answers {}).1 = .done (.ok affected)) :
      Recorded run p .succeeded
  | failed {error : String}
      (hwrite : (writeFuture p.request run.answers {}).1 = .done (.error (.db error))) :
      Recorded run p .failed
  | outcomeUnknown : Recorded run p .outcomeUnknown

/-- The verdict on an error of `run_write` rests on a plain driver error, or is unknown. -/
theorem settle_writeFuture (run : DesktopRun) (p : Prepared) {e : AppError}
    (h : guardRegistered (writeFuture p.request run.answers {}).1 = .error e) :
    Recorded run p (settle true e).target := by
  have hend := writeFuture_cases p.request run.answers
  generalize hout : writeFuture p.request run.answers {} = out at h hend
  cases hend with
  | committed affected t => cases h
  | failed error t =>
    cases h
    exact .failed (by rw [hout])
  | unacknowledged error t =>
    cases h
    exact .outcomeUnknown
  | dropped cause t =>
    cases h
    have hinterrupt : (isCancelled cause.error || isTimedOut cause.error) = true := by
      rw [Bool.or_eq_true]
      exact interrupt_recognised cause
    have hsettled : settleError true cause.error = .outcomeUnknown
        ("write execution was interrupted before rollback or commit could be confirmed: " ++
          cause.error.toText) := by
      cases cause <;> simp [settleError, hinterrupt] <;> rfl
    rw [settle, hsettled]
    exact .outcomeUnknown

section Run

variable (x : Crates) (runtimeId : Uuid) (clock : ℕ → DateTime) (ids : ℕ → Uuid) (t : Tables)
  {run : DesktopRun} {p : Prepared} {operationId : Uuid}

/-- The executor of a write is `run_write`. -/
theorem execute_write (hwrite : p.classification.kind ≠ .read) (grant : ExecutionGrant) :
    execute run p grant operationId =
      runWrite p.request p.allowWrites grant operationId run.answers {} := by
  unfold execute
  cases hkind : p.classification.kind with
  | read => exact absurd hkind hwrite
  | _ => rfl

/-- A run that does not reach the target fails or is cancelled. -/
theorem runClaimed_early (hwrite : p.classification.kind ≠ .read) {grant : ExecutionGrant}
    (hgrant : grant.operationId = operationId) (hreach : ¬ ReachesTarget run p) :
    (runClaimed x runtimeId clock ids run p grant operationId t).2.2 = {} ∧
      ∃ target details, (target = .failed ∨ target = .cancelled) ∧
        (runClaimed x runtimeId clock ids run p grant operationId t).2.1 =
          (finish x runtimeId operationId target details (clock 1) (ids 1) t).2 := by
  have hisWrite : p.isWrite = true := by simpa [Prepared.isWrite] using hwrite
  unfold runClaimed
  rw [execute_write hwrite]
  simp only [hisWrite, if_true]
  cases hsignalled : run.signalled with
  | true =>
    simp only [if_true]
    generalize hreceipt : finish x runtimeId operationId .cancelled _ (clock 1) (ids 1) t = out
    obtain ⟨result, t'⟩ := out
    cases result <;> exact ⟨rfl, .cancelled, _, .inr rfl, by rw [hreceipt]⟩
  | false =>
    simp only [Bool.false_eq_true, if_false]
    cases haudit : run.audit with
    | error e => exact ⟨rfl, .failed, _, .inl rfl, rfl⟩
    | ok =>
      cases hconnect : run.connect with
      | error e => exact ⟨rfl, .failed, _, .inl rfl, rfl⟩
      | ok =>
        cases hbackend : run.backend with
        | error e => exact ⟨rfl, .failed, _, .inl rfl, rfl⟩
        | ok =>
          have hallow : ¬ p.allowWrites := fun hallow =>
            hreach ⟨hsignalled, haudit, hconnect, hbackend, hallow⟩
          simp only [runWrite, hgrant, not_true_eq_false, ne_eq, if_false, hallow]
          exact ⟨rfl, .failed, _, .inl rfl, rfl⟩

/-- A run that reaches the target ends as its write does. -/
theorem runClaimed_reaches (hwrite : p.classification.kind ≠ .read) {grant : ExecutionGrant}
    (hgrant : grant.operationId = operationId) (hreach : ReachesTarget run p) :
    (runClaimed x runtimeId clock ids run p grant operationId t).2.2 =
        (writeFuture p.request run.answers {}).2 ∧
      match guardRegistered (writeFuture p.request run.answers {}).1 with
      | .ok affected =>
          let details := successDetails { affected := some affected, committed := true }
          let receipt := finish x runtimeId operationId .succeeded details (clock 1) (ids 1) t
          (runClaimed x runtimeId clock ids run p grant operationId t).2.1 =
            match receipt.1 with
            | .ok _ => receipt.2
            | .error _ => (finish x runtimeId operationId .outcomeUnknown
                (reasonDetails "local_receipt_failed") (clock 2) (ids 2) receipt.2).2
      | .error e => (runClaimed x runtimeId clock ids run p grant operationId t).2.1 =
          (finish x runtimeId operationId (settle true e).target (settle true e).details (clock 1)
            (ids 1) t).2 := by
  have hisWrite : p.isWrite = true := by simpa [Prepared.isWrite] using hwrite
  unfold runClaimed
  rw [execute_write hwrite]
  simp only [hisWrite, if_true, hreach.notSignalled, hreach.audit, hreach.connect, hreach.backend,
    Bool.false_eq_true, if_false, runWrite, hgrant, ne_eq, not_true_eq_false, hreach.allowWrites]
  generalize writeFuture p.request run.answers {} = out
  obtain ⟨guarded, target⟩ := out
  cases hresult : guardRegistered guarded with
  | ok affected =>
    simp only [Except.map]
    generalize finish x runtimeId operationId .succeeded _ (clock 1) (ids 1) t = receipt
    obtain ⟨result, t'⟩ := receipt
    cases result <;> exact ⟨rfl, rfl⟩
  | error e => exact ⟨rfl, rfl⟩

/-- **What a claimed run records**, if it records an end at all. -/
theorem recorded_of_runClaimed (hids : t.UniqueIds) (hexecuting : t.InState operationId .executing)
    (hwrite : p.classification.kind ≠ .read) {grant : ExecutionGrant}
    (hgrant : grant.operationId = operationId) {row : OperationRow}
    (hrow : row ∈ (runClaimed x runtimeId clock ids run p grant operationId t).2.1.operations)
    (hid : row.id = operationId) (hterminal : row.state.isTerminal) :
    Recorded run p row.state := by
  have hreceipt : ∀ {target details} {now : DateTime} {eventId : Uuid},
      row ∈ (finish x runtimeId operationId target details now eventId t).2.operations →
        row.state = target := fun hmem => by
    rcases state_finish hids hexecuting hmem hid with h | h
    · rw [h] at hterminal
      cases hterminal
    · exact h
  by_cases hreach : ReachesTarget run p
  · obtain ⟨-, hends⟩ := runClaimed_reaches x runtimeId clock ids t hwrite hgrant hreach
    cases hresult : guardRegistered (writeFuture p.request run.answers {}).1 with
    | error e =>
      simp only [hresult] at hends
      rw [hends] at hrow
      rw [hreceipt hrow]
      exact settle_writeFuture run p hresult
    | ok affected =>
      simp only [hresult] at hends
      have hdone : (writeFuture p.request run.answers {}).1 = .done (.ok affected) := by
        generalize (writeFuture p.request run.answers {}).1 = guarded at hresult
        cases guarded <;> cases hresult
        rfl
      rcases finish_cases (x := x) hids runtimeId operationId .succeeded
        (successDetails { affected := some affected, committed := true }) (clock 1) (ids 1) with
        ⟨e, hfinish⟩ | ⟨op, t', hfinish, hsucceeded⟩
      · rw [hends, hfinish] at hrow
        rw [hreceipt hrow]
        exact .outcomeUnknown
      · rw [hends, hfinish] at hrow
        rw [hsucceeded row hrow hid]
        exact .succeeded hdone
  · obtain ⟨-, target, details, htarget, htables⟩ :=
      runClaimed_early x runtimeId clock ids t hwrite hgrant hreach
    rw [htables] at hrow
    rw [hreceipt hrow]
    exact .early hreach htarget

theorem runDesktopSql_claimed {record : OperationRecord} {claimed : ClaimedOperation} {t₁ : Tables}
    (hget : t.get x operationId = .ok record) (hprecheck : run.precheck = .ok p)
    (hclaim : claim x runtimeId operationId (clock 0) (ids 0) t = (.ok claimed, t₁)) :
    runDesktopSql x runtimeId clock ids run operationId t =
      runClaimed x runtimeId clock ids run p claimed.grant operationId t₁ := by
  rw [runDesktopSql, hget, hprecheck]
  simp only [hclaim]

/-- The session a claimed run leaves: a fresh one, or that of its write. -/
theorem target_cases (hids : t.UniqueIds) (hprecheck : run.precheck = .ok p)
    (hwrite : p.classification.kind ≠ .read) :
    (runDesktopSql x runtimeId clock ids run operationId t).2.2 = {} ∨
      ReachesTarget run p ∧ (runDesktopSql x runtimeId clock ids run operationId t).2.2 =
        (writeFuture p.request run.answers {}).2 := by
  unfold runDesktopSql
  cases t.get x operationId with
  | error e => exact .inl rfl
  | ok record =>
    rw [hprecheck]
    dsimp only
    generalize hclaim : claim x runtimeId operationId (clock 0) (ids 0) t = out
    obtain ⟨result, t₁⟩ := out
    cases result with
    | error e => exact .inl rfl
    | ok claimed =>
      obtain ⟨hgrant, -⟩ := claim_eq_ok hids hclaim
      by_cases hreach : ReachesTarget run p
      · exact .inr ⟨hreach, (runClaimed_reaches x runtimeId clock ids t₁ hwrite hgrant hreach).1⟩
      · exact .inl (runClaimed_early x runtimeId clock ids t₁ hwrite hgrant hreach).1

/-- What a run records whose claim succeeds. -/
theorem recorded_of_run (hids : t.UniqueIds) (hprecheck : run.precheck = .ok p)
    (hwrite : p.classification.kind ≠ .read) {claimed : ClaimedOperation} {t₁ : Tables}
    (hclaim : claim x runtimeId operationId (clock 0) (ids 0) t = (.ok claimed, t₁))
    {row : OperationRow}
    (hrow : row ∈ (runDesktopSql x runtimeId clock ids run operationId t).2.1.operations)
    (hid : row.id = operationId) (hterminal : row.state.isTerminal) :
    Recorded run p row.state := by
  obtain ⟨hgrant, hids₁, hexecuting, row₀, hrow₀, hid₀, hstate₀⟩ := claim_eq_ok hids hclaim
  cases hget : t.get x operationId with
  | error e =>
    -- nothing was written: the operation still waits
    rw [runDesktopSql, hget] at hrow
    rw [hids.eq hrow hrow₀ (hid.trans hid₀.symm)] at hterminal
    rcases hstate₀ with h | h <;> rw [h] at hterminal <;> cases hterminal
  | ok record =>
    rw [runDesktopSql_claimed x runtimeId clock ids t hget hprecheck hclaim] at hrow
    exact recorded_of_runClaimed x runtimeId clock ids t₁ hids₁ hexecuting hwrite hgrant hrow hid
      hterminal

end Run

/-! ### Whether the verdict can be relied on -/

section Verdict

variable (x : Crates) (runtimeId : Uuid) (clock : ℕ → DateTime) (ids : ℕ → Uuid)

/-- What may persist on the target after the run, as far as its answers tell. -/
def MayPersist (run : DesktopRun) (operationId : Uuid) (t : Tables) (effects : List ℕ) : Prop :=
  ∃ answers : WriteAnswers, answers.told = run.answers.told ∧
    (runDesktopSql x runtimeId clock ids { run with answers } operationId t).2.2.persisted = effects

/-- The state recorded for the operation agrees with what may persist. -/
structure StateSound (run : DesktopRun) (operationId : Uuid) (t : Tables) (s : OperationState) :
    Prop where
  succeeded : s = .succeeded → ∃ affected, run.answers.commit = .ok affected
  failed : s = .failed ∨ s = .cancelled →
    ∀ effects, MayPersist x runtimeId clock ids run operationId t effects → effects = []
  unknown : s.isTerminal →
    (∃ effects ≠ [], MayPersist x runtimeId clock ids run operationId t effects) →
    MayPersist x runtimeId clock ids run operationId t [] → s = .outcomeUnknown

end Verdict

/-- The verdict of the run is sound, whatever the store held when the operation was claimed. -/
def VerdictSound (run : DesktopRun) : Prop :=
  ∀ (x : Crates) (runtimeId : Uuid) (clock : ℕ → DateTime) (ids : ℕ → Uuid) (operationId : Uuid)
    (t : Tables), t.UniqueIds →
    (∃ claimed t₁, claim x runtimeId operationId (clock 0) (ids 0) t = (.ok claimed, t₁)) →
    ∀ row ∈ (runDesktopSql x runtimeId clock ids run operationId t).2.1.operations,
      row.id = operationId → StateSound x runtimeId clock ids run operationId t row.state

section Soundness

variable {x : Crates} {runtimeId : Uuid} {clock : ℕ → DateTime} {ids : ℕ → Uuid}
  {run : DesktopRun} {p : Prepared} {operationId : Uuid} {t : Tables}

/-- What may persist is left by the write itself, in a run that reaches the target. -/
theorem mayPersist_cases (hids : t.UniqueIds) (hprecheck : run.precheck = .ok p)
    (hwrite : p.classification.kind ≠ .read) {effects : List ℕ}
    (h : MayPersist x runtimeId clock ids run operationId t effects) :
    effects = [] ∨ ReachesTarget run p ∧ ∃ answers : WriteAnswers,
      answers.told = run.answers.told ∧
        (writeFuture p.request answers {}).2.persisted = effects := by
  obtain ⟨answers, htold, rfl⟩ := h
  have hprecheck' : ({ run with answers } : DesktopRun).precheck = .ok p := hprecheck
  rcases target_cases x runtimeId clock ids t hids hprecheck' hwrite with
    htarget | ⟨⟨h₁, h₂, h₃, h₄, h₅⟩, htarget⟩
  · exact .inl (by rw [htarget])
  · exact .inr ⟨⟨h₁, h₂, h₃, h₄, h₅⟩, answers, htold, by rw [htarget]⟩

theorem verdictSound_of_not_loses (hprecheck : run.precheck = .ok p)
    (hwrite : p.classification.kind ≠ .read)
    (hno : ¬ (ReachesTarget run p ∧ LosesImplicitCommit p.request run.answers)) :
    VerdictSound run := by
  rintro x runtimeId clock ids operationId t hids ⟨claimed, t₁, hclaim⟩ row hrow hid
  have hrecorded := recorded_of_run x runtimeId clock ids t hids hprecheck hwrite hclaim hrow hid
  have hfailed : row.state = .failed ∨ row.state = .cancelled →
      ∀ effects, MayPersist x runtimeId clock ids run operationId t effects → effects = [] := by
    intro hstate effects hmay
    rcases mayPersist_cases hids hprecheck hwrite hmay with hnil | ⟨hreach, answers, htold, rfl⟩
    · exact hnil
    · have hterminal : row.state.isTerminal := by
        rcases hstate with h | h <;> rw [h] <;> rfl
      have hcases := hrecorded hterminal
      generalize row.state = s at hstate hcases
      cases hcases with
      | early hearly => exact absurd hreach hearly
      | failed hdone =>
        rw [← writeFuture_of_told htold] at hdone
        by_contra hne
        exact hno ⟨hreach, ((persisted_of_failed hdone).1 hne).1.of_told htold⟩
      | succeeded hdone => simp at hstate
      | outcomeUnknown => simp at hstate
  refine ⟨fun hstate => ?_, hfailed, fun hterminal hmay hnone => ?_⟩
  · have hcases := hrecorded (by rw [hstate]; rfl)
    rw [hstate] at hcases
    cases hcases with
    | early _ hs => simp at hs
    | succeeded hdone =>
      obtain ⟨m, n, hanswers⟩ := answers_of_committed hdone
      exact ⟨n, by rw [hanswers]⟩
  · have hcases := hrecorded hterminal
    obtain ⟨effects, hne, hmay⟩ := hmay
    generalize hs : row.state = s at hcases
    cases hcases with
    | early _ hstate => exact absurd (hfailed (by rw [hs]; exact hstate) effects hmay) hne
    | failed => exact absurd (hfailed (.inl hs) effects hmay) hne
    | outcomeUnknown => rfl
    | succeeded hdone =>
      -- every answer was told, so that what persists is known
      obtain ⟨m, n, hanswers⟩ := answers_of_committed hdone
      have hsame : ∀ answers : WriteAnswers, answers.told = run.answers.told →
          answers = run.answers := by
        intro answers htold
        rw [← writeFuture_of_told htold] at hdone
        obtain ⟨m', n', hanswers'⟩ := answers_of_committed hdone
        rw [hanswers, hanswers'] at htold
        rw [hanswers, hanswers']
        exact htold
      obtain ⟨answers, htold, heffects⟩ := hmay
      obtain ⟨answers', htold', hnil⟩ := hnone
      rw [hsame answers htold] at heffects
      rw [hsame answers' htold', heffects] at hnil
      exact absurd hnil hne

theorem runDesktopSql_sample (hprecheck : run.precheck = .ok p) (kind : OperationKind) :
    ∃ grant : ExecutionGrant, grant.operationId = .ofByte 1 ∧
      runDesktopSql crates (.ofByte 5) sampleClock sampleIds run (.ofByte 1)
        (Operations.run crates (sampleApproved kind)) =
      runClaimed crates (.ofByte 5) sampleClock sampleIds run p grant (.ofByte 1)
        (Operations.run crates (sampleRun kind)) := by
  obtain ⟨record, hget⟩ := get_sample kind
  obtain ⟨claimed, hclaim⟩ := claim_sample kind
  exact ⟨claimed.grant, (claim_eq_ok (uniqueIds_sample kind) hclaim).1,
    runDesktopSql_claimed crates _ sampleClock sampleIds _ hget hprecheck hclaim⟩

/-- Losing the connection under a statement that commits on its own, the sample operation is
recorded as failed. -/
theorem failed_sample (hprecheck : run.precheck = .ok p) (hwrite : p.classification.kind ≠ .read)
    (hreach : ReachesTarget run p) (hloses : LosesImplicitCommit p.request run.answers)
    (kind : OperationKind) :
    (executingRow kind).moved .failed (.ofDay 5) ∈
        (runDesktopSql crates (.ofByte 5) sampleClock sampleIds run (.ofByte 1)
          (Operations.run crates (sampleApproved kind))).2.1.operations ∧
      (runDesktopSql crates (.ofByte 5) sampleClock sampleIds run (.ofByte 1)
          (Operations.run crates (sampleApproved kind))).2.2 =
        (writeFuture p.request run.answers {}).2 := by
  obtain ⟨grant, hgrant, hrun⟩ := runDesktopSql_sample hprecheck kind
  obtain ⟨error, hdone⟩ := failed_of_loses hloses
  obtain ⟨htarget, hends⟩ := runClaimed_reaches crates (.ofByte 5) sampleClock sampleIds
    (Operations.run crates (sampleRun kind)) hwrite hgrant hreach
  obtain ⟨op, t', hfinish, hmem⟩ := finish_sample kind .failed rfl (reasonDetails "db")
    (noFloat_of_textObject (textObject_reasonDetails "db")) (by decide +kernel)
  have hsettle : settle true (.db error) = ⟨.failed, reasonDetails "db"⟩ := rfl
  simp only [hdone, guardRegistered, hsettle, hfinish] at hends
  rw [hrun]
  refine ⟨?_, htarget⟩
  rw [hends]
  exact hmem

theorem not_verdictSound_of_loses (hprecheck : run.precheck = .ok p)
    (hwrite : p.classification.kind ≠ .read) (hreach : ReachesTarget run p)
    (hloses : LosesImplicitCommit p.request run.answers) : ¬ VerdictSound run := by
  intro hsound
  obtain ⟨claimed, hclaim⟩ := claim_sample .ddl
  obtain ⟨hfailed, -⟩ := failed_sample hprecheck hwrite hreach hloses .ddl
  have hstate := (hsound crates (.ofByte 5) sampleClock sampleIds (.ofByte 1)
    (Operations.run crates (sampleApproved .ddl)) (uniqueIds_sample .ddl) ⟨claimed, _, hclaim⟩ _
    hfailed rfl).failed (.inl rfl)
  -- the answers that tell the same, with the statement executed
  obtain ⟨hbegin, hclass, hchanges, error, applied, hlost⟩ := hloses
  have htold : ({ run.answers with execute := .lost error true } : WriteAnswers).told =
      run.answers.told := by
    simp [WriteAnswers.told, hlost, Answer.told]
  have hloses' : LosesImplicitCommit p.request { run.answers with execute := .lost error true } :=
    ⟨hbegin, hclass, hchanges, error, true, rfl⟩
  have hreach' : ReachesTarget
      { run with answers := { run.answers with execute := .lost error true } } p :=
    ⟨hreach.1, hreach.2, hreach.3, hreach.4, hreach.5⟩
  have hprecheck' : ({ run with answers := { run.answers with execute := .lost error true } } :
      DesktopRun).precheck = .ok p := hprecheck
  obtain ⟨-, htarget⟩ := failed_sample hprecheck' hwrite hreach' hloses' .ddl
  obtain ⟨e, hdone⟩ := failed_of_loses hloses'
  refine (persisted_of_failed hdone).2 ⟨hloses', ?_⟩ ?_
  · simp [Answer.told]
  · rw [← htarget]
    exact hstate _ ⟨_, htold, rfl⟩

end Soundness

/-- **The verdict on a write is sound exactly when no statement that commits on its own loses its
connection while the target executes it.** -/
theorem verdict_sound_iff (run : DesktopRun) (p : Prepared) (hprecheck : run.precheck = .ok p)
    (hwrite : p.classification.kind ≠ .read) :
    VerdictSound run ↔ ¬ (ReachesTarget run p ∧ LosesImplicitCommit p.request run.answers) := by
  constructor
  · rintro hsound ⟨hreach, hloses⟩
    exact not_verdictSound_of_loses hprecheck hwrite hreach hloses hsound
  · exact verdictSound_of_not_loses hprecheck hwrite

/-- `CREATE TABLE` on MySQL, as it is run. -/
def createTable : Prepared where
  engine := .mysql
  classification := classifySingle (.ddl .createTable)
  statement := .ddl .createTable
  changes := true
  allowWrites := true

/-- The table is created and the connection lost before the answer. -/
def lostCreateTable : DesktopRun where
  precheck := .ok createTable
  signalled := false
  audit := .ok ()
  connect := .ok ()
  backend := .ok ()
  read := .error (.db "not a read")
  answers := ⟨.ok 0, .lost "Lost connection to MySQL server during query" true, .ok 0⟩

theorem verdict_sound_iff_createTable : lostCreateTable.precheck = .ok createTable ∧
    createTable.classification.kind ≠ .read ∧ (VerdictSound lostCreateTable ↔
      ¬ (ReachesTarget lostCreateTable createTable ∧
        LosesImplicitCommit createTable.request lostCreateTable.answers)) :=
  ⟨rfl, by decide, verdict_sound_iff lostCreateTable createTable rfl (by decide)⟩

/-- The created table is recorded as a failure that changed nothing. -/
theorem verdict_unsound_createTable : ¬ VerdictSound lostCreateTable :=
  not_verdictSound_of_loses (p := createTable) rfl (by decide) ⟨rfl, rfl, rfl, rfl, rfl⟩
    ⟨⟨0, rfl⟩, rfl, rfl, _, true, rfl⟩

end Services
end AgentDb
