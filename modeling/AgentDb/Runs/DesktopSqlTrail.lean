import AgentDb.Runs.Rules

/-!
# `run_desktop_sql` does what its monitor allows

The trail of a run along its text: the checks, the handle, the claim, the requests of the executor
and the report.
-/

namespace AgentDb
namespace Runs

open Connection Executor Json Operations Program Safety Services Store
open Services.ScopeGate (StoredDesktopSqlPayload loadProposal)

section

variable {x : Crates} {parseSql : Engine → String → Except String (List Statement)}
  {debug : String → String} {m : Trail}

/-! ### Before the claim -/

theorem follows_prepareDesktopSql (hclaimed : m.claimed = false) (hhandles : m.handles = 0) :
    Follows (monitor x parseSql debug)
      (Loading fun r m' => ∃ planned, SqlPlan x parseSql planned r.1 ∧
        r.1.operationId = m.operationId ∧ m' = m.load planned r.1.pin r.1.settings)
      m (prepareDesktopSql x parseSql m.operationId).run := by
  refine loading_getOperation hclaimed hhandles fun planned => ?_
  refine loading_check hclaimed hhandles fun payload hpayload => ?_
  refine loading_quiet hclaimed hhandles quiet_beginOperationScope fun _ => ?_
  refine loading_pinConnection hclaimed hhandles fun pin => ?_
  refine loading_check hclaimed hhandles fun _ hscope => ?_
  refine loading_getSafety hclaimed hhandles fun settings => ?_
  refine loading_check hclaimed hhandles fun classification hpolicy => ?_
  dsimp only
  split
  · exact (sure_recordRun _ _).run_bind fun _ => ⟨hclaimed, hhandles⟩
  · rename_i hgate
    exact ⟨planned, ⟨hpayload, hscope, hpolicy, by simp [hgate]⟩, rfl, rfl⟩
  · rename_i hgate
    exact ⟨planned, ⟨hpayload, hscope, hpolicy, by simp [hgate]⟩, rfl, rfl⟩

/-! ### The requests -/

variable (x parseSql) in
/-- A run of `run_desktop_sql` that has claimed its operation: it holds its handle. -/
abbrev SqlClaimed (m : Trail) (p : PreparedSql) : Prop :=
  Held .sql 1 (SqlPlan x parseSql · p) p.pin p.settings p.operationId m

variable {p : PreparedSql}

/-- What the requests of a write are, in order. -/
def PreparedSql.writeMessages (p : PreparedSql) : List Message :=
  [p.message .write .begin, p.message .write (.execute p.sql), p.message .write .commit]

theorem SqlClaimed.prescribed_write (h : SqlClaimed x parseSql m p)
    (hkind : p.classification.kind ≠ .read) : m.Completes x parseSql debug p.writeMessages :=
  h.prescribed fun _ hplan => .sqlWrite hplan rfl rfl rfl hkind

theorem SqlClaimed.prescribed_read (h : SqlClaimed x parseSql m p)
    (hkind : p.classification.kind = .read) :
    m.Completes x parseSql debug [p.message .read (.fetch p.sql p.settings.maxRows)] :=
  h.prescribed fun _ hplan => .sqlRead hplan rfl rfl rfl hkind

/-- There is a dialogue its proposal prescribes. -/
theorem SqlClaimed.sends_nil (h : SqlClaimed x parseSql m p) : m.Sends x parseSql debug [] := by
  by_cases hkind : p.classification.kind = .read
  · exact (h.prescribed_read hkind).sends List.nil_prefix
  · exact (h.prescribed_write hkind).sends List.nil_prefix

/-- A request of a claimed operation. -/
theorem SqlClaimed.follows_request (h : SqlClaimed x parseSql m p) {pool : PoolKind}
    {request : TargetRequest} {Q : Except Interrupt (AppResult Reply) → Trail → Prop}
    (hsends : m.Sends x parseSql debug (m.sent ++ [p.message pool request]))
    (hok : ∀ reply : Reply, reply.InRange → Q (.ok (.ok reply))
      ((m.send (p.message pool request)).acknowledge (p.message pool request)))
    (herror : ∀ e, TargetError e → Q (.ok (.error e)) (m.send (p.message pool request)))
    (hended : ∀ cause, Q (.error cause) (m.interrupt cause))
    (hdropped : ∀ cause, Q (.error cause) ((m.send (p.message pool request)).interrupt cause)) :
    Follows (monitor x parseSql debug) Q m
      (Runs.request (some p.operationId) (p.message pool request)).run.run :=
  Runs.follows_request (by simp [h.id]) h.claimed (by simp [PreparedSql.message, h.id]) hsends hok
    herror hended hdropped

/-- An outcome whose numbers are in range. -/
def BriefOutcome (outcome : ExecOutcome) : Prop :=
  (∀ n ∈ outcome.durationMs, n < 2 ^ 64) ∧ ∀ n ∈ outcome.rowCount <|> outcome.affected, n < 2 ^ 64

variable (x parseSql debug) in
/-- The end of the executor of a claimed operation: an outcome says that all was acknowledged, and
the error of a cancel that one was signalled. -/
def Executed (p : PreparedSql) : AppResult ExecOutcome → Trail → Prop
  | .ok outcome, m => SqlClaimed x parseSql m p ∧ BriefOutcome outcome ∧
      m.Completes x parseSql debug m.answered
  | .error e, m => SqlClaimed x parseSql m p ∧ (isCancelled e = true → m.interrupted = true)

theorem follows_runReadRegistered (h : SqlClaimed x parseSql m p) (hsent : m.sent = [])
    (hanswered : m.answered = []) (hkind : p.classification.kind = .read) :
    Follows (monitor x parseSql debug) (Executed x parseSql debug p) m p.runReadRegistered.run := by
  have hall : m.Completes x parseSql debug
      [p.message .read (.fetch p.sql p.settings.maxRows)] := h.prescribed_read hkind
  refine follows_run_bind (R := Ends (fun reply m' => reply.InRange ∧ SqlClaimed x parseSql m' p ∧
      m'.Completes x parseSql debug m'.answered)
      fun e m' => SqlClaimed x parseSql m' p ∧ (isCancelled e = true → m'.interrupted = true))
    (follows_guarded ?_) (fun reply m' hm => ⟨hm.2.1, ?_, hm.2.2⟩) fun e m' hm => hm
  · refine h.follows_request (hall.sends (by rw [hsent]; exact List.prefix_rfl))
      (fun reply hreply => ?_) (fun e he => ?_) (fun cause => ?_) fun cause => ?_
    · have hlast : m.Completes x parseSql debug
          (m.answered ++ [p.message .read (.fetch p.sql p.settings.maxRows)]) := by
        rw [hanswered]
        exact hall
      exact ⟨hreply, (h.send _).acknowledge _, hlast.acknowledge⟩
    · exact ⟨h.send _, fun hc => absurd hc (by simp [isCancelled_of_targetError he])⟩
    · exact ⟨h.interrupt _, interrupted_of_isCancelled⟩
    · exact ⟨(h.send _).interrupt _, interrupted_of_isCancelled⟩
  · simpa [BriefOutcome] using hm.1.symm

variable (x parseSql debug) in
/-- The end of a future of a claimed operation, the same way. -/
def Ended (p : PreparedSql) : Except Interrupt (AppResult ℕ) → Trail → Prop
  | .ok (.ok affected), m => SqlClaimed x parseSql m p ∧ affected < 2 ^ 64 ∧
      m.Completes x parseSql debug m.answered
  | .ok (.error e), m => SqlClaimed x parseSql m p ∧ isCancelled e = false
  | .error cause, m => SqlClaimed x parseSql m p ∧
      (isCancelled cause.error = true → m.interrupted = true)

theorem follows_writeFuture (h : SqlClaimed x parseSql m p) (hsent : m.sent = [])
    (hanswered : m.answered = []) (hkind : p.classification.kind ≠ .read) :
    Follows (monitor x parseSql debug) (Ended x parseSql debug p) m p.writeFuture.run.run := by
  have hall : m.Completes x parseSql debug p.writeMessages := h.prescribed_write hkind
  have hended : ∀ {m : Trail}, SqlClaimed x parseSql m p → ∀ cause : Interrupt,
      Ended x parseSql debug p (.error cause) (m.interrupt cause) := fun h cause =>
    ⟨h.interrupt cause, interrupted_of_isCancelled⟩
  have herror : ∀ {m : Trail}, SqlClaimed x parseSql m p → ∀ e, TargetError e →
      Ended x parseSql debug p (.ok (.error e)) m := fun h e he =>
    ⟨h, isCancelled_of_targetError he⟩
  -- `BEGIN`
  refine follows_future_bind (R := fun r m' => match r with
    | .ok (.ok _) => SqlClaimed x parseSql m' p ∧ m'.sent = [p.message .write .begin] ∧
        m'.answered = [p.message .write .begin]
    | .ok (.error e) => Ended x parseSql debug p (.ok (.error e)) m'
    | .error cause => Ended x parseSql debug p (.error cause) m')
    (h.follows_request (hall.sends (by simp [hsent, PreparedSql.writeMessages]))
      (fun _ _ => ⟨(h.send _).acknowledge _, by simp [Trail.send, Trail.acknowledge, hsent],
        by simp [Trail.send, Trail.acknowledge, hanswered]⟩)
      (fun e he => herror (h.send _) e he) (hended h) (hended (h.send _)))
    (fun _ m hm => ?_) (fun e _ hm => hm) fun _ _ hm => hm
  obtain ⟨h, hsent, hanswered⟩ := hm
  have hall : m.Completes x parseSql debug p.writeMessages := h.prescribed_write hkind
  -- the statement
  refine follows_future_bind (R := fun r m' => match r with
    | .ok (.ok reply) => reply.InRange ∧ SqlClaimed x parseSql m' p ∧
        m'.sent = [p.message .write .begin, p.message .write (.execute p.sql)] ∧
        m'.answered = [p.message .write .begin, p.message .write (.execute p.sql)]
    | .ok (.error e) => Ended x parseSql debug p (.ok (.error e)) m'
    | .error cause => Ended x parseSql debug p (.error cause) m')
    (h.follows_request (hall.sends (by simp [hsent, PreparedSql.writeMessages]))
      (fun reply hreply => ⟨hreply, (h.send _).acknowledge _,
        by simp [Trail.send, Trail.acknowledge, hsent],
        by simp [Trail.send, Trail.acknowledge, hanswered]⟩)
      (fun e he => herror (h.send _) e he) (hended h) (hended (h.send _)))
    (fun reply m hm => ?_) (fun e _ hm => hm) fun _ _ hm => hm
  obtain ⟨hreply, h, hsent, hanswered⟩ := hm
  have hall : m.Completes x parseSql debug p.writeMessages := h.prescribed_write hkind
  have hlast : m.Completes x parseSql debug (m.answered ++ [p.message .write .commit]) := by
    rw [hanswered]
    exact hall
  -- `COMMIT`
  refine follows_future_bind (R := fun r m' => match r with
    | .ok (.ok (.ok _)) => SqlClaimed x parseSql m' p ∧ m'.Completes x parseSql debug m'.answered
    | .ok (.ok (.error _)) => SqlClaimed x parseSql m' p
    | .ok (.error e) => Ended x parseSql debug p (.ok (.error e)) m'
    | .error cause => Ended x parseSql debug p (.error cause) m')
    (follows_tried (h.follows_request
      (hall.sends (by simp [hsent, PreparedSql.writeMessages]))
      (fun _ _ => ⟨(h.send _).acknowledge _, hlast.acknowledge⟩) (fun e _ => h.send _)
      (hended h) (hended (h.send _)))) (fun r m' hm => ?_) (fun e _ hm => hm) fun _ _ hm => hm
  cases r with
  | ok _ => exact ⟨hm.1, hreply.1, hm.2⟩
  | error e => exact ⟨hm, rfl⟩

theorem follows_runWrite (h : SqlClaimed x parseSql m p) (hsent : m.sent = [])
    (hanswered : m.answered = []) (hkind : p.classification.kind ≠ .read)
    (grant : ExecutionGrant) :
    Follows (monitor x parseSql debug) (Executed x parseSql debug p) m (p.runWrite grant).run := by
  refine follows_run_bind (R := fun r m' => m' = m ∧ ∀ e, r = .error e → isCancelled e = false)
    (follows_liftExcept.2 ⟨rfl, ?_⟩) ?_ ?_
  · intro e he
    simp only [PreparedSql.checkWrite, refuseIf] at he
    split_ifs at he <;> cases he <;> rfl
  · rintro - m' ⟨rfl, -⟩
    refine follows_run_bind (R := Ends (fun affected m' => SqlClaimed x parseSql m' p ∧
        affected < 2 ^ 64 ∧ m'.Completes x parseSql debug m'.answered)
        fun e m' => Executed x parseSql debug p (.error e) m')
      (follows_guarded ((follows_writeFuture h hsent hanswered hkind).mono ?_))
      (fun affected m' hm => ⟨hm.1, ?_, hm.2.2⟩) fun e m' hm => hm
    · intro r m' hm
      rcases r with cause | e | affected
      · exact hm
      · exact ⟨hm.1, fun hc => absurd hc (by simp [hm.2])⟩
      · exact hm
    · simpa [BriefOutcome] using hm.2.1
  · rintro e m' ⟨rfl, he⟩
    exact ⟨h, fun hc => absurd hc (by simp [he e rfl])⟩

theorem follows_execute (h : SqlClaimed x parseSql m p) (hsent : m.sent = [])
    (hanswered : m.answered = []) (grant : ExecutionGrant) :
    Follows (monitor x parseSql debug) (Executed x parseSql debug p) m (p.execute grant).run := by
  unfold PreparedSql.execute
  split
  · exact follows_runReadRegistered h hsent hanswered ‹_›
  all_goals exact follows_runWrite h hsent hanswered (by simp [*]) grant

/-! ### The report -/

variable (x parseSql) in
/-- The end of a claimed run: it has reported, and holds its handle still. -/
def Reported (p : PreparedSql) (m : Trail) : Prop := SqlClaimed x parseSql m p ∧ m.finishes ≠ []

theorem SqlClaimed.reported (h : SqlClaimed x parseSql m p) (target : OperationState) :
    Reported x parseSql p (m.report target) := ⟨h.report target, by simp [Trail.report]⟩

theorem SqlClaimed.follows_reportFailed (h : SqlClaimed x parseSql m p) {reason : String}
    (hreason : reason.utf8ByteSize ≤ 64) {Q : AppResult Unit → Trail → Prop}
    (hQ : ∀ r, Q r (m.report .failed)) :
    Follows (monitor x parseSql debug) Q m
      (reportFailed p.operationId (reasonDetails reason)).run :=
  follows_dropResult (follows_finishOperation
    (h.reportable rfl (fun _ => Nat.one_pos) (fun _ => brief_reasonDetails hreason) nofun nofun)
    fun _ => hQ _)

theorem brief_successDetails {outcome : ExecOutcome} (h : BriefOutcome outcome) :
    Brief (successDetails outcome) := by
  have hnumber : ∀ o : Option ℕ, (∀ n ∈ o, n < 2 ^ 64) → BriefValue (numberOrNull o) := by
    rintro (_ | n) hn
    · exact trivial
    · exact ⟨n, hn n rfl, rfl⟩
  refine ⟨_, rfl, by simp, ?_⟩
  simp only [List.forall_mem_cons, List.not_mem_nil, false_imp_iff, implies_true, and_true]
  exact ⟨⟨by decide, trivial⟩, ⟨by decide, hnumber _ h.1⟩, by decide, hnumber _ h.2⟩

/-- The report of an error is brief, and a cancel only of an error that is one. -/
theorem brief_settle (isWrite : Bool) (e : AppError) : Brief (settle isWrite e).details := by
  simp only [settle]
  split_ifs
  · exact brief_reasonDetails (by decide)
  · exact brief_reasonDetails (by decide)
  · exact brief_reasonDetails (utf8ByteSize_kind_le _)

theorem target_settle (isWrite : Bool) (e : AppError) :
    allowed .executing (settle isWrite e).target = true ∧ (settle isWrite e).target ≠ .succeeded ∧
      ((settle isWrite e).target = .cancelled → isCancelled e = true) := by
  simp only [settle]
  split_ifs with _ hc
  · exact ⟨rfl, (fun h => by cases h), fun h => by cases h⟩
  · exact ⟨rfl, (fun h => by cases h), fun _ => hc⟩
  · exact ⟨rfl, (fun h => by cases h), fun h => by cases h⟩

theorem follows_succeeded (h : SqlClaimed x parseSql m p) {outcome : ExecOutcome}
    (houtcome : BriefOutcome outcome) (hcomplete : m.Completes x parseSql debug m.answered) :
    Follows (monitor x parseSql debug) (fun _ => Reported x parseSql p) m
      (p.succeeded outcome).run := by
  refine follows_attempt_bind (R := fun _ m' => m' = m.report .succeeded)
    (follows_finishOperation (h.reportable rfl (fun _ => Nat.one_pos)
      (fun _ => brief_successDetails houtcome) (fun _ => hcomplete)
      fun h => by cases h) fun _ => rfl) ?_
  rintro r m' rfl
  have h' : SqlClaimed x parseSql (m.report .succeeded) p := h.report _
  cases r with
  | ok _ =>
    have hend : ∀ row action status, Follows (monitor x parseSql debug)
        (fun _ => Reported x parseSql p) (m.report .succeeded)
        (do p.record action status row outcome.durationMs none; pure outcome :
          RunM ExecOutcome).run := fun _ _ _ => (sure_recordRun _ _).run_bind fun _ => h.reported _
    dsimp only
    split
    · exact (quiet_clearSchemaCache _ _).dropResult.run_bind fun _ => hend _ _ _
    · exact hend _ _ _
  | error e =>
    refine follows_run_bind (R := fun _ => Reported x parseSql p)
      (follows_dropResult (follows_finishOperation
      (h'.reportable (by split_ifs <;> rfl) (fun _ => Nat.one_pos)
        (fun _ => brief_reasonDetails (by decide)) ?_ ?_)
      fun _ => h'.reported _))
      (fun _ _ hm => hm) fun _ _ hm => hm
    · split_ifs <;> exact fun h => by cases h
    · split_ifs <;> exact fun h => by cases h

theorem follows_failed (h : SqlClaimed x parseSql m p) {e : AppError}
    (hcancelled : isCancelled e = true → m.interrupted = true) :
    Follows (monitor x parseSql debug) (fun _ => Reported x parseSql p) m (p.failed e).run := by
  obtain ⟨hallowed, hnot, honly⟩ := target_settle p.isWrite e
  refine follows_run_bind (R := fun _ => Reported x parseSql p)
    (follows_dropResult (follows_finishOperation
    (h.reportable hallowed (fun _ => Nat.one_pos) (fun _ => brief_settle _ _)
      (fun h => absurd h hnot)
      fun h => hcancelled (honly h))
    fun _ => h.reported _)) (fun _ m' hm => ?_) fun _ _ hm => hm
  exact (sure_recordRun _ _).run_bind fun _ => hm

theorem SqlClaimed.follows_needed (h : SqlClaimed x parseSql m p) {step : RunM Unit}
    {reason : String} (hstep : Quiet x parseSql debug step) (hreason : reason.utf8ByteSize ≤ 64)
    {f : Unit → RunM ExecOutcome}
    (hf : Follows (monitor x parseSql debug) (fun _ => Reported x parseSql p) m (f ()).run) :
    Follows (monitor x parseSql debug) (fun _ => Reported x parseSql p) m
      (p.needed step reason >>= f).run := by
  refine follows_run_bind (R := fun r m' => match r with
    | .ok _ => m' = m
    | .error _ => Reported x parseSql p m') ?_ (fun _ _ hm => hm ▸ hf) fun _ _ hm => hm
  exact follows_reporting hstep (fun _ => rfl) fun _ => (sure_recordRun _ _).run_bind fun _ =>
    h.follows_reportFailed hreason fun _ _ => h.reported _

theorem SqlClaimed.follows_auditAttempt (h : SqlClaimed x parseSql m p) (approvedBy : String)
    {f : Unit → RunM ExecOutcome}
    (hf : Follows (monitor x parseSql debug) (fun _ => Reported x parseSql p) m (f ()).run) :
    Follows (monitor x parseSql debug) (fun _ => Reported x parseSql p) m
      (p.auditAttempt approvedBy >>= f).run := by
  refine follows_run_bind (R := fun r m' => match r with
    | .ok _ => m' = m
    | .error _ => Reported x parseSql p m') ?_ (fun _ _ hm => hm ▸ hf) fun _ _ hm => hm
  exact follows_reporting (quiet_auditRecord _) (fun _ => rfl) fun _ =>
    h.follows_reportFailed (by decide) fun _ _ => h.reported _

/-- **From its claim on the run reports whatever happens**, and sends and reports nothing that its
proposal and the answers do not warrant. -/
theorem follows_runClaimed (h : SqlClaimed x parseSql m p) (hsent : m.sent = [])
    (hanswered : m.answered = []) (approvedBy : String) (grant : ExecutionGrant) :
    Follows (monitor x parseSql debug) (fun _ => Reported x parseSql p) m
      (p.runClaimed approvedBy grant).run := by
  refine follows_run_bind (R := fun r m' => ∃ signalled, r = .ok signalled ∧
    m' = { m with interrupted := m.interrupted || signalled })
    (follows_isCancelledNow h.id fun signalled => ⟨signalled, rfl, rfl⟩) ?_
    fun e m' hm => by obtain ⟨_, hm, -⟩ := hm; cases hm
  rintro signalled m' ⟨_, hsignalled, rfl⟩
  obtain rfl := Except.ok.inj hsignalled
  have h : SqlClaimed x parseSql { m with interrupted := m.interrupted || signalled } p :=
    { h with }
  cases signalled with
  | true =>
    exact follows_run_bind (R := fun _ => Reported x parseSql p) (follows_finishOperation
      (h.reportable rfl (fun _ => Nat.one_pos) (fun _ => brief_reasonDetails (by decide))
        (fun h => by cases h) fun _ => Bool.or_true _)
      fun _ => h.reported _) (fun _ _ hm => hm) fun _ _ hm => hm
  | false =>
    by_cases hwrite : p.isWrite
    case' pos =>
      simp only [hwrite, if_true]
      refine h.follows_auditAttempt approvedBy ?_
    case' neg => simp only [hwrite]
    all_goals
      refine h.follows_needed (quiet_connect _ _) (by decide) ?_
      refine h.follows_needed (quiet_backend _) (by decide) ?_
      refine follows_attempt_bind (follows_execute h hsent hanswered grant) fun r m' hm => ?_
      cases r with
      | ok outcome => exact follows_succeeded hm.1 hm.2.1 hm.2.2
      | error e => exact follows_failed hm.1 hm.2

/-! ### The entry point -/

/-- **`run_desktop_sql` does what its monitor allows**; when it returns, it has dropped its handle,
and reported if it claimed. -/
theorem follows_runDesktopSql (id : Uuid) :
    Follows (monitor x parseSql debug)
      (fun _ m => m.handles = 0 ∧ (m.claimed = true → m.finishes ≠ []))
      ({ entry := .sql, operationId := id } : Trail) (runDesktopSql x parseSql id).run := by
  refine follows_run_bind (follows_prepareDesktopSql rfl rfl) ?_ ?_
  · rintro ⟨p, approvedBy⟩ m' ⟨planned, hplan, hid, rfl⟩
    refine follows_withHandle (R := fun _ m => m.entry = .sql ∧ m.operationId = id ∧
      m.handles = 1 ∧ (m.claimed = true → m.finishes ≠ [])) rfl ?_ ?_
    · have hstart : SqlClaimed x parseSql
          { ({ entry := .sql, operationId := id } : Trail).load planned p.pin p.settings with
            handles := 1, claimed := true } p :=
        ⟨⟨planned, rfl, hplan⟩, rfl, hid, rfl, rfl, rfl, rfl⟩
      refine follows_run_bind (R := fun r m' => match r with
        | .ok _ => SqlClaimed x parseSql m' p ∧ m'.sent = [] ∧ m'.answered = []
        | .error _ => m'.entry = .sql ∧ m'.operationId = id ∧ m'.handles = 1 ∧ m'.claimed = false)
        (follows_claimOperation rfl rfl (fun _ => Nat.one_pos) hstart.sends_nil
          (fun _ => ⟨hstart, rfl, rfl⟩)
          fun _ => ⟨rfl, rfl, rfl, rfl⟩) (fun claimed m' hm => ?_) (fun e m' hm => ?_)
      · obtain ⟨hm, hsent, hanswered⟩ := hm
        refine (follows_runClaimed hm hsent hanswered _ _).mono fun _ m'' h => ?_
        exact ⟨h.1.entry, h.1.id.symm.trans hid, h.1.handles, fun _ => h.2⟩
      · exact ⟨hm.1, hm.2.1, hm.2.2.1, fun h => absurd h (by simp [hm.2.2.2])⟩
    · rintro r m' ⟨hentry, hid, hhandles, hfinished⟩
      exact ⟨hid.symm, hhandles ▸ Nat.one_pos, fun _ => hfinished, by simp [hhandles], hfinished⟩
  · rintro e m' ⟨hclaimed, hhandles⟩
    exact ⟨hhandles, fun h => absurd h (by simp [hclaimed])⟩

end

end Runs
end AgentDb
