import AgentDb.Runs.Rules

/-!
# A script does what its monitor allows

The trail of `run_desktop` along its text. A script of reads holds a handle for each of its
statements, a script with a write one for its transaction; neither holds one from its claim on.
-/

namespace AgentDb
namespace Runs
namespace Script

open Connection Executor Json Operations Program Safety Services SqlScript Store

section

variable {x : Crates} {parseSql : Engine → String → Except String (List Statement)}
  {debug : String → String} {m : Trail}

theorem eq_of_checkScript {id : Uuid} {planned : OperationRecord}
    {payload : StoredDesktopScriptPayload} {pin : PinnedConnection} {settings : SafetySettings}
    {p : PreparedScriptRun} (h : checkScript x parseSql id planned payload pin settings = .ok p) :
    ∃ statements kinds, p = ⟨id, pin, payload, statements, kinds, settings⟩ := by
  simp only [checkScript, Except.bind_eq_ok, Except.pure_eq_ok] at h
  obtain ⟨-, -, -, -, classifications, -, -, -, -, -, rfl⟩ := h
  exact ⟨_, _, rfl⟩

theorem follows_prepareDesktop (hclaimed : m.claimed = false) (hhandles : m.handles = 0) :
    Follows (monitor x parseSql debug)
      (Loading fun r m' => ∃ planned, ScriptPlan x parseSql planned r.1 ∧
        r.1.operationId = m.operationId ∧ m' = m.load planned r.1.pin r.1.settings)
      m (prepareDesktop x parseSql m.operationId).run := by
  refine loading_getOperation hclaimed hhandles fun planned => ?_
  refine loading_check hclaimed hhandles fun payload hpayload => ?_
  refine loading_quiet hclaimed hhandles quiet_beginOperationScope fun _ => ?_
  refine loading_pinConnection hclaimed hhandles fun pin => ?_
  refine loading_check hclaimed hhandles fun _ hscope => ?_
  refine loading_getSafety hclaimed hhandles fun settings => ?_
  refine loading_check hclaimed hhandles fun p hpolicy => ?_
  obtain ⟨statements, kinds, rfl⟩ := eq_of_checkScript hpolicy
  exact ⟨planned, ⟨hpayload, hscope, hpolicy⟩, rfl, rfl⟩

/-! ### After the claim -/

variable (x parseSql) in
/-- A run of a script that has claimed its operation and holds `n` handles. -/
abbrev Claimed (n : ℕ) (m : Trail) (p : PreparedScriptRun) : Prop :=
  Held .script n (ScriptPlan x parseSql · p) p.pin p.settings p.operationId m

variable {p : PreparedScriptRun} {n : ℕ}

namespace Claimed

theorem reportable (h : Claimed x parseSql n m p) {target : OperationState} {details : Value}
    (htarget : allowed .executing target = true)
    (hsucceeded : target = .succeeded → m.Completes x parseSql debug m.answered)
    (hcancelled : target ≠ .cancelled) :
    Reportable x parseSql debug m p.operationId target details :=
  Held.reportable h htarget nofun nofun hsucceeded fun hc => absurd hc hcancelled

/-- A report that is no success. -/
theorem follows_drop (h : Claimed x parseSql n m p) {target : OperationState} {details : Value}
    (htarget : allowed .executing target = true) (hsucceeded : target ≠ .succeeded)
    (hcancelled : target ≠ .cancelled) :
    Follows (monitor x parseSql debug) (fun _ m => Claimed x parseSql n m p) m
      (dropResult (finishOperation p.operationId target details)).run :=
  follows_dropResult (follows_finishOperation
    (h.reportable htarget (fun hs => absurd hs hsucceeded) hcancelled) fun _ => h.report target)

theorem follows_reportFailed (h : Claimed x parseSql n m p) (details : Value) :
    Follows (monitor x parseSql debug) (fun _ m => Claimed x parseSql n m p) m
      (reportFailed p.operationId details).run := h.follows_drop rfl (by decide) (by decide)

/-- A request of a claimed script. -/
theorem follows_request (h : Claimed x parseSql n m p) {kind : QueryKind} {pool : PoolKind}
    {request : TargetRequest} {Q : Except Interrupt (AppResult Reply) → Trail → Prop}
    (hsends : m.Sends x parseSql debug (m.sent ++ [p.message kind pool request]))
    (hok : ∀ reply, Q (.ok (.ok reply))
      ((m.send (p.message kind pool request)).acknowledge (p.message kind pool request)))
    (herror : ∀ e, Q (.ok (.error e)) (m.send (p.message kind pool request)))
    (hended : ∀ cause m, Claimed x parseSql n m p → Q (.error cause) m) :
    Follows (monitor x parseSql debug) Q m
      (Runs.request (some p.operationId) (p.message kind pool request)).run.run :=
  Runs.follows_request (by simp [h.id]) h.claimed (by simp [PreparedScriptRun.message, h.id])
    hsends (fun reply _ => hok reply) (fun e _ => herror e)
    (fun cause => hended cause _ (h.interrupt cause))
    fun cause => hended cause _ ((h.send _).interrupt cause)

end Claimed

/-! ### Scripts of reads -/

/-- The request of a statement of a script of reads. -/
def PreparedScriptRun.readMessage (p : PreparedScriptRun) (statement : String) : Message :=
  p.message .read .read (.fetch statement p.settings.maxRows)

theorem Claimed.completes_reads (h : Claimed x parseSql n m p)
    (hreads : scriptHasWrite p.kinds = false) :
    m.Completes x parseSql debug (p.statements.map p.readMessage) :=
  h.prescribed fun _ hplan => .scriptReads hplan rfl rfl rfl hreads

theorem follows_runRead (h : Claimed x parseSql 0 m p) {statement : String}
    (hsends : m.Sends x parseSql debug (m.sent ++ [p.readMessage statement])) :
    Follows (monitor x parseSql debug) (fun r m' => Claimed x parseSql 0 m' p ∧
        ∀ reply, r = .ok reply → m'.sent = m.sent ++ [p.readMessage statement] ∧
          m'.answered = m.answered ++ [p.readMessage statement])
      m (p.runRead statement).run := by
  have hheld : Claimed x parseSql 1 { m with handles := m.handles + 1 } p := h.register
  refine follows_withHandle (R := fun r m' => Claimed x parseSql 1 m' p ∧
    ∀ reply, r = .ok reply → m'.sent = m.sent ++ [p.readMessage statement] ∧
      m'.answered = m.answered ++ [p.readMessage statement]) h.id ?_ ?_
  · refine follows_guarded (hheld.follows_request hsends ?_ ?_ ?_)
    · exact fun reply => ⟨(hheld.send _).acknowledge _, fun _ _ => ⟨rfl, rfl⟩⟩
    · exact fun e => ⟨hheld.send _, nofun⟩
    · exact fun cause m' hm => ⟨hm, nofun⟩
  · rintro r m' ⟨hm, hok⟩
    refine ⟨hm.id, hm.handles ▸ Nat.one_pos, fun he => absurd (hm.entry.symm.trans he) nofun,
      ⟨hm.release, hok⟩⟩

/-- The loop over the statements: what was read so far is a beginning of the script. -/
theorem follows_readStatements (hreads : scriptHasWrite p.kinds = false) (done rest : List String)
    (hstatements : done ++ rest = p.statements) {m : Trail} (h : Claimed x parseSql 0 m p)
    (hsent : m.sent = done.map p.readMessage) (hanswered : m.answered = done.map p.readMessage) :
    Follows (monitor x parseSql debug)
      (fun r m' => ∃ outcomes failure, r = .ok (outcomes, failure) ∧ Claimed x parseSql 0 m' p ∧
        (failure = none → m'.answered = p.statements.map p.readMessage))
      m (p.readStatements rest).run := by
  induction rest generalizing done m with
  | nil =>
    rw [List.append_nil] at hstatements
    exact ⟨[], none, rfl, h, fun _ => hstatements ▸ hanswered⟩
  | cons statement rest ih =>
    have hsends : m.Sends x parseSql debug (m.sent ++ [p.readMessage statement]) := by
      have hall : m.Completes x parseSql debug (p.statements.map p.readMessage) :=
        h.completes_reads hreads
      refine hall.sends ?_
      rw [hsent, ← hstatements]
      exact ⟨rest.map p.readMessage, by simp⟩
    refine follows_attempt_bind (follows_runRead h hsends) fun r m' hm => ?_
    obtain ⟨hm, hok⟩ := hm
    cases r with
    | error e => exact ⟨_, _, rfl, hm, nofun⟩
    | ok reply =>
      obtain ⟨hsent', hanswered'⟩ := hok reply rfl
      refine follows_run_bind (ih (done ++ [statement]) (by simp [hstatements]) hm
        (by simp [hsent', hsent]) (by simp [hanswered', hanswered])) ?_ ?_
      · rintro ⟨outcomes, failure⟩ m'' ⟨_, _, hr, hm'', hnone⟩
        obtain ⟨rfl, rfl⟩ := Prod.mk.inj (Except.ok.inj hr)
        exact ⟨_, failure, rfl, hm'', hnone⟩
      · rintro e m'' ⟨_, _, hr, -⟩
        cases hr

theorem follows_runReads (h : Claimed x parseSql 0 m p) (hreads : scriptHasWrite p.kinds = false)
    (hsent : m.sent = []) (hanswered : m.answered = []) :
    Follows (monitor x parseSql debug) (fun _ m => Claimed x parseSql 0 m p) m p.runReads.run := by
  have hall : ∀ {m : Trail}, Claimed x parseSql 0 m p →
      m.Completes x parseSql debug (p.statements.map p.readMessage) := fun h =>
    h.completes_reads hreads
  refine follows_run_bind (R := fun r m' => match r with
    | .ok _ => m' = m
    | .error _ => Claimed x parseSql 0 m' p) (follows_reporting (quiet_connect _ _) (fun _ => rfl)
      fun _ => (sure_recordRun _ _).run_bind fun _ => (h.follows_reportFailed _).mono
        fun _ _ hm _ => hm) (fun _ m' hm => hm ▸ ?_) fun _ _ hm => hm
  refine follows_run_bind (R := fun r m' => match r with
    | .ok _ => m' = m
    | .error _ => Claimed x parseSql 0 m' p) (follows_reporting (quiet_backend _) (fun _ => rfl)
      fun _ => (h.follows_reportFailed _).mono fun _ _ hm _ => hm) (fun _ m' hm => hm ▸ ?_)
      fun _ _ hm => hm
  refine follows_run_bind (follows_readStatements hreads [] p.statements rfl h hsent hanswered) ?_
    fun e m' hm => by obtain ⟨_, _, hm, -⟩ := hm; cases hm
  rintro ⟨outcomes, failure⟩ m' ⟨_, _, hr, hm, hnone⟩
  obtain ⟨rfl, rfl⟩ := Prod.mk.inj (Except.ok.inj hr)
  refine (sure_recordRun _ _).run_bind fun _ => ?_
  cases failure with
  | some message =>
    exact follows_run_bind (R := fun _ m => Claimed x parseSql 0 m p)
      (follows_finishOperation (hm.reportable rfl nofun nofun) fun _ => hm.report _)
      (fun _ _ hm => hm) fun _ _ hm => hm
  | none =>
    refine follows_run_bind (R := fun _ m => Claimed x parseSql 0 m p)
      (follows_finishOperation (hm.reportable rfl (fun _ => ?_) nofun) fun _ => hm.report _)
      (fun _ _ hm => hm) fun _ _ hm => hm
    exact hnone rfl ▸ hall hm

/-! ### Scripts with a write -/

/-- The request of a statement of a transaction. -/
def PreparedScriptRun.writeMessage (p : PreparedScriptRun) (statement : String) : Message :=
  p.message p.scriptKind .write (.execute statement)

/-- The request that begins a transaction. -/
def PreparedScriptRun.beginMessage (p : PreparedScriptRun) : Message :=
  p.message p.scriptKind .write .begin

/-- The requests of a script that is committed. -/
def PreparedScriptRun.commitMessages (p : PreparedScriptRun) : List Message :=
  p.beginMessage :: p.statements.map p.writeMessage ++ [p.message p.scriptKind .write .commit]

theorem Claimed.completes_writes (h : Claimed x parseSql n m p)
    (hwrites : scriptHasWrite p.kinds = true) : m.Completes x parseSql debug p.commitMessages :=
  h.prescribed fun _ hplan => .scriptCommit hplan rfl rfl rfl hwrites

/-- There is a dialogue its proposal prescribes. -/
theorem Claimed.sends_nil (h : Claimed x parseSql n m p) : m.Sends x parseSql debug [] := by
  cases hwrites : scriptHasWrite p.kinds with
  | false => exact (h.completes_reads hwrites).sends List.nil_prefix
  | true => exact (h.completes_writes hwrites).sends List.nil_prefix

theorem Claimed.sends_rollback (h : Claimed x parseSql n m p)
    (hwrites : scriptHasWrite p.kinds = true) (k : ℕ) :
    m.Sends x parseSql debug (p.beginMessage :: (p.statements.take k).map p.writeMessage ++
      [p.message p.scriptKind .write .rollback]) := by
  obtain ⟨planned, pin, settings, hplanned, hpin, hsettings, hd⟩ :=
    h.prescribed fun _ hplan => .scriptRollback hplan rfl rfl rfl hwrites k
  exact ⟨planned, pin, settings, _, false, hplanned, hpin, hsettings, hd, List.prefix_rfl⟩

/-- The loop over the statements of a transaction: all of them were sent and acknowledged, or those
up to the one that failed were sent. -/
theorem follows_executeStatements (hwrites : scriptHasWrite p.kinds = true)
    (done rest : List String) (hstatements : done ++ rest = p.statements) {m : Trail}
    (h : Claimed x parseSql n m p) (hsent : m.sent = p.beginMessage :: done.map p.writeMessage)
    (hanswered : m.answered = p.beginMessage :: done.map p.writeMessage) :
    Follows (monitor x parseSql debug)
      (fun r m' => Claimed x parseSql n m' p ∧ ∀ outcomes succeeded,
        r = .ok (.ok (outcomes, succeeded)) →
          (∃ k, m'.sent = p.beginMessage :: (p.statements.take k).map p.writeMessage) ∧
          (succeeded = true → m'.sent = p.beginMessage :: p.statements.map p.writeMessage ∧
            m'.answered = p.beginMessage :: p.statements.map p.writeMessage))
      m (p.executeStatements rest).run.run := by
  induction rest generalizing done m with
  | nil =>
    rw [List.append_nil] at hstatements
    subst hstatements
    refine ⟨h, fun _ _ _ => ⟨⟨p.statements.length, ?_⟩, fun _ => ⟨hsent, hanswered⟩⟩⟩
    rw [hsent, List.take_length]
  | cons statement rest ih =>
    have hsends : m.Sends x parseSql debug (m.sent ++ [p.writeMessage statement]) := by
      have hall : m.Completes x parseSql debug p.commitMessages := h.completes_writes hwrites
      refine hall.sends ?_
      rw [hsent, PreparedScriptRun.commitMessages, ← hstatements]
      exact ⟨rest.map p.writeMessage ++ [p.message p.scriptKind .write .commit], by simp⟩
    have hsent' : m.sent ++ [p.writeMessage statement] =
        p.beginMessage :: (done ++ [statement]).map p.writeMessage := by simp [hsent]
    have hanswered' : m.answered ++ [p.writeMessage statement] =
        p.beginMessage :: (done ++ [statement]).map p.writeMessage := by simp [hanswered]
    have hsplit : p.statements = (done ++ [statement]) ++ rest := by simp [← hstatements]
    have htake : p.statements.take (done.length + 1) = done ++ [statement] := by
      rw [hsplit, List.take_left' (by simp)]
    refine follows_future_bind (R := fun r m' => Claimed x parseSql n m' p ∧ (∀ answer,
        r = .ok (.ok answer) → m'.sent = m.sent ++ [p.writeMessage statement] ∧
          ∀ reply, answer = .ok reply → m'.answered = m.answered ++ [p.writeMessage statement]) ∧
        ∀ e, r ≠ .ok (.error e))
      (follows_tried (h.follows_request hsends
        (fun reply => ⟨(h.send _).acknowledge _, fun _ _ => ⟨rfl, fun _ _ => rfl⟩, nofun⟩)
        (fun e => ⟨h.send _, fun answer ha => ⟨rfl, fun reply hr => by subst hr; cases ha⟩, nofun⟩)
        fun cause m' hm => ⟨hm, nofun, nofun⟩)) (fun answer m' hm => ?_)
      (fun e m' hm => absurd rfl (hm.2.2 e)) fun cause m' hm => ⟨hm.1, nofun⟩
    · obtain ⟨hm, hanswer, -⟩ := hm
      obtain ⟨hsent'', hok⟩ := hanswer answer rfl
      cases answer with
      | error e =>
        refine ⟨hm, fun outcomes succeeded hr => ⟨⟨done.length + 1, ?_⟩, fun hs => ?_⟩⟩
        · rw [hsent'', hsent', htake]
        · obtain ⟨-, rfl⟩ := Prod.mk.inj (Except.ok.inj (Except.ok.inj hr))
          cases hs
      | ok reply =>
        refine follows_future_bind (ih (done ++ [statement]) (by simp [hstatements]) hm
          (hsent''.trans hsent') ((hok reply rfl).trans hanswered')) ?_
          (fun e m'' hm => ⟨hm.1, nofun⟩) fun cause m'' hm => ⟨hm.1, nofun⟩
        rintro ⟨outcomes, succeeded⟩ m'' ⟨hm, hend⟩
        refine ⟨hm, fun outcomes' succeeded' hr => ?_⟩
        obtain ⟨-, rfl⟩ := Prod.mk.inj (Except.ok.inj (Except.ok.inj hr))
        exact hend outcomes succeeded rfl

theorem follows_executeScriptTransaction (h : Claimed x parseSql n m p)
    (hwrites : scriptHasWrite p.kinds = true) (hsent : m.sent = []) (hanswered : m.answered = []) :
    Follows (monitor x parseSql debug)
      (fun r m' => Claimed x parseSql n m' p ∧ ∀ outcomes, r = .ok (.ok (outcomes, true)) →
        m'.Completes x parseSql debug m'.answered)
      m p.executeScriptTransaction.run.run := by
  have hall : m.Completes x parseSql debug p.commitMessages := h.completes_writes hwrites
  have hfirst : m.sent ++ [p.beginMessage] <+: p.commitMessages := by
    rw [hsent]
    exact ⟨_, rfl⟩
  refine follows_future_bind (R := fun r m' => Claimed x parseSql n m' p ∧ (∀ reply,
      r = .ok (.ok (.ok reply)) → m'.sent = [p.beginMessage] ∧ m'.answered = [p.beginMessage]) ∧
        ∀ e, r ≠ .ok (.error e))
    (follows_tried (h.follows_request (hall.sends hfirst)
      (fun reply => ⟨(h.send _).acknowledge _, fun _ _ =>
        ⟨by simp [hsent, PreparedScriptRun.beginMessage],
          by simp [hanswered, PreparedScriptRun.beginMessage]⟩, nofun⟩)
      (fun e => ⟨h.send _, nofun, nofun⟩) fun cause m' hm => ⟨hm, nofun, nofun⟩))
    (fun answer m' hm => ?_) (fun e m' hm => absurd rfl (hm.2.2 e)) fun cause m' hm => ⟨hm.1, nofun⟩
  obtain ⟨h, hbegun, -⟩ := hm
  cases answer with
  | error e => exact ⟨h, nofun⟩
  | ok reply =>
    obtain ⟨hsent, hanswered⟩ := hbegun reply rfl
    refine follows_future_bind (follows_executeStatements hwrites [] p.statements rfl h hsent
      hanswered) ?_ (fun e m'' hm => ⟨hm.1, nofun⟩) fun cause m'' hm => ⟨hm.1, nofun⟩
    rintro ⟨outcomes, succeeded⟩ m ⟨h, hend⟩
    obtain ⟨⟨k, hk⟩, hdone⟩ := hend outcomes succeeded rfl
    have hall : m.Completes x parseSql debug p.commitMessages := h.completes_writes hwrites
    cases succeeded with
    | true =>
      obtain ⟨hsent, hanswered⟩ := hdone rfl
      have hlast : m.Completes x parseSql debug
          (m.answered ++ [p.message p.scriptKind .write .commit]) := by
        rw [hanswered]
        exact hall
      refine follows_future_bind (R := fun r m' => Claimed x parseSql n m' p ∧
          ∀ reply, r = .ok (.ok (.ok reply)) → m'.Completes x parseSql debug m'.answered)
        (follows_tried (h.follows_request (hall.sends ?_)
          (fun reply => ⟨(h.send _).acknowledge _, fun _ _ => hlast.acknowledge⟩)
          (fun e => ⟨h.send _, nofun⟩) fun cause m' hm => ⟨hm, nofun⟩))
        (fun answer m' hm => ?_) (fun e m' hm => ⟨hm.1, nofun⟩) fun cause m' hm => ⟨hm.1, nofun⟩
      · rw [hsent]
        exact List.prefix_rfl
      · cases answer with
        | ok reply => exact ⟨hm.1, fun _ _ => hm.2 reply rfl⟩
        | error e => exact ⟨hm.1, nofun⟩
    | false =>
      refine follows_future_bind (R := fun _ m' => Claimed x parseSql n m' p)
        (follows_tried (h.follows_request (hk ▸ h.sends_rollback hwrites k)
          (fun reply => (h.send _).acknowledge _) (fun e => h.send _) fun cause m' hm => hm))
        (fun answer m' hm => ?_) (fun e m' hm => ⟨hm, nofun⟩) fun cause m' hm => ⟨hm, nofun⟩
      cases answer with
      | ok reply =>
        refine ⟨hm, fun outcomes' hr => ?_⟩
        cases (Prod.mk.inj (Except.ok.inj (Except.ok.inj hr))).2
      | error e => exact ⟨hm, nofun⟩

/-! ### The reports of a transaction -/

theorem follows_failed (h : Claimed x parseSql n m p) (e : AppError) :
    Follows (monitor x parseSql debug) (fun _ m => Claimed x parseSql n m p) m
      (p.failed e).run := by
  refine (sure_recordRun _ _).run_bind fun _ => ?_
  split
  · exact follows_run_bind (h.follows_drop rfl (by decide) (by decide)) (fun _ _ hm => hm)
      fun _ _ hm => hm
  · exact follows_run_bind (h.follows_drop rfl (by decide) (by decide)) (fun _ _ hm => hm)
      fun _ _ hm => hm

theorem follows_settled (h : Claimed x parseSql n m p) {outcomes : List ScriptStatement}
    {committed : Bool} (hcommitted : committed = true → m.Completes x parseSql debug m.answered) :
    Follows (monitor x parseSql debug) (fun _ m => Claimed x parseSql n m p) m
      (p.settled outcomes committed).run := by
  unfold PreparedScriptRun.settled
  dsimp only
  split
  on_goal 1 => refine (quiet_clearSchemaCache _ _).dropResult.run_bind fun _ => ?_
  all_goals
    refine (sure_recordRun _ _).run_bind fun _ => ?_
    refine follows_attempt_bind (R := fun _ m => Claimed x parseSql n m p) ?_ fun r m' hm => ?_
    · split
      · exact follows_finishOperation (h.reportable rfl (fun _ => hcommitted ‹_›) (by decide))
          fun _ => h.report _
      · exact follows_finishOperation (h.reportable rfl (fun h => by cases h) (by decide))
          fun _ => h.report _
    · cases r with
      | ok _ => exact hm
      | error e =>
        dsimp only
        split
        · exact follows_run_bind (hm.follows_drop rfl (by decide) (by decide)) (fun _ _ hm => hm)
            fun _ _ hm => hm
        · exact hm

theorem follows_ended (h : Claimed x parseSql n m p) {outcomes : List ScriptStatement}
    {committed : Bool} (hcommitted : committed = true → m.Completes x parseSql debug m.answered) :
    Follows (monitor x parseSql debug) (fun _ m => Claimed x parseSql n m p) m
      (p.ended outcomes committed).run := by
  unfold PreparedScriptRun.ended
  split
  · refine (sure_recordRun _ _).run_bind fun _ => ?_
    exact follows_run_bind (h.follows_drop rfl (by decide) (by decide)) (fun _ _ hm => hm)
      fun _ _ hm => hm
  · exact follows_settled h hcommitted

theorem follows_runTransaction (h : Claimed x parseSql 0 m p)
    (hwrites : scriptHasWrite p.kinds = true) (hsent : m.sent = []) (hanswered : m.answered = [])
    (approvedBy : String) (grant : ExecutionGrant) :
    Follows (monitor x parseSql debug) (fun _ m => Claimed x parseSql 0 m p) m
      (p.runTransaction approvedBy grant).run := by
  have hneeded : ∀ {step : RunM Unit} {reason : String}, Quiet x parseSql debug step →
      Follows (monitor x parseSql debug) (fun r m' => match r with
        | .ok _ => m' = m
        | .error _ => Claimed x parseSql 0 m' p) m (p.needed step reason).run := fun hstep =>
    follows_reporting hstep (fun _ => rfl) fun _ => (sure_recordRun _ _).run_bind fun _ =>
      (h.follows_reportFailed _).mono fun _ _ hm _ => hm
  refine follows_run_bind (R := fun r m' => match r with
    | .ok _ => m' = m
    | .error _ => Claimed x parseSql 0 m' p) (follows_reporting (quiet_auditRecord _) (fun _ => rfl)
      fun _ => (h.follows_reportFailed _).mono fun _ _ hm _ => hm) (fun _ m' hm => hm ▸ ?_)
      fun _ _ hm => hm
  refine follows_run_bind (hneeded (quiet_connect _ _)) (fun _ m' hm => hm ▸ ?_) fun _ _ hm => hm
  refine follows_run_bind (hneeded (quiet_backend _)) (fun _ m' hm => hm ▸ ?_) fun _ _ hm => hm
  have hheld : Claimed x parseSql 1 { m with handles := m.handles + 1 } p := h.register
  refine follows_attempt_bind (R := fun r m' => Claimed x parseSql 0 m' p ∧ ∀ outcomes,
      r = .ok (outcomes, true) → m'.Completes x parseSql debug m'.answered)
    (follows_withHandle (R := fun r m' => Claimed x parseSql 1 m' p ∧ ∀ outcomes,
      r = .ok (outcomes, true) → m'.Completes x parseSql debug m'.answered) h.id
      (follows_guarded ?_) ?_) ?_
  · refine follows_future_bind (R := fun r m' => m' = { m with handles := m.handles + 1 } ∧
        ∀ cause, r ≠ .error cause) ?_ (fun _ m' hm => ?_) (fun e m' hm => ?_)
      fun cause m' hm => absurd rfl (hm.2 cause)
    · cases p.checkGrant grant <;> exact ⟨rfl, nofun⟩
    · obtain ⟨rfl, -⟩ := hm
      refine (follows_executeScriptTransaction hheld hwrites hsent hanswered).mono ?_
      intro r m' hm
      match r, hm with
      | .ok (.ok (outcomes, committed)), hm =>
        refine ⟨hm.1, fun outcomes' hr => ?_⟩
        obtain ⟨-, rfl⟩ := Prod.mk.inj (Except.ok.inj hr)
        exact hm.2 outcomes rfl
      | .ok (.error e), hm => exact ⟨hm.1, nofun⟩
      | .error cause, hm => exact ⟨hm.1, nofun⟩
    · obtain ⟨rfl, -⟩ := hm
      exact ⟨hheld, nofun⟩
  · rintro r m' ⟨hm, hcommitted⟩
    exact ⟨hm.id, hm.handles ▸ Nat.one_pos, fun he => absurd (hm.entry.symm.trans he) nofun,
      hm.release, hcommitted⟩
  · rintro r m' ⟨hm, hcommitted⟩
    match r, hcommitted with
    | .ok (outcomes, committed), hcommitted =>
      exact follows_ended hm fun hc => hcommitted outcomes (hc ▸ rfl)
    | .error e, _ => exact follows_failed hm e

theorem follows_runWrite (h : Claimed x parseSql 0 m p) (hwrites : scriptHasWrite p.kinds = true)
    (hsent : m.sent = []) (hanswered : m.answered = []) (approvedBy : String)
    (grant : ExecutionGrant) :
    Follows (monitor x parseSql debug) (fun _ m => Claimed x parseSql 0 m p) m
      (p.runWrite approvedBy grant).run := by
  refine follows_run_bind (R := fun _ m' => m' = m) (follows_liftExcept.2 rfl)
    (fun _ m' hm => hm ▸ ?_) fun _ _ hm => hm ▸ h
  split
  · exact follows_runTransaction h hwrites hsent hanswered approvedBy grant
  · exact (sure_recordRun _ _).run_bind fun _ => h

/-! ### The entry point -/

/-- **`run_desktop` of a script does what its monitor allows**, and holds no handle when it
returns. -/
theorem follows_runDesktop (id : Uuid) :
    Follows (monitor x parseSql debug) (fun _ m => m.handles = 0)
      ({ entry := .script, operationId := id } : Trail) (runDesktop x parseSql id).run := by
  refine follows_run_bind (follows_prepareDesktop rfl rfl) ?_ fun e m' hm => hm.2
  rintro ⟨p, approvedBy⟩ m' ⟨planned, hplan, hid, rfl⟩
  have hstart : Claimed x parseSql 0
      { ({ entry := .script, operationId := id } : Trail).load planned p.pin p.settings with
        claimed := true } p := ⟨⟨planned, rfl, hplan⟩, rfl, hid, rfl, rfl, rfl, rfl⟩
  refine follows_run_bind (R := fun r m' => match r with
    | .ok _ => Claimed x parseSql 0 m' p ∧ m'.sent = [] ∧ m'.answered = []
    | .error _ => m'.handles = 0)
    (follows_claimOperation rfl rfl nofun hstart.sends_nil (fun _ => ⟨hstart, rfl, rfl⟩) fun _ => rfl)
    (fun claimed m' hm => ?_) fun _ _ hm => hm
  obtain ⟨hm, hsent, hanswered⟩ := hm
  split
  · exact (follows_runWrite hm ‹_› hsent hanswered _ _).mono fun _ _ h => h.handles
  · rename_i hreads
    have hreads : scriptHasWrite p.kinds = false := by simpa using hreads
    exact (follows_runReads hm hreads hsent hanswered).mono fun _ _ h => h.handles

end

end Script
end Runs
end AgentDb
