import AgentDb.Runs.Trail

/-!
# Rules for the calls of a run

What the monitor of a run makes of each call, one rule a call, and of the ways the services put
calls together: steps whose results are dropped, steps that report their errors, handles that are
held for the length of a body. A step is quiet when its trail stays as it is.
-/

namespace AgentDb
namespace Runs

open Connection Executor Json Operations Program Safety Services Store

namespace Trail

variable (t : Trail)

/-- A request went out. -/
def send (message : Message) : Trail := { t with sent := t.sent ++ [message] }

/-- A request was acknowledged. -/
def acknowledge (message : Message) : Trail := { t with answered := t.answered ++ [message] }

@[simp] theorem sent_send (message : Message) : (t.send message).sent = t.sent ++ [message] := rfl

@[simp] theorem answered_send (message : Message) : (t.send message).answered = t.answered := rfl

@[simp] theorem sent_acknowledge (message : Message) : (t.acknowledge message).sent = t.sent := rfl

@[simp] theorem answered_acknowledge (message : Message) :
    (t.acknowledge message).answered = t.answered ++ [message] := rfl

/-- A guard ended a request. -/
def interrupt (cause : Interrupt) : Trail :=
  { t with interrupted := t.interrupted || cause = .cancelled }

/-- A report was made. -/
def report (target : OperationState) : Trail := { t with finishes := t.finishes ++ [target] }

/-- The proposal, the pin and the settings of the run were loaded. -/
def load (planned : OperationRecord) (pin : PinnedConnection) (settings : SafetySettings) :
    Trail := { t with planned, pin, settings }

end Trail

section

variable {x : Crates} {parseSql : Engine → String → Except String (List Statement)}
  {debug : String → String} {α β : Type} {m : Trail}

/-! ### Quiet steps -/

variable (x parseSql debug) in
/-- The step leaves the trail as it is. -/
def Quiet (p : RunM α) : Prop :=
  ∀ m, Follows (monitor x parseSql debug) (fun _ m' => m' = m) m p.run

theorem Quiet.follows {p : RunM α} (h : Quiet x parseSql debug p) {Q : AppResult α → Trail → Prop}
    (hQ : ∀ r, Q r m) : Follows (monitor x parseSql debug) Q m p.run :=
  (h m).mono fun r _ hm => hm ▸ hQ r

theorem Quiet.run_bind {p : RunM α} (h : Quiet x parseSql debug p) {f : α → RunM β}
    {Q : AppResult β → Trail → Prop}
    (hok : ∀ a, Follows (monitor x parseSql debug) Q m (f a).run)
    (herror : ∀ e, Q (.error e) m) : Follows (monitor x parseSql debug) Q m (p >>= f).run :=
  follows_run_bind (h m) (fun a _ hm => hm ▸ hok a) fun e _ hm => hm ▸ herror e

theorem Quiet.bind {p : RunM α} {f : α → RunM β} (h : Quiet x parseSql debug p)
    (hf : ∀ a, Quiet x parseSql debug (f a)) : Quiet x parseSql debug (p >>= f) := fun m =>
  h.run_bind (fun a => hf a m) fun _ => rfl

theorem quiet_pure (a : α) : Quiet x parseSql debug (pure a : RunM α) := fun _ => rfl

theorem quiet_throw (e : AppError) : Quiet x parseSql debug (throw e : RunM α) := fun _ => rfl

theorem quiet_liftExcept (r : AppResult α) : Quiet x parseSql debug (liftM r : RunM α) := fun _ =>
  follows_liftExcept.2 rfl

theorem Quiet.attempt {p : RunM α} (h : Quiet x parseSql debug p) :
    Quiet x parseSql debug (Program.attempt p) := fun m => follows_attempt.2 (h m)

theorem quiet_beginOperationScope : Quiet x parseSql debug beginOperationScope := fun _ _ _ =>
  ⟨trivial, rfl⟩

theorem quiet_auditRecord (args : RecordArgs) : Quiet x parseSql debug (auditRecord args) :=
  fun _ _ _ => ⟨trivial, rfl⟩

theorem quiet_connect (pin : PinnedConnection) (access : ConnectionAccess) :
    Quiet x parseSql debug (connect pin access) := fun _ _ _ => ⟨trivial, rfl⟩

theorem quiet_backend (document : Bool) : Quiet x parseSql debug (backend document) :=
  fun _ _ _ => ⟨trivial, rfl⟩

theorem quiet_pin (id : Uuid) (access : ConnectionAccess) :
    Quiet x parseSql debug (pin id access) := fun _ _ _ => ⟨trivial, rfl⟩

theorem quiet_getCatalog (pin : PinnedConnection) : Quiet x parseSql debug (getCatalog pin) :=
  fun _ _ _ => ⟨trivial, rfl⟩

theorem quiet_putCatalog (pin : PinnedConnection) (catalog : Stamped) :
    Quiet x parseSql debug (putCatalog pin catalog) := fun _ _ _ => ⟨trivial, rfl⟩

theorem quiet_clearSchemaCache (id : Uuid) (after : Option Uuid) :
    Quiet x parseSql debug (clearSchemaCache id after) := fun _ _ _ => ⟨trivial, rfl⟩

theorem quiet_introspect (id : Uuid) : Quiet x parseSql debug (introspect id) :=
  Quiet.bind (p := ExceptT.lift (ask (.beginIntrospection id))) (fun _ _ _ => ⟨trivial, rfl⟩)
    fun _ _ _ _ => ⟨trivial, rfl⟩

/-! ### Steps that cannot fail -/

variable (x parseSql debug) in
/-- The step leaves the trail as it is, and the next one follows. -/
def Sure (p : RunM α) : Prop :=
  ∀ m, Follows (monitor x parseSql debug) (fun r m' => (∃ a, r = .ok a) ∧ m' = m) m p.run

theorem Sure.quiet {p : RunM α} (h : Sure x parseSql debug p) : Quiet x parseSql debug p :=
  fun m => (h m).mono fun _ _ hm => hm.2

theorem Sure.run_bind {p : RunM α} (h : Sure x parseSql debug p) {f : α → RunM β}
    {Q : AppResult β → Trail → Prop}
    (hf : ∀ a, Follows (monitor x parseSql debug) Q m (f a).run) :
    Follows (monitor x parseSql debug) Q m (p >>= f).run := by
  refine follows_run_bind (h m) (fun a _ hm => hm.2 ▸ hf a) ?_
  rintro e m' ⟨⟨a, ha⟩, -⟩
  cases ha

theorem sure_recordRun (pin : PinnedConnection) (run : RunRecord) :
    Sure x parseSql debug (recordRun pin run) := fun _ _ _ => ⟨trivial, ⟨_, rfl⟩, rfl⟩

theorem Quiet.dropResult {p : RunM α} (h : Quiet x parseSql debug p) :
    Sure x parseSql debug (dropResult p) := by
  intro m
  refine follows_run_bind (R := fun r m' => (∃ a, r = .ok a) ∧ m' = m)
    (follows_attempt.2 ((h m).mono fun r m' hm => ⟨⟨r, rfl⟩, hm⟩)) (fun _ _ hm => ⟨⟨(), rfl⟩, hm.2⟩)
    ?_
  rintro e m' ⟨⟨a, ha⟩, -⟩
  cases ha

/-- The end of a step: with `Q`, or with an error and `E`. -/
abbrev Ends (Q : α → Trail → Prop) (E : AppError → Trail → Prop) : AppResult α → Trail → Prop
  | .ok a, m => Q a m
  | .error e, m => E e m

/-! ### Before the claim -/

/-- The end of what a run does before its claim: with `Q`, or with an error and nothing held. -/
def Loading (Q : α → Trail → Prop) : AppResult α → Trail → Prop
  | .ok a, m => Q a m
  | .error _, m => m.claimed = false ∧ m.handles = 0

section Loading

variable {Q : β → Trail → Prop} {f : α → RunM β}

theorem follows_loading (hclaimed : m.claimed = false) (hhandles : m.handles = 0) {p : RunM α}
    {R : AppResult α → Trail → Prop} (hp : Follows (monitor x parseSql debug) R m p.run)
    (hok : ∀ a m', R (.ok a) m' → Follows (monitor x parseSql debug) (Loading Q) m' (f a).run)
    (herror : ∀ e m', R (.error e) m' → m' = m) :
    Follows (monitor x parseSql debug) (Loading Q) m (p >>= f).run :=
  follows_run_bind hp hok fun e m' hm => herror e m' hm ▸ ⟨hclaimed, hhandles⟩

theorem loading_getOperation {f : OperationRecord → RunM β} (hclaimed : m.claimed = false)
    (hhandles : m.handles = 0)
    (h : ∀ planned : OperationRecord,
      Follows (monitor x parseSql debug) (Loading Q) { m with planned } (f planned).run) :
    Follows (monitor x parseSql debug) (Loading Q) m (getOperation m.operationId >>= f).run := by
  refine follows_loading (R := Ends (fun planned m' => m' = { m with planned := some planned })
    fun _ m' => m' = m) hclaimed hhandles (fun a _ => ⟨⟨hclaimed, rfl⟩, ?_⟩)
    (fun planned _ hm => hm ▸ h planned) fun _ _ hm => hm
  rcases a with e | planned <;> exact rfl

theorem loading_pinConnection {f : PinnedConnection → RunM β} {id : Uuid}
    (hclaimed : m.claimed = false) (hhandles : m.handles = 0)
    (h : ∀ pin : PinnedConnection,
      Follows (monitor x parseSql debug) (Loading Q) { m with pin } (f pin).run) :
    Follows (monitor x parseSql debug) (Loading Q) m (pinConnection id >>= f).run := by
  refine follows_loading (R := Ends (fun pin m' => m' = { m with pin := some pin })
    fun _ m' => m' = m) hclaimed hhandles (fun a _ => ⟨hclaimed, ?_⟩)
    (fun pin _ hm => hm ▸ h pin) fun _ _ hm => hm
  rcases a with e | pin <;> exact rfl

theorem loading_getSafety {f : SafetySettings → RunM β} {id : Uuid}
    (hclaimed : m.claimed = false) (hhandles : m.handles = 0)
    (h : ∀ settings : SafetySettings,
      Follows (monitor x parseSql debug) (Loading Q) { m with settings } (f settings).run) :
    Follows (monitor x parseSql debug) (Loading Q) m (getSafety id >>= f).run := by
  refine follows_loading (R := Ends (fun settings m' => m' = { m with settings := some settings })
    fun _ m' => m' = m) hclaimed hhandles (fun a _ => ⟨hclaimed, ?_⟩)
    (fun settings _ hm => hm ▸ h settings) fun _ _ hm => hm
  rcases a with e | settings <;> exact rfl

theorem loading_quiet {p : RunM α} (hclaimed : m.claimed = false) (hhandles : m.handles = 0)
    (hp : Quiet x parseSql debug p)
    (h : ∀ a, Follows (monitor x parseSql debug) (Loading Q) m (f a).run) :
    Follows (monitor x parseSql debug) (Loading Q) m (p >>= f).run :=
  follows_loading hclaimed hhandles (hp m) (fun a _ hm => hm ▸ h a) fun _ _ hm => hm

/-- A check, which the rest of the run can rely on. -/
theorem loading_check {r : AppResult α} (hclaimed : m.claimed = false) (hhandles : m.handles = 0)
    (h : ∀ a, r = .ok a → Follows (monitor x parseSql debug) (Loading Q) m (f a).run) :
    Follows (monitor x parseSql debug) (Loading Q) m (liftM r >>= f).run := by
  refine follows_loading (R := fun r' m' => r = r' ∧ m' = m) hclaimed hhandles
    (follows_liftExcept.2 ⟨rfl, rfl⟩) (fun a m' ha => ?_) fun _ _ hm => hm.2
  obtain ⟨ha, rfl⟩ := ha
  exact h a ha

end Loading

/-! ### The claim and the reports -/

theorem follows_claimOperation {id : Uuid} {Q : AppResult ClaimedOperation → Trail → Prop}
    (hclaimed : m.claimed = false) (hid : id = m.operationId)
    (hhandle : m.entry = .sql → 0 < m.handles) (hsends : m.Sends x parseSql debug [])
    (hok : ∀ claimed, Q (.ok claimed) { m with claimed := true }) (herror : ∀ e, Q (.error e) m) :
    Follows (monitor x parseSql debug) Q m (claimOperation id).run := fun a _ =>
  ⟨⟨hclaimed, hid, hhandle, hsends⟩, match a with
    | .ok claimed => hok claimed
    | .error e => herror e⟩

variable (x parseSql debug m) in
/-- A report that the run may make. -/
structure Reportable (id : Uuid) (target : OperationState) (details : Value) : Prop where
  claimed : m.claimed = true
  id_eq : id = m.operationId
  step : allowed .executing target = true
  handle : m.entry = .sql → 0 < m.handles
  brief : m.entry = .sql ∨ m.entry = .document → Brief details
  succeeded : target = .succeeded → m.Completes x parseSql debug m.answered
  cancelled : target = .cancelled → m.interrupted = true

/-- A run of the given kind that has loaded a proposal for which `plan` holds, has claimed its
operation and holds `n` handles. -/
structure Held (entry : Entry) (n : ℕ) (plan : OperationRecord → Prop) (pin : PinnedConnection)
    (settings : SafetySettings) (id : Uuid) (m : Trail) : Prop where
  plan : ∃ planned, m.planned = some planned ∧ plan planned
  entry : m.entry = entry
  id : id = m.operationId
  pin : m.pin = some pin
  settings : m.settings = some settings
  claimed : m.claimed = true
  handles : m.handles = n

namespace Held

variable {entry : Entry} {n : ℕ} {plan : OperationRecord → Prop} {pin : PinnedConnection}
  {settings : SafetySettings} {id : Uuid}

theorem send (h : Held entry n plan pin settings id m) (message : Message) :
    Held entry n plan pin settings id (m.send message) := { h with }

theorem acknowledge (h : Held entry n plan pin settings id m) (message : Message) :
    Held entry n plan pin settings id (m.acknowledge message) := { h with }

theorem interrupt (h : Held entry n plan pin settings id m) (cause : Interrupt) :
    Held entry n plan pin settings id (m.interrupt cause) := { h with }

theorem report (h : Held entry n plan pin settings id m) (target : OperationState) :
    Held entry n plan pin settings id (m.report target) := { h with }

/-- One more handle. -/
theorem register (h : Held entry n plan pin settings id m) :
    Held entry (n + 1) plan pin settings id { m with handles := m.handles + 1 } :=
  { h with handles := by simp [h.handles] }

/-- One handle less. -/
theorem release (h : Held entry (n + 1) plan pin settings id m) :
    Held entry n plan pin settings id { m with handles := m.handles - 1 } :=
  { h with handles := by simp [h.handles] }

/-- What its proposal prescribes. -/
theorem prescribed (h : Held entry n plan pin settings id m) {d : List Message} {complete : Bool}
    (hd : ∀ planned, plan planned →
      Prescribed x parseSql debug id planned pin settings entry d complete) :
    ∃ planned pin settings, m.planned = some planned ∧ m.pin = some pin ∧
      m.settings = some settings ∧
      Prescribed x parseSql debug m.operationId planned pin settings m.entry d complete := by
  obtain ⟨planned, hplanned, hplan⟩ := h.plan
  exact ⟨planned, pin, settings, hplanned, h.pin, h.settings, h.id ▸ h.entry ▸ hd planned hplan⟩

theorem reportable (h : Held entry n plan pin settings id m) {target : OperationState}
    {details : Value} (htarget : allowed .executing target = true)
    (hhandle : entry = .sql → 0 < n)
    (hbrief : entry = .sql ∨ entry = .document → Brief details)
    (hsucceeded : target = .succeeded → m.Completes x parseSql debug m.answered)
    (hcancelled : target = .cancelled → m.interrupted = true) :
    Reportable x parseSql debug m id target details where
  claimed := h.claimed
  id_eq := h.id
  step := htarget
  handle hsql := h.handles ▸ hhandle (h.entry.symm.trans hsql)
  brief hentry := hbrief (h.entry ▸ hentry)
  succeeded := hsucceeded
  cancelled := hcancelled

end Held

theorem follows_finishOperation {id : Uuid} {target : OperationState} {details : Value}
    {Q : AppResult OperationRecord → Trail → Prop}
    (hreportable : Reportable x parseSql debug m id target details)
    (hQ : ∀ r, Q r (m.report target)) :
    Follows (monitor x parseSql debug) Q m (finishOperation id target details).run := fun r _ =>
  ⟨⟨hreportable.1, hreportable.2, hreportable.3, hreportable.4, hreportable.5, hreportable.6,
    hreportable.7⟩, hQ r⟩

theorem follows_dropResult {p : RunM α} {Q : AppResult Unit → Trail → Prop}
    (h : Follows (monitor x parseSql debug) (fun _ m => Q (.ok ()) m) m p.run) :
    Follows (monitor x parseSql debug) Q m (dropResult p).run := by
  refine follows_run_bind (R := fun r m => (∃ a, r = .ok a) ∧ Q (.ok ()) m) ?_
    (fun _ _ h => h.2) ?_
  · exact follows_attempt.2 (h.mono fun r m hm => ⟨⟨r, rfl⟩, hm⟩)
  · rintro e m' ⟨⟨a, ha⟩, -⟩
    cases ha

theorem follows_attempt_bind {p : RunM α} {f : AppResult α → RunM β}
    {R : AppResult α → Trail → Prop} {Q : AppResult β → Trail → Prop}
    (hp : Follows (monitor x parseSql debug) R m p.run)
    (hf : ∀ r m, R r m → Follows (monitor x parseSql debug) Q m (f r).run) :
    Follows (monitor x parseSql debug) Q m (Program.attempt p >>= f).run := by
  refine follows_run_bind (R := fun r m => ∃ a, r = .ok a ∧ R a m) ?_ ?_ ?_
  · exact follows_attempt.2 (hp.mono fun r m hm => ⟨r, rfl, hm⟩)
  · rintro a m' ⟨r, hr, hm⟩
    obtain rfl := Except.ok.inj hr
    exact hf a m' hm
  · rintro e m' ⟨a, ha, -⟩
    cases ha

/-- A quiet step whose error is reported before it is returned. -/
theorem follows_reporting {step : RunM α} {report : AppError → RunM Unit}
    {wrap : AppError → AppError} {Q : AppResult α → Trail → Prop}
    (hstep : Quiet x parseSql debug step) (hok : ∀ a, Q (.ok a) m)
    (hreport : ∀ e, Follows (monitor x parseSql debug) (fun _ m => ∀ e, Q (.error e) m) m
      (report e).run) :
    Follows (monitor x parseSql debug) Q m (reporting step report wrap).run := by
  refine follows_attempt_bind (R := fun _ m' => m' = m) (hstep m) ?_
  rintro r m' rfl
  cases r with
  | ok a => exact hok a
  | error e =>
    exact follows_run_bind (hreport e) (fun _ m hm => hm (wrap e)) fun e' m hm => hm e'

/-! ### Handles -/

theorem follows_isCancelledNow {id : Uuid} {Q : AppResult Bool → Trail → Prop}
    (hid : id = m.operationId)
    (hQ : ∀ signalled : Bool, Q (.ok signalled)
      { m with interrupted := m.interrupted || signalled }) :
    Follows (monitor x parseSql debug) Q m (isCancelledNow id).run :=
  follows_lift.2 fun signalled _ => ⟨hid, hQ signalled⟩

/-- A body with a handle: it starts with one more, and ends with one to drop. -/
theorem follows_withHandle {id : Uuid} {body : RunM α} {Q : AppResult α → Trail → Prop}
    {R : AppResult α → Trail → Prop} (hid : id = m.operationId)
    (hbody : Follows (monitor x parseSql debug) R { m with handles := m.handles + 1 } body.run)
    (hrelease : ∀ r m', R r m' → id = m'.operationId ∧ 0 < m'.handles ∧
      (m'.entry = .sql → m'.claimed = true → m'.finishes ≠ []) ∧
        Q r { m' with handles := m'.handles - 1 }) :
    Follows (monitor x parseSql debug) Q m (withHandle id body).run := by
  refine follows_run_bind (R := fun r m' => (∃ a, r = .ok a) ∧
    m' = { m with handles := m.handles + 1 }) (follows_lift.2 fun a _ => ⟨hid, ⟨a, rfl⟩, rfl⟩) ?_ ?_
  · rintro - m' ⟨-, rfl⟩
    refine follows_attempt_bind hbody fun r m' hm => ?_
    obtain ⟨hid', hhandles, hfinished, hQ⟩ := hrelease r m' hm
    refine follows_run_bind (R := fun a m' => (∃ u, a = .ok u) ∧ Q r m')
      (follows_lift.2 fun a _ => ⟨⟨hid', hhandles, hfinished⟩, ⟨a, rfl⟩, hQ⟩) ?_ ?_
    · rintro - m'' ⟨-, hQ⟩
      exact hQ
    · rintro e m'' ⟨⟨u, hu⟩, -⟩
      cases hu
  · rintro e m' ⟨⟨a, ha⟩, -⟩
    cases ha

/-! ### What reports are made of -/

theorem brief_reasonDetails {reason : String} (h : reason.utf8ByteSize ≤ 64) :
    Brief (reasonDetails reason) := by
  refine ⟨_, rfl, by simp, ?_⟩
  simpa using ⟨by decide, h⟩

theorem utf8ByteSize_kind_le (e : AppError) : e.kind.utf8ByteSize ≤ 64 := by
  cases e <;> simp only [AppError.kind] <;> decide

/-! ### Requests -/

theorem Trail.Completes.sends {messages l : List Message}
    (h : m.Completes x parseSql debug messages) (hl : l <+: messages) :
    m.Sends x parseSql debug l := by
  obtain ⟨planned, pin, settings, hplanned, hpin, hsettings, hprescribed⟩ := h
  exact ⟨planned, pin, settings, messages, true, hplanned, hpin, hsettings, hprescribed, hl⟩

/-- The last request is acknowledged. -/
theorem Trail.Completes.acknowledge {message : Message}
    (h : m.Completes x parseSql debug (m.answered ++ [message])) :
    ((m.send message).acknowledge message).Completes x parseSql debug
      ((m.send message).acknowledge message).answered := h

theorem isCancelled_of_targetError {e : AppError} (h : TargetError e) : isCancelled e = false := by
  cases h <;> rfl

/-- The error of a guard that ended a future. -/
theorem interrupted_of_isCancelled {cause : Interrupt} (h : isCancelled cause.error = true) :
    (m.interrupt cause).interrupted = true := by
  cases cause with
  | cancelled => simp [Trail.interrupt]
  | timedOut => exact absurd h (by decide)

/-- A request within a future: its guard may end it before it goes out and while its answer is
awaited, and the target may refuse it. -/
theorem follows_request {handle : Option Uuid} {message : Message}
    {Q : Except Interrupt (AppResult Reply) → Trail → Prop}
    (hhandle : ∀ id ∈ handle, id = m.operationId) (hclaimed : m.claimed = true)
    (hid : message.operationId = some m.operationId)
    (hsends : m.Sends x parseSql debug (m.sent ++ [message]))
    (hok : ∀ reply : Reply, reply.InRange →
      Q (.ok (.ok reply)) ((m.send message).acknowledge message))
    (herror : ∀ e, TargetError e → Q (.ok (.error e)) (m.send message))
    (hended : ∀ cause, Q (.error cause) (m.interrupt cause))
    (hdropped : ∀ cause, Q (.error cause) ((m.send message).interrupt cause)) :
    Follows (monitor x parseSql debug) Q m (request handle message).run.run := by
  intro a _
  refine ⟨⟨hhandle, fun _ => ⟨hclaimed, hid, hsends⟩⟩, ?_⟩
  cases a with
  | error cause => exact hended cause
  | ok u =>
    intro b hb
    refine ⟨⟨hhandle, hclaimed, hid⟩, ?_⟩
    match b, hb with
    | .error cause, _ => exact hdropped cause
    | .ok (.error e), he => exact herror e he
    | .ok (.ok reply), hreply => exact hok reply hreply

/-- The rule for one step of a future after the other. -/
theorem follows_future_bind {p : FutureM α} {f : α → FutureM β}
    {R : Except Interrupt (AppResult α) → Trail → Prop}
    {Q : Except Interrupt (AppResult β) → Trail → Prop}
    (hp : Follows (monitor x parseSql debug) R m p.run.run)
    (hok : ∀ a m, R (.ok (.ok a)) m → Follows (monitor x parseSql debug) Q m (f a).run.run)
    (herror : ∀ e m, R (.ok (.error e)) m → Q (.ok (.error e)) m)
    (hended : ∀ cause m, R (.error cause) m → Q (.error cause) m) :
    Follows (monitor x parseSql debug) Q m (p >>= f).run.run := by
  change Follows (monitor x parseSql debug) Q m (p.run >>= ExceptT.bindCont f).run
  refine follows_run_bind hp (fun r m hr => ?_) hended
  cases r with
  | ok a => exact hok a m hr
  | error e => exact herror e m hr

theorem follows_tried {p : FutureM α}
    {Q : Except Interrupt (AppResult (AppResult α)) → Trail → Prop}
    (hp : Follows (monitor x parseSql debug) (fun r m => Q (r.map .ok) m) m p.run.run) :
    Follows (monitor x parseSql debug) Q m (tried p).run.run := by
  change Follows (monitor x parseSql debug) Q m (p.run >>= fun a => pure (.ok a)).run
  refine follows_run_bind hp (fun r m hr => hr) fun e m hr => hr

/-- A guarded future: a dropped one is an error of its own. -/
theorem follows_guarded {future : FutureM α} {Q : AppResult α → Trail → Prop}
    (hfuture : Follows (monitor x parseSql debug)
      (fun r m => Q (match r with | .ok result => result | .error cause => .error cause.error) m)
      m future.run.run) : Follows (monitor x parseSql debug) Q m (guarded future).run := by
  change Follows (monitor x parseSql debug) Q m (future.run.run.bind _)
  rw [follows_bind]
  refine hfuture.mono fun r m hr => ?_
  cases r with
  | ok result => exact hr
  | error cause => exact hr

end

end Runs
end AgentDb
