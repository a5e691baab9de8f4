import AgentDb.Lib.Commits
import AgentDb.Services.ScopeGate

/-!
# The invariant of the scope gate

`Moved` and `Stepped` say once what a run and the system can do. `System.Ok` is what every step
keeps: a task that should have the gate has it, and a run that has it finds the policy as it
checked it, since nobody else can have the write side and nothing else writes what a policy is
captured from.
-/

namespace AgentDb
namespace Services
namespace ScopeGate

open Commits Connection Operations Safety Store

section

variable {x : Crates} {parseSql : Engine → String → Except String (List Statement)}

/-! ### The policy of a check -/

/-- The scope, the revisions and the binding in the pin and the settings are those of the store,
they are what the proposal captured, and they let the run write if it is to write. -/
structure PolicyHolds (x : Crates) (db : Database) (planned : OperationRecord) (c : PolicyCheck) :
    Prop where
  pin : db.pinConnectionWithAccess planned.connectionId true = .ok c.pin
  scope : ensureOperationScope planned c.pin = .ok ()
  settings : db.getSafety planned.connectionId = .ok c.settings
  revision : (capturePolicy x c.pin c.settings).revision = planned.policyRevision
  writes : c.isWrite = true →
    c.settings.allowWrites = true ∧ c.pin.profile.workspaceAccess.canWrite = true

theorem PolicyHolds.mono {db db' : Database} {planned : OperationRecord} {c : PolicyCheck}
    (h : PolicyHolds x db planned c) (hkeeps : KeepsPolicy db db') :
    PolicyHolds x db' planned c :=
  { h with
    pin := (hkeeps.pins _).trans h.pin
    settings := (hkeeps.safety _).trans h.settings }

theorem connectionId_of_ensureOperationScope {planned : OperationRecord} {pin : PinnedConnection}
    (h : ensureOperationScope planned pin = .ok ()) : pin.connectionId = planned.connectionId := by
  unfold ensureOperationScope at h
  rw [refuseIf_eq_ok] at h
  simp only [not_or, not_not] at h
  exact h.2.2.1.symm

/-- A check goes through exactly when each of its parts does. -/
theorem checkPolicy_eq_ok {planned : OperationRecord} {payload : StoredDesktopSqlPayload}
    {pin : PinnedConnection} {db : Database} {c : PolicyCheck} :
    checkPolicy x parseSql planned payload pin db = .ok c ↔
      c.pin = pin ∧ db.getSafety pin.connectionId = .ok c.settings ∧
        (capturePolicy x pin c.settings).revision = planned.policyRevision ∧
        classify parseSql payload.sql pin.profile.engine = .ok c.classification ∧
        operationKind c.classification.kind = planned.kind ∧
        (if c.classification.kind ≠ .read then pin.profile.workspaceAccess.canWrite
          else pin.profile.workspaceAccess.canRead) = true ∧
        ∀ reason, decide c.settings c.classification ≠ .block reason := by
  obtain ⟨pin', settings', classification'⟩ := c
  simp only [checkPolicy, Except.bind_eq_ok, refuseIf_eq_ok, not_not]
  constructor
  · rintro ⟨settings, hsettings, -, hrevision, classification, hclass, -, hkind, -, haccess, h⟩
    split at h
    · cases h
    · rename_i hdecide
      cases Except.pure_eq_ok.1 h
      refine ⟨rfl, hsettings, hrevision, hclass, hkind, haccess, fun reason hblock => ?_⟩
      rw [hblock] at hdecide
      cases hdecide
    · rename_i hdecide
      cases Except.pure_eq_ok.1 h
      refine ⟨rfl, hsettings, hrevision, hclass, hkind, haccess, fun reason hblock => ?_⟩
      rw [hblock] at hdecide
      cases hdecide
  · rintro ⟨rfl, hsettings, hrevision, hclass, hkind, haccess, hdecide⟩
    refine ⟨settings', hsettings, (), hrevision, classification', hclass, (), hkind, (), haccess,
      ?_⟩
    split
    · rename_i hblock
      exact absurd hblock (hdecide _)
    · rfl
    · rfl

theorem policyHolds_of_checkPolicy {planned : OperationRecord} {payload : StoredDesktopSqlPayload}
    {pin : PinnedConnection} {db : Database} {c : PolicyCheck}
    (hpin : db.pinConnectionWithAccess planned.connectionId true = .ok pin)
    (hscope : ensureOperationScope planned pin = .ok ())
    (h : checkPolicy x parseSql planned payload pin db = .ok c) : PolicyHolds x db planned c := by
  obtain ⟨rfl, hsettings, hrevision, -, -, haccess, hdecide⟩ := checkPolicy_eq_ok.1 h
  rw [connectionId_of_ensureOperationScope hscope] at hsettings
  refine ⟨hpin, hscope, hsettings, hrevision, fun hwrite => ?_⟩
  have hkind : c.classification.kind ≠ .read := of_decide_eq_true hwrite
  rw [if_pos hkind] at haccess
  exact ⟨allowWrites_of_decide hkind hdecide, haccess⟩

/-! ### What a run does -/

/-- The run has given the gate back. -/
def Stage.out : Stage → Bool
  | .refused _ | .ended => true
  | _ => false

/-- What a move does to the stage of a run. -/
inductive StageStep (x : Crates) (parseSql : Engine → String → Except String (List Statement))
    (db : Database) (r : Run) : Stage → Prop
  | pinned (pin : PinnedConnection) (h : r.stage = .entered)
      (hpin : pinProposal r.planned db = .ok pin) : StageStep x parseSql db r (.pinned pin)
  | checked (pin : PinnedConnection) (c : PolicyCheck) (h : r.stage = .pinned pin)
      (hcheck : checkPolicy x parseSql r.planned r.payload pin db = .ok c) :
      StageStep x parseSql db r (.inside c .checked)
  | blocked (pin : PinnedConnection) (h : r.stage = .pinned pin ∨ r.stage = .blocked pin) :
      StageStep x parseSql db r (.blocked pin)
  | inside (c : PolicyCheck) (p p' : Point) (h : r.stage = .inside c p) :
      StageStep x parseSql db r (.inside c p')
  | out (stage : Stage) (h : stage.out = true) : StageStep x parseSql db r stage

theorem Stage.holds_of_out {stage : Stage} (h : stage.out = true) : stage.holds = false := by
  cases stage with
  | refused c => rfl
  | ended => rfl
  | waiting => rfl
  | entered => cases h
  | pinned pin => cases h
  | blocked pin => cases h
  | inside c p => cases h

/-- A run gets the gate from nowhere but the queue. -/
theorem StageStep.holds {db : Database} {r : Run} {stage : Stage}
    (h : StageStep x parseSql db r stage) (hholds : stage.holds = true) :
    r.stage.holds = true := by
  cases h with
  | pinned pin h hpin => rw [h]; rfl
  | checked pin c h hcheck => rw [h]; rfl
  | blocked pin h =>
    rcases h with h | h
    · rw [h]; rfl
    · rw [h]; rfl
  | inside c p p' h => rw [h]; rfl
  | out _ h =>
    rw [Stage.holds_of_out h] at hholds
    cases hholds

/-- A statement is sent from `leased` on, and a run that has sent one returns after a receipt. -/
def Run.Coherent (r : Run) : Prop :=
  match r.stage with
  | .inside _ .leased | .inside _ .succeeding | .inside _ .failing => True
  | .inside _ .returning | .ended => r.sent = true → r.recorded = true ∨ r.gaveUp = true
  | _ => r.sent = false

/-- Everything a move of a run does. -/
structure Moved (x : Crates) (parseSql : Engine → String → Except String (List Statement))
    (db : Database) (r r' : Run) (db' : Database) : Prop where
  planned : r'.planned = r.planned
  keeps : KeepsPolicy db db'
  stage : StageStep x parseSql db r r'.stage
  coherent : r.Coherent → r'.Coherent

theorem keepsPolicy_recordDesktopRun (pin : PinnedConnection) (entry : HistoryEntry)
    (db : Database) : KeepsPolicy db (recordDesktopRun pin entry db) := by
  unfold recordDesktopRun
  split
  · rename_i h
    exact keepsPolicy_insertHistory h
  · exact .refl db

theorem keepsPolicy_tryClearSchemaCache (id : Uuid) (db : Database) :
    KeepsPolicy db (tryClearSchemaCache id db) := by
  unfold tryClearSchemaCache
  split
  · rename_i h
    exact keepsPolicy_clearSchemaCache h
  · exact .refl db

/-- A move that writes nothing but the stage. -/
theorem moved_at {db : Database} {r : Run} {stage : Stage}
    (hstage : StageStep x parseSql db r stage) (hcoherent : r.Coherent → (r.at stage).Coherent) :
    Moved x parseSql db r (r.at stage) db :=
  ⟨rfl, .refl db, hstage, hcoherent⟩

theorem coherent_at {r : Run} {stage : Stage} (hstage : r.stage = stage) (h : r.Coherent) :
    (r.at stage).Coherent := by
  unfold Run.Coherent at h
  rw [hstage] at h
  exact h

theorem coherent_ended {r : Run} (h : r.sent = false) : (r.at .ended).Coherent := fun hsent =>
  absurd (h.symm.trans hsent) Bool.false_ne_true

/-- A run that has not reached the target yet may leave at any time. -/
theorem moved_authorize {db : Database} {r : Run} {c : PolicyCheck} {p : Point}
    {result : AppResult Unit} {out : Run × Database} (hstage : r.stage = .inside c p)
    (hearly : r.Coherent → r.sent = false)
    (h : (match result with
      | .ok _ => some (r.at (.inside c .authorized), db)
      | .error _ => some (r.at (.refused c), db)) = some out) :
    Moved x parseSql db r out.1 out.2 := by
  split at h
  · obtain rfl := Option.some.inj h
    exact moved_at (.inside c p _ hstage) hearly
  · obtain rfl := Option.some.inj h
    exact moved_at (.out _ rfl) hearly

theorem moved_of_insideStep {move : RunMove} {db db' : Database} {r r' : Run} {c : PolicyCheck}
    {p : Point} (hstage : r.stage = .inside c p)
    (h : r.insideStep move db c p = some (r', db')) : Moved x parseSql db r r' db' := by
  have hinside : ∀ p', StageStep x parseSql db r (.inside c p') := fun p' => .inside c p p' hstage
  have hcoherent : r.Coherent → (r.at (.inside c p)).Coherent := coherent_at hstage
  unfold Run.insideStep at h
  -- one goal for each line of the definition
  split at h
  · rename_i ok
    obtain ⟨rfl, rfl⟩ := Prod.mk.inj (Option.some.inj h)
    cases ok with
    | false => exact moved_at (.out _ rfl) fun hc => coherent_ended (hcoherent hc)
    | true => exact moved_at (hinside _) hcoherent
  · obtain ⟨rfl, rfl⟩ := Prod.mk.inj (Option.some.inj h)
    exact moved_at (hinside _) fun _ => trivial
  · rename_i ok
    split at h
    · obtain ⟨rfl, rfl⟩ := Prod.mk.inj (Option.some.inj h)
      cases ok with
      | false => exact moved_at (hinside _) fun _ => trivial
      | true => exact moved_at (hinside _) hcoherent
    · cases h
  · split at h
    · cases h
    · exact moved_authorize hstage hcoherent h
  · exact moved_authorize hstage hcoherent h
  · obtain ⟨rfl, rfl⟩ := Prod.mk.inj (Option.some.inj h)
    split
    · exact moved_at (hinside _) hcoherent
    · exact moved_at (.out _ rfl) hcoherent
  · rename_i ok
    obtain ⟨rfl, rfl⟩ := Prod.mk.inj (Option.some.inj h)
    cases ok with
    | false => exact moved_at (.out _ rfl) hcoherent
    | true => exact moved_at (hinside _) fun _ => trivial
  · obtain ⟨rfl, rfl⟩ := Prod.mk.inj (Option.some.inj h)
    exact ⟨rfl, .refl db, hstage ▸ hinside .leased, fun _ => by
      unfold Run.Coherent
      rw [show ({ r with sent := true } : Run).stage = .inside c .leased from hstage]
      trivial⟩
  · rename_i ok
    obtain ⟨rfl, rfl⟩ := Prod.mk.inj (Option.some.inj h)
    cases ok with
    | false => exact moved_at (hinside _) fun _ => trivial
    | true => exact moved_at (hinside _) fun _ => trivial
  · obtain ⟨rfl, rfl⟩ := Prod.mk.inj (Option.some.inj h)
    exact ⟨rfl, .refl db, hinside _, fun _ _ => .inl rfl⟩
  · obtain ⟨rfl, rfl⟩ := Prod.mk.inj (Option.some.inj h)
    exact moved_at (hinside _) fun _ => trivial
  · obtain ⟨rfl, rfl⟩ := Prod.mk.inj (Option.some.inj h)
    exact ⟨rfl, .refl db, hinside _, fun _ _ => .inl rfl⟩
  · obtain ⟨rfl, rfl⟩ := Prod.mk.inj (Option.some.inj h)
    exact ⟨rfl, .refl db, hinside _, fun _ _ => .inr rfl⟩
  · split at h
    · obtain ⟨rfl, rfl⟩ := Prod.mk.inj (Option.some.inj h)
      exact ⟨rfl, keepsPolicy_tryClearSchemaCache _ _, hstage ▸ hinside _, id⟩
    · cases h
  · obtain ⟨rfl, rfl⟩ := Prod.mk.inj (Option.some.inj h)
    exact ⟨rfl, keepsPolicy_recordDesktopRun _ _ _, hstage ▸ hinside _, id⟩
  · obtain ⟨rfl, rfl⟩ := Prod.mk.inj (Option.some.inj h)
    exact moved_at (.out _ rfl) hcoherent
  · cases h

theorem step_pin {db : Database} {r : Run} {pin : PinnedConnection} (hstage : r.stage = .entered)
    (h : pinProposal r.planned db = .ok pin) :
    r.step x parseSql .pin db = some (r.at (.pinned pin), db) := by
  unfold Run.step
  simp only [hstage, h]

theorem step_check {db : Database} {r : Run} {pin : PinnedConnection} {c : PolicyCheck}
    (hstage : r.stage = .pinned pin)
    (h : checkPolicy x parseSql r.planned r.payload pin db = .ok c) :
    r.step x parseSql .check db = some (r.at (.inside c .checked), db) := by
  unfold Run.step
  simp only [hstage, h]

theorem step_confirmPin {db : Database} {r : Run} {c : PolicyCheck}
    (hstage : r.stage = .inside c .authorized) (h : db.isPinCurrent c.pin = true) :
    r.step x parseSql (.confirmPin true) db = some (r.at (.inside c .current), db) := by
  unfold Run.step
  simp only [hstage, Run.insideStep, h, Bool.and_true, if_true]

theorem moved_of_step {move : RunMove} {db db' : Database} {r r' : Run}
    (h : r.step x parseSql move db = some (r', db')) : Moved x parseSql db r r' db' := by
  unfold Run.step at h
  split at h
  · rename_i hstage
    have hearly : r.Coherent → r.sent = false := coherent_at hstage
    split at h
    · rename_i hpin
      obtain ⟨rfl, rfl⟩ := Prod.mk.inj (Option.some.inj h)
      exact moved_at (.pinned _ hstage hpin) hearly
    · obtain ⟨rfl, rfl⟩ := Prod.mk.inj (Option.some.inj h)
      exact moved_at (.out _ rfl) fun hc => coherent_ended (hearly hc)
  · rename_i hstage
    have hearly : r.Coherent → r.sent = false := coherent_at hstage
    split at h
    · rename_i hcheck
      obtain ⟨rfl, rfl⟩ := Prod.mk.inj (Option.some.inj h)
      exact moved_at (.checked _ _ hstage hcheck) hearly
    · obtain ⟨rfl, rfl⟩ := Prod.mk.inj (Option.some.inj h)
      exact moved_at (.blocked _ (.inl hstage)) hearly
  · rename_i hstage
    obtain ⟨rfl, rfl⟩ := Prod.mk.inj (Option.some.inj h)
    exact ⟨rfl, keepsPolicy_recordDesktopRun _ _ _,
      by rw [hstage]; exact .blocked _ (.inr hstage), id⟩
  · rename_i hstage
    obtain ⟨rfl, rfl⟩ := Prod.mk.inj (Option.some.inj h)
    exact moved_at (.out _ rfl) fun hc => coherent_ended (r := r) (coherent_at hstage hc)
  · rename_i hstage
    exact moved_of_insideStep hstage h
  · rename_i hstage
    obtain ⟨rfl, rfl⟩ := Prod.mk.inj (Option.some.inj h)
    exact ⟨rfl, keepsPolicy_recordDesktopRun _ _ _, .out _ (by rw [hstage]; rfl), id⟩
  · rename_i hstage
    obtain ⟨rfl, rfl⟩ := Prod.mk.inj (Option.some.inj h)
    refine ⟨rfl, .refl db, .out _ ?_, fun hc => ?_⟩
    · show r.stage.out = true
      rw [hstage]
      rfl
    · unfold Run.Coherent at hc ⊢
      dsimp only
      rw [hstage] at hc ⊢
      exact hc
  · rename_i hstage
    obtain ⟨rfl, rfl⟩ := Prod.mk.inj (Option.some.inj h)
    exact moved_at (.out _ rfl) fun hc => coherent_ended (r := r) (coherent_at hstage hc)
  · cases h

/-! ### What a run relies on -/

/-- The store has not moved under the run. -/
def Run.Holds (x : Crates) (db : Database) (r : Run) : Prop :=
  match r.stage with
  | .pinned pin => pinProposal r.planned db = .ok pin
  | .inside c _ => PolicyHolds x db r.planned c
  | _ => True

theorem pinProposal_mono {planned : OperationRecord} {db db' : Database}
    (hkeeps : KeepsPolicy db db') : pinProposal planned db' = pinProposal planned db := by
  unfold pinProposal
  rw [hkeeps.pins]

theorem Run.Holds.mono {db db' : Database} {r : Run} (h : r.Holds x db)
    (hkeeps : KeepsPolicy db db') : r.Holds x db' := by
  unfold Run.Holds at h ⊢
  split
  · rename_i hstage
    rw [hstage] at h
    exact (pinProposal_mono hkeeps).trans h
  · rename_i hstage
    rw [hstage] at h
    exact PolicyHolds.mono h hkeeps
  · trivial

/-- A run without the gate relies on nothing. -/
theorem holds_of_not_holds {db : Database} {r : Run} (h : r.stage.holds = false) :
    r.Holds x db := by
  unfold Run.Holds
  split
  · rename_i hstage
    rw [hstage] at h
    cases h
  · rename_i hstage
    rw [hstage] at h
    cases h
  · trivial

theorem holds_of_moved {db db' : Database} {r r' : Run} (hm : Moved x parseSql db r r' db')
    (h : r.Holds x db) : r'.Holds x db' := by
  generalize hnew : r'.stage = stage
  have hstep : StageStep x parseSql db r stage := hnew ▸ hm.stage
  unfold Run.Holds at h ⊢
  rw [hnew, hm.planned]
  cases hstep with
  | pinned pin _ hpin => exact (pinProposal_mono hm.keeps).trans hpin
  | checked pin c hstage hcheck =>
    rw [hstage] at h
    simp only [pinProposal, Except.bind_eq_ok, Except.pure_eq_ok] at h
    obtain ⟨_, hpin, _, hscope, rfl⟩ := h
    exact (policyHolds_of_checkPolicy hpin hscope hcheck).mono hm.keeps
  | blocked pin _ => trivial
  | inside c p p' hstage =>
    rw [hstage] at h
    exact PolicyHolds.mono h hm.keeps
  | out _ hout =>
    cases stage with
    | refused c => trivial
    | ended => trivial
    | waiting => trivial
    | entered => trivial
    | blocked pin => trivial
    | pinned pin => cases hout
    | inside c p => cases hout

/-! ### What the system does -/

/-- Everything a step of the system can do. -/
inductive Stepped (x : Crates) (parseSql : Engine → String → Except String (List Statement))
    (s : System) : System → Prop
  | run (t : ℕ) (r : Run) (hidle : s.task t = .idle) (hstage : r.stage = .waiting)
      (hsent : r.sent = false) :
      Stepped x parseSql s ({ s with gate := s.gate.request t .read }.setTask t (.run r))
  | mutate (t : ℕ) (m : Mutation) (hidle : s.task t = .idle) :
      Stepped x parseSql s (s.setTask t (.mutation m .prepared))
  | request (t : ℕ) (m : Mutation) (htask : s.task t = .mutation m .prepared) :
      Stepped x parseSql s
        ({ s with gate := s.gate.request t .write }.setTask t (.mutation m .waiting))
  | grantRun (t : ℕ) (r : Run) (gate : RwLock ℕ) (htask : s.task t = .run r)
      (hstage : r.stage = .waiting) (hgrant : s.gate.grant t = some gate) :
      Stepped x parseSql s ({ s with gate }.setTask t (.run (r.at .entered)))
  | grantMutation (t : ℕ) (m : Mutation) (gate : RwLock ℕ)
      (htask : s.task t = .mutation m .waiting) (hgrant : s.gate.grant t = some gate) :
      Stepped x parseSql s ({ s with gate }.setTask t (.mutation m .entered))
  | move (t : ℕ) (r r' : Run) (db : Database) (htask : s.task t = .run r)
      (hmoved : Moved x parseSql s.db r r' db) :
      Stepped x parseSql s ({ s with
        db
        gate := if r.stage.holds && !r'.stage.holds then s.gate.release t else s.gate }.setTask t
          (.run r'))
  | change (t : ℕ) (m : Mutation) (stage stage' : MutationStage) (db : Database)
      (htask : s.task t = .mutation m stage) (hholds : stage.holds = true) :
      Stepped x parseSql s ({ s with
        db
        gate := if stage'.holds then s.gate else s.gate.release t }.setTask t (.mutation m stage'))

/-- A mutation does something only while it has the gate. -/
theorem holds_of_mutationStep {m : Mutation} {move : MutationMove} {db : Database}
    {stage : MutationStage} {out : MutationStage × Database} (h : m.step move db stage = some out) :
    stage.holds = true := by
  cases stage with
  | entered => rfl
  | begun rest => rfl
  | prepared => cases h
  | waiting => cases h
  | ended => cases h

theorem stepped_of_step {label : Label} {s s' : System}
    (h : System.step x parseSql label s = .ok s') : Stepped x parseSql s s' := by
  unfold System.step at h
  split at h
  · split at h
    · rename_i hidle _
      obtain rfl := Except.ok.inj h
      exact .run _ _ hidle rfl rfl
    · cases h
  · split at h
    · rename_i hidle _
      obtain rfl := Except.ok.inj h
      exact .mutate _ _ hidle
    · cases h
  · split at h
    · rename_i htask
      obtain rfl := Except.ok.inj h
      exact .request _ _ htask
    · cases h
  · rename_i t
    split at h
    · rename_i gate task hgrant henter
      obtain rfl := Except.ok.inj h
      unfold Task.enter at henter
      split at henter
      · rename_i r htask
        split at henter
        · rename_i hstage
          obtain rfl := Option.some.inj henter
          exact .grantRun t r gate htask hstage hgrant
        · cases henter
      · rename_i m htask
        obtain rfl := Option.some.inj henter
        exact .grantMutation t m gate htask hgrant
      · cases henter
    · cases h
  · split at h
    · rename_i htask
      split at h
      · rename_i hstep
        obtain rfl := Except.ok.inj h
        exact .move _ _ _ _ htask (moved_of_step hstep)
      · cases h
    · cases h
  · split at h
    · rename_i htask
      split at h
      · rename_i hstep
        obtain rfl := Except.ok.inj h
        exact .change _ _ _ _ _ htask (holds_of_mutationStep hstep)
      · cases h
    · cases h

/-! ### The invariant -/

/-- The side of the gate a task asks for. -/
def Task.mode : Task → Option LockMode
  | .idle => none
  | .run _ => some .read
  | .mutation _ _ => some .write

/-- A task waits for its own side of the gate, has it where it should, and relies on nothing that
is not so. -/
structure Task.Ok (x : Crates) (s : System) (t : ℕ) (task : Task) : Prop where
  queued : ∀ mode, (t, mode) ∈ s.gate.queue → task.mode = some mode
  reading : ∀ r, task = .run r → r.stage.holds = true → s.gate.ReadBy t
  writing : ∀ m stage, task = .mutation m stage → stage.holds = true → s.gate.WrittenBy t
  holds : ∀ r, task = .run r → r.Holds x s.db
  coherent : ∀ r, task = .run r → r.Coherent

def System.Ok (x : Crates) (s : System) : Prop := ∀ t, Task.Ok x s t (s.task t)

/-- What another task's step leaves to a task: its place in the gate, and the policy while it
reads. -/
theorem Task.Ok.carry {s s' : System} {t : ℕ} {task : Task} (h : Task.Ok x s t task)
    (hqueue : ∀ mode, (t, mode) ∈ s'.gate.queue → (t, mode) ∈ s.gate.queue)
    (hread : s.gate.ReadBy t → s'.gate.ReadBy t)
    (hwrite : s.gate.WrittenBy t → s'.gate.WrittenBy t)
    (hkeeps : s.gate.ReadBy t → KeepsPolicy s.db s'.db) : Task.Ok x s' t task where
  queued := fun mode hmem => h.queued mode (hqueue mode hmem)
  reading := fun r hr hholds => hread (h.reading r hr hholds)
  writing := fun m stage hm hholds => hwrite (h.writing m stage hm hholds)
  holds := fun r hr => by
    cases hholds : r.stage.holds with
    | true => exact (h.holds r hr).mono (hkeeps (h.reading r hr hholds))
    | false => exact holds_of_not_holds hholds
  coherent := h.coherent

theorem Task.Ok.of_run {s : System} {t : ℕ} {r : Run}
    (hqueued : ∀ mode, (t, mode) ∈ s.gate.queue → mode = .read)
    (hreading : r.stage.holds = true → s.gate.ReadBy t) (hholds : r.Holds x s.db)
    (hcoherent : r.Coherent) : Task.Ok x s t (.run r) where
  queued := fun mode hmem => by
    rw [hqueued mode hmem]
    rfl
  reading := fun r' hr => by
    obtain rfl := Task.run.inj hr
    exact hreading
  writing := fun _ _ hm => by cases hm
  holds := fun r' hr => by
    obtain rfl := Task.run.inj hr
    exact hholds
  coherent := fun r' hr => by
    obtain rfl := Task.run.inj hr
    exact hcoherent

theorem Task.Ok.of_mutation {s : System} {t : ℕ} {m : Mutation} {stage : MutationStage}
    (hqueued : ∀ mode, (t, mode) ∈ s.gate.queue → mode = .write)
    (hwriting : stage.holds = true → s.gate.WrittenBy t) : Task.Ok x s t (.mutation m stage) where
  queued := fun mode hmem => by
    rw [hqueued mode hmem]
    rfl
  reading := fun _ hr => by cases hr
  writing := fun m' stage' hm => by
    obtain ⟨-, rfl⟩ := Task.mutation.inj hm
    exact hwriting
  holds := fun _ hr => by cases hr
  coherent := fun _ hr => by cases hr

theorem task_setTask (s : System) (t t' : ℕ) (task : Task) :
    (s.setTask t task).task t' = if t' = t then task else s.task t' :=
  Function.update_apply s.task t task t'

/-- A step of one task keeps the invariant if the task ends well and the others lose nothing. -/
theorem ok_setTask {s s' : System} {t : ℕ} {task : Task} (hok : s.Ok x)
    (htasks : s'.task = s.task) (hself : Task.Ok x s' t task)
    (hqueue : ∀ t' mode, t' ≠ t → (t', mode) ∈ s'.gate.queue → (t', mode) ∈ s.gate.queue)
    (hread : ∀ t', t' ≠ t → s.gate.ReadBy t' → s'.gate.ReadBy t')
    (hwrite : ∀ t', t' ≠ t → s.gate.WrittenBy t' → s'.gate.WrittenBy t')
    (hkeeps : ∀ t', s.gate.ReadBy t' → KeepsPolicy s.db s'.db) : (s'.setTask t task).Ok x := by
  intro t'
  rw [task_setTask]
  by_cases heq : t' = t
  · rw [if_pos heq, heq]
    exact { hself with }
  · rw [if_neg heq, htasks]
    exact (hok t').carry (fun mode => hqueue t' mode heq) (hread t' heq) (hwrite t' heq)
      (hkeeps t')

/-- A request of the task is the only new entry of the queue. -/
theorem mem_queue_of_request {l : RwLock ℕ} {t t' : ℕ} {mode mode' : LockMode} (hne : t' ≠ t)
    (h : (t', mode') ∈ (l.request t mode).queue) : (t', mode') ∈ l.queue := by
  rcases RwLock.mem_queue_request.1 h with h | h
  · exact h
  · exact absurd (Prod.mk.inj h).1 hne

theorem ok_stepped {s s' : System} (hok : s.Ok x) (h : Stepped x parseSql s s') : s'.Ok x := by
  have hkept : ∀ t', s.gate.ReadBy t' → KeepsPolicy s.db s.db := fun _ _ => .refl s.db
  cases h with
  | run t r hidle hstage hsent =>
    have hself := hok t
    rw [hidle] at hself
    refine ok_setTask hok rfl (.of_run ?_ ?_ ?_ ?_) (fun _ _ => mem_queue_of_request)
      (fun _ _ h => h) (fun _ _ h => h) hkept
    · intro mode hmem
      rcases RwLock.mem_queue_request.1 hmem with hold | hnew
      · cases hself.queued mode hold
      · exact (Prod.mk.inj hnew).2
    · intro hholds
      rw [hstage] at hholds
      cases hholds
    · exact holds_of_not_holds (by rw [hstage]; rfl)
    · unfold Run.Coherent
      rw [hstage]
      exact hsent
  | mutate t m hidle =>
    have hself := hok t
    rw [hidle] at hself
    refine ok_setTask hok rfl (.of_mutation ?_ ?_) (fun _ _ _ h => h) (fun _ _ h => h)
      (fun _ _ h => h) hkept
    · intro mode hmem
      cases hself.queued mode hmem
    · intro hholds
      cases hholds
  | request t m htask =>
    have hself := hok t
    rw [htask] at hself
    refine ok_setTask hok rfl (.of_mutation ?_ ?_) (fun _ _ => mem_queue_of_request)
      (fun _ _ h => h) (fun _ _ h => h) hkept
    · intro mode hmem
      rcases RwLock.mem_queue_request.1 hmem with hold | hnew
      · exact (Option.some.inj (hself.queued mode hold)).symm
      · exact (Prod.mk.inj hnew).2
    · intro hholds
      cases hholds
  | grantRun t r gate htask hstage hgrant =>
    have hself := hok t
    rw [htask] at hself
    rcases RwLock.grant_cases hgrant with ⟨hqueue, hreads, hothers, hfree⟩ | ⟨hqueue, -⟩
    · have hmem : ∀ e ∈ gate.queue, e ∈ s.gate.queue := fun e he => by
        rw [hqueue]
        exact List.mem_cons_of_mem _ he
      refine ok_setTask hok rfl (.of_run ?_ (fun _ => hreads) trivial ?_)
        (fun _ _ _ h => hmem _ h) (fun t' _ h => hothers t' h) (fun t' _ h => (hfree t' h).elim)
        hkept
      · intro mode h
        exact (Option.some.inj (hself.queued mode (hmem _ h))).symm
      · have hsent := coherent_at hstage (hself.coherent r rfl)
        exact hsent
    · have hmode := hself.queued .write (by rw [hqueue]; exact List.mem_cons_self)
      cases hmode
  | grantMutation t m gate htask hgrant =>
    have hself := hok t
    rw [htask] at hself
    rcases RwLock.grant_cases hgrant with ⟨hqueue, -⟩ | ⟨hqueue, hwrites, hnone, hfree⟩
    · have hmode := hself.queued .read (by rw [hqueue]; exact List.mem_cons_self)
      cases hmode
    · have hmem : ∀ e ∈ gate.queue, e ∈ s.gate.queue := fun e he => by
        rw [hqueue]
        exact List.mem_cons_of_mem _ he
      refine ok_setTask hok rfl (.of_mutation ?_ fun _ => hwrites)
        (fun _ _ _ h => hmem _ h) (fun t' _ h => (hnone t' h).elim)
        (fun t' _ h => (hfree t' h).elim) hkept
      intro mode h
      exact (Option.some.inj (hself.queued mode (hmem _ h))).symm
  | move t r r' db htask hmoved =>
    have hself := hok t
    rw [htask] at hself
    have hqueue : ∀ e, e ∈ (if r.stage.holds && !r'.stage.holds then s.gate.release t
        else s.gate).queue → e ∈ s.gate.queue := by
      intro e he
      split at he
      · rwa [RwLock.queue_release] at he
      · exact he
    refine ok_setTask hok rfl (.of_run ?_ ?_ ?_ ?_) (fun _ _ _ h => hqueue _ h) ?_ ?_
      fun _ _ => hmoved.keeps
    · intro mode h
      exact (Option.some.inj (hself.queued mode (hqueue _ h))).symm
    · intro hholds
      have hbefore := hmoved.stage.holds hholds
      dsimp only
      rw [hbefore, hholds, if_neg (by decide)]
      exact hself.reading r rfl hbefore
    · exact holds_of_moved hmoved (hself.holds r rfl)
    · exact hmoved.coherent (hself.coherent r rfl)
    · intro t' hne h
      dsimp only
      split
      · exact h.release_of_ne hne
      · exact h
    · intro t' hne h
      dsimp only
      split
      · exact h.release_of_ne hne
      · exact h
  | change t m stage stage' db htask hholds =>
    have hself := hok t
    rw [htask] at hself
    have hwrites := hself.writing m stage rfl hholds
    have hqueue : ∀ e, e ∈ (if stage'.holds then s.gate else s.gate.release t).queue →
        e ∈ s.gate.queue := by
      intro e he
      split at he
      · exact he
      · rwa [RwLock.queue_release] at he
    refine ok_setTask hok rfl (.of_mutation ?_ ?_) (fun _ _ _ h => hqueue _ h)
      (fun t' _ h => (h.not_writtenBy hwrites).elim) ?_ fun t' h => (h.not_writtenBy hwrites).elim
    · intro mode h
      exact (Option.some.inj (hself.queued mode (hqueue _ h))).symm
    · intro hholds'
      dsimp only
      rw [if_pos hholds']
      exact hwrites
    · intro t' hne h
      exact (hne (h.unique hwrites)).elim

theorem ok_run (labels : List Label) {s : System} (hok : s.Ok x) :
    (run (System.step x parseSql) labels s).Ok x :=
  run_invariant (fun _ _ _ _ hok h => ok_stepped hok (stepped_of_step h))
    (along_true labels s) hok

end

end ScopeGate
end Services
end AgentDb
