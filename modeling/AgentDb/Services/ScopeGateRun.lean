import AgentDb.Operations.Sample
import AgentDb.Services.ScopeGateInvariant

/-!
# What a run finds at the target is what was proposed

From its policy check until it has recorded its terminal state, a run that sends a statement finds
the scope, the connection and the settings that its proposal captured. A run that cannot record
anything returns and gives the gate back all the same.
-/

namespace AgentDb
namespace Services
namespace ScopeGate

open Commits Operations Safety Store

section

variable {x : Crates} {parseSql : Engine → String → Except String (List Statement)}

/-! ### From the check to the receipt -/

/-- The run of the task is past its check and has not returned. -/
def Within (t : ℕ) (planned : OperationRecord) (c : PolicyCheck) (s : System) : Prop :=
  ∃ r p, s.task t = .run r ∧ r.planned = planned ∧ r.stage = .inside c p

/-- The run of the task has given the gate back. -/
def Out (t : ℕ) (s : System) : Prop := ∃ r, s.task t = .run r ∧ r.stage.out = true

/-- A run goes on by moves of its own, once it has the gate. -/
theorem task_stepped {s s' : System} {t : ℕ} {r : Run} (htask : s.task t = .run r)
    (hstage : r.stage ≠ .waiting) (h : Stepped x parseSql s s') :
    s'.task t = .run r ∨ ∃ r' db, s'.task t = .run r' ∧ Moved x parseSql s.db r r' db := by
  have hother : ∀ {u : ℕ} {s₁ : System} {task : Task}, u ≠ t → s₁.task = s.task →
      (s₁.setTask u task).task t = .run r := by
    intro u s₁ task hne heq
    rw [task_setTask, if_neg (Ne.symm hne), heq, htask]
  cases h with
  | run u r' hidle _ _ =>
    refine .inl (hother (fun hu => ?_) rfl)
    rw [hu, htask] at hidle
    cases hidle
  | mutate u m hidle =>
    refine .inl (hother (fun hu => ?_) rfl)
    rw [hu, htask] at hidle
    cases hidle
  | request u m hm =>
    refine .inl (hother (fun hu => ?_) rfl)
    rw [hu, htask] at hm
    cases hm
  | grantRun u r' gate hr hwaiting _ =>
    refine .inl (hother (fun hu => ?_) rfl)
    rw [hu, htask] at hr
    obtain rfl := Task.run.inj hr
    exact hstage hwaiting
  | grantMutation u m gate hm _ =>
    refine .inl (hother (fun hu => ?_) rfl)
    rw [hu, htask] at hm
    cases hm
  | move u r₁ r' db hr hmoved =>
    by_cases hu : u = t
    · rw [hu, htask] at hr
      obtain rfl := Task.run.inj hr
      refine .inr ⟨r', db, ?_, hmoved⟩
      rw [task_setTask, if_pos hu.symm]
    · exact .inl (hother hu rfl)
  | change u m stage stage' db hm _ =>
    refine .inl (hother (fun hu => ?_) rfl)
    rw [hu, htask] at hm
    cases hm

theorem within_stepped {s s' : System} {t : ℕ} {planned : OperationRecord} {c : PolicyCheck}
    (h : Within t planned c s) (hstep : Stepped x parseSql s s') :
    Within t planned c s' ∨ Out t s' := by
  obtain ⟨r, p, htask, hplanned, hstage⟩ := h
  rcases task_stepped htask (by rw [hstage]; exact Stage.noConfusion) hstep with
    hsame | ⟨r', db, htask', hmoved⟩
  · exact .inl ⟨r, p, hsame, hplanned, hstage⟩
  · generalize hnew : r'.stage = stage
    have hmove : StageStep x parseSql s.db r stage := hnew ▸ hmoved.stage
    cases hmove with
    | pinned pin h _ => rw [hstage] at h; cases h
    | checked pin c' h _ => rw [hstage] at h; cases h
    | blocked pin h => rw [hstage] at h; rcases h with h | h <;> cases h
    | inside c' p₁ p' h =>
      rw [hstage] at h
      obtain ⟨rfl, -⟩ := Stage.inside.inj h
      exact .inl ⟨r', p', htask', hmoved.planned.trans hplanned, hnew⟩
    | out _ h => exact .inr ⟨r', htask', by rw [hnew]; exact h⟩

theorem out_stepped {s s' : System} {t : ℕ} (h : Out t s) (hstep : Stepped x parseSql s s') :
    Out t s' := by
  obtain ⟨r, htask, hout⟩ := h
  have hholds := Stage.holds_of_out hout
  rcases task_stepped htask (fun h => by rw [h] at hout; cases hout) hstep with
    hsame | ⟨r', db, htask', hmoved⟩
  · exact ⟨r, hsame, hout⟩
  · refine ⟨r', htask', ?_⟩
    generalize hnew : r'.stage = stage
    have hmove : StageStep x parseSql s.db r stage := hnew ▸ hmoved.stage
    cases hmove with
    | pinned pin h _ => rw [h] at hout; cases hout
    | checked pin c' h _ => rw [h] at hout; cases hout
    | blocked pin h => rcases h with h | h <;> (rw [h] at hout; cases hout)
    | inside c' p₁ p' h => rw [h] at hout; cases hout
    | out _ h => exact h

/-- A run that has sent a statement and is out has tried to record what became of it. -/
theorem receipt_of_out {r : Run} (hcoherent : r.Coherent) (hout : r.stage.out = true)
    (hsent : r.sent = true) : r.recorded = true ∨ r.gaveUp = true := by
  unfold Run.Coherent at hcoherent
  cases hstage : r.stage with
  | ended =>
    rw [hstage] at hcoherent
    exact hcoherent hsent
  | refused c =>
    rw [hstage] at hcoherent
    exact absurd (hcoherent.symm.trans hsent) Bool.false_ne_true
  | waiting => rw [hstage] at hout; cases hout
  | entered => rw [hstage] at hout; cases hout
  | pinned pin => rw [hstage] at hout; cases hout
  | blocked pin => rw [hstage] at hout; cases hout
  | inside c p => rw [hstage] at hout; cases hout

/-- The system before any task. -/
def System.start (db : Database) : System := ⟨db, RwLock.free, fun _ => .idle⟩

theorem ok_start (db : Database) : (System.start db).Ok x := fun t =>
  { queued := fun _ h => by cases h
    reading := fun _ h => by cases h
    writing := fun _ _ h => by cases h
    holds := fun _ h => by cases h
    coherent := fun _ h => by cases h }

/-- **What was proposed is what holds at the target**, from the policy check of a run that sends a
statement until its terminal state is recorded or the last attempt to record it has failed. -/
theorem policyHolds_until_receipt {db : Database} {before during more : List Label} {t : ℕ}
    {r r' : Run} {c : PolicyCheck}
    (htask : (run (System.step x parseSql) before (.start db)).task t = .run r)
    (hcheck : r.stage = .inside c .checked)
    (htask' : (run (System.step x parseSql) (before ++ (during ++ more)) (.start db)).task t =
      .run r')
    (hsent : r'.sent = true) (hrecorded : r'.recorded = false) (hgaveUp : r'.gaveUp = false) :
    PolicyHolds x (run (System.step x parseSql) (before ++ during) (.start db)).db r.planned c := by
  have hwithin : Within t r.planned c (run (System.step x parseSql) before (.start db)) :=
    ⟨r, _, htask, rfl, hcheck⟩
  have hend : ¬ Out t (run (System.step x parseSql) (during ++ more)
      (run (System.step x parseSql) before (.start db))) := by
    rw [← run_append]
    rintro ⟨r₁, hr₁, hout⟩
    obtain rfl := Task.run.inj (htask'.symm.trans hr₁)
    have hok : (run (System.step x parseSql) (before ++ (during ++ more)) (.start db)).Ok x :=
      ok_run _ (ok_start db)
    rcases receipt_of_out ((hok t).coherent r' htask') hout hsent with h | h
    · rw [hrecorded] at h
      cases h
    · rw [hgaveUp] at h
      cases h
  have hmiddle := stays_of_not_dead
    (fun _ _ _ _ h hok => within_stepped h (stepped_of_step hok))
    (fun _ _ _ _ h hok => out_stepped h (stepped_of_step hok)) (along_true _ _) hwithin hend
  rw [← run_append] at hmiddle
  obtain ⟨r₂, p, htask₂, hplanned, hstage⟩ := hmiddle
  have hok : (run (System.step x parseSql) (before ++ during) (.start db)).Ok x :=
    ok_run _ (ok_start db)
  have hholds := (hok t).holds r₂ htask₂
  unfold Run.Holds at hholds
  rw [hstage, hplanned] at hholds
  exact hholds

end

/-! ### A sample run -/

def paymentsProfile : ConnectionProfile where
  id := .ofByte 3
  name := "payments"
  engine := .postgres
  provider := .generic
  driverId := none
  host := "db.example.com"
  port := 5432
  database := "payments"
  username := "app"
  sslmode := "verify-full"
  extraParams := "\x7b\x7d"
  readonlyDefault := true
  allowWrites := true
  secretRef := none
  env := none
  schemaGroup := none
  workspaceAccess := .local_
  credentialMode := .local_

def writesAllowed : SafetySettings := { (default : SafetySettings) with allowWrites := true }

/-- A store with one local connection that may be written to. -/
def paymentsStore : Database :=
  let row : Store.Connection :=
    ⟨paymentsProfile, personalWorkspaceId, none, false, 1, "dirty", none, .ofDay 0, .ofDay 0⟩
  { freshStore (.ofDay 0) with
    connections := Table.empty.put (.ofByte 3) row
    safety := Table.empty.put (.ofByte 3) writesAllowed }

def paymentsPin : PinnedConnection :=
  ⟨⟨personalWorkspaceId, .personal, none, .personal, 0⟩, .ofByte 3, 1, 0, "", paymentsProfile,
    false, .persistent⟩

/-- The statement of the sample, as the parser returns it. -/
def parseUpdate : Engine → String → Except String (List Statement) := fun _ _ =>
  .ok [.update (.mk (.table "items") []) (some "id = 1")]

def updatePayload : StoredDesktopSqlPayload :=
  ⟨"UPDATE items SET active = false WHERE id = 1", "manual"⟩

def updateCheck : PolicyCheck :=
  ⟨paymentsPin, writesAllowed,
    classifySingle (.update (.mk (.table "items") []) (some "id = 1"))⟩

/-- The proposal of the sample, with the policy as it is captured from the store. -/
def updateProposal : OperationRecord where
  id := .ofByte 1
  runtimeId := .ofByte 5
  workspaceId := personalWorkspaceId
  accountScope := "personal"
  connectionId := .ofByte 3
  connectionRevision := 1
  terminalSessionId := none
  actor := ⟨.localUser, "local-user", sampleProvenance⟩
  kind := .writeSql
  payloadSchemaVersion := 1
  payload := .object [("sql", .string updatePayload.sql), ("historyOrigin", .string "manual")]
  payloadHash := ""
  schemaFingerprint := none
  riskLevel := .medium
  preview := .null
  policySnapshot := (capturePolicy crates paymentsPin writesAllowed).snapshot
  policyRevision := (capturePolicy crates paymentsPin writesAllowed).revision
  state := .approved
  singleUse := true
  idempotencyKey := ""
  expiresAt := none
  startedAt := none
  finishedAt := none
  createdAt := .ofDay 0
  updatedAt := .ofDay 0

/-- The sample run as it gets the gate. -/
def updateRun : Run := ⟨updateProposal, updatePayload, .entered, false, false, false⟩

theorem checkPolicy_update :
    checkPolicy crates parseUpdate updateProposal updatePayload paymentsPin paymentsStore =
      .ok updateCheck :=
  -- the captured revision is compared with itself, so no digest is computed
  checkPolicy_eq_ok.2 ⟨rfl, by decide +kernel, rfl, rfl, rfl, rfl, fun _ => nofun⟩

/-- The system with the sample run alone, which has the gate. -/
def updateSystem (r : Run) : System :=
  (⟨paymentsStore, ⟨.readers [0], []⟩, fun _ => .idle⟩ : System).setTask 0 (.run r)

theorem setTask_setTask (s : System) (t : ℕ) (a b : Task) :
    (s.setTask t a).setTask t b = s.setTask t b := by
  unfold System.setTask
  simp

/-- A move of the sample run that keeps the gate and the store. -/
theorem settle_update {move : RunMove} {r : Run} (r' : Run) (hholds : r'.stage.holds = true)
    (h : r.step crates parseUpdate move paymentsStore = some (r', paymentsStore)) :
    Commits.settle (System.step crates parseUpdate) (updateSystem r) (.move 0 move) =
      updateSystem r' := by
  refine settle_of_ok ?_
  have htask : (updateSystem r).task 0 = .run r := rfl
  have hdb : (updateSystem r).db = paymentsStore := rfl
  have hstays : (r.stage.holds && !r'.stage.holds) = false := by
    rw [hholds, Bool.not_true, Bool.and_false]
  simp only [System.step, htask, hdb, h, hstays, Bool.false_eq_true, if_false]
  exact congrArg Except.ok
    (setTask_setTask ⟨paymentsStore, ⟨.readers [0], []⟩, fun _ => .idle⟩ 0 (.run r) (.run r'))

/-- The run asks for the gate, gets it, pins its connection and checks its policy. -/
def updateBefore : List Label := [.run 0 updateProposal, .grant 0, .move 0 .pin, .move 0 .check]

/-- It claims the operation, writes its audit record, connects and sends the statement. -/
def updateDuring : List Label :=
  [.move 0 (.claim true), .move 0 (.audit true), .move 0 (.authorize (.error (.config ""))),
    .move 0 (.confirmPin true), .move 0 (.connect true), .move 0 .send]

theorem run_updateBefore :
    run (System.step crates parseUpdate) updateBefore (.start paymentsStore) =
      updateSystem (updateRun.at (.inside updateCheck .checked)) := by
  have hentered : run (System.step crates parseUpdate) [.run 0 updateProposal, .grant 0]
      (.start paymentsStore) = updateSystem updateRun := by
    have hload : loadProposal updateProposal = .ok updatePayload := by decide +kernel
    have hasked : System.step crates parseUpdate (.run 0 updateProposal) (.start paymentsStore) =
        .ok ((⟨paymentsStore, ⟨.readers [], [(0, .read)]⟩, fun _ => .idle⟩ : System).setTask 0
          (.run (updateRun.at .waiting))) := by
      simp only [System.step, System.start, hload]
      rfl
    have hgranted : System.step crates parseUpdate (.grant 0)
        ((⟨paymentsStore, ⟨.readers [], [(0, .read)]⟩, fun _ => .idle⟩ : System).setTask 0
          (.run (updateRun.at .waiting))) = .ok (updateSystem updateRun) :=
      congrArg Except.ok (setTask_setTask ⟨paymentsStore, ⟨.readers [0], []⟩, fun _ => .idle⟩ 0
        (.run (updateRun.at .waiting)) (.run updateRun))
    rw [run_cons, settle_of_ok hasked, run_cons, settle_of_ok hgranted, run_nil]
  have hpin : updateRun.step crates parseUpdate .pin paymentsStore =
      some (updateRun.at (.pinned paymentsPin), paymentsStore) :=
    step_pin rfl (by decide +kernel)
  have hcheck : (updateRun.at (.pinned paymentsPin)).step crates parseUpdate .check
      paymentsStore = some (updateRun.at (.inside updateCheck .checked), paymentsStore) :=
    step_check rfl checkPolicy_update
  rw [show updateBefore = [.run 0 updateProposal, .grant 0] ++ [.move 0 .pin, .move 0 .check] from
    rfl, run_append, hentered, run_cons, settle_update _ rfl hpin, run_cons,
    settle_update _ rfl hcheck, run_nil]

/-- The sample run when it has sent its statement. -/
def updateSent : Run := { updateRun.at (.inside updateCheck .leased) with sent := true }

theorem run_updateDuring : run (System.step crates parseUpdate) updateDuring
    (updateSystem (updateRun.at (.inside updateCheck .checked))) = updateSystem updateSent := by
  have hconfirm : (updateRun.at (.inside updateCheck .authorized)).step crates
      parseUpdate (.confirmPin true) paymentsStore =
        some (updateRun.at (.inside updateCheck .current), paymentsStore) := by
    have hcurrent : paymentsStore.isPinCurrent updateCheck.pin = true := by decide +kernel
    exact step_confirmPin rfl hcurrent
  unfold updateDuring
  rw [run_cons, settle_update (updateRun.at (.inside updateCheck .claimed)) rfl rfl,
    run_cons, settle_update (updateRun.at (.inside updateCheck .audited)) rfl rfl,
    run_cons, settle_update (updateRun.at (.inside updateCheck .authorized)) rfl rfl,
    run_cons, settle_update _ rfl hconfirm,
    run_cons, settle_update (updateRun.at (.inside updateCheck .leased)) rfl rfl,
    run_cons, settle_update updateSent rfl rfl, run_nil]

/-- The statement succeeds, and its success cannot be recorded. -/
def updateMore : List Label := [.move 0 (.answer true), .move 0 (.receipt false)]

theorem policyHolds_until_receipt_updateProposal :
    PolicyHolds crates (run (System.step crates parseUpdate) (updateBefore ++ updateDuring)
      (.start paymentsStore)).db updateProposal updateCheck := by
  have hbefore : (run (System.step crates parseUpdate) updateBefore (.start paymentsStore)).task 0 =
      .run (updateRun.at (.inside updateCheck .checked)) := by
    rw [run_updateBefore]
    rfl
  have hend : (run (System.step crates parseUpdate)
      (updateBefore ++ (updateDuring ++ updateMore)) (.start paymentsStore)).task 0 =
        .run (updateSent.at (.inside updateCheck .failing)) := by
    rw [run_append, run_append, run_updateBefore, run_updateDuring]
    unfold updateMore
    rw [run_cons, settle_update (updateSent.at (.inside updateCheck .succeeding)) rfl rfl,
      run_cons, settle_update (updateSent.at (.inside updateCheck .failing)) rfl rfl, run_nil]
    rfl
  exact policyHolds_until_receipt hbefore rfl hend rfl rfl rfl

/-- No receipt can be written, the run returns, and only then the writes are disabled. -/
def updateLost : List Label :=
  [.move 0 (.answer true), .move 0 (.receipt false), .move 0 (.receipt false), .move 0 .return_,
    .mutate 1 (.safetyUpdate (.ofByte 3) default), .request 1, .grant 1,
    .change 1 (.begin_ (.error (.config ""))), .change 1 .commit]

/-- The run has sent a statement and has recorded no terminal state. -/
def Task.unrecorded : Task → Bool
  | .run r => r.sent && !r.recorded
  | _ => false

theorem unrecorded_updateLost : ((run (System.step crates parseUpdate) updateLost
    (updateSystem updateSent)).task 0).unrecorded = true := by decide +kernel

theorem safety_updateLost : (run (System.step crates parseUpdate) updateLost
    (updateSystem updateSent)).db.getSafety (.ofByte 3) = .ok default := by decide +kernel

/-- **A run that has given up recording** leaves its operation open and the gate free: the settings
of its policy change before any terminal state is recorded. -/
theorem not_policyHolds_until_recorded :
    ¬ ∀ (x : Crates) (parseSql : Engine → String → Except String (List Statement)) (db : Database)
      (before during more : List Label) (t : ℕ) (r r' : Run) (c : PolicyCheck),
      (run (System.step x parseSql) before (.start db)).task t = .run r →
      r.stage = .inside c .checked →
      (run (System.step x parseSql) (before ++ (during ++ more)) (.start db)).task t = .run r' →
      r'.sent = true → r'.recorded = false →
      PolicyHolds x (run (System.step x parseSql) (before ++ during) (.start db)).db r.planned
        c := by
  intro h
  have hbefore : (run (System.step crates parseUpdate) updateBefore (.start paymentsStore)).task 0 =
      .run (updateRun.at (.inside updateCheck .checked)) := by
    rw [run_updateBefore]
    rfl
  have hend : run (System.step crates parseUpdate) (updateBefore ++ (updateDuring ++ updateLost))
      (.start paymentsStore) = run (System.step crates parseUpdate) updateLost
        (updateSystem updateSent) := by
    rw [run_append, run_append, run_updateBefore, run_updateDuring]
  have hunrecorded := unrecorded_updateLost
  cases htask : (run (System.step crates parseUpdate) updateLost
    (updateSystem updateSent)).task 0 with
  | idle =>
    rw [htask] at hunrecorded
    cases hunrecorded
  | mutation m stage =>
    rw [htask] at hunrecorded
    cases hunrecorded
  | run r' =>
    rw [htask] at hunrecorded
    simp only [Task.unrecorded, Bool.and_eq_true, Bool.not_eq_true'] at hunrecorded
    have hholds := h crates parseUpdate paymentsStore updateBefore (updateDuring ++ updateLost) [] 0
      _ r' updateCheck hbefore rfl (by rw [List.append_nil, hend, htask]) hunrecorded.1
      hunrecorded.2
    have hsettings := hholds.settings
    rw [hend] at hsettings
    exact absurd (safety_updateLost.symm.trans hsettings) (by decide +kernel)

end ScopeGate
end Services
end AgentDb
