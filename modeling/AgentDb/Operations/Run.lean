import AgentDb.Operations.Runtime
import AgentDb.Operations.Writes

/-!
# Runs of the repository

A run is a list of calls, each with its arguments, its clock readings and its fresh
identifiers, from the empty tables on. The write lock and the transaction make a call one step,
so every interleaving of callers is such a list.
-/

namespace AgentDb
namespace Operations

open Json Relation

/-- A call of a repository method that may write. -/
inductive Call
  | insertPlanned (runtimeId : Uuid) (operation : NewOperation) (createdAt : DateTime)
      (eventId : Uuid)
  | transition (operationId runtimeId : Uuid) (target : OperationState) (details : Value)
      (now : DateTime) (eventId : Uuid)
  | decideApproval (command : OperationApprovalCommand) (approvalId eventId : Uuid)
  | appendProgress (operationId runtimeId : Uuid) (details : Value) (now : DateTime)
      (eventId : Uuid)
  | claimExecution (operationId runtimeId : Uuid) (now : DateTime) (eventId : Uuid)
  | recoverPreviousRuntimes (currentRuntimeId : Uuid) (ids : ℕ → Uuid) (clock : ℕ → DateTime)

/-- The tables after a call. -/
def Call.apply (x : Crates) (t : Tables) : Call → Tables
  | .insertPlanned runtimeId operation createdAt eventId =>
      (Operations.insertPlanned x runtimeId operation createdAt eventId t).2
  | .transition operationId runtimeId target details now eventId =>
      (Operations.transition x operationId runtimeId target details now eventId t).2
  | .decideApproval command approvalId eventId =>
      (Operations.decideApproval x command approvalId eventId t).2
  | .appendProgress operationId runtimeId details now eventId =>
      (Operations.appendProgress x operationId runtimeId details now eventId t).2
  | .claimExecution operationId runtimeId now eventId =>
      (Operations.claimExecution x operationId runtimeId now eventId t).2
  | .recoverPreviousRuntimes currentRuntimeId ids clock =>
      (Operations.recoverPreviousRuntimes x currentRuntimeId ids clock t).2

/-- The record a successful `claim_execution` returns. -/
def Call.claimed? (x : Crates) (t : Tables) : Call → Option OperationRecord
  | .claimExecution operationId runtimeId now eventId =>
      (Operations.claimExecution x operationId runtimeId now eventId t).1.toOption
  | _ => none

/-- The grant the runtime's `claim` hands out when the call is the one it makes. -/
def Call.grant? (x : Crates) (t : Tables) : Call → Option ExecutionGrant
  | .claimExecution operationId runtimeId now eventId =>
      (claim x runtimeId operationId now eventId t).1.toOption.map (·.grant)
  | _ => none

/-- The details a caller passes satisfy `D`. -/
def Call.DetailsSatisfy (D : Value → Prop) : Call → Prop
  | .transition _ _ _ details _ _ | .appendProgress _ _ details _ _ => D details
  | _ => True

/-- The tables after a run of calls from `t` on. -/
def runFrom (x : Crates) (t : Tables) (calls : List Call) : Tables :=
  calls.foldl (fun t call => call.apply x t) t

/-- The tables after a run of calls from the empty tables on. -/
def run (x : Crates) (calls : List Call) : Tables := runFrom x {} calls

variable {x : Crates} {t : Tables}

theorem runFrom_append (calls more : List Call) :
    runFrom x t (calls ++ more) = runFrom x (runFrom x t calls) more := List.foldl_append

theorem run_concat (calls : List Call) (call : Call) :
    run x (calls ++ [call]) = call.apply x (run x calls) := runFrom_append calls [call]

/-- What the calls of a run hand out, in order. -/
def outputs {α : Type} (x : Crates) (f : Tables → Call → Option α) : Tables → List Call → List α
  | _, [] => []
  | t, call :: calls => (f t call).toList ++ outputs x f (call.apply x t) calls

theorem outputs_concat {α : Type} (f : Tables → Call → Option α) (calls : List Call)
    (call : Call) : outputs x f t (calls ++ [call]) =
      outputs x f t calls ++ (f (runFrom x t calls) call).toList := by
  induction calls generalizing t with
  | nil => simp [outputs, runFrom]
  | cons c calls ih => simp [outputs, ih, runFrom]

/-- Grants are issued for successful claims only. -/
theorem Call.grant?_eq (call : Call) :
    call.grant? x t = (call.claimed? x t).bind fun op => (issue op).toOption := by
  cases call with
  | claimExecution id r now eventId =>
    rw [grant?, claimed?, claim]
    rcases Operations.claimExecution x id r now eventId t with ⟨e | op, t'⟩
    · rfl
    · simp only [bind, Except.bind, Except.toOption, Option.bind]
      cases issue op <;> rfl
  | _ => rfl

variable {D : Value → Prop}

/-- **What a call can do**: a chain of writes, or a claim of its own operation. -/
theorem Call.apply_cases (hD : ∀ v, TextObject v → D v) (hids : t.UniqueIds) (call : Call)
    (hcall : call.DetailsSatisfy D) :
    (call.claimed? x t = none ∧ ReflTransGen (Write x D) t (call.apply x t)) ∨
      ∃ op, call.claimed? x t = some op ∧ op.state = .executing ∧
        Claim x D op.id t (call.apply x t) := by
  cases call with
  | insertPlanned r operation createdAt eventId =>
    refine .inl ⟨rfl, ?_⟩
    rw [apply]
    rcases insertPlanned_cases (x := x) (t := t) r operation createdAt eventId with
      ⟨res, hout, -⟩ | ⟨prepared, op, -, hfresh, hread, hout⟩
    · rw [hout]
    · rw [hout]
      exact .single (.plan hfresh hread rfl rfl rfl (hD _ (textObject_plannedDetails _)))
  | transition id r target details now eventId =>
    refine .inl ⟨rfl, ?_⟩
    rw [apply]
    rcases transition_cases (x := x) hids id r target details now eventId with
      ⟨e, hout⟩ | ⟨row, hrow, op, -, -, hne, hallowed, -, hout⟩
    · rw [hout]
    · rw [hout]
      exact .single (.move hrow hallowed hne hcall)
  | decideApproval command approvalId eventId =>
    refine .inl ⟨rfl, ?_⟩
    rw [apply]
    rcases decideApproval_cases (x := x) hids command approvalId eventId with
      ⟨e, hout⟩ | ⟨row, hrow, -, -, hstate, ⟨e, hout⟩ |
        ⟨op, a, target, hidentified, -, -, -, -, -, htarget, hout⟩⟩
    · rw [hout]
    · rw [hout]
      exact .single (.move hrow (by rw [hstate]; rfl) (by decide)
        (hD _ (textObject_reasonDetails _)))
    · rw [hout]
      refine .head (.approve hidentified) (.single (.move hrow ?_ ?_
        (hD _ (textObject_decisionDetails _ _ _))))
      · rw [hstate, htarget]
        cases command.decision <;> rfl
      · rw [htarget]
        cases command.decision <;> decide
  | appendProgress id r details now eventId =>
    refine .inl ⟨rfl, ?_⟩
    rw [apply]
    rcases appendProgress_cases (x := x) (t := t) id r details now eventId with
      ⟨e, hout⟩ | ⟨row, hrow, ev, -, -, hstate, hout⟩
    · rw [hout]
    · rw [hout]
      exact .single (.progress hrow hstate hcall)
  | claimExecution id r now eventId =>
    rw [apply]
    rcases claimExecution_cases (x := x) hids id r now eventId with
      ⟨e, hout⟩ | ⟨row, hrow, hid, -, hstate, ⟨e, hout⟩ | ⟨op, ⟨hopid, hop⟩, hclaimable, hout⟩⟩
    · refine .inl ⟨by rw [claimed?, hout]; rfl, ?_⟩
      rw [hout]
    · refine .inl ⟨by rw [claimed?, hout]; rfl, ?_⟩
      rw [hout]
      refine .single (.move hrow ?_ (by decide) (hD _ (textObject_reasonDetails _)))
      rcases hstate with hs | hs <;> rw [hs] <;> rfl
    · refine .inr ⟨op, by rw [claimed?, hout]; rfl, hop, ?_⟩
      rw [hout]
      exact .claim hrow hopid.symm hclaimable (hD _ (textObject_claimDetails _))
  | recoverPreviousRuntimes r ids clock =>
    refine .inl ⟨rfl, ?_⟩
    rw [apply]
    generalize hout : Operations.recoverPreviousRuntimes x r ids clock t = out
    rcases Tx.settle_cases hout with ⟨res, t₁, hm, rfl⟩ | ⟨e, rfl⟩
    · rw [Tx.get_bind_eq_ok] at hm
      obtain ⟨report, _, hrows, hm⟩ := Tx.bind_eq_ok.1 hm
      obtain ⟨rfl, rfl⟩ := Tx.pure_eq_ok.1 hm
      exact recoverRows_chain hD ids clock 0 _ _ _ hids hrows
    · exact .refl

/-- **The induction over runs**: what holds of the empty tables and survives every write and
every claim holds after every run. -/
theorem run_induction {P : Tables → Prop} (hD : ∀ v, TextObject v → D v) (hempty : P {})
    (hids : ∀ t, P t → t.UniqueIds) (hwrite : ∀ t t', P t → Write x D t t' → P t')
    (hclaim : ∀ t t' id, P t → Claim x D id t t' → P t') (calls : List Call)
    (hcalls : ∀ call ∈ calls, call.DetailsSatisfy D) : P (run x calls) := by
  induction calls using List.reverseRecOn with
  | nil => exact hempty
  | append_singleton calls call ih =>
    have hP := ih fun c hc => hcalls c (by simp [hc])
    rw [run_concat]
    rcases Call.apply_cases (x := x) hD (hids _ hP) call (hcalls call (by simp)) with
      ⟨-, hchain⟩ | ⟨op, -, -, hc⟩
    · have chain : ∀ t', ReflTransGen (Write x D) (run x calls) t' → P t' := by
        intro t' ht'
        induction ht' with
        | refl => exact hP
        | tail _ hw ihw => exact hwrite _ _ ihw hw
      exact chain _ hchain
    · exact hclaim _ _ _ hP hc

end Operations
end AgentDb
