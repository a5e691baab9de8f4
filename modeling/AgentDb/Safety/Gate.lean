import AgentDb.Model

/-!
# The human approval gate: `safety/l4_gate.rs`

Pure policy on a classified statement. It never touches a database.
-/

namespace AgentDb
namespace Safety

/-- `GateDecision`. -/
inductive GateDecision
  | autoRun
  | requireApproval
  | block (reason : String)
  deriving DecidableEq, Repr

/-- `kind_label`. -/
def kindLabel : QueryKind → String
  | .read => "reading"
  | .write => "writing"
  | .ddl => "schema change (DDL)"
  | .privilege => "privilege change"

/-- `decide`. -/
def decide (settings : SafetySettings) (c : Classification) : GateDecision :=
  if 1 < c.statementCount then
    .block "multiple statements are not allowed — submit one statement at a time"
  else
    match c.kind with
    | .read => if settings.autoRunReads then .autoRun else .requireApproval
    | .privilege => .block ("arbitrary privilege SQL is blocked; use a supported, " ++
        "narrowly scoped administrative action")
    | .write | .ddl =>
        if settings.allowWrites then .requireApproval
        else .block (kindLabel c.kind ++ " is disabled for this connection (writes are off by " ++
          "default). Enable writes in the connection's safety settings to propose it.")

/-- Whatever is not a read passes the gate only with writes enabled. -/
theorem allowWrites_of_decide {settings : SafetySettings} {c : Classification}
    (hkind : c.kind ≠ .read) (h : ∀ reason, decide settings c ≠ .block reason) :
    settings.allowWrites = true := by
  unfold decide at h
  split at h
  · exact absurd rfl (h _)
  by_contra hwrites
  cases hc : c.kind with
  | read => exact hkind hc
  | privilege =>
    rw [hc] at h
    exact h _ rfl
  | write =>
    simp only [hc, if_neg hwrites] at h
    exact h _ rfl
  | ddl =>
    simp only [hc, if_neg hwrites] at h
    exact h _ rfl

end Safety
end AgentDb
