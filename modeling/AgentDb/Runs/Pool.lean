import AgentDb.Lib.Ownership
import AgentDb.Runs.DesktopSqlTrail
import AgentDb.Runs.Ledger
import AgentDb.Runs.ScriptTrail
import AgentDb.Runs.SingleTrail

/-!
# The application as a pool of runs

Any number of runs of the entry points over one `World`, in any order, beside what goes on without
them. `Effect` is all that an answer does to the shared state and to the trail of the run that is
answered, whichever call it answers; the invariants are proved from it.
-/

namespace AgentDb
namespace Runs

open Connection Executor Json Operations Program Relation Safety Services Store

/-! ### The pool -/

section

variable (x : Crates) (parseSql : Engine → String → Except String (List Statement))
  (debug : String → String) (runtimeId : Uuid) (sha256 : List UInt8 → Vector UInt8 32)
  (accepts : Tables → Uuid → Uuid → Prop) (fails : Prop)

/-- How the calls of the runs are answered, and what goes on beside them. -/
def semantics : Semantics Call Call.Answer World where
  calls _ s c answer s' := s.answers x runtimeId sha256 accepts fails c answer s'
  environment := World.Environment x

/-- A run of an entry point: its result goes to the window that asked for it. -/
def spawn {α : Type} (run : RunM α) : Run Unit := run.run.bind fun _ => .done ()

/-- The runs the application starts, each with the operation it is for. -/
inductive Starts : Entry → Uuid → Run Unit → Prop
  | sql (operationId : Uuid) : Starts .sql operationId (spawn (runDesktopSql x parseSql operationId))
  | script (operationId : Uuid) :
      Starts .script operationId (spawn (Script.runDesktop x parseSql operationId))
  | document (operationId : Uuid) :
      Starts .document operationId (spawn (Document.runDesktopRead x debug operationId))
  | role (operationId : Uuid) :
      Starts .role operationId (spawn (Monitoring.runPostgresRole x operationId))
  | catalog (connectionId : Uuid) (mode : CatalogReadMode) (operationId : Uuid) :
      Starts .load operationId (spawn (loadCatalog connectionId mode))
  | snapshot (connectionId : Uuid) (mode : CatalogReadMode) (operationId : Uuid) :
      Starts .load operationId (spawn (loadCatalogSnapshot connectionId mode))

/-- The pools that are reached from one that runs nothing. -/
def Reached (s : World) (pool : Pool Call Call.Answer Unit World) : Prop :=
  Reaches (semantics x runtimeId sha256 accepts fails)
    (fun run => ∃ entry id, Starts x parseSql debug entry id run) ⟨s, []⟩ pool

/-- The trail of a run that starts. -/
def Begins (m : Trail) (run : Run Unit) : Prop :=
  ∃ entry id, m = { entry, operationId := id } ∧ Starts x parseSql debug entry id run

/-- When a run returns, it holds no handle, and one of the first and the third kind has reported
if it claimed. -/
def Returned (_ : Unit) (m : Trail) : Prop :=
  m.handles = 0 ∧ (m.entry = .sql ∨ m.entry = .document → m.claimed = true → m.finishes ≠ [])

variable {x parseSql debug}

theorem entry_next (m : Trail) (c : Call) (answer : c.Answer) :
    (m.next c answer).entry = m.entry := by
  unfold Trail.next
  split <;> first | rfl | (split <;> rfl)

theorem follows_spawn {α : Type} {run : RunM α} {Q : AppResult α → Trail → Prop} {m : Trail}
    (h : Follows (monitor x parseSql debug) Q m run.run)
    (hQ : ∀ r m', Q r m' → m'.entry = m.entry → Returned () m') :
    Follows (monitor x parseSql debug) Returned m (spawn run) := by
  refine follows_bind.2 ((h.fixed (f := Trail.entry) entry_next).mono fun r m' hm => ?_)
  exact hQ r m' hm.1 hm.2

/-- **Every run of the application follows its trail.** -/
theorem follows_starts {m : Trail} {run : Run Unit} (h : Begins x parseSql debug m run) :
    Follows (monitor x parseSql debug) Returned m run := by
  obtain ⟨entry, id, rfl, hstarts⟩ := h
  cases hstarts with
  | sql => exact follows_spawn (follows_runDesktopSql id) fun _ _ hm _ => ⟨hm.1, fun _ => hm.2⟩
  | script =>
    refine follows_spawn (Script.follows_runDesktop id) fun _ _ hm hentry => ⟨hm, fun h => ?_⟩
    rcases h with h | h <;> cases hentry.symm.trans h
  | document =>
    exact follows_spawn (Document.follows_runDesktopRead id) fun _ _ hm _ => ⟨hm.1, fun _ => hm.2⟩
  | role =>
    refine follows_spawn (Monitoring.follows_runPostgresRole id) fun _ _ hm hentry => ⟨hm, fun h => ?_⟩
    rcases h with h | h <;> cases hentry.symm.trans h
  | catalog connectionId mode =>
    refine follows_spawn (quiet_loadCatalog connectionId mode _) fun _ _ hm _ => ?_
    rw [hm]
    exact ⟨rfl, fun _ h => by cases h⟩
  | snapshot connectionId mode =>
    refine follows_spawn (quiet_loadCatalogSnapshot connectionId mode _) fun _ _ hm _ => ?_
    rw [hm]
    exact ⟨rfl, fun _ h => by cases h⟩

variable {runtimeId sha256 accepts fails}

theorem answerable_of_answers {s s' : World} {c : Call} {answer : c.Answer}
    (h : s.answers x runtimeId sha256 accepts fails c answer s') : Answerable c answer := by
  cases c with
  | receive handle message =>
    rcases h with ⟨-, rfl, -⟩ | ⟨rfl, -⟩ | ⟨error, herror, rfl, -⟩ | ⟨reply, hreply, rfl, -⟩
    · trivial
    · trivial
    · exact herror
    · exact hreply
  | _ => trivial

end

end Runs
end AgentDb
