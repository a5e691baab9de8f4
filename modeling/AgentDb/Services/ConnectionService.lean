import AgentDb.Connection.Pinning
import AgentDb.Protocol.Commands

/-!
# Connections as a Terminal sees them: `services/connection_service.rs`

A Terminal session captures one connection. Its own summary and its test need that connection
only; resolving a name goes through the summaries of all connections of the workspace.
-/

namespace AgentDb
namespace Services

open Connection Protocol Store

/-- `TerminalAuthority` of `terminal_authority.rs`. -/
structure TerminalAuthority where
  terminalSessionId : Uuid
  workspaceId : Uuid
  accountScope : String
  connectionId : Uuid
  connectionRevision : ℤ
  clientProtocolVersion : UInt16

/-- `ensure_pin`. -/
def TerminalAuthority.ensurePin (authority : TerminalAuthority) (pin : PinnedConnection) :
    AppResult Unit :=
  refuseIf (¬ (pin.scope.workspaceId = authority.workspaceId ∧
      pin.scope.accountScope.storageKey = authority.accountScope ∧
      pin.connectionId = authority.connectionId ∧
      pin.connectionRevision = authority.connectionRevision))
    (.blocked "Terminal connection authority is no longer current")

/-- `AgentConnectionSummary`. -/
structure AgentConnectionSummary where
  id : Uuid
  name : String
  engine : Engine
  database : String
  environment : Option String
  readonly : Bool
  allowWrites : Bool
  deriving DecidableEq

/-- `AgentConnectionSummary::from` a profile. -/
def AgentConnectionSummary.ofProfile (profile : ConnectionProfile) : AgentConnectionSummary where
  id := profile.id
  name := profile.name
  engine := profile.engine
  database := profile.database
  environment := profile.env
  readonly := profile.readonlyDefault
  allowWrites := profile.allowWrites

/-- `CliConnectionResolutionError`. -/
inductive CliConnectionResolutionError
  | noMatch
  | ambiguous (candidates : List AgentConnectionSummary)

variable (db : Database)

/-- The pin every call of a Terminal starts with, checked against its authority. -/
def pinTerminal (authority : TerminalAuthority) (answer : AppResult ℤ) :
    AppResult PinnedConnection := do
  let pin ← pin db authority.connectionId .read answer
  authority.ensurePin pin
  pure pin

/-- `terminal_summary`. -/
def terminalSummary (authority : TerminalAuthority) (answer : AppResult ℤ) :
    AppResult AgentConnectionSummary := do
  let pin ← pinTerminal db authority answer
  pure (.ofProfile pin.profile)

/-- `list_terminal_summaries`. -/
def listTerminalSummaries (authority : TerminalAuthority) (answer : AppResult ℤ) :
    AppResult (List AgentConnectionSummary) := do
  let pin ← pinTerminal db authority answer
  pure [.ofProfile pin.profile]

/-- `test_terminal`. -/
def testTerminal (authority : TerminalAuthority) (answer : AppResult ℤ) (test : TestAnswers) :
    AppResult Unit := do
  let pin ← pinTerminal db authority answer
  testFresh db pin .read test

/-- `list_agent_summaries`. -/
def listAgentSummaries : AppResult (List AgentConnectionSummary) := do
  let profiles ← db.listConnections
  pure (profiles.map .ofProfile)

/-- `resolve_cli_summaries`. -/
def resolveCliSummaries (summaries : List AgentConnectionSummary) (selector : ConnectionSelector)
    (currentConnectionId : Uuid) : Except CliConnectionResolutionError AgentConnectionSummary :=
  let found := fun id : Uuid =>
    match summaries.find? fun summary => summary.id = id with
    | some summary => Except.ok summary
    | none => .error .noMatch
  match selector with
  | .id id => found id
  | .current => found currentConnectionId
  | .name name =>
      let candidates := (summaries.filter fun summary => summary.name = name).insertionSort
        fun a b => a.id.toText ≤ b.id.toText
      match candidates with
      | [only] => .ok only
      | [] => .error .noMatch
      | _ => .error (.ambiguous candidates)

/-- `resolve_terminal_cli`. -/
def resolveTerminalCli (authority : TerminalAuthority) (selector : ConnectionSelector)
    (answer : AppResult ℤ) :
    AppResult (Except CliConnectionResolutionError AgentConnectionSummary) := do
  let _ ← pinTerminal db authority answer
  let summaries ← listAgentSummaries db
  pure (resolveCliSummaries summaries selector authority.connectionId)

/-! ### Resolving a name

Of the summaries that are listed, `own` is the one of the session. What a name resolves to depends
on whether it is the name of `own` and on how many others carry it. -/

/-- What becomes of a name. -/
inductive NameOutcome
  | own
  | sibling
  | refused
  deriving DecidableEq, Repr

/-- The connections that are listed beside the one of the session. -/
def siblings (summaries : List AgentConnectionSummary) (id : Uuid) : List AgentConnectionSummary :=
  summaries.filter fun summary => summary.id ≠ id

/-- The number of siblings with a name. -/
def siblingsNamed (summaries : List AgentConnectionSummary) (id : Uuid) (name : String) : ℕ :=
  (siblings summaries id).countP fun summary => summary.name = name

/-- What becomes of a name in a list of summaries. -/
def nameOutcome (summaries : List AgentConnectionSummary) (own : AgentConnectionSummary)
    (name : String) : NameOutcome :=
  let others := siblingsNamed summaries own.id name
  if own.name = name then (if others = 0 then .own else .refused)
  else if others = 1 then .sibling else .refused

section

variable {summaries : List AgentConnectionSummary} {own : AgentConnectionSummary}

theorem filter_own (hids : (summaries.map (·.id)).Nodup) (hown : own ∈ summaries) :
    (summaries.filter fun summary => summary.id = own.id) = [own] := by
  induction summaries with
  | nil => cases hown
  | cons s rest ih =>
    rw [List.map_cons, List.nodup_cons] at hids
    rcases List.mem_cons.1 hown with rfl | hmem
    · have hnone : (rest.filter fun summary => summary.id = own.id) = [] := by
        refine List.filter_eq_nil_iff.2 fun s hs hid => hids.1 ?_
        exact List.mem_map.2 ⟨s, hs, by simpa using hid⟩
      rw [List.filter_cons_of_pos (by simp), hnone]
    · have hne : s.id ≠ own.id := fun heq => hids.1 (heq ▸ List.mem_map.2 ⟨own, hmem, rfl⟩)
      rw [List.filter_cons_of_neg (by simpa using hne)]
      exact ih hids.2 hmem

/-- The listed connections are the one of the session and its siblings. -/
theorem perm_siblings (hids : (summaries.map (·.id)).Nodup) (hown : own ∈ summaries) :
    summaries.Perm (own :: siblings summaries own.id) := by
  have hsplit := List.filter_append_perm (fun summary => decide (summary.id = own.id)) summaries
  rw [filter_own hids hown] at hsplit
  have hrest : (summaries.filter fun summary => !decide (summary.id = own.id)) =
      siblings summaries own.id := List.filter_congr fun s _ => (decide_not).symm
  rw [hrest] at hsplit
  exact hsplit.symm

/-- **What a name resolves to.** -/
theorem resolveCliSummaries_name (hids : (summaries.map (·.id)).Nodup) (hown : own ∈ summaries)
    (name : String) (currentConnectionId : Uuid) :
    match nameOutcome summaries own name with
    | .own => resolveCliSummaries summaries (.name name) currentConnectionId = .ok own
    | .sibling => ∃ other : AgentConnectionSummary, other.id ≠ own.id ∧
        resolveCliSummaries summaries (.name name) currentConnectionId = .ok other
    | .refused => ∃ e, resolveCliSummaries summaries (.name name) currentConnectionId =
        .error e := by
  have hperm := ((List.perm_insertionSort (fun a b : AgentConnectionSummary =>
    a.id.toText ≤ b.id.toText) (summaries.filter fun summary => summary.name = name)).trans
      ((perm_siblings hids hown).filter fun summary => summary.name = name))
  have hothers : siblingsNamed summaries own.id name =
      ((siblings summaries own.id).filter fun summary => summary.name = name).length :=
    List.countP_eq_length_filter
  unfold nameOutcome resolveCliSummaries
  dsimp only
  rw [hothers]
  generalize hcandidates : (summaries.filter fun summary => summary.name = name).insertionSort
    (fun a b => a.id.toText ≤ b.id.toText) = candidates at hperm
  generalize hrest : ((siblings summaries own.id).filter fun summary => summary.name = name) = rest
  by_cases hname : own.name = name
  · rw [List.filter_cons_of_pos (by simpa using hname), hrest] at hperm
    rw [if_pos hname]
    cases rest with
    | nil =>
      rw [List.perm_singleton.1 hperm]
      rfl
    | cons s rest =>
      have hlength := hperm.length_eq
      match candidates, hlength with
      | a :: b :: more, _ => exact ⟨_, rfl⟩
  · rw [List.filter_cons_of_neg (by simpa using hname), hrest] at hperm
    rw [if_neg hname]
    match rest, hrest with
    | [], _ =>
      rw [List.perm_nil.1 hperm]
      exact ⟨_, rfl⟩
    | [s], hrest =>
      rw [List.perm_singleton.1 hperm]
      have hs : s ∈ siblings summaries own.id :=
        (List.mem_filter.1 (hrest ▸ List.mem_singleton_self s)).1
      exact ⟨s, by simpa using (List.mem_filter.1 hs).2, rfl⟩
    | s :: s' :: rest, _ =>
      have hlength := hperm.length_eq
      match candidates, hlength with
      | a :: b :: more, _ => exact ⟨_, rfl⟩

end

/-! ### What a Terminal learns of the other connections -/

section

variable {db} {db' : Database} {authority : TerminalAuthority} {p : PinnedConnection}

theorem pinTerminal_spec {answer : AppResult ℤ} (h : pinTerminal db authority answer = .ok p) :
    p.connectionId = authority.connectionId ∧
      db.pinConnectionWithAccess authority.connectionId true = .ok p := by
  obtain ⟨q, hpin, h⟩ := Except.bind_eq_ok.1 h
  obtain ⟨-, -, h⟩ := Except.bind_eq_ok.1 h
  obtain rfl := Except.pure_eq_ok.1 h
  exact pin_spec hpin

theorem ensurePin_eq_ok : authority.ensurePin p = .ok () ↔
    p.scope.workspaceId = authority.workspaceId ∧
      p.scope.accountScope.storageKey = authority.accountScope ∧
      p.connectionId = authority.connectionId ∧
      p.connectionRevision = authority.connectionRevision := by
  rw [TerminalAuthority.ensurePin, refuseIf_eq_ok, not_not]

variable (h : SharesConnection authority.connectionId db db')
include h

theorem pinTerminal_shared (answer : AppResult ℤ) :
    pinTerminal db authority answer = pinTerminal db' authority answer := by
  unfold pinTerminal
  rw [pin_shared h]

theorem terminalSummary_shared (answer : AppResult ℤ) :
    terminalSummary db authority answer = terminalSummary db' authority answer := by
  unfold terminalSummary
  rw [pinTerminal_shared h]

theorem testTerminal_shared (answer : AppResult ℤ) (test : TestAnswers) :
    testTerminal db authority answer test = testTerminal db' authority answer test := by
  unfold testTerminal
  rw [pinTerminal_shared h]
  cases hpin : pinTerminal db' authority answer with
  | error e => rfl
  | ok p => exact testFresh_shared h (pinTerminal_spec hpin).1 .read test

end

end Services
end AgentDb
