import AgentDb.Broker.Dispatch
import AgentDb.Operations.Sample
import AgentDb.Services.ScopeGateRun

/-!
# What a Terminal learns of other connections

Two stores that agree on the connection of a session differ in the siblings of that connection.
A request that names the connection by its id or as the current one is answered alike; a request
that names it by its name is answered alike exactly when the siblings that carry the name do not
change what the name resolves to.
-/

namespace AgentDb
namespace Broker

open Connection Json Operations Protocol Safety Services Store

/-! ### Resolving alike -/

/-- The summaries that are listed in the active scope. -/
def listed (db : Database) : List AgentConnectionSummary :=
  ((listAgentSummaries db).toOption).getD []

section

variable {db db' : Database} {answers : Answers} {session : AuthenticatedSession}
  {version : UInt16} {name : String} {p q : PinnedConnection}

/-- Where a Terminal's connection is pinned, the listing contains it, and nothing twice. -/
theorem listed_of_pinTerminal {authority : TerminalAuthority} {answer : AppResult ℤ}
    (hk : db.Keyed) (hpin : pinTerminal db authority answer = .ok p) :
    listAgentSummaries db = .ok (listed db) ∧
      AgentConnectionSummary.ofProfile p.profile ∈ listed db ∧
      ((listed db).map (·.id)).Nodup := by
  obtain ⟨r, hof⟩ := pinConnectionWithAccess_spec (pinTerminal_spec hpin).2
  have hlist := listConnections_of_scoped hof.resolved
  have hsummaries : listAgentSummaries db = .ok
      ((db.connectionRows r.workspaceId r.workspace db.activeAccountId).map .ofProfile) := by
    unfold listAgentSummaries
    rw [hlist]
    rfl
  have hlisted : listed db =
      (db.connectionRows r.workspaceId r.workspace db.activeAccountId).map .ofProfile := by
    rw [listed, hsummaries]
    rfl
  rw [hlisted]
  refine ⟨hsummaries, ?_, ?_⟩
  · rw [hof.profile]
    exact List.mem_map.2 ⟨_, mem_connectionRows_of_scoped hof.resolved, rfl⟩
  · rw [List.map_map]
    exact nodup_ids_connectionRows hk _ _ _

/-- **A name resolves** to the session's connection, is denied for a sibling, or is invalid. -/
theorem resolveConnection_name (hk : db.Keyed)
    (hpin : pinTerminal db (terminalAuthority session version) answers.summary = .ok p)
    (hname : pinTerminal db (terminalAuthority session version) answers.name = .ok q) :
    BrokerDispatcher.resolveConnection db answers session version (.name name) =
      match nameOutcome (listed db) (.ofProfile p.profile) name with
      | .own => .ok (connectionSummary (.ofProfile p.profile))
      | .sibling => .error .scopeDenied
      | .refused => .error .invalidRequest := by
  obtain ⟨hlist, hmem, hids⟩ := listed_of_pinTerminal hk hpin
  have hcurrent : terminalSummary db (terminalAuthority session version) answers.summary =
      .ok (.ofProfile p.profile) := by
    unfold terminalSummary
    rw [hpin]
    rfl
  have hresolve : resolveTerminalCli db (terminalAuthority session version) (.name name)
      answers.name = .ok (resolveCliSummaries (listed db) (.name name)
        (terminalAuthority session version).connectionId) := by
    unfold resolveTerminalCli
    rw [hname, hlist]
    rfl
  have hcases := resolveCliSummaries_name hids hmem name
    (terminalAuthority session version).connectionId
  unfold BrokerDispatcher.resolveConnection
  simp only [hcurrent, hresolve, Except.mapError, bind, Except.bind]
  cases hout : nameOutcome (listed db) (.ofProfile p.profile) name with
  | own =>
    simp only [hout] at hcases
    simp only [hcases, if_true]
    rfl
  | sibling =>
    simp only [hout] at hcases
    obtain ⟨other, hne, hcases⟩ := hcases
    simp only [hcases, if_neg hne]
    rfl
  | refused =>
    simp only [hout] at hcases
    obtain ⟨e, hcases⟩ := hcases
    simp only [hcases]
    rfl

/-- The other connections of the two stores do not change what a selector resolves to. -/
def CannotTell (session : AuthenticatedSession) (answers : Answers) (db db' : Database) :
    ConnectionSelector → Prop
  | .current | .id _ => True
  | .name name => ∀ p q,
      pinTerminal db (terminalAuthority session protocolMax) answers.summary = .ok p →
      pinTerminal db (terminalAuthority session protocolMax) answers.name = .ok q →
      (p.profile.name = name → (siblingsNamed (listed db) session.connectionId name = 0 ↔
        siblingsNamed (listed db') session.connectionId name = 0)) ∧
      (p.profile.name ≠ name → (siblingsNamed (listed db) session.connectionId name = 1 ↔
        siblingsNamed (listed db') session.connectionId name = 1))

/-- What becomes of a name depends on two counts. -/
theorem nameOutcome_eq_iff {own : AgentConnectionSummary}
    {summaries summaries' : List AgentConnectionSummary} :
    nameOutcome summaries own name = nameOutcome summaries' own name ↔
      (own.name = name → (siblingsNamed summaries own.id name = 0 ↔
        siblingsNamed summaries' own.id name = 0)) ∧
      (own.name ≠ name → (siblingsNamed summaries own.id name = 1 ↔
        siblingsNamed summaries' own.id name = 1)) := by
  unfold nameOutcome
  dsimp only
  by_cases hname : own.name = name
  · simp only [hname, if_true, ne_eq, not_true_eq_false, false_imp_iff, and_true, true_imp_iff]
    by_cases h : siblingsNamed summaries own.id name = 0 <;>
      by_cases h' : siblingsNamed summaries' own.id name = 0 <;> simp [h, h']
  · simp only [hname, if_false, ne_eq, not_false_eq_true, false_imp_iff, true_and, true_imp_iff]
    by_cases h : siblingsNamed summaries own.id name = 1 <;>
      by_cases h' : siblingsNamed summaries' own.id name = 1 <;> simp [h, h']

/-- What the selector resolves to is the connection of the session. -/
theorem id_of_resolveConnection {selector : ConnectionSelector} {c : ConnectionSummary}
    (hk : db.Keyed)
    (h : BrokerDispatcher.resolveConnection db answers session version selector = .ok c) :
    c.id = session.connectionId := by
  unfold BrokerDispatcher.resolveConnection at h
  obtain ⟨current, hcurrent, h⟩ := Except.bind_eq_ok.1 h
  have hid : current.id = session.connectionId := by
    unfold terminalSummary at hcurrent
    cases hpin : pinTerminal db (terminalAuthority session version) answers.summary with
    | error e =>
      rw [hpin] at hcurrent
      cases hcurrent
    | ok p =>
      rw [hpin] at hcurrent
      obtain rfl := Except.ok.inj hcurrent
      exact profile_id_of_pin hk (pinTerminal_spec hpin).2
  cases selector with
  | current =>
    obtain rfl := Except.pure_eq_ok.1 h
    exact hid
  | id asked =>
    dsimp only at h
    split at h
    · obtain rfl := Except.pure_eq_ok.1 h
      exact hid
    · cases h
  | name name =>
    obtain ⟨resolved, -, h⟩ := Except.bind_eq_ok.1 h
    cases resolved with
    | error e => cases h
    | ok resolved =>
      dsimp only at h
      split at h
      · rename_i hsame
        obtain rfl := Except.pure_eq_ok.1 h
        exact hsame.trans hid
      · cases h

/-- **The connection resolves alike** where the siblings cannot be told. -/
theorem resolveConnection_alike {selector : ConnectionSelector}
    (h : SharesKeyed session.connectionId db db')
    (htell : CannotTell session answers db db' selector) :
    BrokerDispatcher.resolveConnection db answers session version selector =
      BrokerDispatcher.resolveConnection db' answers session version selector := by
  have hshares : SharesConnection (terminalAuthority session version).connectionId db db' :=
    h.toSharesConnection
  cases selector with
  | current =>
    unfold BrokerDispatcher.resolveConnection
    dsimp only
    rw [terminalSummary_shared hshares]
  | id asked =>
    unfold BrokerDispatcher.resolveConnection
    dsimp only
    rw [terminalSummary_shared hshares]
  | name name =>
    have hpins := pinTerminal_shared hshares
    cases hpin : pinTerminal db (terminalAuthority session version) answers.summary with
    | error e =>
      have hpin' := hpins answers.summary ▸ hpin
      unfold BrokerDispatcher.resolveConnection terminalSummary
      dsimp only
      rw [hpin, hpin']
      rfl
    | ok p =>
      have hpin' := hpins answers.summary ▸ hpin
      cases hname : pinTerminal db (terminalAuthority session version) answers.name with
      | error e =>
        have hname' := hpins answers.name ▸ hname
        unfold BrokerDispatcher.resolveConnection resolveTerminalCli
        dsimp only
        rw [terminalSummary_shared hshares, hname, hname']
        rfl
      | ok q =>
        have hname' := hpins answers.name ▸ hname
        rw [resolveConnection_name h.keyed hpin hname, resolveConnection_name h.keyed' hpin' hname']
        have hown : (AgentConnectionSummary.ofProfile p.profile).id = session.connectionId :=
          profile_id_of_pin h.keyed (pinTerminal_spec hpin).2
        have hcounts := htell p q hpin hname
        rw [← hown] at hcounts
        rw [nameOutcome_eq_iff.2 hcounts]

end

/-! ### Answering alike -/

section

variable {broker : BrokerDispatcher} {db db' : Database} {t u : Tables} {answers : Answers}
  {session : AuthenticatedSession} {version : UInt16}

/-- The connection is resolved alike, so what each command does with it is the same. -/
structure ResolvesAlike (session : AuthenticatedSession) (answers : Answers) (db db' : Database)
    (selector : ConnectionSelector) : Prop where
  shares : SharesKeyed session.connectionId db db'
  resolved : ∀ version, BrokerDispatcher.resolveConnection db answers session version selector =
    BrokerDispatcher.resolveConnection db' answers session version selector

theorem connectionTest_alike {arguments : ConnectionSelectorArguments}
    (h : ResolvesAlike session answers db db' arguments.connection) :
    BrokerDispatcher.connectionTest db answers session version arguments =
      BrokerDispatcher.connectionTest db' answers session version arguments := by
  have hshares : SharesConnection (terminalAuthority session version).connectionId db db' :=
    h.shares.toSharesConnection
  unfold BrokerDispatcher.connectionTest
  rw [h.resolved, testTerminal_shared hshares]

theorem catalog_alike {selector : ConnectionSelector}
    (h : ResolvesAlike session answers db db' selector) :
    broker.catalog db answers session version selector =
      broker.catalog db' answers session version selector := by
  have hshares : SharesConnection (terminalAuthority session version).connectionId db db' :=
    h.shares.toSharesConnection
  unfold BrokerDispatcher.catalog
  rw [h.resolved, loadTerminalSnapshot_shared hshares]

theorem schemaList_alike {arguments : ConnectionSelectorArguments}
    (h : ResolvesAlike session answers db db' arguments.connection) :
    broker.schemaList db answers session version arguments =
      broker.schemaList db' answers session version arguments := by
  unfold BrokerDispatcher.schemaList
  rw [catalog_alike h]

theorem tableDescribe_alike {arguments : TableDescribeArguments}
    (h : ResolvesAlike session answers db db' arguments.connection) :
    broker.tableDescribe db answers session version arguments =
      broker.tableDescribe db' answers session version arguments := by
  unfold BrokerDispatcher.tableDescribe
  rw [catalog_alike h]

theorem queryPlan_alike {arguments : QueryPlanArguments}
    (h : ResolvesAlike session answers db db' arguments.connection)
    (ht : Fresh answers.draws t) (hu : Fresh answers.draws u) :
    broker.queryPlan db t answers session version arguments =
      broker.queryPlan db' u answers session version arguments := by
  unfold BrokerDispatcher.queryPlan
  rw [h.resolved]
  cases hresolved : BrokerDispatcher.resolveConnection db' answers session version
      arguments.connection with
  | error e => rfl
  | ok c =>
    have hid := id_of_resolveConnection h.shares.keyed' hresolved
    show (_ : Except ErrorCode _) = _
    simp only [bind, Except.bind, hid]
    rw [planTerminalRead_shared h.shares ht hu]

/-- A proposal that is told alike is shown alike. -/
theorem shown_alike {x : Crates} {authority : TerminalAuthority}
    {proposed proposed' : AppResult DesktopSqlProposalReceipt × Tables}
    (hvalue : proposed.1 = proposed'.1) (hget : ∀ receipt, proposed.1 = .ok receipt →
      proposed.2.get x receipt.operationId = proposed'.2.get x receipt.operationId) :
    (do
      let receipt ← proposed.1.mapError mapApplicationError
      (showTerminal x authority receipt.operationId proposed.2).mapError mapOperationError :
        Except ErrorCode OperationSummary) = (do
      let receipt ← proposed'.1.mapError mapApplicationError
      (showTerminal x authority receipt.operationId proposed'.2).mapError mapOperationError) := by
  obtain ⟨result, t⟩ := proposed
  obtain ⟨result', u⟩ := proposed'
  obtain rfl : result = result' := hvalue
  cases result with
  | error e => rfl
  | ok receipt =>
    show (showTerminal x authority receipt.operationId t).mapError mapOperationError =
      (showTerminal x authority receipt.operationId u).mapError mapOperationError
    unfold showTerminal
    rw [show t.get x receipt.operationId = u.get x receipt.operationId from hget receipt rfl]

theorem sqlPropose_alike {arguments : SqlProposeArguments}
    (h : ResolvesAlike session answers db db' arguments.connection)
    (ht : Fresh answers.draws t) (hu : Fresh answers.draws u) :
    broker.sqlPropose db t answers session version arguments =
      broker.sqlPropose db' u answers session version arguments := by
  unfold BrokerDispatcher.sqlPropose
  rw [h.resolved]
  cases hresolved : BrokerDispatcher.resolveConnection db' answers session version
      arguments.connection with
  | error e => rfl
  | ok c =>
    have hid := id_of_resolveConnection h.shares.keyed' hresolved
    cases hsql : validateSql arguments.sql with
    | error e => rfl
    | ok =>
      show (_ : Except ErrorCode _) = _
      simp only [bind, Except.bind, hid]
      exact shown_alike (proposeTerminalSql_shared h.shares ht hu).1
        (proposeTerminalSql_shared h.shares ht hu).2

/-- A request of a session that is authenticated, naming a connection. -/
structure Names (broker : BrokerDispatcher) (now : DateTime) (session : AuthenticatedSession)
    (selector : ConnectionSelector) (request : RequestEnvelope) : Prop where
  authenticated : ∃ a ∈ request.authentication,
    broker.sessions.authenticate now a = .ok session
  named : request.selector broker.serde.parseUuid = some selector

theorem authenticate_of_names {selector : ConnectionSelector} {request : RequestEnvelope}
    {capability : BrokerCapability} {given : AuthenticatedSession}
    (h : Names broker answers.now session selector request)
    (hgiven : broker.authenticate answers request capability = .ok given) : given = session := by
  obtain ⟨a, ha, hsession⟩ := h.authenticated
  unfold BrokerDispatcher.authenticate at hgiven
  rw [Option.mem_def.1 ha] at hgiven
  simp only [hsession, Except.mapError, bind, Except.bind] at hgiven
  split at hgiven
  · cases hgiven
  · obtain rfl := Except.pure_eq_ok.1 hgiven
    rfl

/-- A command is served alike if it runs alike on the arguments that name the connection. -/
theorem serve_alike {A α : Type} {selector : ConnectionSelector} {request : RequestEnvelope}
    {command : CommandName} {capability : BrokerCapability} {fromValue : Value → Option A}
    {toValue : α → Value} {run run' : AuthenticatedSession → A → Except ErrorCode α}
    (h : Names broker answers.now session selector request)
    (hrun : ∀ arguments, fromValue request.arguments = some arguments →
      run session arguments = run' session arguments) :
    broker.serve answers request command capability fromValue toValue run =
      broker.serve answers request command capability fromValue toValue run' := by
  unfold BrokerDispatcher.serve
  cases hauth : broker.authenticate answers request capability with
  | error code => rfl
  | ok given =>
    obtain rfl := authenticate_of_names h hauth
    dsimp only
    cases hdecoded : decodeArguments command fromValue request with
    | none => rfl
    | some arguments =>
      unfold decodeArguments at hdecoded
      split at hdecoded
      · cases hdecoded
      · dsimp only
        rw [hrun arguments hdecoded]

/-- **A request that names the connection is answered alike.** -/
theorem dispatch_alike {selector : ConnectionSelector} {request : RequestEnvelope}
    (h : Names broker answers.now session selector request)
    (hresolves : ResolvesAlike session answers db db' selector)
    (ht : Fresh answers.draws t) (hu : Fresh answers.draws u) :
    broker.dispatch db t answers request = broker.dispatch db' u answers request := by
  have hnamed := h.named
  have hconnection : ∀ {A : Type} {fromValue : Value → Option A} {get : A → ConnectionSelector}
      {arguments : A}, (fromValue request.arguments).map get = some selector →
      fromValue request.arguments = some arguments → get arguments = selector := by
    intro A fromValue get arguments hmap hdecoded
    rw [hdecoded] at hmap
    exact Option.some.inj hmap
  have hcurrent : broker.dispatchCurrent db t answers request =
      broker.dispatchCurrent db' u answers request := by
    unfold BrokerDispatcher.dispatchCurrent
    unfold RequestEnvelope.selector at hnamed
    dsimp only
    split
    · rfl
    cases hcommand : request.command <;> rw [hcommand] at hnamed <;> dsimp only at hnamed ⊢
    case connectionShow =>
      refine serve_alike h fun arguments hdecoded => ?_
      rw [hconnection hnamed hdecoded]
      exact hresolves.resolved _
    case connectionTest =>
      refine serve_alike h fun arguments hdecoded => connectionTest_alike ?_
      rw [hconnection hnamed hdecoded]
      exact hresolves
    case catalogShow =>
      refine serve_alike h fun arguments hdecoded => catalog_alike ?_
      rw [hconnection hnamed hdecoded]
      exact hresolves
    case schemaList =>
      refine serve_alike h fun arguments hdecoded => schemaList_alike ?_
      rw [hconnection hnamed hdecoded]
      exact hresolves
    case tableDescribe =>
      refine serve_alike h fun arguments hdecoded => tableDescribe_alike ?_
      rw [hconnection hnamed hdecoded]
      exact hresolves
    case queryPlan =>
      refine serve_alike h fun arguments hdecoded => queryPlan_alike ?_ ht hu
      rw [hconnection hnamed hdecoded]
      exact hresolves
    case sqlPropose =>
      refine serve_alike h fun arguments hdecoded => sqlPropose_alike ?_ ht hu
      rw [hconnection hnamed hdecoded]
      exact hresolves
  unfold BrokerDispatcher.dispatch
  rw [hcurrent]

end

/-! ### Telling stores apart -/

/-- `connection.show` of a connection. -/
def showRequest (authentication : SessionAuthentication) (text : String) : RequestEnvelope where
  protocolVersion := 1
  commandSchemaVersion := 1
  requestId := .ofByte 0
  authentication := some authentication
  command := .connectionShow
  arguments := .object [("connection", .string text)]

/-- What a response to `connection.show` tells of a name. -/
def toldOutcome (response : ResponseEnvelope) : NameOutcome :=
  match response.error.map ProtocolError.code with
  | some ErrorCode.scopeDenied => .sibling
  | some ErrorCode.invalidRequest => .refused
  | _ => .own

section

variable {broker : BrokerDispatcher} {db db' : Database} {t u : Tables} {answers : Answers}
  {session : AuthenticatedSession} {authentication : SessionAuthentication} {text : String}
  {selector : ConnectionSelector}

theorem selector_showRequest {parseUuid : String → Option Uuid}
    (htext : ConnectionSelector.fromStr parseUuid text = .ok selector) :
    (ConnectionSelectorArguments.fromValue parseUuid (showRequest authentication text).arguments) =
      some ⟨selector⟩ := by
  have hentries : structEntries ["connection"] (.object [("connection", .string text)]) =
      some [("connection", .string text)] := structEntries_object (by simp) (by simp)
  have hread : readSelector parseUuid (.string text) = some selector := by
    show (ConnectionSelector.fromStr parseUuid text).toOption = _
    rw [htext]
    rfl
  unfold ConnectionSelectorArguments.fromValue showRequest
  simp only [hentries, Option.bind_eq_bind, Option.bind_some, List.lookup_cons_self, hread,
    Option.pure_def]

/-- What `connection.show` answers a session that may ask. -/
theorem dispatch_showRequest
    (hsession : broker.sessions.authenticate answers.now authentication = .ok session)
    (hread : .connectionRead ∈ session.capabilities)
    (htext : ConnectionSelector.fromStr broker.serde.parseUuid text = .ok selector) :
    broker.dispatch db t answers (showRequest authentication text) =
      responseAtProtocol (respond broker.serde (.ofByte 0) ConnectionSummary.toValue
        (BrokerDispatcher.resolveConnection db answers session 1 selector)) 1 := by
  have hrequire : session.require .connectionRead = .ok () := by
    rw [AuthenticatedSession.require, refuseIf_eq_ok, not_not]
    exact hread
  have hauth : broker.authenticate answers (showRequest authentication text) .connectionRead =
      .ok session := by
    unfold BrokerDispatcher.authenticate showRequest
    simp only [hsession, hrequire, Except.mapError, bind, Except.bind]
    rfl
  have hdecoded : decodeArguments .connectionShow
      (ConnectionSelectorArguments.fromValue broker.serde.parseUuid)
      (showRequest authentication text) = some ⟨selector⟩ := by
    rw [decodeArguments, if_neg (by simp [showRequest])]
    exact selector_showRequest htext
  have hserved : broker.serve answers (showRequest authentication text) .connectionShow
      .connectionRead (ConnectionSelectorArguments.fromValue broker.serde.parseUuid)
      ConnectionSummary.toValue (fun session arguments =>
        BrokerDispatcher.resolveConnection db answers session 1 arguments.connection) =
      respond broker.serde (.ofByte 0) ConnectionSummary.toValue
        (BrokerDispatcher.resolveConnection db answers session 1 selector) := by
    unfold BrokerDispatcher.serve
    rw [hauth, hdecoded]
    rfl
  have hversion : ¬ ((1 : UInt16) < protocolMin ∨ (1 : UInt16) > protocolMax ∨
      (1 : UInt16) ≠ commandSchemaVersion) := by decide
  have hcurrent : broker.dispatchCurrent db t answers (showRequest authentication text) =
      respond broker.serde (.ofByte 0) ConnectionSummary.toValue
        (BrokerDispatcher.resolveConnection db answers session 1 selector) := by
    rw [← hserved]
    show (if (1 : UInt16) < protocolMin ∨ (1 : UInt16) > protocolMax ∨
      (1 : UInt16) ≠ commandSchemaVersion then failure (.ofByte 0) .protocolMismatch false
      else _) = _
    rw [if_neg hversion]
    rfl
  unfold BrokerDispatcher.dispatch
  rw [hcurrent]
  rfl

theorem toldOutcome_error {α : Type} {toValue : α → Value} {code : ErrorCode} :
    toldOutcome (responseAtProtocol (respond broker.serde (.ofByte 0) toValue (.error code)) 1) =
      match code with
      | .scopeDenied => .sibling
      | .invalidRequest => .refused
      | _ => .own := by
  cases code <;> rfl

/-- A summary is shown, or is too large to be: neither is how a sibling or a refusal looks. -/
theorem toldOutcome_ok {α : Type} {toValue : α → Value} {result : α} :
    toldOutcome (responseAtProtocol (respond broker.serde (.ofByte 0) toValue (.ok result)) 1) =
      .own := by
  unfold respond success
  dsimp only
  split <;> rfl

/-- **The response to `connection.show` tells what a name resolves to.** -/
theorem toldOutcome_dispatch {name : String} {p q : PinnedConnection} (hk : db.Keyed)
    (hsession : broker.sessions.authenticate answers.now authentication = .ok session)
    (hread : .connectionRead ∈ session.capabilities)
    (htext : ConnectionSelector.fromStr broker.serde.parseUuid text = .ok (.name name))
    (hpin : pinTerminal db (terminalAuthority session protocolMax) answers.summary = .ok p)
    (hname : pinTerminal db (terminalAuthority session protocolMax) answers.name = .ok q) :
    toldOutcome (broker.dispatch db t answers (showRequest authentication text)) =
      nameOutcome (listed db) (.ofProfile p.profile) name := by
  have hresolved : BrokerDispatcher.resolveConnection db answers session 1 (.name name) =
      match nameOutcome (listed db) (.ofProfile p.profile) name with
      | .own => .ok (connectionSummary (.ofProfile p.profile))
      | .sibling => .error .scopeDenied
      | .refused => .error .invalidRequest := resolveConnection_name hk hpin hname
  rw [dispatch_showRequest hsession hread htext, hresolved]
  cases nameOutcome (listed db) (.ofProfile p.profile) name with
  | own => exact toldOutcome_ok
  | sibling => exact toldOutcome_error
  | refused => exact toldOutcome_error

theorem names_showRequest
    (hsession : broker.sessions.authenticate answers.now authentication = .ok session)
    (htext : ConnectionSelector.fromStr broker.serde.parseUuid text = .ok selector) :
    Names broker answers.now session selector (showRequest authentication text) where
  authenticated := ⟨authentication, rfl, hsession⟩
  named := by
    show (ConnectionSelectorArguments.fromValue _ _).map _ = _
    rw [selector_showRequest htext]
    rfl

theorem cannotTell_of_dispatch (h : SharesKeyed session.connectionId db db')
    (hsession : broker.sessions.authenticate answers.now authentication = .ok session)
    (hread : .connectionRead ∈ session.capabilities)
    (htext : ConnectionSelector.fromStr broker.serde.parseUuid text = .ok selector)
    (hsame : broker.dispatch db t answers (showRequest authentication text) =
      broker.dispatch db' u answers (showRequest authentication text)) :
    CannotTell session answers db db' selector := by
  have hshares : SharesConnection (terminalAuthority session protocolMax).connectionId db db' :=
    h.toSharesConnection
  cases selector with
  | current => trivial
  | id asked => trivial
  | name name =>
    intro p q hpin hname
    have hpin' := pinTerminal_shared hshares answers.summary ▸ hpin
    have hname' := pinTerminal_shared hshares answers.name ▸ hname
    have htold := congrArg toldOutcome hsame
    rw [toldOutcome_dispatch h.keyed hsession hread htext hpin hname,
      toldOutcome_dispatch h.keyed' hsession hread htext hpin' hname'] at htold
    have hown : (AgentConnectionSummary.ofProfile p.profile).id = session.connectionId :=
      profile_id_of_pin h.keyed (pinTerminal_spec hpin).2
    rw [← hown]
    exact nameOutcome_eq_iff.1 htold

end

/-- **Whether siblings are told.** Every request that names the connection by a selector is
answered alike if the siblings do not change what the selector resolves to; and only then, for a
session that may show its connection. -/
theorem dispatch_alike_iff (broker : BrokerDispatcher) (answers : Answers)
    (session : AuthenticatedSession) (authentication : SessionAuthentication)
    (selector : ConnectionSelector) (text : String) (db db' : Database) (t u : Tables)
    (hsession : broker.sessions.authenticate answers.now authentication = .ok session)
    (htext : ConnectionSelector.fromStr broker.serde.parseUuid text = .ok selector)
    (h : SharesKeyed session.connectionId db db') (ht : Fresh answers.draws t)
    (hu : Fresh answers.draws u) :
    (CannotTell session answers db db' selector →
      ∀ request, Names broker answers.now session selector request →
        broker.dispatch db t answers request = broker.dispatch db' u answers request) ∧
    (.connectionRead ∈ session.capabilities →
      (∀ request, Names broker answers.now session selector request →
        broker.dispatch db t answers request = broker.dispatch db' u answers request) →
      CannotTell session answers db db' selector) := by
  constructor
  · intro htell request hnames
    have hresolves : ResolvesAlike session answers db db' selector :=
      ⟨h, fun _ => resolveConnection_alike h htell⟩
    exact dispatch_alike hnames hresolves ht hu
  · intro hread hsame
    exact cannotTell_of_dispatch h hsession hread htext
      (hsame _ (names_showRequest hsession htext))

/-! ### A sibling of the same name -/

/-- A session on the connection `payments`, with every capability. -/
def paymentsSession : AuthenticatedSession :=
  ⟨.ofByte 9, .ofByte 5, personalWorkspaceId, "personal", .ofByte 3, 1, BrokerCapability.all,
    .ofDay 9⟩

def paymentsAuthentication : SessionAuthentication := ⟨.ofByte 9, "token"⟩

/-- A dispatcher that holds the session. -/
def paymentsBroker : BrokerDispatcher where
  sessions :=
    { runtimeId := .ofByte 5
      sessions := Table.empty.put (.ofByte 9) ⟨paymentsSession, Vector.replicate 32 0⟩
      decodeToken := fun _ => some (Vector.replicate 32 0) }
  serde := ⟨fun _ => [], fun _ => .error (1, 1), fun _ => none⟩
  crates := crates
  parseSql := ScopeGate.parseUpdate
  runtimeId := .ofByte 5
  others request := failure request.requestId .invalidRequest false

def reachable : ConnectAnswers := ⟨.ok (), .ok 1, .ok ()⟩

/-- Everything a request meets goes through, but the target has no catalog. -/
def paymentsAnswers : Answers where
  now := .ofDay 1
  summary := .ok 1
  name := .ok 1
  test := .ok 1
  testing := ⟨.ok (), .ok 1, false, .ok ()⟩
  catalogPin := .ok 1
  catalog := ⟨.ok 1, reachable, fun _ => .error (.db "no catalog")⟩
  plan := ⟨.ok 1, reachable, .ok (), fun _ _ => .ok (skippedPreviewReport "none"),
    ⟨"normal", "full", none, none, none, none, none, none, none, [], .ofDay 1⟩⟩
  draws := ⟨.ofByte 20, .ofDay 2, fun _ => .ofDay 1, fun n => .ofByte (21 + n.toUInt8)⟩
  proposalExpiry := fun _ => .ofDay 2

/-- The store of the sample with a sibling of its connection. -/
def storeWith (name : String) : Database :=
  let row : Store.Connection :=
    ⟨{ ScopeGate.paymentsProfile with id := .ofByte 4, name }, personalWorkspaceId, none, false, 1,
      "dirty", none, .ofDay 0, .ofDay 0⟩
  { ScopeGate.paymentsStore with
    connections := ScopeGate.paymentsStore.connections.put (.ofByte 4) row }

theorem sharesKeyed_storeWith (name : String) :
    SharesKeyed (.ofByte 3) ScopeGate.paymentsStore (storeWith name) where
  activeWorkspaceId := rfl
  activeAccountId := rfl
  generation := rfl
  workspaces := rfl
  members := rfl
  connection := rfl
  bindings _ := rfl
  safety := rfl
  catalogs _ _ := rfl
  legacyCatalogs _ := Iff.rfl
  keyed r hr := by
    obtain rfl := List.mem_singleton.1 hr
    rfl
  keyed' r hr := by
    rcases List.mem_cons.1 hr with rfl | hr
    · rfl
    · obtain rfl := List.mem_singleton.1 hr
      rfl

theorem pinTerminal_payments : pinTerminal ScopeGate.paymentsStore
    (terminalAuthority paymentsSession protocolMax) (.ok 1) = .ok ScopeGate.paymentsPin := by
  decide +kernel

theorem authenticate_payments : paymentsBroker.sessions.authenticate paymentsAnswers.now
    paymentsAuthentication = .ok paymentsSession := by
  decide +kernel

theorem fromStr_payments : ConnectionSelector.fromStr paymentsBroker.serde.parseUuid
    "name:payments" = .ok (.name "payments") := by
  decide +kernel

theorem fresh_empty (draws : Draws) : Fresh draws ⟨[], [], []⟩ where
  operation _ h := by cases h
  event _ h := by cases h

/-- With a sibling of another name the session learns nothing. -/
theorem dispatch_alike_orders :
    (CannotTell paymentsSession paymentsAnswers ScopeGate.paymentsStore (storeWith "orders")
        (.name "payments") →
      ∀ request, Names paymentsBroker paymentsAnswers.now paymentsSession (.name "payments")
          request →
        paymentsBroker.dispatch ScopeGate.paymentsStore ⟨[], [], []⟩ paymentsAnswers request =
          paymentsBroker.dispatch (storeWith "orders") ⟨[], [], []⟩ paymentsAnswers request) ∧
    (.connectionRead ∈ paymentsSession.capabilities →
      (∀ request, Names paymentsBroker paymentsAnswers.now paymentsSession (.name "payments")
          request →
        paymentsBroker.dispatch ScopeGate.paymentsStore ⟨[], [], []⟩ paymentsAnswers request =
          paymentsBroker.dispatch (storeWith "orders") ⟨[], [], []⟩ paymentsAnswers request) →
      CannotTell paymentsSession paymentsAnswers ScopeGate.paymentsStore (storeWith "orders")
        (.name "payments")) :=
  dispatch_alike_iff paymentsBroker paymentsAnswers paymentsSession paymentsAuthentication
    (.name "payments") "name:payments" ScopeGate.paymentsStore (storeWith "orders") ⟨[], [], []⟩
    ⟨[], [], []⟩ authenticate_payments fromStr_payments (sharesKeyed_storeWith "orders")
    (fresh_empty _) (fresh_empty _)

/-- A sibling with the name of the session's own connection is told by the error code. -/
theorem dispatch_tells_sibling :
    SharesKeyed paymentsSession.connectionId ScopeGate.paymentsStore (storeWith "payments") ∧
      ∃ request, Names paymentsBroker paymentsAnswers.now paymentsSession (.name "payments")
          request ∧
        paymentsBroker.dispatch ScopeGate.paymentsStore ⟨[], [], []⟩ paymentsAnswers request ≠
          paymentsBroker.dispatch (storeWith "payments") ⟨[], [], []⟩ paymentsAnswers request := by
  refine ⟨sharesKeyed_storeWith "payments", showRequest paymentsAuthentication "name:payments",
    names_showRequest authenticate_payments fromStr_payments, fun hsame => ?_⟩
  have hread : BrokerCapability.connectionRead ∈ paymentsSession.capabilities := by decide
  have htell := cannotTell_of_dispatch (sharesKeyed_storeWith "payments") authenticate_payments
    hread fromStr_payments hsame
  have hcounts := (htell _ _ pinTerminal_payments pinTerminal_payments).1 rfl
  revert hcounts
  decide +kernel

end Broker
end AgentDb
