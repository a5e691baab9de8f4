import AgentDb.Protocol.Envelope
import AgentDb.Store.Pins

/-!
# Terminal session capabilities: `broker/session.rs`

A session is issued for one pin and holds a set of capabilities; a request that authenticates as
the session carries its token. Decoding a token is third-party code.
-/

namespace AgentDb
namespace Broker

open Protocol Store

/-- `BrokerCapability`. -/
inductive BrokerCapability
  | connectionRead
  | connectionTest
  | catalogRead
  | queryPlan
  | queryRun
  | sqlPropose
  | operationRead
  | operationCancel
  deriving DecidableEq, Repr

/-- `BrokerCapability::ALL`. -/
def BrokerCapability.all : List BrokerCapability :=
  [.connectionRead, .connectionTest, .catalogRead, .queryPlan, .queryRun, .sqlPropose,
    .operationRead, .operationCancel]

/-- `AuthenticatedSession`. -/
structure AuthenticatedSession where
  terminalSessionId : Uuid
  runtimeId : Uuid
  workspaceId : Uuid
  accountScope : String
  connectionId : Uuid
  connectionRevision : ℤ
  capabilities : List BrokerCapability
  expiresAt : DateTime
  deriving DecidableEq

/-- `require`. -/
def AuthenticatedSession.require (session : AuthenticatedSession) (capability : BrokerCapability) :
    AppResult Unit :=
  refuseIf (capability ∉ session.capabilities)
    (.blocked "terminal session does not have the required broker capability")

/-- `SessionRecord`. -/
structure SessionRecord where
  metadata : AuthenticatedSession
  token : Vector UInt8 32

/-- `BrokerSessionRegistry`, with the decoding of a token. -/
structure BrokerSessionRegistry where
  runtimeId : Uuid
  sessions : Table Uuid SessionRecord
  decodeToken : String → Option (Vector UInt8 32)

def authenticationDenied : AppError := .blocked "terminal session authentication was denied"

/-- The session `issue` records for a pin. -/
def BrokerSessionRegistry.issue (registry : BrokerSessionRegistry) (terminalSessionId : Uuid)
    (pin : PinnedConnection) (capabilities : List BrokerCapability) (token : Vector UInt8 32)
    (expiresAt : DateTime) : BrokerSessionRegistry :=
  { registry with
    sessions := registry.sessions.put terminalSessionId
      { metadata :=
          { terminalSessionId
            runtimeId := registry.runtimeId
            workspaceId := pin.scope.workspaceId
            accountScope := pin.scope.accountScope.storageKey
            connectionId := pin.connectionId
            connectionRevision := pin.connectionRevision
            capabilities
            expiresAt }
        token } }

/-- `authenticate`. -/
def BrokerSessionRegistry.authenticate (registry : BrokerSessionRegistry) (now : DateTime)
    (authentication : SessionAuthentication) : AppResult AuthenticatedSession :=
  match registry.sessions.get authentication.terminalSessionId with
  | none => .error authenticationDenied
  | some record =>
      if record.metadata.runtimeId ≠ registry.runtimeId ∨ record.metadata.expiresAt ≤ now then
        .error authenticationDenied
      else if registry.decodeToken authentication.token ≠ some record.token then
        .error authenticationDenied
      else .ok record.metadata

end Broker
end AgentDb
