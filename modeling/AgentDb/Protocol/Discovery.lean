import AgentDb.Lib.JsonStruct
import AgentDb.Scalars

/-!
# The record of a running desktop: `dopedb-protocol/src/discovery.rs`

A desktop runtime publishes a public record of itself, with no secret in it: who it is, which
process it runs in, which protocols it speaks and where it listens.
-/

namespace AgentDb
namespace Protocol

open Json

/-- `RUNTIME_SCHEMA_VERSION`. -/
def runtimeSchemaVersion : ℕ := 1

/-- `RuntimeDiscovery`. -/
structure RuntimeDiscovery where
  schemaVersion : ℕ
  runtimeId : Uuid
  pid : ℕ
  appVersion : String
  protocolMin : ℕ
  protocolMax : ℕ
  endpoint : String
  startedAt : DateTime
  deriving DecidableEq

/-- `RuntimeDiscoveryError`. -/
inductive RuntimeDiscoveryError
  | schemaVersion
  | pid
  | appVersion
  | protocolRange
  | endpoint
  deriving DecidableEq, Repr

namespace RuntimeDiscovery

/-- `validate`. -/
def validate (d : RuntimeDiscovery) : Except RuntimeDiscoveryError Unit :=
  if d.schemaVersion ≠ runtimeSchemaVersion then .error .schemaVersion
  else if d.pid = 0 then .error .pid
  else if isBlank d.appVersion then .error .appVersion
  else if d.protocolMin = 0 ∨ d.protocolMin > d.protocolMax then .error .protocolRange
  else if isBlank d.endpoint then .error .endpoint
  else .ok ()

/-- `new`. -/
def new (runtimeId : Uuid) (pid : ℕ) (appVersion : String) (protocolMin protocolMax : ℕ)
    (endpoint : String) (startedAt : DateTime) : Except RuntimeDiscoveryError RuntimeDiscovery := do
  let discovery : RuntimeDiscovery :=
    { schemaVersion := runtimeSchemaVersion
      runtimeId, pid, appVersion, protocolMin, protocolMax, endpoint, startedAt }
  discovery.validate
  return discovery

/-- The derived serializer. -/
def serializer : Serializer RuntimeDiscovery :=
  .struct [.required "schemaVersion" .nat schemaVersion,
      .required "runtimeId" (.variant Uuid.toText Uuid.toText_injective) runtimeId,
      .required "pid" .nat pid, .required "appVersion" .string appVersion,
      .required "protocolMin" .nat protocolMin, .required "protocolMax" .nat protocolMax,
      .required "endpoint" .string endpoint,
      .required "startedAt" (.variant DateTime.wireText DateTime.wireText_injective) startedAt]
    (by decide)
    fun a b h => by
      cases a
      cases b
      simpa using h

/-- What `publish` writes: the record, and a newline. -/
def text (d : RuntimeDiscovery) : List UInt8 := serializer.toVec d ++ [10]

theorem text_injective : Function.Injective text := fun _ _ h =>
  serializer.toVec_injective (List.append_cancel_right h)

end RuntimeDiscovery

end Protocol
end AgentDb
