import AgentDb.Runs.DesktopSql
import AgentDb.Services.CatalogService

/-!
# Catalog loads as programs: `introspect/catalog_v2.rs`

`load_catalog` for the user interface and `load_catalog_snapshot` for the broker. Both pin the
connection, may read or clear the cache, introspect the target for any time, and write through. A
catalog carries the state of the target its introspection began in.
-/

namespace AgentDb
namespace Runs

open Connection Protocol Services Store

/-- The catalog a load returns: the canonical one of the cache, or the one that was introspected. -/
inductive LoadedCatalog
  | canonical (catalog : Stamped)
  | introspected (catalog : Introspected)

/-- The state of the target in which the introspection of a loaded catalog began. -/
def LoadedCatalog.since : LoadedCatalog → ℕ
  | .canonical catalog => catalog.since
  | .introspected catalog => catalog.since

/-- The error of a load whose pin is stale when it writes through. -/
def retryLoading : AppError :=
  .blocked "workspace or connection access changed; retry schema loading"

/-- The write-through of a load. -/
def writeThrough (pin : PinnedConnection) (catalog : Stamped) : RunM Unit := do
  match ← putCatalog pin catalog with
  | .stored | .notPersisted => pure ()
  | .stale => throw retryLoading

/-- The part of a load that both kinds share: the pin, and the cache as far as the mode says. -/
def readCache (connectionId : Uuid) (mode : CatalogReadMode) :
    RunM (PinnedConnection × Option Stamped) := do
  let pin ← pin connectionId .read
  match mode with
  | .cacheFirst => do
      let cached ← getCatalog pin
      pure (pin, cached)
  | .refresh => do
      clearSchemaCache connectionId none
      pure (pin, none)
  | .liveNoCache => pure (pin, none)

/-- `introspect_and_maybe_store`. -/
def introspectAndMaybeStore (pin : PinnedConnection) (mode : CatalogReadMode) :
    RunM LoadedCatalog := do
  connect pin .read
  let catalog ← introspect pin.connectionId
  if mode = .liveNoCache ∨ isBlank pin.profile.database then pure (.introspected catalog)
  else
    let snapshot ← catalog.toSnapshot pin.profile
    writeThrough pin ⟨snapshot, catalog.since⟩
    pure (.introspected catalog)

/-- `load_catalog`. -/
def loadCatalog (connectionId : Uuid) (mode : CatalogReadMode) : RunM LoadedCatalog := do
  match ← readCache connectionId mode with
  | (_, some cached) => pure (.canonical cached)
  | (pin, none) => introspectAndMaybeStore pin mode

/-- The check of `load_catalog_snapshot` before it introspects. -/
def checkDatabase (pin : PinnedConnection) : AppResult Unit :=
  refuseIf (isBlank pin.profile.database) (.config "Catalog V2 requires an explicit database name")

/-- `load_catalog_snapshot`. -/
def loadCatalogSnapshot (connectionId : Uuid) (mode : CatalogReadMode) : RunM LoadedCatalog := do
  match ← readCache connectionId mode with
  | (_, some cached) => pure (.canonical cached)
  | (pin, none) => do
      connect pin .read
      checkDatabase pin
      let catalog ← introspect pin.connectionId
      let snapshot ← catalog.toSnapshot pin.profile
      if mode ≠ .liveNoCache then writeThrough pin ⟨snapshot, catalog.since⟩
      pure (.canonical ⟨snapshot, catalog.since⟩)

end Runs
end AgentDb
