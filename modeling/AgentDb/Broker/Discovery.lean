import AgentDb.Error
import AgentDb.Lib.Crew
import AgentDb.Protocol.Discovery

/-!
# The discovery file: `broker/discovery.rs` and the CLI's `client.rs`

A desktop runtime publishes its record in one file: it writes a file of its own beside it and
renames that into place. It removes the record when it ends, and a CLI client removes the record
of a runtime that has died; each reads the file first, and removes it by its path. Every call of
the file system is one step. A crash is a task that is never answered again.

A file is named by the call of `publish` that creates it, since the name of the temporary file is
a fresh UUID. Of permissions nothing is kept: a check of them may go either way.
-/

namespace AgentDb
namespace Broker
namespace Discovery

open Crew Program Protocol

/-! ### The file system -/

variable {κ : Type}

/-- What a remover has found out before it removes: the file it has opened, the runtime the record
in it is of, and whether its process was found dead. The file system looks at none of it. -/
structure Check (κ : Type) where
  file : κ
  runtimeId : Uuid
  foundDead : Bool

/-- A call of the file system, or a look at a process; at last, the end of a process. -/
inductive Access (κ : Type)
  | createDirectory
  | restrictDirectory
  | createNew (file : κ)
  | write (file : κ) (bytes : List UInt8)
  | syncAll (file : κ)
  | restrict (file : κ)
  | rename (file : κ)
  | restrictPath
  | syncDirectory
  | removeTemporary (file : κ)
  | metadata
  | openPath
  | permissions (file : κ)
  | read (file : κ)
  | isAlive (pid : ℕ)
  | removeFile (check : Check κ)
  | processEnds (runtimeId : Uuid)

/-- What a call answers; an error is its text. -/
abbrev Answer : Access κ → Type
  | .metadata => Option ℕ
  | .openPath => Option κ
  | .permissions _ => Bool
  | .read _ => Option (List UInt8)
  | .isAlive _ => Bool
  | _ => Except String Unit

/-- The directory of the runtime file, and the files that were ever in it. -/
structure Disk (κ : Type) where
  /-- The runtime file. -/
  path : Option κ
  temporary : κ → Bool
  content : κ → List UInt8
  /-- The files that have been the runtime file at some time. -/
  placed : κ → Prop
  /-- The runtimes whose process has ended. -/
  ended : Uuid → Prop

section Answered

variable [DecidableEq κ]

/-- What a call does. A failed call does nothing, but for a write that may have written a part.
`record` is the record a call of `publish` is about: a process is alive while one of the runtimes
that have a record in place and this process has not ended. -/
def Answered (record : κ → Option RuntimeDiscovery) (s : Disk κ) :
    (c : Access κ) → Answer c → Disk κ → Prop
  | .createNew file, .ok _, s' => s' = { s with
      temporary := Function.update s.temporary file true
      content := Function.update s.content file [] }
  | .write file bytes, .ok _, s' => s' = { s with
      content := Function.update s.content file (s.content file ++ bytes) }
  | .write file bytes, .error _, s' => ∃ part, part <+: bytes ∧ s' = { s with
      content := Function.update s.content file (s.content file ++ part) }
  | .rename file, .ok _, s' => s.temporary file = true ∧ s' = { s with
      path := some file
      temporary := Function.update s.temporary file false
      placed := fun f => f = file ∨ s.placed f }
  | .removeTemporary file, .ok _, s' => s' = { s with
      temporary := Function.update s.temporary file false }
  | .metadata, found, s' => s' = s ∧
      ∀ length, found = some length → ∃ file, s.path = some file ∧
        length = (s.content file).length
  | .openPath, found, s' => s' = s ∧ ∀ file, found = some file → s.path = some file
  | .permissions _, _, s' => s' = s
  | .read file, found, s' => s' = s ∧ ∀ bytes, found = some bytes → bytes = s.content file
  | .isAlive pid, alive, s' => s' = s ∧ (alive = false → ∀ file, s.placed file →
      ∀ d, record file = some d → d.pid = pid → s.ended d.runtimeId)
  | .removeFile _, .ok _, s' => s.path ≠ none ∧ s' = { s with path := none }
  | .processEnds runtimeId, .ok _, s' => s' = { s with
      ended := fun id => id = runtimeId ∨ s.ended id }
  | _, _, s' => s' = s

end Answered

/-! ### The functions -/

/-- `serde_json`, as it is used here: the writes of `to_writer`, and `from_slice`. -/
structure Serde where
  toWriter : RuntimeDiscovery → List (List UInt8)
  toWriter_flatten : ∀ d, (toWriter d).flatten = RuntimeDiscovery.serializer.toVec d
  fromSlice : List UInt8 → Option RuntimeDiscovery
  fromSlice_text : ∀ d, fromSlice d.text = some d

/-- What a call comes back with. -/
inductive Outcome
  | published (result : AppResult Unit)
  | removed
  | found (discovery : Option RuntimeDiscovery)
  | ended

/-- A call under way. -/
abbrev Run (κ : Type) := Program (Access κ) Answer Outcome

/-- `DISCOVERY_MAX_BYTES`. -/
def discoveryMaxBytes : ℕ := 64 * 1024

section Functions

variable (serde : Serde)

/-- The writes of a list of chunks, until one fails. -/
def writeAll (file : κ) (fail : String → Run κ) (next : Run κ) : List (List UInt8) → Run κ
  | [] => next
  | chunk :: chunks => .call (.write file chunk) fun
      | .ok _ => writeAll file fail next chunks
      | .error e => fail e

/-- A failed publication removes its temporary file. -/
def undo (file : κ) (e : String) : Run κ :=
  .call (.removeTemporary file) fun _ => .done (.published (.error (.io e)))

/-- `publish` from the rename on. -/
def place (file : κ) : Run κ :=
  .call (.rename file) fun
    | .error e => undo file e
    | .ok _ => .call .restrictPath fun
        | .error e => undo file e
        | .ok _ => .call .syncDirectory fun _ => .done (.published (.ok ()))

/-- `publish` from the last byte on. -/
def sync (file : κ) : Run κ :=
  .call (.syncAll file) fun
    | .error e => undo file e
    | .ok _ => .call (.restrict file) fun
        | .error e => undo file e
        | .ok _ => place file

/-- `publish`, with its temporary file. -/
def publish (file : κ) (discovery : RuntimeDiscovery) : Run κ :=
  match discovery.validate with
  | .error _ => .done (.published (.error (.config "runtime discovery metadata is invalid")))
  | .ok _ => .call .createDirectory fun
      | .error e => .done (.published (.error (.io e)))
      | .ok _ => .call .restrictDirectory fun
          | .error e => .done (.published (.error (.io e)))
          | .ok _ => .call (.createNew file) fun
              | .error e => undo file e
              | .ok _ => writeAll file (undo file) (sync file)
                  (serde.toWriter discovery ++ [[10]])

/-- `remove_if_owned`. -/
def removeIfOwned (runtimeId : Uuid) : Run κ :=
  .call .openPath fun
    | none => .done .removed
    | some file => .call (.read file) fun
        | none => .done .removed
        | some bytes =>
            if (serde.fromSlice bytes).any (·.runtimeId = runtimeId) then
              .call (.removeFile ⟨file, runtimeId, false⟩) fun _ => .done .removed
            else .done .removed

/-- What the CLI makes of the bytes of the file. -/
def parseDiscovery (bytes : List UInt8) : Option RuntimeDiscovery :=
  let bytes := bytes.take (discoveryMaxBytes + 1)
  if bytes.isEmpty ∨ bytes.length > discoveryMaxBytes then none
  else (serde.fromSlice bytes).filter fun discovery => discovery.validate.isOk

/-- `read_discovery` of the CLI, and what is done with the file and the record it finds. -/
def readDiscovery (next : Option (κ × RuntimeDiscovery) → Run κ) : Run κ :=
  .call .metadata fun
    | none => next none
    | some length =>
        if length = 0 ∨ length > discoveryMaxBytes then next none
        else .call .openPath fun
          | none => next none
          | some file => .call (.permissions file) fun
              | false => next none
              | true => .call (.read file) fun
                  | none => next none
                  | some bytes => next ((parseDiscovery serde bytes).map (file, ·))

/-- `remove_stale_discovery`. -/
def removeStaleDiscovery (runtimeId : Uuid) : Run κ :=
  readDiscovery serde fun
    | none => .done .removed
    | some (file, discovery) =>
        if discovery.runtimeId = runtimeId then
          .call (.isAlive discovery.pid) fun
            | true => .done .removed
            | false => .call (.removeFile ⟨file, runtimeId, true⟩) fun _ => .done .removed
        else .done .removed

/-- `BrokerClient::discover`, up to the checks of the endpoint and of the protocol. -/
def discover : Run κ :=
  readDiscovery serde fun
    | none => .done (.found none)
    | some (_, discovery) => .call (.isAlive discovery.pid) fun
        | true => .done (.found (some discovery))
        | false => removeStaleDiscovery serde discovery.runtimeId

/-- A call on the discovery file, or the end of the process of a runtime. -/
inductive Op
  | publish (discovery : RuntimeDiscovery)
  | removeIfOwned (runtimeId : Uuid)
  | readDiscovery
  | removeStaleDiscovery (runtimeId : Uuid)
  | discover
  | processEnds (runtimeId : Uuid)

/-- The program of the call `k`. -/
def Op.program (k : κ) : Op → Run κ
  | .publish discovery => Discovery.publish serde k discovery
  | .removeIfOwned runtimeId => Discovery.removeIfOwned serde runtimeId
  | .readDiscovery => Discovery.readDiscovery serde fun found => .done (.found (found.map Prod.snd))
  | .removeStaleDiscovery runtimeId => Discovery.removeStaleDiscovery serde runtimeId
  | .discover => Discovery.discover serde
  | .processEnds runtimeId => .call (.processEnds runtimeId) fun _ => .done .ended

/-- The record a call publishes. -/
def Op.record : Op → Option RuntimeDiscovery
  | .publish discovery => some discovery
  | _ => none

end Functions

end Discovery
end Broker
end AgentDb
