import AgentDb.Connection.Access
import AgentDb.Lib.RefCount
import AgentDb.Lib.RwLock

/-!
# Pools and managed leases: `connection/runtime.rs`

The connection cache as its tasks see it: the slots with their mutexes, the shared entries with
their counted owners, the managed credential leases and where they are, and the clock. A task goes
from one await to the next; what the control plane, the store and the drivers answer is part of
its move, so each may fail or take any time.
-/

namespace AgentDb
namespace Connection

open Store

/-! ### Keys, entries and slots -/

/-- `ConnectionCacheKey`. -/
structure ConnectionCacheKey where
  workspaceId : Uuid
  accountScope : AccountScope
  scopeGeneration : ℕ
  connectionId : Uuid
  connectionRevision : ℤ
  bindingRevision : ℤ
  bindingUpdatedAt : String
  access : ConnectionAccess
  deriving DecidableEq

/-- The pin and the access of a `ConnectionContext`. -/
structure Context where
  pin : PinnedConnection
  access : ConnectionAccess

/-- `ConnectionCacheKey::new`: only managed pools are apart for reading and writing. -/
def Context.key (c : Context) : ConnectionCacheKey where
  workspaceId := c.pin.scope.workspaceId
  accountScope := c.pin.scope.accountScope
  scopeGeneration := c.pin.scope.generation
  connectionId := c.pin.connectionId
  connectionRevision := c.pin.connectionRevision
  bindingRevision := c.pin.bindingRevision
  bindingUpdatedAt := c.pin.bindingUpdatedAt
  access := if c.pin.profile.credentialMode = .managed then c.access else .read

abbrev TaskId := ℕ
abbrev SlotId := ℕ
abbrev EntryId := ℕ
abbrev LeaseId := ℕ

/-- `CacheEntry`, with the context that opened it and the lease it was opened with. The lease is
`managed` until it is taken for release. -/
structure CacheEntry where
  opener : Context
  generation : ℕ
  retireAt : Option ℕ
  issued : Option LeaseId
  managed : Option LeaseId

/-- Who holds a share of an entry: a slot, a task that uses it, a task that retires it. -/
inductive Owner
  | slot (sid : SlotId)
  | user (t : TaskId)
  | retirer (t : TaskId)
  deriving DecidableEq

/-- `Mutex<ConnectionSlot>`, with the task that has locked it for longer than a moment. -/
structure ConnectionSlot where
  key : ConnectionCacheKey
  lockedBy : Option TaskId
  entry : Option EntryId

def ConnectionSlot.lock (t : TaskId) (slot : ConnectionSlot) : ConnectionSlot :=
  { slot with lockedBy := some t }

def ConnectionSlot.unlock (slot : ConnectionSlot) : ConnectionSlot := { slot with lockedBy := none }

def ConnectionSlot.take (slot : ConnectionSlot) : ConnectionSlot := { slot with entry := none }

/-- The slot as the task that has opened its entry leaves it. -/
def ConnectionSlot.fill (e : EntryId) (slot : ConnectionSlot) : ConnectionSlot :=
  { slot with lockedBy := none, entry := some e }

/-- Where the handle of a managed lease is. -/
inductive LeasePlace
  | unissued
  | task (t : TaskId)
  | entry (e : EntryId)
  | handed
  deriving DecidableEq

/-- What `schedule_expiry` has spawned and no thread has started yet. -/
structure Timer where
  slot : SlotId
  generation : ℕ
  wakeAt : ℕ

/-- Everything the tasks share but the gate. `handed` lists the leases in the order in which they
were handed to release. -/
structure Memory where
  now : ℕ
  slots : Table ConnectionCacheKey SlotId
  slot : SlotId → ConnectionSlot
  entry : EntryId → Rc Owner CacheEntry
  lease : LeaseId → LeasePlace
  nextSlot : SlotId
  nextEntry : EntryId
  nextLease : LeaseId
  nextGeneration : ℕ
  handed : List LeaseId
  timers : List Timer

namespace Memory

variable (m : Memory)

/-- `cache_entry_expired`. -/
def expired (retireAt : Option ℕ) : Bool := retireAt.any (· ≤ m.now)

def setSlot (sid : SlotId) (slot : ConnectionSlot) : Memory :=
  { m with slot := Function.update m.slot sid slot }

def setEntry (e : EntryId) (entry : Rc Owner CacheEntry) : Memory :=
  { m with entry := Function.update m.entry e entry }

/-- The slot of a key, made if it is not there. -/
def lookup (key : ConnectionCacheKey) : SlotId × Memory :=
  match m.slots.get key with
  | some sid => (sid, m)
  | none => (m.nextSlot,
      { m.setSlot m.nextSlot ⟨key, none, none⟩ with
        slots := m.slots.put key m.nextSlot
        nextSlot := m.nextSlot + 1 })

def lock (sid : SlotId) (t : TaskId) : Memory :=
  m.setSlot sid ((m.slot sid).lock t)

def unlock (sid : SlotId) : Memory := m.setSlot sid (m.slot sid).unlock

/-- `Arc::clone` of an entry. -/
def cloneEntry (e : EntryId) (o : Owner) : Memory := m.setEntry e ((m.entry e).clone o)

/-- The lease is handed to `release`. -/
def hand (lease : LeaseId) : Memory :=
  { m with lease := Function.update m.lease lease .handed, handed := m.handed ++ [lease] }

/-- `take_managed_lease`, whose caller hands the lease to release. -/
def takeManagedLease (e : EntryId) : Memory :=
  match (m.entry e).value.managed with
  | none => m
  | some lease =>
      (m.hand lease).setEntry e
        { m.entry e with value := { (m.entry e).value with managed := none } }

/-- A share is dropped; with the last one `CacheEntry::drop` takes the lease. -/
def dropEntry (e : EntryId) (o : Owner) : Memory :=
  let m := m.setEntry e ((m.entry e).drop o)
  if (m.entry e).owners = [] then m.takeManagedLease e else m

/-- An unwrapped entry is gone, closed or dropped; either way its lease is taken. -/
def freeEntry (e : EntryId) : Memory :=
  (m.setEntry e { m.entry e with owners := [] }).takeManagedLease e

/-- The share of a slot goes to a task. -/
def detachEntry (sid : SlotId) (e : EntryId) (t : TaskId) : Memory :=
  (m.setSlot sid (m.slot sid).take).setEntry e
    ((m.entry e).move (.slot sid) (.retirer t))

/-- `entry.take()` on a locked slot. -/
def takeEntry (sid : SlotId) (t : TaskId) : Option EntryId × Memory :=
  match (m.slot sid).entry with
  | none => (none, m)
  | some e => (some e, m.detachEntry sid e t)

/-- A managed lease is issued to the task. -/
def issue (t : TaskId) : LeaseId × Memory :=
  (m.nextLease, { m with
    lease := Function.update m.lease m.nextLease (.task t)
    nextLease := m.nextLease + 1 })

/-- The opened pool becomes the entry of its slot, which is unlocked, and is shared with the task
that has opened it. -/
def install (sid : SlotId) (t : TaskId) (opener : Context) (lease : Option LeaseId)
    (retireAt : Option ℕ) (generation : ℕ) : EntryId × Memory :=
  let e := m.nextEntry
  let places := match lease with
    | some lease => Function.update m.lease lease (.entry e)
    | none => m.lease
  let timers : List Timer := match retireAt with
    | some wakeAt => [⟨sid, generation, wakeAt⟩]
    | none => []
  let m := { m with lease := places, nextEntry := e + 1, timers := m.timers ++ timers }
  (e, (m.setSlot sid ((m.slot sid).fill e)).setEntry e
    ⟨[.slot sid, .user t], ⟨opener, generation, retireAt, lease, lease⟩⟩)

end Memory

/-! ### Tasks -/

/-- How far `retire_entries` is with an entry: not looked at, shared by others, or its own. -/
inductive Retirement
  | taken
  | shared
  | owned
  deriving DecidableEq

/-- Where a call of `ConnectionContext::connect` stands, and the lease it has returned. -/
inductive ConnectStage
  | waiting
  | entered
  | looking (c : Context)
  | locking (c : Context) (sid : SlotId)
  | cached (c : Context) (sid : SlotId) (e : EntryId)
  | handOff (c : Context) (sid : SlotId) (e : EntryId)
  | relocking (c : Context) (sid : SlotId) (e : EntryId)
  | dropping (c : Context) (sid : SlotId) (e : EntryId)
  | looping (c : Context) (sid : SlotId)
  | opening (c : Context) (sid : SlotId)
  | connecting (c : Context) (sid : SlotId) (lease : LeaseId) (retireAt : ℕ)
  | failed (sid : SlotId)
  | opened (c : Context) (sid : SlotId) (lease : Option LeaseId) (retireAt : Option ℕ)
  | verified (c : Context) (sid : SlotId) (lease : Option LeaseId) (retireAt : Option ℕ)
  | closing (lease : Option LeaseId)
  | leased (c : Context) (e : EntryId) (handedOffAt : ℕ)
  | leaving
  | ended

/-- Where a scope operation or a `ConnectionMutation` stands. -/
inductive MutationStage
  | waiting
  | held
  | detaching (keys : List ConnectionCacheKey)
  | taking (sid : SlotId) (keys : List ConnectionCacheKey)
  | retiring
  | ended

inductive Stage
  | idle
  | connect (stage : ConnectStage)
  | timer (timer : Timer)
  | fired
  | mutation (stage : MutationStage)

/-- A task, with the entries that it retires. -/
structure Task where
  stage : Stage
  retiring : List (EntryId × Retirement)

/-- The stage holds the read side of the gate. -/
def ConnectStage.reads : ConnectStage → Bool
  | .waiting | .ended => false
  | _ => true

/-- The stage holds the write side of the gate. -/
def MutationStage.writes : MutationStage → Bool
  | .held | .detaching _ | .taking _ _ => true
  | .waiting | .retiring | .ended => false

def Stage.reads : Stage → Bool
  | .connect stage => stage.reads
  | _ => false

def Stage.writes : Stage → Bool
  | .mutation stage => stage.writes
  | _ => false

/-- A move of a task, with the answer it gets from outside. -/
inductive Move
  | pin (c : Context)
  | refuse
  | lookup
  | acquire
  | verify (ok : Bool)
  | handOff
  | relock
  | dropClone
  | again
  | open_ (ok : Bool)
  | issue (validFor : Option ℕ)
  | driver (ok : Bool)
  | unlock
  | install
  | close
  | dropLease
  | leave
  | fire
  | detach (ids : Option (List Uuid))
  | remove
  | take
  | publish
  | finish
  | tryUnwrap (e : EntryId)
  | dropShared (e : EntryId)
  | retire (e : EntryId) (closed : Bool)

/-- What `take` has taken is retired. -/
def taken : Option EntryId → List (EntryId × Retirement)
  | some e => [(e, .taken)]
  | none => []

/-- When a lease has to be retired: some time before it expires. -/
def retireAt (now validFor : ℕ) : ℕ := now + max (validFor - 30000) 1000

/-- The moves of `ConnectionContext::connect`, from the pin to the end of the lease. -/
def connectStep (move : Move) (m : Memory) (t : TaskId) (retiring : List (EntryId × Retirement)) :
    ConnectStage → Option (ConnectStage × List (EntryId × Retirement) × Memory) := fun stage =>
  match stage, move with
  | .entered, .pin c => some (.looking c, retiring, m)
  | .entered, .refuse => some (.leaving, retiring, m)
  | .looking c, .lookup =>
      let (sid, m) := m.lookup c.key
      some (.locking c sid, retiring, m)
  | .locking c sid, .acquire =>
      -- the mutex is fair, but who gets it next does not matter here
      if (m.slot sid).lockedBy ≠ none then none
      else match (m.slot sid).entry with
        | some e =>
            if m.expired (m.entry e).value.retireAt then
              let (e, m) := m.takeEntry sid t
              some (.looping c sid, retiring ++ taken e, m)
            else some (.cached c sid e, retiring, m.cloneEntry e (.user t))
        | none => some (.opening c sid, retiring, m.lock sid t)
  | .cached c sid e, .verify true => some (.handOff c sid e, retiring, m)
  | .cached _ _ e, .verify false => some (.leaving, retiring, m.dropEntry e (.user t))
  | .handOff c sid e, .handOff =>
      if m.expired (m.entry e).value.retireAt then some (.relocking c sid e, retiring, m)
      else some (.leased c e m.now, retiring, m)
  | .relocking c sid e, .relock =>
      if (m.slot sid).lockedBy ≠ none then none
      else if (m.slot sid).entry = some e then
        let (e', m) := m.takeEntry sid t
        some (.dropping c sid e, retiring ++ taken e', m)
      else some (.dropping c sid e, retiring, m)
  | .dropping c sid e, .dropClone => some (.looping c sid, retiring, m.dropEntry e (.user t))
  | .looping c sid, .again => if retiring = [] then some (.locking c sid, [], m) else none
  | .opening c sid, .open_ ok =>
      if c.pin.profile.credentialMode = .managed then none
      else if ok then some (.opened c sid none none, retiring, m)
      else some (.failed sid, retiring, m)
  | .opening c sid, .issue validFor =>
      if c.pin.profile.credentialMode ≠ .managed then none
      else match validFor with
        | none => some (.failed sid, retiring, m)
        | some validFor =>
            let (lease, m) := m.issue t
            some (.connecting c sid lease (retireAt m.now validFor), retiring, m)
  | .connecting c sid lease retireAt, .driver true =>
      some (.opened c sid (some lease) (some retireAt), retiring, m)
  | .connecting _ sid lease _, .driver false => some (.failed sid, retiring, m.hand lease)
  | .failed sid, .unlock => some (.leaving, retiring, m.unlock sid)
  | .opened c sid lease retireAt, .verify true => some (.verified c sid lease retireAt, retiring, m)
  | .opened _ sid lease _, .verify false => some (.closing lease, retiring, m.unlock sid)
  | .verified c sid lease retireAt, .install =>
      let generation := m.nextGeneration
      let m := { m with nextGeneration := generation + 1 }
      if m.expired retireAt then some (.closing lease, retiring, m.unlock sid)
      else
        let (e, m) := m.install sid t c lease retireAt generation
        some (.leased c e m.now, retiring, m)
  | .closing lease, .close =>
      some (.leaving, retiring, match lease with | some lease => m.hand lease | none => m)
  | .leased _ e _, .dropLease => some (.leaving, retiring, m.dropEntry e (.user t))
  | .leaving, .leave => some (.ended, retiring, m)
  | _, _ => none

/-- The keys that `retire_connections` or `detach_all` collects. -/
def Memory.keys (m : Memory) (ids : Option (List Uuid)) : List ConnectionCacheKey :=
  (m.slots.rows.map Prod.fst).filter fun key => ids.all (key.connectionId ∈ ·)

/-- The moves of a scope operation or a `ConnectionMutation` that has the gate. -/
def mutationStep (move : Move) (m : Memory) (t : TaskId) (retiring : List (EntryId × Retirement)) :
    MutationStage → Option (MutationStage × List (EntryId × Retirement) × Memory) := fun stage =>
  match stage, move with
  | .held, .refuse => some (.ended, retiring, m)
  | .held, .detach ids => some (.detaching (m.keys ids), retiring, m)
  | .detaching (key :: keys), .remove =>
      match m.slots.get key with
      | none => some (.detaching keys, retiring, m)
      | some sid =>
          let slots := m.slots.filterRows fun k _ => k ≠ key
          some (.taking sid keys, retiring, { m with slots })
  | .taking sid keys, .take =>
      if (m.slot sid).lockedBy ≠ none then none
      else
        let (e, m) := m.takeEntry sid t
        some (.detaching keys, retiring ++ taken e, m)
  | .detaching [], .publish => some (.retiring, retiring, m)
  | .retiring, .finish => if retiring = [] then some (.ended, [], m) else none
  | _, _ => none

/-- The task of `schedule_expiry`. -/
def timerStep (move : Move) (m : Memory) (t : TaskId) (retiring : List (EntryId × Retirement))
    (timer : Timer) : Option (List (EntryId × Retirement) × Memory) :=
  match move with
  | .fire =>
      if m.now < timer.wakeAt ∨ (m.slot timer.slot).lockedBy ≠ none then none
      else if (m.slot timer.slot).entry.any fun e =>
          (m.entry e).value.generation = timer.generation then
        let (e, m) := m.takeEntry timer.slot t
        some (retiring ++ taken e, m)
      else some (retiring, m)
  | _ => none

/-- The moves of `retire_entries`. An entry that is still shared is left to its last owner; one
that is not is closed, unless the timeout drops it first. -/
def retireStep (move : Move) (m : Memory) (t : TaskId) (retiring : List (EntryId × Retirement)) :
    Option (List (EntryId × Retirement) × Memory) :=
  match move with
  | .tryUnwrap e =>
      if (e, .taken) ∈ retiring then
        let next := if (m.entry e).owners = [.retirer t] then Retirement.owned else .shared
        some ((e, next) :: retiring.erase (e, .taken), m)
      else none
  | .dropShared e =>
      if (e, .shared) ∈ retiring then
        some (retiring.erase (e, .shared), m.dropEntry e (.retirer t))
      else none
  | .retire e _ =>
      if (e, .owned) ∈ retiring then some (retiring.erase (e, .owned), m.freeEntry e) else none
  | _ => none

/-- One move of a task. -/
def Task.step (move : Move) (m : Memory) (t : TaskId) (task : Task) : Option (Task × Memory) :=
  match retireStep move m t task.retiring with
  | some (retiring, m) => some ({ task with retiring }, m)
  | none =>
      match task.stage with
      | .idle | .fired => none
      | .connect stage =>
          (connectStep move m t task.retiring stage).map fun out =>
            (⟨.connect out.1, out.2.1⟩, out.2.2)
      | .timer timer =>
          (timerStep move m t task.retiring timer).map fun out => (⟨.fired, out.1⟩, out.2)
      | .mutation stage =>
          (mutationStep move m t task.retiring stage).map fun out =>
            (⟨.mutation out.1, out.2.1⟩, out.2.2)

/-! ### The system -/

/-- The memory, the gate and the tasks. -/
structure System where
  mem : Memory
  gate : RwLock TaskId
  task : TaskId → Task

def System.setTask (s : System) (t : TaskId) (task : Task) : System :=
  { s with task := Function.update s.task t task }

/-- A step of the system: a call begins, a timer starts, a task gets the gate or moves, time
passes. -/
inductive Label
  | connect (t : TaskId)
  | mutate (t : TaskId)
  | startTimer (t : TaskId)
  | grant (t : TaskId)
  | move (t : TaskId) (move : Move)
  | tick (by_ : ℕ)

/-- The task has the gate and goes on. -/
def Stage.enter : Stage → Option Stage
  | .connect .waiting => some (.connect .entered)
  | .mutation .waiting => some (.mutation .held)
  | _ => none

/-- A task that does nothing. -/
def Task.isIdle (task : Task) : Bool :=
  match task with
  | ⟨.idle, []⟩ => true
  | _ => false

/-- A step of the system; a step that nobody can take is an error and changes nothing. -/
def System.step (label : Label) (s : System) : Except Unit System :=
  match label with
  | .connect t =>
      if (s.task t).isIdle then
        .ok ({ s with gate := s.gate.request t .read }.setTask t ⟨.connect .waiting, []⟩)
      else .error ()
  | .mutate t =>
      if (s.task t).isIdle then
        .ok ({ s with gate := s.gate.request t .write }.setTask t ⟨.mutation .waiting, []⟩)
      else .error ()
  | .startTimer t =>
      match (s.task t).isIdle, s.mem.timers with
      | true, timer :: timers =>
          .ok ({ s with mem := { s.mem with timers } }.setTask t ⟨.timer timer, []⟩)
      | _, _ => .error ()
  | .grant t =>
      match s.gate.grant t, (s.task t).stage.enter with
      | some gate, some stage => .ok ({ s with gate }.setTask t { s.task t with stage })
      | _, _ => .error ()
  | .move t move =>
      match (s.task t).step move s.mem t with
      | some (task, mem) =>
          let before := (s.task t).stage
          let gone := (before.reads && !task.stage.reads) || (before.writes && !task.stage.writes)
          .ok ({ s with mem, gate := if gone then s.gate.release t else s.gate }.setTask t task)
      | none => .error ()
  | .tick by_ => .ok { s with mem := { s.mem with now := s.mem.now + by_ } }

end Connection
end AgentDb
