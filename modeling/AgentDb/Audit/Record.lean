import AgentDb.Audit.Chain
import AgentDb.Error
import Mathlib.Logic.Function.Basic

/-!
# Records of the audit log: `record`, `snapshot` and `verify_chain` of `audit/mod.rs`

All chains share one table, and a record reads the tail of its chain in one statement and inserts
behind it in another. The audit lock keeps the two together: a run of any number of records leaves
every connection's rows one verified chain, with one row for each record that returned its entry.
-/

namespace AgentDb
namespace Audit

/-- `RecordArgs`. -/
structure RecordArgs where
  connectionId : Uuid
  engine : Engine
  agentPrompt : Option String
  sql : String
  kind : QueryKind
  action : String
  approvedBy : Option String
  affectedEstimate : Option ℤ
  error : Option String

/-- A call of `record`, with the id and the instant that it chooses before it waits. -/
structure RecordCall extends RecordArgs where
  id : Uuid
  ts : DateTime

/-- A row of `audit_log`. -/
structure AuditRow where
  id : String
  connectionId : String
  ts : DateTime
  engine : String
  agentPrompt : Option String
  sql : String
  kind : String
  action : String
  approvedBy : Option String
  affectedEstimate : Option ℤ
  error : Option String
  prevHash : Option String
  hash : String

/-- The `AuditFields` that a call hashes. -/
def RecordCall.fields (a : RecordCall) : AuditFields where
  connectionId := a.connectionId
  ts := a.ts
  engine := a.engine
  agentPrompt := a.agentPrompt
  sql := a.sql
  kind := a.kind
  action := a.action
  approvedBy := a.approvedBy
  affectedEstimate := a.affectedEstimate
  error := a.error

/-- The texts that `record` binds to the columns. -/
def AuditEntry.toRow (e : AuditEntry) : AuditRow where
  id := e.id.toText
  connectionId := e.connectionId.toText
  ts := e.ts
  engine := engineStr e.engine
  agentPrompt := e.agentPrompt
  sql := e.sql
  kind := kindStr e.kind
  action := e.action
  approvedBy := e.approvedBy
  affectedEstimate := e.affectedEstimate
  error := e.error
  prevHash := e.prevHash
  hash := e.hash

/-- `parse_engine`. -/
def parseEngine : String → AppResult Engine
  | "postgres" => .ok .postgres
  | "mysql" => .ok .mysql
  | "sqlite" => .ok .sqlite
  | "mongodb" => .ok .mongodb
  | other => .error (.config ("unknown engine '" ++ other ++ "'"))

/-- `parse_kind`. -/
def parseKind : String → AppResult QueryKind
  | "read" => .ok .read
  | "write" => .ok .write
  | "ddl" => .ok .ddl
  | "privilege" => .ok .privilege
  | other => .error (.config ("unknown query kind '" ++ other ++ "'"))

theorem parseEngine_engineStr (e : Engine) : parseEngine (engineStr e) = .ok e := by
  cases e <;> rfl

theorem parseKind_kindStr (k : QueryKind) : parseKind (kindStr k) = .ok k := by
  cases k <;> rfl

section

variable (uuidFromStr : String → Except String Uuid) (sha256 : List UInt8 → Vector UInt8 32)

/-- `parse_uuid`; `uuidFromStr` is `Uuid::from_str` with the text of its error. -/
def parseUuid (s : String) : AppResult Uuid :=
  match uuidFromStr s with
  | .ok u => .ok u
  | .error e => .error (.config ("bad uuid '" ++ s ++ "': " ++ e))

/-- `row_to_audit`. -/
def rowToAudit (r : AuditRow) : AppResult AuditEntry := do
  let id ← parseUuid uuidFromStr r.id
  let connectionId ← parseUuid uuidFromStr r.connectionId
  let engine ← parseEngine r.engine
  let kind ← parseKind r.kind
  return {
    id, connectionId, ts := r.ts, engine, agentPrompt := r.agentPrompt, sql := r.sql, kind
    action := r.action, approvedBy := r.approvedBy, affectedEstimate := r.affectedEstimate
    error := r.error, prevHash := r.prevHash, hash := r.hash }

/-- `WHERE connection_id = ?1`, in the order of the rows. -/
def rowsOf (connectionId : Uuid) (rows : List AuditRow) : List AuditRow :=
  rows.filter (·.connectionId = connectionId.toText)

/-- `snapshot`. -/
def snapshot (rows : List AuditRow) (connectionId : Uuid) :
    AppResult (List AuditEntry × Bool × Option ℕ) := do
  let entries ← (rowsOf connectionId rows).mapM (rowToAudit uuidFromStr)
  let (ok, firstBadIndex) := verifyEntries sha256 entries
  return (entries.reverse, ok, firstBadIndex)

/-- `verify_chain`. -/
def verifyChain (rows : List AuditRow) (connectionId : Uuid) : AppResult (Bool × Option ℕ) := do
  let entries ← (rowsOf connectionId rows).mapM (rowToAudit uuidFromStr)
  return verifyEntries sha256 entries

/-! ### Records next to each other -/

/-- `SELECT hash … ORDER BY rowid DESC LIMIT 1`. -/
def tailHash (rows : List AuditRow) (connectionId : Uuid) : Option String :=
  (rowsOf connectionId rows).getLast?.map (·.hash)

/-- The entry of a record that chains onto `prevHash`. -/
def RecordCall.entry (a : RecordCall) (prevHash : Option String) : AuditEntry where
  toAuditFields := a.fields
  id := a.id
  prevHash
  hash := computeHash sha256 prevHash a.fields

/-- How far a call of `record` has come. -/
inductive Phase
  | waiting
  | locked
  | read (prevHash : Option String)
  | inserted (entry : AuditEntry)
  | returned (result : AppResult AuditEntry)

/-- Whether the call has its `_chain` guard. -/
def Phase.guarded : Phase → Bool
  | .waiting | .returned _ => false
  | .locked | .read _ | .inserted _ => true

/-- The entry of a call that has inserted its row. -/
def Phase.written : Phase → Option AuditEntry
  | .inserted entry | .returned (.ok entry) => some entry
  | _ => none

/-- What a call does next; a statement of SQLite may fail. -/
inductive Move (T : Type*)
  | acquire (t : T)
  | readTail (t : T) (fault : Option AppError)
  | insert (t : T) (fault : Option AppError)
  | return (t : T)

/-- The call that moves. -/
def Move.task {T : Type*} : Move T → T
  | .acquire t | .readTail t _ | .insert t _ | .return t => t

/-- `audit_log` in the order of its rowids, the holder of `audit_lock`, and the calls. -/
structure Log (T : Type*) where
  rows : List AuditRow := []
  lock : Option T := none
  phase : T → Phase := fun _ => .waiting

variable {T : Type*} [DecidableEq T] (calls : T → RecordCall)

/-- The call goes on to another phase. -/
def Log.enter (s : Log T) (t : T) (phase : Phase) : Log T :=
  { s with phase := Function.update s.phase t phase }

/-- The call returns, which drops its guard. -/
def Log.leave (s : Log T) (t : T) (result : AppResult AuditEntry) : Log T :=
  { s with phase := Function.update s.phase t (.returned result), lock := none }

/-- One move of `record`. The primary key admits no second row of an id. -/
def step (s : Log T) : Move T → Option (Log T)
  | .acquire t =>
      match s.phase t, s.lock with
      | .waiting, none => some ({ s with lock := some t }.enter t .locked)
      | _, _ => none
  | .readTail t fault =>
      match s.phase t, fault with
      | .locked, none => some (s.enter t (.read (tailHash s.rows (calls t).connectionId)))
      | .locked, some e => some (s.leave t (.error e))
      | _, _ => none
  | .insert t fault =>
      match s.phase t, fault with
      | .read prevHash, none =>
          let row := ((calls t).entry sha256 prevHash).toRow
          if s.rows.any (·.id = row.id) then none
          else some ({ s with rows := s.rows ++ [row] }.enter t
            (.inserted ((calls t).entry sha256 prevHash)))
      | .read _, some e => some (s.leave t (.error e))
      | _, _ => none
  | .return t =>
      match s.phase t with
      | .inserted entry => some (s.leave t (.ok entry))
      | _ => none

/-- A run of the calls from an empty table; `none` when a move is not possible where it stands. -/
def run (moves : List (Move T)) : Option (Log T) := moves.foldlM (step sha256 calls) {}

end

/-! ### What a move does -/

variable {uuidFromStr : String → Except String Uuid} {sha256 : List UInt8 → Vector UInt8 32}
  {T : Type*} [DecidableEq T] {calls : T → RecordCall} {s s' : Log T} {m : Move T}
  {moves : List (Move T)} {es : List (T × AuditEntry)} {c : Uuid}

/-- The moves that are possible in a state, and where they lead. -/
inductive Stepped (sha256 : List UInt8 → Vector UInt8 32) (calls : T → RecordCall) (s : Log T) :
    Move T → Log T → Prop
  | acquire (t : T) (hphase : s.phase t = .waiting) (hlock : s.lock = none) :
      Stepped sha256 calls s (.acquire t) ({ s with lock := some t }.enter t .locked)
  | readTail (t : T) (hphase : s.phase t = .locked) :
      Stepped sha256 calls s (.readTail t none)
        (s.enter t (.read (tailHash s.rows (calls t).connectionId)))
  | readFailed (t : T) (e : AppError) (hphase : s.phase t = .locked) :
      Stepped sha256 calls s (.readTail t (some e)) (s.leave t (.error e))
  | insert (t : T) (p : Option String) (hphase : s.phase t = .read p)
      (hnew : s.rows.any (·.id = (calls t).id.toText) = false) :
      Stepped sha256 calls s (.insert t none)
        ({ s with rows := s.rows ++ [((calls t).entry sha256 p).toRow] }.enter t
          (.inserted ((calls t).entry sha256 p)))
  | insertFailed (t : T) (p : Option String) (e : AppError) (hphase : s.phase t = .read p) :
      Stepped sha256 calls s (.insert t (some e)) (s.leave t (.error e))
  | return (t : T) (e : AuditEntry) (hphase : s.phase t = .inserted e) :
      Stepped sha256 calls s (.return t) (s.leave t (.ok e))

theorem step_eq_some : step sha256 calls s m = some s' ↔ Stepped sha256 calls s m s' := by
  constructor
  · intro h
    cases m with
    | acquire t =>
      simp only [step] at h
      split at h
      · rename_i hphase hlock
        rw [← Option.some.inj h]
        exact .acquire t hphase hlock
      · cases h
    | readTail t fault =>
      simp only [step] at h
      split at h
      · rename_i hphase
        rw [← Option.some.inj h]
        exact .readTail t hphase
      · rename_i e hphase
        rw [← Option.some.inj h]
        exact .readFailed t e hphase
      · cases h
    | insert t fault =>
      simp only [step] at h
      split at h
      · rename_i p hphase
        split at h
        · cases h
        · rename_i hnew
          rw [← Option.some.inj h]
          exact .insert t p hphase (Bool.eq_false_of_not_eq_true hnew)
      · rename_i p e hphase
        rw [← Option.some.inj h]
        exact .insertFailed t p e hphase
      · cases h
    | «return» t =>
      simp only [step] at h
      split at h
      · rename_i e hphase
        rw [← Option.some.inj h]
        exact .return t e hphase
      · cases h
  · intro h
    cases h with
    | acquire t hphase hlock => simp only [step, hphase, hlock]
    | readTail t hphase => simp only [step, hphase]
    | readFailed t e hphase => simp only [step, hphase]
    | insert t p hphase hnew =>
      simp only [step, hphase]
      exact if_neg (Bool.eq_false_iff.1 hnew)
    | insertFailed t p e hphase => simp only [step, hphase]
    | «return» t e hphase => simp only [step, hphase]

theorem run_nil : run sha256 calls [] = some {} := rfl

theorem run_snoc : run sha256 calls (moves ++ [m]) = some s' ↔
    ∃ s, run sha256 calls moves = some s ∧ Stepped sha256 calls s m s' := by
  simp only [run, List.foldlM_append, List.foldlM_cons, List.foldlM_nil, bind_pure,
    Option.bind_eq_bind, Option.bind_eq_some_iff, step_eq_some]

@[simp] theorem phase_enter_self (s : Log T) (t : T) (phase : Phase) :
    (s.enter t phase).phase t = phase := Function.update_self ..

theorem phase_enter_of_ne {t u : T} (hne : u ≠ t) (s : Log T) (phase : Phase) :
    (s.enter t phase).phase u = s.phase u := Function.update_of_ne hne ..

@[simp] theorem phase_leave_self (s : Log T) (t : T) (result : AppResult AuditEntry) :
    (s.leave t result).phase t = .returned result := Function.update_self ..

theorem phase_leave_of_ne {t u : T} (hne : u ≠ t) (s : Log T) (result : AppResult AuditEntry) :
    (s.leave t result).phase u = s.phase u := Function.update_of_ne hne ..

/-! ### What a run keeps -/

/-- The entries of a connection, in the order of their rows. -/
def chainOf (c : Uuid) (es : List (T × AuditEntry)) : List AuditEntry :=
  (es.map Prod.snd).filter (·.connectionId = c)

/-- The table holds the entries `es` of the calls that have inserted one, each connection's as a
linked chain, and what a call has read is still the tail: only it has the guard. -/
structure Sound (sha256 : List UInt8 → Vector UInt8 32) (calls : T → RecordCall) (s : Log T)
    (es : List (T × AuditEntry)) : Prop where
  rows : s.rows = es.map (·.2.toRow)
  nodup : (es.map Prod.fst).Nodup
  written : ∀ t e, (t, e) ∈ es ↔ (s.phase t).written = some e
  own : ∀ t e, (t, e) ∈ es → e.toAuditFields = (calls t).fields ∧ e.id = (calls t).id
  guard : ∀ t, (s.phase t).guarded = true → s.lock = some t
  tail : ∀ t p, s.phase t = .read p → p = tailHash s.rows (calls t).connectionId
  linked : ∀ c, HashChain.Linked (·.prevHash) (·.hash) none (chainOf c es)
  hashed : ∀ t e, (t, e) ∈ es → computeHash sha256 e.prevHash e.toAuditFields = e.hash

theorem rowsOf_map_toRow (c : Uuid) (entries : List AuditEntry) :
    rowsOf c (entries.map (·.toRow)) = (entries.filter (·.connectionId = c)).map (·.toRow) := by
  rw [rowsOf, List.filter_map]
  congr 1
  refine List.filter_congr fun e _ => ?_
  simp only [Function.comp_apply, AuditEntry.toRow, decide_eq_decide]
  exact Uuid.toText_injective.eq_iff

omit [DecidableEq T] in
theorem Sound.rowsOf_eq (h : Sound sha256 calls s es) (c : Uuid) :
    rowsOf c s.rows = (chainOf c es).map (·.toRow) := by
  rw [h.rows, chainOf, ← rowsOf_map_toRow, List.map_map]
  rfl

omit [DecidableEq T] in
/-- The tail that a call reads is the tip of its chain. -/
theorem Sound.tailHash_eq (h : Sound sha256 calls s es) (c : Uuid) :
    tailHash s.rows c = HashChain.tip (·.hash) none (chainOf c es) := by
  rw [tailHash, h.rowsOf_eq, HashChain.tip_none_eq_getLast?, List.getLast?_map, Option.map_map]
  rfl

omit [DecidableEq T] in
theorem sound_empty : Sound sha256 calls {} [] where
  rows := rfl
  nodup := List.nodup_nil
  written := by simp [Phase.written]
  own := by simp
  guard := by simp [Phase.guarded]
  tail := by simp
  linked _ := trivial
  hashed := by simp

/-- The holder of the guard goes on without a row. -/
theorem sound_enter (h : Sound sha256 calls s es) {t : T} {phase : Phase}
    (hlock : s.lock = some t) (hwritten : phase.written = (s.phase t).written)
    (htail : ∀ p, phase = .read p → p = tailHash s.rows (calls t).connectionId) :
    Sound sha256 calls (s.enter t phase) es where
  rows := h.rows
  nodup := h.nodup
  written u e := by
    rw [h.written]
    rcases eq_or_ne u t with rfl | hne
    · rw [phase_enter_self, hwritten]
    · rw [phase_enter_of_ne hne]
  own := h.own
  guard u hu := by
    rcases eq_or_ne u t with rfl | hne
    · exact hlock
    · rw [phase_enter_of_ne hne] at hu
      exact h.guard u hu
  tail u p hu := by
    rcases eq_or_ne u t with rfl | hne
    · rw [phase_enter_self] at hu
      exact htail p hu
    · rw [phase_enter_of_ne hne] at hu
      exact h.tail u p hu
  linked := h.linked
  hashed := h.hashed

/-- The holder of the guard returns. -/
theorem sound_leave (h : Sound sha256 calls s es) {t : T} {result : AppResult AuditEntry}
    (hlock : s.lock = some t) (hwritten : (Phase.returned result).written = (s.phase t).written) :
    Sound sha256 calls (s.leave t result) es := by
  have hentered := sound_enter h hlock hwritten (fun p hp => nomatch hp)
  refine ⟨h.rows, h.nodup, hentered.written, h.own, fun u hu => ?_, hentered.tail, h.linked,
    h.hashed⟩
  -- no one else has the guard
  rcases eq_or_ne u t with rfl | hne
  · rw [phase_leave_self] at hu
    cases hu
  · rw [phase_leave_of_ne hne] at hu
    exact absurd (Option.some.inj ((h.guard u hu).symm.trans hlock)) hne

omit [DecidableEq T] in
/-- The guard goes to a call while no one has it. -/
theorem sound_lock (h : Sound sha256 calls s es) (hlock : s.lock = none) (t : T) :
    Sound sha256 calls { s with lock := some t } es :=
  ⟨h.rows, h.nodup, h.written, h.own, fun u hu => (nomatch (h.guard u hu).symm.trans hlock),
    h.tail, h.linked, h.hashed⟩

omit [DecidableEq T] in
theorem chainOf_snoc (c : Uuid) (es : List (T × AuditEntry)) (t : T) (e : AuditEntry) :
    chainOf c (es ++ [(t, e)]) =
      if e.connectionId = c then chainOf c es ++ [e] else chainOf c es := by
  rw [chainOf, List.map_append, List.filter_append]
  by_cases hc : e.connectionId = c
  · rw [if_pos hc]
    simp [chainOf, hc]
  · rw [if_neg hc]
    simp [chainOf, hc]

/-- **An insert appends to the chain** that the call has read the tail of. -/
theorem sound_insert (h : Sound sha256 calls s es) {t : T} {p : Option String}
    (hphase : s.phase t = .read p) :
    Sound sha256 calls
      ({ s with rows := s.rows ++ [((calls t).entry sha256 p).toRow] }.enter t
        (.inserted ((calls t).entry sha256 p)))
      (es ++ [(t, (calls t).entry sha256 p)]) := by
  have hlock : s.lock = some t := h.guard t (by rw [hphase]; rfl)
  have hfresh : ∀ e, (t, e) ∉ es := fun e he => by
    rw [h.written, hphase] at he
    cases he
  refine ⟨?_, ?_, fun u e => ?_, fun u e he => ?_, fun u hu => ?_, fun u q hu => ?_, fun c => ?_,
    fun u e he => ?_⟩
  · rw [h.rows, List.map_append]
    rfl
  · rw [List.map_append, List.nodup_append]
    refine ⟨h.nodup, List.nodup_singleton _, fun a ha b hb hab => ?_⟩
    obtain ⟨⟨u, e⟩, he, rfl⟩ := List.mem_map.1 ha
    obtain rfl := List.mem_singleton.1 hb
    exact hfresh e (hab ▸ he)
  · rw [List.mem_append, List.mem_singleton, Prod.mk.injEq]
    rcases eq_or_ne u t with rfl | hne
    · rw [phase_enter_self]
      simp only [hfresh e, false_or, true_and, Phase.written, Option.some.injEq, eq_comm]
    · rw [phase_enter_of_ne hne, h.written]
      simp only [hne, false_and, or_false]
  · rcases List.mem_append.1 he with he | he
    · exact h.own u e he
    · obtain ⟨rfl, rfl⟩ := Prod.mk.inj (List.mem_singleton.1 he)
      exact ⟨rfl, rfl⟩
  · rcases eq_or_ne u t with rfl | hne
    · exact hlock
    · rw [phase_enter_of_ne hne] at hu
      exact h.guard u hu
  · -- the others have not read anything: they would have the guard
    rcases eq_or_ne u t with rfl | hne
    · rw [phase_enter_self] at hu
      cases hu
    · rw [phase_enter_of_ne hne] at hu
      have hguard := h.guard u (by rw [hu]; rfl)
      exact absurd (Option.some.inj (hguard.symm.trans hlock)) hne
  · rw [chainOf_snoc]
    split
    · rename_i hc
      refine (HashChain.linked_concat _ _).2 ⟨h.linked c, ?_⟩
      rw [← h.tailHash_eq, ← hc]
      exact h.tail t p hphase
    · exact h.linked c
  · rcases List.mem_append.1 he with he | he
    · exact h.hashed u e he
    · obtain ⟨rfl, rfl⟩ := Prod.mk.inj (List.mem_singleton.1 he)
      rfl

theorem sound_stepped (h : Sound sha256 calls s es) (hstep : Stepped sha256 calls s m s') :
    ∃ es', Sound sha256 calls s' es' := by
  cases hstep with
  | acquire t hphase hlock =>
    refine ⟨es, sound_enter (sound_lock h hlock t) rfl ?_ fun p hp => nomatch hp⟩
    rw [hphase]
    rfl
  | readTail t hphase =>
    refine ⟨es, sound_enter h (h.guard t (by rw [hphase]; rfl)) ?_ fun p hp => ?_⟩
    · rw [hphase]
      rfl
    · exact (Phase.read.inj hp).symm
  | readFailed t e hphase =>
    refine ⟨es, sound_leave h (h.guard t (by rw [hphase]; rfl)) ?_⟩
    rw [hphase]
    rfl
  | insert t p hphase hnew => exact ⟨_, sound_insert h hphase⟩
  | insertFailed t p e hphase =>
    refine ⟨es, sound_leave h (h.guard t (by rw [hphase]; rfl)) ?_⟩
    rw [hphase]
    rfl
  | «return» t e hphase =>
    refine ⟨es, sound_leave h (h.guard t (by rw [hphase]; rfl)) ?_⟩
    rw [hphase]
    rfl

theorem sound_run (h : run sha256 calls moves = some s) : ∃ es, Sound sha256 calls s es := by
  induction moves using List.reverseRecOn generalizing s with
  | nil =>
    obtain rfl := Option.some.inj h
    exact ⟨[], sound_empty⟩
  | append_singleton moves m ih =>
    obtain ⟨s₀, hrun, hstep⟩ := run_snoc.1 h
    obtain ⟨es, hsound⟩ := ih hrun
    exact sound_stepped hsound hstep

/-! ### Reading a log back -/

theorem rowToAudit_toRow (huuid : ∀ u : Uuid, uuidFromStr u.toText = .ok u) (e : AuditEntry) :
    rowToAudit uuidFromStr e.toRow = .ok e := by
  have hid : ∀ u : Uuid, parseUuid uuidFromStr u.toText = .ok u := fun u => by
    rw [parseUuid, huuid]
  simp only [rowToAudit, AuditEntry.toRow, hid, parseEngine_engineStr, parseKind_kindStr]
  rfl

theorem mapM_rowToAudit (huuid : ∀ u : Uuid, uuidFromStr u.toText = .ok u)
    (entries : List AuditEntry) :
    (entries.map (·.toRow)).mapM (rowToAudit uuidFromStr) = .ok entries := by
  induction entries with
  | nil => rfl
  | cons e entries ih =>
    rw [List.map_cons, List.mapM_cons, rowToAudit_toRow huuid, ih]
    rfl

omit [DecidableEq T] in
/-- A sound log reads back as its chains, and they verify. -/
theorem Sound.verifies (h : Sound sha256 calls s es) (c : Uuid) :
    verifyEntries sha256 (chainOf c es) = (true, none) := by
  refine (verifyFrom_eq_true 0 none).2 ⟨h.linked c, fun e he => ?_⟩
  obtain ⟨⟨t, e⟩, hmem, rfl⟩ := List.mem_map.1 (List.mem_of_mem_filter he)
  exact h.hashed t e hmem

omit [DecidableEq T] in
theorem Sound.snapshot_eq (huuid : ∀ u : Uuid, uuidFromStr u.toText = .ok u)
    (h : Sound sha256 calls s es) (c : Uuid) :
    snapshot uuidFromStr sha256 s.rows c = .ok ((chainOf c es).reverse, true, none) := by
  unfold snapshot
  rw [h.rowsOf_eq, mapM_rowToAudit huuid]
  show Except.ok ((chainOf c es).reverse, (verifyEntries sha256 (chainOf c es)).1,
    (verifyEntries sha256 (chainOf c es)).2) = _
  rw [h.verifies]

omit [DecidableEq T] in
theorem Sound.verifyChain_eq (huuid : ∀ u : Uuid, uuidFromStr u.toText = .ok u)
    (h : Sound sha256 calls s es) (c : Uuid) :
    verifyChain uuidFromStr sha256 s.rows c = .ok (true, none) := by
  unfold verifyChain
  rw [h.rowsOf_eq, mapM_rowToAudit huuid]
  show Except.ok (verifyEntries sha256 (chainOf c es)) = _
  rw [h.verifies]

/-! ### One connection among others -/

/-- What is left of a log without the calls of other connections. -/
def Log.only (calls : T → RecordCall) (c : Uuid) (s : Log T) : Log T where
  rows := rowsOf c s.rows
  lock := s.lock.filter fun t => (calls t).connectionId = c
  phase t := if (calls t).connectionId = c then s.phase t else .waiting

theorem rowsOf_rowsOf (c : Uuid) (rows : List AuditRow) :
    rowsOf c (rowsOf c rows) = rowsOf c rows := by
  simp [rowsOf, List.filter_filter]

section

variable {t : T}

omit [DecidableEq T] in
theorem phase_only (ht : (calls t).connectionId = c) : (s.only calls c).phase t = s.phase t :=
  if_pos ht

theorem only_enter (ht : (calls t).connectionId = c) (s : Log T) (phase : Phase) :
    (s.enter t phase).only calls c = (s.only calls c).enter t phase := by
  unfold Log.only Log.enter
  congr 1
  funext u
  rcases eq_or_ne u t with rfl | hne
  · simp only [Function.update_self, if_pos ht]
  · simp only [Function.update_of_ne hne]

theorem only_enter_other (ht : (calls t).connectionId ≠ c) (s : Log T) (phase : Phase) :
    (s.enter t phase).only calls c = s.only calls c := by
  unfold Log.only Log.enter
  congr 1
  funext u
  rcases eq_or_ne u t with rfl | hne
  · rw [if_neg ht, if_neg ht]
  · simp only [Function.update_of_ne hne]

theorem only_leave (ht : (calls t).connectionId = c) (s : Log T) (result : AppResult AuditEntry) :
    (s.leave t result).only calls c = (s.only calls c).leave t result := by
  have h := congrArg Log.phase (only_enter ht s (.returned result))
  unfold Log.only Log.leave
  exact congrArg (Log.mk _ none) h

theorem only_leave_other (ht : (calls t).connectionId ≠ c) (hlock : s.lock = some t)
    (result : AppResult AuditEntry) : (s.leave t result).only calls c = s.only calls c := by
  have h := congrArg Log.phase (only_enter_other ht s (.returned result))
  unfold Log.only Log.leave
  rw [hlock, Option.filter_some, if_neg (by simpa using ht)]
  exact congrArg (Log.mk _ none) h

omit [DecidableEq T] in
theorem only_lock (s : Log T) :
    { s with lock := some t }.only calls c =
      { s.only calls c with lock := (some t).filter fun t => (calls t).connectionId = c } := rfl

omit [DecidableEq T] in
theorem only_rows (s : Log T) (row : AuditRow) :
    { s with rows := s.rows ++ [row] }.only calls c =
      { s.only calls c with rows := rowsOf c s.rows ++ rowsOf c [row] } := by
  unfold Log.only
  rw [rowsOf, List.filter_append]
  rfl

omit [DecidableEq T] in
theorem rowsOf_entry (p : Option String) :
    rowsOf c [((calls t).entry sha256 p).toRow] =
      if (calls t).connectionId = c then [((calls t).entry sha256 p).toRow] else [] := by
  have h := rowsOf_map_toRow c [(calls t).entry sha256 p]
  rw [List.map_singleton] at h
  rw [h]
  by_cases hc : (calls t).connectionId = c
  · rw [if_pos hc]
    simp [RecordCall.entry, RecordCall.fields, hc]
  · rw [if_neg hc]
    simp [RecordCall.entry, RecordCall.fields, hc]

end

/-- A call moves as it would if there were only those of its connection. -/
theorem stepped_only (hstep : Stepped sha256 calls s m s') (hm : (calls m.task).connectionId = c) :
    Stepped sha256 calls (s.only calls c) m (s'.only calls c) := by
  cases hstep with
  | acquire t hphase hlock =>
    have ht : (calls t).connectionId = c := hm
    rw [only_enter ht, only_lock, Option.filter_some, if_pos (decide_eq_true ht)]
    exact .acquire t ((phase_only hm).trans hphase) (by rw [Log.only, hlock]; rfl)
  | readTail t hphase =>
    have htail : tailHash (s.only calls c).rows (calls t).connectionId =
        tailHash s.rows (calls t).connectionId := by
      rw [show (calls t).connectionId = c from hm, tailHash, Log.only, rowsOf_rowsOf, tailHash]
    rw [only_enter (t := t) hm, ← htail]
    exact .readTail t ((phase_only hm).trans hphase)
  | readFailed t e hphase =>
    rw [only_leave (t := t) hm]
    exact .readFailed t e ((phase_only hm).trans hphase)
  | insert t p hphase hnew =>
    have ht : (calls t).connectionId = c := hm
    rw [only_enter ht, only_rows, rowsOf_entry, if_pos ht]
    refine .insert t p ((phase_only hm).trans hphase) ?_
    rw [List.any_eq_false] at hnew ⊢
    exact fun row hrow => hnew row (List.mem_of_mem_filter hrow)
  | insertFailed t p e hphase =>
    rw [only_leave (t := t) hm]
    exact .insertFailed t p e ((phase_only hm).trans hphase)
  | «return» t e hphase =>
    rw [only_leave (t := t) hm]
    exact .return t e ((phase_only hm).trans hphase)

/-- The calls of other connections move nothing of a connection. -/
theorem stepped_only_other (h : Sound sha256 calls s es) (hstep : Stepped sha256 calls s m s')
    (hm : (calls m.task).connectionId ≠ c) : s'.only calls c = s.only calls c := by
  cases hstep with
  | acquire t hphase hlock =>
    have ht : (calls t).connectionId ≠ c := hm
    rw [only_enter_other ht, only_lock, Option.filter_some, if_neg (by simpa using ht)]
    unfold Log.only
    rw [hlock]
    rfl
  | readTail t hphase => exact only_enter_other (t := t) hm ..
  | readFailed t e hphase =>
    exact only_leave_other (t := t) hm (h.guard t (by rw [hphase]; rfl)) _
  | insert t p hphase hnew =>
    have ht : (calls t).connectionId ≠ c := hm
    rw [only_enter_other ht, only_rows, rowsOf_entry, if_neg ht, List.append_nil]
    rfl
  | insertFailed t p e hphase =>
    exact only_leave_other (t := t) hm (h.guard t (by rw [hphase]; rfl)) _
  | «return» t e hphase =>
    exact only_leave_other (t := t) hm (h.guard t (by rw [hphase]; rfl)) _

/-- **The calls of one connection run as if there were no others.** -/
theorem run_only (h : run sha256 calls moves = some s) (c : Uuid) :
    run sha256 calls (moves.filter fun m => (calls m.task).connectionId = c) =
      some (s.only calls c) := by
  induction moves using List.reverseRecOn generalizing s with
  | nil =>
    obtain rfl := Option.some.inj h
    refine congrArg some ?_
    unfold Log.only
    congr 1
    funext t
    exact (ite_self _).symm
  | append_singleton moves m ih =>
    obtain ⟨s₀, hrun, hstep⟩ := run_snoc.1 h
    obtain ⟨es, hsound⟩ := sound_run hrun
    rw [List.filter_append]
    by_cases hm : (calls m.task).connectionId = c
    · rw [show [m].filter (fun m => (calls m.task).connectionId = c) = [m] by simp [hm]]
      exact run_snoc.2 ⟨_, ih hrun, stepped_only hstep hm⟩
    · rw [show [m].filter (fun m => (calls m.task).connectionId = c) = [] by simp [hm],
        List.append_nil, stepped_only_other hsound hstep hm]
      exact ih hrun

/-! ### Every run of records -/

/-- **One chain for each connection.** Whatever the calls do next to each other, the rows of a
connection are, in their order, the entries of its calls that have inserted one, a row for each
call that returned its entry and none for one that failed; they verify, and `snapshot` returns
exactly them, the last one first. Without the calls of the other connections they would be the
same. -/
theorem records_keep_one_chain (uuidFromStr : String → Except String Uuid)
    (sha256 : List UInt8 → Vector UInt8 32) (huuid : ∀ u : Uuid, uuidFromStr u.toText = .ok u)
    {T : Type*} [DecidableEq T] (calls : T → RecordCall) (moves : List (Move T)) (s : Log T)
    (hrun : run sha256 calls moves = some s) (c : Uuid) :
    (∃ written : List (T × AuditEntry),
      (written.map Prod.fst).Nodup ∧
      (∀ t e, (t, e) ∈ written ↔ (calls t).connectionId = c ∧
        (s.phase t = .inserted e ∨ s.phase t = .returned (.ok e))) ∧
      (∀ t e, (t, e) ∈ written → e.id = (calls t).id ∧ e.toAuditFields = (calls t).fields) ∧
      rowsOf c s.rows = written.map (·.2.toRow) ∧
      verifyChain uuidFromStr sha256 s.rows c = .ok (true, none) ∧
      snapshot uuidFromStr sha256 s.rows c =
        .ok ((written.map Prod.snd).reverse, true, none)) ∧
    run sha256 calls (moves.filter fun m => (calls m.task).connectionId = c) =
      some (s.only calls c) := by
  refine ⟨?_, run_only hrun c⟩
  obtain ⟨es, h⟩ := sound_run hrun
  have hchain : chainOf c es = (es.filter (·.2.connectionId = c)).map Prod.snd := by
    rw [chainOf, List.filter_map]
    rfl
  refine ⟨es.filter (·.2.connectionId = c), ?_, fun t e => ?_, fun t e he => ?_, ?_,
    h.verifyChain_eq huuid c, ?_⟩
  · exact h.nodup.sublist (List.filter_sublist.map _)
  · rw [List.mem_filter, decide_eq_true_iff, h.written]
    have hphase : (s.phase t).written = some e ↔
        s.phase t = .inserted e ∨ s.phase t = .returned (.ok e) := by
      cases s.phase t with
      | waiting => simp [Phase.written]
      | locked => simp [Phase.written]
      | read p => simp [Phase.written]
      | inserted e' => simp [Phase.written]
      | returned result => cases result <;> simp [Phase.written]
    rw [hphase, and_comm]
    refine and_congr_left fun hwritten => ?_
    have hown := (h.own t e ((h.written t e).2 (hphase.2 hwritten))).1
    rw [hown]
    rfl
  · have hown := h.own t e (List.mem_of_mem_filter he)
    exact ⟨hown.2, hown.1⟩
  · rw [h.rowsOf_eq, hchain, List.map_map]
    rfl
  · rw [h.snapshot_eq huuid, hchain]

/-! ### Two calls of one connection and one of another -/

/-- A call with the given statement. -/
def sampleCall (id connection : UInt8) (sql : String) : RecordCall where
  connectionId := .ofByte connection
  engine := .sqlite
  agentPrompt := none
  sql
  kind := .read
  action := "execute"
  approvedBy := none
  affectedEstimate := none
  error := none
  id := .ofByte id
  ts := .ofDay 1

/-- The calls `0` and `1` are of one connection, the others of another. -/
def sampleCalls (t : ℕ) : RecordCall :=
  if t = 0 then sampleCall 0 7 "SELECT 0"
  else if t = 1 then sampleCall 1 7 "SELECT 1" else sampleCall 2 8 "SELECT 2"

/-- The insert of the call `2` fails. -/
def sampleMoves : List (Move ℕ) :=
  [.acquire 0, .readTail 0 none, .insert 0 none, .return 0, .acquire 2, .readTail 2 none,
    .insert 2 (some (.db "disk I/O error")), .acquire 1, .readTail 1 none, .insert 1 none]

/-- `Uuid::from_str` on the texts it prints. -/
noncomputable def sampleFromStr (text : String) : Except String Uuid :=
  match Function.partialInv Uuid.toText text with
  | some u => .ok u
  | none => .error "invalid length"

theorem sampleFromStr_toText (u : Uuid) : sampleFromStr u.toText = .ok u := by
  rw [sampleFromStr, Function.partialInv_left Uuid.toText_injective]

theorem isSome_sampleRun : (run Sha256.sha256 sampleCalls sampleMoves).isSome = true := by
  decide +kernel

/-- The failed record of the other connection leaves a chain for each. -/
theorem records_keep_one_chain_sampleRun : ∃ s, run Sha256.sha256 sampleCalls sampleMoves = some s ∧
    verifyChain sampleFromStr Sha256.sha256 s.rows (.ofByte 7) = .ok (true, none) ∧
    verifyChain sampleFromStr Sha256.sha256 s.rows (.ofByte 8) = .ok (true, none) := by
  obtain ⟨s, hrun⟩ := Option.isSome_iff_exists.1 isSome_sampleRun
  obtain ⟨⟨-, -, -, -, -, hfirst, -⟩, -⟩ := records_keep_one_chain sampleFromStr Sha256.sha256
    sampleFromStr_toText sampleCalls sampleMoves s hrun (.ofByte 7)
  obtain ⟨⟨-, -, -, -, -, hsecond, -⟩, -⟩ := records_keep_one_chain sampleFromStr Sha256.sha256
    sampleFromStr_toText sampleCalls sampleMoves s hrun (.ofByte 8)
  exact ⟨s, hrun, hfirst, hsecond⟩

end Audit
end AgentDb
