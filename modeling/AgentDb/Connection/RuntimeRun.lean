import AgentDb.Connection.RuntimeStep
import AgentDb.Lib.Commits

/-!
# Runs of the connection cache

`System.Ok` is what every step keeps: the memory agrees with what every task holds, a task that
should have the gate has it, a slot that is in use is the one of its key or is being taken, and a
lease was handed off in time. What the cache promises follows from it.
-/

namespace AgentDb
namespace Connection

open Commits Store

/-! ### The invariant -/

/-- What a step of another task leaves to a task. -/
structure Task.Ok (s : System) (t : TaskId) (task : Task) : Prop where
  holds : s.mem.Holds t task.holding
  queued : ∀ mode, (t, mode) ∈ s.gate.queue → task.stage.mode = some mode
  reading : task.stage.reads = true → s.gate.ReadBy t
  writing : task.stage.writes = true → s.gate.WrittenBy t
  place : ∀ c sid, task.place = some (c, sid) → s.mem.slots.get c.key = some sid
  takes : ∀ sid, task.takes = some sid → s.mem.slots.get (s.mem.slot sid).key = none
  inTime : ∀ stage, task.stage = .connect stage → stage.InTime s.mem

/-- Everything the system keeps. -/
structure System.Ok (s : System) : Prop where
  mem : s.mem.Ok
  task : ∀ t, Task.Ok s t (s.task t)
  mapped : ∀ sid, s.mem.Busy sid → s.mem.slots.get (s.mem.slot sid).key = some sid ∨
    ∃ t, (s.task t).takes = some sid

theorem Task.reads_of_place {task : Task} {p : Context × SlotId} (h : task.place = some p) :
    task.stage.reads = true := by
  obtain ⟨stage, retiring⟩ := task
  cases stage with
  | connect stage => exact ConnectStage.reads_of_place h
  | _ => cases h

theorem Task.writes_of_takes {task : Task} {sid : SlotId} (h : task.takes = some sid) :
    task.stage.writes = true := by
  obtain ⟨stage, retiring⟩ := task
  cases stage with
  | mutation stage => exact MutationStage.writes_of_takes h
  | _ => cases h

theorem task_setTask (s : System) (t t' : TaskId) (task : Task) :
    (s.setTask t task).task t' = if t' = t then task else s.task t' :=
  Function.update_apply s.task t task t'

theorem Task.lives {s : System} {u : TaskId} {task : Task} (hholds : s.mem.Holds u task.holding)
    {stage : ConnectStage} (hstage : task.stage = .connect stage) {c : Context} {e : EntryId}
    (huse : stage.use = some (c, e)) : (s.mem.entry e).owners ≠ [] := by
  refine hholds.lives (c := c) ?_
  unfold Task.holding
  rw [hstage]
  exact huse

section

variable {s s' : System} {t u : TaskId} {task task' : Task}

/-- What the step of one task leaves to another. -/
theorem Task.Ok.carry (h : Task.Ok s u task) (hframe : s.mem.Frame t s'.mem) (hne : u ≠ t)
    (hqueue : ∀ mode, (u, mode) ∈ s'.gate.queue → (u, mode) ∈ s.gate.queue)
    (hread : s.gate.ReadBy u → s'.gate.ReadBy u)
    (hwrite : s.gate.WrittenBy u → s'.gate.WrittenBy u)
    (hplace : s.gate.ReadBy u → ∀ key sid, s.mem.slots.get key = some sid →
      s'.mem.slots.get key = some sid)
    (htakes : s.gate.WrittenBy u → ∀ sid, s.mem.slots.get (s.mem.slot sid).key = none →
      s'.mem.slots.get (s'.mem.slot sid).key = none) : Task.Ok s' u task where
  holds := h.holds.carry hframe hne
  queued := fun mode hmem => h.queued mode (hqueue mode hmem)
  reading := fun hreads => hread (h.reading hreads)
  writing := fun hwrites => hwrite (h.writing hwrites)
  place := fun c sid hp =>
    hplace (h.reading (Task.reads_of_place hp)) c.key sid (h.place c sid hp)
  takes := fun sid ht => htakes (h.writing (Task.writes_of_takes ht)) sid (h.takes sid ht)
  inTime := fun stage hstage =>
    (h.inTime stage hstage).mono hframe fun _ _ huse => Task.lives h.holds hstage huse

/-- Time and the timers are nothing that the invariant speaks of. -/
theorem System.Ok.withRest (hok : s.Ok) (now : ℕ) (timers : List Timer) :
    ({ s with mem := { s.mem with now, timers } } : System).Ok where
  mem := hok.mem.withRest now s.mem.nextGeneration timers
  task := fun u =>
    have h := hok.task u
    have hframe : s.mem.Frame u { s.mem with now, timers } :=
      (Memory.Frame.refl u s.mem).to_eq rfl rfl rfl
    ⟨h.holds.of_eq rfl (fun _ => rfl) rfl, h.queued, h.reading, h.writing, h.place, h.takes,
      fun stage hstage =>
        (h.inTime stage hstage).mono hframe fun _ _ huse => Task.lives h.holds hstage huse⟩
  mapped := hok.mapped

/-- A step that only moves a task to or through the gate. -/
theorem ok_gate (hok : s.Ok) {gate : RwLock TaskId} {stage : Stage}
    (hholding : ({ s.task t with stage } : Task).holding = (s.task t).holding)
    (hplace : ({ s.task t with stage } : Task).place = none)
    (htakes : ({ s.task t with stage } : Task).takes = none)
    (htaken : (s.task t).takes = none) (hstage : ∀ stage', stage = .connect stage' →
      stage'.InTime s.mem)
    (hqueued : ∀ mode, (t, mode) ∈ gate.queue → stage.mode = some mode)
    (hreading : stage.reads = true → gate.ReadBy t)
    (hwriting : stage.writes = true → gate.WrittenBy t)
    (hqueue : ∀ u mode, u ≠ t → (u, mode) ∈ gate.queue → (u, mode) ∈ s.gate.queue)
    (hread : ∀ u, s.gate.ReadBy u → gate.ReadBy u)
    (hwrite : ∀ u, s.gate.WrittenBy u → gate.WrittenBy u) :
    ({ s with gate }.setTask t { s.task t with stage }).Ok where
  mem := hok.mem
  task := fun u => by
    rw [task_setTask]
    split
    · rename_i heq
      subst heq
      have h := hok.task u
      exact
        { holds := by
            rw [hholding]
            exact h.holds
          queued := hqueued
          reading := hreading
          writing := hwriting
          place := fun c sid hp => by
            rw [hplace] at hp
            cases hp
          takes := fun sid ht => by
            rw [htakes] at ht
            cases ht
          inTime := hstage }
    · rename_i hne
      exact (hok.task u).carry (.refl t s.mem) hne (fun mode => hqueue u mode hne) (hread u)
        (hwrite u) (fun _ _ _ h => h) fun _ _ h => h
  mapped := fun sid hbusy => by
    rcases hok.mapped sid hbusy with h | ⟨u, hu⟩
    · exact .inl h
    · refine .inr ⟨u, ?_⟩
      rw [task_setTask, if_neg]
      · exact hu
      · rintro rfl
        rw [htaken] at hu
        cases hu

theorem eq_idle (h : task.isIdle = true) : task = ⟨.idle, []⟩ := by
  unfold Task.isIdle at h
  split at h
  · rfl
  · cases h

/-- A task that does nothing begins: it asks for the gate, or needs none. -/
theorem ok_begin (hok : s.Ok) (hidle : (s.task t).isIdle = true) {gate : RwLock TaskId}
    {stage : Stage} (hstage : stage = .connect .waiting ∧ gate = s.gate.request t .read ∨
      stage = .mutation .waiting ∧ gate = s.gate.request t .write ∨
      (∃ timer, stage = .timer timer) ∧ gate = s.gate) :
    ({ s with gate }.setTask t ⟨stage, []⟩).Ok := by
  have htask := eq_idle hidle
  have hold := hok.task t
  rw [htask] at hold
  have hnone : ∀ mode, (t, mode) ∉ s.gate.queue := fun mode hmem => by
    cases hold.queued mode hmem
  have hself : ({ s.task t with stage } : Task) = ⟨stage, []⟩ := by rw [htask]
  rw [← hself]
  rcases hstage with ⟨rfl, rfl⟩ | ⟨rfl, rfl⟩ | ⟨⟨timer, rfl⟩, rfl⟩
  · refine ok_gate hok (by rw [htask]; rfl) rfl rfl (by rw [htask]; rfl) ?_ ?_
      (fun h => absurd h Bool.false_ne_true) (fun h => absurd h Bool.false_ne_true) ?_
      (fun _ h => h) fun _ h => h
    · intro stage' hstage
      obtain rfl := Stage.connect.inj hstage
      trivial
    · intro mode hmem
      rcases RwLock.mem_queue_request.1 hmem with h | h
      · exact absurd h (hnone mode)
      · rw [(Prod.mk.inj h).2]
        rfl
    · intro u mode hne hmem
      rcases RwLock.mem_queue_request.1 hmem with h | h
      · exact h
      · exact absurd (Prod.mk.inj h).1 hne
  · refine ok_gate hok (by rw [htask]; rfl) rfl rfl (by rw [htask]; rfl) (fun _ h => by cases h) ?_
      (fun h => absurd h Bool.false_ne_true) (fun h => absurd h Bool.false_ne_true) ?_
      (fun _ h => h) fun _ h => h
    · intro mode hmem
      rcases RwLock.mem_queue_request.1 hmem with h | h
      · exact absurd h (hnone mode)
      · rw [(Prod.mk.inj h).2]
        rfl
    · intro u mode hne hmem
      rcases RwLock.mem_queue_request.1 hmem with h | h
      · exact h
      · exact absurd (Prod.mk.inj h).1 hne
  · exact ok_gate hok (by rw [htask]; rfl) rfl rfl (by rw [htask]; rfl) (fun _ h => by cases h)
      (fun mode hmem => absurd hmem (hnone mode)) (fun h => absurd h Bool.false_ne_true)
      (fun h => absurd h Bool.false_ne_true) (fun _ _ _ h => h) (fun _ h => h) fun _ h => h

/-- A task at the head of the queue is let in. -/
theorem ok_grant (hok : s.Ok) {gate : RwLock TaskId} {stage : Stage}
    (hgrant : s.gate.grant t = some gate) (henter : (s.task t).stage.enter = some stage) :
    ({ s with gate }.setTask t { s.task t with stage }).Ok := by
  have hold := hok.task t
  have hmem : ∀ e mode, s.gate.queue = (t, mode) :: gate.queue → e ∈ gate.queue →
      e ∈ s.gate.queue := fun e mode hqueue he => by
    rw [hqueue]
    exact List.mem_cons_of_mem _ he
  obtain ⟨retiring, hbefore⟩ : ∃ retiring, s.task t = ⟨(s.task t).stage, retiring⟩ := ⟨_, rfl⟩
  generalize hstage : (s.task t).stage = before at henter hbefore
  have hentered : (before = .connect .waiting ∧ stage = .connect .entered) ∨
      before = .mutation .waiting ∧ stage = .mutation .held := by
    unfold Stage.enter at henter
    split at henter
    · exact .inl ⟨rfl, (Option.some.inj henter).symm⟩
    · exact .inr ⟨rfl, (Option.some.inj henter).symm⟩
    · cases henter
  rcases RwLock.grant_cases hgrant with ⟨hqueue, hreads, hothers, hfree⟩ |
    ⟨hqueue, hwrites, hnone, hfree⟩
  · have hmode := hold.queued .read (by rw [hqueue]; exact List.mem_cons_self)
    rcases hentered with ⟨rfl, rfl⟩ | ⟨rfl, rfl⟩
    · refine ok_gate hok (by rw [hbefore]; rfl) rfl rfl (by rw [hbefore]; rfl)
        (fun stage' h => ?_) (fun mode h => ?_) (fun _ => hreads)
        (fun h => absurd h Bool.false_ne_true) (fun u mode _ h => hmem _ _ hqueue h) hothers
        fun u h => (hfree u h).elim
      · obtain rfl := Stage.connect.inj h
        trivial
      · have hsame := hold.queued mode (hmem _ _ hqueue h)
        rw [hstage] at hsame
        exact hsame
    · rw [hstage] at hmode
      cases hmode
  · have hmode := hold.queued .write (by rw [hqueue]; exact List.mem_cons_self)
    rcases hentered with ⟨rfl, rfl⟩ | ⟨rfl, rfl⟩
    · rw [hstage] at hmode
      cases hmode
    · refine ok_gate hok (by rw [hbefore]; rfl) rfl rfl (by rw [hbefore]; rfl)
        (fun _ h => by cases h) (fun mode h => ?_) (fun h => absurd h Bool.false_ne_true)
        (fun _ => hwrites) (fun u mode _ h => hmem _ _ hqueue h) (fun u h => (hnone u h).elim)
        fun u h => (hfree u h).elim
      have hsame := hold.queued mode (hmem _ _ hqueue h)
      rw [hstage] at hsame
      exact hsame

theorem Stage.writes_of_reads {stage : Stage} (h : stage.reads = true) : stage.writes = false := by
  cases stage with
  | mutation stage => cases h
  | _ => rfl

/-- The gate after a move: given up by a task that has left its side of it. -/
def System.gateAfter (s : System) (t : TaskId) (stage : Stage) : RwLock TaskId :=
  if ((s.task t).stage.reads && !stage.reads) || ((s.task t).stage.writes && !stage.writes) then
    s.gate.release t
  else s.gate

theorem queue_gateAfter (stage : Stage) : (s.gateAfter t stage).queue = s.gate.queue := by
  unfold System.gateAfter
  split
  · exact RwLock.queue_release t s.gate
  · rfl

theorem readBy_gateAfter {stage : Stage} (hne : u ≠ t) (h : s.gate.ReadBy u) :
    (s.gateAfter t stage).ReadBy u := by
  unfold System.gateAfter
  split
  · exact h.release_of_ne hne
  · exact h

theorem writtenBy_gateAfter {stage : Stage} (hne : u ≠ t) (h : s.gate.WrittenBy u) :
    (s.gateAfter t stage).WrittenBy u := by
  unfold System.gateAfter
  split
  · exact h.release_of_ne hne
  · exact h

/-- A task that stays on its side of the gate keeps it. -/
theorem gateAfter_of_stays {stage : Stage}
    (hreads : (s.task t).stage.reads = true → stage.reads = true)
    (hwrites : (s.task t).stage.writes = true → stage.writes = true) :
    s.gateAfter t stage = s.gate := by
  unfold System.gateAfter
  rw [if_neg]
  cases hr : (s.task t).stage.reads with
  | true =>
    rw [hreads hr, Stage.writes_of_reads hr]
    exact Bool.false_ne_true
  | false =>
    cases hw : (s.task t).stage.writes with
    | true =>
      rw [hwrites hw]
      simp
    | false => simp

/-- Somebody else's slots are where they were: a reader's are found under their keys, and those of
a writer are not. -/
theorem map_of_moved (hok : s.Ok) {m' : Memory}
    (hmoved : Task.Moved t s.mem m' (s.task t) task') :
    (s.gate.ReadBy u → ∀ key sid, s.mem.slots.get key = some sid →
      m'.slots.get key = some sid) ∧
    (s.gate.WrittenBy u → ∀ sid, s.mem.slots.get (s.mem.slot sid).key = none →
      m'.slots.get (m'.slot sid).key = none) := by
  cases hmoved.map with
  | grown hreads hgrown hplace htakes =>
    refine ⟨fun _ => hgrown.slots, fun hwritten => ?_⟩
    exact absurd hwritten ((hok.task t).reading hreads).not_writtenBy
  | shrunk hshrunk hplace hwrites =>
    refine ⟨fun hread key sid hkey => ?_, fun _ sid hnone => ?_⟩
    · rcases hshrunk.removed key sid hkey with h | h
      · exact h
      · have hwritten := (hok.task t).writing (hwrites (by rw [h]; exact Option.some_ne_none sid))
        exact absurd hwritten hread.not_writtenBy
    · rw [hshrunk.key]
      cases hget : m'.slots.get (s.mem.slot sid).key with
      | none => rfl
      | some sid' =>
        rw [hshrunk.slots _ _ hget] at hnone
        cases hnone

/-- A slot in use is the one of its key or is being taken, after a move as before. -/
theorem mapped_of_moved (hok : s.Ok) {m' : Memory}
    (hmoved : Task.Moved t s.mem m' (s.task t) task') {sid : SlotId} (hbusy : m'.Busy sid) :
    m'.slots.get (m'.slot sid).key = some sid ∨ task'.takes = some sid ∨
      ∃ u, u ≠ t ∧ (s.task u).takes = some sid := by
  have hmap := hmoved.map
  cases hmap with
  | grown hreads hgrown hplace htakes =>
    rcases hgrown.busy sid hbusy with ⟨hold, hkey⟩ | hget
    · rcases hok.mapped sid hold with h | ⟨u, hu⟩
      · rw [hkey]
        exact .inl (hgrown.slots _ _ h)
      · have hwritten := (hok.task u).writing (Task.writes_of_takes hu)
        exact absurd hwritten ((hok.task t).reading hreads).not_writtenBy
    · exact .inl hget
  | shrunk hshrunk hplace hwrites =>
    rcases hok.mapped sid (hshrunk.busy sid hbusy) with h | ⟨u, hu⟩
    · rcases hshrunk.removed _ _ h with hget | htakes
      · rw [hshrunk.key]
        exact .inl hget
      · exact .inr (.inl htakes)
    · by_cases hut : u = t
      · subst hut
        exact .inr (.inl ((hshrunk.taken sid hu).resolve_right fun hnot => hnot hbusy))
      · exact .inr (.inr ⟨u, hut, hu⟩)

/-- A move of one task keeps what the system keeps. -/
theorem ok_move (hok : s.Ok) {m' : Memory} (hmoved : Task.Moved t s.mem m' (s.task t) task') :
    ({ s with mem := m', gate := s.gateAfter t task'.stage }.setTask t task').Ok where
  mem := hmoved.yields.ok
  task := fun u => by
    rw [task_setTask]
    split
    · rename_i heq
      subst heq
      have hold := hok.task u
      refine
        { holds := hmoved.yields.holds
          queued := fun mode hmem => ?_
          reading := fun hreads => ?_
          writing := fun hwrites => ?_
          place := fun c sid hp => ?_
          takes := fun sid ht => ?_
          inTime := hmoved.inTime }
      · rw [hmoved.mode]
        refine hold.queued mode ?_
        rw [← queue_gateAfter (t := u) task'.stage]
        exact hmem
      · have hbefore := hmoved.reads hreads
        have hgate : s.gateAfter u task'.stage = s.gate := gateAfter_of_stays (fun _ => hreads)
          fun h => absurd ((Stage.writes_of_reads hbefore).symm.trans h) Bool.false_ne_true
        show (s.gateAfter u task'.stage).ReadBy u
        rw [hgate]
        exact hold.reading hbefore
      · have hbefore := hmoved.writes hwrites
        have hgate : s.gateAfter u task'.stage = s.gate := gateAfter_of_stays
          (fun h => absurd ((Stage.writes_of_reads h).symm.trans hbefore) Bool.false_ne_true)
          fun _ => hwrites
        show (s.gateAfter u task'.stage).WrittenBy u
        rw [hgate]
        exact hold.writing hbefore
      · have hmap := hmoved.map
        cases hmap with
        | grown hreads hgrown hplace htakes => exact hplace c sid hp
        | shrunk hshrunk hplace hwrites =>
          rcases hplace with hnone | ⟨hsame, hnone⟩
          · rw [hnone] at hp
            cases hp
          · refine (hshrunk.removed _ _ (hold.place c sid (hsame ▸ hp))).resolve_right fun h => ?_
            rw [hnone] at h
            cases h
      · have hmap := hmoved.map
        cases hmap with
        | grown hreads hgrown hplace htakes =>
          rw [htakes] at ht
          cases ht
        | shrunk hshrunk hplace hwrites =>
          rcases hshrunk.takes sid ht with hbefore | hnone
          · show m'.slots.get (m'.slot sid).key = none
            rw [hshrunk.key]
            cases hget : m'.slots.get (s.mem.slot sid).key with
            | none => rfl
            | some sid' =>
              have hnone := hold.takes sid hbefore
              rw [hshrunk.slots _ _ hget] at hnone
              cases hnone
          · exact hnone
    · rename_i hne
      obtain ⟨hplace, htakes⟩ := map_of_moved (u := u) hok hmoved
      refine (hok.task u).carry hmoved.yields.frame hne (fun mode hmem => ?_)
        (readBy_gateAfter hne) (writtenBy_gateAfter hne) hplace htakes
      rw [← queue_gateAfter (t := t) task'.stage]
      exact hmem
  mapped := fun sid hbusy => by
    rcases mapped_of_moved hok hmoved hbusy with h | h | ⟨u, hne, hu⟩
    · exact .inl h
    · refine .inr ⟨t, ?_⟩
      rw [task_setTask, if_pos rfl]
      exact h
    · refine .inr ⟨u, ?_⟩
      rw [task_setTask, if_neg hne]
      exact hu

theorem ok_step {label : Label} (hok : s.Ok) (h : System.step label s = .ok s') : s'.Ok := by
  unfold System.step at h
  split at h
  · split at h
    · rename_i hidle
      obtain rfl := Except.ok.inj h
      exact ok_begin hok hidle (.inl ⟨rfl, rfl⟩)
    · cases h
  · split at h
    · rename_i hidle
      obtain rfl := Except.ok.inj h
      exact ok_begin hok hidle (.inr (.inl ⟨rfl, rfl⟩))
    · cases h
  · split at h
    · rename_i timer timers hidle _
      obtain rfl := Except.ok.inj h
      exact ok_begin (hok.withRest s.mem.now timers) hidle (.inr (.inr ⟨⟨timer, rfl⟩, rfl⟩))
    · cases h
  · split at h
    · rename_i hgrant henter
      obtain rfl := Except.ok.inj h
      exact ok_grant hok hgrant henter
    · cases h
  · split at h
    · rename_i t _ _ _ _ hmove
      obtain rfl := Except.ok.inj h
      have hold := hok.task t
      exact ok_move hok (moved_of_step hok.mem hold.holds hold.place hold.inTime hmove)
    · cases h
  · rename_i by_
    obtain rfl := Except.ok.inj h
    exact hok.withRest (s.mem.now + by_) s.mem.timers

theorem ok_run (labels : List Label) (hok : s.Ok) : (run System.step labels s).Ok :=
  run_invariant (fun _ _ _ _ hok h => ok_step hok h) (along_true labels s) hok

end

/-! ### What the cache promises -/

/-- The context that a task opens a pool for. -/
def ConnectStage.opens : ConnectStage → Option Context
  | .opening c _ | .connecting c _ _ _ | .opened c _ _ _ | .verified c _ _ _ => some c
  | _ => none

/-- A task has a share of an entry: it uses it or retires it. -/
def Task.Shares (task : Task) (e : EntryId) : Prop :=
  task.holding.use.map Prod.snd = some e ∨ e ∈ task.retiring.map Prod.fst

/-- A task has got a `ConnectionLease` and has not dropped it. -/
def Task.Leased (task : Task) (c : Context) (e : EntryId) (handedOffAt : ℕ) : Prop :=
  task.stage = .connect (.leased c e handedOffAt)

/-- What holds at any moment. -/
structure System.Contract (s : System) : Prop where
  installed : ∀ sid sid' e e', (s.mem.slot sid).entry = some e → (s.mem.slot sid').entry = some e' →
    (s.mem.slot sid).key = (s.mem.slot sid').key → e = e'
  opens : ∀ t t' stage stage' c c', (s.task t).stage = .connect stage →
    (s.task t').stage = .connect stage' → stage.opens = some c → stage'.opens = some c' →
    c.key = c'.key → t = t'
  once : s.mem.handed.Nodup
  released : ∀ e lease, (s.mem.entry e).value.issued = some lease →
    (lease ∈ s.mem.handed ↔
      (∀ sid, (s.mem.slot sid).entry ≠ some e) ∧ ∀ t, ¬ (s.task t).Shares e)
  leased : ∀ t c e handedOffAt, (s.task t).Leased c e handedOffAt →
    (∀ r, (s.mem.entry e).value.retireAt = some r → handedOffAt < r) ∧
      (∀ lease, (s.mem.entry e).value.issued = some lease → lease ∉ s.mem.handed) ∧
      (s.mem.entry e).value.opener.pin.scope.generation = c.pin.scope.generation ∧
      (s.mem.entry e).value.opener.pin.connectionRevision = c.pin.connectionRevision ∧
      (s.mem.entry e).value.opener.pin.bindingRevision = c.pin.bindingRevision
  exclusive : ∀ t t' c e handedOffAt, (s.task t).Leased c e handedOffAt →
    (s.task t').stage.writes = false

section

variable {s : System} {t t' : TaskId}

/-- Two slots of one key that are in use are one slot. -/
theorem slot_unique (hok : s.Ok) {sid sid' : SlotId} (hbusy : s.mem.Busy sid)
    (hbusy' : s.mem.Busy sid') (hkey : (s.mem.slot sid).key = (s.mem.slot sid').key) :
    sid = sid' := by
  rcases hok.mapped sid hbusy with h | ⟨u, hu⟩
  · rcases hok.mapped sid' hbusy' with h' | ⟨u', hu'⟩
    · rw [hkey, h'] at h
      exact (Option.some.inj h).symm
    · have hnone := (hok.task u').takes sid' hu'
      rw [← hkey, h] at hnone
      cases hnone
  · have hwritten := (hok.task u).writing (Task.writes_of_takes hu)
    rcases hok.mapped sid' hbusy' with h' | ⟨u', hu'⟩
    · have hnone := (hok.task u).takes sid hu
      rw [hkey, h'] at hnone
      cases hnone
    · -- there is one writer, and it takes one slot at a time
      have hwritten' := (hok.task u').writing (Task.writes_of_takes hu')
      obtain rfl := hwritten.unique hwritten'
      exact Option.some.inj (hu.symm.trans hu')

/-- A task that opens a pool has locked the slot of its key. -/
theorem locked_of_opens (hok : s.Ok) {stage : ConnectStage} {c : Context}
    (hstage : (s.task t).stage = .connect stage) (hopens : stage.opens = some c) :
    ∃ sid, (s.mem.slot sid).lockedBy = some t ∧ (s.mem.slot sid).key = c.key := by
  have hplaced : ∃ sid, stage.locks = some sid ∧ stage.place = some (c, sid) := by
    cases stage with
    | opening c' sid => exact ⟨sid, rfl, by rw [← Option.some.inj hopens]; rfl⟩
    | connecting c' sid lease retireAt => exact ⟨sid, rfl, by rw [← Option.some.inj hopens]; rfl⟩
    | opened c' sid lease retireAt => exact ⟨sid, rfl, by rw [← Option.some.inj hopens]; rfl⟩
    | verified c' sid lease retireAt => exact ⟨sid, rfl, by rw [← Option.some.inj hopens]; rfl⟩
    | _ => cases hopens
  obtain ⟨sid, hlocks, hplace⟩ := hplaced
  have hold := hok.task t
  refine ⟨sid, (hold.holds.locks sid).2 ?_,
    (hok.mem.slots.mapped c.key sid (hold.place c sid ?_)).1⟩
  · unfold Task.holding
    rw [hstage]
    exact hlocks
  · unfold Task.place
    rw [hstage]
    exact hplace

/-- An entry is owned by the slots and the tasks that have a share of it, and by nobody else. -/
theorem owners_eq_nil_iff (hok : s.Ok) (e : EntryId) : (s.mem.entry e).owners = [] ↔
    (∀ sid, (s.mem.slot sid).entry ≠ some e) ∧ ∀ t, ¬ (s.task t).Shares e := by
  constructor
  · intro hnil
    refine ⟨fun sid hslot => ?_, fun t hshares => ?_⟩
    · have howner := (hok.mem.shares.slots e sid).2 hslot
      rw [hnil] at howner
      cases howner
    · have hholds := (hok.task t).holds
      rcases hshares with huse | hretires
      · have howner := (hholds.user e).2 huse
        rw [hnil] at howner
        cases howner
      · rw [← Task.retiring_holding] at hretires
        have howner := (hholds.retirer e).2 hretires
        rw [hnil] at howner
        cases howner
  · rintro ⟨hslots, htasks⟩
    refine List.eq_nil_iff_forall_not_mem.2 fun o howner => ?_
    cases o with
    | slot sid => exact hslots sid ((hok.mem.shares.slots e sid).1 howner)
    | user t => exact htasks t (.inl (((hok.task t).holds.user e).1 howner))
    | retirer t =>
      refine htasks t (.inr ?_)
      rw [← Task.retiring_holding]
      exact ((hok.task t).holds.retirer e).1 howner

/-- The lease of an entry has been handed to release exactly when nobody owns the entry. -/
theorem mem_handed_iff (hok : s.Ok) {e : EntryId} {lease : LeaseId}
    (hissued : (s.mem.entry e).value.issued = some lease) :
    lease ∈ s.mem.handed ↔ (s.mem.entry e).owners = [] := by
  have hleases := hok.mem.leases
  rw [hleases.handed]
  have hlifetime := hleases.lifetime e
  constructor
  · intro hplace
    by_contra hlives
    rw [if_neg hlives, hissued] at hlifetime
    rw [(hleases.entry e lease).1 hlifetime] at hplace
    cases hplace
  · intro hnil
    rw [if_pos hnil] at hlifetime
    rcases hleases.issued e lease hissued with h | h
    · rw [(hleases.entry e lease).2 h] at hlifetime
      cases hlifetime
    · exact h

theorem contract_of_ok (hok : s.Ok) : s.Contract where
  installed := fun sid sid' e e' he he' hkey => by
    obtain rfl := slot_unique hok (.inl (by rw [he]; nofun)) (.inl (by rw [he']; nofun)) hkey
    exact Option.some.inj (he.symm.trans he')
  opens := fun t t' stage stage' c c' hstage hstage' hopens hopens' hkey => by
    obtain ⟨sid, hlocked, hslot⟩ := locked_of_opens hok hstage hopens
    obtain ⟨sid', hlocked', hslot'⟩ := locked_of_opens hok hstage' hopens'
    obtain rfl := slot_unique hok (.inr (by rw [hlocked]; nofun)) (.inr (by rw [hlocked']; nofun))
      (hslot.trans (hkey.trans hslot'.symm))
    exact Option.some.inj (hlocked.symm.trans hlocked')
  once := hok.mem.leases.nodup
  released := fun e lease hissued => (mem_handed_iff hok hissued).trans (owners_eq_nil_iff hok e)
  leased := fun t c e handedOffAt hleased => by
    have hold := hok.task t
    have huse : (s.task t).holding.use = some (c, e) := by
      unfold Task.holding
      rw [show (s.task t).stage = _ from hleased]
      rfl
    have hkey := hold.holds.key c e huse
    refine ⟨hold.inTime _ hleased, fun lease hissued hmem => ?_,
      congrArg ConnectionCacheKey.scopeGeneration hkey,
      congrArg ConnectionCacheKey.connectionRevision hkey,
      congrArg ConnectionCacheKey.bindingRevision hkey⟩
    exact hold.holds.lives huse ((mem_handed_iff hok hissued).1 hmem)
  exclusive := fun t t' c e handedOffAt hleased => by
    have hreads := (hok.task t).reading (by
      rw [show (s.task t).stage = _ from hleased]
      rfl)
    cases hwrites : (s.task t').stage.writes with
    | false => rfl
    | true => exact absurd ((hok.task t').writing hwrites) hreads.not_writtenBy

end

/-- The memory before any call; `filler` stands under the ids that are not in use yet. -/
def Memory.start (filler : Context) : Memory where
  now := 0
  slots := Table.empty
  slot := fun _ => ⟨filler.key, none, none⟩
  entry := fun _ => ⟨[], ⟨filler, 0, none, none, none⟩⟩
  lease := fun _ => .unissued
  nextSlot := 0
  nextEntry := 0
  nextLease := 0
  nextGeneration := 1
  handed := []
  timers := []

/-- The system before any call. -/
def System.start (filler : Context) : System :=
  ⟨.start filler, RwLock.free, fun _ => ⟨.idle, []⟩⟩

theorem Memory.ok_start (filler : Context) : (Memory.start filler).Ok := by
  have hentry : ∀ e, (Memory.start filler).entry e = ⟨[], ⟨filler, 0, none, none, none⟩⟩ :=
    fun _ => rfl
  have hslot : ∀ sid, (Memory.start filler).slot sid = ⟨filler.key, none, none⟩ := fun _ => rfl
  have hlease : ∀ lease, (Memory.start filler).lease lease = .unissued := fun _ => rfl
  have hhanded : (Memory.start filler).handed = [] := rfl
  have hslots : ∀ key, (Memory.start filler).slots.get key = none := fun _ => rfl
  exact
    { shares := ⟨by simp [hentry, hslot], by simp [hentry], by simp [hentry], by simp [hslot],
        by simp [hentry]⟩
      leases := ⟨by simp [hentry], by simp [hentry, hlease], by simp [hentry], by simp [hhanded],
        by simp [hhanded, hlease], by simp [hlease]⟩
      slots := ⟨by simp [hslots], by simp [hslot], by simp [hslot]⟩ }

theorem Memory.holds_start (filler : Context) (t : TaskId) :
    (Memory.start filler).Holds t ⟨none, [], none, none⟩ := by
  have hentry : ∀ e, (Memory.start filler).entry e = ⟨[], ⟨filler, 0, none, none, none⟩⟩ :=
    fun _ => rfl
  have hslot : ∀ sid, (Memory.start filler).slot sid = ⟨filler.key, none, none⟩ := fun _ => rfl
  have hlease : ∀ lease, (Memory.start filler).lease lease = .unissued := fun _ => rfl
  exact ⟨by simp [hentry], by simp [hentry], by simp, by simp, by simp [hslot], by simp [hlease],
    by simp⟩

theorem ok_start (filler : Context) : (System.start filler).Ok where
  mem := Memory.ok_start filler
  task := fun t =>
    { holds := Memory.holds_start filler t
      queued := fun _ h => by cases h
      reading := fun h => absurd h Bool.false_ne_true
      writing := fun h => absurd h Bool.false_ne_true
      place := fun _ _ h => by cases h
      takes := fun _ h => by cases h
      inTime := fun _ h => by cases h }
  mapped := fun sid hbusy => by
    rcases hbusy with h | h
    · exact absurd rfl h
    · exact absurd rfl h

/-- **The connection cache keeps its contract**, whatever the order of its steps. -/
theorem contract_of_run (filler : Context) (labels : List Label) :
    (run System.step labels (.start filler)).Contract :=
  contract_of_ok (ok_run labels (ok_start filler))

end Connection
end AgentDb
