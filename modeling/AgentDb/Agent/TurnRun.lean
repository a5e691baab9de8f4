import AgentDb.Agent.Turn

/-!
# What holds while chat turns run

Whatever comes between the moves of a turn, its lock and its name stand while it is busy, its text
is what the window was told of it, and its reply is stored once. `holds_of_careful` adds what needs
care: the window is told that a turn is done if its thread was loaded and its message stored, and a
cancel is not lost if it did not come before the slot was registered.
-/

namespace AgentDb
namespace Agent

open Executor

/-! ### Where a turn is -/

namespace Phase

/-- It holds `turn_lock`. -/
def inLock : Phase → Bool
  | queued | returned _ => false
  | _ => true

/-- It is the active turn. -/
def busy : Phase → Bool
  | queued | locked | cleared _ | returned _ => false
  | _ => true

/-- Its process may be there. -/
def running : Phase → Bool
  | waiting _ _ place | polling _ _ place _ => place ≠ .spawning
  | _ => false

/-- Its reply was given to the store. -/
def answered : Phase → Bool
  | replied _ _ | finished _ _ | returning _ | cleared _ | returned _ => true
  | _ => false

/-- It is at its end but for its guards. -/
def ending : Phase → Bool
  | returning _ | cleared _ | returned _ => true
  | _ => false

/-- It is in the middle of a poll. -/
def polled : Phase → Bool
  | polling .. => true
  | _ => false

/-- How many moves are to go at most, for a turn that is not polled again. -/
def toGo : Phase → ℕ
  | queued => 13
  | locked => 12
  | active => 11
  | loaded _ => 10
  | written _ | polling .. => 9
  | waiting .. => 8
  | leaving .. => 7
  | ended .. => 6
  | replied .. => 5
  | finished .. => 4
  | returning _ => 3
  | cleared _ => 2
  | returned _ => 1

theorem busy_of_running {p : Phase} (h : p.running = true) : p.busy = true := by
  cases p <;> first | rfl | cases h

theorem inLock_of_busy {p : Phase} (h : p.busy = true) : p.inLock = true := by
  cases p <;> first | rfl | cases h

end Phase

/-- The chunks the window was given of a turn. -/
def chunksOf (id : Uuid) (events : List ChatEvent) : List String :=
  events.filterMap fun
    | .event turnId _ chunk => if turnId = id then some chunk else none
    | .done .. => none

/-- How often the window was told that a turn is done. -/
def donesOf (id : Uuid) (events : List ChatEvent) : ℕ :=
  events.countP fun
    | .event .. => false
    | .done turnId .. => turnId = id

/-! ### What is asked of the turns -/

/-- What holds of the turns in every state. -/
structure Chat.Holds (w : Chat) : Prop where
  /-- One turn at a time is active, and it is the one `active_turn` names. -/
  one : ∀ i t, w.turns i = some t → t.phase.busy = true → w.shared.activeTurn = some i
  /-- The window is told once that a turn is done. -/
  done : ∀ i t, w.turns i = some t → donesOf i w.shared.events ≤ 1 ∧
    ∀ result, t.phase = .returned result → donesOf i w.shared.events = 1
  /-- A turn whose message was stored has one reply, with every chunk, if the store takes it. -/
  reply : ∀ i t result, w.turns i = some t → t.phase = .returned result →
    rowsOf t.call.userMessageId w.shared.messages ≠ [] → t.refused = false →
      ∃ error, rowsOf i w.shared.messages = [⟨i, t.call.threadId, "assistant",
        String.join (chunksOf i w.shared.events), error⟩]
  /-- A turn that was asked to stop is not polled again, and every move of it brings it closer to
  its end, but for those of a poll that is under way. -/
  cancel : ∀ i t, w.turns i = some t → t.asked = true → t.resumed = false ∧
    ∀ move s' t', TurnStep w.shared t move s' t' → move ≠ .poll ∧
      (t'.phase.toGo < t.phase.toGo ∨ t.phase.polled = true ∧ t'.phase.polled = true)
  /-- No process is there but that of the active turn, while it runs. -/
  child : ∀ i t, w.turns i = some t → t.child = true →
    t.phase.running = true ∧ w.shared.activeTurn = some i

/-- What a move of a turn asks for: its thread is loaded, its message is stored, and it was not
asked to stop before it registers. -/
def Careful (turn : Turn) : TurnMove → Prop
  | .loadFails _ | .writeFails _ => False
  | .register => turn.asked = false
  | _ => True

/-- The same of a move of anybody. -/
def Chat.Careful (w : Chat) : ChatMove → Prop
  | .turn id move => ∀ t, w.turns id = some t → Agent.Careful t move
  | _ => True

/-- A run all of whose moves are careful. -/
inductive Chat.CarefulRun (start : Chat) : List ChatMove → Chat → Prop
  | nil : Chat.CarefulRun start [] start
  | snoc {moves : List ChatMove} {w w' : Chat} {move : ChatMove}
      (hrun : Chat.CarefulRun start moves w) (hcare : w.Careful move) (hstep : w.Step move w') :
      Chat.CarefulRun start (moves ++ [move]) w'

theorem Chat.run_of_careful {start w : Chat} {moves : List ChatMove}
    (h : start.CarefulRun moves w) : start.Run moves w := by
  induction h with
  | nil => exact .nil
  | snoc hrun hcare hstep ih => exact .snoc ih hstep

/-! ### The registry -/

section Registry

variable {r : Registry} {handle : CancelHandle} {m : Registry.Move}

theorem mem_live_step (hmem : handle ∈ r.live) (hdrop : m ≠ .drop handle) :
    handle ∈ (r.step m).live := by
  cases m with
  | register id =>
    change handle ∈ (r.register id).2.live
    cases hslot : r.slots id with
    | none =>
      rw [Registry.register_of_none hslot]
      exact List.mem_cons_of_mem _ hmem
    | some slot =>
      rw [Registry.register_of_some hslot]
      exact List.mem_cons_of_mem _ hmem
  | cancel id =>
    change handle ∈ (r.cancel id).2.live
    unfold Registry.cancel
    cases r.slots id with
    | none => exact hmem
    | some slot =>
      simp only [Registry.send]
      split_ifs <;> exact hmem
  | drop other =>
    by_cases hother : other ∈ r.live
    · rw [Registry.step_drop hother, Registry.live_unregister]
      exact (List.mem_erase_of_ne fun heq => hdrop (congrArg _ heq.symm)).2 hmem
    · rwa [Registry.step_drop_of_not_mem hother]
  | close other => exact hmem

theorem slot_ne_none (hr : r.WellFormed) (hmem : handle ∈ r.live) : r.slots handle.id ≠ none :=
  Option.isSome_iff_ne_none.1 (hr.isSome_iff.2 ⟨handle, hmem, rfl⟩)

theorem isCancelled_eq_signal (hr : r.WellFormed) (hmem : handle ∈ r.live) :
    r.isCancelled handle = r.signal handle.id := by
  obtain ⟨slot, hslot, hrx⟩ := hr.listens hmem
  rw [Registry.signal_of_some hslot, ← hrx]
  rfl

/-- A signal stays set as long as a handle of its id is around. -/
theorem signal_step (hr : r.WellFormed) (hmem : handle ∈ r.live) (hdrop : m ≠ .drop handle)
    (h : m = .cancel handle.id ∨ r.signal handle.id = true) :
    (r.step m).signal handle.id = true := by
  have hslot := slot_ne_none (Registry.wellFormed_step hr m) (mem_live_step hmem hdrop)
  exact (hr.signal_step hslot).2 ⟨slot_ne_none hr hmem, h⟩

/-- The handle that is registered is around. -/
theorem register_spec (r : Registry) (id : Uuid) :
    (r.register id).1 ∈ (r.register id).2.live ∧ (r.register id).1.id = id := by
  cases hslot : r.slots id with
  | none =>
    rw [Registry.register_of_none hslot]
    exact ⟨List.mem_cons_self, rfl⟩
  | some slot =>
    rw [Registry.register_of_some hslot]
    exact ⟨List.mem_cons_self, rfl⟩

end Registry

/-! ### One turn -/

/-- What holds of one turn, as far as the shared state tells. -/
structure TurnOk (s : Shared) (t : Turn) : Prop where
  apart : t.call.userMessageId ≠ t.call.turnId
  lock : t.phase.inLock = true → s.turnLock = some t.call.turnId
  active : t.phase.busy = true → s.activeTurn = some t.call.turnId
  child : t.child = true → t.phase.running = true
  handle : ∀ handle, t.phase.handle = some handle → handle ∈ s.registry.live ∧
    handle.id = t.call.turnId ∧ (t.asked = true → s.registry.signal t.call.turnId = true)
  resumed : t.resumed = false
  text : t.progress.text = String.join (chunksOf t.call.turnId s.events)
  dones : donesOf t.call.turnId s.events = if t.phase.ending then 1 else 0
  unanswered : t.phase.answered = false → rowsOf t.call.turnId s.messages = []
  answered : t.phase.answered = true → t.refused = false →
    ∃ error, rowsOf t.call.turnId s.messages =
      [⟨t.call.turnId, t.call.threadId, "assistant", t.progress.text, error⟩]

section Events

variable {id : Uuid} {events more : List ChatEvent}

@[simp] theorem chunksOf_append :
    chunksOf id (events ++ more) = chunksOf id events ++ chunksOf id more :=
  List.filterMap_append

@[simp] theorem donesOf_append :
    donesOf id (events ++ more) = donesOf id events + donesOf id more :=
  List.countP_append

theorem join_append (l m : List String) :
    String.join (l ++ m) = String.join l ++ String.join m := by
  rw [← String.toList_inj]
  simp

theorem rowsOf_append (messages : List ChatMessage) (m : ChatMessage) :
    rowsOf id (messages ++ [m]) = rowsOf id messages ++ if m.id = id then [m] else [] := by
  rw [rowsOf, rowsOf, List.filter_append]
  by_cases h : m.id = id <;> simp [h]

/-- A signal adds to the text what it adds to the chunks. -/
theorem text_take (t : Turn) (signal : ChatSignal)
    (h : t.progress.text = String.join (chunksOf t.call.turnId events)) :
    (t.progress.take signal).text =
      String.join (chunksOf t.call.turnId (events ++ t.call.emits signal)) := by
  cases signal with
  | text chunk =>
    rw [chunksOf_append, join_append, ← h]
    simp [TurnProgress.take, TurnCall.emits, chunksOf, String.join]
  | sessionId id => simpa [TurnProgress.take, TurnCall.emits, chunksOf] using h
  | turnFailed message => simpa [TurnProgress.take, TurnCall.emits, chunksOf] using h

theorem donesOf_emits (call : TurnCall) (signal : ChatSignal) :
    donesOf id (call.emits signal) = 0 := by
  cases signal <;> rfl

end Events

section Step

variable {s s' : Shared} {t t' : Turn} {move : TurnMove}

theorem call_step (h : TurnStep s t move s' t') : t'.call = t.call := by
  cases h <;> rfl

theorem lock_step (h : TurnStep s t move s' t')
    (hlock : t.phase.inLock = true → s.turnLock = some t.call.turnId) :
    t'.phase.inLock = true → s'.turnLock = some t.call.turnId := by
  cases h with
  | lock => exact fun _ => rfl
  | unlock => intro h; cases h
  | _ => exact fun _ => hlock (by rw [‹t.phase = _›]; rfl)

theorem active_step (h : TurnStep s t move s' t')
    (hactive : t.phase.busy = true → s.activeTurn = some t.call.turnId) :
    t'.phase.busy = true → s'.activeTurn = some t.call.turnId := by
  cases h with
  | activate => exact fun _ => rfl
  | lock | clear | unlock => intro h; cases h
  | _ => exact fun _ => hactive (by rw [‹t.phase = _›]; rfl)

theorem child_step (h : TurnStep s t move s' t')
    (hchild : t.child = true → t.phase.running = true) :
    t'.child = true → t'.phase.running = true := by
  cases h with
  | cancelled | lineFails | exited | exitFails | timedOut => intro h; cases h
  | spawn => exact fun _ => rfl
  | _ =>
    intro h
    have hrunning := hchild h
    rwa [‹t.phase = _›] at hrunning

/-- A move changes the registry by a move of the registry, if at all, and drops no handle but its
own. -/
theorem registry_step (h : TurnStep s t move s' t') : s'.registry = s.registry ∨
    ∃ m, s'.registry = s.registry.step m ∧
      ∀ handle, m = .drop handle → t.phase.handle = some handle := by
  cases h with
  | register =>
    refine .inr ⟨.register t.call.turnId, rfl, ?_⟩
    intro handle heq
    cases heq
  | @unregister thread handle =>
    refine .inr ⟨.drop handle, rfl, ?_⟩
    intro other heq
    cases heq
    rw [‹t.phase = _›]
    rfl
  | _ => exact .inl rfl

theorem handle_step (h : TurnStep s t move s' t')
    (hcare : Careful t move) (hok : TurnOk s t) (handle : CancelHandle)
    (hhandle : t'.phase.handle = some handle) : handle ∈ s'.registry.live ∧
      handle.id = t.call.turnId ∧ (t'.asked = true → s'.registry.signal t.call.turnId = true) := by
  cases h with
  | register =>
    obtain ⟨hlive, hid⟩ := register_spec s.registry t.call.turnId
    obtain rfl := Option.some.inj hhandle
    refine ⟨hlive, hid, fun hasked => ?_⟩
    have hnot : t.asked = false := hcare
    rw [hnot] at hasked
    cases hasked
  | cancelled | poll | spawn | spawnFails | line | signal | linesEnd | lineFails | tailRead
    | exited | exitFails | pend | timedOut =>
    refine hok.handle handle ?_
    rw [‹t.phase = _›]
    exact hhandle
  | _ => cases hhandle

/-- A turn that was asked to stop is not polled. -/
theorem resumed_step (hr : s.registry.WellFormed) (h : TurnStep s t move s' t')
    (hok : TurnOk s t) : t'.resumed = false := by
  cases h with
  | @poll thread handle place hphase hsignal =>
    have hhandle := hok.handle handle (by rw [hphase]; rfl)
    have hasked : t.asked = false := by
      by_contra hne
      rw [isCancelled_eq_signal hr hhandle.1, hhandle.2.1,
        hhandle.2.2 (Bool.eq_true_of_not_eq_false hne)] at hsignal
      cases hsignal
    change (t.resumed || t.asked) = false
    rw [hok.resumed, hasked]
    rfl
  | _ => exact hok.resumed

theorem text_step (h : TurnStep s t move s' t') (hok : TurnOk s t) :
    t'.progress.text = String.join (chunksOf t.call.turnId s'.events) := by
  cases h with
  | signal hphase => exact text_take t _ hok.text
  | exited success hphase =>
    change (ite _ _ _ : TurnProgress).text = _
    split_ifs <;> exact hok.text
  | announce hphase =>
    change t.progress.text = _
    rw [hok.text, chunksOf_append]
    simp [chunksOf]
  | _ => exact hok.text

theorem dones_step (h : TurnStep s t move s' t') (hcare : Careful t move) (hok : TurnOk s t) :
    donesOf t.call.turnId s'.events = if t'.phase.ending then 1 else 0 := by
  have hdones := hok.dones
  cases h with
  | signal hphase =>
    rw [hphase] at hdones
    change donesOf _ (s.events ++ _) = _
    rw [donesOf_append, donesOf_emits, hdones]
    rfl
  | announce hphase =>
    rw [hphase] at hdones
    change donesOf _ (s.events ++ _) = _
    rw [donesOf_append, hdones]
    simp [donesOf, Phase.ending]
  | loadFails | writeFails => exact hcare.elim
  | _ =>
    rw [‹t.phase = _›] at hdones
    exact hdones

theorem rows_step (h : TurnStep s t move s' t') (hcare : Careful t move) (hok : TurnOk s t) :
    (t'.phase.answered = false → rowsOf t.call.turnId s'.messages = []) ∧
      (t'.phase.answered = true → t'.refused = false →
        ∃ error, rowsOf t.call.turnId s'.messages =
          [⟨t.call.turnId, t.call.threadId, "assistant", t'.progress.text, error⟩]) := by
  cases h with
  | loadFails | writeFails => exact hcare.elim
  | write hphase hnew =>
    refine ⟨fun _ => ?_, ?_⟩
    · rw [rowsOf_append, if_neg hok.apart, hok.unanswered (by rw [hphase]; rfl), List.append_nil]
    · intro h
      cases h
  | @reply thread outcome hphase hnew =>
    refine ⟨?_, fun _ _ => ⟨(t.verdict outcome).2, ?_⟩⟩
    · intro h
      cases h
    · rw [rowsOf_append, if_pos rfl, hnew, List.nil_append]
  | replyFails hphase =>
    refine ⟨?_, fun _ => ?_⟩ <;>
      · intro h
        cases h
  | commandFails | register | signal | exited =>
    refine ⟨fun _ => hok.unanswered (by rw [‹t.phase = _›]; rfl), ?_⟩
    intro h
    cases h
  | _ =>
    refine ⟨fun h => hok.unanswered ?_, fun h => hok.answered ?_⟩ <;>
      · rw [‹t.phase = _›]
        exact h

/-- A turn that was asked to stop moves on to its end. -/
theorem toGo_step (hr : s.registry.WellFormed) (h : TurnStep s t move s' t') (hok : TurnOk s t)
    (hasked : t.asked = true) : move ≠ .poll ∧
      (t'.phase.toGo < t.phase.toGo ∨ t.phase.polled = true ∧ t'.phase.polled = true) := by
  cases h with
  | @poll thread handle place hphase hsignal =>
    have hhandle := hok.handle handle (by rw [hphase]; rfl)
    rw [isCancelled_eq_signal hr hhandle.1, hhandle.2.1, hhandle.2.2 hasked] at hsignal
    cases hsignal
  | spawn | line | signal | linesEnd | tailRead =>
    refine ⟨TurnMove.noConfusion, .inr ⟨?_, rfl⟩⟩
    rw [‹t.phase = _›]
    rfl
  | _ =>
    refine ⟨TurnMove.noConfusion, .inl ?_⟩
    rw [‹t.phase = _›]
    simp [Phase.toGo]

/-- **A move keeps what holds of its turn.** -/
theorem turnOk_step (hr : s.registry.WellFormed) (h : TurnStep s t move s' t')
    (hcare : Careful t move) (hok : TurnOk s t) : TurnOk s' t' := by
  have hcall := call_step h
  obtain ⟨hunanswered, hanswered⟩ := rows_step h hcare hok
  refine ⟨?_, ?_, ?_, child_step h hok.child, ?_, resumed_step hr h hok, ?_, ?_, ?_, ?_⟩
  all_goals rw [hcall]
  · exact hok.apart
  · exact lock_step h hok.lock
  · exact active_step h hok.active
  · exact handle_step h hcare hok
  · exact text_step h hok
  · exact dones_step h hcare hok
  · exact hunanswered
  · exact hanswered

/-! ### The other turns -/

/-- What a move leaves to the other turns. -/
theorem others_step (h : TurnStep s t move s' t') (hok : TurnOk s t) :
    (s'.turnLock = s.turnLock ∨ s.turnLock = none ∨ s.turnLock = some t.call.turnId) ∧
    (s'.activeTurn = s.activeTurn ∨ s.turnLock = some t.call.turnId) ∧
    (∀ i, i ≠ t.call.turnId → chunksOf i s'.events = chunksOf i s.events ∧
      donesOf i s'.events = donesOf i s.events) ∧
    ∀ i, i ≠ t.call.turnId → i ≠ t.call.userMessageId →
      rowsOf i s'.messages = rowsOf i s.messages := by
  cases h with
  | lock hphase hfree =>
    exact ⟨.inr (.inl hfree), .inl rfl, fun _ _ => ⟨rfl, rfl⟩, fun _ _ _ => rfl⟩
  | activate hphase =>
    exact ⟨.inl rfl, .inr (hok.lock (by rw [hphase]; rfl)), fun _ _ => ⟨rfl, rfl⟩,
      fun _ _ _ => rfl⟩
  | write hphase hnew =>
    refine ⟨.inl rfl, .inl rfl, fun _ _ => ⟨rfl, rfl⟩, fun i _ huser => ?_⟩
    rw [rowsOf_append, if_neg fun heq => huser heq.symm, List.append_nil]
  | @signal thread handle place signal signals hphase =>
    refine ⟨.inl rfl, .inl rfl, fun i hi => ?_, fun _ _ _ => rfl⟩
    have hchunks : chunksOf i (t.call.emits signal) = [] := by
      cases signal with
      | text chunk => simp [chunksOf, TurnCall.emits, hi.symm]
      | _ => rfl
    rw [chunksOf_append, donesOf_append, donesOf_emits, hchunks, List.append_nil, Nat.add_zero]
    exact ⟨rfl, rfl⟩
  | reply hphase hnew =>
    refine ⟨.inl rfl, .inl rfl, fun _ _ => ⟨rfl, rfl⟩, fun i hi _ => ?_⟩
    rw [rowsOf_append, if_neg fun heq => hi heq.symm, List.append_nil]
  | announce hphase =>
    refine ⟨.inl rfl, .inl rfl, fun i hi => ?_, fun _ _ _ => rfl⟩
    rw [chunksOf_append, donesOf_append]
    simp [chunksOf, donesOf, hi.symm]
  | clear hphase =>
    exact ⟨.inl rfl, .inr (hok.lock (by rw [hphase]; rfl)), fun _ _ => ⟨rfl, rfl⟩,
      fun _ _ _ => rfl⟩
  | unlock hphase =>
    exact ⟨.inr (.inr (hok.lock (by rw [hphase]; rfl))), .inl rfl, fun _ _ => ⟨rfl, rfl⟩,
      fun _ _ _ => rfl⟩
  | _ => exact ⟨.inl rfl, .inl rfl, fun _ _ => ⟨rfl, rfl⟩, fun _ _ _ => rfl⟩

/-- **A move keeps what holds of another turn**: that turn does not hold the lock if this one does,
and its rows, its events and its handle are its own. -/
theorem turnOk_other {u : Turn} (hr : s.registry.WellFormed) (h : TurnStep s t move s' t')
    (ht : TurnOk s t) (hu : TurnOk s u) (hne : u.call.turnId ≠ t.call.turnId)
    (huser : u.call.turnId ≠ t.call.userMessageId) : TurnOk s' u := by
  obtain ⟨hlock, hactive, hevents, hrows⟩ := others_step h ht
  obtain ⟨hchunks, hdones⟩ := hevents _ hne
  have hnot : u.phase.inLock = true → s.turnLock ≠ none ∧ s.turnLock ≠ some t.call.turnId := by
    intro hin
    rw [hu.lock hin]
    exact ⟨Option.some_ne_none _, fun heq => hne (Option.some.inj heq)⟩
  refine ⟨hu.apart, fun hin => ?_, fun hbusy => ?_, hu.child, fun handle hhandle => ?_, hu.resumed,
    ?_, ?_, ?_, ?_⟩
  · rcases hlock with heq | heq | heq
    · rw [heq, hu.lock hin]
    · exact absurd heq (hnot hin).1
    · exact absurd heq (hnot hin).2
  · rcases hactive with heq | heq
    · rw [heq, hu.active hbusy]
    · exact absurd heq (hnot (Phase.inLock_of_busy hbusy)).2
  · obtain ⟨hlive, hid, hasked⟩ := hu.handle handle hhandle
    rcases registry_step h with heq | ⟨m, heq, hdrop⟩
    · rw [heq]
      exact ⟨hlive, hid, hasked⟩
    · have hown : m ≠ .drop handle := by
        intro hm
        exact hne (hid.symm.trans (ht.handle handle (hdrop handle hm)).2.1)
      rw [heq]
      refine ⟨mem_live_step hlive hown, hid, fun h => ?_⟩
      rw [← hid]
      exact signal_step hr hlive hown (.inr (hid ▸ hasked h))
  · rw [hchunks]
    exact hu.text
  · rw [hdones]
    exact hu.dones
  · rw [hrows _ hne huser]
    exact hu.unanswered
  · rw [hrows _ hne huser]
    exact hu.answered

end Step

/-! ### All turns -/

theorem rowsOf_eq_nil {id : Uuid} {messages : List ChatMessage}
    (h : ∀ m ∈ messages, m.id ≠ id) : rowsOf id messages = [] := by
  rw [rowsOf, List.filter_eq_nil_iff]
  intro m hm heq
  exact h m hm (of_decide_eq_true heq)

/-- What holds of all turns. -/
structure Chat.Inv (w : Chat) : Prop where
  registry : w.shared.registry.WellFormed
  turns : ∀ i t, w.turns i = some t → t.call.turnId = i ∧ TurnOk w.shared t
  users : ∀ i t, w.turns i = some t → w.turns t.call.userMessageId = none
  quiet : ∀ i, w.turns i = none →
    chunksOf i w.shared.events = [] ∧ donesOf i w.shared.events = 0

theorem Chat.inv_start (messages : List ChatMessage) : (Chat.start messages).Inv where
  registry := Registry.wellFormed_empty
  turns _ _ h := by cases h
  users _ _ h := by cases h
  quiet _ _ := ⟨rfl, rfl⟩

/-- A turn that was just called. -/
theorem turnOk_new {s : Shared} {call : TurnCall} (hapart : call.turnId ≠ call.userMessageId)
    (hrows : rowsOf call.turnId s.messages = [])
    (hquiet : chunksOf call.turnId s.events = [] ∧ donesOf call.turnId s.events = 0) :
    TurnOk s (.new call) where
  apart := hapart.symm
  lock h := by cases h
  active h := by cases h
  child h := by cases h
  handle _ h := by cases h
  resumed := rfl
  text := by
    change _ = String.join (chunksOf call.turnId s.events)
    rw [hquiet.1]
    rfl
  dones := hquiet.2
  unanswered _ := hrows
  answered h := by cases h

section Inv

variable {w w' : Chat}

theorem Chat.inv_send {call : TurnCall} (h : w.Inv) (hfresh : w.Fresh call) :
    Chat.Inv { w with turns := Function.update w.turns call.turnId (some (.new call)) } where
  registry := h.registry
  turns i t ht := by
    by_cases hi : i = call.turnId
    · subst hi
      simp only [Function.update_self, Option.some.injEq] at ht
      subst ht
      exact ⟨rfl, turnOk_new hfresh.apart (rowsOf_eq_nil fun m hm => (hfresh.rows m hm).1)
        (h.quiet _ hfresh.turn)⟩
    · simp only [Function.update_of_ne hi] at ht
      exact h.turns i t ht
  users i t ht := by
    by_cases hi : i = call.turnId
    · subst hi
      simp only [Function.update_self, Option.some.injEq] at ht
      subst ht
      exact (Function.update_of_ne hfresh.apart.symm _ _).trans hfresh.user
    · simp only [Function.update_of_ne hi] at ht
      exact (Function.update_of_ne (hfresh.users i t ht).1 _ _).trans (h.users i t ht)
  quiet i hi := by
    refine h.quiet i ?_
    by_cases heq : i = call.turnId
    · rw [heq]
      exact hfresh.turn
    · exact (Function.update_of_ne heq _ _).symm.trans hi

theorem Chat.inv_turn {id : Uuid} {t t' : Turn} {s' : Shared} {move : TurnMove} (h : w.Inv)
    (hturn : w.turns id = some t) (hstep : TurnStep w.shared t move s' t')
    (hcare : Agent.Careful t move) : Chat.Inv ⟨s', Function.update w.turns id (some t')⟩ := by
  obtain ⟨hid, hok⟩ := h.turns id t hturn
  have hcall := call_step hstep
  refine ⟨?_, ?_, ?_, ?_⟩
  · rcases registry_step hstep with heq | ⟨m, heq, -⟩
    · exact heq ▸ h.registry
    · exact heq ▸ Registry.wellFormed_step h.registry m
  · intro i u hu
    by_cases hi : i = id
    · subst hi
      simp only [Function.update_self, Option.some.injEq] at hu
      subst hu
      exact ⟨hcall ▸ hid, turnOk_step h.registry hstep hcare hok⟩
    · simp only [Function.update_of_ne hi] at hu
      obtain ⟨hiu, huok⟩ := h.turns i u hu
      refine ⟨hiu, turnOk_other h.registry hstep hok huok ?_ ?_⟩
      · rw [hiu, hid]
        exact hi
      · intro heq
        have hnone := h.users id t hturn
        rw [← heq, hiu, hu] at hnone
        cases hnone
  · intro i u hu
    by_cases hi : i = id
    · subst hi
      simp only [Function.update_self, Option.some.injEq] at hu
      subst hu
      have hnone := h.users i t hturn
      rw [hcall]
      refine (Function.update_of_ne ?_ _ _).trans hnone
      intro heq
      rw [heq, hturn] at hnone
      cases hnone
    · simp only [Function.update_of_ne hi] at hu
      have hnone := h.users i u hu
      refine (Function.update_of_ne ?_ _ _).trans hnone
      intro heq
      rw [heq, hturn] at hnone
      cases hnone
  · intro i hi
    have hne : i ≠ id := by
      intro heq
      rw [heq] at hi
      simp at hi
    have hquiet := h.quiet i ((Function.update_of_ne hne _ _).symm.trans hi)
    obtain ⟨hchunks, hdones⟩ := (others_step hstep hok).2.2.1 i (hid.symm ▸ hne)
    exact ⟨hchunks.trans hquiet.1, hdones.trans hquiet.2⟩

/-- A move of the registry that drops no handle of a turn, and what is remembered of it. -/
theorem Chat.turnOk_registry {s : Shared} {t : Turn} {m : Registry.Move} {asked : Bool}
    (hr : s.registry.WellFormed) (hok : TurnOk s t)
    (hown : ∀ handle, t.phase.handle = some handle → m ≠ .drop handle)
    (hasked : asked = true → t.asked = true ∨ m = .cancel t.call.turnId) :
    TurnOk { s with registry := s.registry.step m } { t with asked } where
  apart := hok.apart
  lock := hok.lock
  active := hok.active
  child := hok.child
  handle handle hhandle := by
    obtain ⟨hlive, hid, hsignal⟩ := hok.handle handle hhandle
    refine ⟨mem_live_step hlive (hown handle hhandle), hid, fun h => ?_⟩
    change (s.registry.step m).signal t.call.turnId = true
    rw [← hid]
    refine signal_step hr hlive (hown handle hhandle) ?_
    rcases hasked h with h | h
    · exact .inr (hid ▸ hsignal h)
    · exact .inl (hid ▸ h)
  resumed := hok.resumed
  text := hok.text
  dones := hok.dones
  unanswered := hok.unanswered
  answered := hok.answered

theorem Chat.inv_cancel (id : Uuid) (h : w.Inv) : (w.cancel id).Inv := by
  have hnone : ∀ i, (w.cancel id).turns i = none ↔ w.turns i = none := by
    intro i
    simp [Chat.cancel]
  refine ⟨Registry.wellFormed_step h.registry (.cancel id), ?_, ?_,
    fun i hi => h.quiet i ((hnone i).1 hi)⟩
  · intro i t ht
    obtain ⟨u, hu, rfl⟩ := Option.map_eq_some_iff.1 ht
    obtain ⟨hiu, hok⟩ := h.turns i u hu
    have hown : ∀ handle, u.phase.handle = some handle → Registry.Move.cancel id ≠ .drop handle :=
      fun _ _ heq => by cases heq
    split_ifs with hasked
    · refine ⟨hiu, Chat.turnOk_registry h.registry hok hown fun _ => .inr ?_⟩
      rw [hiu, hasked.1]
    · exact ⟨hiu, Chat.turnOk_registry h.registry hok hown .inl⟩
  · intro i t ht
    obtain ⟨u, hu, rfl⟩ := Option.map_eq_some_iff.1 ht
    rw [hnone]
    split_ifs <;> exact h.users i u hu

theorem Chat.inv_other {move : Registry.Move} (h : w.Inv)
    (hown : ∀ i t handle, w.turns i = some t → t.phase.handle = some handle →
      move ≠ .drop handle) :
    Chat.Inv { w with shared := { w.shared with registry := w.shared.registry.step move } } where
  registry := Registry.wellFormed_step h.registry move
  turns i t ht :=
    ⟨(h.turns i t ht).1, Chat.turnOk_registry h.registry (h.turns i t ht).2
      (fun handle hhandle => hown i t handle ht hhandle) .inl⟩
  users := h.users
  quiet := h.quiet

/-- **A careful move of anybody keeps what holds.** -/
theorem Chat.inv_step {move : ChatMove} (h : w.Inv) (hcare : w.Careful move)
    (hstep : w.Step move w') : w'.Inv := by
  cases hstep with
  | send call hfresh => exact Chat.inv_send h hfresh
  | turn hturn hstep => exact Chat.inv_turn h hturn hstep (hcare _ hturn)
  | cancel id => exact Chat.inv_cancel id h
  | other move hown => exact Chat.inv_other h hown

theorem Chat.inv_careful {start : Chat} {moves : List ChatMove} (hstart : start.Inv)
    (hrun : start.CarefulRun moves w) : w.Inv := by
  induction hrun with
  | nil => exact hstart
  | snoc hrun hcare hstep ih => exact Chat.inv_step ih hcare hstep

/-- The invariant says what is asked of the turns. -/
theorem Chat.holds_of_inv (h : w.Inv) : w.Holds where
  one i t ht hbusy := by
    obtain ⟨rfl, hok⟩ := h.turns i t ht
    exact hok.active hbusy
  done i t ht := by
    obtain ⟨rfl, hok⟩ := h.turns i t ht
    rw [hok.dones]
    refine ⟨by split_ifs <;> decide, fun result hphase => ?_⟩
    rw [hphase]
    rfl
  reply i t result ht hphase _ hrefused := by
    obtain ⟨rfl, hok⟩ := h.turns i t ht
    rw [← hok.text]
    exact hok.answered (by rw [hphase]; rfl) hrefused
  cancel i t ht hasked := by
    obtain ⟨rfl, hok⟩ := h.turns i t ht
    exact ⟨hok.resumed, fun _ _ _ hstep => toGo_step h.registry hstep hok hasked⟩
  child i t ht hchild := by
    obtain ⟨rfl, hok⟩ := h.turns i t ht
    have hrunning := hok.child hchild
    exact ⟨hrunning, hok.active (Phase.busy_of_running hrunning)⟩

end Inv

/-! ### Runs of one turn -/

section Alone

/-- Only one turn was called. -/
def only (t : Turn) : Uuid → Option Turn := Function.update (fun _ => none) t.call.turnId (some t)

theorem only_self (t : Turn) : only t t.call.turnId = some t := Function.update_self ..

theorem only_inv {t u : Turn} {i : Uuid} (h : only t i = some u) : u = t := by
  by_cases hi : i = t.call.turnId
  · subst hi
    exact (Option.some.inj ((only_self t).symm.trans h)).symm
  · rw [only, Function.update_of_ne hi] at h
    cases h

theorem step_alone {s s' : Shared} {t t' : Turn} {move : TurnMove} (h : TurnStep s t move s' t') :
    Chat.Step ⟨s, only t⟩ (.turn t.call.turnId move) ⟨s', only t'⟩ := by
  have hstep := Chat.Step.turn (w := ⟨s, only t⟩) (only_self t) h
  have honly : Function.update (only t) t.call.turnId (some t') = only t' := by
    rw [only, Function.update_idem, ← call_step h, only]
  rwa [honly] at hstep

theorem cancel_alone {s : Shared} {t : Turn} (h : s.activeTurn = some t.call.turnId) :
    Chat.Step ⟨s, only t⟩ (.cancel t.call.turnId)
      ⟨{ s with registry := s.registry.step (.cancel t.call.turnId) },
        only { t with asked := true }⟩ := by
  have hstep := Chat.Step.cancel (w := ⟨s, only t⟩) t.call.turnId
  refine Eq.mp (congrArg _ ?_) hstep
  rw [Chat.cancel]
  congr 1
  funext i
  by_cases hi : i = t.call.turnId
  · subst hi
    refine Eq.trans ?_ (only_self { t with asked := true }).symm
    refine (congrArg (Option.map _) (only_self t)).trans ?_
    rw [Option.map_some, if_pos ⟨rfl, h⟩]
  · simp [only, Function.update_of_ne hi]

theorem careful_alone {start : Chat} {s s' : Shared} {t t' : Turn} {moves : List ChatMove}
    {move : TurnMove} (hrun : start.CarefulRun moves ⟨s, only t⟩) (h : TurnStep s t move s' t')
    (hcare : Careful t move) :
    start.CarefulRun (moves ++ [.turn t.call.turnId move]) ⟨s', only t'⟩ := by
  refine .snoc hrun (fun u hu => ?_) (step_alone h)
  rw [only_inv hu]
  exact hcare

theorem careful_cancel_alone {start : Chat} {s : Shared} {t : Turn} {moves : List ChatMove}
    (hrun : start.CarefulRun moves ⟨s, only t⟩) (h : s.activeTurn = some t.call.turnId) :
    start.CarefulRun (moves ++ [.cancel t.call.turnId])
      ⟨{ s with registry := s.registry.step (.cancel t.call.turnId) },
        only { t with asked := true }⟩ :=
  .snoc hrun trivial (cancel_alone h)

/-- The only turn, once `active_turn` names it. -/
def activeAlone (call : TurnCall) : Chat :=
  ⟨⟨some call.turnId, some call.turnId, {}, [], []⟩, only { Turn.new call with phase := .active }⟩

theorem careful_active {call : TurnCall} (hapart : call.turnId ≠ call.userMessageId) :
    (Chat.start []).CarefulRun
      [.send call, .turn call.turnId .lock, .turn call.turnId .activate] (activeAlone call) := by
  have hfresh : (Chat.start []).Fresh call :=
    ⟨rfl, rfl, hapart, fun _ _ h => absurd h.symm (Option.some_ne_none _),
      fun _ h => absurd h List.not_mem_nil⟩
  have hsend : (Chat.start []).CarefulRun [.send call] ⟨(Chat.start []).shared, only (.new call)⟩ :=
    .snoc .nil trivial (.send call hfresh)
  exact careful_alone (careful_alone hsend (.lock rfl rfl) trivial) (.activate rfl) trivial

/-- The only turn, once its message is stored. -/
def writtenAlone (call : TurnCall) (thread : ChatThread) : Chat :=
  ⟨⟨some call.turnId, some call.turnId, {},
      [⟨call.userMessageId, call.threadId, "user", call.message, none⟩], []⟩,
    only { Turn.new call with phase := .written thread }⟩

theorem careful_written {call : TurnCall} (hapart : call.turnId ≠ call.userMessageId)
    (thread : ChatThread) :
    (Chat.start []).CarefulRun
      [.send call, .turn call.turnId .lock, .turn call.turnId .activate,
        .turn call.turnId (.load thread), .turn call.turnId .write] (writtenAlone call thread) :=
  careful_alone (careful_alone (careful_active hapart) (.load thread rfl) trivial) (.write rfl rfl)
    trivial

theorem not_holds_of_silent {s : Shared} {t : Turn} {result : AppResult Unit}
    (hphase : t.phase = .returned result) (hdones : donesOf t.call.turnId s.events = 0) :
    ¬ Chat.Holds ⟨s, only t⟩ := by
  intro h
  have hdone := (h.done _ t (only_self t)).2 result hphase
  change donesOf _ s.events = 1 at hdone
  omega

theorem not_holds_of_resumed {s : Shared} {t : Turn} (hasked : t.asked = true)
    (hresumed : t.resumed = true) : ¬ Chat.Holds ⟨s, only t⟩ := by
  intro h
  have hnot := (h.cancel _ t (only_self t) hasked).1
  exact Bool.false_ne_true (hnot.symm.trans hresumed)

end Alone

/-- **Any interleaving of turns, cancels and other tasks**, if every turn loads its thread and
stores its message and is not asked to stop before it registers. -/
theorem Chat.holds_of_careful (messages : List ChatMessage) {moves : List ChatMove} {w : Chat}
    (hrun : (Chat.start messages).CarefulRun moves w) : w.Holds :=
  Chat.holds_of_inv (Chat.inv_careful (Chat.inv_start messages) hrun)

/-- A turn that is cancelled before its process is there. -/
theorem holds_of_careful_cancelled :
    let call : TurnCall := ⟨.ofByte 1, "hi", .ofByte 2, .ofByte 3⟩
    let turn := ChatMove.turn (.ofByte 2)
    ∃ w : Chat, (Chat.start []).CarefulRun
      [.send call, turn .lock, turn .activate, turn (.load ⟨.claude, none⟩), turn .write,
        turn .register, .cancel (.ofByte 2), turn .cancelled, turn .unregister, turn .reply,
        turn .finish, turn .announce, turn .clear, turn .unlock] w ∧ w.Holds := by
  intro call turn
  have hapart : call.turnId ≠ call.userMessageId := by decide
  have hwritten := careful_written hapart ⟨.claude, none⟩
  have hcancel := careful_cancel_alone (careful_alone hwritten (.register rfl) rfl) rfl
  have hgone := careful_alone (careful_alone hcancel (.cancelled rfl rfl) trivial) (.unregister rfl)
    trivial
  have hreply := careful_alone hgone (.reply rfl rfl) trivial
  have hend := careful_alone (careful_alone (careful_alone (careful_alone hreply
    (.finish rfl) trivial) (.announce rfl) trivial) (.clear rfl) trivial) (.unlock rfl) trivial
  exact ⟨_, hend, Chat.holds_of_careful [] hend⟩

/-- The thread is gone, and the window never hears that the turn is done; and a cancel that comes
before the slot is registered is lost. -/
theorem not_holds :
    let call : TurnCall := ⟨.ofByte 1, "hi", .ofByte 2, .ofByte 3⟩
    let turn := ChatMove.turn (.ofByte 2)
    let gone := AppError.notFound ("chat thread " ++ call.threadId.toText)
    (∃ s t, (Chat.start []).Run
      [.send call, turn .lock, turn .activate, turn (.loadFails gone), turn .clear, turn .unlock]
      ⟨s, only t⟩ ∧ t.phase = .returned (.error gone) ∧ s.events = [] ∧
      ¬ Chat.Holds ⟨s, only t⟩) ∧
    ∃ s t, (Chat.start []).Run
      [.send call, turn .lock, turn .activate, turn (.load ⟨.claude, none⟩), turn .write,
        .cancel (.ofByte 2), turn .register, turn .poll, turn .spawn] ⟨s, only t⟩ ∧
      t.asked = true ∧ t.child = true ∧ ¬ Chat.Holds ⟨s, only t⟩ := by
  intro call turn gone
  have hapart : call.turnId ≠ call.userMessageId := by decide
  constructor
  · have hreturned := Chat.Run.snoc (.snoc (.snoc (Chat.run_of_careful (careful_active hapart))
      (step_alone (.loadFails gone rfl))) (step_alone (.clear rfl))) (step_alone (.unlock rfl))
    exact ⟨_, _, hreturned, rfl, rfl, not_holds_of_silent rfl rfl⟩
  · have hcancel := Chat.Run.snoc (Chat.run_of_careful (careful_written hapart ⟨.claude, none⟩))
      (cancel_alone rfl)
    have hspawned := Chat.Run.snoc (.snoc (.snoc hcancel
      (step_alone (.register rfl))) (step_alone (.poll rfl rfl))) (step_alone (.spawn rfl))
    exact ⟨_, _, hspawned, rfl, rfl, not_holds_of_resumed rfl rfl⟩

end Agent
end AgentDb
