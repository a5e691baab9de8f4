import AgentDb.Lib.HashChain
import AgentDb.Operations.Run

/-!
# The ledger and the projection

Each operation is kept twice: as a row that is overwritten and as a ledger that only grows.
`Ledger` says what the two owe each other, and `Sound` that every operation of the tables has
such a ledger. Each of the five writes appends one event at most and keeps `Sound`; so does every
run. The predicate `D` holds of the details of every event.
-/

namespace AgentDb
namespace Operations

open Json

variable {x : Crates} {D : Value → Prop} {t t' : Tables}

/-- The states an operation is in before its execution starts. -/
def beforeExecution (s : OperationState) : Bool := !s.isTerminal && s ≠ .executing

theorem beforeExecution_of_allowed {s u : OperationState} (h : allowed s u)
    (hu : beforeExecution u) : beforeExecution s := by
  cases s <;> cases u <;> simp_all [allowed, beforeExecution, OperationState.isTerminal]

theorem transitionEventKind_eq_executionStarted {s : OperationState} :
    transitionEventKind s = .executionStarted ↔ s = .executing := by
  cases s <;> simp [transitionEventKind]

/-- How an event of kind `kind` and state `s'` may follow one of state `s`. -/
def FollowsFrom (s : OperationState) (e : OperationEventRow) : Prop :=
  (e.kind = .progress ∧ s = .executing ∧ e.state = .executing) ∨
    (allowed s e.state ∧ e.kind = transitionEventKind e.state)

/-- What `event_hash` takes of a row. -/
def OperationEventRow.hashInput (e : OperationEventRow) : EventHashInput where
  eventId := e.id
  operationId := e.operationId
  sequence := e.sequence
  kind := e.kind
  state := e.state
  eventJson := e.eventJson
  createdAt := e.createdAt
  prevHash := e.prevHash

def OperationEventRow.startsExecution (e : OperationEventRow) : Bool := e.kind = .executionStarted

/-- The events of an operation are numbered from one on, in the order of insertion. -/
def Numbered (es : List OperationEventRow) : Prop :=
  es.map (·.sequence) = List.range' 1 es.length

/-- The ledger `es` of the operation `row`. -/
structure Ledger (x : Crates) (D : Value → Prop) (row : OperationRow)
    (es : List OperationEventRow) : Prop where
  numbered : Numbered es
  first : es.head?.map (fun e => (e.kind, e.state)) = some (.planned, .planned)
  steps : es.IsChain fun e e' => FollowsFrom e.state e'
  last : es.getLast?.map (·.state) = some row.state
  linked : HashChain.Linked (·.prevHash) (·.hash) none es
  hashed : ∀ e ∈ es, e.hash = eventHash x e.hashInput
  texts : ∀ e ∈ es, ∃ d, D d ∧ e.eventJson = canonicalJson x d
  once : es.countP (·.startsExecution) ≤ 1
  pristine : beforeExecution row.state → es.countP (·.startsExecution) = 0
  started : row.startedAt.isSome ↔ ∃ e ∈ es, e.kind = .executionStarted
  finished : row.finishedAt.isSome ↔ row.state.isTerminal

/-- One more event, and the row it leaves. -/
theorem Ledger.append {row row' : OperationRow} {es : List OperationEventRow}
    {e : OperationEventRow} (h : Ledger x D row es) (hsequence : e.sequence = es.length + 1)
    (hprev : e.prevHash = es.getLast?.map (·.hash)) (hhash : e.hash = eventHash x e.hashInput)
    (htext : ∃ d, D d ∧ e.eventJson = canonicalJson x d) (hfollows : FollowsFrom row.state e)
    (hstate : row'.state = e.state)
    (hstarted : row'.startedAt.isSome ↔ row.startedAt.isSome ∨ e.kind = .executionStarted)
    (hfinished : row'.finishedAt.isSome ↔ row'.state.isTerminal) :
    Ledger x D row' (es ++ [e]) := by
  obtain ⟨l, hl, hlstate⟩ := Option.map_eq_some_iff.1 h.last
  have hne : es ≠ [] := by
    rintro rfl
    simp at hl
  -- only a claim appends such an event, and a claim finds none
  have hfresh : e.startsExecution → es.countP (·.startsExecution) = 0 := by
    intro he
    simp only [OperationEventRow.startsExecution, decide_eq_true_eq] at he
    rcases hfollows with ⟨hk, -, -⟩ | ⟨hallowed, hk⟩
    · rw [hk] at he
      cases he
    · rw [hk, transitionEventKind_eq_executionStarted] at he
      rw [he] at hallowed
      refine h.pristine ?_
      rcases allowed_executing hallowed with hs | hs <;> rw [hs] <;> rfl
  have hcount : (es ++ [e]).countP (·.startsExecution) =
      es.countP (·.startsExecution) + if e.startsExecution then 1 else 0 := by
    rw [List.countP_append, List.countP_singleton]
  refine ⟨?_, ?_, ?_, ?_, ?_, ?_, ?_, ?_, ?_, ?_, hfinished⟩
  · rw [Numbered, List.map_append, h.numbered, List.length_append, List.length_singleton,
      List.map_singleton, hsequence, List.range'_concat]
    simp [Nat.add_comm]
  · rw [List.head?_append_of_ne_nil _ hne]
    exact h.first
  · refine h.steps.append (List.isChain_singleton e) ?_
    intro a ha b hb
    obtain rfl : e = b := by simpa using hb
    obtain rfl : l = a := by
      rw [hl] at ha
      simpa using ha
    rw [hlstate]
    exact hfollows
  · simp [hstate]
  · rw [HashChain.linked_concat, HashChain.tip_none_eq_getLast?]
    exact ⟨h.linked, hprev⟩
  · intro a ha
    rcases List.mem_append.1 ha with ha | ha
    · exact h.hashed a ha
    · obtain rfl := List.mem_singleton.1 ha
      exact hhash
  · intro a ha
    rcases List.mem_append.1 ha with ha | ha
    · exact h.texts a ha
    · obtain rfl := List.mem_singleton.1 ha
      exact htext
  · rw [hcount]
    by_cases he : e.startsExecution
    · rw [hfresh he, if_pos he]
    · rw [if_neg he]
      exact h.once
  · intro hbefore
    rw [hstate] at hbefore
    rcases hfollows with ⟨-, -, hs⟩ | ⟨hallowed, hk⟩
    · rw [hs] at hbefore
      exact absurd hbefore (by decide)
    · have he : ¬ e.startsExecution := by
        simp only [OperationEventRow.startsExecution, decide_eq_true_eq, hk,
          transitionEventKind_eq_executionStarted]
        intro hs
        rw [hs] at hbefore
        exact absurd hbefore (by decide)
      rw [hcount, if_neg he, h.pristine (beforeExecution_of_allowed hallowed hbefore)]
  · rw [hstarted, h.started]
    simp [or_and_right, exists_or]

/-- The first event of a row just planned. -/
theorem Ledger.singleton {row : OperationRow} {e : OperationEventRow} (hsequence : e.sequence = 1)
    (hprev : e.prevHash = none) (hhash : e.hash = eventHash x e.hashInput)
    (htext : ∃ d, D d ∧ e.eventJson = canonicalJson x d) (hkind : e.kind = .planned)
    (hestate : e.state = .planned) (hstate : row.state = .planned)
    (hstarted : row.startedAt = none) (hfinished : row.finishedAt = none) :
    Ledger x D row [e] := by
  have hnot : e.startsExecution = false := by simp [OperationEventRow.startsExecution, hkind]
  refine ⟨by simp [Numbered, hsequence], by simp [hkind, hestate], List.isChain_singleton e,
    by simp [hestate, hstate], ?_, ?_, ?_, by simp [hnot], by simp [hnot],
    by simp [hstarted, hkind], by simp [hfinished, hstate, OperationState.isTerminal]⟩
  · exact ⟨hprev, trivial⟩
  · intro a ha
    obtain rfl := List.mem_singleton.1 ha
    exact hhash
  · intro a ha
    obtain rfl := List.mem_singleton.1 ha
    exact htext

/-! ### The ledger as it is stored -/

/-- The events of an operation in the order they were inserted. -/
def Tables.eventsOf (t : Tables) (id : Uuid) : List OperationEventRow :=
  t.events.filter fun e => e.operationId = id

section NextEvent

variable {u : Tables} {id id' eventId : Uuid} {kind : OperationEventKind} {state : OperationState}
  {details : Value} {now : DateTime}

theorem eventsOf_nextEvent_self :
    (u.addEvent (nextEvent x t id kind state details now eventId)).eventsOf id =
      u.eventsOf id ++ [nextEvent x t id kind state details now eventId] := by
  rw [Tables.eventsOf, Tables.addEvent, List.filter_append, Tables.eventsOf]
  simp [nextEvent]

theorem eventsOf_nextEvent_ne (h : id ≠ id') :
    (u.addEvent (nextEvent x t id kind state details now eventId)).eventsOf id' =
      u.eventsOf id' := by
  rw [Tables.eventsOf, Tables.addEvent, List.filter_append, Tables.eventsOf]
  simp [nextEvent, h]

end NextEvent

/-- Insertion order is sequence order. -/
theorem Numbered.ledger_eq {id : Uuid} (h : Numbered (t.eventsOf id)) :
    t.ledger id = t.eventsOf id := by
  have hsorted : ((t.eventsOf id).map (·.sequence)).Pairwise (· ≤ ·) := by
    rw [h]
    exact (List.pairwise_lt_range' 1 Nat.one_pos).imp fun hab => hab.le
  exact (List.pairwise_map.1 hsorted).insertionSort_eq

theorem Numbered.getLast?_sequence {es : List OperationEventRow} (h : Numbered es) :
    (es.getLast?.map (·.sequence)).getD 0 = es.length := by
  rw [← List.getLast?_map, h, List.getLast?_range']
  by_cases hlen : es.length = 0
  · rw [if_pos hlen, hlen]
    rfl
  · rw [if_neg hlen, Option.getD_some]
    omega

theorem Numbered.nextEvent_sequence {id : Uuid} (h : Numbered (t.eventsOf id))
    (kind : OperationEventKind) (state : OperationState) (details : Value) (now : DateTime)
    (eventId : Uuid) :
    (nextEvent x t id kind state details now eventId).sequence = (t.eventsOf id).length + 1 := by
  rw [nextEvent, h.ledger_eq, h.getLast?_sequence]

/-- Appending the next event of a sound ledger. -/
theorem Ledger.nextEvent {row row' : OperationRow} {id : Uuid}
    (h : Ledger x D row (t.eventsOf id)) {kind : OperationEventKind} {state : OperationState}
    {details : Value} {now : DateTime} {eventId : Uuid} (hd : D details)
    (hfollows : (kind = .progress ∧ row.state = .executing ∧ state = .executing) ∨
      (allowed row.state state ∧ kind = transitionEventKind state))
    (hstate : row'.state = state)
    (hstarted : row'.startedAt.isSome ↔ row.startedAt.isSome ∨ kind = .executionStarted)
    (hfinished : row'.finishedAt.isSome ↔ row'.state.isTerminal) :
    Ledger x D row'
      (t.eventsOf id ++ [Operations.nextEvent x t id kind state details now eventId]) := by
  refine h.append (h.numbered.nextEvent_sequence ..) ?_ rfl ⟨details, hd, rfl⟩ hfollows hstate
    hstarted hfinished
  rw [Operations.nextEvent, h.numbered.ledger_eq]

/-! ### The tables -/

/-- **The invariant of the repository**: every operation has a readable row and its ledger, and
nothing stands in the tables that belongs to no operation. -/
structure Sound (x : Crates) (D : Value → Prop) (t : Tables) : Prop where
  ids : t.UniqueIds
  readable : ∀ row ∈ t.operations, row.Readable x
  owned : ∀ e ∈ t.events, ∃ row ∈ t.operations, row.id = e.operationId
  approvers : ∀ a ∈ t.approvals, a.approver.identified
  ledgers : ∀ row ∈ t.operations, Ledger x D row (t.eventsOf row.id)

theorem Sound.empty : Sound x D {} := by
  refine ⟨List.nodup_nil, ?_, ?_, ?_, ?_⟩ <;> intro a ha <;> cases ha

/-- An operation that is not there has no events. -/
theorem Sound.eventsOf_eq_nil (h : Sound x D t) {id : Uuid}
    (hid : ∀ row ∈ t.operations, row.id ≠ id) : t.eventsOf id = [] := by
  refine List.filter_eq_nil_iff.2 fun e he => ?_
  obtain ⟨row, hrow, hrowid⟩ := h.owned e he
  have hne := hid row hrow
  rw [hrowid] at hne
  simpa using hne

theorem mem_moveRow {row r : OperationRow} {target : OperationState} {details : Value}
    {now : DateTime} {eventId : Uuid} :
    r ∈ (t.moveRow x row target details now eventId).operations ↔
      ∃ r₀ ∈ t.operations, (if r₀.id = row.id then r₀.moved target now else r₀) = r := by
  simp [Tables.moveRow]

theorem finished_moved {row : OperationRow} {target : OperationState} {now : DateTime}
    (hallowed : allowed row.state target) (h : row.finishedAt.isSome ↔ row.state.isTerminal) :
    (row.moved target now).finishedAt.isSome ↔ (row.moved target now).state.isTerminal := by
  by_cases hterminal : target.isTerminal
  · simp [OperationRow.moved, hterminal]
  · have hopen : ¬ row.state.isTerminal := by
      intro hs
      rw [not_allowed_of_isTerminal hs] at hallowed
      cases hallowed
    have hkept : (row.moved target now).finishedAt = row.finishedAt := by
      simp [OperationRow.moved, hterminal]
    rw [hkept, h]
    exact iff_of_false hopen hterminal

/-- A row moves, by a call or by a claim. -/
theorem Sound.moveRow (h : Sound x D t) {row : OperationRow} (hrow : row ∈ t.operations)
    {target : OperationState} (hallowed : allowed row.state target) {details : Value}
    (hd : D details) (now : DateTime) (eventId : Uuid) :
    Sound x D (t.moveRow x row target details now eventId) := by
  -- the update of `operations` does not touch the events
  have hself : (t.moveRow x row target details now eventId).eventsOf row.id = t.eventsOf row.id ++
      [nextEvent x t row.id (transitionEventKind target) target details now eventId] :=
    eventsOf_nextEvent_self (t := t) (u := t)
  have hother : ∀ id, row.id ≠ id →
      (t.moveRow x row target details now eventId).eventsOf id = t.eventsOf id :=
    fun id hne => eventsOf_nextEvent_ne (t := t) (u := t) hne
  refine ⟨uniqueIds_moveRow h.ids, ?_, ?_, h.approvers, ?_⟩
  · intro r hr
    obtain ⟨r₀, hr₀, rfl⟩ := mem_moveRow.1 hr
    by_cases hid : r₀.id = row.id
    · rw [if_pos hid]
      exact h.readable r₀ hr₀
    · rw [if_neg hid]
      exact h.readable r₀ hr₀
  · intro e he
    have howner : ∃ r ∈ t.operations, r.id = e.operationId := by
      rcases List.mem_append.1 he with he | he
      · exact h.owned e he
      · obtain rfl := List.mem_singleton.1 he
        exact ⟨row, hrow, rfl⟩
    obtain ⟨r, hr, hid⟩ := howner
    refine ⟨_, mem_moveRow.2 ⟨r, hr, rfl⟩, ?_⟩
    by_cases hrid : r.id = row.id
    · rw [if_pos hrid]
      exact hid
    · rw [if_neg hrid]
      exact hid
  · intro r hr
    obtain ⟨r₀, hr₀, rfl⟩ := mem_moveRow.1 hr
    by_cases hid : r₀.id = row.id
    · obtain rfl := h.ids.eq hr₀ hrow hid
      rw [if_pos rfl]
      have hsame : (r₀.moved target now).id = r₀.id := rfl
      rw [hsame, hself]
      refine (h.ledgers r₀ hr₀).nextEvent hd (.inr ⟨hallowed, rfl⟩) rfl ?_ ?_
      · rw [transitionEventKind_eq_executionStarted]
        by_cases hexec : target = .executing <;> simp [OperationRow.moved, hexec]
      · exact finished_moved hallowed (h.ledgers r₀ hr₀).finished
    · rw [if_neg hid, hother r₀.id (Ne.symm hid)]
      exact h.ledgers r₀ hr₀

/-- **One write keeps the invariant.** -/
theorem Sound.write (h : Sound x D t) (hw : Write x D t t') : Sound x D t' := by
  have hids := hw.uniqueIds h.ids
  cases hw with
  | move hrow hallowed _ hd => exact h.moveRow hrow hallowed hd _ _
  | approve hidentified =>
    refine ⟨h.ids, h.readable, h.owned, fun a ha => ?_, h.ledgers⟩
    rcases List.mem_append.1 ha with ha | ha
    · exact h.approvers a ha
    · obtain rfl := List.mem_singleton.1 ha
      exact hidentified
  | @progress row details now eventId hrow hstate hd =>
    refine ⟨h.ids, h.readable, fun e he => ?_, h.approvers, fun r hr => ?_⟩
    · rcases List.mem_append.1 he with he | he
      · exact h.owned e he
      · obtain rfl := List.mem_singleton.1 he
        exact ⟨row, hrow, rfl⟩
    · by_cases hid : row.id = r.id
      · obtain rfl := h.ids.eq hrow hr hid
        rw [eventsOf_nextEvent_self]
        exact (h.ledgers row hrow).nextEvent hd (.inl ⟨rfl, hstate, rfl⟩) hstate (by simp)
          (h.ledgers row hrow).finished
      · rw [eventsOf_nextEvent_ne hid]
        exact h.ledgers r hr
  | @plan row details now eventId hfresh hread hstate hstarted hfinished hd =>
    refine ⟨hids, fun r hr => ?_, fun e he => ?_, h.approvers, fun r hr => ?_⟩
    · rcases List.mem_append.1 hr with hr | hr
      · exact h.readable r hr
      · obtain rfl := List.mem_singleton.1 hr
        exact hread
    · rcases List.mem_append.1 he with he | he
      · obtain ⟨r, hr, hid⟩ := h.owned e he
        exact ⟨r, List.mem_append_left _ hr, hid⟩
      · obtain rfl := List.mem_singleton.1 he
        exact ⟨row, by simp [Tables.addEvent], rfl⟩
    · have hnone : t.eventsOf row.id = [] := h.eventsOf_eq_nil hfresh
      have hledger : t.ledger row.id = [] := by
        rw [Tables.ledger, show t.events.filter _ = [] from hnone]
        rfl
      have hold : ∀ id, ({ t with operations := t.operations ++ [row] } : Tables).eventsOf id =
        t.eventsOf id := fun _ => rfl
      rcases List.mem_append.1 hr with hr | hr
      · rw [eventsOf_nextEvent_ne (Ne.symm (hfresh r hr)), hold]
        exact h.ledgers r hr
      · obtain rfl := List.mem_singleton.1 hr
        rw [eventsOf_nextEvent_self, hold, hnone, List.nil_append]
        refine .singleton ?_ ?_ rfl ⟨details, hd, rfl⟩ rfl rfl hstate hstarted hfinished
        · rw [nextEvent, hledger]
          rfl
        · rw [nextEvent, hledger]
          rfl

theorem Sound.claim {id : Uuid} (h : Sound x D t) (hc : Claim x D id t t') : Sound x D t' := by
  cases hc with
  | claim hrow _ hclaimable hd =>
    refine h.moveRow hrow ?_ hd _ _
    rcases hclaimable with ⟨hs, -⟩ | ⟨hs, -⟩ <;> rw [hs] <;> rfl

/-- **Every run keeps the invariant.** -/
theorem Sound.run (hD : ∀ v, TextObject v → D v) (calls : List Call)
    (hcalls : ∀ call ∈ calls, call.DetailsSatisfy D) : Sound x D (run x calls) :=
  run_induction hD .empty (fun _ h => h.ids) (fun _ _ h hw => h.write hw)
    (fun _ _ _ h hc => h.claim hc) calls hcalls

theorem Call.detailsSatisfy_true (call : Call) : call.DetailsSatisfy fun _ => True := by
  cases call <;> trivial

theorem sound_run (calls : List Call) : Sound x (fun _ => True) (run x calls) :=
  .run (fun _ _ => trivial) calls fun call _ => call.detailsSatisfy_true

end Operations
end AgentDb
