import AgentDb.Operations.Sample

/-!
# What a run leaves in the ledger

The chain check of `verify_event_chain` accepts every ledger a run can leave, provided JSON
printing and reading are inverse on the details; and over a whole run one operation is claimed
once at most, so that one grant at most is issued for it.
-/

namespace AgentDb
namespace Operations

open Json Relation

variable {x : Crates} {t t' : Tables}

/-! ### Claims and grants -/

/-- The number of execution starts in the ledger of an operation. -/
def Tables.starts (t : Tables) (id : Uuid) : ℕ := (t.eventsOf id).countP (·.startsExecution)

theorem starts_nextEvent {id id' eventId : Uuid} {kind : OperationEventKind}
    {state : OperationState} {details : Value} {now : DateTime} :
    (t'.addEvent (nextEvent x t id kind state details now eventId)).starts id' =
      t'.starts id' + if id = id' ∧ kind = .executionStarted then 1 else 0 := by
  by_cases hid : id = id'
  · subst hid
    rw [Tables.starts, eventsOf_nextEvent_self, List.countP_append, List.countP_singleton]
    by_cases hk : kind = .executionStarted <;>
      simp [Tables.starts, OperationEventRow.startsExecution, nextEvent, hk]
  · rw [Tables.starts, eventsOf_nextEvent_ne hid]
    simp [Tables.starts, hid]

/-- No write but a claim starts an execution. -/
theorem Write.starts {D : Value → Prop} (h : Write x D t t') (id : Uuid) :
    t'.starts id = t.starts id := by
  cases h with
  | plan =>
    rw [starts_nextEvent]
    simp [Tables.starts, Tables.eventsOf]
  | approve => rfl
  | @move row target details now eventId _ _ hne _ =>
    have hevents : (t.moveRow x row target details now eventId).starts id =
        (t.addEvent (nextEvent x t row.id (transitionEventKind target) target details now
          eventId)).starts id := rfl
    rw [hevents, starts_nextEvent]
    simp [transitionEventKind_eq_executionStarted, hne]
  | progress =>
    rw [starts_nextEvent]
    simp

theorem Claim.starts {D : Value → Prop} {id : Uuid} (h : Claim x D id t t') (id' : Uuid) :
    t'.starts id' = t.starts id' + if id = id' then 1 else 0 := by
  cases h with
  | @claim row details now eventId _ hid _ _ =>
    have hevents : (t.moveRow x row .executing details now eventId).starts id' =
        (t.addEvent (nextEvent x t row.id (transitionEventKind .executing) .executing details now
          eventId)).starts id' := rfl
    rw [hevents, starts_nextEvent, hid]
    simp [transitionEventKind]

/-- **The claims of a run are the execution starts of the ledger.** -/
theorem length_claims (calls : List Call) (id : Uuid) :
    ((outputs x (Call.claimed? x) {} calls).filter fun op => op.id = id).length =
      (run x calls).starts id := by
  have hD : ∀ v, TextObject v → (fun _ : Value => True) v := fun _ _ => trivial
  induction calls using List.reverseRecOn with
  | nil => rfl
  | append_singleton calls call ih =>
    have hdetails : ∀ c : Call, c.DetailsSatisfy fun _ => True := fun c => by
      cases c <;> trivial
    have hsound : Sound x (fun _ => True) (run x calls) := .run hD calls fun c _ => hdetails c
    rw [outputs_concat, List.filter_append, List.length_append, ih, run_concat]
    change _ + ((call.claimed? x (run x calls)).toList.filter _).length = _
    rcases Call.apply_cases (x := x) hD hsound.ids call (hdetails call) with
      ⟨hnone, hchain⟩ | ⟨op, hsome, -, hclaim⟩
    · have hkeep : ∀ u, ReflTransGen (Write x fun _ => True) (run x calls) u →
          u.starts id = (run x calls).starts id := by
        intro u hu
        induction hu with
        | refl => rfl
        | tail _ hw ihw => rw [hw.starts, ihw]
      rw [hnone, hkeep _ hchain]
      rfl
    · rw [hsome, hclaim.starts]
      by_cases hid : op.id = id <;> simp [hid]

/-- Every grant is one of a successful claim. -/
theorem length_grants_le (calls : List Call) (id : Uuid) :
    ((outputs x (Call.grant? x) t calls).filter fun g => g.operationId = id).length ≤
      ((outputs x (Call.claimed? x) t calls).filter fun op => op.id = id).length := by
  induction calls generalizing t with
  | nil => exact le_rfl
  | cons call calls ih =>
    rw [outputs, outputs, List.filter_append, List.filter_append, List.length_append,
      List.length_append]
    refine Nat.add_le_add ?_ ih
    rw [Call.grant?_eq]
    cases call.claimed? x t with
    | none => exact le_rfl
    | some op =>
      rw [Option.bind_some, issue]
      by_cases hstate : op.state = .executing <;> by_cases hid : op.id = id <;>
        simp [hstate, hid, Except.toOption]

/-! ### The chain check -/

/-- A stored event reads back with details that print as its stored text. -/
theorem rowToEvent_of_text (hx : x.RoundTrips) {e : OperationEventRow}
    (h : ∃ d, d.NoFloat ∧ e.eventJson = canonicalJson x d) :
    ∃ v, rowToEvent x e = .ok (e.toRecord v) ∧ canonicalJson x v = e.eventJson := by
  obtain ⟨d, hd, htext⟩ := h
  refine ⟨canonicalValue d, ?_, by rw [canonicalJson_canonicalValue, htext]⟩
  have hparse : parseCanonicalJson x e.eventJson = .ok (canonicalValue d) := by
    rw [htext]
    exact parseCanonicalJson_canonicalJson hx hd
  rw [rowToEvent, hparse]
  rfl

/-- The loop of the check, from any position of a linked and numbered list on. -/
theorem verifyEvents_of_linked (hx : x.RoundTrips) (es : List OperationEventRow) (index : ℕ)
    (previousHash : Option String)
    (hnumbered : es.map (·.sequence) = List.range' (index + 1) es.length)
    (hlinked : HashChain.Linked (·.prevHash) (·.hash) previousHash es)
    (hfirst : index = 0 → ∀ e ∈ es.head?, e.kind = .planned ∧ e.state = .planned)
    (hhashed : ∀ e ∈ es, e.hash = eventHash x e.hashInput)
    (htexts : ∀ e ∈ es, ∃ d : Value, d.NoFloat ∧ e.eventJson = canonicalJson x d) :
    ∃ records, es.mapM (rowToEvent x) = .ok records ∧
      verifyEvents x index previousHash records = true ∧
      records.map (·.state) = es.map (·.state) := by
  induction es generalizing index previousHash with
  | nil => exact ⟨[], rfl, rfl, rfl⟩
  | cons e es ih =>
    rw [List.map_cons, List.length_cons, List.range'_succ, List.cons.injEq] at hnumbered
    obtain ⟨hsequence, hrest⟩ := hnumbered
    obtain ⟨hprev, hlinked⟩ := hlinked
    obtain ⟨v, hread, hprint⟩ := rowToEvent_of_text hx (htexts e (by simp))
    obtain ⟨records, hmap, hverify, hstates⟩ := ih (index + 1) (some e.hash) hrest hlinked
      (by omega) (fun a ha => hhashed a (by simp [ha])) fun a ha => htexts a (by simp [ha])
    have hhash : eventHash x { e.hashInput with eventJson := canonicalJson x v } = e.hash := by
      rw [hprint, hhashed e (by simp)]
      rfl
    refine ⟨e.toRecord v :: records, ?_, ?_, by simp [hstates, OperationEventRow.toRecord]⟩
    · rw [List.mapM_cons, hread, hmap]
      rfl
    · have hplanned : ¬ (index = 0 ∧ (e.kind ≠ .planned ∨ e.state ≠ .planned)) := by
        rintro ⟨h0, hne⟩
        obtain ⟨hk, hs⟩ := hfirst h0 e (by simp)
        simp [hk, hs] at hne
      rw [verifyEvents]
      rw [if_neg, if_neg, OperationEventRow.toRecord]
      · exact hverify
      · exact not_not.2 hhash
      · rintro (h | h | h)
        · exact h hsequence
        · exact h hprev
        · exact hplanned h

/-- **The chain check accepts a sound ledger.** -/
theorem Sound.verifyEventChain (hx : x.RoundTrips) (h : Sound x Value.NoFloat t)
    {row : OperationRow} (hrow : row ∈ t.operations) :
    Operations.verifyEventChain x row.id t = .ok true := by
  have hledger := h.ledgers row hrow
  obtain ⟨stored, hstored⟩ := h.readable row hrow
  obtain ⟨e, he, hfirst⟩ := Option.map_eq_some_iff.1 hledger.first
  obtain ⟨records, hmap, hverify, hstates⟩ := verifyEvents_of_linked hx (t.eventsOf row.id) 0 none
    hledger.numbered hledger.linked
    (fun _ a ha => by
      rw [he, Option.mem_some_iff] at ha
      subst ha
      simpa using hfirst)
    hledger.hashed hledger.texts
  have hlast : records.getLast?.map (·.state) = some row.state := by
    rw [← List.getLast?_map, hstates, List.getLast?_map, hledger.last]
  rw [Operations.verifyEventChain, Tables.get, row?_of_mem h.ids hrow, Tables.eventRecords,
    hledger.numbered.ledger_eq, hmap]
  simp only [rowToOperation, hstored, bind, Except.bind, pure, Except.pure, hverify, hlast]
  simp [OperationRow.toRecord]

/-- **The ledger and the projection agree after every run.** -/
theorem ledger_of_run (x : Crates) (hx : x.RoundTrips) (calls : List Call)
    (hcalls : ∀ call ∈ calls, call.DetailsSatisfy Value.NoFloat) (row : OperationRow)
    (hrow : row ∈ (run x calls).operations) :
    let es := (run x calls).ledger row.id
    es.map (·.sequence) = List.range' 1 es.length ∧
    es.head?.map (fun e => (e.kind, e.state)) = some (.planned, .planned) ∧
    (es.IsChain fun e e' =>
      (e'.kind = .progress ∧ e.state = .executing ∧ e'.state = .executing) ∨
        ensureTransition e.state e'.state = .ok ()) ∧
    es.countP (fun e => e.kind = .executionStarted) ≤ 1 ∧
    ((outputs x (Call.claimed? x) {} calls).filter fun op => op.id = row.id).length ≤ 1 ∧
    ((outputs x (Call.grant? x) {} calls).filter fun g => g.operationId = row.id).length ≤ 1 ∧
    es.getLast?.map (·.state) = some row.state ∧
    (row.startedAt.isSome ↔ ∃ e ∈ es, e.kind = .executionStarted) ∧
    (row.finishedAt.isSome ↔ row.state.isTerminal) ∧
    verifyEventChain x row.id (run x calls) = .ok true := by
  have hsound : Sound x Value.NoFloat (run x calls) :=
    .run (fun _ => noFloat_of_textObject) calls hcalls
  have hledger := hsound.ledgers row hrow
  have hclaims := length_claims (x := x) calls row.id
  have hgrants := length_grants_le (x := x) (t := {}) calls row.id
  have honce : (run x calls).starts row.id ≤ 1 := hledger.once
  simp only [hledger.numbered.ledger_eq]
  refine ⟨hledger.numbered, hledger.first, hledger.steps.imp ?_, hledger.once, by omega,
    by omega, hledger.last, hledger.started, hledger.finished, hsound.verifyEventChain hx hrow⟩
  rintro e e' (hprogress | ⟨hallowed, -⟩)
  · exact .inl hprogress
  · exact .inr (ensureTransition_eq_ok.2 hallowed)

theorem ledger_of_run_sampleRun :
    let es := (run crates (sampleRun .writeSql)).ledger (executingRow .writeSql).id
    es.map (·.sequence) = List.range' 1 es.length ∧
    es.head?.map (fun e => (e.kind, e.state)) = some (.planned, .planned) ∧
    (es.IsChain fun e e' =>
      (e'.kind = .progress ∧ e.state = .executing ∧ e'.state = .executing) ∨
        ensureTransition e.state e'.state = .ok ()) ∧
    es.countP (fun e => e.kind = .executionStarted) ≤ 1 ∧
    ((outputs crates (Call.claimed? crates) {} (sampleRun .writeSql)).filter
      fun op => op.id = (executingRow .writeSql).id).length ≤ 1 ∧
    ((outputs crates (Call.grant? crates) {} (sampleRun .writeSql)).filter
      fun g => g.operationId = (executingRow .writeSql).id).length ≤ 1 ∧
    es.getLast?.map (·.state) = some (executingRow .writeSql).state ∧
    ((executingRow .writeSql).startedAt.isSome ↔ ∃ e ∈ es, e.kind = .executionStarted) ∧
    ((executingRow .writeSql).finishedAt.isSome ↔ (executingRow .writeSql).state.isTerminal) ∧
    verifyEventChain crates (executingRow .writeSql).id (run crates (sampleRun .writeSql)) =
      .ok true := by
  obtain ⟨_, h⟩ := snapshot_run .writeSql
  exact ledger_of_run crates crates_lawful.roundTrips (sampleRun .writeSql) h.noFloat
    (executingRow .writeSql) h.mem

end Operations
end AgentDb
