import AgentDb.Broker.Dispatch

/-!
# What a table selector names: `table_describe` of `broker/dispatch.rs`

A selector is a bare name, or a namespace and a name with a dot in between. Names and namespaces
may hold dots themselves, so that one text can be read in several ways; `table_describe` takes the
last dot for the one in between.
-/

namespace AgentDb
namespace Broker

open Protocol

/-! ### Selectors -/

/-- The identity of a relation. -/
def identity (r : Relation) : Option String × String := (r.object.namespace_, r.object.name)

/-- The selector that names a relation in full. -/
def selector (r : Relation) : String :=
  match r.object.namespace_ with
  | some namespace_ => namespace_ ++ "." ++ r.object.name
  | none => r.object.name

/-- A selector can denote a relation: by its bare name, or by its qualified name. -/
def Denotes (table : String) (r : Relation) : Prop :=
  table = r.object.name ∨ ∃ namespace_, r.object.namespace_ = some namespace_ ∧
    table = namespace_ ++ "." ++ r.object.name

/-- The selectors `table_describe` refuses as they are. -/
def selectorRefused (table : String) : Bool :=
  table = "" ∨ table.utf8ByteSize > maxTableSelectorBytes ∨ table.toList.any isControl

/-- `table_describe` over the catalog it has loaded. -/
def describe (catalog : CatalogSnapshot) (table : String) :
    Except ErrorCode TableDescribeResult := do
  refuseIf (selectorRefused table) .invalidRequest
  match findRelation catalog table with
  | some relation => pure ⟨catalog.connectionId, relation⟩
  | none => throw .invalidRequest

/-- `table_describe` is `describe` of the catalog it loads, when it loads one. -/
theorem tableDescribe_eq (broker : BrokerDispatcher) (db : Store.Database) (answers : Answers)
    (session : AuthenticatedSession) (version : UInt16) (arguments : TableDescribeArguments)
    {snapshot : CatalogSnapshot}
    (h : broker.catalog db answers session version arguments.connection = .ok snapshot) :
    broker.tableDescribe db answers session version arguments =
      describe snapshot arguments.table := by
  unfold BrokerDispatcher.tableDescribe describe
  rw [h]
  unfold selectorRefused
  simp only [decide_eq_true_eq]
  rfl

/-! ### The split at the last dot -/

/-- The characters of a text are split where it is: the last dot is the only one of the rest. -/
theorem span_reverse_append (namespace_ name : List Char) (hname : '.' ∉ name) :
    (namespace_ ++ '.' :: name).reverse.span (· ≠ '.') =
      (name.reverse, '.' :: namespace_.reverse) := by
  have hpass : ∀ c ∈ name.reverse, (decide (c ≠ '.')) = true := fun c hc => by
    have hne : c ≠ '.' := fun h => hname (h ▸ List.mem_reverse.1 hc)
    simpa using hne
  rw [List.reverse_append, List.reverse_cons, List.append_assoc, List.span_eq_takeWhile_dropWhile,
    List.takeWhile_append_of_pos hpass, List.dropWhile_append_of_pos hpass]
  simp

/-- A selector is split at its last dot. -/
theorem rsplitOnceDot_append (namespace_ name : String) (hname : '.' ∉ name.toList) :
    rsplitOnceDot (namespace_ ++ "." ++ name) = some (namespace_, name) := by
  have htext : (namespace_ ++ "." ++ name).toList = namespace_.toList ++ '.' :: name.toList := by
    simp
  rw [rsplitOnceDot, htext, span_reverse_append _ _ hname]
  simp

/-- A selector without a dot is a bare name. -/
theorem rsplitOnceDot_of_not_mem {table : String} (h : '.' ∉ table.toList) :
    rsplitOnceDot table = none := by
  have hpass : ∀ c ∈ table.toList.reverse, (decide (c ≠ '.')) = true := fun c hc => by
    have hne : c ≠ '.' := fun heq => h (heq ▸ List.mem_reverse.1 hc)
    simpa using hne
  have htail : table.toList.reverse.dropWhile (· ≠ '.') = [] := List.dropWhile_eq_nil_iff.2 hpass
  rw [rsplitOnceDot, List.span_eq_takeWhile_dropWhile, htail]

/-- A selector is a bare name, or it has a last dot. -/
theorem selector_cases (table : String) : '.' ∉ table.toList ∨
    ∃ namespace_ name, '.' ∉ name.toList ∧ table = namespace_ ++ "." ++ name := by
  by_cases hdot : '.' ∈ table.toList
  · obtain ⟨name, namespace_, hsplit, hname⟩ :=
      List.eq_append_cons_of_mem (List.mem_reverse.2 hdot)
    refine .inr ⟨String.ofList namespace_.reverse, String.ofList name.reverse, by simpa using hname,
      ?_⟩
    rw [← String.toList_inj, ← List.reverse_inj, hsplit]
    simp
  · exact .inl hdot

/-! ### What is found -/

section Found

variable {catalog : CatalogSnapshot} {r : Relation}

/-- A qualified selector finds the relation of the namespace and the name it is split into. -/
theorem findRelation_append {namespace_ name : String} (hname : '.' ∉ name.toList) :
    findRelation catalog (namespace_ ++ "." ++ name) =
      catalog.relations.find? fun r => identity r = (some namespace_, name) := by
  rw [findRelation, rsplitOnceDot_append _ _ hname]
  refine congrArg (fun p => catalog.relations.find? p) (funext fun r => ?_)
  exact decide_eq_decide.2 Prod.mk_inj.symm

/-- A bare name finds the only relation of that name. -/
theorem findRelation_eq_some_of_bare {table : String} (hbare : '.' ∉ table.toList) :
    findRelation catalog table = some r ↔
      (catalog.relations.filter fun r => r.object.name = table) = [r] := by
  rw [findRelation, rsplitOnceDot_of_not_mem hbare]
  dsimp only
  cases hfound : catalog.relations.filter fun r => r.object.name = table with
  | nil => simp
  | cons a rest => cases rest <;> simp

/-- The relation of an identity is found when no other one has it. -/
theorem find?_identity (hdistinct : catalog.relations.Pairwise fun r r' => identity r ≠ identity r')
    (hr : r ∈ catalog.relations) :
    (catalog.relations.find? fun r' => identity r' = identity r) = some r := by
  refine List.find?_eq_some_iff_getElem.2 ⟨by simp, ?_⟩
  obtain ⟨i, hi, rfl⟩ := List.getElem_of_mem hr
  refine ⟨i, hi, rfl, fun j hj => ?_⟩
  have hne := List.pairwise_iff_getElem.1 hdistinct j i (hj.trans hi) hi hj
  simpa using hne

end Found

/-! ### What describing gives -/

/-- The relations a selector can denote have names without a dot. -/
def Undotted (catalog : CatalogSnapshot) (table : String) : Prop :=
  ∀ r ∈ catalog.relations, Denotes table r → '.' ∉ r.object.name.toList

/-- A relation is the only one of the catalog that a selector can denote. -/
def OnlyDenoted (catalog : CatalogSnapshot) (table : String) (r : Relation) : Prop :=
  r ∈ catalog.relations ∧ Denotes table r ∧ ∀ r' ∈ catalog.relations, Denotes table r' → r' = r

section Described

variable {catalog : CatalogSnapshot} {r r' : Relation} {table : String}

theorem identity_inj
    (hdistinct : catalog.relations.Pairwise fun r r' => identity r ≠ identity r')
    (hr : r ∈ catalog.relations) (hr' : r' ∈ catalog.relations) (h : identity r = identity r') :
    r = r' := by
  have hfound := find?_identity hdistinct hr
  rw [h, find?_identity hdistinct hr'] at hfound
  exact (Option.some.inj hfound).symm

/-- A selector without a dot denotes the relations of that name. -/
theorem denotes_iff_of_bare (hbare : '.' ∉ table.toList) :
    Denotes table r ↔ r.object.name = table := by
  refine ⟨fun h => ?_, fun h => .inl h.symm⟩
  obtain h | ⟨namespace_, -, h⟩ := h
  · exact h.symm
  · refine absurd ?_ hbare
    rw [h]
    simp

/-- A selector with a dot denotes the relation it is split into, when the names hold none. -/
theorem denotes_append_iff {namespace_ name : String} (hname : '.' ∉ name.toList)
    (hplain : '.' ∉ r.object.name.toList) :
    Denotes (namespace_ ++ "." ++ name) r ↔ identity r = (some namespace_, name) := by
  constructor
  · rintro (h | ⟨own, hown, h⟩)
    · refine absurd ?_ hplain
      rw [← h]
      simp
    · have hsplit := rsplitOnceDot_append namespace_ name hname
      rw [h, rsplitOnceDot_append own _ hplain] at hsplit
      obtain ⟨rfl, rfl⟩ := Prod.mk.inj (Option.some.inj hsplit)
      exact Prod.ext hown rfl
  · intro h
    obtain ⟨hown, rfl⟩ := Prod.mk.inj h
    exact .inr ⟨namespace_, hown, rfl⟩

/-- A list without repetitions is a singleton when it has that only element. -/
theorem eq_singleton_iff {l : List Relation} (hnodup : l.Nodup) :
    l = [r] ↔ r ∈ l ∧ ∀ r' ∈ l, r' = r := by
  rw [← List.perm_singleton, List.perm_ext_iff_of_nodup hnodup (List.nodup_singleton r)]
  constructor
  · intro h
    exact ⟨(h r).2 (List.mem_singleton_self r), fun r' hr' => List.mem_singleton.1 ((h r').1 hr')⟩
  · rintro ⟨hr, honly⟩ r'
    refine ⟨fun hr' => List.mem_singleton.2 (honly r' hr'), fun h => ?_⟩
    rwa [List.mem_singleton.1 h]

theorem findRelation_eq_some_iff
    (hdistinct : catalog.relations.Pairwise fun r r' => identity r ≠ identity r')
    (hplain : Undotted catalog table) :
    findRelation catalog table = some r ↔ OnlyDenoted catalog table r := by
  obtain hbare | ⟨namespace_, name, hname, rfl⟩ := selector_cases table
  · have hnodup : catalog.relations.Nodup :=
      hdistinct.imp fun hne h => hne (congrArg identity h)
    rw [findRelation_eq_some_of_bare hbare, eq_singleton_iff (hnodup.filter _)]
    simp only [List.mem_filter, decide_eq_true_eq, OnlyDenoted, denotes_iff_of_bare hbare,
      and_assoc, and_imp]
  · rw [findRelation_append hname]
    constructor
    · intro hfound
      have hr := List.mem_of_find?_eq_some hfound
      have hid : identity r = (some namespace_, name) := by
        simpa using List.find?_some hfound
      have hdenotes : Denotes (namespace_ ++ "." ++ name) r := by
        obtain ⟨hown, rfl⟩ := Prod.mk.inj hid
        exact .inr ⟨namespace_, hown, rfl⟩
      refine ⟨hr, hdenotes, fun r' hr' h => identity_inj hdistinct hr' hr ?_⟩
      rw [(denotes_append_iff hname (hplain r' hr' h)).1 h, hid]
    · rintro ⟨hr, hdenotes, -⟩
      rw [← (denotes_append_iff hname (hplain r hr hdenotes)).1 hdenotes]
      exact find?_identity hdistinct hr

/-- A relation whose name holds no dot is found under its selector. -/
theorem findRelation_selector
    (hdistinct : catalog.relations.Pairwise fun r r' => identity r ≠ identity r')
    (hr : r ∈ catalog.relations) (hname : '.' ∉ r.object.name.toList)
    (hbare : r.object.namespace_ = none →
      ∀ r' ∈ catalog.relations, r'.object.name = r.object.name → r' = r) :
    findRelation catalog (selector r) = some r := by
  unfold selector
  cases hown : r.object.namespace_ with
  | some namespace_ =>
      have hid : identity r = (some namespace_, r.object.name) := Prod.ext hown rfl
      rw [findRelation_append hname, ← hid]
      exact find?_identity hdistinct hr
  | none =>
      have hnodup : catalog.relations.Nodup :=
        hdistinct.imp fun hne h => hne (congrArg identity h)
      rw [findRelation_eq_some_of_bare hname, eq_singleton_iff (hnodup.filter _)]
      simpa [hr] using hbare hown

/-- Describing gives the relation that is found, unless the selector is refused as it is. -/
theorem describe_eq_ok_iff {result : TableDescribeResult} : describe catalog table = .ok result ↔
    selectorRefused table = false ∧ findRelation catalog table = some result.relation ∧
      result.connectionId = catalog.connectionId := by
  unfold describe
  cases selectorRefused table with
  | true => simp [refuseIf, bind, Except.bind]
  | false =>
      cases hfound : findRelation catalog table with
      | none => simp [refuseIf, bind, Except.bind]
      | some r =>
          obtain ⟨connectionId, relation⟩ := result
          simp [refuseIf, bind, Except.bind, pure, Except.pure, and_comm, eq_comm]

/-- Describing fails with `InvalidRequest` only. -/
theorem describe_eq_error {error : ErrorCode} (h : describe catalog table = .error error) :
    error = .invalidRequest := by
  unfold describe at h
  cases hrefused : selectorRefused table with
  | true => simpa [hrefused, refuseIf, bind, Except.bind, eq_comm] using h
  | false =>
      cases hfound : findRelation catalog table with
      | none =>
          simpa [hrefused, hfound, refuseIf, bind, Except.bind, throw, throwThe,
            MonadExceptOf.throw, eq_comm] using h
      | some r => simp [hrefused, hfound, refuseIf, bind, Except.bind, pure, Except.pure] at h

end Described

deriving instance DecidableEq for TableDescribeResult

/-- Describing answers `InvalidRequest` for the selectors that are refused as they are. For every
other selector that can only denote relations whose names hold no dot, it answers the relation if
there is exactly one to denote, and `InvalidRequest` if not. -/
theorem describe_onlyDenoted {catalog : CatalogSnapshot}
    (hdistinct : catalog.relations.Pairwise fun r r' => identity r ≠ identity r') :
    (∀ (broker : BrokerDispatcher) (db : Store.Database) (answers : Answers)
        (session : AuthenticatedSession) (version : UInt16) (arguments : TableDescribeArguments),
      broker.catalog db answers session version arguments.connection = .ok catalog →
      broker.tableDescribe db answers session version arguments =
        describe catalog arguments.table) ∧
    (∀ table, selectorRefused table = true → describe catalog table = .error .invalidRequest) ∧
    (∀ r ∈ catalog.relations, '.' ∉ r.object.name.toList → selectorRefused (selector r) = false →
      (r.object.namespace_ = none →
        ∀ r' ∈ catalog.relations, r'.object.name = r.object.name → r' = r) →
      describe catalog (selector r) = .ok ⟨catalog.connectionId, r⟩) ∧
    ∀ table, selectorRefused table = false → Undotted catalog table →
      (∀ r, OnlyDenoted catalog table r → describe catalog table = .ok ⟨catalog.connectionId, r⟩) ∧
      ((∀ r, ¬ OnlyDenoted catalog table r) →
        describe catalog table = .error .invalidRequest) := by
  refine ⟨fun broker db answers session version arguments => tableDescribe_eq broker db answers
    session version arguments, fun table hrefused => ?_, fun r hr hname haccepted hbare => ?_,
    fun table haccepted hplain => ⟨fun r honly => ?_, fun hnone => ?_⟩⟩
  · cases hresult : describe catalog table with
    | error error => rw [describe_eq_error hresult]
    | ok result =>
        have hnot := (describe_eq_ok_iff.1 hresult).1
        rw [hrefused] at hnot
        exact absurd hnot (by simp)
  · exact describe_eq_ok_iff.2 ⟨haccepted, findRelation_selector hdistinct hr hname hbare, rfl⟩
  · exact describe_eq_ok_iff.2 ⟨haccepted, (findRelation_eq_some_iff hdistinct hplain).2 honly, rfl⟩
  · cases hresult : describe catalog table with
    | error error => rw [describe_eq_error hresult]
    | ok result =>
        have hfound := (describe_eq_ok_iff.1 hresult).2.1
        exact absurd ((findRelation_eq_some_iff hdistinct hplain).1 hfound) (hnone _)

/-! ### A catalog with three relations -/

/-- A relation of a name. -/
def relationNamed (namespace_ : Option String) (name : String) : Relation where
  object := ⟨none, namespace_, name, .table, none⟩
  comment := none
  rowEstimate := none
  partitionParent := none
  partitionChildren := []
  columns := []
  constraints := []
  indexes := []

/-- A table without a namespace, one of the same name in a namespace, and one whose name holds a
line break. -/
def threeTables : CatalogSnapshot where
  schemaVersion := 1
  connectionId := .ofByte 1
  engine := .sqlite
  database := "main"
  capturedAt := .ofDay 1
  fingerprint := ""
  namespaces := []
  relations := [relationNamed none "users", relationNamed (some "main") "users",
    relationNamed (some "main") "line\nbreak"]
  routines := []
  otherObjects := []

theorem threeTables_distinct :
    threeTables.relations.Pairwise fun r r' => identity r ≠ identity r' := by decide

/-- A relation without a namespace is not described under its name when another one has the same
name, and none is described whose name holds a control character. -/
theorem threeTables_undescribed :
    (threeTables.relations.Pairwise fun r r' => identity r ≠ identity r') ∧
    (relationNamed none "users" ∈ threeTables.relations ∧
      describe threeTables (selector (relationNamed none "users")) = .error .invalidRequest) ∧
    relationNamed (some "main") "line\nbreak" ∈ threeTables.relations ∧
    describe threeTables (selector (relationNamed (some "main") "line\nbreak")) =
      .error .invalidRequest := by
  decide +kernel

theorem threeTables_described :
    describe threeTables "main.users" =
      .ok ⟨threeTables.connectionId, relationNamed (some "main") "users"⟩ :=
  (describe_onlyDenoted threeTables_distinct).2.2.1 (relationNamed (some "main") "users")
    (by decide) (by decide) (by decide +kernel) (by decide)

end Broker
end AgentDb
