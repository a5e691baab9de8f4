import AgentDb.Introspect.Sqlite
import AgentDb.Lib.QueryRows

/-!
# What `introspect/sqlite.rs` shows of a database

A name in double quotes is read back by the engine, so every `PRAGMA` tells of the table it is meant
for. `shown_iff` says when the database is shown: when the pattern `sqlite_%` hides no name of the
user's, the columns of every table and view are known and none is generated, and every foreign key
names the columns it refers to.
-/

namespace AgentDb
namespace Introspect
namespace Sqlite

open QueryRows Sorting SqlTokens
open Services (eqIgnoreAsciiCase mapM_eq_ok)

/-! ### Names -/

theorem readIdent_quoteIdent {name : String} (h : '\x00' ∉ name.toList) :
    readIdent (quoteIdent name) = some name := by
  have hread := @quoted_escape '"' false (by decide) (by decide) _ [] h (by simp)
  rw [readIdent, quoteIdent, String.toList_ofList, enclose]
  simp only [hread, Option.bind_some, List.length_append, List.length_singleton, if_true,
    String.ofList_toList]

theorem like_percent_cons (p s : List Char) : like ('%' :: p) s = s.tails.any (like p) := by
  rw [like.eq_def]
  exact if_pos rfl

theorem like_cons {c : Char} (hc : c ≠ '%') (p : List Char) (d : Char) (s : List Char) :
    like (c :: p) (d :: s) = ((c = '_' || c.toLower = d.toLower) && like p s) := by
  rw [like.eq_def]
  exact if_neg hc

/-- A percent sign at the end stands for any rest. -/
theorem like_percent {p s : List Char} (hp : '%' ∉ p)
    (h : (s.take p.length).map Char.toLower = p.map Char.toLower) :
    like (p ++ ['%']) s = true := by
  induction p generalizing s with
  | nil =>
    rw [List.nil_append, like_percent_cons, List.any_eq_true]
    exact ⟨[], by simp, rfl⟩
  | cons c p ih =>
    cases s with
    | nil => simp at h
    | cons d s =>
      rw [List.length_cons, List.take_succ_cons, List.map_cons, List.map_cons,
        List.cons.injEq] at h
      have hc : c ≠ '%' := by
        rintro rfl
        exact hp List.mem_cons_self
      rw [List.cons_append, like_cons hc, h.1, decide_eq_true rfl, Bool.or_true, Bool.true_and]
      exact ih (fun hmem => hp (List.mem_cons_of_mem _ hmem)) h.2

/-- The pattern hides what the engine keeps for itself. -/
theorem like_of_reserved {name : String} (h : isReserved name = true) :
    like "sqlite_%".toList name.toList = true := by
  have hpattern : "sqlite_%".toList = "sqlite_".toList ++ ['%'] := by decide
  rw [hpattern]
  exact like_percent (by decide) (of_decide_eq_true h)

/-- Of members with distinct keys the one with a key is found. -/
theorem find_key_eq {α κ : Type} [DecidableEq κ] {key : α → κ} {l : List α}
    (h : (l.map key).Nodup) {a : α} (ha : a ∈ l) : l.find? (fun b => key b = key a) = some a := by
  rw [← List.head?_filter, filter_key_eq h ha]
  rfl

namespace Database

variable {db : Database} {r : Relation}

theorem named_quoteIdent (hdb : db.WellFormed) (hr : r ∈ db.relations) :
    db.named (quoteIdent r.name) = some r := by
  rw [named, readIdent_quoteIdent (hdb.nul r hr)]
  exact find_key_eq hdb.names hr

theorem indexInfo_quoteIdent (hdb : db.WellFormed) {i : SqliteIndex} (hi : i ∈ db.indexes) :
    db.indexInfo (quoteIdent i.name) = i.parts := by
  have hfind : db.indexes.find? (fun j => eqIgnoreAsciiCase j.name i.name) = some i :=
    find_key_eq hdb.indexNames hi
  rw [indexInfo, readIdent_quoteIdent (hdb.indexNul i hi), Option.bind_some, hfind]

/-! ### One table -/

/-- The table of a relation. -/
def tableOf (r : Relation) : Table where
  schema := none
  name := r.name
  kind := if r.isView then "view" else "table"
  columns := ((r.columns.toOption.getD []).filter (·.kind = .normal)).map SqliteColumn.column
  foreignKeys := r.foreignKeys.flatMap fun k => k.columns.map fun c =>
    ⟨c.1, k.table, c.2.getD "", none⟩
  indexes := (r.indexes.filter (·.origin ≠ .primaryKey)).map indexOf
  rowEstimate := if r.isView then none else r.count

theorem indexesRead_eq (hdb : db.WellFormed) (hr : r ∈ db.relations) :
    db.indexesRead (quoteIdent r.name) =
      (r.indexes.filter (·.origin ≠ .primaryKey)).map indexOf := by
  have horigin : ∀ o : Origin, o.text ≠ "pk" ↔ o ≠ .primaryKey := by
    intro o
    cases o <;> decide
  rw [indexesRead, indexList, named_quoteIdent hdb hr]
  dsimp only
  simp only [horigin]
  refine List.map_congr_left fun i hi => ?_
  have hmem : i ∈ db.indexes := List.mem_flatMap.2 ⟨r, hr, (List.mem_filter.1 hi).1⟩
  rw [indexInfo_quoteIdent hdb hmem, indexOf]

/-- **What one round returns**: the table, if the columns are known. -/
theorem introspectTable_eq (hdb : db.WellFormed) (hr : r ∈ db.relations) :
    db.introspectTable r = r.columns.map fun _ => tableOf r := by
  have hinfo : db.tableInfo (quoteIdent r.name) =
      r.columns.map fun columns => columns.filter (·.kind = .normal) := by
    rw [tableInfo, named_quoteIdent hdb hr]
  have hfks : db.foreignKeysRead (quoteIdent r.name) = (tableOf r).foreignKeys := by
    rw [foreignKeysRead, foreignKeyList, named_quoteIdent hdb hr]
    dsimp only
    rw [List.map_flatMap]
    refine List.flatMap_congr fun k _ => ?_
    rw [List.map_map]
    rfl
  rw [introspectTable, hinfo, hfks, indexesRead_eq hdb hr, tableOf]
  cases r.columns with
  | error e => rfl
  | ok columns => rfl

/-- The columns are shown as they are when they are known and none is generated. -/
theorem columns_iff : (∃ columns, r.columns = .ok columns ∧
      (tableOf r).columns = (columns.filter (·.kind ≠ .hidden)).map SqliteColumn.column) ↔
    ∃ columns, r.columns = .ok columns ∧ ∀ c ∈ columns, c.kind ≠ .generated := by
  refine exists_congr fun columns => and_congr_right fun hknown => ?_
  have hcolumns : (tableOf r).columns =
      (columns.filter (·.kind = .normal)).map SqliteColumn.column := by
    rw [tableOf, hknown]
    rfl
  have hnormal : columns.filter (·.kind = .normal) =
      (columns.filter (·.kind ≠ .hidden)).filter (·.kind = .normal) := by
    rw [List.filter_filter]
    refine List.filter_congr fun c _ => ?_
    cases c.kind <;> decide
  rw [hcolumns, hnormal]
  constructor
  · intro h c hc hgenerated
    have hlength := congrArg List.length h
    rw [List.length_map, List.length_map, List.length_filter_eq_length_iff] at hlength
    have hvisible : c ∈ columns.filter (·.kind ≠ .hidden) :=
      List.mem_filter.2 ⟨hc, by rw [hgenerated]; decide⟩
    have hkind := of_decide_eq_true (hlength c hvisible)
    rw [hgenerated] at hkind
    cases hkind
  · intro h
    refine congrArg (List.map _) (List.filter_eq_self.2 fun c hc => ?_)
    obtain ⟨hmem, hvisible⟩ := List.mem_filter.1 hc
    have hne := h c hmem
    cases hkind : c.kind with
    | normal => rfl
    | generated => exact absurd hkind hne
    | hidden => simp [hkind] at hvisible

/-- The pairs of the foreign keys of a table, each with its key and its place. -/
def declared (r : Relation) : List (SqliteForeignKey × (String × Option String) × ℕ) :=
  r.foreignKeys.flatMap fun k => k.columns.zipIdx.map fun c => (k, c)

theorem mem_declared {k : SqliteForeignKey} {c : (String × Option String) × ℕ} :
    (k, c) ∈ declared r ↔ k ∈ r.foreignKeys ∧ c ∈ k.columns.zipIdx := by
  rw [declared, List.mem_flatMap]
  constructor
  · rintro ⟨k', hk, hmem⟩
    obtain ⟨c', hc, heq⟩ := List.mem_map.1 hmem
    cases heq
    exact ⟨hk, hc⟩
  · exact fun h => ⟨k, h.1, List.mem_map_of_mem h.2⟩

/-- The foreign keys are shown as they are when every one names its columns, or means a column that
has no name. -/
theorem foreignKeys_iff : ((tableOf r).foreignKeys.map fun f =>
      (f.column, f.referencesTable, some f.referencesColumn)).Perm
        (r.foreignKeys.flatMap db.pairsOf) ↔
    ∀ k ∈ r.foreignKeys, ∀ c ∈ k.columns.zipIdx, c.1.2 = none →
      (db.parentKey k.table)[c.2]? = some "" := by
  have hread : ((tableOf r).foreignKeys.map fun f =>
      (f.column, f.referencesTable, some f.referencesColumn)) =
        (declared r).map fun x => (x.2.1.1, x.1.table, some (x.2.1.2.getD "")) := by
    rw [tableOf, declared]
    dsimp only
    rw [List.map_flatMap, List.map_flatMap]
    refine List.flatMap_congr fun k _ => ?_
    rw [List.map_map, List.map_map]
    conv_lhs => rw [← List.zipIdx_map_fst 0 k.columns, List.map_map]
    rfl
  have hmeant : r.foreignKeys.flatMap db.pairsOf =
      (declared r).map fun x => (x.2.1.1, x.1.table, db.referenced x.1 x.2.2 x.2.1.2) := by
    rw [declared, List.map_flatMap]
    refine List.flatMap_congr fun k _ => ?_
    rw [List.map_map]
    rfl
  rw [hread, hmeant]
  constructor
  · intro h k hk c hc hnone
    have htag := eq_of_map_perm (t := fun y => y.2.2) (k := some "") (p := fun x => x.2.1.2.isNone)
      h ?_ ?_ (k, c) (mem_declared.2 ⟨hk, hc⟩) (by simp [hnone])
    · simpa [referenced, hnone] using htag
    · intro x _ hsome
      cases hname : x.2.1.2 with
      | none => simp [hname] at hsome
      | some name => simp [referenced]
    · intro x _ hnone
      simp [Option.isNone_iff_eq_none.1 hnone]
  · intro h
    refine .of_eq (List.map_congr_left fun x hx => ?_)
    obtain ⟨hk, hc⟩ := mem_declared.1 hx
    cases hname : x.2.1.2 with
    | none => simp [referenced, h x.1 hk x.2 hc hname]
    | some name => simp [referenced]

theorem shows_tableOf_iff : db.Shows r (tableOf r) ↔
    (∃ columns, r.columns = .ok columns ∧ ∀ c ∈ columns, c.kind ≠ .generated) ∧
      ∀ k ∈ r.foreignKeys, ∀ c ∈ k.columns.zipIdx, c.1.2 = none →
        (db.parentKey k.table)[c.2]? = some "" := by
  rw [← columns_iff, ← foreignKeys_iff]
  refine ⟨fun h => ⟨h.columns, h.foreignKeys⟩,
    fun h => ⟨rfl, rfl, rfl, h.1, h.2, fun f hf => ?_, .refl _⟩⟩
  obtain ⟨k, -, hf⟩ := List.mem_flatMap.1 hf
  obtain ⟨c, -, rfl⟩ := List.mem_map.1 hf
  rfl

/-! ### All tables -/

theorem mem_entries : r ∈ db.entries ↔
    r ∈ db.relations ∧ like "sqlite_%".toList r.name.toList = false := by
  rw [entries, (sortBy_perm _ _).mem_iff, List.mem_filter]
  simp

theorem mem_userRelations : r ∈ db.userRelations ↔
    r ∈ db.relations ∧ isReserved r.name = false := by
  rw [userRelations, List.mem_filter]
  simp

/-- What is listed is the user's. -/
theorem mem_userRelations_of_entries (h : r ∈ db.entries) : r ∈ db.userRelations := by
  obtain ⟨hr, hlike⟩ := mem_entries.1 h
  refine mem_userRelations.2 ⟨hr, ?_⟩
  by_contra hreserved
  rw [like_of_reserved (Bool.eq_true_of_not_eq_false hreserved)] at hlike
  cases hlike

theorem mapM_ok {α β : Type} {g : α → AppResult β} {h : α → β} {l : List α}
    (hg : ∀ a ∈ l, g a = .ok (h a)) : l.mapM g = .ok (l.map h) := by
  induction l with
  | nil => rfl
  | cons a l ih =>
    rw [List.mapM_cons, hg a List.mem_cons_self, ih fun b hb => hg b (List.mem_cons_of_mem _ hb)]
    rfl

/-- **What is returned**: the tables of what is listed, if the columns of all of it are known. -/
theorem introspect_eq_ok (hdb : db.WellFormed) {tables : List Table} :
    db.introspect = .ok tables ↔
      (∀ r ∈ db.entries, ∃ columns, r.columns = .ok columns) ∧ tables = db.entries.map tableOf := by
  have hround : ∀ r ∈ db.entries, db.introspectTable r = r.columns.map fun _ => tableOf r :=
    fun r hr => introspectTable_eq hdb (mem_entries.1 hr).1
  have hok : (∀ r ∈ db.entries, ∃ columns, r.columns = .ok columns) →
      db.introspect = .ok (db.entries.map tableOf) := by
    intro h
    refine mapM_ok fun r hr => ?_
    obtain ⟨columns, hcolumns⟩ := h r hr
    rw [hround r hr, hcolumns]
    rfl
  constructor
  · intro h
    have hknown : ∀ r ∈ db.entries, ∃ columns, r.columns = .ok columns := by
      intro r hr
      obtain ⟨t, -, ht⟩ := mapM_eq_ok h r hr
      rw [hround r hr] at ht
      cases hcolumns : r.columns with
      | error e =>
        rw [hcolumns] at ht
        cases ht
      | ok columns => exact ⟨columns, rfl⟩
    refine ⟨hknown, ?_⟩
    rw [hok hknown] at h
    exact (Except.ok.inj h).symm
  · rintro ⟨h, rfl⟩
    exact hok h

theorem relation_eq_of_name (hdb : db.WellFormed) {r' : Relation} (hr : r ∈ db.relations)
    (hr' : r' ∈ db.relations) (h : r.name = r'.name) : r = r' :=
  List.inj_on_of_nodup_map hdb.names hr hr' (by rw [h])

/-- **What is returned shows the database** exactly when it is plain. -/
theorem shown_iff (hdb : db.WellFormed) : (∃ tables, db.introspect = .ok tables ∧
    Shown db.userRelations db.Shows Refers tables) ↔ db.Plain := by
  constructor
  · rintro ⟨tables, hok, h⟩
    obtain ⟨hknown, rfl⟩ := (introspect_eq_ok hdb).1 hok
    have hshows : ∀ r ∈ db.userRelations, r ∈ db.entries ∧ db.Shows r (tableOf r) := by
      intro r hr
      obtain ⟨t, ht, hshows⟩ := h.all r hr
      obtain ⟨s, hs, rfl⟩ := List.mem_map.1 ht
      obtain rfl := relation_eq_of_name hdb (mem_entries.1 hs).1 (mem_userRelations.1 hr).1
        hshows.name
      exact ⟨hs, hshows⟩
    exact ⟨fun r hr => (mem_entries.1 (hshows r hr).1).2,
      fun r hr => (shows_tableOf_iff.1 (hshows r hr).2).1,
      fun r hr => (shows_tableOf_iff.1 (hshows r hr).2).2⟩
  · intro h
    have hshows : ∀ r ∈ db.userRelations, db.Shows r (tableOf r) :=
      fun r hr => shows_tableOf_iff.2 ⟨h.columns r hr, h.foreignKeys r hr⟩
    have hentries : (db.entries.map fun r => r.name.toList.map Char.toLower).Nodup :=
      ((sortBy_perm _ _).map _).nodup_iff.2 ((List.filter_sublist.map _).nodup hdb.names)
    refine ⟨db.entries.map tableOf, (introspect_eq_ok hdb).2 ⟨fun r hr => ?_, rfl⟩, ?_⟩
    · obtain ⟨columns, hcolumns, -⟩ := h.columns r (mem_userRelations_of_entries hr)
      exact ⟨columns, hcolumns⟩
    · refine ⟨?_, fun r hr => ?_, fun t ht => ?_, fun t ht u hu hrefers => ?_⟩
      · rw [List.map_map]
        refine hentries.of_map.map_on fun r hr s hs hname => ?_
        exact relation_eq_of_name hdb (mem_entries.1 hr).1 (mem_entries.1 hs).1 hname
      · have hlisted := mem_entries.2 ⟨(mem_userRelations.1 hr).1, h.listed r hr⟩
        exact ⟨tableOf r, List.mem_map_of_mem hlisted, hshows r hr⟩
      · obtain ⟨r, hr, rfl⟩ := List.mem_map.1 ht
        exact ⟨r, mem_userRelations_of_entries hr, hshows r (mem_userRelations_of_entries hr)⟩
      · obtain ⟨r, hr, rfl⟩ := List.mem_map.1 ht
        obtain ⟨f, hf, -, hname⟩ := Table.refersTo_iff.1 hrefers
        obtain ⟨k, hk, hf⟩ := List.mem_flatMap.1 hf
        obtain ⟨c, -, rfl⟩ := List.mem_map.1 hf
        have hmem := mem_userRelations_of_entries hr
        refine ⟨r, hmem, hshows r hmem, k, hk, ?_⟩
        rw [← hname]
        exact decide_eq_true rfl

end Database

end Sqlite
end Introspect
end AgentDb
