import AgentDb.Error
import AgentDb.Executor.Read
import AgentDb.Mongo.Query

/-!
# The document reader: `mongo/query.rs`

`run` sends a typed query to the driver and drains its cursor into a page. A find may carry a
limit of its own, the page has a cap, and the driver takes a signed limit of which zero says that
there is none. `findMeets_iff` says when the three numbers agree: always but for a find without a
limit under the largest cap there is, where `max + 1` is zero, and for results and caps past the
largest limit the driver can be given.
-/

namespace AgentDb
namespace Mongo

open Json

/-! ### Integers -/

/-- The values of a `usize`, which has the width of a `u64`. An addition wraps around. -/
def usizeSize : ℕ := 2 ^ 64

/-- `i64::MAX`. -/
def i64Max : ℕ := 2 ^ 63 - 1

/-- `fetch_limit`. -/
def fetchLimit (limit : Option ℕ) (max : ℕ) : Option ℕ :=
  match limit with
  | some 0 => none
  | some (l + 1) =>
      if (l + 1) % usizeSize ≤ max then some (l + 1) else some ((max + 1) % usizeSize)
  | none => some ((max + 1) % usizeSize)

/-- `i64::try_from(fetch).unwrap_or(i64::MAX)`. -/
def driverLimit (fetch : ℕ) : ℤ := if fetch ≤ i64Max then fetch else i64Max

mutual

/-- `stringify_unsafe_ints`. A number that is neither an `i64` nor a `u64` is kept. -/
def stringifyUnsafeInts : Value → Value
  | .number (.int n) =>
      if -2 ^ 63 ≤ n ∧ n < 2 ^ 63 then Executor.intJson n
      else if 0 ≤ n ∧ n < 2 ^ 64 then Executor.uintJson n.toNat
      else .number (.int n)
  | .array items => .array (stringifyItems items)
  | .object entries => .object (stringifyEntries entries)
  | other => other

def stringifyItems : List Value → List Value
  | [] => []
  | v :: vs => stringifyUnsafeInts v :: stringifyItems vs

def stringifyEntries : List (String × Value) → List (String × Value)
  | [] => []
  | (k, v) :: es => (k, stringifyUnsafeInts v) :: stringifyEntries es

end

/-! ### The reader

`δ` is the driver's document. `bson` is what its conversion makes of a JSON value: a document,
something else, or the text of an error. `shown` is the relaxed Extended JSON of a document. -/

/-- What a find asks the driver for, without the limit. -/
structure FindRequest (δ : Type) where
  collection : String
  filter : δ
  projection : Option δ
  sort : Option δ
  skip : Option ℕ
  maxTimeMs : ℕ

/-- The calls of the driver. A cursor hands out documents until it ends or fails. -/
structure Server (δ : Type) where
  find : FindRequest δ → ℤ → AppResult (List (AppResult δ))
  aggregate : String → List δ → ℕ → AppResult (List (AppResult δ))
  countDocuments : String → δ → ℕ → AppResult ℕ

/-- `DocumentPage`. -/
structure DocumentPage where
  documents : List Value
  docCount : ℕ
  truncated : Bool
  durationMs : ℕ

section Reader

variable {δ : Type} (bson : Value → Except String (Option δ)) (empty : δ) (shown : δ → Value)

/-- `to_document`. -/
def toDocument (value : Option Value) (what : String) : AppResult δ :=
  match value with
  | none => .ok empty
  | some value =>
      match bson value with
      | .ok (some doc) => .ok doc
      | .ok none => .error (.config (what ++ " must be a JSON object"))
      | .error e => .error (.config ("invalid " ++ what ++ ": " ++ e))

/-- A document as the page shows it. -/
def render (doc : δ) : Value := stringifyUnsafeInts (shown doc)

/-- `drain`: the capped loop over the rendered documents. -/
def drain (cursor : List (AppResult δ)) (max : ℕ) : AppResult (List Value × Bool) :=
  Capped.read max [] (cursor.map (Except.map (render shown)))

/-- The builder of a find, before its limit. -/
def findRequest (maxTimeMs : ℕ) (collection : String) (filter projection sort : Option Value)
    (skip : Option ℕ) : AppResult (FindRequest δ) := do
  let filter ← toDocument bson empty filter "filter"
  let projection ← projection.mapM fun p => toDocument bson empty (some p) "projection"
  let sort ← sort.mapM fun s => toDocument bson empty (some s) "sort"
  return { collection, filter, projection, sort, skip, maxTimeMs }

/-- The find with the limit that `fetch_limit` found: the caller's zero says no documents, the
driver's zero says no limit, so a find without documents is not sent. -/
def sendFind (server : Server δ) (request : FindRequest δ) (max : ℕ) :
    Option ℕ → AppResult (List Value × Bool)
  | none => .ok ([], false)
  | some fetch => do drain shown (← server.find request (driverLimit fetch)) max

/-- The documents of a query, and whether the page was cut off. -/
def readDocuments (server : Server δ) (max maxTimeMs : ℕ) :
    DocumentQuery → AppResult (List Value × Bool)
  | .find collection filter projection sort skip limit => do
      let request ← findRequest bson empty maxTimeMs collection filter projection sort skip
      sendFind shown server request max (fetchLimit limit max)
  | .aggregate collection pipeline => do
      let stages ← pipeline.mapM fun s => toDocument bson empty (some s) "pipeline stage"
      drain shown (← server.aggregate collection stages maxTimeMs) max
  | .count collection filter => do
      let filter ← toDocument bson empty filter "filter"
      let n ← server.countDocuments collection filter maxTimeMs
      return ([stringifyUnsafeInts (.object [("count", .number (.int n))])], false)

/-- `run`. -/
def run (server : Server δ) (query : DocumentQuery) (maxRows maxTimeMs durationMs : ℕ) :
    AppResult DocumentPage := do
  let (documents, truncated) ←
    readDocuments bson empty shown server (max maxRows 1 % usizeSize) maxTimeMs query
  return { documents
           docCount := documents.length
           truncated
           durationMs }

/-! ### What the driver does with a limit -/

/-- The find matches `docs`: all of them are sent where the limit is zero, and the first `n` where
it is a positive `n`. -/
structure Server.Matches (server : Server δ) (request : FindRequest δ) (docs : List δ) : Prop where
  unlimited : server.find request 0 = .ok (docs.map .ok)
  limited : ∀ n : ℕ, 0 < n → server.find request n = .ok ((docs.take n).map .ok)

/-- A server on which every query matches `docs`. -/
def Server.holding (docs : List δ) : Server δ where
  find _ limit := .ok ((if limit = 0 then docs else docs.take limit.natAbs).map .ok)
  aggregate _ _ _ := .ok (docs.map .ok)
  countDocuments _ _ _ := .ok docs.length

theorem Server.holding_matches (docs : List δ) (request : FindRequest δ) :
    (Server.holding docs).Matches request docs where
  unlimited := rfl
  limited n hn := by
    simp [Server.holding, hn.ne']

/-! ### Limit and cap -/

/-- What a find owes its caller: the first documents of those the caller asked for, the flag that
there are more of them, and a positive limit wherever the driver is given one. -/
def FindMeets (server : Server δ) (cap : UInt64) (maxTimeMs durationMs : ℕ) (collection : String)
    (filter projection sort : Option Value) (skip : Option ℕ) (limit : Option UInt64)
    (docs : List δ) : Prop :=
  (∃ page, run bson empty shown server
      (.find collection filter projection sort skip (limit.map UInt64.toNat)) cap.toNat maxTimeMs
      durationMs = .ok page ∧
    page.docCount = page.documents.length ∧
    Capped.IsPage (max cap.toNat 1)
      (Capped.asked (limit.map UInt64.toNat) (docs.map (render shown)))
      (page.documents, page.truncated)) ∧
  ∀ fetch, fetchLimit (limit.map UInt64.toNat) (max cap.toNat 1) = some fetch →
    0 < driverLimit fetch

/-- What an aggregation owes its caller: the first documents of its result, with the flag that
there are more of them. -/
def AggregateMeets (server : Server δ) (cap : UInt64) (maxTimeMs durationMs : ℕ)
    (collection : String) (pipeline : List Value) (docs : List δ) : Prop :=
  ∃ page, run bson empty shown server (.aggregate collection pipeline) cap.toNat maxTimeMs
      durationMs = .ok page ∧
    page.docCount = page.documents.length ∧
    Capped.IsPage (max cap.toNat 1) (docs.map (render shown)) (page.documents, page.truncated)

/-- The caller's numbers fit the driver's limit: one more than the cap is a number of its own
where no limit stands in for it, and what is not sent past `i64::MAX` is not missed. -/
structure FitsDriver (cap : ℕ) (limit : Option ℕ) (matched : ℕ) : Prop where
  onePast : limit = none → cap + 1 < usizeSize
  signed : matched ≤ i64Max ∨ cap < i64Max ∨ ∃ l, limit = some l ∧ l ≤ i64Max

variable {bson empty shown} {server : Server δ} {request : FindRequest δ} {docs : List δ}
  {maxTimeMs durationMs : ℕ} {collection : String} {filter projection sort : Option Value}
  {skip : Option ℕ}

theorem toNat_max_one_mod (cap : UInt64) : max cap.toNat 1 % usizeSize = max cap.toNat 1 := by
  have hcap := cap.toNat_lt
  refine Nat.mod_eq_of_lt ?_
  rw [usizeSize]
  omega

theorem drain_ok (sent : List δ) (max : ℕ) :
    drain shown (sent.map .ok) max =
      .ok ((sent.map (render shown)).take max, decide (max < (sent.map (render shown)).length)) := by
  have hmap : (sent.map (Except.ok (ε := AppError))).map (Except.map (render shown)) =
      (sent.map (render shown)).map Except.ok := by
    rw [List.map_map, List.map_map]
    rfl
  rw [drain, hmap, Capped.read_ok]

/-- What the driver sends of `docs` for a limit of `fetch`. -/
def sent (fetch : ℕ) (docs : List δ) : List δ :=
  if fetch = 0 then docs else docs.take (min fetch i64Max)

theorem find_driverLimit (hmatches : server.Matches request docs) (fetch : ℕ) :
    server.find request (driverLimit fetch) = .ok ((sent fetch docs).map .ok) := by
  by_cases hzero : fetch = 0
  · subst hzero
    exact hmatches.unlimited
  · rw [sent, if_neg hzero, driverLimit]
    split
    · rename_i hle
      rw [min_eq_left hle]
      exact hmatches.limited fetch (Nat.pos_of_ne_zero hzero)
    · rename_i hgt
      rw [min_eq_right (by omega)]
      exact hmatches.limited i64Max (by decide)

/-- The page of a find: nothing where nothing was asked for, and the capped documents the driver
sent elsewhere. -/
def pageOf (shown : δ → Value) (max : ℕ) (docs : List δ) : Option ℕ → List Value × Bool
  | none => ([], false)
  | some fetch => (((sent fetch docs).map (render shown)).take max,
      decide (max < ((sent fetch docs).map (render shown)).length))

theorem sendFind_eq (hmatches : server.Matches request docs) (max : ℕ) (fetch : Option ℕ) :
    sendFind shown server request max fetch = .ok (pageOf shown max docs fetch) := by
  cases fetch with
  | none => rfl
  | some fetch =>
      rw [sendFind, find_driverLimit hmatches]
      exact drain_ok _ max

/-- What a find comes back with. -/
theorem run_find (hrequest : findRequest bson empty maxTimeMs collection filter projection sort
      skip = .ok request) (hmatches : server.Matches request docs) (limit : Option ℕ)
    (cap : UInt64) :
    run bson empty shown server (.find collection filter projection sort skip limit) cap.toNat
        maxTimeMs durationMs =
      let page := pageOf shown (max cap.toNat 1) docs (fetchLimit limit (max cap.toNat 1))
      .ok ⟨page.1, page.1.length, page.2, durationMs⟩ := by
  rw [run, toNat_max_one_mod, readDocuments, hrequest]
  change (sendFind shown server request _ _ >>= _) = _
  rw [sendFind_eq hmatches]
  rfl

/-! ### When the numbers agree -/

theorem driverLimit_pos_iff {fetch : ℕ} : 0 < driverLimit fetch ↔ fetch ≠ 0 := by
  have hmax : (0 : ℤ) < i64Max := by decide
  rw [driverLimit]
  split <;> omega

theorem asked_eq_take (limit : Option ℕ) (items : List Value) :
    Capped.asked limit items = items.take (limit.getD items.length) := by
  cases limit with
  | none => simp [Capped.asked]
  | some l => rfl

/-- Two pages cut out of one result are one page where the numbers say so. -/
theorem page_eq_iff (items : List Value) (c d w : ℕ) :
    (((items.take d).take c, decide (c < (items.take d).length)) : List Value × Bool) =
        ((items.take w).take c, decide (c < (items.take w).length)) ↔
      min (min c d) items.length = min (min c w) items.length ∧
        (c < min d items.length ↔ c < min w items.length) := by
  rw [Prod.mk.injEq, List.take_take, List.take_take, List.take_eq_take_iff, decide_eq_decide,
    List.length_take, List.length_take]

theorem map_sent (fetch : ℕ) : (sent fetch docs).map (render shown) =
    (docs.map (render shown)).take (if fetch = 0 then docs.length else min fetch i64Max) := by
  rw [sent]
  split
  · rw [List.take_of_length_le (by simp)]
  · rw [List.map_take]

/-- A find the driver is sent with `fetch`, against what was asked for. -/
theorem pageOf_some_iff (fetch max : ℕ) (limit : Option ℕ) :
    pageOf shown max docs (some fetch) =
        ((Capped.asked limit (docs.map (render shown))).take max,
          decide (max < (Capped.asked limit (docs.map (render shown))).length)) ↔
      let sends := if fetch = 0 then docs.length else min fetch i64Max
      let wants := limit.getD docs.length
      min (min max sends) docs.length = min (min max wants) docs.length ∧
        (max < min sends docs.length ↔ max < min wants docs.length) := by
  rw [pageOf, map_sent, asked_eq_take, List.length_map, page_eq_iff, List.length_map]

/-- The page is the one owed, and the driver was given a positive limit, if and only if the
numbers fit. -/
theorem pageOf_iff (shown : δ → Value) (cap : UInt64) (limit : Option UInt64) :
    (Capped.IsPage (max cap.toNat 1)
        (Capped.asked (limit.map UInt64.toNat) (docs.map (render shown)))
        (pageOf shown (max cap.toNat 1) docs
          (fetchLimit (limit.map UInt64.toNat) (max cap.toNat 1))) ∧
      ∀ fetch, fetchLimit (limit.map UInt64.toNat) (max cap.toNat 1) = some fetch →
        0 < driverLimit fetch) ↔
    FitsDriver cap.toNat (limit.map UInt64.toNat) docs.length := by
  have hcap := cap.toNat_lt
  rw [Capped.isPage_iff]
  generalize cap.toNat = cap at hcap ⊢
  rcases limit with _ | limit
  · -- One past the cap is asked for, which is zero where the cap is the largest there is.
    have hfetch : fetchLimit none (max cap 1) = some ((max cap 1 + 1) % usizeSize) := rfl
    rw [Option.map_none, hfetch, pageOf_some_iff]
    simp only [Option.some.injEq, forall_eq', driverLimit_pos_iff, Option.getD_none]
    constructor
    · rintro ⟨⟨hpage, hflag⟩, hpos⟩
      rw [if_neg hpos] at hpage hflag
      refine ⟨fun _ => ?_, ?_⟩
      · simp only [usizeSize, i64Max] at *
        omega
      · simp only [usizeSize, i64Max] at *
        simp only [reduceCtorEq, false_and, exists_false, or_false]
        omega
    · rintro ⟨honePast, hsigned⟩
      have hpast := honePast rfl
      simp only [reduceCtorEq, false_and, exists_false, or_false] at hsigned
      have hpos : (max cap 1 + 1) % usizeSize ≠ 0 := by
        simp only [usizeSize] at *
        omega
      rw [if_neg hpos]
      refine ⟨?_, hpos⟩
      simp only [usizeSize, i64Max] at *
      omega
  · have hlimit := limit.toNat_lt
    rw [Option.map_some]
    generalize limit.toNat = limit at hlimit ⊢
    rcases limit with _ | l
    · -- Nothing is asked for, and nothing is sent.
      refine iff_of_true ⟨?_, ?_⟩ ⟨?_, Or.inr (Or.inr ⟨0, rfl, Nat.zero_le _⟩)⟩
      · simp [fetchLimit, pageOf, Capped.asked]
      · intro fetch hfetch
        cases hfetch
      · intro hnone
        cases hnone
    · have hmod : (l + 1) % usizeSize = l + 1 := Nat.mod_eq_of_lt hlimit
      have honePast : some (l + 1) = none → cap + 1 < usizeSize := by
        intro hnone
        cases hnone
      rw [fetchLimit, hmod]
      by_cases hle : l + 1 ≤ max cap 1
      · -- The caller's limit is the driver's.
        rw [if_pos hle, pageOf_some_iff]
        simp only [Option.some.injEq, forall_eq', driverLimit_pos_iff, Option.getD_some]
        rw [if_neg (Nat.succ_ne_zero l)]
        constructor
        · rintro ⟨⟨hpage, hflag⟩, -⟩
          refine ⟨honePast, ?_⟩
          simp only [Option.some.injEq, exists_eq_left', i64Max] at *
          omega
        · rintro ⟨-, hsigned⟩
          refine ⟨?_, Nat.succ_ne_zero l⟩
          simp only [Option.some.injEq, exists_eq_left', i64Max] at *
          omega
      · -- One past the cap is asked for; the caller's limit is beyond it.
        have hpos : (max cap 1 + 1) % usizeSize ≠ 0 := by
          simp only [usizeSize] at *
          omega
        rw [if_neg hle, pageOf_some_iff]
        simp only [Option.some.injEq, forall_eq', driverLimit_pos_iff, Option.getD_some]
        rw [if_neg hpos]
        constructor
        · rintro ⟨⟨hpage, hflag⟩, -⟩
          refine ⟨honePast, ?_⟩
          simp only [Option.some.injEq, exists_eq_left', usizeSize, i64Max] at *
          omega
        · rintro ⟨-, hsigned⟩
          refine ⟨?_, hpos⟩
          simp only [Option.some.injEq, exists_eq_left', usizeSize, i64Max] at *
          omega

theorem findMeets_iff (hrequest : findRequest bson empty maxTimeMs collection filter projection
      sort skip = .ok request) (hmatches : server.Matches request docs) (cap : UInt64)
    (limit : Option UInt64) :
    FindMeets bson empty shown server cap maxTimeMs durationMs collection filter projection sort
        skip limit docs ↔
      FitsDriver cap.toNat (limit.map UInt64.toNat) docs.length := by
  rw [← pageOf_iff shown, FindMeets, run_find hrequest hmatches]
  refine and_congr_left fun _ => ?_
  constructor
  · rintro ⟨page, hpage, -, hfirst⟩
    cases hpage
    exact hfirst
  · exact fun hfirst => ⟨_, rfl, rfl, hfirst⟩

/-- An aggregation has no limit of its own, and its page is right under every cap. -/
theorem aggregateMeets {pipeline : List Value} {stages : List δ}
    (hstages : pipeline.mapM (fun s => toDocument bson empty (some s) "pipeline stage") =
      .ok stages) (hcursor : server.aggregate collection stages maxTimeMs = .ok (docs.map .ok))
    (cap : UInt64) :
    AggregateMeets bson empty shown server cap maxTimeMs durationMs collection pipeline docs := by
  have hread : readDocuments bson empty shown server (max cap.toNat 1) maxTimeMs
      (.aggregate collection pipeline) =
      .ok ((docs.map (render shown)).take (max cap.toNat 1),
        decide (max cap.toNat 1 < (docs.map (render shown)).length)) := by
    rw [readDocuments, hstages]
    change (server.aggregate collection stages maxTimeMs >>= fun cursor => _) = _
    rw [hcursor]
    exact drain_ok docs _
  let shownPage := (docs.map (render shown)).take (max cap.toNat 1)
  refine ⟨⟨shownPage, shownPage.length, decide (max cap.toNat 1 < (docs.map (render shown)).length),
    durationMs⟩, ?_, rfl, Capped.isPage_take _ _⟩
  rw [run, toNat_max_one_mod, hread]
  rfl

end Reader

/-! ### The capped readers -/

section CappedReaders

variable {δ ρ ε : Type} {bson : Value → Except String (Option δ)} {empty : δ} {shown : δ → Value}
  {server : Server δ} {request : FindRequest δ} {docs : List δ} {maxTimeMs durationMs : ℕ}
  {collection : String} {filter projection sort : Option Value} {skip : Option ℕ}
  {pipeline : List Value} {stages : List δ}

/-- The rows of a read and the documents of an aggregation are capped right under every cap; the
documents of a find if and only if its numbers fit the driver's limit. -/
theorem capped_readers_iff (columnsOf : ρ → List String) (value : ρ → ℕ → Value)
    (describe : Option (List String)) (rows : List ρ)
    (hstages : pipeline.mapM (fun s => toDocument bson empty (some s) "pipeline stage") =
      .ok stages) (hcursor : server.aggregate collection stages maxTimeMs = .ok (docs.map .ok))
    (hrequest : findRequest bson empty maxTimeMs collection filter projection sort skip =
      .ok request) (hmatches : server.Matches request docs) (cap : UInt64)
    (limit : Option UInt64) :
    (∃ result, Executor.runRead columnsOf value describe durationMs cap
        (rows.map (Except.ok (ε := ε))) = .ok result ∧
      result.rowCount = result.rows.length ∧
      Capped.IsPage cap.toNat (rows.map (Executor.cells columnsOf value))
        (result.rows, result.truncated)) ∧
    AggregateMeets bson empty shown server cap maxTimeMs durationMs collection pipeline docs ∧
    (FindMeets bson empty shown server cap maxTimeMs durationMs collection filter projection sort
        skip limit docs ↔
      FitsDriver cap.toNat (limit.map UInt64.toNat) docs.length) :=
  ⟨Executor.runRead_ok columnsOf value describe durationMs cap rows,
    aggregateMeets hstages hcursor cap, findMeets_iff hrequest hmatches cap limit⟩

/-- Three rows and three documents under a cap of two. -/
theorem capped_readers_three :
    FindMeets (δ := ℕ) (fun _ => .ok (some 0)) 0 (fun n => .number (.int n))
      (Server.holding [1, 2, 3]) 2 1000 0 "users" none none none none none [1, 2, 3] := by
  have hstages : ([] : List Value).mapM
      (fun s => toDocument (fun _ => .ok (some 0)) 0 (some s) "pipeline stage") =
        (.ok [] : AppResult (List ℕ)) := rfl
  refine (capped_readers_iff (ρ := ℕ) (ε := String) (fun _ => ["n"])
    (fun n _ => .number (.int n)) none [1, 2, 3] hstages rfl rfl
    (Server.holding_matches [1, 2, 3] ⟨"users", 0, none, none, none, 1000⟩) 2 none).2.2.2
    ⟨fun _ => ?_, Or.inl ?_⟩
  · decide
  · decide

/-- Without a limit under the largest cap, the driver is given the zero that says there is no
limit. -/
theorem find_largest_cap_sends_zero :
    fetchLimit none (max (18446744073709551615 : UInt64).toNat 1) = some 0 ∧
    driverLimit 0 = 0 ∧
    ¬ FindMeets (δ := ℕ) (fun _ => .ok (some 0)) 0 (fun n => .number (.int n))
      (Server.holding [1, 2, 3]) 18446744073709551615 1000 0 "users" none none none none none
      [1, 2, 3] := by
  have hzero : fetchLimit none (max (18446744073709551615 : UInt64).toNat 1) = some 0 := by
    decide
  refine ⟨hzero, rfl, ?_⟩
  rintro ⟨-, hpositive⟩
  exact absurd (hpositive 0 hzero) (by decide)

end CappedReaders

end Mongo
end AgentDb
