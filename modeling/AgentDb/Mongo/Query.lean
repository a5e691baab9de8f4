import AgentDb.Lib.Json
import AgentDb.Model

/-!
# The document classifier: `mongo/query.rs`

`classify` walks a typed document query: every key for the operators that run JavaScript on the
server, and the stages of an aggregation for those that write, with the pipelines that stages
embed. `document_read_iff` says what the verdict `read` amounts to: over the keys at every depth
(`HasKey`) and the stages at every depth (`StageIn`).
-/

namespace AgentDb
namespace Mongo

open Json

/-- `ALLOWED_STAGES`. -/
def allowedStages : List String :=
  ["$addFields", "$bucket", "$bucketAuto", "$count", "$densify", "$facet", "$fill", "$geoNear",
    "$graphLookup", "$group", "$limit", "$lookup", "$match", "$project", "$redact", "$replaceRoot",
    "$replaceWith", "$sample", "$set", "$setWindowFields", "$skip", "$sort", "$sortByCount",
    "$unionWith", "$unset", "$unwind"]

/-- `BANNED_OPERATORS`. -/
def bannedOperators : List String := ["$where", "$function", "$accumulator"]

/-- `DocumentQuery`. -/
inductive DocumentQuery
  | find (collection : String) (filter projection sort : Option Value) (skip limit : Option ℕ)
  | aggregate (collection : String) (pipeline : List Value)
  | count (collection : String) (filter : Option Value)

/-! ### The classifier

`debug` is the `Debug` text of a string, which the notes quote names with. -/

section Classifier

variable (debug : String → String)

mutual

/-- `banned_operator`. -/
def bannedOperator : Value → Option String
  | .object entries => bannedEntries entries
  | .array items => bannedItems items
  | _ => none

def bannedEntries : List (String × Value) → Option String
  | [] => none
  | (k, v) :: es =>
      (if k ∈ bannedOperators then
        some ("operator " ++ debug k ++ " (server-side JavaScript) is not allowed")
      else bannedOperator v) <|> bannedEntries es

def bannedItems : List Value → Option String
  | [] => none
  | v :: vs => bannedOperator v <|> bannedItems vs

end

mutual

/-- `pipeline_violation`. -/
def pipelineViolation : List Value → Option String
  | [] => none
  | stage :: stages => stageViolation stage <|> pipelineViolation stages

/-- `stage_violation`. -/
def stageViolation : Value → Option String
  | .object [(name, body)] =>
      if name ∉ allowedStages then
        some ("aggregate stage " ++ debug name ++ " is not in the read-only allowlist")
      else bannedOperator debug body <|>
        (if name = "$lookup" ∨ name = "$unionWith" then embeddedViolation body
        else if name = "$facet" then facetViolation body
        else none)
  | _ => some "each aggregate stage must be an object with exactly one $stage key"

/-- The pipeline of a `$lookup` or `$unionWith` body, if it has one. -/
def embeddedViolation : Value → Option String
  | .object entries => pipelineEntryViolation entries
  | _ => none

/-- `body.get("pipeline")` and what follows. -/
def pipelineEntryViolation : List (String × Value) → Option String
  | [] => none
  | (k, v) :: es => if k = "pipeline" then stagesViolation v else pipelineEntryViolation es

def stagesViolation : Value → Option String
  | .array stages => pipelineViolation stages
  | _ => none

/-- The branches of a `$facet` body. -/
def facetViolation : Value → Option String
  | .object facets => facetsViolation facets
  | _ => none

def facetsViolation : List (String × Value) → Option String
  | [] => none
  | (_, sub) :: facets => branchViolation sub <|> facetsViolation facets

def branchViolation : Value → Option String
  | .array stages => pipelineViolation stages
  | _ => some "$facet values must be arrays of stages"

end

/-- The collection a query reads, and its first violation. -/
def violation : DocumentQuery → String × Option String
  | .find collection filter projection sort _ _ =>
      (collection, ([filter, projection, sort].filterMap id).findSome? (bannedOperator debug))
  | .aggregate collection pipeline => (collection, pipelineViolation debug pipeline)
  | .count collection filter => (collection, filter.bind (bannedOperator debug))

/-- `classify`. -/
def classify (query : DocumentQuery) : Classification :=
  match violation debug query with
  | (collection, none) =>
      { kind := .read
        risk := .low
        statementCount := 1
        noWhere := false
        tables := [collection]
        notes := []
        rollbackSafe := false }
  | (collection, some note) =>
      { kind := .write
        risk := .high
        statementCount := 1
        noWhere := false
        tables := [collection]
        notes := [note]
        rollbackSafe := false }

end Classifier

/-! ### Keys and stages at every depth -/

/-- The key names an entry of some object inside the value. -/
inductive HasKey (key : String) : Value → Prop
  | entry {entries : List (String × Value)} {v : Value} (mem : (key, v) ∈ entries) :
      HasKey key (.object entries)
  | inEntry {entries : List (String × Value)} {e : String × Value} (mem : e ∈ entries)
      (below : HasKey key e.2) : HasKey key (.object entries)
  | inItem {items : List Value} {v : Value} (mem : v ∈ items) (below : HasKey key v) :
      HasKey key (.array items)

/-- No key of the value names an operator that runs JavaScript. -/
def NoScript (v : Value) : Prop := ∀ key ∈ bannedOperators, ¬ HasKey key v

/-- A pipeline that a stage embeds. -/
inductive Embeds : Value → List Value → Prop
  | pipeline {name : String} (hname : name = "$lookup" ∨ name = "$unionWith")
      {entries : List (String × Value)} {stages : List Value}
      (hget : entries.lookup "pipeline" = some (.array stages)) :
      Embeds (.object [(name, .object entries)]) stages
  | facet {facets : List (String × Value)} {branch : String} {stages : List Value}
      (mem : (branch, .array stages) ∈ facets) : Embeds (.object [("$facet", .object facets)]) stages

/-- The stages of a pipeline at every depth. -/
inductive StageIn : List Value → Value → Prop
  | here {pipeline : List Value} {stage : Value} (mem : stage ∈ pipeline) : StageIn pipeline stage
  | embedded {pipeline stages : List Value} {outer stage : Value} (mem : outer ∈ pipeline)
      (embeds : Embeds outer stages) (below : StageIn stages stage) : StageIn pipeline stage

/-- A single-key object whose key is in the allowlist, with no script in its body. -/
def AllowedStage (stage : Value) : Prop :=
  ∃ name body, stage = .object [(name, body)] ∧ name ∈ allowedStages ∧ NoScript body

/-- The branches of a `$facet` stage are arrays. -/
def FacetsAreArrays (stage : Value) : Prop :=
  ∀ facets, stage = .object [("$facet", .object facets)] →
    ∀ e ∈ facets, ∃ stages, e.2 = .array stages

/-! ### What the walks find -/

section Walks

variable {debug : String → String}

theorem hasKey_object {key : String} {entries : List (String × Value)} :
    HasKey key (.object entries) ↔ ∃ e ∈ entries, e.1 = key ∨ HasKey key e.2 := by
  constructor
  · intro h
    cases h with
    | entry mem => exact ⟨_, mem, .inl rfl⟩
    | inEntry mem below => exact ⟨_, mem, .inr below⟩
  · rintro ⟨⟨k, v⟩, hmem, rfl | hbelow⟩
    · exact .entry hmem
    · exact .inEntry hmem hbelow

theorem hasKey_array {key : String} {items : List Value} :
    HasKey key (.array items) ↔ ∃ v ∈ items, HasKey key v := by
  constructor
  · intro h
    cases h with
    | inItem mem below => exact ⟨_, mem, below⟩
  · rintro ⟨v, hmem, hbelow⟩
    exact .inItem hmem hbelow

theorem bannedEntries_eq_none {entries : List (String × Value)} :
    bannedEntries debug entries = none ↔
      ∀ e ∈ entries, e.1 ∉ bannedOperators ∧ bannedOperator debug e.2 = none := by
  induction entries with
  | nil => simp [bannedEntries]
  | cons e es ih =>
    obtain ⟨k, v⟩ := e
    rw [bannedEntries, Option.orElse_eq_none, List.forall_mem_cons, ih]
    by_cases hk : k ∈ bannedOperators
    · simp [hk]
    · simp [hk]

theorem bannedItems_eq_none {items : List Value} :
    bannedItems debug items = none ↔ ∀ v ∈ items, bannedOperator debug v = none := by
  induction items with
  | nil => simp [bannedItems]
  | cons v vs ih => rw [bannedItems, Option.orElse_eq_none, List.forall_mem_cons, ih]

/-- `banned_operator` finds a script wherever there is one. -/
theorem bannedOperator_eq_none (v : Value) : bannedOperator debug v = none ↔ NoScript v := by
  have leaf : ∀ w : Value, (∀ key, ¬ HasKey key w) → NoScript w := fun w h key _ => h key
  induction v using Value.ind with
  | null => exact iff_of_true (by simp [bannedOperator]) (leaf _ fun _ h => by cases h)
  | bool b => exact iff_of_true (by simp [bannedOperator]) (leaf _ fun _ h => by cases h)
  | number n => exact iff_of_true (by simp [bannedOperator]) (leaf _ fun _ h => by cases h)
  | string s => exact iff_of_true (by simp [bannedOperator]) (leaf _ fun _ h => by cases h)
  | array items ih =>
    rw [bannedOperator, bannedItems_eq_none]
    constructor
    · rintro h key hkey hhas
      obtain ⟨v, hv, hbelow⟩ := hasKey_array.1 hhas
      exact (ih v hv).1 (h v hv) key hkey hbelow
    · intro h v hv
      exact (ih v hv).2 fun key hkey hbelow => h key hkey (.inItem hv hbelow)
  | object entries ih =>
    rw [bannedOperator, bannedEntries_eq_none]
    constructor
    · rintro h key hkey hhas
      obtain ⟨e, he, rfl | hbelow⟩ := hasKey_object.1 hhas
      · exact (h e he).1 hkey
      · exact (ih e he).1 (h e he).2 key hkey hbelow
    · intro h e he
      refine ⟨fun hkey => h e.1 hkey (.entry he), ?_⟩
      exact (ih e he).2 fun key hkey hbelow => h key hkey (.inEntry he hbelow)

theorem pipelineViolation_eq_none {pipeline : List Value} :
    pipelineViolation debug pipeline = none ↔
      ∀ stage ∈ pipeline, stageViolation debug stage = none := by
  induction pipeline with
  | nil => simp [pipelineViolation]
  | cons stage stages ih => rw [pipelineViolation, Option.orElse_eq_none, List.forall_mem_cons, ih]

/-- `body.get("pipeline")` finds the first entry of the name. -/
theorem pipelineEntryViolation_eq_none {entries : List (String × Value)} :
    pipelineEntryViolation debug entries = none ↔
      ∀ stages, entries.lookup "pipeline" = some (.array stages) →
        pipelineViolation debug stages = none := by
  induction entries with
  | nil => simp [pipelineEntryViolation]
  | cons e es ih =>
    obtain ⟨k, v⟩ := e
    rw [pipelineEntryViolation, List.lookup_cons]
    by_cases hk : k = "pipeline"
    · subst hk
      cases v <;> simp [stagesViolation]
    · have hne : ("pipeline" == k) = false := by simpa using fun h => hk h.symm
      rw [if_neg hk, hne, ih]

theorem facetsViolation_eq_none {facets : List (String × Value)} :
    facetsViolation debug facets = none ↔
      ∀ e ∈ facets, ∃ stages, e.2 = .array stages ∧ pipelineViolation debug stages = none := by
  induction facets with
  | nil => simp [facetsViolation]
  | cons e es ih =>
    obtain ⟨k, sub⟩ := e
    rw [facetsViolation, Option.orElse_eq_none, List.forall_mem_cons, ih]
    cases sub <;> simp [branchViolation]

theorem allowedStage_object {name : String} {body : Value} :
    AllowedStage (.object [(name, body)]) ↔ name ∈ allowedStages ∧ NoScript body := by
  constructor
  · rintro ⟨name', body', h, hname, hbody⟩
    cases h
    exact ⟨hname, hbody⟩
  · rintro ⟨hname, hbody⟩
    exact ⟨name, body, rfl, hname, hbody⟩

theorem embeds_object {name : String} {body : Value} {stages : List Value} :
    Embeds (.object [(name, body)]) stages ↔
      ((name = "$lookup" ∨ name = "$unionWith") ∧ ∃ entries, body = .object entries ∧
        entries.lookup "pipeline" = some (.array stages)) ∨
      name = "$facet" ∧ ∃ facets, body = .object facets ∧
        ∃ branch, (branch, .array stages) ∈ facets := by
  constructor
  · intro h
    cases h with
    | pipeline hname hget => exact .inl ⟨hname, _, rfl, hget⟩
    | facet mem => exact .inr ⟨rfl, _, rfl, _, mem⟩
  · rintro (⟨hname, entries, rfl, hget⟩ | ⟨rfl, facets, rfl, branch, hmem⟩)
    · exact .pipeline hname hget
    · exact .facet hmem

theorem embeddedViolation_eq_none {body : Value} :
    embeddedViolation debug body = none ↔ ∀ entries stages, body = .object entries →
      entries.lookup "pipeline" = some (.array stages) →
        pipelineViolation debug stages = none := by
  cases body with
  | object entries =>
    rw [embeddedViolation, pipelineEntryViolation_eq_none]
    constructor
    · rintro h _ stages ⟨⟩ hget
      exact h stages hget
    · exact fun h stages hget => h entries stages rfl hget
  | _ => simp [embeddedViolation]

theorem facetViolation_eq_none {body : Value} :
    facetViolation debug body = none ↔ ∀ facets, body = .object facets →
      ∀ e ∈ facets, ∃ stages, e.2 = .array stages ∧ pipelineViolation debug stages = none := by
  cases body with
  | object facets => simp [facetViolation, facetsViolation_eq_none]
  | _ => simp [facetViolation]

/-- `stage_violation`, in terms of the stage and the pipelines it embeds. -/
theorem stageViolation_eq_none {stage : Value} :
    stageViolation debug stage = none ↔ AllowedStage stage ∧ FacetsAreArrays stage ∧
      ∀ stages, Embeds stage stages → pipelineViolation debug stages = none := by
  by_cases hshape : ∃ name body, stage = .object [(name, body)]
  · obtain ⟨name, body, rfl⟩ := hshape
    rw [stageViolation, allowedStage_object]
    by_cases hname : name ∈ allowedStages
    · rw [if_neg (not_not.2 hname), Option.orElse_eq_none, bannedOperator_eq_none, and_assoc,
        iff_true_intro hname, true_and, and_congr_right_iff]
      rintro -
      simp only [embeds_object]
      by_cases hpipeline : name = "$lookup" ∨ name = "$unionWith"
      · have hfacet : name ≠ "$facet" := by
          rintro rfl
          revert hpipeline
          decide
        rw [if_pos hpipeline, embeddedViolation_eq_none]
        constructor
        · intro h
          refine ⟨fun facets heq => ?_, ?_⟩
          · cases heq
            exact absurd rfl hfacet
          · rintro stages (⟨-, entries, heq, hget⟩ | ⟨heq, -⟩)
            · exact h entries stages heq hget
            · exact absurd heq hfacet
        · rintro ⟨-, h⟩ entries stages heq hget
          exact h stages (.inl ⟨hpipeline, entries, heq, hget⟩)
      · by_cases hfacet : name = "$facet"
        · subst hfacet
          rw [if_neg hpipeline, if_pos rfl, facetViolation_eq_none]
          constructor
          · intro h
            refine ⟨fun facets heq e he => ?_, ?_⟩
            · cases heq
              obtain ⟨stages, hstages, -⟩ := h facets rfl e he
              exact ⟨stages, hstages⟩
            · rintro stages (⟨hno, -⟩ | ⟨-, facets, heq, branch, hmem⟩)
              · exact absurd hno hpipeline
              · obtain ⟨stages', hstages, hnone⟩ := h facets heq _ hmem
                cases hstages
                exact hnone
          · rintro ⟨harrays, h⟩ facets rfl e he
            obtain ⟨stages, hstages⟩ := harrays facets rfl e he
            refine ⟨stages, hstages, h stages (.inr ⟨rfl, facets, rfl, e.1, ?_⟩)⟩
            rw [← hstages]
            exact he
        · rw [if_neg hpipeline, if_neg hfacet]
          refine iff_of_true rfl ⟨fun facets heq => ?_, ?_⟩
          · cases heq
            exact absurd rfl hfacet
          · rintro stages (⟨hno, -⟩ | ⟨hno, -⟩)
            · exact absurd hno hpipeline
            · exact absurd hno hfacet
    · simp [hname]
  · rw [stageViolation]
    · refine iff_of_false (by simp) ?_
      rintro ⟨⟨name, body, rfl, -⟩, -⟩
      exact hshape ⟨name, body, rfl⟩
    · exact fun name body heq => hshape ⟨name, body, heq⟩

/-- What a stage embeds is smaller than the stage. -/
theorem sizeOf_embeds {stage : Value} {stages : List Value} (h : Embeds stage stages) :
    sizeOf stages < sizeOf stage := by
  cases h with
  | pipeline hname hget =>
    obtain ⟨before, after, rfl, -⟩ := List.lookup_eq_some_iff.1 hget
    have hlt : sizeOf ("pipeline", Value.array stages) <
        sizeOf (before ++ ("pipeline", Value.array stages) :: after) :=
      List.sizeOf_lt_of_mem (by simp)
    simp at hlt ⊢
    omega
  | facet mem =>
    have hlt := List.sizeOf_lt_of_mem mem
    simp at hlt ⊢
    omega

/-- A pipeline has no violation when no stage at any depth has one. -/
theorem pipelineViolation_of_stageIn (pipeline : List Value)
    (h : ∀ stage, StageIn pipeline stage → AllowedStage stage ∧ FacetsAreArrays stage) :
    pipelineViolation debug pipeline = none := by
  rw [pipelineViolation_eq_none]
  intro stage hstage
  obtain ⟨hallowed, harrays⟩ := h stage (.here hstage)
  refine stageViolation_eq_none.2 ⟨hallowed, harrays, fun stages hembeds => ?_⟩
  have hlt := List.sizeOf_lt_of_mem hstage
  have hlt' := sizeOf_embeds hembeds
  exact pipelineViolation_of_stageIn stages fun below hbelow =>
    h below (.embedded hstage hembeds hbelow)
termination_by sizeOf pipeline

theorem stageIn_of_pipelineViolation {pipeline : List Value} {stage : Value}
    (hin : StageIn pipeline stage) (h : pipelineViolation debug pipeline = none) :
    AllowedStage stage ∧ FacetsAreArrays stage := by
  induction hin with
  | here mem =>
    obtain ⟨hallowed, harrays, -⟩ :=
      stageViolation_eq_none.1 (pipelineViolation_eq_none.1 h _ mem)
    exact ⟨hallowed, harrays⟩
  | embedded mem embeds below ih =>
    obtain ⟨-, -, hembedded⟩ := stageViolation_eq_none.1 (pipelineViolation_eq_none.1 h _ mem)
    exact ih (hembedded _ embeds)

end Walks

/-! ### The verdict -/

/-- What may be read: no script at any depth, and stages of the allowlist only. -/
def ReadOnly : DocumentQuery → Prop
  | .find _ filter projection sort _ _ =>
      ∀ v, filter = some v ∨ projection = some v ∨ sort = some v → NoScript v
  | .aggregate _ pipeline => ∀ stage, StageIn pipeline stage → AllowedStage stage
  | .count _ filter => ∀ v, filter = some v → NoScript v

/-- The branches of every `$facet`, at every depth, are arrays. -/
def BranchesAreArrays : DocumentQuery → Prop
  | .aggregate _ pipeline => ∀ stage, StageIn pipeline stage → FacetsAreArrays stage
  | _ => True

theorem kind_classify (debug : String → String) (query : DocumentQuery) :
    (classify debug query).kind = .read ↔ (violation debug query).2 = none := by
  unfold classify
  obtain ⟨collection, note⟩ := violation debug query
  cases note <;> simp

/-- **A document query is classified as a read exactly when it is read-only and its facets are
arrays of stages.** -/
theorem document_read_iff (debug : String → String) (query : DocumentQuery) :
    (classify debug query).kind = .read ↔ ReadOnly query ∧ BranchesAreArrays query := by
  rw [kind_classify]
  cases query with
  | find collection filter projection sort skip limit =>
    simp only [violation, ReadOnly, BranchesAreArrays, and_true, List.findSome?_eq_none_iff,
      bannedOperator_eq_none, List.mem_filterMap, id_eq, exists_eq_right, List.mem_cons,
      List.not_mem_nil, or_false, eq_comm (a := some _)]
  | aggregate collection pipeline =>
    constructor
    · intro h
      exact ⟨fun stage hin => (stageIn_of_pipelineViolation hin h).1,
        fun stage hin => (stageIn_of_pipelineViolation hin h).2⟩
    · rintro ⟨hallowed, harrays⟩
      exact pipelineViolation_of_stageIn pipeline fun stage hin =>
        ⟨hallowed stage hin, harrays stage hin⟩
  | count collection filter =>
    cases filter <;> simp [violation, ReadOnly, BranchesAreArrays, bannedOperator_eq_none]

/-- A facet that is not an array has no stage, yet is refused. -/
def oddFacet : DocumentQuery :=
  .aggregate "orders" [.object [("$facet", .object [("all", .null)])]]

theorem classify_oddFacet : ReadOnly oddFacet ∧
    ∀ debug, (classify debug oddFacet).kind = .write := by
  constructor
  · intro stage hin
    cases hin with
    | here mem =>
      obtain rfl := List.mem_singleton.1 mem
      refine ⟨"$facet", _, rfl, by decide, fun key hkey hhas => ?_⟩
      obtain ⟨e, he, rfl | hbelow⟩ := hasKey_object.1 hhas
      · obtain rfl := List.mem_singleton.1 he
        exact absurd hkey (by decide)
      · obtain rfl := List.mem_singleton.1 he
        cases hbelow
    | embedded mem embeds below =>
      obtain rfl := List.mem_singleton.1 mem
      rcases embeds_object.1 embeds with ⟨h, -⟩ | ⟨-, facets, heq, branch, hmem⟩
      · exact absurd h (by decide)
      · cases heq
        simp at hmem
  · intro debug
    rfl

end Mongo
end AgentDb
