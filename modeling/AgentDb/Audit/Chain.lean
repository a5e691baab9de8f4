import AgentDb.Lib.HashChain
import AgentDb.Lib.Sha256
import AgentDb.Model
import AgentDb.Scalars

/-!
# The audit chain: `audit/chain.rs`, `audit/mod.rs`

Every audit row stores the hash of its own fields and of the row before it. The fields are
length-prefixed, so the hashed text determines them (`canonical_eq_iff`), up to one thing: an
absent prompt, approver or error is written like an empty one. What a verified chain proves is
therefore its rows up to that difference.
-/

namespace AgentDb
namespace Audit

open TextCode

/-- `AuditFields`. -/
structure AuditFields where
  connectionId : Uuid
  ts : DateTime
  engine : Engine
  agentPrompt : Option String
  sql : String
  kind : QueryKind
  action : String
  approvedBy : Option String
  affectedEstimate : Option ℤ
  error : Option String
  deriving DecidableEq

/-- `AuditEntry`: the audited fields between the keys of the row. -/
structure AuditEntry extends AuditFields where
  id : Uuid
  prevHash : Option String
  hash : String

/-- The fields of a row as texts, in the order they are hashed. -/
def AuditFields.texts (f : AuditFields) : List String :=
  [f.connectionId.toText, f.ts.toRfc3339, engineStr f.engine, f.agentPrompt.getD "", f.sql,
    kindStr f.kind, f.action, f.approvedBy.getD "",
    (f.affectedEstimate.map fun n => String.ofList (signed n)).getD "", f.error.getD ""]

/-- `canonical`. -/
def canonical (f : AuditFields) : String := String.ofList (fields f.texts)

/-- The bytes `compute_hash` feeds to SHA-256. -/
def hashInput (prevHash : Option String) (f : AuditFields) : List UInt8 :=
  utf8 (prevHash.getD "") ++ 0x1e :: utf8 (canonical f)

section

variable (sha256 : List UInt8 → Vector UInt8 32)

/-- `compute_hash`. -/
def computeHash (prevHash : Option String) (f : AuditFields) : String :=
  String.ofList (hex (sha256 (hashInput prevHash f)).toList)

/-- The loop of `verify_entries` from position `i` on. -/
def verifyFrom (i : ℕ) (expectedPrev : Option String) : List AuditEntry → Bool × Option ℕ
  | [] => (true, none)
  | e :: es =>
      if e.prevHash ≠ expectedPrev then (false, some i)
      else if computeHash sha256 e.prevHash e.toAuditFields ≠ e.hash then (false, some i)
      else verifyFrom (i + 1) (some e.hash) es

/-- `verify_entries`. -/
def verifyEntries (entries : List AuditEntry) : Bool × Option ℕ :=
  verifyFrom sha256 0 none entries

end

/-! ### What the hashed text determines -/

/-- The row with every absent text replaced by the empty one. -/
def AuditFields.filled (f : AuditFields) : AuditFields :=
  { f with
    agentPrompt := some (f.agentPrompt.getD "")
    approvedBy := some (f.approvedBy.getD "")
    error := some (f.error.getD "") }

theorem estimate_inj {a b : Option ℤ}
    (h : (a.map fun n => String.ofList (signed n)).getD "" =
      (b.map fun n => String.ofList (signed n)).getD "") : a = b := by
  have hne : ∀ n, String.ofList (signed n) ≠ "" := fun n h => by
    rw [← String.ofList_nil, String.ofList_inj] at h
    exact signed_ne_nil n h
  cases a with
  | none =>
    cases b with
    | none => rfl
    | some n => exact absurd h.symm (hne n)
  | some m =>
    cases b with
    | none => exact absurd h (hne m)
    | some n =>
      simp only [Option.map_some, Option.getD_some, String.ofList_inj] at h
      rw [signed_injective h]

/-- **The hashed text determines a row up to absent against empty.** -/
theorem canonical_eq_iff {f g : AuditFields} : canonical f = canonical g ↔ f.filled = g.filled := by
  constructor
  · intro h
    have htexts := fields_injective (String.ofList_inj.1 h)
    simp only [AuditFields.texts, List.cons.injEq] at htexts
    obtain ⟨h1, h2, h3, h4, h5, h6, h7, h8, h9, h10, -⟩ := htexts
    simp only [AuditFields.filled, AuditFields.mk.injEq, Option.some.injEq]
    exact ⟨Uuid.toText_injective h1, DateTime.toRfc3339_injective h2, engineStr_injective h3, h4,
      h5, kindStr_injective h6, h7, h8, estimate_inj h9, h10⟩
  · intro h
    have htexts : ∀ f : AuditFields, f.texts = f.filled.texts := fun f => rfl
    rw [canonical, canonical, htexts f, htexts g, h]

/-- What `prev_hash` holds in a chain: nothing, or a hash. -/
def IsLink (p : Option String) : Prop :=
  p = none ∨ ∃ bytes : Vector UInt8 32, p = some (String.ofList (hex bytes.toList))

theorem separator_not_mem {p : Option String} (h : IsLink p) : 0x1e ∉ utf8 (p.getD "") := by
  rcases h with rfl | ⟨bytes, rfl⟩
  · rw [Option.getD_none, utf8_eq_nil.2 rfl]
    exact List.not_mem_nil
  · have key : ∀ d : Fin 16, 0x1e ∉ String.utf8EncodeChar (Nat.digitChar d) := by decide
    intro hmem
    rw [Option.getD_some, utf8, String.toList_ofList, List.mem_flatMap] at hmem
    obtain ⟨c, hc, hbyte⟩ := hmem
    obtain ⟨d, hd, rfl⟩ := digitChar_mem_hex hc
    exact key ⟨d, hd⟩ hbyte

theorem IsLink.eq_of_getD {p q : Option String} (hp : IsLink p) (hq : IsLink q)
    (h : p.getD "" = q.getD "") : p = q := by
  have hne : ∀ bytes : Vector UInt8 32, String.ofList (hex bytes.toList) ≠ "" := fun bytes h => by
    rw [← String.ofList_nil, String.ofList_inj] at h
    have := congrArg List.length h
    simp at this
  rcases hp with rfl | ⟨a, rfl⟩ <;> rcases hq with rfl | ⟨b, rfl⟩
  · rfl
  · exact absurd h.symm (hne b)
  · exact absurd h (hne a)
  · exact congrArg some h

/-- **The hashed bytes determine the link and the row**, up to absent against empty. -/
theorem hashInput_eq_iff {p q : Option String} {f g : AuditFields} (hp : IsLink p)
    (hq : IsLink q) : hashInput p f = hashInput q g ↔ p = q ∧ f.filled = g.filled := by
  constructor
  · intro h
    obtain ⟨hprev, hrow⟩ := append_cons_inj_of_not_mem (separator_not_mem hp)
      (separator_not_mem hq) h
    exact ⟨hp.eq_of_getD hq (utf8_injective hprev), canonical_eq_iff.1 (utf8_injective hrow)⟩
  · rintro ⟨rfl, hrow⟩
    rw [hashInput, hashInput, canonical_eq_iff.2 hrow]

/-! ### Verified chains -/

variable {sha256 : List UInt8 → Vector UInt8 32} {xs ys es pre post : List AuditEntry}
  {e e' : AuditEntry} {p q : Option String} {f g : AuditFields}

/-- No two of the rows' hashed bytes collide. -/
def CollisionFree (sha256 : List UInt8 → Vector UInt8 32) (es : List AuditEntry) : Prop :=
  Set.InjOn sha256 {bytes | ∃ e ∈ es, bytes = hashInput e.prevHash e.toAuditFields}

theorem isLink_computeHash (p : Option String) (f : AuditFields) :
    IsLink (some (computeHash sha256 p f)) := .inr ⟨_, rfl⟩

theorem computeHash_eq_iff (hp : IsLink p) (hq : IsLink q)
    (hsha : sha256 (hashInput p f) = sha256 (hashInput q g) → hashInput p f = hashInput q g) :
    computeHash sha256 p f = computeHash sha256 q g ↔ p = q ∧ f.filled = g.filled := by
  rw [← hashInput_eq_iff hp hq]
  constructor
  · intro h
    exact hsha (Vector.toList_inj.1 (hex_injective (String.ofList_inj.1 h)))
  · intro h
    rw [computeHash, computeHash, h]

/-- What `verify_entries` accepts: a linked list of rows that store their own hash. -/
theorem verifyFrom_eq_true (i : ℕ) (p : Option String) :
    verifyFrom sha256 i p es = (true, none) ↔
      HashChain.Linked (·.prevHash) (·.hash) p es ∧
        ∀ e ∈ es, computeHash sha256 e.prevHash e.toAuditFields = e.hash := by
  induction es generalizing i p with
  | nil => simp [verifyFrom]
  | cons e es ih =>
    rw [verifyFrom, HashChain.linked_cons, List.forall_mem_cons]
    by_cases hprev : e.prevHash = p
    · by_cases hhash : computeHash sha256 e.prevHash e.toAuditFields = e.hash
      · rw [if_neg (not_not.2 hprev), if_neg (not_not.2 hhash), ih]
        exact ⟨fun h => ⟨⟨hprev, h.1⟩, hhash, h.2⟩, fun h => ⟨h.1.2, h.2.2⟩⟩
      · rw [if_neg (not_not.2 hprev), if_pos hhash]
        exact iff_of_false (by simp) fun h => hhash h.2.1
    · rw [if_pos hprev]
      exact iff_of_false (by simp) fun h => hprev h.1.1

/-- The links of a verified chain are hashes. -/
theorem isLink_of_verified {i : ℕ} (hp : IsLink p) (h : verifyFrom sha256 i p es = (true, none)) :
    ∀ e ∈ es, IsLink e.prevHash := by
  induction es generalizing i p with
  | nil => exact fun e he => (List.not_mem_nil he).elim
  | cons e es ih =>
    obtain ⟨hlinked, hhashed⟩ := (verifyFrom_eq_true i p).1 h
    rw [HashChain.linked_cons] at hlinked
    rw [List.forall_mem_cons] at hhashed ⊢
    refine ⟨hlinked.1 ▸ hp, ih (i := i + 1) (p := some e.hash) ?_
      ((verifyFrom_eq_true _ _).2 ⟨hlinked.2, hhashed.2⟩)⟩
    rw [← hhashed.1]
    exact isLink_computeHash _ _

/-- A verified prefix passes the check on to the rest. -/
theorem verifyFrom_append {i : ℕ} (h : verifyFrom sha256 i p pre = (true, none)) :
    verifyFrom sha256 i p (pre ++ post) =
      verifyFrom sha256 (i + pre.length) (HashChain.tip (·.hash) p pre) post := by
  induction pre generalizing i p with
  | nil => rfl
  | cons e pre ih =>
    obtain ⟨hlinked, hhashed⟩ := (verifyFrom_eq_true i p).1 h
    rw [HashChain.linked_cons] at hlinked
    rw [List.forall_mem_cons] at hhashed
    rw [List.cons_append, verifyFrom, if_neg (not_not.2 hlinked.1), if_neg (not_not.2 hhashed.1),
      ih ((verifyFrom_eq_true _ _).2 ⟨hlinked.2, hhashed.2⟩), List.length_cons,
      HashChain.tip_cons]
    congr 1
    omega

/-- **Two verified chains with the same last hash** hold the same rows, up to absent against
empty. -/
theorem forall₂_of_verified (hfree : CollisionFree sha256 (xs ++ ys))
    (hx : verifyEntries sha256 xs = (true, none)) (hy : verifyEntries sha256 ys = (true, none))
    (hlast : xs.getLast?.map (·.hash) = ys.getLast?.map (·.hash)) :
    List.Forall₂ (fun a b : AuditEntry => a.prevHash = b.prevHash ∧
      a.toAuditFields.filled = b.toAuditFields.filled) xs ys := by
  have hlinkx := isLink_of_verified (.inl rfl) hx
  have hlinky := isLink_of_verified (.inl rfl) hy
  obtain ⟨hx, hhashx⟩ := (verifyFrom_eq_true 0 none).1 hx
  obtain ⟨hy, hhashy⟩ := (verifyFrom_eq_true 0 none).1 hy
  refine HashChain.forall₂_of_tip_eq hx hy (fun a ha b hb hab => ?_) (fun a _ b _ hab => hab.1) ?_
  · rw [← hhashx a ha, ← hhashy b hb] at hab
    refine (computeHash_eq_iff (hlinkx a ha) (hlinky b hb) fun hsha => ?_).1 hab
    exact hfree ⟨a, List.mem_append_left _ ha, rfl⟩ ⟨b, List.mem_append_right _ hb, rfl⟩ hsha
  · rw [HashChain.tip_none_eq_getLast?, HashChain.tip_none_eq_getLast?, hlast]

/-! ### Absent against empty -/

/-- One text is absent, the other empty. -/
def AbsentAgainstEmpty (a b : Option String) : Prop :=
  a = none ∧ b = some "" ∨ a = some "" ∧ b = none

/-- One of the three optional texts is absent in one row and empty in the other. -/
def Clash (f g : AuditFields) : Prop :=
  AbsentAgainstEmpty f.agentPrompt g.agentPrompt ∨ AbsentAgainstEmpty f.approvedBy g.approvedBy ∨
    AbsentAgainstEmpty f.error g.error

theorem eq_iff_not_absentAgainstEmpty {a b : Option String} (h : a.getD "" = b.getD "") :
    a = b ↔ ¬ AbsentAgainstEmpty a b := by
  unfold AbsentAgainstEmpty
  cases a <;> cases b <;> simp_all [eq_comm]

theorem eq_iff_not_clash (h : f.filled = g.filled) : f = g ↔ ¬ Clash f g := by
  simp only [AuditFields.filled, AuditFields.mk.injEq, Option.some.injEq] at h
  obtain ⟨h1, h2, h3, hprompt, h5, h6, h7, happroved, h9, herror⟩ := h
  have hparts : f = g ↔ f.agentPrompt = g.agentPrompt ∧ f.approvedBy = g.approvedBy ∧
      f.error = g.error := by
    cases f
    cases g
    simp_all
  rw [hparts, eq_iff_not_absentAgainstEmpty hprompt, eq_iff_not_absentAgainstEmpty happroved,
    eq_iff_not_absentAgainstEmpty herror, Clash, not_or, not_or]

/-- A row with the given statement and approver. -/
def sampleFields (sql : String) (approvedBy : Option String) : AuditFields where
  connectionId := .ofByte 0
  ts := .ofDay 1
  engine := .postgres
  agentPrompt := some "count users"
  sql
  kind := .read
  action := "execute"
  approvedBy
  affectedEstimate := some 0
  error := none

/-- The first row of a chain, under the hash of the row without an approver. -/
def sampleEntry (sql : String) (approvedBy : Option String) : AuditEntry where
  toAuditFields := sampleFields sql approvedBy
  id := .ofByte 1
  prevHash := none
  hash := computeHash Sha256.sha256 none (sampleFields "SELECT count(*) FROM users" none)

theorem verifyEntries_sampleEntry (approvedBy : Option String) (h : approvedBy.getD "" = "") :
    verifyEntries Sha256.sha256 [sampleEntry "SELECT count(*) FROM users" approvedBy] =
      (true, none) := by
  have hcanonical : canonical (sampleFields "SELECT count(*) FROM users" approvedBy) =
      canonical (sampleFields "SELECT count(*) FROM users" none) := by
    refine canonical_eq_iff.2 ?_
    simp [AuditFields.filled, sampleFields, h]
  refine (verifyFrom_eq_true 0 none).2 ⟨⟨rfl, trivial⟩, fun e he => ?_⟩
  obtain rfl := List.mem_singleton.1 he
  rw [computeHash, sampleEntry, hashInput, hcanonical]
  rfl

end Audit
end AgentDb
