import AgentDb.Lib.Json
import Mathlib.Data.String.Basic

/-!
# JSON values up to the order of keys

What a JSON value says, without the order in which the keys of its objects stand: an array is a
list, an object a partial function on keys. Two values are equal as JSON values when their
extensions are. On values whose keys are in ascending order this is equality as documents.
-/

namespace Json

/-- A JSON value as what can be asked of it. -/
inductive Extension
  | null
  | bool (b : Bool)
  | number (n : Number)
  | string (s : String)
  | array (items : List Extension)
  | object (entry : String → Option Extension)

/-- The two zeros are one number. -/
def Number.unsigned : Number → Number
  | .int n => .int n
  | .float text => .float (if text = "-0.0" then "0.0" else text)

namespace Value

mutual

/-- What a value says. -/
def extension : Value → Extension
  | .null => .null
  | .bool b => .bool b
  | .number n => .number n.unsigned
  | .string s => .string s
  | .array items => .array (extensionItems items)
  | .object entries => .object (extensionEntries entries)

def extensionItems : List Value → List Extension
  | [] => []
  | v :: vs => extension v :: extensionItems vs

def extensionEntries : List (String × Value) → String → Option Extension
  | [] => fun _ => none
  | (k, v) :: es => fun l => if l = k then some (extension v) else extensionEntries es l

end

variable {items : List Value} {entries es fs : List (String × Value)} {u v w : Value} {k : String}

theorem extensionItems_eq_map (items : List Value) :
    extensionItems items = items.map extension := by
  induction items with
  | nil => rfl
  | cons v vs ih => rw [extensionItems, ih, List.map_cons]

theorem extensionEntries_cons (e : String × Value) (es : List (String × Value)) (k : String) :
    extensionEntries (e :: es) k =
      if k = e.1 then some (extension e.2) else extensionEntries es k :=
  rfl

theorem extensionEntries_eq (entries : List (String × Value)) (k : String) :
    extensionEntries entries k = (entries.lookup k).map extension := by
  induction entries with
  | nil => rfl
  | cons e es ih =>
    obtain ⟨l, v⟩ := e
    rw [extensionEntries_cons, List.lookup_cons]
    by_cases hk : k = l
    · rw [if_pos hk, hk, beq_self_eq_true]
      rfl
    · rw [if_neg hk, ih, beq_false_of_ne hk]

theorem extensionEntries_eq_none (h : ∀ e ∈ entries, e.1 ≠ k) :
    extensionEntries entries k = none := by
  induction entries with
  | nil => rfl
  | cons e es ih =>
    rw [List.forall_mem_cons] at h
    rw [extensionEntries_cons, if_neg h.1.symm, ih h.2]

theorem exists_of_extensionEntries (h : extensionEntries entries k ≠ none) :
    ∃ e ∈ entries, e.1 = k := by
  by_contra hno
  push Not at hno
  exact h (extensionEntries_eq_none hno)

/-- The keys of every object at every depth are in ascending order, each of them once. -/
inductive Ordered : Value → Prop
  | null : Ordered .null
  | bool (b : Bool) : Ordered (.bool b)
  | number (n : Number) : Ordered (.number n)
  | string (s : String) : Ordered (.string s)
  | array {items : List Value} (hitems : ∀ v ∈ items, Ordered v) : Ordered (.array items)
  | object {entries : List (String × Value)} (hkeys : entries.Pairwise fun a b => a.1 < b.1)
      (hentries : ∀ e ∈ entries, Ordered e.2) : Ordered (.object entries)

/-! ### Ordered values are determined by their extension -/

theorem beq_number {m n : Number} :
    beq (.number m) (.number n) = true ↔ m.unsigned = n.unsigned := by
  cases m with
  | int m => cases n <;> simp [beq, Number.unsigned]
  | float s =>
    cases n with
    | int n => simp [beq, Number.unsigned]
    | float t =>
      simp only [beq, Number.unsigned, Bool.or_eq_true, beq_iff_eq, Bool.and_eq_true,
        decide_eq_true_eq, List.mem_cons, List.not_mem_nil, or_false, Number.float.injEq]
      constructor
      · rintro (rfl | ⟨rfl | rfl, rfl | rfl⟩) <;> simp
      · by_cases hs : s = "-0.0" <;> by_cases ht : t = "-0.0"
        · exact fun _ => .inl (hs.trans ht.symm)
        · rw [if_pos hs, if_neg ht]
          exact fun h => .inr ⟨.inr hs, .inl h.symm⟩
        · rw [if_neg hs, if_pos ht]
          exact fun h => .inr ⟨.inl h, .inr ht⟩
        · rw [if_neg hs, if_neg ht]
          exact .inl

theorem beqItems_iff {others : List Value}
    (h : ∀ v ∈ items, ∀ w ∈ others, beq v w = true ↔ v.extension = w.extension) :
    beqItems items others = true ↔ extensionItems items = extensionItems others := by
  induction items generalizing others with
  | nil => cases others <;> simp [beqItems, extensionItems]
  | cons v vs ih =>
    cases others with
    | nil => simp [beqItems, extensionItems]
    | cons w ws =>
      rw [beqItems, Bool.and_eq_true, h v List.mem_cons_self w List.mem_cons_self,
        ih fun a ha b hb => h a (List.mem_cons_of_mem _ ha) b (List.mem_cons_of_mem _ hb),
        extensionItems, extensionItems, List.cons.injEq]

/-- Two entry lists in ascending order with one extension have the same first key. -/
theorem head_key_eq {e f : String × Value} (he : (e :: es).Pairwise fun a b => a.1 < b.1)
    (hf : (f :: fs).Pairwise fun a b => a.1 < b.1)
    (h : extensionEntries (e :: es) = extensionEntries (f :: fs)) : e.1 = f.1 := by
  -- each first key is among the keys of the other list, so neither is the smaller one
  have hfirst : ∀ {a b : String × Value} {as bs : List (String × Value)},
      (b :: bs).Pairwise (fun a b => a.1 < b.1) →
      extensionEntries (a :: as) = extensionEntries (b :: bs) → ¬ a.1 < b.1 := by
    intro a b as bs hb hab hlt
    have hsome : extensionEntries (b :: bs) a.1 ≠ none := by
      rw [← hab, extensionEntries_cons, if_pos rfl]
      exact Option.some_ne_none _
    obtain ⟨c, hc, hkey⟩ := exists_of_extensionEntries hsome
    rcases List.mem_cons.1 hc with rfl | hc
    · exact absurd (hkey ▸ hlt) (lt_irrefl _)
    · exact lt_asymm hlt (hkey ▸ List.rel_of_pairwise_cons hb hc)
  exact le_antisymm (not_lt.1 (hfirst he h.symm)) (not_lt.1 (hfirst hf h))

theorem extensionEntries_tail {e f : String × Value}
    (he : (e :: es).Pairwise fun a b => a.1 < b.1) (hf : (f :: fs).Pairwise fun a b => a.1 < b.1)
    (hkey : e.1 = f.1) (h : extensionEntries (e :: es) = extensionEntries (f :: fs)) :
    extensionEntries es = extensionEntries fs := by
  funext k
  by_cases hk : k = e.1
  · subst hk
    rw [extensionEntries_eq_none, extensionEntries_eq_none]
    · exact fun a ha => hkey ▸ (List.rel_of_pairwise_cons hf ha).ne'
    · exact fun a ha => (List.rel_of_pairwise_cons he ha).ne'
  · have hcongr := congrFun h k
    rwa [extensionEntries_cons, if_neg hk, extensionEntries_cons, if_neg (hkey ▸ hk)] at hcongr

theorem beqEntries_iff (hes : es.Pairwise fun a b => a.1 < b.1)
    (hfs : fs.Pairwise fun a b => a.1 < b.1)
    (h : ∀ e ∈ es, ∀ f ∈ fs, beq e.2 f.2 = true ↔ e.2.extension = f.2.extension) :
    beqEntries es fs = true ↔ extensionEntries es = extensionEntries fs := by
  induction es generalizing fs with
  | nil =>
    cases fs with
    | nil => exact iff_of_true rfl rfl
    | cons f fs =>
      refine iff_of_false Bool.false_ne_true fun heq => ?_
      have hnone := congrFun heq f.1
      rw [extensionEntries_cons, if_pos rfl] at hnone
      cases hnone
  | cons e es ih =>
    cases fs with
    | nil =>
      refine iff_of_false Bool.false_ne_true fun heq => ?_
      have hnone := congrFun heq e.1
      rw [extensionEntries_cons, if_pos rfl] at hnone
      cases hnone
    | cons f fs =>
      have htail := ih (List.Pairwise.of_cons hes) (List.Pairwise.of_cons hfs)
        fun a ha b hb => h a (List.mem_cons_of_mem _ ha) b (List.mem_cons_of_mem _ hb)
      have hhead := h e List.mem_cons_self f List.mem_cons_self
      rw [show beqEntries (e :: es) (f :: fs) =
        (e.1 == f.1 && beq e.2 f.2 && beqEntries es fs) from rfl, Bool.and_eq_true,
        Bool.and_eq_true, beq_iff_eq, hhead, htail]
      constructor
      · rintro ⟨⟨hkey, hvalue⟩, hrest⟩
        funext k
        rw [extensionEntries_cons, extensionEntries_cons, hkey, hvalue, hrest]
      · intro heq
        have hkey := head_key_eq hes hfs heq
        refine ⟨⟨hkey, ?_⟩, extensionEntries_tail hes hfs hkey heq⟩
        have hvalue := congrFun heq e.1
        rw [extensionEntries_cons, if_pos rfl, extensionEntries_cons, if_pos hkey] at hvalue
        exact Option.some.inj hvalue

/-- **Equality as JSON values.** Two ordered values are equal as documents, up to the sign of a
zero, exactly when they say the same. -/
theorem beq_iff_extension_eq (hu : u.Ordered) (hv : v.Ordered) :
    u.beq v = true ↔ u.extension = v.extension := by
  induction u using Value.ind generalizing v with
  | null => cases v <;> simp [beq, extension]
  | bool b => cases v <;> simp [beq, extension]
  | number n =>
    cases v with
    | number m => rw [beq_number, extension, extension, Extension.number.injEq]
    | _ => exact iff_of_false (by cases n <;> exact Bool.false_ne_true) nofun
  | string s => cases v <;> simp [beq, extension]
  | array items ih =>
    cases v with
    | array others =>
      rw [beq, extension, extension, Extension.array.injEq]
      cases hu with
      | array hitems =>
        cases hv with
        | array hothers => exact beqItems_iff fun a ha b hb => ih a ha (hitems a ha) (hothers b hb)
    | _ => simp [beq, extension]
  | object entries ih =>
    cases v with
    | object others =>
      rw [beq, extension, extension, Extension.object.injEq]
      cases hu with
      | object hkeys hentries =>
        cases hv with
        | object hkeys' hothers =>
          exact beqEntries_iff hkeys hkeys' fun e he f hf =>
            ih e he (hentries e he) (hothers f hf)
    | _ => simp [beq, extension]

/-- Values without floating-point numbers are equal as documents only if they are the same. -/
theorem beq_iff_eq_of_noFloat (hu : u.NoFloat) : u.beq v = true ↔ u = v := by
  induction u using Value.ind generalizing v with
  | null => cases v <;> simp [beq]
  | bool b => cases v <;> simp [beq]
  | number n =>
    cases hu with
    | int n =>
      cases v with
      | number m => cases m <;> simp [beq]
      | _ => simp [beq]
  | string s => cases v <;> simp [beq]
  | array items ih =>
    cases v with
    | array others =>
      rw [noFloat_array] at hu
      rw [beq, array.injEq]
      induction items generalizing others with
      | nil => cases others <;> simp [beqItems]
      | cons a as ih' =>
        cases others with
        | nil => simp [beqItems]
        | cons b bs =>
          rw [List.forall_mem_cons] at hu
          rw [beqItems, Bool.and_eq_true, ih a List.mem_cons_self hu.1,
            ih' (fun w hw => ih w (List.mem_cons_of_mem _ hw)) hu.2, List.cons.injEq]
    | _ => simp [beq]
  | object entries ih =>
    cases v with
    | object others =>
      rw [noFloat_object] at hu
      rw [beq, object.injEq]
      induction entries generalizing others with
      | nil => cases others <;> simp [beqEntries]
      | cons e es ih' =>
        cases others with
        | nil => simp [beqEntries]
        | cons f fs =>
          rw [List.forall_mem_cons] at hu
          rw [show beqEntries (e :: es) (f :: fs) =
            (e.1 == f.1 && beq e.2 f.2 && beqEntries es fs) from rfl, Bool.and_eq_true,
            Bool.and_eq_true, beq_iff_eq, ih e List.mem_cons_self hu.1,
            ih' (fun w hw => ih w (List.mem_cons_of_mem _ hw)) hu.2, List.cons.injEq,
            Prod.ext_iff]
    | _ => simp [beq]

end Value

end Json
