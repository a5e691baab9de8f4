import Mathlib.Tactic

/-!
# Lexers as token lengths

A lexer says how many characters the token at the head of a text takes. A text is read token by
token; `positions` lists the places where tokens start, each as the text from there on. `segments`
cuts the tokens at those that start with a separator.

Two lexers cut a text into the same pieces when the one steps over every token of the other
without meeting a separator: `texts_eq_of_stepsOver`.
-/

namespace Lexing

/-! ### Letters and digits -/

theorem isAlpha_iff {c : Char} :
    c.isAlpha = true ↔ (65 ≤ c.toNat ∧ c.toNat ≤ 90) ∨ (97 ≤ c.toNat ∧ c.toNat ≤ 122) := by
  have halpha : c.isAlpha = (c.isUpper || c.isLower) := rfl
  have hupper : c.isUpper = decide (c.val ≥ 'A'.val ∧ c.val ≤ 'Z'.val) := rfl
  have hlower : c.isLower = (decide (c.val ≥ 'a'.val) && decide (c.val ≤ 'z'.val)) := rfl
  rw [halpha, hupper, hlower]
  simp only [Bool.or_eq_true, Bool.and_eq_true, decide_eq_true_eq, ge_iff_le,
    UInt32.le_iff_toNat_le]
  rfl

theorem isDigit_iff {c : Char} : c.isDigit = true ↔ 48 ≤ c.toNat ∧ c.toNat ≤ 57 := by
  have hdigit : c.isDigit = (decide (c.val ≥ '0'.val) && decide (c.val ≤ '9'.val)) := rfl
  rw [hdigit]
  simp only [Bool.and_eq_true, decide_eq_true_eq, ge_iff_le, UInt32.le_iff_toNat_le]
  rfl

/-! ### Tokens -/

/-- How many characters the first token takes: at least one. -/
structure Lexer (α : Type*) where
  len : List α → ℕ
  len_pos : ∀ a l, 0 < len (a :: l)

namespace Lexer

variable {α : Type*} (L : Lexer α)

def positionsFuel : ℕ → List α → List (List α)
  | 0, _ => []
  | _ + 1, [] => []
  | n + 1, a :: l => (a :: l) :: positionsFuel n ((a :: l).drop (L.len (a :: l)))

/-- The text from each token on. -/
def positions (l : List α) : List (List α) := L.positionsFuel l.length l

theorem length_drop_len_lt (a : α) (l : List α) :
    ((a :: l).drop (L.len (a :: l))).length < (a :: l).length := by
  have hpos := L.len_pos a l
  rw [List.length_drop, List.length_cons]
  omega

theorem positionsFuel_of_length_le {m n : ℕ} {l : List α} (hm : l.length ≤ m)
    (hn : l.length ≤ n) : L.positionsFuel m l = L.positionsFuel n l := by
  induction m generalizing n l with
  | zero =>
    obtain rfl : l = [] := List.eq_nil_of_length_eq_zero (by omega)
    cases n <;> rfl
  | succ m ih =>
    cases l with
    | nil => cases n <;> rfl
    | cons a l =>
      have hlt := L.length_drop_len_lt a l
      cases n with
      | zero => cases hn
      | succ n =>
        rw [positionsFuel, positionsFuel]
        exact congrArg _ (ih (by omega) (by omega))

@[simp] theorem positions_nil : L.positions [] = [] := rfl

theorem positions_cons (a : α) (l : List α) :
    L.positions (a :: l) = (a :: l) :: L.positions ((a :: l).drop (L.len (a :: l))) := by
  have hlt := L.length_drop_len_lt a l
  rw [List.length_cons] at hlt
  refine congrArg (List.cons (a :: l)) ?_
  exact L.positionsFuel_of_length_le (by omega) le_rfl

/-- Induction token by token. -/
theorem ind {motive : List α → Prop} (nil : motive [])
    (token : ∀ a l, motive ((a :: l).drop (L.len (a :: l))) → motive (a :: l)) :
    ∀ l, motive l := by
  intro l
  induction hn : l.length using Nat.strong_induction_on generalizing l with
  | _ n ih =>
    cases l with
    | nil => exact nil
    | cons a l => exact token a l (ih _ (hn ▸ L.length_drop_len_lt a l) _ rfl)

/-- The characters of some tokens. -/
def text (tokens : List (List α)) : List α := tokens.flatMap fun s => s.take (L.len s)

@[simp] theorem text_nil : L.text [] = [] := rfl

@[simp] theorem text_cons (s : List α) (tokens : List (List α)) :
    L.text (s :: tokens) = s.take (L.len s) ++ L.text tokens := rfl

/-- No character is lost. -/
theorem text_positions (l : List α) : L.text (L.positions l) = l := by
  induction l using L.ind with
  | nil => rfl
  | token a l ih => rw [positions_cons, text_cons, ih, List.take_append_drop]

/-- The lexer goes over the next characters of the text and meets no separator. -/
inductive StepsOver (sep : α) : ℕ → List α → Prop
  | zero (l : List α) : StepsOver sep 0 l
  | step {a : α} {l : List α} {n : ℕ} (ha : a ≠ sep)
      (h : StepsOver sep n ((a :: l).drop (L.len (a :: l)))) :
      StepsOver sep (L.len (a :: l) + n) (a :: l)

variable {L} {sep : α}

theorem StepsOver.one {a : α} {l : List α} (ha : a ≠ sep) :
    StepsOver L sep (L.len (a :: l)) (a :: l) :=
  .step ha (.zero _)

theorem StepsOver.trans {m n : ℕ} {l : List α} (h₁ : StepsOver L sep m l)
    (h₂ : StepsOver L sep n (l.drop m)) : StepsOver L sep (m + n) l := by
  induction h₁ with
  | zero l => rwa [Nat.zero_add]
  | step ha _ ih =>
    rw [← List.drop_drop] at h₂
    rw [Nat.add_assoc]
    exact .step ha (ih h₂)

variable (L) [DecidableEq α] (sep)

/-- The tokens between those that start with the separator. -/
def segments (l : List α) : List (List (List α)) :=
  (L.positions l).splitOnP fun s => s.head? = some sep

/-- The pieces the separators cut a text into. -/
def texts (l : List α) : List (List α) := (L.segments sep l).map L.text

variable {L sep}

theorem segments_cons_sep {l : List α} (hsep : L.len (sep :: l) = 1) :
    L.segments sep (sep :: l) = [] :: L.segments sep l := by
  rw [segments, positions_cons, List.splitOnP_cons_eq_if_modifyHead, if_pos (by simp), hsep]
  rfl

theorem segments_cons {a : α} {l : List α} (ha : a ≠ sep) :
    L.segments sep (a :: l) =
      (L.segments sep ((a :: l).drop (L.len (a :: l)))).modifyHead ((a :: l) :: ·) := by
  rw [segments, positions_cons, List.splitOnP_cons_eq_if_modifyHead, if_neg (by simpa using ha)]
  rfl

theorem texts_cons_sep {l : List α} (hsep : L.len (sep :: l) = 1) :
    L.texts sep (sep :: l) = [] :: L.texts sep l := by
  rw [texts, segments_cons_sep hsep]
  rfl

theorem texts_cons {a : α} {l : List α} (ha : a ≠ sep) :
    L.texts sep (a :: l) = (L.texts sep ((a :: l).drop (L.len (a :: l)))).modifyHead
      ((a :: l).take (L.len (a :: l)) ++ ·) := by
  rw [texts, segments_cons ha, texts]
  cases L.segments sep ((a :: l).drop (L.len (a :: l))) <;> rfl

theorem StepsOver.texts_eq {n : ℕ} {l : List α} (h : StepsOver L sep n l) :
    L.texts sep l = (L.texts sep (l.drop n)).modifyHead (l.take n ++ ·) := by
  induction h with
  | zero l =>
    simp only [List.drop_zero, List.take_zero, List.nil_append]
    cases L.texts sep l <;> rfl
  | @step a l n ha _ ih =>
    rw [texts_cons ha, ih, List.drop_drop, List.take_add, List.modifyHead_modifyHead]
    congr 1
    funext piece
    rw [Function.comp_apply, List.append_assoc]

/-- Consecutive tokens, from one place of the text to another. -/
inductive Run (L : Lexer α) : List (List α) → List α → List α → Prop
  | nil (l : List α) : Run L [] l l
  | cons {a : α} {l r : List α} {tokens : List (List α)}
      (h : Run L tokens ((a :: l).drop (L.len (a :: l))) r) :
      Run L ((a :: l) :: tokens) (a :: l) r

omit [DecidableEq α] in
theorem Run.text_append {l r : List α} {tokens : List (List α)} (h : Run L tokens l r) :
    L.text tokens ++ r = l := by
  induction h with
  | nil l => rfl
  | cons _ ih => rw [text_cons, List.append_assoc, ih, List.take_append_drop]

/-- The first segment is a run from the start of the text, every other one a run from some place
of it, and no token of any starts with a separator. -/
theorem segments_spec (hsep : ∀ l, L.len (sep :: l) = 1) (l : List α) : ∃ first others,
    L.segments sep l = first :: others ∧ (∃ r, Run L first l r) ∧
      (∀ seg ∈ others, ∃ m r, Run L seg m r) ∧
      ∀ seg ∈ first :: others, ∀ s ∈ seg, s ∈ L.positions l ∧ s.head? ≠ some sep := by
  induction l using L.ind with
  | nil => exact ⟨[], [], by simp [segments], ⟨[], .nil _⟩, by simp, by simp⟩
  | token a l ih =>
    obtain ⟨first, others, hsegs, ⟨r, hrun⟩, hruns, hmem⟩ := ih
    by_cases ha : a = sep
    · subst ha
      rw [hsep] at hsegs hrun hmem
      refine ⟨[], first :: others, by rw [segments_cons_sep (hsep l)]; exact congrArg _ hsegs,
        ⟨_, .nil _⟩, ?_, ?_⟩
      · intro seg hseg
        rcases List.mem_cons.1 hseg with rfl | hseg
        · exact ⟨_, r, hrun⟩
        · exact hruns seg hseg
      · intro seg hseg s hs
        rcases List.mem_cons.1 hseg with rfl | hseg
        · cases hs
        · rw [positions_cons, hsep]
          exact ⟨List.mem_cons_of_mem _ (hmem seg hseg s hs).1, (hmem seg hseg s hs).2⟩
    · refine ⟨(a :: l) :: first, others, by rw [segments_cons ha, hsegs, List.modifyHead_cons],
        ⟨r, .cons hrun⟩, hruns, ?_⟩
      have hlater : ∀ seg ∈ first :: others, ∀ s ∈ seg,
          s ∈ L.positions (a :: l) ∧ s.head? ≠ some sep := fun seg hseg s hs => by
        rw [positions_cons]
        exact ⟨List.mem_cons_of_mem _ (hmem seg hseg s hs).1, (hmem seg hseg s hs).2⟩
      intro seg hseg s hs
      rcases List.mem_cons.1 hseg with rfl | hseg
      · rcases List.mem_cons.1 hs with rfl | hs
        · rw [positions_cons]
          exact ⟨List.mem_cons_self, by simpa using ha⟩
        · exact hlater first List.mem_cons_self s hs
      · exact hlater seg (List.mem_cons_of_mem _ hseg) s hs

theorem run_of_mem_segments (hsep : ∀ l, L.len (sep :: l) = 1) {l : List α}
    {seg : List (List α)} (h : seg ∈ L.segments sep l) :
    (∃ m r, Run L seg m r) ∧ ∀ s ∈ seg, s ∈ L.positions l ∧ s.head? ≠ some sep := by
  obtain ⟨first, others, hsegs, ⟨r, hrun⟩, hruns, hmem⟩ := segments_spec hsep l
  rw [hsegs] at h
  refine ⟨?_, hmem seg h⟩
  rcases List.mem_cons.1 h with rfl | h
  · exact ⟨l, r, hrun⟩
  · exact hruns seg h

/-- **Equal cuts.** Stepping over each token of a text gives the same pieces. -/
theorem texts_eq_of_stepsOver {A B : Lexer α} (hA : ∀ l, A.len (sep :: l) = 1)
    (hB : ∀ l, B.len (sep :: l) = 1) {l : List α}
    (h : ∀ s ∈ B.positions l, s.head? ≠ some sep → StepsOver A sep (B.len s) s) :
    A.texts sep l = B.texts sep l := by
  induction l using B.ind with
  | nil => rfl
  | token a l ih =>
    rw [positions_cons] at h
    have hrest := ih fun s hs => h s (List.mem_cons_of_mem _ hs)
    by_cases ha : a = sep
    · subst ha
      rw [hB] at hrest
      rw [texts_cons_sep (hA l), texts_cons_sep (hB l)]
      exact congrArg _ hrest
    · have hsteps := h _ List.mem_cons_self (by simpa using ha)
      rw [hsteps.texts_eq, hrest, texts_cons ha]

/-! ### Where tokens start -/

omit [DecidableEq α]

theorem suffix_of_mem_positions {s l : List α} (h : s ∈ L.positions l) : s <:+ l := by
  induction l using L.ind with
  | nil => cases h
  | token a l ih =>
    rw [positions_cons] at h
    rcases List.mem_cons.1 h with rfl | h
    · exact List.suffix_rfl
    · exact (ih h).trans (List.drop_suffix _ _)

theorem positions_subset {s l : List α} (h : s ∈ L.positions l) :
    L.positions s ⊆ L.positions l := by
  induction l using L.ind with
  | nil => cases h
  | token a l ih =>
    rw [positions_cons] at h
    rcases List.mem_cons.1 h with rfl | h
    · exact fun _ h => h
    · rw [positions_cons]
      exact fun t ht => List.mem_cons_of_mem _ (ih h ht)

/-- Every character is in a token. -/
theorem exists_token {c : α} {t l : List α} (h : c :: t <:+ l) :
    ∃ s ∈ L.positions l, ∃ n < L.len s, s.drop n = c :: t := by
  induction l using L.ind with
  | nil => cases List.suffix_nil.1 h
  | token a l ih =>
    obtain ⟨u, hu⟩ := h
    by_cases hn : u.length < L.len (a :: l)
    · refine ⟨a :: l, ?_, u.length, hn, by rw [← hu, List.drop_left]⟩
      rw [positions_cons]
      exact List.mem_cons_self
    · have hrest : c :: t <:+ (a :: l).drop (L.len (a :: l)) := by
        refine ⟨u.drop (L.len (a :: l)), ?_⟩
        rw [← List.drop_append_of_le_length (by omega), hu]
      obtain ⟨s, hs, n, hlt, hdrop⟩ := ih hrest
      rw [positions_cons]
      exact ⟨s, List.mem_cons_of_mem _ hs, n, hlt, hdrop⟩

/-- No token starts inside another one. -/
theorem eq_of_mem_positions {s t l : List α} {n : ℕ} (hs : s ∈ L.positions l)
    (ht : t ∈ L.positions l) (hne : t ≠ []) (hdrop : s.drop n = t) (hn : n < L.len s) :
    s = t := by
  have htpos := List.length_pos_of_ne_nil hne
  have hlength := congrArg List.length hdrop
  rw [List.length_drop] at hlength
  induction l using L.ind with
  | nil => cases hs
  | token a l ih =>
    have hlt := L.length_drop_len_lt a l
    rw [positions_cons] at hs ht
    rcases List.mem_cons.1 hs with rfl | hs <;> rcases List.mem_cons.1 ht with rfl | ht
    · rfl
    · have hle := (suffix_of_mem_positions ht).length_le
      rw [List.length_drop] at hle
      omega
    · have hle := (suffix_of_mem_positions hs).length_le
      omega
    · exact ih hs ht

theorem Run.positions_eq {l r : List α} {tokens : List (List α)} (h : Run L tokens l r) :
    L.positions l = tokens ++ L.positions r := by
  induction h with
  | nil => rfl
  | cons _ ih => rw [positions_cons, ih, List.cons_append]

/-- Each token of a run starts in front of where the run ends. -/
theorem Run.length_lt {l r s : List α} {tokens : List (List α)} (h : Run L tokens l r)
    (hs : s ∈ tokens) : r.length < s.length := by
  induction h with
  | nil => cases hs
  | @cons a l r tokens h ih =>
    rcases List.mem_cons.1 hs with rfl | hs
    · have hrest := congrArg List.length h.text_append
      have hlt := L.length_drop_len_lt a l
      rw [List.length_append] at hrest
      omega
    · exact ih hs

/-- Two lexers that read the tokens of a run alike go along it alike. -/
theorem Run.congr {M : Lexer α} {l r : List α} {tokens : List (List α)} (h : Run L tokens l r)
    (hlen : ∀ s ∈ tokens, L.len s = M.len s) : Run M tokens l r := by
  induction h with
  | nil l => exact .nil l
  | cons _ ih =>
    have hhead := hlen _ List.mem_cons_self
    have hrest := ih fun s hs => hlen s (List.mem_cons_of_mem _ hs)
    rw [hhead] at hrest
    exact .cons hrest

/-- A run up to a separator, or to the end, is unique. -/
theorem Run.unique {l r r' : List α} {tokens tokens' : List (List α)} (h : Run L tokens l r)
    (h' : Run L tokens' l r') (htokens : ∀ s ∈ tokens, s.head? ≠ some sep)
    (htokens' : ∀ s ∈ tokens', s.head? ≠ some sep) (hr : r = [] ∨ r.head? = some sep)
    (hr' : r' = [] ∨ r'.head? = some sep) : tokens = tokens' ∧ r = r' := by
  induction h generalizing tokens' with
  | nil l =>
    cases h' with
    | nil => exact ⟨rfl, rfl⟩
    | cons h' =>
      rcases hr with hr | hr
      · cases hr
      · exact absurd hr (htokens' _ List.mem_cons_self)
  | cons h ih =>
    cases h' with
    | nil =>
      rcases hr' with hr' | hr'
      · cases hr'
      · exact absurd hr' (htokens _ List.mem_cons_self)
    | cons h' =>
      obtain ⟨rfl, rfl⟩ := ih h' (fun s hs => htokens s (List.mem_cons_of_mem _ hs))
        (fun s hs => htokens' s (List.mem_cons_of_mem _ hs)) hr
      exact ⟨rfl, rfl⟩

variable [DecidableEq α]

/-- The text is cut at the first separator. -/
theorem segments_first (hsep : ∀ l, L.len (sep :: l) = 1) (l : List α) : ∃ first r,
    Run L first l r ∧ (∀ s ∈ first, s.head? ≠ some sep) ∧
      ((r = [] ∧ L.segments sep l = [first]) ∨
        ∃ r', r = sep :: r' ∧ L.segments sep l = first :: L.segments sep r') := by
  induction l using L.ind with
  | nil => exact ⟨[], [], .nil _, by simp, .inl ⟨rfl, rfl⟩⟩
  | token a l ih =>
    by_cases ha : a = sep
    · subst ha
      exact ⟨[], a :: l, .nil _, by simp, .inr ⟨l, rfl, segments_cons_sep (hsep l)⟩⟩
    · obtain ⟨first, r, hrun, hfirst, hend⟩ := ih
      refine ⟨(a :: l) :: first, r, .cons hrun, ?_, ?_⟩
      · intro s hs
        rcases List.mem_cons.1 hs with rfl | hs
        · simpa using ha
        · exact hfirst s hs
      · rcases hend with ⟨hr, hsegs⟩ | ⟨r', hr, hsegs⟩
        · exact .inl ⟨hr, by rw [segments_cons ha, hsegs, List.modifyHead_cons]⟩
        · exact .inr ⟨r', hr, by rw [segments_cons ha, hsegs, List.modifyHead_cons]⟩

/-- Without a separator the text is one piece. -/
theorem texts_eq_singleton {l : List α} (h : ∀ s ∈ L.positions l, s.head? ≠ some sep) :
    L.texts sep l = [l] := by
  induction l using L.ind with
  | nil => rfl
  | token a l ih =>
    rw [positions_cons] at h
    have ha : a ≠ sep := by simpa using h _ List.mem_cons_self
    rw [texts_cons ha, ih fun s hs => h s (List.mem_cons_of_mem _ hs), List.modifyHead_cons,
      List.take_append_drop]

end Lexer

end Lexing
