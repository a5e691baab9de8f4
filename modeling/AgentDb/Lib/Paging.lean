import Mathlib.Tactic

/-!
# Reading a list page by page

Rows are ranked, and rows of one rank may stand in any order. A page is cut out of the rows put in
order; every page may be cut out of another order of the rows that tie. Taken together the pages
have every row exactly once, whatever the orders are, if and only if no border between two pages
lies among rows that tie and are not all the same: `paged_iff_separated`.
-/

namespace Paging

open scoped List

variable {α : Type*}

/-- A total preorder of rows. -/
structure Ranking (α : Type*) where
  le : α → α → Bool
  total : ∀ a b, le a b = true ∨ le b a = true
  trans : ∀ a b c, le a b = true → le b c = true → le a c = true

namespace Ranking

variable (R : Ranking α)

/-- Two rows that may stand in any order. -/
def tie (a b : α) : Bool := R.le a b && R.le b a

/-- The first row stands before the second in every order. -/
def lt (a b : α) : Bool := !R.le b a

/-- How many of the rows stand before a row. -/
def before (rows : List α) (x : α) : ℕ := rows.countP (R.lt · x)

/-- How many of the rows tie with a row. -/
def ties (rows : List α) (x : α) : ℕ := rows.countP (R.tie · x)

/-- The rows put in order. -/
structure Sorts (rows l : List α) : Prop where
  perm : l.Perm rows
  sorted : l.Pairwise fun a b => R.le a b = true

/-- One page. -/
def page (n k : ℕ) (l : List α) : List α := (l.drop (k * n)).take n

/-- The first pages, one after the other, each out of an order of its own. -/
def pages (choice : ℕ → List α) (n : ℕ) : ℕ → List α
  | 0 => []
  | k + 1 => pages choice n k ++ page n k (choice k)

/-- However the rows of a rank stand, the pages have every row once. -/
def Paged (rows : List α) (n : ℕ) : Prop :=
  ∀ choice : ℕ → List α, (∀ k, R.Sorts rows (choice k)) →
    ∀ m, rows.length ≤ m * n → (pages choice n m).Perm rows

/-- No border between two pages lies among rows that tie but differ. -/
def Separated (rows : List α) (n : ℕ) : Prop :=
  ∀ x ∈ rows, ∀ y ∈ rows, R.tie x y = true → x ≠ y →
    ∀ k, ¬ (R.before rows x < k * n ∧ k * n < R.before rows x + R.ties rows x)

variable {R} {a b c x y : α} {rows l l' : List α} {n : ℕ}

theorem le_refl (R : Ranking α) (a : α) : R.le a a = true := (R.total a a).elim id id

theorem tie_refl (R : Ranking α) (a : α) : R.tie a a = true := by
  simp [tie, R.le_refl a]

theorem tie_iff : R.tie a b = true ↔ R.le a b = true ∧ R.le b a = true := Bool.and_eq_true_iff

theorem tie_comm (a b : α) : R.tie a b = R.tie b a := Bool.and_comm _ _

theorem lt_iff : R.lt a b = true ↔ ¬ R.le b a = true := by
  simp [lt]

theorem le_of_lt (h : R.lt a b = true) : R.le a b = true :=
  (R.total a b).resolve_right (lt_iff.1 h)

/-- The ranking of a comparison. -/
def ofCmp (cmp : α → α → Ordering) [Std.TransCmp cmp] : Ranking α where
  le a b := (cmp a b).isLE
  total a b := by
    cases h : cmp a b
    case gt => exact Or.inr (by rw [Std.OrientedCmp.lt_of_gt h]; rfl)
    all_goals exact Or.inl rfl
  trans _ _ _ := Std.TransCmp.isLE_trans

theorem tie_ofCmp {cmp : α → α → Ordering} [Std.TransCmp cmp] :
    (ofCmp cmp).tie a b = true ↔ cmp a b = .eq := by
  have hswap : cmp b a = (cmp a b).swap := Std.OrientedCmp.eq_swap
  rw [tie_iff]
  change (cmp a b).isLE = true ∧ (cmp b a).isLE = true ↔ _
  rw [hswap]
  cases cmp a b <;> simp

theorem tie_trans (hab : R.tie a b = true) (hbc : R.tie b c = true) : R.tie a c = true := by
  rw [tie_iff] at *
  exact ⟨R.trans a b c hab.1 hbc.1, R.trans c b a hbc.2 hab.2⟩

/-! ### The ranks of a list in order -/

/-- A list in order is the rows before a row, those that tie with it, and those behind it. -/
theorem sorted_split (hl : l.Pairwise fun a b => R.le a b = true) (x : α) :
    l = l.filter (R.lt · x) ++ (l.filter (R.tie · x) ++ l.filter (R.lt x ·)) := by
  induction l with
  | nil => rfl
  | cons a l ih =>
      obtain ⟨ha, hl⟩ := List.pairwise_cons.1 hl
      have ih := ih hl
      -- Where a row stands, none of the rows behind it stands further in front.
      by_cases hlt : R.lt a x = true
      · have htie : R.tie a x = false := by
          simp [tie, lt_iff.1 hlt]
        have hgt : R.lt x a = false := by
          simp [lt, le_of_lt hlt]
        simp only [List.filter_cons, hlt, htie, hgt, if_true, Bool.false_eq_true, if_false]
        exact congrArg (a :: ·) ih
      · have hnone : l.filter (R.lt · x) = [] := by
          rw [List.filter_eq_nil_iff]
          intro b hb hb'
          refine lt_iff.1 hb' (R.trans x a b ?_ (ha b hb))
          simpa [lt] using hlt
        have hle : R.le x a = true := by
          simpa [lt] using hlt
        by_cases htie : R.le a x = true
        · have hgt : R.lt x a = false := by
            simp [lt, htie]
          have hties : R.tie a x = true := tie_iff.2 ⟨htie, hle⟩
          simp only [List.filter_cons, hlt, hties, hgt, hnone, if_true, Bool.false_eq_true,
            if_false, List.nil_append, List.cons_append]
          rw [hnone, List.nil_append] at ih
          exact congrArg (a :: ·) ih
        · have hgt : R.lt x a = true := lt_iff.2 htie
          have hties : R.tie a x = false := by
            simp [tie, htie]
          have hnone' : l.filter (R.tie · x) = [] := by
            rw [List.filter_eq_nil_iff]
            intro b hb hb'
            exact htie (R.trans a b x (ha b hb) (tie_iff.1 hb').1)
          simp only [List.filter_cons, hlt, hties, hgt, hnone, hnone', if_true,
            Bool.false_eq_true, if_false, List.nil_append]
          rw [hnone, hnone', List.nil_append, List.nil_append] at ih
          exact congrArg (a :: ·) ih

theorem Sorts.length_lt (h : R.Sorts rows l) (x : α) :
    (l.filter (R.lt · x)).length = R.before rows x := by
  rw [← List.countP_eq_length_filter]
  exact h.perm.countP_eq _

theorem Sorts.length_tie (h : R.Sorts rows l) (x : α) :
    (l.filter (R.tie · x)).length = R.ties rows x := by
  rw [← List.countP_eq_length_filter]
  exact h.perm.countP_eq _

theorem exists_sorts (R : Ranking α) (rows : List α) : ∃ l, R.Sorts rows l :=
  ⟨rows.mergeSort R.le, List.mergeSort_perm _ _, List.pairwise_mergeSort R.trans
    (fun a b => by simpa using R.total a b) rows⟩

/-! ### Pages -/

theorem pages_eq (choice : ℕ → List α) (n m : ℕ) :
    pages choice n m = (List.range m).flatMap fun k => page n k (choice k) := by
  induction m with
  | zero => rfl
  | succ m ih => simp [pages, ih, List.range_succ]

theorem take_succ_mul (n k : ℕ) (l : List α) :
    l.take ((k + 1) * n) = l.take (k * n) ++ page n k l := by
  rw [Nat.add_one_mul, List.take_add, page]

/-- Pages out of orders that agree on the rows in front of every border are the first rows of each
of these orders. -/
theorem pages_perm {choice : ℕ → List α} {m : ℕ}
    (htake : ∀ k < m, ∀ i ≤ m, (choice k).take (i * n) ~ l.take (i * n)) :
    pages choice n m ~ l.take (m * n) := by
  induction m with
  | zero => simp [pages]
  | succ m ih =>
      have ih := ih fun k hk i hi => htake k (by omega) i (by omega)
      have hm := htake m (by omega) m (by omega)
      calc pages choice n m ++ page n m (choice m)
        _ ~ (choice m).take (m * n) ++ page n m (choice m) := (ih.trans hm.symm).append_right _
        _ = (choice m).take ((m + 1) * n) := (take_succ_mul n m _).symm
        _ ~ l.take ((m + 1) * n) := htake m (by omega) (m + 1) le_rfl

/-- Pages out of one order to a border, and out of another behind it. -/
theorem pages_switch (k i : ℕ) : pages (fun j => if j < k then l else l') n (k + i) =
    l.take (k * n) ++ (l'.drop (k * n)).take (i * n) := by
  have hfirst : ∀ i ≤ k, pages (fun j => if j < k then l else l') n i = l.take (i * n) := by
    intro i
    induction i with
    | zero => simp [pages]
    | succ i ih =>
        intro hi
        rw [pages, ih (by omega), if_pos (by omega : i < k), take_succ_mul]
  induction i with
  | zero => simp [hfirst k le_rfl]
  | succ i ih =>
      rw [← Nat.add_assoc, pages, ih, if_neg (by omega), page, Nat.add_one_mul, List.take_add,
        List.drop_drop, Nat.add_mul, List.append_assoc]

/-- Where the pages have every row once, all orders have the same rows in front of a border. -/
theorem Paged.take_perm (h : R.Paged rows n) (hl : R.Sorts rows l) (hl' : R.Sorts rows l')
    (k : ℕ) : l.take (k * n) ~ l'.take (k * n) := by
  rcases Nat.eq_zero_or_pos n with rfl | hn
  · simp
  have hlen : rows.length ≤ rows.length * n := Nat.le_mul_of_pos_right _ hn
  have hpages := h (fun j => if j < k then l else l')
    (fun j => by split <;> assumption) (k + rows.length)
    (hlen.trans (Nat.mul_le_mul_right n (Nat.le_add_left _ _)))
  have hdrop : (l'.drop (k * n)).length ≤ rows.length * n := by
    rw [List.length_drop, hl'.perm.length_eq]
    omega
  rw [pages_switch, List.take_of_length_le hdrop] at hpages
  refine (List.perm_append_right_iff (l'.drop (k * n))).1 (hpages.trans ?_)
  rw [List.take_append_drop]
  exact hl'.perm.symm

/-- Rows of one rank may be put in another order. -/
theorem Sorts.rearrange (h : R.Sorts rows l) (x : α) {t : List α}
    (ht : t ~ l.filter (R.tie · x)) :
    R.Sorts rows (l.filter (R.lt · x) ++ (t ++ l.filter (R.lt x ·))) where
  perm := by
    refine .trans ?_ h.perm
    conv_rhs => rw [sorted_split h.sorted x]
    exact (ht.append_right _).append_left _
  sorted := by
    have htie : ∀ a ∈ t, R.le a x = true ∧ R.le x a = true := fun a ha =>
      tie_iff.1 (List.mem_filter.1 (ht.subset ha)).2
    have hbefore : ∀ a ∈ l.filter (R.lt · x), R.le a x = true := fun a ha =>
      le_of_lt (List.mem_filter.1 ha).2
    have hbehind : ∀ a ∈ l.filter (R.lt x ·), R.le x a = true := fun a ha =>
      le_of_lt (List.mem_filter.1 ha).2
    refine List.pairwise_append.2 ⟨h.sorted.filter _, List.pairwise_append.2
      ⟨?_, h.sorted.filter _, fun a ha b hb => R.trans a x b (htie a ha).1 (hbehind b hb)⟩, ?_⟩
    · exact List.pairwise_of_forall_mem_list fun a ha b hb =>
        R.trans a x b (htie a ha).1 (htie b hb).2
    · intro a ha b hb
      refine R.trans a x b (hbefore a ha) ?_
      exact (List.mem_append.1 hb).elim (fun hb => (htie b hb).2) (hbehind b)

/-- Rows that tie with themselves only are read once, whatever the size of a page. -/
theorem separated_of_identified (h : ∀ x ∈ rows, ∀ y ∈ rows, R.tie x y = true → x = y) :
    R.Separated rows n :=
  fun x hx y hy htie hne => absurd (h x hx y hy htie) hne

/-! ### The first rows of an order -/

variable [DecidableEq α]

/-- Among the first rows a row is counted where its rank stands. -/
theorem Sorts.count_take (h : R.Sorts rows l) (x : α) (m : ℕ) :
    (l.take m).count x = ((l.filter (R.tie · x)).take (m - R.before rows x)).count x := by
  have hlt : ∀ p : α → Bool, p x = false → ∀ i, ((l.filter p).take i).count x = 0 :=
    fun p hp i => List.count_eq_zero_of_not_mem fun hmem => by
      have hx := (List.mem_filter.1 (List.mem_of_mem_take hmem)).2
      rw [hp] at hx
      cases hx
  have hself : R.lt x x = false := by
    simp [lt, R.le_refl x]
  conv_lhs => rw [sorted_split h.sorted x]
  rw [List.take_append, List.take_append, List.count_append, List.count_append,
    hlt (R.lt · x) hself, hlt (R.lt x ·) hself, h.length_lt, Nat.zero_add, Nat.add_zero]

/-- Two orders have the same rows in front of a border that does not lie among rows that tie but
differ. -/
theorem Sorts.take_perm (h : R.Sorts rows l) (h' : R.Sorts rows l') {m : ℕ}
    (hm : ∀ x ∈ rows, ∀ y ∈ rows, R.tie x y = true → x ≠ y →
      ¬ (R.before rows x < m ∧ m < R.before rows x + R.ties rows x)) :
    (l.take m).Perm (l'.take m) := by
  rw [List.perm_iff_count]
  intro x
  by_cases hx : x ∈ rows
  · rw [h.count_take, h'.count_take]
    by_cases hfront : m ≤ R.before rows x
    · rw [Nat.sub_eq_zero_of_le hfront, List.take_zero, List.take_zero]
    have hcount : ∀ {l}, R.Sorts rows l → (l.filter (R.tie · x)).count x = rows.count x :=
      fun h => by
        rw [List.count_filter (p := (R.tie · x)) (R.tie_refl x), h.perm.count_eq]
    by_cases hbehind : R.before rows x + R.ties rows x ≤ m
    · rw [List.take_of_length_le (by rw [h.length_tie]; omega),
        List.take_of_length_le (by rw [h'.length_tie]; omega), hcount h, hcount h']
    · -- The border lies among the rows of this rank, which are therefore all the same.
      have hsame : ∀ {l}, R.Sorts rows l →
          l.filter (R.tie · x) = List.replicate (R.ties rows x) x := fun {l} h => by
        rw [List.eq_replicate_iff]
        refine ⟨h.length_tie x, fun y hy => ?_⟩
        obtain ⟨hmem, htie⟩ := List.mem_filter.1 hy
        by_contra hne
        exact hm x hx y (h.perm.subset hmem) (by rw [tie_comm]; exact htie) (Ne.symm hne)
          ⟨by omega, by omega⟩
      rw [hsame h, hsame h']
  · rw [List.count_eq_zero_of_not_mem fun hmem => hx (h.perm.subset (List.mem_of_mem_take hmem)),
      List.count_eq_zero_of_not_mem fun hmem => hx (h'.perm.subset (List.mem_of_mem_take hmem))]

/-! ### When reading page by page has every row once -/

theorem paged_of_separated (h : R.Separated rows n) : R.Paged rows n := by
  intro choice hchoice m hm
  obtain ⟨l, hl⟩ := R.exists_sorts rows
  have hpages : pages choice n m ~ l.take (m * n) := pages_perm fun k _ i _ =>
    (hchoice k).take_perm hl fun x hx y hy htie hne => h x hx y hy htie hne i
  rw [List.take_of_length_le (by rw [hl.perm.length_eq]; exact hm)] at hpages
  exact hpages.trans hl.perm

/-- Rows that tie but differ may stand on either side of a border among them. -/
theorem separated_of_paged (h : R.Paged rows n) : R.Separated rows n := by
  rintro x hx y hy htie hne k ⟨hbefore, hbehind⟩
  obtain ⟨l, hl⟩ := R.exists_sorts rows
  -- The rest of the rank, without the two rows, is cut where the border is to stand behind one row.
  let t := l.filter (R.tie · x)
  let rest := (t.erase x).erase y
  let u := rest.take (k * n - R.before rows x - 1)
  let v := rest.drop (k * n - R.before rows x - 1)
  have hxt : x ∈ t := List.mem_filter.2 ⟨hl.perm.symm.subset hx, R.tie_refl x⟩
  have hyt : y ∈ t.erase x := (List.mem_erase_of_ne hne.symm).2
    (List.mem_filter.2 ⟨hl.perm.symm.subset hy, by rw [tie_comm]; exact htie⟩)
  have ht : x :: y :: rest ~ t :=
    ((List.perm_cons_erase hyt).symm.cons x).trans (List.perm_cons_erase hxt).symm
  have hlen : rest.length + 2 = R.ties rows x := by
    rw [← hl.length_tie x, ← ht.length_eq]
    rfl
  have huv : u ++ v = rest := List.take_append_drop _ _
  have hu : u.length = k * n - R.before rows x - 1 := by
    rw [List.length_take]
    omega
  have hxy : u ++ x :: y :: v ~ t := by
    refine .trans ?_ ht
    rw [← huv]
    exact List.perm_middle.trans (List.perm_middle.cons x)
  have hyx : u ++ y :: x :: v ~ t := (List.Perm.swap x y v |>.append_left u).trans hxy
  have htake := h.take_perm (hl.rearrange x hxy) (hl.rearrange x hyx) k
  have hborder : ∀ a b : α, (l.filter (R.lt · x) ++ (u ++ a :: b :: v ++ l.filter (R.lt x ·))).take
      (k * n) = l.filter (R.lt · x) ++ (u ++ [a]) := fun a b => by
    rw [List.take_append, List.take_of_length_le (by rw [hl.length_lt]; omega), hl.length_lt,
      List.append_assoc, List.take_append, List.take_of_length_le (by omega), hu]
    have hone : k * n - R.before rows x - (k * n - R.before rows x - 1) = 1 := by
      omega
    rw [hone]
    rfl
  rw [hborder, hborder] at htake
  have hmem := ((List.perm_append_left_iff _).1 ((List.perm_append_left_iff _).1 htake)).subset
    (List.mem_singleton_self x)
  exact hne (List.mem_singleton.1 hmem)

theorem paged_iff_separated : R.Paged rows n ↔ R.Separated rows n :=
  ⟨separated_of_paged, paged_of_separated⟩

end Ranking

end Paging
