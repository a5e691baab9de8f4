import AgentDb.Lib.Json

/-!
# Walking a JSON value under limits

A value is walked with an explicit stack instead of recursion: each value that is taken off the
stack is counted, checked on its own, and its children are put on with the next depth. The walk
stops with an error at the first value that is too deep, one too many, or fails its check.
`walk_eq_ok` says what a walk that ends has established; `walkPlaces` is the walk with the places
it takes values from, none of them twice (`nodup_walkPlaces`).
-/

namespace Json
namespace Value

/-! ### The shape of a value -/

/-- The values one level down. -/
def children : Value → List Value
  | .array items => items
  | .object entries => entries.map Prod.snd
  | _ => []

mutual

/-- The levels of a value; a value without children has one. -/
def depth : Value → ℕ
  | .array items => depthItems items + 1
  | .object entries => depthEntries entries + 1
  | _ => 1

def depthItems : List Value → ℕ
  | [] => 0
  | v :: vs => max (depth v) (depthItems vs)

def depthEntries : List (String × Value) → ℕ
  | [] => 0
  | (_, v) :: es => max (depth v) (depthEntries es)

end

mutual

/-- The number of values in a value, itself included. -/
def nodes : Value → ℕ
  | .array items => nodesItems items + 1
  | .object entries => nodesEntries entries + 1
  | _ => 1

def nodesItems : List Value → ℕ
  | [] => 0
  | v :: vs => nodes v + nodesItems vs

def nodesEntries : List (String × Value) → ℕ
  | [] => 0
  | (_, v) :: es => nodes v + nodesEntries es

end

/-- The value occurs in another one. -/
inductive Inside (v : Value) : Value → Prop
  | self : Inside v v
  | child {w c : Value} (mem : c ∈ w.children) (below : Inside v c) : Inside v w

theorem inside_iff {v w : Value} : Inside v w ↔ v = w ∨ ∃ c ∈ w.children, Inside v c := by
  constructor
  · intro h
    cases h with
    | self => exact .inl rfl
    | child mem below => exact .inr ⟨_, mem, below⟩
  · rintro (rfl | ⟨c, hmem, hbelow⟩)
    · exact .self
    · exact .child hmem hbelow

theorem depthItems_le {items : List Value} {n : ℕ} :
    depthItems items ≤ n ↔ ∀ v ∈ items, depth v ≤ n := by
  induction items with
  | nil => simp [depthItems]
  | cons v vs ih => rw [depthItems, max_le_iff, ih, List.forall_mem_cons]

theorem depthEntries_eq (entries : List (String × Value)) :
    depthEntries entries = depthItems (entries.map Prod.snd) := by
  induction entries with
  | nil => rfl
  | cons e es ih => rw [depthEntries, ih, List.map_cons, depthItems]

theorem nodesEntries_eq (entries : List (String × Value)) :
    nodesEntries entries = nodesItems (entries.map Prod.snd) := by
  induction entries with
  | nil => rfl
  | cons e es ih => rw [nodesEntries, ih, List.map_cons, nodesItems]

theorem depth_eq (v : Value) : depth v = depthItems v.children + 1 := by
  cases v with
  | object entries => rw [depth, depthEntries_eq, children]
  | _ => simp [depth, depthItems, children]

theorem nodes_eq (v : Value) : nodes v = nodesItems v.children + 1 := by
  cases v with
  | object entries => rw [nodes, nodesEntries_eq, children]
  | _ => simp [nodes, nodesItems, children]

theorem depth_pos (v : Value) : 0 < depth v := by
  rw [depth_eq]
  omega

/-! ### The walk -/

section Walk

variable {ε : Type} (tooDeep tooMany : ε) (check : Value → Except ε Unit) (maxDepth maxValues : ℕ)

/-- The values that wait on a stack, with their depths. -/
def waiting (pending : List (Value × ℕ)) : ℕ := nodesItems (pending.map Prod.fst)

theorem waiting_step (v : Value) (d : ℕ) (pending : List (Value × ℕ)) :
    waiting ((v, d) :: pending) =
      waiting (v.children.map (fun c => (c, d + 1)) ++ pending) + 1 := by
  have happend : ∀ vs ws : List Value, nodesItems (vs ++ ws) = nodesItems vs + nodesItems ws := by
    intro vs ws
    induction vs with
    | nil => simp [nodesItems]
    | cons v vs ih =>
      rw [List.cons_append, nodesItems, ih, nodesItems]
      omega
  have hfst : (v.children.map fun c => (c, d + 1)).map Prod.fst = v.children := by
    simp [Function.comp_def]
  rw [waiting, waiting, List.map_cons, nodesItems, List.map_append, happend, hfst, nodes_eq v]
  omega

/-- Take a value off the stack, check it, and put its children on. -/
def walk (count : ℕ) : List (Value × ℕ) → Except ε Unit
  | [] => .ok ()
  | (v, d) :: pending =>
      if d > maxDepth then .error tooDeep
      else if count + 1 > maxValues then .error tooMany
      else match check v with
        | .error e => .error e
        | .ok () => walk (count + 1) (v.children.map (fun c => (c, d + 1)) ++ pending)
termination_by pending => waiting pending
decreasing_by
  rw [waiting_step]
  omega

/-- What a stack entry has to keep: no value of it too deep, none that fails its check. -/
def Keeps (p : Value × ℕ) : Prop :=
  p.1.depth + p.2 ≤ maxDepth + 1 ∧ ∀ w, Inside w p.1 → check w = .ok ()

theorem keeps_iff {v : Value} {d : ℕ} :
    Keeps check maxDepth (v, d) ↔ d ≤ maxDepth ∧ check v = .ok () ∧
      ∀ c ∈ v.children, Keeps check maxDepth (c, d + 1) := by
  have hdepth : v.depth + d ≤ maxDepth + 1 ↔
      d ≤ maxDepth ∧ ∀ c ∈ v.children, c.depth + (d + 1) ≤ maxDepth + 1 := by
    rw [depth_eq]
    constructor
    · intro h
      refine ⟨by omega, fun c hc => ?_⟩
      have hle : c.depth ≤ depthItems v.children := depthItems_le.1 le_rfl c hc
      omega
    · rintro ⟨hd, h⟩
      have hle : depthItems v.children ≤ maxDepth - d := depthItems_le.2 fun c hc => by
        have hc' := h c hc
        omega
      omega
  have hchecks : (∀ w, Inside w v → check w = .ok ()) ↔
      check v = .ok () ∧ ∀ c ∈ v.children, ∀ w, Inside w c → check w = .ok () := by
    constructor
    · exact fun h => ⟨h v .self, fun c hc w hw => h w (.child hc hw)⟩
    · rintro ⟨hv, hc⟩ w hw
      rcases inside_iff.1 hw with rfl | ⟨c, hmem, hbelow⟩
      · exact hv
      · exact hc c hmem w hbelow
  simp only [Keeps, hdepth, hchecks, forall_and]
  tauto

/-- **A walk ends without an error exactly when every value on the stack keeps the limits.** -/
theorem walk_eq_ok (count : ℕ) (pending : List (Value × ℕ)) (hcount : count ≤ maxValues) :
    walk tooDeep tooMany check maxDepth maxValues count pending = .ok () ↔
      (∀ p ∈ pending, Keeps check maxDepth p) ∧ count + waiting pending ≤ maxValues := by
  induction count, pending using walk.induct check maxDepth maxValues with
  | case1 count => simp [walk, waiting, nodesItems, hcount]
  | case2 count v d pending hdeep =>
    rw [walk, if_pos hdeep]
    refine iff_of_false (by simp) fun h => ?_
    have hkeeps := (keeps_iff check maxDepth).1 (h.1 _ (List.mem_cons_self ..))
    omega
  | case3 count v d pending hdeep hmany =>
    rw [walk, if_neg hdeep, if_pos hmany]
    refine iff_of_false (by simp) fun h => ?_
    have hwaiting := waiting_step v d pending
    omega
  | case4 count v d pending hdeep hmany e hcheck =>
    rw [walk, if_neg hdeep, if_neg hmany, hcheck]
    refine iff_of_false (by simp) fun h => ?_
    have hkeeps := (keeps_iff check maxDepth).1 (h.1 _ (List.mem_cons_self ..))
    rw [hcheck] at hkeeps
    cases hkeeps.2.1
  | case5 count v d pending hdeep hmany hcheck ih =>
    rw [walk, if_neg hdeep, if_neg hmany, hcheck]
    dsimp only
    rw [ih (by omega), waiting_step, List.forall_mem_append, List.forall_mem_cons, keeps_iff,
      List.forall_mem_map]
    simp only [hcheck, true_and, iff_true_intro (Nat.le_of_not_lt hdeep)]
    rw [and_congr_right_iff]
    rintro -
    omega

/-! ### Where a walk has been -/

/-- The children of a value with their places: a place is the numbers of the children on the way
down to it. -/
def childrenAt (place : List ℕ) (v : Value) (d : ℕ) : List (List ℕ × Value × ℕ) :=
  v.children.mapIdx fun i c => (place ++ [i], c, d + 1)

theorem childrenAt_snd (place : List ℕ) (v : Value) (d : ℕ) :
    (childrenAt place v d).map Prod.snd = v.children.map fun c => (c, d + 1) := by
  refine List.ext_getElem? fun i => ?_
  simp [childrenAt, Function.comp_def]

/-- The same walk, with the places it takes values from. -/
def walkPlaces (count : ℕ) :
    List (List ℕ × Value × ℕ) → List (List ℕ × Value) × Except ε Unit
  | [] => ([], .ok ())
  | (place, v, d) :: pending =>
      if d > maxDepth then ([(place, v)], .error tooDeep)
      else if count + 1 > maxValues then ([(place, v)], .error tooMany)
      else match check v with
        | .error e => ([(place, v)], .error e)
        | .ok () =>
            let rest := walkPlaces (count + 1) (childrenAt place v d ++ pending)
            ((place, v) :: rest.1, rest.2)
termination_by pending => waiting (pending.map Prod.snd)
decreasing_by
  rw [List.map_append, childrenAt_snd, List.map_cons, waiting_step]
  omega

theorem walkPlaces_snd (count : ℕ) (pending : List (List ℕ × Value × ℕ)) :
    (walkPlaces tooDeep tooMany check maxDepth maxValues count pending).2 =
      walk tooDeep tooMany check maxDepth maxValues count (pending.map Prod.snd) := by
  induction count, pending using walkPlaces.induct tooDeep tooMany check maxDepth maxValues with
  | case1 count => rw [walkPlaces, List.map_nil, walk]
  | case2 count place v d pending hdeep =>
    rw [walkPlaces, List.map_cons, walk, if_pos hdeep, if_pos hdeep]
  | case3 count place v d pending hdeep hmany =>
    rw [walkPlaces, List.map_cons, walk, if_neg hdeep, if_neg hdeep, if_pos hmany, if_pos hmany]
  | case4 count place v d pending hdeep hmany e hcheck =>
    rw [walkPlaces, List.map_cons, walk, if_neg hdeep, if_neg hdeep, if_neg hmany, if_neg hmany,
      hcheck]
  | case5 count place v d pending hdeep hmany hcheck ih =>
    rw [walkPlaces, List.map_cons, walk, if_neg hdeep, if_neg hdeep, if_neg hmany, if_neg hmany,
      hcheck]
    dsimp only
    rw [ih, List.map_append, childrenAt_snd]

/-- A walk takes one value more than it may, and stops. -/
theorem length_walkPlaces_le (count : ℕ) (pending : List (List ℕ × Value × ℕ))
    (hcount : count ≤ maxValues) :
    count + (walkPlaces tooDeep tooMany check maxDepth maxValues count pending).1.length ≤
      maxValues + 1 := by
  induction count, pending using walkPlaces.induct tooDeep tooMany check maxDepth maxValues with
  | case1 count =>
    rw [walkPlaces, List.length_nil]
    omega
  | case2 count place v d pending hdeep =>
    rw [walkPlaces, if_pos hdeep, List.length_singleton]
    omega
  | case3 count place v d pending hdeep hmany =>
    rw [walkPlaces, if_neg hdeep, if_pos hmany, List.length_singleton]
    omega
  | case4 count place v d pending hdeep hmany e hcheck =>
    rw [walkPlaces, if_neg hdeep, if_neg hmany, hcheck, List.length_singleton]
    omega
  | case5 count place v d pending hdeep hmany hcheck ih =>
    rw [walkPlaces, if_neg hdeep, if_neg hmany, hcheck]
    have hrest := ih (by omega)
    dsimp only
    rw [List.length_cons]
    omega

/-- The value at a place. -/
def at? (v : Value) : List ℕ → Option Value
  | [] => some v
  | i :: place => v.children[i]?.bind fun c => c.at? place

theorem at?_concat (v : Value) (place : List ℕ) (i : ℕ) :
    v.at? (place ++ [i]) = (v.at? place).bind fun w => w.children[i]? := by
  induction place generalizing v with
  | nil =>
    rw [List.nil_append, at?, at?, Option.bind_some]
    cases v.children[i]? <;> rfl
  | cons j place ih =>
    rw [List.cons_append, at?, at?, Option.bind_assoc]
    exact congrArg _ (funext ih)

/-- Every value that is taken off is the one at its place. -/
theorem walkPlaces_at (root : Value) (count : ℕ) (pending : List (List ℕ × Value × ℕ))
    (hpending : ∀ p ∈ pending, root.at? p.1 = some p.2.1) :
    ∀ p ∈ (walkPlaces tooDeep tooMany check maxDepth maxValues count pending).1,
      root.at? p.1 = some p.2 := by
  induction count, pending using walkPlaces.induct tooDeep tooMany check maxDepth maxValues with
  | case1 count => simp [walkPlaces]
  | case2 count place v d pending hdeep =>
    rw [walkPlaces, if_pos hdeep, List.forall_mem_singleton]
    exact hpending _ (List.mem_cons_self ..)
  | case3 count place v d pending hdeep hmany =>
    rw [walkPlaces, if_neg hdeep, if_pos hmany, List.forall_mem_singleton]
    exact hpending _ (List.mem_cons_self ..)
  | case4 count place v d pending hdeep hmany e hcheck =>
    rw [walkPlaces, if_neg hdeep, if_neg hmany, hcheck, List.forall_mem_singleton]
    exact hpending _ (List.mem_cons_self ..)
  | case5 count place v d pending hdeep hmany hcheck ih =>
    have hhead := hpending _ (List.mem_cons_self ..)
    rw [walkPlaces, if_neg hdeep, if_neg hmany, hcheck]
    refine List.forall_mem_cons.2 ⟨hhead, ih fun p hp => ?_⟩
    rcases List.mem_append.1 hp with hchild | hwaiting
    · obtain ⟨i, hi, rfl⟩ := List.mem_mapIdx.1 hchild
      rw [at?_concat, hhead, Option.bind_some, List.getElem?_eq_getElem hi]
    · exact hpending p (List.mem_cons_of_mem _ hwaiting)

/-- Neither place is below the other. -/
def Apart (p q : List ℕ) : Prop := ¬ p <+: q ∧ ¬ q <+: p

theorem Apart.concat {p q : List ℕ} (h : Apart p q) (i : ℕ) : Apart (p ++ [i]) q := by
  refine ⟨fun hbelow => h.1 ((List.prefix_append p [i]).trans hbelow), fun hbelow => ?_⟩
  rcases List.prefix_concat_iff.1 hbelow with rfl | habove
  · exact h.1 (List.prefix_append p [i])
  · exact h.2 habove

theorem apart_concat_concat {p : List ℕ} {i j : ℕ} (h : i ≠ j) : Apart (p ++ [i]) (p ++ [j]) := by
  have hfirst : ∀ k l : ℕ, k ≠ l → ¬ p ++ [k] <+: p ++ [l] := by
    intro k l hkl hprefix
    have heq := hprefix.eq_of_length (by simp)
    simp [hkl] at heq
  exact ⟨hfirst i j h, hfirst j i h.symm⟩

theorem pairwise_childrenAt (place : List ℕ) (v : Value) (d : ℕ) :
    (childrenAt place v d).Pairwise fun p q => Apart p.1 q.1 := by
  refine List.pairwise_iff_getElem.2 fun i j hi hj hij => ?_
  simp only [childrenAt, List.getElem_mapIdx]
  exact apart_concat_concat (Nat.ne_of_lt hij)

/-- What is taken off was waiting, or is below what was waiting. -/
theorem walkPlaces_below (count : ℕ) (pending : List (List ℕ × Value × ℕ)) :
    ∀ p ∈ (walkPlaces tooDeep tooMany check maxDepth maxValues count pending).1,
      ∃ q ∈ pending, q.1 <+: p.1 := by
  induction count, pending using walkPlaces.induct tooDeep tooMany check maxDepth maxValues with
  | case1 count => simp [walkPlaces]
  | case2 count place v d pending hdeep =>
    rw [walkPlaces, if_pos hdeep, List.forall_mem_singleton]
    exact ⟨_, List.mem_cons_self .., List.prefix_rfl⟩
  | case3 count place v d pending hdeep hmany =>
    rw [walkPlaces, if_neg hdeep, if_pos hmany, List.forall_mem_singleton]
    exact ⟨_, List.mem_cons_self .., List.prefix_rfl⟩
  | case4 count place v d pending hdeep hmany e hcheck =>
    rw [walkPlaces, if_neg hdeep, if_neg hmany, hcheck, List.forall_mem_singleton]
    exact ⟨_, List.mem_cons_self .., List.prefix_rfl⟩
  | case5 count place v d pending hdeep hmany hcheck ih =>
    rw [walkPlaces, if_neg hdeep, if_neg hmany, hcheck]
    refine List.forall_mem_cons.2 ⟨⟨_, List.mem_cons_self .., List.prefix_rfl⟩, fun p hp => ?_⟩
    obtain ⟨q, hq, hbelow⟩ := ih p hp
    rcases List.mem_append.1 hq with hchild | hwaiting
    · obtain ⟨i, hi, rfl⟩ := List.mem_mapIdx.1 hchild
      exact ⟨_, List.mem_cons_self .., (List.prefix_append place [i]).trans hbelow⟩
    · exact ⟨q, List.mem_cons_of_mem _ hwaiting, hbelow⟩

/-- **No place is visited twice.** -/
theorem nodup_walkPlaces (count : ℕ) (pending : List (List ℕ × Value × ℕ))
    (hpending : pending.Pairwise fun p q => Apart p.1 q.1) :
    ((walkPlaces tooDeep tooMany check maxDepth maxValues count pending).1.map Prod.fst).Nodup := by
  induction count, pending using walkPlaces.induct tooDeep tooMany check maxDepth maxValues with
  | case1 count => simp [walkPlaces]
  | case2 count place v d pending hdeep => simp [walkPlaces, hdeep]
  | case3 count place v d pending hdeep hmany => simp [walkPlaces, hdeep, hmany]
  | case4 count place v d pending hdeep hmany e hcheck =>
    simp [walkPlaces, hdeep, hmany, hcheck]
  | case5 count place v d pending hdeep hmany hcheck ih =>
    obtain ⟨hhead, htail⟩ := List.pairwise_cons.1 hpending
    rw [walkPlaces, if_neg hdeep, if_neg hmany, hcheck, List.map_cons, List.nodup_cons]
    constructor
    · intro hagain
      obtain ⟨p, hp, hplace⟩ := List.mem_map.1 hagain
      obtain ⟨q, hq, hbelow⟩ := walkPlaces_below tooDeep tooMany check maxDepth maxValues _ _ p hp
      rw [hplace] at hbelow
      rcases List.mem_append.1 hq with hchild | hwaiting
      · obtain ⟨i, hi, rfl⟩ := List.mem_mapIdx.1 hchild
        have hlength := hbelow.length_le
        simp at hlength
      · exact (hhead q hwaiting).2 hbelow
    · refine ih (List.pairwise_append.2 ⟨pairwise_childrenAt place v d, htail, ?_⟩)
      intro p hp q hq
      obtain ⟨i, hi, rfl⟩ := List.mem_mapIdx.1 hp
      exact (hhead q hq).concat i

end Walk

/-! ### A part of a value -/

theorem depth_le_of_inside {w v : Value} (h : Inside w v) : w.depth ≤ v.depth := by
  induction h with
  | self => exact le_rfl
  | @child v c mem _ ih =>
    rw [depth_eq v]
    exact (ih.trans (depthItems_le.1 le_rfl _ mem)).trans (Nat.le_succ _)

theorem nodes_le_of_mem {c : Value} {items : List Value} (h : c ∈ items) :
    c.nodes ≤ nodesItems items := by
  induction items with
  | nil => cases h
  | cons v vs ih =>
    rw [nodesItems]
    rcases List.mem_cons.1 h with rfl | h
    · omega
    · have hle := ih h
      omega

theorem nodes_le_of_inside {w v : Value} (h : Inside w v) : w.nodes ≤ v.nodes := by
  induction h with
  | self => exact le_rfl
  | @child v c mem _ ih =>
    rw [nodes_eq v]
    exact (ih.trans (nodes_le_of_mem mem)).trans (Nat.le_succ _)

theorem Inside.trans {u w v : Value} (h : Inside u w) (h' : Inside w v) : Inside u v := by
  induction h' with
  | self => exact h
  | child mem _ ih => exact .child mem ih

end Value
end Json
