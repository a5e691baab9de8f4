import Mathlib.Data.List.Chain

/-!
# The committed states of a run

A call is a list of transactions, each of which commits a new state or fails and leaves the state
as it is; a failed transaction ends its call. `history` lists every state that a sequence of calls
commits. The rules are the inductions over it: an invariant that each transaction keeps holds in
every committed state, and what each transaction does to the state it finds relates every two
successive states.
-/

universe u

namespace Commits

variable {σ ε : Type u}

/-- The states a call commits: its transactions in order, up to the first that fails. -/
def commits : List (σ → Except ε σ) → σ → List σ
  | [], _ => []
  | t :: ts, s =>
      match t s with
      | .ok s' => s' :: commits ts s'
      | .error _ => []

/-- The state a list of commits ends in. -/
def final (s : σ) : List σ → σ
  | [] => s
  | s' :: states => final s' states

/-- The states a sequence of calls commits. -/
def history : List (List (σ → Except ε σ)) → σ → List σ
  | [], _ => []
  | call :: calls, s => commits call s ++ history calls (final s (commits call s))

/-! ### The invariant rule -/

variable {I : σ → Prop} {R : σ → σ → Prop}

/-- The transaction keeps `I` and relates the states before and after it by `R`. -/
def Respects (I : σ → Prop) (R : σ → σ → Prop) (t : σ → Except ε σ) : Prop :=
  ∀ s s', I s → t s = .ok s' → I s' ∧ R s s'

theorem isChain_append {s : σ} {l l' : List σ} (h : (s :: l).IsChain R)
    (h' : (final s l :: l').IsChain R) : (s :: (l ++ l')).IsChain R := by
  induction l generalizing s with
  | nil => exact h'
  | cons a l ih =>
    rw [List.isChain_cons_cons] at h
    rw [List.cons_append, List.isChain_cons_cons]
    exact ⟨h.1, ih h.2 h'⟩

theorem final_mem (s : σ) (l : List σ) : final s l ∈ s :: l := by
  induction l generalizing s with
  | nil => exact List.mem_singleton_self s
  | cons a l ih => exact List.mem_cons_of_mem s (ih a)

theorem commits_spec {ts : List (σ → Except ε σ)} (hts : ∀ t ∈ ts, Respects I R t) {s : σ}
    (hs : I s) : (∀ x ∈ s :: commits ts s, I x) ∧ (s :: commits ts s).IsChain R := by
  induction ts generalizing s with
  | nil => exact ⟨by simpa [commits] using hs, .singleton s⟩
  | cons t ts ih =>
    rw [commits]
    cases ht : t s with
    | error e => exact ⟨by simpa using hs, .singleton s⟩
    | ok s' =>
      obtain ⟨hs', hR⟩ := hts t List.mem_cons_self s s' hs ht
      obtain ⟨hI, hchain⟩ := ih (fun t ht => hts t (List.mem_cons_of_mem _ ht)) hs'
      exact ⟨List.forall_mem_cons.2 ⟨hs, hI⟩, List.isChain_cons_cons.2 ⟨hR, hchain⟩⟩

/-- Every committed state satisfies the invariant, and every two successive states are related. -/
theorem history_spec {calls : List (List (σ → Except ε σ))}
    (hcalls : ∀ call ∈ calls, ∀ t ∈ call, Respects I R t) {s : σ} (hs : I s) :
    (∀ x ∈ s :: history calls s, I x) ∧ (s :: history calls s).IsChain R := by
  induction calls generalizing s with
  | nil => exact ⟨by simpa [history] using hs, .singleton s⟩
  | cons call calls ih =>
    obtain ⟨hI, hchain⟩ := commits_spec (hcalls call List.mem_cons_self) hs
    obtain ⟨hI', hchain'⟩ := ih (fun c hc => hcalls c (List.mem_cons_of_mem _ hc))
      (hI _ (final_mem s _))
    refine ⟨?_, isChain_append hchain hchain'⟩
    intro x hx
    rw [history, List.mem_cons, List.mem_append] at hx
    rcases hx with rfl | hx | hx
    · exact hs
    · exact hI x (List.mem_cons_of_mem s hx)
    · exact hI' x (List.mem_cons_of_mem _ hx)

/-! ### Counters that advance -/

/-- Along a chain of a transitive relation any two states are related in their order. -/
theorem related_of_le (htrans : ∀ a b c, R a b → R b c → R a c) (hrefl : ∀ a, R a a)
    {states : List σ} (h : states.IsChain R) {i j : ℕ} (hij : i ≤ j) {a b : σ}
    (ha : states[i]? = some a) (hb : states[j]? = some b) : R a b := by
  rcases Nat.eq_or_lt_of_le hij with rfl | hlt
  · rw [ha] at hb
    rw [Option.some.inj hb]
    exact hrefl b
  · have : Trans R R R := ⟨fun h₁ h₂ => htrans _ _ _ h₁ h₂⟩
    obtain ⟨hi, rfl⟩ := List.getElem?_eq_some_iff.1 ha
    obtain ⟨hj, rfl⟩ := List.getElem?_eq_some_iff.1 hb
    exact List.pairwise_iff_getElem.1 (List.isChain_iff_pairwise.1 h) i j hi hj hlt

/-! ### Runs of single transactions -/

section

variable {ω : Type u} (apply : ω → σ → Except ε σ)

/-- An operation that fails leaves the state as it is. -/
def settle (s : σ) (o : ω) : σ :=
  match apply o s with
  | .ok s' => s'
  | .error _ => s

/-- The state after a list of operations. -/
def run (ops : List ω) (s : σ) : σ := ops.foldl (settle apply) s

/-- Every operation meets `Good` in the state it finds. -/
def Along (Good : ω → σ → Prop) : List ω → σ → Prop
  | [], _ => True
  | o :: ops, s => Good o s ∧ Along Good ops (settle apply s o)

variable {apply} {Good : ω → σ → Prop} {o : ω} {ops more : List ω} {s : σ}

@[simp] theorem run_nil (s : σ) : run apply [] s = s := rfl

@[simp] theorem run_cons (o : ω) (ops : List ω) (s : σ) :
    run apply (o :: ops) s = run apply ops (settle apply s o) := rfl

theorem settle_of_ok {s' : σ} (h : apply o s = .ok s') : settle apply s o = s' := by
  unfold settle
  rw [h]

theorem run_append (ops more : List ω) (s : σ) :
    run apply (ops ++ more) s = run apply more (run apply ops s) :=
  List.foldl_append

theorem along_append :
    Along apply Good (ops ++ more) s ↔
      Along apply Good ops s ∧ Along apply Good more (run apply ops s) := by
  induction ops generalizing s with
  | nil => simp [Along]
  | cons o ops ih => simp only [List.cons_append, Along, ih, run_cons, and_assoc]

/-- What is shown for an operation that commits holds of one that fails as well, if nothing has
to happen. -/
theorem settle_induct {P : σ → Prop} (hrefl : P s) (hok : ∀ s', apply o s = .ok s' → P s') :
    P (settle apply s o) := by
  unfold settle
  cases h : apply o s with
  | ok s' => exact hok s' h
  | error e => exact hrefl

/-- The invariant rule: what every operation that commits keeps holds after the run. -/
theorem run_invariant {I : σ → Prop}
    (hstep : ∀ o s s', Good o s → I s → apply o s = .ok s' → I s')
    (hgood : Along apply Good ops s) (hs : I s) : I (run apply ops s) := by
  induction ops generalizing s with
  | nil => exact hs
  | cons o ops ih => exact ih hgood.2 (settle_induct hs fun s' h => hstep o s s' hgood.1 hs h)

theorem along_of_forall (h : ∀ o ∈ ops, ∀ s, Good o s) : Along apply Good ops s := by
  induction ops generalizing s with
  | nil => trivial
  | cons o ops ih =>
    exact ⟨h o List.mem_cons_self s, ih fun o ho => h o (List.mem_cons_of_mem _ ho)⟩

theorem along_true (ops : List ω) (s : σ) : Along apply (fun _ _ => True) ops s :=
  along_of_forall fun _ _ _ => trivial

theorem Along.and {Good' : ω → σ → Prop} (h : Along apply Good ops s)
    (h' : Along apply Good' ops s) : Along apply (fun o s => Good o s ∧ Good' o s) ops s := by
  induction ops generalizing s with
  | nil => trivial
  | cons o ops ih => exact ⟨⟨h.1, h'.1⟩, ih h.2 h'.2⟩

/-- What either stays or dies for good has stayed, if it is not dead at the end. -/
theorem stays_of_not_dead {Stays Dead : σ → Prop}
    (hstays : ∀ o s s', Good o s → Stays s → apply o s = .ok s' → Stays s' ∨ Dead s')
    (hdead : ∀ o s s', Good o s → Dead s → apply o s = .ok s' → Dead s')
    (hgood : Along apply Good (ops ++ more) s) (hs : Stays s)
    (hend : ¬ Dead (run apply (ops ++ more) s)) : Stays (run apply ops s) := by
  obtain ⟨hops, hmore⟩ := along_append.1 hgood
  have hmiddle : Stays (run apply ops s) ∨ Dead (run apply ops s) := by
    refine run_invariant (I := fun s => Stays s ∨ Dead s) ?_ hops (.inl hs)
    rintro o s s' ho (h | h) hok
    · exact hstays o s s' ho h hok
    · exact .inr (hdead o s s' ho h hok)
  refine hmiddle.resolve_right fun hd => hend ?_
  rw [run_append]
  exact run_invariant hdead hmore hd

end

end Commits
