import Mathlib.Tactic

/-!
# Scripts that may be interrupted

A script runs statements on a store, each at a point of its own. What befalls it is a function of
the point: the statement is carried out, it fails and leaves the store alone, or the process dies
before it. A script ends with a result, with an error, or crashed; a transaction that does not end
with a result leaves no trace.

There are two judgments. `Steps` says what is kept and how the store may have changed wherever a
script ends, and `Gives` says what holds when it has a result.
-/

namespace Scripts

/-- What befalls a statement. -/
inductive Fault (F : Type)
  | fails (f : F)
  | crash

/-- How a script ends. -/
inductive Outcome (ε α : Type)
  | ok (a : α)
  | failed (e : ε)
  | crashed

def Outcome.isOk {ε α : Type} : Outcome ε α → Bool
  | .ok _ => true
  | _ => false

theorem Outcome.eq_ok_of_isOk {ε : Type} {o : Outcome ε Unit} (h : o.isOk = true) : o = .ok () := by
  cases o with
  | ok a => rfl
  | failed e => cases h
  | crashed => cases h

/-- A script with points `P` and faults `F`, over a store `σ`. -/
def Script (P F σ ε α : Type) : Type := (P → Option (Fault F)) → σ → Outcome ε α × σ

variable {P F σ ε ε' α β : Type}

instance : Monad (Script P F σ ε) where
  pure a := fun _ s => (.ok a, s)
  bind m f := fun φ s =>
    match m φ s with
    | (.ok a, s') => f a φ s'
    | (.failed e, s') => (.failed e, s')
    | (.crashed, s') => (.crashed, s')

/-- A statement, with the text of the error if it is made to fail. -/
def stmt (p : P) (text : F → ε) (run : σ → Except ε (α × σ)) : Script P F σ ε α := fun φ s =>
  match φ p with
  | some (.fails f) => (.failed (text f), s)
  | some .crash => (.crashed, s)
  | none =>
      match run s with
      | .ok (a, s') => (.ok a, s')
      | .error e => (.failed e, s)

/-- A statement without a result. -/
def exec (p : P) (text : F → ε) (run : σ → Except ε σ) : Script P F σ ε Unit :=
  stmt p text fun s => (run s).map ((), ·)

/-- A statement that only reads. -/
def query (p : P) (text : F → ε) (read : σ → Except ε α) : Script P F σ ε α :=
  stmt p text fun s => (read s).map (·, s)

/-- An error of the program itself. -/
def fail (e : ε) : Script P F σ ε α := fun _ s => (.failed e, s)

/-- `map_err`. -/
def mapError (f : ε → ε') (m : Script P F σ ε α) : Script P F σ ε' α := fun φ s =>
  match m φ s with
  | (.ok a, s') => (.ok a, s')
  | (.failed e, s') => (.failed (f e), s')
  | (.crashed, s') => (.crashed, s')

/-- Go on after the errors that are tolerated. -/
def tolerating (tolerated : ε → Bool) (m : Script P F σ ε Unit) : Script P F σ ε Unit := fun φ s =>
  match m φ s with
  | (.failed e, s') => if tolerated e then (.ok (), s') else (.failed e, s')
  | r => r

/-- Go on after any error. -/
def ignoring (m : Script P F σ ε Unit) : Script P F σ ε Unit := tolerating (fun _ => true) m

/-- Without a result nothing is committed. -/
def transaction (m : Script P F σ ε α) : Script P F σ ε α := fun φ s =>
  match m φ s with
  | (.ok a, s') => (.ok a, s')
  | (.failed e, _) => (.failed e, s)
  | (.crashed, _) => (.crashed, s)

/-! ### Inversion -/

variable {φ : P → Option (Fault F)} {s s' : σ} {a : α} {b : β} {p : P} {text : F → ε}

theorem pure_eq_ok {a' : α} :
    (pure a : Script P F σ ε α) φ s = (.ok a', s') ↔ a = a' ∧ s = s' := by
  change (Outcome.ok a, s) = _ ↔ _
  rw [Prod.mk.injEq, Outcome.ok.injEq]

theorem bind_eq_ok {m : Script P F σ ε α} {f : α → Script P F σ ε β} :
    (m >>= f) φ s = (.ok b, s') ↔ ∃ a s₁, m φ s = (.ok a, s₁) ∧ f a φ s₁ = (.ok b, s') := by
  change (match m φ s with
    | (.ok a, s') => f a φ s'
    | (.failed e, s') => (.failed e, s')
    | (.crashed, s') => (.crashed, s')) = _ ↔ _
  rcases m φ s with ⟨a | e | _, s₁⟩ <;> simp

theorem stmt_eq_ok {run : σ → Except ε (α × σ)} :
    stmt p text run φ s = (.ok a, s') ↔ φ p = none ∧ run s = .ok (a, s') := by
  unfold stmt
  rcases φ p with _ | ⟨f | _⟩
  · rcases run s with e | ⟨a, s₁⟩ <;> simp
  · simp
  · simp

theorem exec_eq_ok {run : σ → Except ε σ} {u : Unit} :
    exec p text run φ s = (.ok u, s') ↔ φ p = none ∧ run s = .ok s' := by
  rw [exec, stmt_eq_ok]
  rcases run s with e | s₁ <;> simp [Except.map]

theorem query_eq_ok {read : σ → Except ε α} :
    query p text read φ s = (.ok a, s') ↔ φ p = none ∧ read s = .ok a ∧ s = s' := by
  rw [query, stmt_eq_ok]
  rcases read s with e | a <;> simp [Except.map]

theorem fail_eq_ok {e : ε} : (fail e : Script P F σ ε α) φ s = (.ok a, s') ↔ False := by
  simp [fail]

theorem mapError_eq_ok {f : ε → ε'} {m : Script P F σ ε α} :
    mapError f m φ s = (.ok a, s') ↔ m φ s = (.ok a, s') := by
  unfold mapError
  rcases m φ s with ⟨a | e | _, s₁⟩ <;> simp

theorem transaction_eq_ok {m : Script P F σ ε α} :
    transaction m φ s = (.ok a, s') ↔ m φ s = (.ok a, s') := by
  unfold transaction
  rcases m φ s with ⟨a | e | _, s₁⟩ <;> simp

/-- A statement goes on after an error that is tolerated, whether it is its own or not. -/
theorem tolerating_exec_eq_ok {t : ε → Bool} {run : σ → Except ε σ} {u : Unit} :
    tolerating t (exec p text run) φ s = (.ok u, s') ↔
      (∃ f, φ p = some (.fails f) ∧ t (text f) = true ∧ s' = s) ∨
        φ p = none ∧ (run s = .ok s' ∨ (∃ e, run s = .error e ∧ t e = true) ∧ s' = s) := by
  rw [eq_comm (a := s')]
  simp only [tolerating, exec, stmt]
  rcases φ p with _ | ⟨f | _⟩
  · rcases run s with e | s₁
    · simp only [Except.map]
      split_ifs with he <;> simp [he]
    · simp [Except.map]
  · dsimp only
    split_ifs with he <;> simp [he]
  · simp

/-! ### What is kept wherever a script ends -/

/-- From a store with `I` the script ends in one with `I` that it is related to by `R`. -/
def Steps (φ : P → Option (Fault F)) (I : σ → Prop) (R : σ → σ → Prop) (m : Script P F σ ε α) :
    Prop :=
  ∀ s, I s → I (m φ s).2 ∧ R s (m φ s).2

section Steps

variable {I : σ → Prop} {R : σ → σ → Prop} (hrefl : ∀ s, I s → R s s)

include hrefl

theorem steps_pure (a : α) : Steps φ I R (pure a : Script P F σ ε α) :=
  fun s hs => ⟨hs, hrefl s hs⟩

theorem steps_fail (e : ε) : Steps φ I R (fail e : Script P F σ ε α) :=
  fun s hs => ⟨hs, hrefl s hs⟩

theorem steps_stmt {run : σ → Except ε (α × σ)}
    (hrun : φ p = none → ∀ s a s', I s → run s = .ok (a, s') → I s' ∧ R s s') :
    Steps φ I R (stmt p text run) := by
  intro s hs
  unfold stmt
  rcases hp : φ p with _ | ⟨f | _⟩
  · rcases hr : run s with e | ⟨a, s'⟩
    · exact ⟨hs, hrefl s hs⟩
    · exact hrun hp s a s' hs hr
  · exact ⟨hs, hrefl s hs⟩
  · exact ⟨hs, hrefl s hs⟩

theorem steps_exec {run : σ → Except ε σ}
    (hrun : φ p = none → ∀ s s', I s → run s = .ok s' → I s' ∧ R s s') :
    Steps φ I R (exec p text run) := by
  refine steps_stmt hrefl fun hp s a s' hs h => hrun hp s s' hs ?_
  rcases hr : run s with e | s₁ <;> rw [hr] at h <;> cases h
  rfl

theorem steps_query (read : σ → Except ε α) : Steps φ I R (query p text read) := by
  refine steps_stmt hrefl fun _ s a s' hs h => ?_
  rcases hr : read s with e | b <;> rw [hr] at h <;> cases h
  exact ⟨hs, hrefl s hs⟩

theorem step_transaction {m : Script P F σ ε α} (hs : I s)
    (hm : ∀ a s', m φ s = (.ok a, s') → I s' ∧ R s s') :
    I (transaction m φ s).2 ∧ R s (transaction m φ s).2 := by
  unfold transaction
  rcases hr : m φ s with ⟨a | e | _, s'⟩
  · exact hm a s' hr
  · exact ⟨hs, hrefl s hs⟩
  · exact ⟨hs, hrefl s hs⟩

theorem steps_transaction {m : Script P F σ ε α}
    (hm : ∀ s a s', I s → m φ s = (.ok a, s') → I s' ∧ R s s') :
    Steps φ I R (transaction m) :=
  fun s hs => step_transaction hrefl hs fun a s' h => hm s a s' hs h

end Steps

section StepsIn

variable {I : σ → Prop} {R : σ → σ → Prop}

theorem Steps.mapError {m : Script P F σ ε α} (hm : Steps φ I R m) (f : ε → ε') :
    Steps φ I R (mapError f m) := by
  intro s hs
  have h := hm s hs
  unfold Scripts.mapError
  rcases hr : m φ s with ⟨a | e | _, s'⟩ <;> rw [hr] at h <;> exact h

theorem Steps.tolerating {m : Script P F σ ε Unit} (hm : Steps φ I R m) (t : ε → Bool) :
    Steps φ I R (tolerating t m) := by
  intro s hs
  have h := hm s hs
  unfold Scripts.tolerating
  rcases hr : m φ s with ⟨a | e | _, s'⟩ <;> rw [hr] at h
  · exact h
  · dsimp only
    split_ifs <;> exact h
  · exact h

theorem Steps.ignoring {m : Script P F σ ε Unit} (hm : Steps φ I R m) :
    Steps φ I R (ignoring m) := hm.tolerating _

variable (htrans : ∀ s₁ s₂ s₃, R s₁ s₂ → R s₂ s₃ → R s₁ s₃)

include htrans

/-- What comes after a result may rely on how it came about. -/
theorem steps_bind_of {m : Script P F σ ε α} {f : α → Script P F σ ε β} (hm : Steps φ I R m)
    (hf : ∀ s a s', I s → m φ s = (.ok a, s') → I s' → I (f a φ s').2 ∧ R s' (f a φ s').2) :
    Steps φ I R (m >>= f) := by
  intro s hs
  have h := hm s hs
  change I (match m φ s with
    | (.ok a, s') => f a φ s'
    | (.failed e, s') => (.failed e, s')
    | (.crashed, s') => (.crashed, s')).2 ∧ R s (match m φ s with
    | (.ok a, s') => f a φ s'
    | (.failed e, s') => (.failed e, s')
    | (.crashed, s') => (.crashed, s')).2
  rcases hr : m φ s with ⟨a | e | _, s₁⟩ <;> rw [hr] at h
  · obtain ⟨hs', hR⟩ := hf s a s₁ hs hr h.1
    exact ⟨hs', htrans _ _ _ h.2 hR⟩
  · exact h
  · exact h

theorem steps_bind {m : Script P F σ ε α} {f : α → Script P F σ ε β} (hm : Steps φ I R m)
    (hf : ∀ a, Steps φ I R (f a)) : Steps φ I R (m >>= f) :=
  steps_bind_of htrans hm fun _ a s' _ _ hs' => hf a s' hs'

theorem steps_forM (hrefl : ∀ s, I s → R s s) {f : β → Script P F σ ε Unit} {l : List β}
    (hf : ∀ b ∈ l, Steps φ I R (f b)) : Steps φ I R (l.forM f) := by
  induction l with
  | nil => exact steps_pure hrefl ()
  | cons b l ih =>
    refine steps_bind htrans (hf b List.mem_cons_self) fun _ => ?_
    exact ih fun b hb => hf b (List.mem_cons_of_mem _ hb)

end StepsIn

/-! ### What holds when a script has a result -/

/-- From a store with `Pre` a result comes with `Post`. -/
def Gives (φ : P → Option (Fault F)) (Pre : σ → Prop) (m : Script P F σ ε α)
    (Post : α → σ → Prop) : Prop :=
  ∀ s a s', Pre s → m φ s = (.ok a, s') → Post a s'

section Gives

variable {Pre Q : σ → Prop} {Post : β → σ → Prop}

theorem gives_bind {m : Script P F σ ε α} {f : α → Script P F σ ε β} {Mid : α → σ → Prop}
    (hm : Gives φ Pre m Mid) (hf : ∀ a, Gives φ (Mid a) (f a) Post) :
    Gives φ Pre (m >>= f) Post := by
  intro s b s' hs h
  obtain ⟨a, s₁, h₁, h₂⟩ := bind_eq_ok.1 h
  exact hf a s₁ b s' (hm s a s₁ hs h₁) h₂

/-- What a script keeps holds when it has a result. -/
theorem Steps.gives {R : σ → σ → Prop} {m : Script P F σ ε α} (hm : Steps φ Q R m) :
    Gives φ Q m fun _ => Q := by
  intro s a s' hs h
  have := (hm s hs).1
  rwa [h] at this

/-- In a loop, what a turn brings about and every turn keeps holds at the end. -/
theorem gives_forM (Pre : σ → Prop) (Q : β → σ → Prop) {f : β → Script P F σ ε Unit} {l : List β}
    (hpre : ∀ b ∈ l, Gives φ Pre (f b) fun _ => Pre)
    (hf : ∀ b ∈ l, Gives φ Pre (f b) fun _ => Q b)
    (hkeep : ∀ b ∈ l, ∀ c ∈ l, Gives φ (fun s => Pre s ∧ Q c s) (f b) fun _ => Q c) :
    Gives φ Pre (l.forM f) fun _ s => Pre s ∧ ∀ b ∈ l, Q b s := by
  suffices H : ∀ done rest, l = done ++ rest →
      Gives φ (fun s => Pre s ∧ ∀ b ∈ done, Q b s) (rest.forM f) fun _ s =>
        Pre s ∧ ∀ b ∈ l, Q b s by
    intro s a s' hs h
    exact H [] l rfl s a s' ⟨hs, fun b hb => absurd hb List.not_mem_nil⟩ h
  intro done rest
  induction rest generalizing done with
  | nil =>
    intro hl s a s' hs h
    obtain ⟨-, rfl⟩ := pure_eq_ok.1 h
    rw [hl, List.append_nil]
    exact hs
  | cons c rest ih =>
    intro hl s a s' hs h
    obtain ⟨u, s₁, h₁, h₂⟩ := bind_eq_ok.1 h
    have hc : c ∈ l := by rw [hl]; simp
    refine ih (done ++ [c]) (by simp [hl]) s₁ a s' ⟨hpre c hc s u s₁ hs.1 h₁, fun b hb => ?_⟩ h₂
    rcases List.mem_append.1 hb with hb | hb
    · have hb' : b ∈ l := by rw [hl]; exact List.mem_append_left _ hb
      exact hkeep c hc b hb' s u s₁ ⟨hs.1, hs.2 b hb⟩ h₁
    · rw [List.mem_singleton.1 hb]
      exact hf c hc s u s₁ hs.1 h₁

end Gives

end Scripts
