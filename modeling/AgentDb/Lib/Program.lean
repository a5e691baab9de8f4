import Mathlib.Logic.Relation

/-!
# Programs that wait for answers

A program has ended, or it waits for the answer to a call. Tasks run their programs side by side
over one state: an answer is one step of the state, and between two answers of a task any other
task and the environment may go on. `Keeps` says what a task does on its own, whatever the others
do between its answers as long as they stay within its rely; it is a recursion over the program,
so it is proved along the text of the program. `keeps_of_reaches` composes it to pools of tasks.
-/

/-- A program over calls `C` that are answered in `A`. -/
inductive Program (C : Type) (A : C → Type) (α : Type)
  | done (result : α)
  | call (c : C) (next : A c → Program C A α)

namespace Program

variable {C : Type} {A : C → Type} {α β ε σ : Type}

/-- One program after the other. -/
def bind : Program C A α → (α → Program C A β) → Program C A β
  | .done a, f => f a
  | .call c next, f => .call c fun a => (next a).bind f

instance : Monad (Program C A) where
  pure := .done
  bind := bind

@[simp] theorem done_bind (a : α) (f : α → Program C A β) : (done a).bind f = f a := rfl

@[simp] theorem call_bind (c : C) (next : A c → Program C A α) (f : α → Program C A β) :
    (call c next).bind f = call c fun a => (next a).bind f := rfl

/-- A single call. -/
def perform (c : C) : Program C A (A c) := .call c .done

/-- A program that may fail is run to its end, whatever it is. -/
def attempt (p : ExceptT ε (Program C A) α) : ExceptT ε (Program C A) (Except ε α) :=
  ExceptT.lift p.run

/-! ### Programs on their own -/

/-- The run of a program whose calls are answered by a function of the state. -/
def handle (answer : (c : C) → σ → A c × σ) : Program C A α → σ → α × σ
  | .done a, s => (a, s)
  | .call c next, s => (next (answer c s).1).handle answer (answer c s).2

section Handle

variable (answer : (c : C) → σ → A c × σ) (s : σ)

@[simp] theorem handle_done (a : α) : (done a : Program C A α).handle answer s = (a, s) := rfl

@[simp] theorem handle_perform (c : C) :
    (perform c : Program C A (A c)).handle answer s = answer c s := rfl

theorem handle_bind (p : Program C A α) (f : α → Program C A β) :
    (p.bind f).handle answer s =
      (f (p.handle answer s).1).handle answer (p.handle answer s).2 := by
  induction p generalizing s with
  | done a => rfl
  | call c next ih => exact ih (answer c s).1 (answer c s).2

end Handle

/-! ### Tasks over a shared state -/

/-- What the answers and the environment do to the state. `calls b s c a s'`: a task that began in
`b` is answered `a` to `c` in `s`, which leaves `s'`. -/
structure Semantics (C : Type) (A : C → Type) (σ : Type) where
  calls : σ → σ → (c : C) → A c → σ → Prop
  environment : σ → σ → Prop

/-- The answers a task has been given. -/
abbrev History (A : C → Type) := List (Sigma A)

/-- A task, with the state it began in. -/
structure Task (C : Type) (A : C → Type) (α σ : Type) where
  begun : σ
  history : History A
  program : Program C A α

/-- Tasks over one state. -/
structure Pool (C : Type) (A : C → Type) (α σ : Type) where
  state : σ
  tasks : List (Task C A α σ)

variable (sem : Semantics C A σ) (starts : Program C A α → Prop)

/-- One step of a pool. -/
inductive Step : Pool C A α σ → Pool C A α σ → Prop
  | start {s : σ} {tasks : List (Task C A α σ)} {p : Program C A α} (hstarts : starts p) :
      Step ⟨s, tasks⟩ ⟨s, ⟨s, [], p⟩ :: tasks⟩
  | answer {s s' b : σ} {before after : List (Task C A α σ)} {h : History A} {c : C} {a : A c}
      {next : A c → Program C A α} (hcall : sem.calls b s c a s') :
      Step ⟨s, before ++ ⟨b, h, .call c next⟩ :: after⟩
        ⟨s', before ++ ⟨b, h ++ [⟨c, a⟩], next a⟩ :: after⟩
  | environment {s s' : σ} {tasks : List (Task C A α σ)} (henvironment : sem.environment s s') :
      Step ⟨s, tasks⟩ ⟨s', tasks⟩

/-- Any number of steps. -/
def Reaches : Pool C A α σ → Pool C A α σ → Prop := Relation.ReflTransGen (Step sem starts)

/-! ### What a task keeps -/

/-- What tasks agree on: what holds between any two steps, what a task puts up with and what it
does itself, each given the answers it has had. -/
structure Discipline (A : C → Type) (σ : Type) where
  inv : σ → Prop
  rely : History A → σ → σ → Prop
  guarantee : History A → σ → σ → Prop

/-- The rely of a task is a preorder. -/
structure Discipline.Stable (d : Discipline A σ) : Prop where
  refl : ∀ h s, d.rely h s s
  trans : ∀ h s s' s'', d.rely h s s' → d.rely h s' s'' → d.rely h s s''

variable (d : Discipline A σ) (Q : History A → α → σ → Prop)

/-- A task that began in `b` and was answered `h` keeps the discipline and ends with `Q`. -/
def Keeps (b : σ) : History A → Program C A α → σ → Prop
  | h, .done a, s => ∀ s', d.rely h s s' → d.inv s' → Q h a s'
  | h, .call c next, s => ∀ s', d.rely h s s' → d.inv s' → ∀ a s'', sem.calls b s' c a s'' →
      d.inv s'' ∧ d.guarantee (h ++ [⟨c, a⟩]) s' s'' ∧ Keeps b (h ++ [⟨c, a⟩]) (next a) s''

variable {sem} {starts} {d} {Q} {b s s' : σ} {h : History A} {p : Program C A α}

theorem keeps_done {a : α} :
    Keeps sem d Q b h (.done a) s ↔ ∀ s', d.rely h s s' → d.inv s' → Q h a s' := Iff.rfl

theorem keeps_call {c : C} {next : A c → Program C A α} :
    Keeps sem d Q b h (.call c next) s ↔ ∀ s', d.rely h s s' → d.inv s' → ∀ a s'',
      sem.calls b s' c a s'' → d.inv s'' ∧ d.guarantee (h ++ [⟨c, a⟩]) s' s'' ∧
        Keeps sem d Q b (h ++ [⟨c, a⟩]) (next a) s'' := Iff.rfl

/-- The others go on within the rely. -/
theorem Keeps.rely (hstable : d.Stable) (hkeeps : Keeps sem d Q b h p s) (hrely : d.rely h s s') :
    Keeps sem d Q b h p s' := by
  cases p with
  | done a => exact fun s'' hrely' => hkeeps s'' (hstable.trans h s s' s'' hrely hrely')
  | call c next => exact fun s'' hrely' => hkeeps s'' (hstable.trans h s s' s'' hrely hrely')

theorem Keeps.mono {Q' : History A → α → σ → Prop} (hQ : ∀ h a s, Q h a s → Q' h a s)
    (hkeeps : Keeps sem d Q b h p s) : Keeps sem d Q' b h p s := by
  induction p generalizing h s with
  | done a => exact fun s' hrely hinv => hQ h a s' (hkeeps s' hrely hinv)
  | call c next ih =>
    intro s' hrely hinv a s'' hcall
    obtain ⟨hinv', hguarantee, hnext⟩ := hkeeps s' hrely hinv a s'' hcall
    exact ⟨hinv', hguarantee, ih a hnext⟩

/-- The rule for one program after the other. -/
theorem keeps_bind {p : Program C A β} {f : β → Program C A α} (hstable : d.Stable)
    (hinv : d.inv s)
    (hp : Keeps sem d (fun h a s => Keeps sem d Q b h (f a) s) b h p s) :
    Keeps sem d Q b h (p.bind f) s := by
  induction p generalizing h s with
  | done a => exact hp s (hstable.refl h s) hinv
  | call c next ih =>
    intro s' hrely hinv a s'' hcall
    obtain ⟨hinv', hguarantee, hnext⟩ := hp s' hrely hinv a s'' hcall
    exact ⟨hinv', hguarantee, ih a hinv' hnext⟩

/-! ### Pools -/

/-- **A pool of tasks that each keep the discipline keeps it together**, when what one of them
does is within the rely of every other. -/
theorem keeps_of_reaches {Q : σ → History A → α → σ → Prop} (hstable : d.Stable)
    (hothers : ∀ h h' s s', d.guarantee h s s' → d.rely h' s s')
    (henvironment : ∀ s s', d.inv s → sem.environment s s' → d.inv s' ∧ ∀ h, d.rely h s s')
    (hstarts : ∀ p s, starts p → d.inv s → Keeps sem d (Q s) s [] p s) {pool pool' : Pool C A α σ}
    (hinv : d.inv pool.state)
    (htasks : ∀ t ∈ pool.tasks,
      Keeps sem d (Q t.begun) t.begun t.history t.program pool.state)
    (hreaches : Reaches sem starts pool pool') :
    d.inv pool'.state ∧ ∀ t ∈ pool'.tasks,
      Keeps sem d (Q t.begun) t.begun t.history t.program pool'.state := by
  induction hreaches with
  | refl => exact ⟨hinv, htasks⟩
  | tail _ hstep ih =>
    obtain ⟨hinv, htasks⟩ := ih
    cases hstep with
    | start hp =>
      refine ⟨hinv, List.forall_mem_cons.2 ⟨hstarts _ _ hp hinv, htasks⟩⟩
    | @answer s s' b before after h c a next hcall =>
      obtain ⟨hinv', hguarantee, hnext⟩ := htasks ⟨b, h, .call c next⟩
        (List.mem_append_right _ List.mem_cons_self) s (hstable.refl h s) hinv a s' hcall
      refine ⟨hinv', fun t ht => ?_⟩
      rcases List.mem_append.1 ht with ht | ht
      · exact (htasks t (List.mem_append_left _ ht)).rely hstable
          (hothers _ t.history s s' hguarantee)
      · rcases List.mem_cons.1 ht with rfl | ht
        · exact hnext
        · exact (htasks t (List.mem_append_right _ (List.mem_cons_of_mem _ ht))).rely hstable
            (hothers _ t.history s s' hguarantee)
    | environment hstep =>
      obtain ⟨hinv', hrely⟩ := henvironment _ _ hinv hstep
      exact ⟨hinv', fun t ht => (htasks t ht).rely hstable (hrely t.history)⟩

/-- What a task of such a pool has ended with. -/
theorem ended_of_keeps {a : α} (hstable : d.Stable) (hinv : d.inv s)
    (hkeeps : Keeps sem d Q b h (.done a) s) : Q h a s := hkeeps s (hstable.refl h s) hinv

/-! ### Runs of one task -/

variable (sem) in
/-- A task is given answers, with nothing in between. -/
inductive Answers (b : σ) : History A → Program C A α → σ → History A → Program C A α → σ → Prop
  | refl (h : History A) (p : Program C A α) (s : σ) : Answers b h p s h p s
  | head {h h' : History A} {c : C} {a : A c} {next : A c → Program C A α} {p' : Program C A α}
      {s s' s'' : σ} (hcall : sem.calls b s c a s')
      (hrest : Answers b (h ++ [⟨c, a⟩]) (next a) s' h' p' s'') :
      Answers b h (.call c next) s h' p' s''

/-- The answers of one task are steps of its pool. -/
theorem Answers.reaches {h' : History A} {p' : Program C A α}
    (hanswers : Answers sem b h p s h' p' s') (before after : List (Task C A α σ)) :
    Reaches sem starts ⟨s, before ++ ⟨b, h, p⟩ :: after⟩ ⟨s', before ++ ⟨b, h', p'⟩ :: after⟩ := by
  induction hanswers with
  | refl h p s => exact .refl
  | head hcall _ ih => exact .head (.answer hcall) ih

end Program
