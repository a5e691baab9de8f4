import AgentDb.Lib.Program
import Mathlib.Tactic

/-!
# Tasks by name, and the traces they leave

Tasks run their programs side by side over one state, as in a pool, but every task has a name, and
a run leaves a trace: which task was given which answer, in the order of the answers. `Trace ok`
are the traces of which every entry is `ok` in the state it was made in. A task makes only the
calls its program can make (`Trace.makes`), and where the calls of a group of tasks neither see
nor touch what the others work on, the others might as well not have been there
(`Trace.restrict`).
-/

namespace Crew

open Program

variable {κ C α σ : Type} {A : C → Type}

/-- A task was given an answer. -/
structure Entry (κ C : Type) (A : C → Type) where
  task : κ
  call : C
  answer : A call

/-- The state, and what is left of the program of every task. -/
structure World (κ C : Type) (A : C → Type) (α σ : Type) where
  state : σ
  program : κ → Program C A α

/-- `answers s c a s'`: a call of `c` in `s` may be answered `a`, which leaves `s'`. -/
abbrev Answers (C : Type) (A : C → Type) (σ : Type) := σ → (c : C) → A c → σ → Prop

/-- All calls of a program, whatever it is answered. -/
def Makes (good : C → Prop) : Program C A α → Prop
  | .done _ => True
  | .call c next => good c ∧ ∀ a, Makes good (next a)

theorem Makes.mono {good good' : C → Prop} (hgood : ∀ c, good c → good' c) {p : Program C A α}
    (h : Makes good p) : Makes good' p := by
  induction p with
  | done a => trivial
  | call c next ih => exact ⟨hgood c h.1, fun a => ih a (h.2 a)⟩

theorem Makes.bind {β : Type} {good : C → Prop} {p : Program C A α} {f : α → Program C A β}
    (hp : Makes good p) (hf : ∀ a, Makes good (f a)) : Makes good (p.bind f) := by
  induction p with
  | done a => exact hf a
  | call c next ih => exact ⟨hp.1, fun a => ih a (hp.2 a)⟩

/-- A program over some calls, as one over more of them. -/
def embed {D : Type} {B : D → Type} (inj : C → D) (out : ∀ c, B (inj c) → A c) :
    Program C A α → Program D B α
  | .done a => .done a
  | .call c next => .call (inj c) fun b => embed inj out (next (out c b))

theorem makes_embed {D : Type} {B : D → Type} (inj : C → D) (out : ∀ c, B (inj c) → A c)
    (p : Program C A α) : Makes (fun d => ∃ c, d = inj c) (embed inj out p) := by
  induction p with
  | done a => trivial
  | call c next ih => exact ⟨⟨c, rfl⟩, fun b => ih (out c b)⟩

/-! ### What a task relies on -/

/-- What tasks that share a state agree on: what always holds, what each puts up with from the
others, and the calls each makes. -/
structure Code (κ C σ : Type) where
  inv : σ → Prop
  rely : κ → σ → σ → Prop
  good : κ → σ → C → Prop

/-- The code is kept by calls that are good where they are made. -/
structure Code.Sound (code : Code κ C σ) (answers : Answers C A σ) : Prop where
  refl : ∀ k s, code.rely k s s
  trans : ∀ k s s' s'', code.rely k s s' → code.rely k s' s'' → code.rely k s s''
  inv : ∀ k s c a s', code.inv s → code.good k s c → answers s c a s' → code.inv s'
  others : ∀ k k' s c a s', k ≠ k' → code.inv s → code.good k s c → answers s c a s' →
    code.rely k' s s'

/-- Whatever the others do, the program makes good calls only, and ends with `Q`. -/
def Keeps (answers : Answers C A σ) (code : Code κ C σ) (Q : σ → α → Prop) (k : κ) :
    Program C A α → σ → Prop
  | .done a, s => ∀ s', code.rely k s s' → code.inv s' → Q s' a
  | .call c next, s => ∀ s', code.rely k s s' → code.inv s' → code.good k s' c ∧
      ∀ a s'', answers s' c a s'' → Keeps answers code Q k (next a) s''

section Keeps

variable {answers : Answers C A σ} {code : Code κ C σ} {Q : κ → σ → α → Prop} {k : κ}

theorem Keeps.rely (hsound : code.Sound answers) {p : Program C A α} {s s' : σ}
    (h : Keeps answers code (Q k) k p s) (hrely : code.rely k s s') :
    Keeps answers code (Q k) k p s' := by
  cases p with
  | done a => exact fun s'' hrely' => h s'' (hsound.trans k s s' s'' hrely hrely')
  | call c next => exact fun s'' hrely' => h s'' (hsound.trans k s s' s'' hrely hrely')

/-- What a task has ended with. -/
theorem Keeps.done (hsound : code.Sound answers) {a : α} {s : σ} (hinv : code.inv s)
    (h : Keeps answers code (Q k) k (.done a) s) : Q k s a := h s (hsound.refl k s) hinv

/-- One program after the other. -/
theorem Keeps.bind {β : Type} {R : σ → β → Prop} {P : σ → α → Prop} (hsound : code.Sound answers)
    {p : Program C A α} {f : α → Program C A β} {s : σ} (hp : Keeps answers code P k p s)
    (hf : ∀ a s, code.inv s → P s a → Keeps answers code R k (f a) s) :
    Keeps answers code R k (p.bind f) s := by
  induction p generalizing s with
  | call c next ih =>
      intro s₁ hrely hinv
      obtain ⟨hgood, hnext⟩ := hp s₁ hrely hinv
      exact ⟨hgood, fun a s₂ ha => ih a (hnext a s₂ ha)⟩
  | done a =>
      -- What follows is kept from every state the rely leads to, so from this one.
      have hlater : ∀ s', code.rely k s s' → code.inv s' → Keeps answers code R k (f a) s' :=
        fun s' hrely hinv => hf a s' hinv (hp s' hrely hinv)
      rw [Program.done_bind]
      cases hfa : f a with
      | done b =>
          intro s' hrely hinv
          have hb := hlater s' hrely hinv
          rw [hfa] at hb
          exact hb s' (hsound.refl k s') hinv
      | call c next =>
          intro s' hrely hinv
          have hcall := hlater s' hrely hinv
          rw [hfa] at hcall
          exact hcall s' (hsound.refl k s') hinv

/-- One program that may fail after the other. -/
theorem Keeps.run_bind {β ε : Type} {R : σ → Except ε β → Prop} {P : σ → Except ε α → Prop}
    (hsound : code.Sound answers) {x : ExceptT ε (Program C A) α}
    {f : α → ExceptT ε (Program C A) β} {s : σ} (hx : Keeps answers code P k x.run s)
    (hok : ∀ a s, code.inv s → P s (.ok a) → Keeps answers code R k (f a).run s)
    (herror : ∀ e s, code.inv s → P s (.error e) → Keeps answers code R k (.done (.error e)) s) :
    Keeps answers code R k (x >>= f).run s := by
  refine hx.bind hsound fun result s hinv hresult => ?_
  cases result with
  | ok a => exact hok a s hinv hresult
  | error e => exact herror e s hinv hresult

/-- What is made of the result of a program. -/
theorem Keeps.map {β : Type} {P : σ → α → Prop} {p : Program C A α} {s : σ} (f : α → β)
    (h : Keeps answers code P k p s) :
    Keeps answers code (fun s b => ∃ a, b = f a ∧ P s a) k (p.bind fun a => .done (f a)) s := by
  induction p generalizing s with
  | done a => exact fun s' hrely hinv => ⟨a, rfl, h s' hrely hinv⟩
  | call c next ih =>
      intro s' hrely hinv
      obtain ⟨hgood, hnext⟩ := h s' hrely hinv
      exact ⟨hgood, fun a s'' ha => ih a (hnext a s'' ha)⟩

/-- A program that is run to its end, whatever it is. -/
theorem Keeps.attempt {ε : Type} {P : σ → Except ε α → Prop} {x : ExceptT ε (Program C A) α}
    {s : σ} (hx : Keeps answers code P k x.run s) :
    Keeps answers code (fun s (result : Except ε (Except ε α)) => ∃ a, result = .ok a ∧ P s a) k
      (Program.attempt x).run s :=
  hx.map Except.ok

/-- A program whose calls are all good. -/
theorem keeps_of_good (hgood : ∀ s c, code.good k s c) (p : Program C A α) (s : σ) :
    Keeps answers code (fun _ _ => True) k p s := by
  induction p generalizing s with
  | done a => exact fun _ _ _ => trivial
  | call c next ih => exact fun s' _ _ => ⟨hgood s' c, fun a s'' _ => ih a s''⟩

theorem Keeps.mono {P P' : σ → α → Prop} (hmono : ∀ s a, P s a → P' s a) {p : Program C A α}
    {s : σ} (h : Keeps answers code P k p s) : Keeps answers code P' k p s := by
  induction p generalizing s with
  | done a => exact fun s' hrely hinv => hmono s' a (h s' hrely hinv)
  | call c next ih =>
      intro s' hrely hinv
      obtain ⟨hgood, hnext⟩ := h s' hrely hinv
      exact ⟨hgood, fun a s'' ha => ih a (hnext a s'' ha)⟩

/-- What neither the others nor the own calls undo holds at the end. -/
theorem Keeps.and {P : σ → α → Prop} {R : σ → Prop} (hrely : ∀ s s', code.rely k s s' → R s → R s')
    (hcalls : ∀ s c a s', answers s c a s' → R s → R s') {p : Program C A α} {s : σ}
    (h : Keeps answers code P k p s) (hR : R s) :
    Keeps answers code (fun s a => P s a ∧ R s) k p s := by
  induction p generalizing s with
  | done a => exact fun s' hr hinv => ⟨h s' hr hinv, hrely s s' hr hR⟩
  | call c next ih =>
      intro s' hr hinv
      obtain ⟨hgood, hnext⟩ := h s' hr hinv
      exact ⟨hgood, fun a s'' ha => ih a (hnext a s'' ha) (hcalls _ _ _ _ ha (hrely s s' hr hR))⟩

/-- A program over some calls keeps the code over more of them. -/
theorem Keeps.embed {D : Type} {B : D → Type} (inj : C → D) (out : ∀ c, B (inj c) → A c)
    {answers' : Answers D B σ} {code' : Code κ D σ} {P : σ → α → Prop}
    (hinv : code'.inv = code.inv) (hrely : code'.rely = code.rely)
    (hgood : ∀ s c, code.good k s c → code'.good k s (inj c))
    (hanswers : ∀ s c b s', answers' s (inj c) b s' → answers s c (out c b) s')
    {p : Program C A α} {s : σ} (h : Keeps answers code P k p s) :
    Keeps answers' code' P k (Crew.embed inj out p) s := by
  induction p generalizing s with
  | done a =>
      intro s' hr hi
      rw [hrely] at hr
      rw [hinv] at hi
      exact h s' hr hi
  | call c next ih =>
      intro s' hr hi
      rw [hrely] at hr
      rw [hinv] at hi
      obtain ⟨hc, hnext⟩ := h s' hr hi
      exact ⟨hgood s' c hc, fun b s'' hb => ih _ (hnext _ s'' (hanswers s' c b s'' hb))⟩

end Keeps

/-! ### Steps -/

variable [DecidableEq κ]

/-- Task `k` goes on with `p`, in the state `s`. -/
def World.goOn (w : World κ C A α σ) (k : κ) (p : Program C A α) (s : σ) : World κ C A α σ :=
  ⟨s, Function.update w.program k p⟩

@[simp] theorem World.goOn_state (w : World κ C A α σ) (k : κ) (p : Program C A α) (s : σ) :
    (w.goOn k p s).state = s := rfl

@[simp] theorem World.goOn_program_self (w : World κ C A α σ) (k : κ) (p : Program C A α) (s : σ) :
    (w.goOn k p s).program k = p := Function.update_self ..

theorem World.goOn_program_of_ne (w : World κ C A α σ) {k k' : κ} (hne : k' ≠ k)
    (p : Program C A α) (s : σ) : (w.goOn k p s).program k' = w.program k' :=
  Function.update_of_ne hne ..

/-- One answer. -/
inductive Step (answers : Answers C A σ) :
    World κ C A α σ → Entry κ C A → World κ C A α σ → Prop
  | answer {w : World κ C A α σ} {k : κ} {c : C} {a : A c} {next : A c → Program C A α} {s' : σ}
      (hprogram : w.program k = .call c next) (hanswer : answers w.state c a s') :
      Step answers w ⟨k, c, a⟩ (w.goOn k (next a) s')

/-- A run, with its trace. -/
inductive Trace (answers : Answers C A σ) (ok : World κ C A α σ → Entry κ C A → Prop) :
    World κ C A α σ → List (Entry κ C A) → World κ C A α σ → Prop
  | nil (w : World κ C A α σ) : Trace answers ok w [] w
  | cons {w w₁ w' : World κ C A α σ} {e : Entry κ C A} {es : List (Entry κ C A)} (hok : ok w e)
      (first : Step answers w e w₁) (rest : Trace answers ok w₁ es w') :
      Trace answers ok w (e :: es) w'

variable {answers : Answers C A σ} {ok ok' : World κ C A α σ → Entry κ C A → Prop}
  {w w₁ w' : World κ C A α σ} {e : Entry κ C A} {es es' : List (Entry κ C A)} {k : κ}

/-! ### Traces -/

theorem Trace.append (h : Trace answers ok w es w₁) (h' : Trace answers ok w₁ es' w') :
    Trace answers ok w (es ++ es') w' := by
  induction h with
  | nil w => exact h'
  | cons hok first _ ih => exact .cons hok first (ih h')

theorem Trace.split (h : Trace answers ok w (es ++ es') w') :
    ∃ w₁, Trace answers ok w es w₁ ∧ Trace answers ok w₁ es' w' := by
  induction es generalizing w with
  | nil => exact ⟨w, .nil w, h⟩
  | cons e es ih =>
    cases h with
    | cons hok first rest =>
      obtain ⟨w₁, hes, hes'⟩ := ih rest
      exact ⟨w₁, .cons hok first hes, hes'⟩

theorem Trace.mono (hmono : ∀ w e, ok w e → ok' w e) (h : Trace answers ok w es w') :
    Trace answers ok' w es w' := by
  induction h with
  | nil w => exact .nil w
  | cons hok first _ ih => exact .cons (hmono _ _ hok) first ih

/-- A run whose answers are all of a narrower kind. -/
theorem Trace.narrow {answers' : Answers C A σ} {P : Entry κ C A → Prop}
    (hnarrow : ∀ w e s', ok w e → P e → answers w.state e.call e.answer s' →
      answers' w.state e.call e.answer s')
    (h : Trace answers ok w es w') (hentries : ∀ e ∈ es, P e) : Trace answers' ok w es w' := by
  induction h with
  | nil w => exact .nil w
  | cons hok first _ ih =>
    obtain ⟨hP, hrest⟩ := List.forall_mem_cons.1 hentries
    cases first with
    | answer hprogram hanswer =>
      exact .cons hok (.answer hprogram (hnarrow _ _ _ hok hP hanswer)) (ih hrest)

/-- What every step keeps, given what is known of its entry, a run keeps. -/
theorem Trace.invariant {Inv : World κ C A α σ → Prop} {P : Entry κ C A → Prop}
    (hstep : ∀ w e w', Inv w → ok w e → P e → Step answers w e w' → Inv w')
    (h : Trace answers ok w es w') (hentries : ∀ e ∈ es, P e) (hinv : Inv w) : Inv w' := by
  induction h with
  | nil w => exact hinv
  | cons hok first _ ih =>
    obtain ⟨hP, hentries⟩ := List.forall_mem_cons.1 hentries
    exact ih hentries (hstep _ _ _ hinv hok hP first)

/-! ### Programs -/

/-- The task of a step was waiting for the answer, and goes on with it. -/
theorem Step.task (h : Step answers w e w') : ∃ next, w.program e.task = .call e.call next ∧
    answers w.state e.call e.answer w'.state ∧ w'.program e.task = next e.answer := by
  cases h with
  | @answer k c a next s' hprogram hanswer =>
    exact ⟨next, hprogram, hanswer, w.goOn_program_self k _ _⟩

theorem Step.program_of_ne (h : Step answers w e w') (hne : k ≠ e.task) :
    w'.program k = w.program k := by
  cases h with
  | answer hprogram hanswer => exact w.goOn_program_of_ne hne _ _

/-- A task that is not in the trace has not moved. -/
theorem Trace.program_of_forall_ne (h : Trace answers ok w es w') (hne : ∀ e ∈ es, k ≠ e.task) :
    w'.program k = w.program k := by
  induction h with
  | nil w => rfl
  | cons hok first _ ih =>
    obtain ⟨hfirst, hrest⟩ := List.forall_mem_cons.1 hne
    exact (ih hrest).trans (first.program_of_ne hfirst)

/-- A task that has ended stays so. -/
theorem Step.program_done {a : α} (h : Step answers w e w') (hdone : w.program k = .done a) :
    w'.program k = .done a := by
  cases h with
  | @answer k' c b next s' hprogram hanswer =>
    have hne : k ≠ k' := by
      rintro rfl
      rw [hdone] at hprogram
      cases hprogram
    exact (w.goOn_program_of_ne hne _ _).trans hdone

theorem Step.makes {good : κ → C → Prop} (h : Step answers w e w')
    (hmakes : ∀ k, Makes (good k) (w.program k)) :
    good e.task e.call ∧ ∀ k, Makes (good k) (w'.program k) := by
  cases h with
  | @answer k c a next s' hprogram hanswer =>
    have hcall : Makes (good k) (.call c next) := hprogram ▸ hmakes k
    refine ⟨hcall.1, fun k' => ?_⟩
    by_cases hk : k' = k
    · subst hk
      rw [w.goOn_program_self]
      exact hcall.2 a
    · rw [w.goOn_program_of_ne hk]
      exact hmakes k'

theorem Trace.makes {good : κ → C → Prop} (h : Trace answers ok w es w')
    (hmakes : ∀ k, Makes (good k) (w.program k)) : ∀ k, Makes (good k) (w'.program k) := by
  induction h with
  | nil w => exact hmakes
  | cons hok first _ ih => exact ih (first.makes hmakes).2

/-- The calls of a run are those that its programs make. -/
theorem Trace.calls {good : κ → C → Prop} (h : Trace answers ok w es w')
    (hmakes : ∀ k, Makes (good k) (w.program k)) : ∀ e ∈ es, good e.task e.call := by
  induction h with
  | nil w => simp
  | cons hok first _ ih =>
    obtain ⟨hcall, hmakes'⟩ := first.makes hmakes
    exact List.forall_mem_cons.2 ⟨hcall, ih hmakes'⟩

/-- What may be left of a program after some answers. -/
inductive Residual : Program C A α → Program C A α → Prop
  | refl (p : Program C A α) : Residual p p
  | answer {c : C} {next : A c → Program C A α} (a : A c) {q : Program C A α}
      (rest : Residual (next a) q) : Residual (.call c next) q

theorem residual_done {a : α} {q : Program C A α} : Residual (.done a) q ↔ q = .done a := by
  constructor
  · intro h
    cases h with
    | refl => rfl
  · rintro rfl
    exact .refl _

theorem residual_call {c : C} {next : A c → Program C A α} {q : Program C A α} :
    Residual (.call c next) q ↔ q = .call c next ∨ ∃ a, Residual (next a) q := by
  constructor
  · intro h
    cases h with
    | refl => exact .inl rfl
    | answer a rest => exact .inr ⟨a, rest⟩
  · rintro (rfl | ⟨a, rest⟩)
    · exact .refl _
    · exact .answer a rest

theorem Step.residual (h : Step answers w e w') {q : Program C A α}
    (hq : Residual (w'.program k) q) : Residual (w.program k) q := by
  cases h with
  | @answer k' c a next s' hprogram hanswer =>
    by_cases hk : k = k'
    · subst hk
      rw [w.goOn_program_self] at hq
      rw [hprogram]
      exact .answer a hq
    · rw [w.goOn_program_of_ne hk] at hq
      exact hq

theorem Trace.residual (h : Trace answers ok w es w') (k : κ) :
    Residual (w.program k) (w'.program k) := by
  induction h with
  | nil w => exact .refl _
  | cons hok first _ ih => exact first.residual ih

/-! ### One task on its own -/

/-- Task `k` can be given answers, with none of the other tasks in between, that take it from `p`
in the state `s` to `p'` in `s'`. -/
def Alone (answers : Answers C A σ) (k : κ) (p : Program C A α) (s : σ) (p' : Program C A α)
    (s' : σ) : Prop :=
  ∀ w : World κ C A α σ, w.program k = p → w.state = s →
    ∃ es, Trace answers (fun _ _ => True) w es (w.goOn k p' s')

theorem World.goOn_self (w : World κ C A α σ) (k : κ) : w.goOn k (w.program k) w.state = w := by
  rw [World.goOn, Function.update_eq_self]

theorem World.goOn_goOn (w : World κ C A α σ) (k : κ) (p p' : Program C A α) (s s' : σ) :
    (w.goOn k p s).goOn k p' s' = w.goOn k p' s' := by
  rw [World.goOn, World.goOn, World.goOn, Function.update_idem]

theorem Alone.refl (k : κ) (p : Program C A α) (s : σ) : Alone answers k p s p s := by
  rintro w rfl rfl
  refine ⟨[], ?_⟩
  rw [w.goOn_self]
  exact .nil w

theorem Alone.call {c : C} {next : A c → Program C A α} {p' : Program C A α} {s s₁ s' : σ}
    (a : A c) (hanswer : answers s c a s₁) (hrest : Alone answers k (next a) s₁ p' s') :
    Alone answers k (.call c next) s p' s' := by
  rintro w hprogram rfl
  obtain ⟨es, htrace⟩ := hrest (w.goOn k (next a) s₁) (w.goOn_program_self k _ _) rfl
  rw [w.goOn_goOn] at htrace
  exact ⟨_, .cons trivial (.answer hprogram hanswer) htrace⟩

theorem Alone.trans {p p' p'' : Program C A α} {s s' s'' : σ} (h : Alone answers k p s p' s')
    (h' : Alone answers k p' s' p'' s'') : Alone answers k p s p'' s'' := by
  intro w hprogram hstate
  obtain ⟨es, htrace⟩ := h w hprogram hstate
  obtain ⟨es', htrace'⟩ := h' (w.goOn k p' s') (w.goOn_program_self k _ _) rfl
  rw [w.goOn_goOn] at htrace'
  exact ⟨es ++ es', htrace.append htrace'⟩

/-! ### Tasks that keep the code -/

section Keeps

variable {code : Code κ C σ} {Q : κ → σ → α → Prop}

/-- The call of a step is good. -/
theorem Step.good (hsound : code.Sound answers) (h : Step answers w e w')
    (hinv : code.inv w.state) (hkeeps : ∀ k, Keeps answers code (Q k) k (w.program k) w.state) :
    code.good e.task w.state e.call := by
  obtain ⟨next, hprogram, -⟩ := h.task
  have hkeep := hkeeps e.task
  rw [hprogram] at hkeep
  exact (hkeep w.state (hsound.refl _ _) hinv).1

theorem Step.keeps (hsound : code.Sound answers) (h : Step answers w e w')
    (hinv : code.inv w.state) (hkeeps : ∀ k, Keeps answers code (Q k) k (w.program k) w.state) :
    code.inv w'.state ∧ ∀ k, Keeps answers code (Q k) k (w'.program k) w'.state := by
  have hgood := h.good hsound hinv hkeeps
  obtain ⟨next, hprogram, hanswer, hnext⟩ := h.task
  refine ⟨hsound.inv _ _ _ _ _ hinv hgood hanswer, fun k => ?_⟩
  by_cases hk : k = e.task
  · subst hk
    have hkeep := hkeeps e.task
    rw [hprogram] at hkeep
    rw [hnext]
    exact (hkeep w.state (hsound.refl _ _) hinv).2 e.answer w'.state hanswer
  · rw [h.program_of_ne hk]
    exact (hkeeps k).rely hsound (hsound.others _ _ _ _ _ _ (Ne.symm hk) hinv hgood hanswer)

/-- **Tasks that each keep the code keep it together.** -/
theorem Trace.keeps (hsound : code.Sound answers) (h : Trace answers ok w es w')
    (hinv : code.inv w.state) (hkeeps : ∀ k, Keeps answers code (Q k) k (w.program k) w.state) :
    code.inv w'.state ∧ ∀ k, Keeps answers code (Q k) k (w'.program k) w'.state := by
  induction h with
  | nil w => exact ⟨hinv, hkeeps⟩
  | cons hok first _ ih =>
    obtain ⟨hinv', hkeeps'⟩ := first.keeps hsound hinv hkeeps
    exact ih hinv' hkeeps'

end Keeps

/-! ### Tasks that work apart -/

/-- `near s s'`: the two states agree in what a group of tasks works on. The calls of the group go
alike in both, and the calls of the others leave what it works on as it is. -/
structure Apart (answers : Answers C A σ) (near : σ → σ → Prop) (mine : C → Prop) : Prop where
  alike : ∀ s₁ s₂ c a s₁', near s₁ s₂ → mine c → answers s₁ c a s₁' →
    ∃ s₂', answers s₂ c a s₂' ∧ near s₁' s₂'
  untouched : ∀ s₁ s₂ c a s₁', near s₁ s₂ → ¬ mine c → answers s₁ c a s₁' → near s₁' s₂

/-- **What a group of tasks does is what it would have done alone.** -/
theorem Trace.restrict {near : σ → σ → Prop} {mine : C → Prop} (group : κ → Prop)
    [DecidablePred group] (hapart : Apart answers near mine)
    (h : Trace answers (fun _ _ => True) w es w')
    (hmakes : ∀ k, Makes (fun c => mine c ↔ group k) (w.program k)) {v : World κ C A α σ}
    (hnear : near w.state v.state) (hprogram : ∀ k, group k → v.program k = w.program k) :
    ∃ v', Trace answers (fun _ _ => True) v (es.filter fun e => group e.task) v' ∧
      near w'.state v'.state ∧ ∀ k, group k → v'.program k = w'.program k := by
  induction h generalizing v with
  | nil w => exact ⟨v, .nil v, hnear, hprogram⟩
  | @cons w w₁ w' e es hok first rest ih =>
    obtain ⟨hcall, hmakes'⟩ := first.makes hmakes
    cases first with
    | @answer k c a next s' hk hanswer =>
      by_cases hgroup : group k
      · obtain ⟨t, hanswer', hnear'⟩ :=
          hapart.alike _ _ c a s' hnear (hcall.2 hgroup) hanswer
        have hfirst : Step answers v ⟨k, c, a⟩ (v.goOn k (next a) t) :=
          .answer ((hprogram k hgroup).trans hk) hanswer'
        obtain ⟨v', htrace, hend⟩ := ih hmakes'
          (v := v.goOn k (next a) t) hnear' fun k' hk' => by
            by_cases heq : k' = k
            · subst heq
              rw [v.goOn_program_self, World.goOn_program_self]
            · rw [v.goOn_program_of_ne heq, World.goOn_program_of_ne _ heq, hprogram k' hk']
        refine ⟨v', ?_, hend⟩
        rw [List.filter_cons_of_pos (by simpa using hgroup)]
        exact .cons trivial hfirst htrace
      · have hnear' : near s' v.state :=
          hapart.untouched _ _ c a s' hnear (fun hmine => hgroup (hcall.1 hmine)) hanswer
        obtain ⟨v', htrace, hend⟩ := ih hmakes' (v := v) hnear' fun k' hk' => by
          have hne : k' ≠ k := by
            rintro rfl
            exact hgroup hk'
          rw [World.goOn_program_of_ne _ hne, hprogram k' hk']
        refine ⟨v', ?_, hend⟩
        rw [List.filter_cons_of_neg (by simpa using hgroup)]
        exact htrace

end Crew
