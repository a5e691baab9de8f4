import AgentDb.Lib.Program
import Mathlib.Data.List.Forall2

/-!
# What a program does whatever it is answered

A monitor watches the answers a program is given: it keeps a state of its own, and says of every
answer whether it may come at all and whether the program was right to have asked. `Follows` is
the judgment that a program does what its monitor allows, a recursion over the program like
`Keeps`, with one rule for each way to put programs together. `watched_of_reaches` replaces the
tasks of a pool by the states of their monitors, so that what holds of a pool is proved without
its programs.
-/

namespace Program

variable {C : Type} {A : C → Type} {α β ε δ σ M : Type}

/-- A watch over the answers of a task: the answers that may come, what they do to the state of
the monitor, and what it allows. -/
structure Monitor (C : Type) (A : C → Type) (M : Type) where
  may : (c : C) → A c → Prop
  next : M → (c : C) → A c → M
  allows : M → (c : C) → A c → Prop

/-- From `m` on the program does what the monitor allows, and ends with `Q`. -/
def Follows (w : Monitor C A M) (Q : α → M → Prop) : M → Program C A α → Prop
  | m, .done a => Q a m
  | m, .call c next => ∀ a, w.may c a → w.allows m c a ∧ Follows w Q (w.next m c a) (next a)

variable {w : Monitor C A M} {Q : α → M → Prop} {m : M}

@[simp] theorem follows_done {a : α} : Follows w Q m (.done a) ↔ Q a m := Iff.rfl

theorem follows_call {c : C} {next : A c → Program C A α} :
    Follows w Q m (.call c next) ↔
      ∀ a, w.may c a → w.allows m c a ∧ Follows w Q (w.next m c a) (next a) := Iff.rfl

theorem follows_perform {c : C} {Q : A c → M → Prop} :
    Follows w Q m (perform c) ↔ ∀ a, w.may c a → w.allows m c a ∧ Q a (w.next m c a) := Iff.rfl

theorem Follows.mono {Q' : α → M → Prop} {p : Program C A α} (h : Follows w Q m p)
    (hQ : ∀ a m, Q a m → Q' a m) : Follows w Q' m p := by
  induction p generalizing m with
  | done a => exact hQ a m h
  | call c next ih =>
    intro a ha
    obtain ⟨hallows, hnext⟩ := h a ha
    exact ⟨hallows, ih a hnext⟩

/-- What no answer changes is at the end what it was. -/
theorem Follows.fixed {γ : Type} {f : M → γ} (hf : ∀ m c a, f (w.next m c a) = f m)
    {p : Program C A α} (h : Follows w Q m p) : Follows w (fun a m' => Q a m' ∧ f m' = f m) m p := by
  induction p generalizing m with
  | done a => exact ⟨h, rfl⟩
  | call c next ih =>
    intro a ha
    obtain ⟨hallows, hnext⟩ := h a ha
    exact ⟨hallows, (ih a hnext).mono fun _ _ hm => ⟨hm.1, hm.2.trans (hf m c a)⟩⟩

/-- The rule for one program after the other. -/
theorem follows_bind {Q : β → M → Prop} {p : Program C A α} {f : α → Program C A β} :
    Follows w Q m (p.bind f) ↔ Follows w (fun a m => Follows w Q m (f a)) m p := by
  induction p generalizing m with
  | done a => exact Iff.rfl
  | call c next ih =>
    rw [call_bind, follows_call, follows_call]
    exact forall₂_congr fun a _ => and_congr_right fun _ => ih a

/-! ### Programs that may fail -/

section Failing

variable {Q : Except ε β → M → Prop}

theorem follows_pure {a : β} :
    Follows w Q m (pure a : ExceptT ε (Program C A) β).run ↔ Q (.ok a) m := Iff.rfl

theorem follows_throw {e : ε} :
    Follows w Q m (throw e : ExceptT ε (Program C A) β).run ↔ Q (.error e) m := Iff.rfl

/-- A step that only computes. -/
theorem follows_liftExcept {r : Except ε β} :
    Follows w Q m (liftM r : ExceptT ε (Program C A) β).run ↔ Q r m := by
  cases r <;> exact Iff.rfl

theorem follows_lift {p : Program C A β} :
    Follows w Q m (ExceptT.lift p : ExceptT ε (Program C A) β).run ↔
      Follows w (fun b m => Q (.ok b) m) m p := by
  change Follows w Q m (p.bind fun b => .done (.ok b)) ↔ _
  rw [follows_bind]
  exact Iff.rfl

theorem follows_attempt {Q : Except δ (Except ε β) → M → Prop}
    {p : ExceptT ε (Program C A) β} :
    Follows w Q m (ExceptT.lift p.run : ExceptT δ (Program C A) (Except ε β)).run ↔
      Follows w (fun r m => Q (.ok r) m) m p.run := follows_lift

/-- The rule for one step after the other: an error ends the program. -/
theorem follows_run_bind {R : Except ε α → M → Prop} {p : ExceptT ε (Program C A) α}
    {f : α → ExceptT ε (Program C A) β} (hp : Follows w R m p.run)
    (hok : ∀ a m, R (.ok a) m → Follows w Q m (f a).run)
    (herror : ∀ e m, R (.error e) m → Q (.error e) m) : Follows w Q m (p >>= f).run := by
  change Follows w Q m (Program.bind p.run (ExceptT.bindCont f))
  rw [follows_bind]
  refine hp.mono fun r m hr => ?_
  cases r with
  | ok a => exact hok a m hr
  | error e => exact herror e m hr

end Failing

/-! ### Pools of watched tasks -/

section Pools

variable (w) (sem : Semantics C A σ) (begins : M → Program C A α → Prop)

/-- What a pool does, seen by the monitors of its tasks. -/
inductive WatchStep : σ × List M → σ × List M → Prop
  | start {s : σ} {ms : List M} {m : M} {p : Program C A α} (hbegins : begins m p) :
      WatchStep (s, ms) (s, m :: ms)
  | answer {s s' b : σ} {before after : List M} {m : M} {c : C} {a : A c}
      (hcall : sem.calls b s c a s') (hallows : w.allows m c a) :
      WatchStep (s, before ++ m :: after) (s', before ++ w.next m c a :: after)
  | environment {s s' : σ} {ms : List M} (henvironment : sem.environment s s') :
      WatchStep (s, ms) (s', ms)

/-- Any number of such steps. -/
def Watches : σ × List M → σ × List M → Prop :=
  Relation.ReflTransGen (WatchStep w sem begins)

variable (Q) in
/-- The monitors follow the tasks of a pool. -/
def Watched (ms : List M) (pool : Pool C A α σ) : Prop :=
  List.Forall₂ (fun m t => Follows w Q m t.program) ms pool.tasks

variable {w sem begins} {starts : Program C A α → Prop}

theorem watched_of_step (hstarts : ∀ p, starts p → ∃ m, begins m p)
    (hbegins : ∀ m p, begins m p → Follows w Q m p)
    (hmay : ∀ b s c a s', sem.calls b s c a s' → w.may c a) {pool pool' : Pool C A α σ}
    {ms : List M} (hwatched : Watched w Q ms pool) (hstep : Step sem starts pool pool') :
    ∃ ms', Watched w Q ms' pool' ∧
      WatchStep w sem begins (pool.state, ms) (pool'.state, ms') := by
  cases hstep with
  | start hp =>
    obtain ⟨m, hm⟩ := hstarts _ hp
    exact ⟨m :: ms, .cons (hbegins m _ hm) hwatched, .start hm⟩
  | @answer s s' b before after h c a next hcall =>
    have hbefore := List.forall₂_take_append _ _ _ hwatched
    have hrest := List.forall₂_drop_append _ _ _ hwatched
    rw [← List.take_append_drop before.length ms]
    generalize ms.take before.length = msb at hbefore ⊢
    generalize ms.drop before.length = ms' at hrest ⊢
    cases hrest with
    | @cons m _ msa _ hm hafter =>
      obtain ⟨hallows, hnext⟩ := hm a (hmay b s c a s' hcall)
      exact ⟨msb ++ w.next m c a :: msa,
        List.rel_append hbefore (.cons hnext hafter), .answer hcall hallows⟩
  | environment henvironment => exact ⟨ms, hwatched, .environment henvironment⟩

/-- **A pool is what its monitors make of it**: they follow its tasks through any run. -/
theorem watched_of_reaches (hstarts : ∀ p, starts p → ∃ m, begins m p)
    (hbegins : ∀ m p, begins m p → Follows w Q m p)
    (hmay : ∀ b s c a s', sem.calls b s c a s' → w.may c a) {pool pool' : Pool C A α σ}
    {ms : List M} (hwatched : Watched w Q ms pool) (hreaches : Reaches sem starts pool pool') :
    ∃ ms', Watched w Q ms' pool' ∧ Watches w sem begins (pool.state, ms) (pool'.state, ms') := by
  induction hreaches with
  | refl => exact ⟨ms, hwatched, .refl⟩
  | tail _ hstep ih =>
    obtain ⟨ms', hwatched', hwatches⟩ := ih
    obtain ⟨ms'', hwatched'', hstep'⟩ := watched_of_step hstarts hbegins hmay hwatched' hstep
    exact ⟨ms'', hwatched'', hwatches.tail hstep'⟩

end Pools

end Program
