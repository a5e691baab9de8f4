import AgentDb.Lib.Transaction

/-!
# Transactions statement by statement

`Tx` takes for granted that a failure undoes everything. Here a call talks to the database one
statement after the other: what it writes stays in a working copy until its `commit`, and a call
that ends without one, for whatever reason, leaves only what it has committed. Any statement may
fail; which of them do is part of the session. `Settles` says that a call meets the transaction it
is meant to be, and the rules follow the statements of a call.
-/

universe u

/-- The transaction of a call: what the database holds, what the call has made of it so far, and
for each of the next statements whether it fails. -/
structure Session (σ ε : Type u) where
  committed : σ
  working : σ
  faults : List (Option ε)

/-- A call that may end early, with what it has done so far. -/
abbrev SessionM (σ ε : Type u) := ExceptT ε (StateM (Session σ ε))

namespace Tx

variable {σ ε α : Type u} {s : σ}

theorem get_bind (f : σ → Tx σ ε α) : ((get : Tx σ ε σ) >>= f) s = f s s := rfl

theorem set_bind (s' : σ) (f : PUnit → Tx σ ε α) : ((set s' : Tx σ ε PUnit) >>= f) s = f ⟨⟩ s' :=
  rfl

theorem refuseIf_bind {c : Prop} [Decidable c] (e : ε) (f : PUnit → Tx σ ε α) :
    ((liftM (refuseIf c e) : Tx σ ε PUnit) >>= f) s = if c then .error e else f ⟨⟩ s := by
  unfold refuseIf
  split_ifs <;> rfl

end Tx

namespace SessionM

variable {σ ε α β : Type u}

/-- One request to the database, which fails if it is the turn of a fault. -/
def request (f : Session σ ε → Except ε (α × Session σ ε)) : SessionM σ ε α := fun s =>
  let s' := { s with faults := s.faults.tail }
  match s.faults.head?.join with
  | some e => (.error e, s')
  | none =>
      match f s' with
      | .ok (a, s'') => (.ok a, s'')
      | .error e => (.error e, s')

/-- A statement on the working copy. -/
def statement (m : Tx σ ε α) : SessionM σ ε α :=
  request fun s => (m s.working).map fun p => (p.1, { s with working := p.2 })

/-- `BEGIN`. -/
def beginTx : SessionM σ ε PUnit := statement (pure ⟨⟩)

/-- `COMMIT`. -/
def commit : SessionM σ ε PUnit := request fun s => .ok (⟨⟩, { s with committed := s.working })

/-- A call on a connection of its own: its result, and what the database holds after it. -/
def perform (m : SessionM σ ε α) (faults : List (Option ε)) (s : σ) : Except ε α × σ :=
  let (r, s') := m.run ⟨s, s, faults⟩
  (r, s'.committed)

/-! ### Before the commit -/

/-- A part of a call without a commit: it computes what the transaction computes or fails, and it
fails only where the transaction does if no statement fails by itself. -/
structure Follows (m' : SessionM σ ε α) (m : Tx σ ε α) : Prop where
  ok : ∀ {s s' a}, m'.run s = (.ok a, s') → m s.working = .ok (a, s'.working) ∧
    s'.committed = s.committed ∧ (s.faults = [] → s'.faults = [])
  error : ∀ {s s' e}, m'.run s = (.error e, s') → s'.committed = s.committed ∧
    (s.faults = [] → m s.working = .error e)

/-- A call: it commits what the transaction makes of the database, whose result it reports, or it
fails and leaves the database as it is. It does the latter only where the transaction fails if no
statement fails by itself. -/
def Settles (m' : SessionM σ ε α) (m : Tx σ ε (Except ε α)) : Prop :=
  ∀ {s s' r}, m'.run s = (r, s') → m s.working = .ok (r, s'.committed) ∨
    ∃ e, r = .error e ∧ s'.committed = s.committed ∧ (s.faults = [] → m s.working = .error e)

variable {m : Tx σ ε α} {m' : SessionM σ ε α}

theorem run_bind (m' : SessionM σ ε α) (f : α → SessionM σ ε β) (s : Session σ ε) :
    (m' >>= f).run s = match m'.run s with
      | (.ok a, s') => (f a).run s'
      | (.error e, s') => (.error e, s') := by
  change ExceptT.bind m' f s = _
  unfold ExceptT.bind
  change (match m' s with | (a, s') => (ExceptT.bindCont f a) s') = _
  rcases h : m' s with ⟨e | a, s'⟩
  · simp only [ExceptT.run, h]
    rfl
  · simp only [ExceptT.run, h]
    rfl

/-- A sequence went through, or ended in its first part. -/
theorem run_bind_cases {f : α → SessionM σ ε β} {s s' : Session σ ε} {r : Except ε β}
    (h : (m' >>= f).run s = (r, s')) :
    (∃ a s₁, m'.run s = (.ok a, s₁) ∧ (f a).run s₁ = (r, s')) ∨
      ∃ e, m'.run s = (.error e, s') ∧ r = .error e := by
  rw [run_bind] at h
  rcases hm : m'.run s with ⟨e | a, s₁⟩
  · rw [hm] at h
    obtain ⟨rfl, rfl⟩ := Prod.mk.inj h
    exact .inr ⟨e, rfl, rfl⟩
  · rw [hm] at h
    exact .inl ⟨a, s₁, rfl, h⟩

theorem follows_pure (a : α) : Follows (pure a : SessionM σ ε α) (pure a) where
  ok h := by
    obtain ⟨hr, rfl⟩ := Prod.mk.inj h
    exact ⟨by cases hr; rfl, rfl, id⟩
  error h := nomatch (Prod.mk.inj h).1

theorem follows_lift (r : Except ε α) :
    Follows (liftM r : SessionM σ ε α) (liftM r : Tx σ ε α) where
  ok {s s' a} h := by
    obtain ⟨hr, rfl⟩ := Prod.mk.inj (show (r, s) = (.ok a, s') from h)
    exact ⟨hr ▸ rfl, rfl, id⟩
  error {s s' e} h := by
    obtain ⟨hr, rfl⟩ := Prod.mk.inj (show (r, s) = (.error e, s') from h)
    exact ⟨rfl, fun _ => hr ▸ rfl⟩

theorem request_cases {f : Session σ ε → Except ε (α × Session σ ε)} {s s' : Session σ ε}
    {r : Except ε α} (h : (request f).run s = (r, s')) :
    (∃ a, r = .ok a ∧ f { s with faults := s.faults.tail } = .ok (a, s')) ∨
      ∃ e, r = .error e ∧ s' = { s with faults := s.faults.tail } ∧
        (s.faults = [] → f { s with faults := [] } = .error e) := by
  change request f s = _ at h
  unfold request at h
  cases hfault : s.faults.head?.join with
  | some e =>
    rw [hfault] at h
    obtain ⟨rfl, rfl⟩ := Prod.mk.inj h
    refine .inr ⟨e, rfl, rfl, fun hnil => ?_⟩
    rw [hnil] at hfault
    cases hfault
  | none =>
    rw [hfault] at h
    rcases hf : f { s with faults := s.faults.tail } with e | ⟨a, s''⟩
    · simp only [hf] at h
      obtain ⟨rfl, rfl⟩ := Prod.mk.inj h
      refine .inr ⟨e, rfl, rfl, fun hnil => ?_⟩
      rw [hnil] at hf
      exact hf
    · simp only [hf] at h
      obtain ⟨rfl, rfl⟩ := Prod.mk.inj h
      exact .inl ⟨a, rfl, rfl⟩

theorem follows_statement (m : Tx σ ε α) : Follows (statement m) m where
  ok {s s' a} h := by
    rcases request_cases h with ⟨a', ha, hf⟩ | ⟨e, he, -⟩
    · cases ha
      obtain ⟨⟨b, working⟩, hm, hp⟩ := Except.map_eq_ok.1 hf
      obtain ⟨rfl, rfl⟩ := Prod.mk.inj hp
      exact ⟨hm, rfl, fun hnil => congrArg List.tail hnil⟩
    · cases he
  error {s s' e} h := by
    rcases request_cases h with ⟨a', ha, -⟩ | ⟨e', he, rfl, hf⟩
    · cases ha
    · cases he
      refine ⟨rfl, fun hnil => ?_⟩
      have hmap := hf hnil
      cases hm : m s.working with
      | ok p => simp [hm, Except.map] at hmap
      | error e' => simpa [hm, Except.map] using hmap

theorem Follows.bind {f : α → Tx σ ε β} {f' : α → SessionM σ ε β} (h : Follows m' m)
    (hf : ∀ a, Follows (f' a) (f a)) : Follows (m' >>= f') (m >>= f) where
  ok hrun := by
    rcases run_bind_cases hrun with ⟨a, s₁, hm, hrest⟩ | ⟨e, -, he⟩
    · obtain ⟨hfirst, hcommitted, hnil⟩ := h.ok hm
      obtain ⟨hsecond, hcommitted', hnil'⟩ := (hf a).ok hrest
      refine ⟨Tx.bind_eq_ok.2 ⟨a, _, hfirst, hsecond⟩, hcommitted'.trans hcommitted, ?_⟩
      exact fun hs => hnil' (hnil hs)
    · cases he
  error {s s' e} hrun := by
    rcases run_bind_cases hrun with ⟨a, s₁, hm, hrest⟩ | ⟨e', hm, he⟩
    · obtain ⟨hfirst, hcommitted, hnil⟩ := h.ok hm
      obtain ⟨hcommitted', herror⟩ := (hf a).error hrest
      refine ⟨hcommitted'.trans hcommitted, fun hs => ?_⟩
      change (m s.working >>= fun p => f p.1 p.2) = _
      rw [hfirst]
      exact herror (hnil hs)
    · cases he
      obtain ⟨hcommitted, herror⟩ := h.error hm
      refine ⟨hcommitted, fun hs => ?_⟩
      change (m s.working >>= fun p => f p.1 p.2) = _
      rw [herror hs]
      rfl

/-- The same part of a call for every element of a list. -/
theorem Follows.forM {γ : Type u} {f : γ → Tx σ ε PUnit} {f' : γ → SessionM σ ε PUnit}
    (hf : ∀ c, Follows (f' c) (f c)) (l : List γ) : Follows (l.forM f') (l.forM f) := by
  induction l with
  | nil => exact follows_pure _
  | cons c l ih => exact (hf c).bind fun _ => ih

/-! ### To its end -/

theorem Settles.bind {f : α → Tx σ ε (Except ε β)} {f' : α → SessionM σ ε β} (h : Follows m' m)
    (hf : ∀ a, Settles (f' a) (f a)) : Settles (m' >>= f') (m >>= f) := by
  intro s s' r hrun
  rcases run_bind_cases hrun with ⟨a, s₁, hm, hrest⟩ | ⟨e, hm, rfl⟩
  · obtain ⟨hfirst, hcommitted, hnil⟩ := h.ok hm
    rcases hf a hrest with hok | ⟨e, rfl, hcommitted', herror⟩
    · exact .inl (Tx.bind_eq_ok.2 ⟨a, _, hfirst, hok⟩)
    · refine .inr ⟨e, rfl, hcommitted'.trans hcommitted, fun hs => ?_⟩
      change (m s.working >>= fun p => f p.1 p.2) = _
      rw [hfirst]
      exact herror (hnil hs)
  · obtain ⟨hcommitted, herror⟩ := h.error hm
    refine .inr ⟨e, rfl, hcommitted, fun hs => ?_⟩
    change (m s.working >>= fun p => f p.1 p.2) = _
    rw [herror hs]
    rfl

/-- A call that only computes before its `BEGIN`, or takes its time to. -/
theorem Settles.first {f : PUnit → SessionM σ ε β} {m : Tx σ ε (Except ε β)}
    {first : SessionM σ ε PUnit} (h : Follows first (pure ⟨⟩)) (hf : Settles (f ⟨⟩) m) :
    Settles (first >>= f) m :=
  Settles.bind (f := fun _ => m) h fun _ => hf

theorem Settles.congr {m m₁ : Tx σ ε (Except ε α)} {m' : SessionM σ ε α} (h : Settles m' m₁)
    (heq : ∀ s, m s = m₁ s) : Settles m' m := by
  obtain rfl : m = m₁ := funext heq
  exact h

/-- What was written is committed, and its result reported. -/
theorem settles_commit (r : Except ε α) :
    Settles (commit >>= fun _ => liftM r) (pure r : Tx σ ε (Except ε α)) := by
  intro s s' r' hrun
  rcases run_bind_cases hrun with ⟨_, s₁, hm, hrest⟩ | ⟨e, hm, rfl⟩
  · obtain ⟨rfl, rfl⟩ := Prod.mk.inj (show (r, s₁) = (r', s') from hrest)
    rcases request_cases hm with ⟨_, -, hf⟩ | ⟨e, he, -⟩
    · obtain ⟨-, rfl⟩ := Prod.mk.inj (Except.ok.inj hf)
      exact .inl rfl
    · cases he
  · rcases request_cases hm with ⟨a, ha, -⟩ | ⟨e', he, rfl, hf⟩
    · cases ha
    · cases he
      exact .inr ⟨e, rfl, rfl, fun hs => nomatch hf hs⟩

/-- A call that ends without a commit. -/
theorem settles_throw (e : ε) :
    Settles (throw e : SessionM σ ε α) (throw e : Tx σ ε (Except ε α)) := by
  intro s s' r hrun
  obtain ⟨rfl, rfl⟩ := Prod.mk.inj (show (Except.error e, s) = (r, s') from hrun)
  exact .inr ⟨e, rfl, rfl, fun _ => rfl⟩

/-! ### Whole calls -/

/-- **A call does what its transaction does, or it fails and does nothing.** -/
theorem Settles.perform_cases {m : Tx σ ε (Except ε α)} {m' : SessionM σ ε α} (h : Settles m' m)
    (faults : List (Option ε)) (s : σ) :
    (∃ r s', m s = .ok (r, s') ∧ perform m' faults s = (r, s')) ∨
      ∃ e, perform m' faults s = (.error e, s) := by
  rcases hrun : m'.run ⟨s, s, faults⟩ with ⟨r, s'⟩
  have hperform : perform m' faults s = (r, s'.committed) := by
    unfold perform
    rw [hrun]
  rcases h hrun with hok | ⟨e, rfl, hcommitted, -⟩
  · exact .inl ⟨r, s'.committed, hok, hperform⟩
  · exact .inr ⟨e, hperform.trans (congrArg (Prod.mk _) hcommitted)⟩

/-- **A call none of whose statements fails by itself is its transaction.** -/
theorem Settles.perform_nil {m : Tx σ ε (Except ε α)} {m' : SessionM σ ε α} (h : Settles m' m)
    (s : σ) : perform m' [] s = m.settle s := by
  rcases hrun : m'.run ⟨s, s, []⟩ with ⟨r, s'⟩
  unfold perform Tx.settle
  rw [hrun]
  rcases h hrun with hok | ⟨e, rfl, hcommitted, herror⟩
  · simp only [show m s = .ok (r, s'.committed) from hok]
  · simp only [show m s = .error e from herror rfl, show s'.committed = s from hcommitted]

end SessionM
