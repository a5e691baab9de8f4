import Mathlib.Tactic

/-!
# A log of changes beside the resources

Every resource counts its changes, and a log gets an entry for each of them. The head of a resource
is what is kept of it besides its content: its revision, the place it belongs to and whether it was
removed. `Posted` is one change with its entry, `PostedAll` a sequence of them. Starting from
nothing, the two representations never part: the entries of a resource are numbered from 1 to its
revision, they name its place, and the last one says whether it is removed.
-/

namespace ChangeLog

variable {R W : Type*}

/-- One change of a resource. -/
structure Entry (R W : Type*) where
  resource : R
  place : W
  removed : Bool
  revision : ℤ

/-- What is kept of a resource. -/
structure Head (W : Type*) where
  revision : ℤ
  place : W
  removed : Bool

/-- The heads of the resources, and the log. -/
structure Books (R W : Type*) where
  head : R → Option (Head W)
  log : List (Entry R W)

namespace Books

variable (b : Books R W)

/-- How often a resource was changed. -/
def revision (r : R) : ℤ := (b.head r).elim 0 (·.revision)

end Books

/-- One change of a resource, and its entry. A resource stays in its place. -/
structure Posted (r : R) (removed : Bool) (b b' : Books R W) : Prop where
  change : ∃ place, (∀ h, b.head r = some h → h.place = place) ∧
    b'.head r = some ⟨b.revision r + 1, place, removed⟩ ∧
    b'.log = b.log ++ [⟨r, place, removed, b.revision r + 1⟩]
  other : ∀ r', r' ≠ r → b'.head r' = b.head r'

/-- A sequence of changes. -/
inductive PostedAll : List (R × Bool) → Books R W → Books R W → Prop
  | nil (b : Books R W) : PostedAll [] b b
  | cons {r : R} {removed : Bool} {changes : List (R × Bool)} {b b₁ b' : Books R W}
      (first : Posted r removed b b₁) (rest : PostedAll changes b₁ b') :
      PostedAll ((r, removed) :: changes) b b'

theorem Posted.all {r : R} {removed : Bool} {b b' : Books R W} (h : Posted r removed b b') :
    PostedAll [(r, removed)] b b' := .cons h (.nil b')

variable [DecidableEq R]

/-- The entries of a resource. -/
def entriesOf (log : List (Entry R W)) (r : R) : List (Entry R W) :=
  log.filter fun e => e.resource = r

@[simp] theorem entriesOf_append (log log' : List (Entry R W)) (r : R) :
    entriesOf (log ++ log') r = entriesOf log r ++ entriesOf log' r := List.filter_append ..

@[simp] theorem entriesOf_singleton_self (e : Entry R W) : entriesOf [e] e.resource = [e] := by
  simp [entriesOf]

theorem entriesOf_singleton_of_ne {e : Entry R W} {r : R} (h : r ≠ e.resource) :
    entriesOf [e] r = [] := by
  simp [entriesOf, h.symm]

/-- The log and the heads agree. -/
structure Consistent (b : Books R W) : Prop where
  absent : ∀ r, b.head r = none → entriesOf b.log r = []
  revisions : ∀ r h, b.head r = some h → ∃ n : ℕ, h.revision = n + 1 ∧
    (entriesOf b.log r).map (·.revision) = (List.range (n + 1)).map fun k : ℕ => (k : ℤ) + 1
  places : ∀ r h, b.head r = some h → ∀ e ∈ entriesOf b.log r, e.place = h.place
  last : ∀ r h, b.head r = some h → ∃ e, (entriesOf b.log r).getLast? = some e ∧
    e.removed = h.removed ∧ e.revision = h.revision

theorem consistent_empty : Consistent (⟨fun _ => none, []⟩ : Books R W) where
  absent _ _ := rfl
  revisions _ _ h := nomatch h
  places _ _ h := nomatch h
  last _ _ h := nomatch h

variable {r : R} {removed : Bool} {b b' : Books R W}

/-- A change adds one entry, of the changed resource. -/
theorem Posted.entriesOf_self (h : Posted r removed b b') : ∃ place,
    (∀ hd, b.head r = some hd → hd.place = place) ∧
      b'.head r = some ⟨b.revision r + 1, place, removed⟩ ∧
      entriesOf b'.log r = entriesOf b.log r ++ [⟨r, place, removed, b.revision r + 1⟩] := by
  obtain ⟨place, hplace, hhead, hlog⟩ := h.change
  refine ⟨place, hplace, hhead, ?_⟩
  rw [hlog, entriesOf_append]
  exact congrArg _ (entriesOf_singleton_self ⟨r, place, removed, b.revision r + 1⟩)

theorem Posted.entriesOf_of_ne (h : Posted r removed b b') {r' : R} (hne : r' ≠ r) :
    entriesOf b'.log r' = entriesOf b.log r' := by
  obtain ⟨place, -, -, hlog⟩ := h.change
  rw [hlog, entriesOf_append, entriesOf_singleton_of_ne hne, List.append_nil]

theorem Posted.consistent (h : Posted r removed b b') (hb : Consistent b) : Consistent b' := by
  obtain ⟨place, hplace, hhead, hentries⟩ := h.entriesOf_self
  -- What another resource has in the new books it has in the old ones.
  have hother : ∀ r' hd, r' ≠ r → b'.head r' = some hd → b.head r' = some hd :=
    fun r' hd hne hhd => (h.other r' hne).symm.trans hhd
  refine ⟨fun r' hnone => ?_, fun r' hd hhd => ?_, fun r' hd hhd e he => ?_, fun r' hd hhd => ?_⟩
  · by_cases hr : r' = r
    · rw [hr, hhead] at hnone
      cases hnone
    · rw [h.entriesOf_of_ne hr]
      exact hb.absent r' ((h.other r' hr).symm.trans hnone)
  · by_cases hr : r' = r
    · subst hr
      rw [hhead] at hhd
      cases hhd
      rw [hentries, List.map_append]
      cases hold : b.head r' with
      | none =>
          have hzero : b.revision r' = 0 := by rw [Books.revision, hold, Option.elim_none]
          refine ⟨0, by simp [hzero], ?_⟩
          rw [hb.absent r' hold, hzero]
          rfl
      | some old =>
          obtain ⟨n, hn, hmap⟩ := hb.revisions r' old hold
          have hrevision : b.revision r' = n + 1 := by
            rw [Books.revision, hold, Option.elim_some, hn]
          refine ⟨n + 1, by simp [hrevision], ?_⟩
          rw [hmap, hrevision, List.range_succ (n := n + 1), List.map_append]
          simp
    · rw [h.entriesOf_of_ne hr]
      exact hb.revisions r' hd (hother r' hd hr hhd)
  · by_cases hr : r' = r
    · subst hr
      rw [hhead] at hhd
      cases hhd
      rw [hentries] at he
      obtain he | he := List.mem_append.1 he
      · cases hold : b.head r' with
        | none =>
            rw [hb.absent r' hold] at he
            cases he
        | some old => exact (hb.places r' old hold e he).trans (hplace old hold)
      · rw [List.mem_singleton.1 he]
    · rw [h.entriesOf_of_ne hr] at he
      exact hb.places r' hd (hother r' hd hr hhd) e he
  · by_cases hr : r' = r
    · subst hr
      rw [hhead] at hhd
      cases hhd
      refine ⟨⟨r', place, removed, b.revision r' + 1⟩, ?_, rfl, rfl⟩
      rw [hentries]
      simp
    · rw [h.entriesOf_of_ne hr]
      exact hb.last r' hd (hother r' hd hr hhd)

theorem PostedAll.consistent {changes : List (R × Bool)} (h : PostedAll changes b b')
    (hb : Consistent b) : Consistent b' := by
  induction h with
  | nil b => exact hb
  | cons first rest ih => exact ih (first.consistent hb)

/-- A resource stays in its place. -/
theorem PostedAll.place {changes : List (R × Bool)} (h : PostedAll changes b b') {hd : Head W}
    (hhd : b.head r = some hd) : ∃ hd', b'.head r = some hd' ∧ hd'.place = hd.place := by
  induction h generalizing hd with
  | nil b => exact ⟨hd, hhd, rfl⟩
  | @cons r₁ removed changes b b₁ b' first rest ih =>
      obtain ⟨place, hplace, hhead, -⟩ := first.change
      by_cases hr : r = r₁
      · subst hr
        obtain ⟨hd', hhd', heq⟩ := ih hhead
        exact ⟨hd', hhd', heq.trans (hplace hd hhd).symm⟩
      · exact ih ((first.other r hr).trans hhd)

/-- The entries of a sequence of changes: one for each, in order, with the next revisions of each
resource and its place. -/
structure Recorded (changes : List (R × Bool)) (b b' : Books R W) (entries : List (Entry R W)) :
    Prop where
  changes : entries.map (fun e => (e.resource, e.removed)) = changes
  counted : ∀ r, b'.revision r = b.revision r + (entriesOf entries r).length
  revisions : ∀ r, (entriesOf entries r).map (·.revision) =
    (List.range (entriesOf entries r).length).map fun k : ℕ => b.revision r + k + 1
  places : ∀ e ∈ entries, ∃ hd, b'.head e.resource = some hd ∧ hd.place = e.place

theorem PostedAll.recorded {changes : List (R × Bool)} (h : PostedAll changes b b') :
    ∃ entries, b'.log = b.log ++ entries ∧ Recorded changes b b' entries := by
  induction h with
  | nil b =>
      exact ⟨[], by simp, rfl, fun r => by simp [entriesOf], fun r => by simp [entriesOf], by simp⟩
  | @cons r₁ removed changes b b₁ b' first rest ih =>
      obtain ⟨entries, hlog, hchanges, hcounted, hrevisions, hplaces⟩ := ih
      obtain ⟨place, -, hhead, hlog₁⟩ := first.change
      have hmine : ∀ r,
          b'.revision r = b.revision r +
              (entriesOf (⟨r₁, place, removed, b.revision r₁ + 1⟩ :: entries) r).length ∧
            (entriesOf (⟨r₁, place, removed, b.revision r₁ + 1⟩ :: entries) r).map (·.revision) =
              (List.range
                (entriesOf (⟨r₁, place, removed, b.revision r₁ + 1⟩ :: entries) r).length).map
                  fun k : ℕ => b.revision r + k + 1 := fun r => by
        by_cases hr : r = r₁
        · subst hr
          have hfirst : b₁.revision r = b.revision r + 1 := by
            rw [Books.revision, hhead, Option.elim_some]
          have hcons : entriesOf (⟨r, place, removed, b.revision r + 1⟩ :: entries) r =
              ⟨r, place, removed, b.revision r + 1⟩ :: entriesOf entries r := by
            simp [entriesOf]
          rw [hcons, List.length_cons, List.map_cons, List.range_succ_eq_map, List.map_cons,
            List.map_map, hrevisions, hcounted, hfirst]
          refine ⟨by push_cast; ring, ?_⟩
          refine congrArg₂ List.cons (by simp) (List.map_congr_left fun k _ => ?_)
          simp only [Function.comp_apply, Nat.succ_eq_add_one]
          push_cast
          ring
        · have hsame : b₁.revision r = b.revision r := by
            rw [Books.revision, Books.revision, first.other r hr]
          have hcons : entriesOf (⟨r₁, place, removed, b.revision r₁ + 1⟩ :: entries) r =
              entriesOf entries r := by
            simp [entriesOf, Ne.symm hr]
          rw [hcons, hcounted, hrevisions, hsame]
          exact ⟨rfl, rfl⟩
      refine ⟨⟨r₁, place, removed, b.revision r₁ + 1⟩ :: entries, ?_, by simp [hchanges],
        fun r => (hmine r).1, fun r => (hmine r).2, fun e he => ?_⟩
      · rw [hlog, hlog₁, List.append_assoc]
        rfl
      · obtain rfl | he := List.mem_cons.1 he
        · obtain ⟨hd', hhd', hplace⟩ := rest.place hhead
          exact ⟨hd', hhd', hplace⟩
        · exact hplaces e he

end ChangeLog
