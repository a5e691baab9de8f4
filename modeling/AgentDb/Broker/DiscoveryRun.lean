import AgentDb.Broker.Discovery

/-!
# Publications, removals and reads side by side

The runtime file is never seen half written: whatever the order of the calls, it is a complete
record that one runtime has published, and a client that finds a record finds such a one. That a
removal takes away the record it was decided on is another matter. It does in every run in which
the runtime file, when it is removed, still is the file that was opened for the check
(`discovery_safe`); a publication in between is taken away in place of the record that was checked
(`removal_takes_new_record`).
-/

namespace AgentDb
namespace Broker
namespace Discovery

open Crew Program Protocol

variable {κ : Type} (ops : κ → Op)

/-! ### What the calls agree on -/

/-- The file holds the complete, valid record it was created for. -/
def Complete (s : Disk κ) (file : κ) (d : RuntimeDiscovery) : Prop :=
  ops file = .publish d ∧ d.validate = .ok () ∧ s.content file = d.text

/-- The runtime file, and every file that ever was it, is complete. -/
structure Whole (s : Disk κ) : Prop where
  path : ∀ file, s.path = some file → s.placed file
  placed : ∀ file, s.placed file → ∃ d, Complete ops s file d

/-- What a call puts up with: its own file is left to it, a file that was placed stays as it is,
and a process that has ended has ended. -/
structure Relies (k : κ) (s s' : Disk κ) : Prop where
  own : s'.content k = s.content k ∧ (s'.placed k ↔ s.placed k)
  placed : ∀ file, s.placed file → s'.placed file ∧ s'.content file = s.content file
  ended : ∀ id, s.ended id → s'.ended id

/-- The calls of the file system that are made: only the own file is written, and not after it was
placed; it is placed when it is complete; and a removal names the runtime whose record it has
read, which has ended if it says so. -/
def Good (k : κ) (s : Disk κ) : Access κ → Prop
  | .createNew file => file = k ∧ ¬ s.placed k
  | .write file _ => file = k ∧ ¬ s.placed k
  | .rename file => file = k ∧ ∃ d, Complete ops s k d
  | .removeFile check => s.placed check.file ∧ ∃ d, Complete ops s check.file d ∧
      d.runtimeId = check.runtimeId ∧ (check.foundDead = true → s.ended d.runtimeId)
  | _ => True

/-- What the calls agree on. -/
def code : Code κ (Access κ) (Disk κ) := ⟨Whole ops, Relies, Good ops⟩

variable {ops} {k : κ} {s s' : Disk κ} {d : RuntimeDiscovery}

theorem Relies.refl (k : κ) (s : Disk κ) : Relies k s s :=
  ⟨⟨rfl, Iff.rfl⟩, fun _ h => ⟨h, rfl⟩, fun _ h => h⟩

theorem Relies.trans {s'' : Disk κ} (h : Relies k s s') (h' : Relies k s' s'') :
    Relies k s s'' where
  own := ⟨h'.own.1.trans h.own.1, h'.own.2.trans h.own.2⟩
  placed file hfile := by
    obtain ⟨hplaced, hcontent⟩ := h.placed file hfile
    obtain ⟨hplaced', hcontent'⟩ := h'.placed file hplaced
    exact ⟨hplaced', hcontent'.trans hcontent⟩
  ended id hid := h'.ended id (h.ended id hid)

theorem Complete.relies {file : κ} (h : Complete ops s file d) (hplaced : s.placed file)
    (hrelies : Relies k s s') : Complete ops s' file d :=
  ⟨h.1, h.2.1, (hrelies.placed file hplaced).2.trans h.2.2⟩

/-- What a good call of `k` does to the disk. -/
structure Effect (ops : κ → Op) (k : κ) (s s' : Disk κ) : Prop where
  placed : ∀ file, s.placed file → s'.placed file ∧ s'.content file = s.content file
  others : ∀ file, file ≠ k → s'.content file = s.content file ∧ (s'.placed file ↔ s.placed file)
  newly : s'.placed k → s.placed k ∨ ∃ d, Complete ops s' k d
  path : s'.path = s.path ∨ s'.path = none ∨ s'.path = some k ∧ s'.placed k
  ended : ∀ id, s.ended id → s'.ended id

theorem Effect.of_eq (h : s' = s) : Effect ops k s s' := by
  subst h
  exact ⟨fun _ h => ⟨h, rfl⟩, fun _ _ => ⟨rfl, Iff.rfl⟩, .inl, .inl rfl, fun _ h => h⟩

theorem Effect.whole (h : Effect ops k s s') (hs : Whole ops s) : Whole ops s' where
  path file hfile := by
    rcases h.path with heq | hnone | ⟨hk, hplaced⟩
    · exact (h.placed file (hs.path file (heq ▸ hfile))).1
    · rw [hnone] at hfile
      cases hfile
    · rw [hk] at hfile
      cases hfile
      exact hplaced
  placed file hfile := by
    -- A file that was placed before is as complete as it was.
    have hbefore : s.placed file → ∃ d, Complete ops s' file d := fun hplaced => by
      obtain ⟨d, hops, hvalid, hcontent⟩ := hs.placed file hplaced
      exact ⟨d, hops, hvalid, (h.placed file hplaced).2.trans hcontent⟩
    by_cases hk : file = k
    · subst hk
      exact (h.newly hfile).elim hbefore id
    · exact hbefore ((h.others file hk).2.1 hfile)

theorem Effect.relies (h : Effect ops k s s') {k' : κ} (hne : k ≠ k') : Relies k' s s' :=
  ⟨h.others k' hne.symm, h.placed, h.ended⟩

/-- What a reader that opened a file and read bytes from it knows. -/
structure Knows (ops : κ → Op) (s : Disk κ) (file : κ) (d : RuntimeDiscovery) : Prop where
  placed : s.placed file
  complete : Complete ops s file d

theorem Knows.relies {file : κ} (h : Knows ops s file d) (hrelies : Relies k s s') :
    Knows ops s' file d :=
  ⟨(hrelies.placed file h.placed).1, h.complete.relies h.placed hrelies⟩

/-- The bytes of a file that was opened are read back as the record it was created for. -/
theorem fromSlice_content {serde : Serde} {file : κ} (hs : Whole ops s) (hplaced : s.placed file)
    (h : serde.fromSlice (s.content file) = some d) : Knows ops s file d := by
  obtain ⟨d', hcomplete⟩ := hs.placed file hplaced
  rw [hcomplete.2.2, serde.fromSlice_text] at h
  cases h
  exact ⟨hplaced, hcomplete⟩

variable [DecidableEq κ]

/-- The own file is written. -/
theorem effect_write (hplaced : ¬ s.placed k) (bytes : List UInt8) (temporary : κ → Bool) :
    Effect ops k s { s with
      temporary := temporary
      content := Function.update s.content k bytes } where
  placed file hfile := by
    have hne : file ≠ k := by
      rintro rfl
      exact hplaced hfile
    exact ⟨hfile, Function.update_of_ne hne ..⟩
  others file hne := ⟨Function.update_of_ne hne .., Iff.rfl⟩
  newly h := absurd h hplaced
  path := .inl rfl
  ended _ h := h

theorem effect_of_good {record : κ → Option RuntimeDiscovery} {c : Access κ} {a : Answer c}
    (hgood : Good ops k s c) (h : Answered record s c a s') : Effect ops k s s' := by
  cases c with
  | createNew file =>
      obtain ⟨rfl, hplaced⟩ := hgood
      cases a with
      | error e => exact .of_eq h
      | ok _ => exact (show s' = _ from h) ▸ effect_write hplaced [] _
  | write file bytes =>
      obtain ⟨rfl, hplaced⟩ := hgood
      cases a with
      | error e =>
          obtain ⟨part, -, rfl⟩ := h
          exact effect_write hplaced _ _
      | ok _ => exact (show s' = _ from h) ▸ effect_write hplaced _ _
  | rename file =>
      obtain ⟨rfl, d, hcomplete⟩ := hgood
      cases a with
      | error e => exact .of_eq h
      | ok _ =>
          obtain ⟨-, rfl⟩ := h
          exact ⟨fun _ hfile => ⟨.inr hfile, rfl⟩,
            fun f hne => ⟨rfl, ⟨fun hf => hf.resolve_left hne, .inr⟩⟩,
            fun _ => .inr ⟨d, hcomplete⟩, .inr (.inr ⟨rfl, .inl rfl⟩), fun _ hid => hid⟩
  | removeTemporary file =>
      cases a with
      | error e => exact .of_eq h
      | ok _ =>
          rw [show s' = _ from h]
          exact ⟨fun _ h => ⟨h, rfl⟩, fun _ _ => ⟨rfl, Iff.rfl⟩, .inl, .inl rfl, fun _ h => h⟩
  | metadata => exact .of_eq h.1
  | openPath => exact .of_eq h.1
  | permissions file => exact .of_eq h
  | read file => exact .of_eq h.1
  | isAlive pid => exact .of_eq h.1
  | removeFile check =>
      cases a with
      | error e => exact .of_eq h
      | ok _ =>
          obtain ⟨-, rfl⟩ := h
          exact ⟨fun _ h => ⟨h, rfl⟩, fun _ _ => ⟨rfl, Iff.rfl⟩, .inl, .inr (.inl rfl),
            fun _ h => h⟩
  | processEnds id =>
      cases a with
      | error e => exact .of_eq h
      | ok _ =>
          rw [show s' = _ from h]
          exact ⟨fun _ h => ⟨h, rfl⟩, fun _ _ => ⟨rfl, Iff.rfl⟩, .inl, .inl rfl,
            fun _ hid => .inr hid⟩
  | _ => cases a <;> exact .of_eq h

/-- The calls as `Op`s answer. -/
abbrev Does (ops : κ → Op) : Answers (Access κ) Answer (Disk κ) :=
  Answered fun k => (ops k).record

theorem code_sound : (code ops).Sound (Does ops) where
  refl := Relies.refl
  trans _ _ _ _ := Relies.trans
  inv _ _ _ _ _ hs hgood h := (effect_of_good hgood h).whole hs
  others _ _ _ _ _ _ hne _ hgood h := (effect_of_good hgood h).relies hne

/-! ### Every function keeps to it -/

section Keeps

/-- A record that is found is a complete one. -/
def Finds (ops : κ → Op) (s : Disk κ) : Outcome → Prop
  | .found (some d) => ∃ file, s.placed file ∧ Complete ops s file d
  | _ => True

/-- The rest of a call of `k` keeps to what was agreed. -/
abbrev Kept (ops : κ → Op) (k : κ) : Run κ → Disk κ → Prop :=
  Crew.Keeps (Does ops) (code ops) (Finds ops) k

variable {serde : Serde}

theorem kept_undo (file : κ) (e : String) (s : Disk κ) : Kept ops k (undo file e) s :=
  fun _ _ _ => ⟨trivial, fun _ _ _ _ _ _ => trivial⟩

/-- A complete file is put in place. -/
theorem kept_place (hcomplete : Complete ops s k d) : Kept ops k (place k) s := by
  intro s₁ hrelies _
  have hcomplete₁ : Complete ops s₁ k d :=
    ⟨hcomplete.1, hcomplete.2.1, hrelies.own.1.trans hcomplete.2.2⟩
  refine ⟨⟨rfl, d, hcomplete₁⟩, fun a s₂ _ => ?_⟩
  cases a with
  | error e => exact kept_undo k e s₂
  | ok _ =>
      refine fun s₃ _ _ => ⟨trivial, fun a s₄ _ => ?_⟩
      cases a with
      | error e => exact kept_undo k e s₄
      | ok _ => exact fun _ _ _ => ⟨trivial, fun _ _ _ _ _ _ => trivial⟩

theorem kept_sync (hplaced : ¬ s.placed k) (hcomplete : Complete ops s k d) :
    Kept ops k (sync k) s := by
  have hstays : ∀ {s s' : Disk κ}, Relies k s s' → ¬ s.placed k ∧ Complete ops s k d →
      ¬ s'.placed k ∧ Complete ops s' k d := fun hrelies h =>
    ⟨fun hp => h.1 (hrelies.own.2.1 hp), h.2.1, h.2.2.1, hrelies.own.1.trans h.2.2.2⟩
  intro s₁ hrelies _
  have h₁ := hstays hrelies ⟨hplaced, hcomplete⟩
  refine ⟨trivial, fun a s₂ ha => ?_⟩
  cases a with
  | error e => exact kept_undo k e s₂
  | ok _ =>
      rw [show s₂ = s₁ from ha]
      intro s₃ hrelies₃ _
      have h₃ := hstays hrelies₃ h₁
      refine ⟨trivial, fun a s₄ ha => ?_⟩
      cases a with
      | error e => exact kept_undo k e s₄
      | ok _ =>
          rw [show s₄ = s₃ from ha]
          exact kept_place h₃.2

/-- Chunk by chunk the file becomes complete. -/
theorem kept_writeAll (hops : ops k = .publish d) (hvalid : d.validate = .ok ())
    (chunks : List (List UInt8)) (hplaced : ¬ s.placed k)
    (hcontent : s.content k ++ chunks.flatten = d.text) :
    Kept ops k (writeAll k (undo k) (sync k) chunks) s := by
  induction chunks generalizing s with
  | nil =>
      rw [List.flatten_nil, List.append_nil] at hcontent
      exact kept_sync hplaced ⟨hops, hvalid, hcontent⟩
  | cons chunk chunks ih =>
      intro s₁ hrelies _
      have hplaced₁ : ¬ s₁.placed k := fun hp => hplaced (hrelies.own.2.1 hp)
      refine ⟨⟨rfl, hplaced₁⟩, fun a s₂ ha => ?_⟩
      cases a with
      | error e => exact kept_undo k e s₂
      | ok _ =>
          have ha : s₂ = { s₁ with
            content := Function.update s₁.content k (s₁.content k ++ chunk) } := ha
          subst ha
          refine ih hplaced₁ ?_
          change Function.update s₁.content k (s₁.content k ++ chunk) k ++ chunks.flatten = d.text
          rw [Function.update_self, hrelies.own.1, List.append_assoc]
          exact hcontent

theorem kept_publish (hops : ops k = .publish d) (hplaced : ¬ s.placed k) :
    Kept ops k (publish serde k d) s := by
  rw [publish]
  cases hvalid : d.validate with
  | error e => exact fun _ _ _ => trivial
  | ok _ =>
      intro s₁ hrelies₁ _
      have hplaced₁ : ¬ s₁.placed k := fun hp => hplaced (hrelies₁.own.2.1 hp)
      refine ⟨trivial, fun a s₂ ha => ?_⟩
      cases a with
      | error e => exact fun _ _ _ => trivial
      | ok _ =>
          rw [show s₂ = s₁ from ha]
          intro s₃ hrelies₃ _
          have hplaced₃ : ¬ s₃.placed k := fun hp => hplaced₁ (hrelies₃.own.2.1 hp)
          refine ⟨trivial, fun a s₄ ha => ?_⟩
          cases a with
          | error e => exact fun _ _ _ => trivial
          | ok _ =>
              rw [show s₄ = s₃ from ha]
              intro s₅ hrelies₅ _
              have hplaced₅ : ¬ s₅.placed k := fun hp => hplaced₃ (hrelies₅.own.2.1 hp)
              refine ⟨⟨rfl, hplaced₅⟩, fun a s₆ ha => ?_⟩
              cases a with
              | error e => exact kept_undo k e s₆
              | ok _ =>
                  have ha : s₆ = { s₅ with
                    temporary := Function.update s₅.temporary k true
                    content := Function.update s₅.content k [] } := ha
                  subst ha
                  refine kept_writeAll hops hvalid _ hplaced₅ ?_
                  change Function.update s₅.content k [] k ++ _ = d.text
                  rw [Function.update_self, List.nil_append, List.flatten_append,
                    serde.toWriter_flatten]
                  rfl

theorem parseDiscovery_eq_some {bytes : List UInt8} (h : parseDiscovery serde bytes = some d) :
    serde.fromSlice bytes = some d := by
  rw [parseDiscovery] at h
  split at h
  · cases h
  · rename_i hsize
    -- A file within the limit is read to its end.
    have htake : bytes.take (discoveryMaxBytes + 1) = bytes := by
      rw [not_or, List.length_take] at hsize
      refine List.take_of_length_le ?_
      omega
    rw [htake] at h
    exact (Option.filter_eq_some_iff.1 h).1

/-- Whatever the CLI finds is a complete record, and stays one. -/
theorem kept_readDiscovery {next : Option (κ × RuntimeDiscovery) → Run κ}
    (hnext : ∀ found s', (∀ file d, found = some (file, d) → Knows ops s' file d) →
      Kept ops k (next found) s') : Kept ops k (readDiscovery serde next) s := by
  have hnone : ∀ s', Kept ops k (next none) s' := fun s' => hnext none s' fun _ _ h => by cases h
  refine fun s₁ _ _ => ⟨trivial, fun a s₂ ha => ?_⟩
  rcases a with _ | length
  · exact hnone s₂
  · dsimp only
    split
    · exact hnone s₂
    · refine fun s₃ _ hwhole => ⟨trivial, fun a s₄ ha => ?_⟩
      rcases a with _ | file
      · exact hnone s₄
      · have hplaced : s₄.placed file := by
          rw [ha.1]
          exact hwhole.path file (ha.2 file rfl)
        refine fun s₅ hrelies _ => ⟨trivial, fun a s₆ ha => ?_⟩
        cases a with
        | false => exact hnone s₆
        | true =>
            have hplaced₆ : s₆.placed file := by
              rw [show s₆ = s₅ from ha]
              exact (hrelies.placed file hplaced).1
            refine fun s₇ hrelies₇ hwhole₇ => ⟨trivial, fun a s₈ ha => ?_⟩
            rcases a with _ | bytes
            · exact hnone s₈
            · obtain ⟨rfl, hbytes⟩ := ha
              refine hnext _ s₈ fun f d hfound => ?_
              obtain ⟨d', hparse, heq⟩ := Option.map_eq_some_iff.1 hfound
              obtain ⟨rfl, rfl⟩ := Prod.mk.inj heq
              rw [hbytes bytes rfl] at hparse
              exact fromSlice_content hwhole₇ (hrelies₇.placed _ hplaced₆).1
                (parseDiscovery_eq_some hparse)

theorem kept_removeIfOwned (runtimeId : Uuid) :
    Kept ops k (removeIfOwned serde runtimeId) s := by
  refine fun s₁ _ hwhole => ⟨trivial, fun a s₂ ha => ?_⟩
  rcases a with _ | file
  · exact fun _ _ _ => trivial
  · have hplaced : s₂.placed file := by
      rw [ha.1]
      exact hwhole.path file (ha.2 file rfl)
    refine fun s₃ hrelies hwhole₃ => ⟨trivial, fun a s₄ ha => ?_⟩
    rcases a with _ | bytes
    · exact fun _ _ _ => trivial
    · dsimp only
      split
      · rename_i howned
        obtain ⟨d, hslice, hid⟩ := (Option.any_eq_true _ _).1 howned
        obtain ⟨rfl, hbytes⟩ := ha
        rw [hbytes bytes rfl] at hslice
        have hknows : Knows ops s₄ file d :=
          fromSlice_content hwhole₃ (hrelies.placed file hplaced).1 hslice
        intro s₅ hrelies₅ _
        have hknows₅ := hknows.relies hrelies₅
        refine ⟨⟨hknows₅.placed, d, hknows₅.complete, of_decide_eq_true hid, fun h => ?_⟩,
          fun _ _ _ _ _ _ => trivial⟩
        cases h
      · exact fun _ _ _ => trivial

theorem kept_removeStaleDiscovery (runtimeId : Uuid) :
    Kept ops k (removeStaleDiscovery serde runtimeId) s := by
  refine kept_readDiscovery fun found s hfound => ?_
  rcases found with _ | ⟨file, d⟩
  · exact fun _ _ _ => trivial
  · have hknows : Knows ops s file d := hfound file d rfl
    dsimp only
    split
    · rename_i hid
      intro s₁ hrelies _
      have hknows₁ := hknows.relies hrelies
      refine ⟨trivial, fun alive s₂ ha => ?_⟩
      cases alive with
      | true => exact fun _ _ _ => trivial
      | false =>
          obtain ⟨rfl, hdead⟩ := ha
          have hrecord : (ops file).record = some d := by
            rw [hknows₁.complete.1]
            rfl
          have hended : s₂.ended d.runtimeId := hdead rfl file hknows₁.placed d hrecord rfl
          intro s₃ hrelies₃ _
          have hknows₃ := hknows₁.relies hrelies₃
          exact ⟨⟨hknows₃.placed, d, hknows₃.complete, hid, fun _ => hrelies₃.ended _ hended⟩,
            fun _ _ _ _ _ _ => trivial⟩
    · exact fun _ _ _ => trivial

theorem kept_discover : Kept ops k (discover serde) s := by
  refine kept_readDiscovery fun found s hfound => ?_
  rcases found with _ | ⟨file, d⟩
  · exact fun _ _ _ => trivial
  · have hknows : Knows ops s file d := hfound file d rfl
    intro s₁ hrelies _
    have hknows₁ := hknows.relies hrelies
    refine ⟨trivial, fun alive s₂ ha => ?_⟩
    cases alive with
    | false => exact kept_removeStaleDiscovery _
    | true =>
        obtain ⟨rfl, -⟩ := ha
        intro s₃ hrelies₃ _
        have hknows₃ := hknows₁.relies hrelies₃
        exact ⟨file, hknows₃.placed, hknows₃.complete⟩

theorem kept_program (hplaced : ¬ s.placed k) : Kept ops k ((ops k).program serde k) s := by
  cases hop : ops k with
  | publish d => exact kept_publish hop hplaced
  | removeIfOwned runtimeId => exact kept_removeIfOwned runtimeId
  | removeStaleDiscovery runtimeId => exact kept_removeStaleDiscovery runtimeId
  | discover => exact kept_discover
  | processEnds runtimeId => exact fun _ _ _ => ⟨trivial, fun _ _ _ _ _ _ => trivial⟩
  | readDiscovery =>
      change Kept ops k (readDiscovery serde fun found => .done (.found (found.map Prod.snd))) s
      refine kept_readDiscovery fun found s hfound => ?_
      rcases found with _ | ⟨file, d⟩
      · exact fun _ _ _ => trivial
      · intro s₁ hrelies _
        have hknows := (hfound file d rfl).relies hrelies
        exact ⟨file, hknows.placed, hknows.complete⟩

end Keeps

/-! ### Runs -/

section Runs

/-- The disk, and where every call stands. -/
abbrev World (κ : Type) := Crew.World κ (Access κ) Answer Outcome (Disk κ)

/-- A call that was answered. -/
abbrev Entry (κ : Type) := Crew.Entry κ (Access κ) Answer

/-- No runtime has ever run, and no call has begun. -/
def begun (serde : Serde) (ops : κ → Op) : World κ where
  state :=
    { path := none
      temporary := fun _ => false
      content := fun _ => []
      placed := fun _ => False
      ended := fun _ => False }
  program k := (ops k).program serde k

/-- A record leaves the runtime file because another one was published, or because it was removed
by a caller that had checked for the runtime it is of; a client does that to a runtime that has
ended only. -/
def Leaves (w : World κ) (e : Entry κ) (w' : World κ) (d : RuntimeDiscovery) : Prop :=
  (∃ file, e.call = .rename file ∧ w'.state.path = some file) ∨
  ∃ check, e.call = .removeFile check ∧ check.runtimeId = d.runtimeId ∧
    (check.foundDead = true → w.state.ended d.runtimeId)

/-- What runtimes and clients rely on. -/
structure Safe (serde : Serde) (ops : κ → Op) (ok : World κ → Entry κ → Prop) : Prop where
  /-- The runtime file is there with one complete valid record, or not at all. -/
  whole : ∀ es w, Trace (Does ops) (fun _ _ => True) (begun serde ops) es w →
    ∀ file, w.state.path = some file → ∃ d, Complete ops w.state file d
  /-- A client that finds a record finds such a one. -/
  finds : ∀ es w, Trace (Does ops) (fun _ _ => True) (begun serde ops) es w →
    ∀ k d, w.program k = .done (.found (some d)) → ∃ file, Complete ops w.state file d
  /-- A record is taken away by its own runtime, after its end, or by another record. -/
  leaves : ∀ es w e w', Trace (Does ops) ok (begun serde ops) es w → ok w e →
    Step (Does ops) w e w' → ∀ file d, w.state.path = some file → Complete ops w.state file d →
    w'.state.path ≠ some file → Leaves w e w' d

/-- A file that is removed is the one that was opened for the check. -/
def Unreplaced (w : World κ) (e : Entry κ) : Prop :=
  ∀ check, e.call = .removeFile check → ∀ file, w.state.path = some file → file = check.file

variable {serde : Serde} {ok : World κ → Entry κ → Prop} {es : List (Entry κ)} {w w' : World κ}
  {e : Entry κ}

theorem kept_of_trace (h : Trace (Does ops) ok (begun serde ops) es w) :
    Whole ops w.state ∧ ∀ k, Kept ops k (w.program k) w.state := by
  refine h.keeps code_sound ⟨?_, ?_⟩ fun k => ?_
  · intro file hfile
    cases hfile
  · intro file hfile
    cases hfile
  · exact kept_program fun hplaced => hplaced

/-- A step by which the runtime file ceases to be what it was. -/
theorem leaves_of_step (hwhole : Whole ops w.state)
    (hkept : ∀ k, Kept ops k (w.program k) w.state) (hok : Unreplaced w e)
    (hstep : Step (Does ops) w e w') {file : κ} {d : RuntimeDiscovery}
    (hpath : w.state.path = some file) (hcomplete : Complete ops w.state file d)
    (hgone : w'.state.path ≠ some file) : Leaves w e w' d := by
  have hgood : Good ops e.task w.state e.call := hstep.good code_sound hwhole hkept
  obtain ⟨next, -, hanswer, -⟩ := hstep.task
  obtain ⟨k, c, a⟩ := e
  cases c with
  | rename g =>
      cases a with
      | error text => exact absurd (by rw [show w'.state = w.state from hanswer, hpath]) hgone
      | ok _ =>
          refine .inl ⟨g, rfl, ?_⟩
          rw [hanswer.2]
  | removeFile check =>
      obtain ⟨-, d', hcomplete', hid, hdead⟩ := hgood
      have hfile : file = check.file := hok check rfl file hpath
      subst hfile
      have hd : d' = d := by
        have hops := hcomplete'.1.symm.trans hcomplete.1
        cases hops
        rfl
      subst hd
      exact .inr ⟨check, rfl, hid.symm, hdead⟩
  | createNew g =>
      refine absurd ?_ hgone
      cases a with
      | error text => rw [show w'.state = w.state from hanswer, hpath]
      | ok _ => rw [show w'.state = _ from hanswer, hpath]
  | write g bytes =>
      refine absurd ?_ hgone
      cases a with
      | error text =>
          obtain ⟨part, -, hstate⟩ := hanswer
          rw [hstate, hpath]
      | ok _ => rw [show w'.state = _ from hanswer, hpath]
  | removeTemporary g =>
      refine absurd ?_ hgone
      cases a with
      | error text => rw [show w'.state = w.state from hanswer, hpath]
      | ok _ => rw [show w'.state = _ from hanswer, hpath]
  | processEnds id =>
      refine absurd ?_ hgone
      cases a with
      | error text => rw [show w'.state = w.state from hanswer, hpath]
      | ok _ => rw [show w'.state = _ from hanswer, hpath]
  | metadata => exact absurd (by rw [hanswer.1, hpath]) hgone
  | openPath => exact absurd (by rw [hanswer.1, hpath]) hgone
  | permissions g => exact absurd (by rw [show w'.state = w.state from hanswer, hpath]) hgone
  | read g => exact absurd (by rw [hanswer.1, hpath]) hgone
  | isAlive pid => exact absurd (by rw [hanswer.1, hpath]) hgone
  | _ =>
      refine absurd ?_ hgone
      cases a <;> rw [show w'.state = w.state from hanswer, hpath]

/-- Half a record is never seen, and in every run in which no publication comes between a check
and the removal it decides on, no removal takes another record than the one that was checked. -/
theorem discovery_safe (serde : Serde) (ops : κ → Op) : Safe serde ops Unreplaced where
  whole _ _ h file hpath := by
    have hwhole := (kept_of_trace h).1
    exact hwhole.placed file (hwhole.path file hpath)
  finds _ _ h k d hdone := by
    obtain ⟨hwhole, hkept⟩ := kept_of_trace h
    have hk := hkept k
    rw [hdone] at hk
    obtain ⟨file, -, hcomplete⟩ := hk.done (Q := fun _ => Finds ops) code_sound hwhole
    exact ⟨file, hcomplete⟩
  leaves _ _ _ _ h hok hstep _ _ hpath hcomplete hgone := by
    obtain ⟨hwhole, hkept⟩ := kept_of_trace h
    exact leaves_of_step hwhole hkept hok hstep hpath hcomplete hgone

/-! ### A publication that meets no failure -/

theorem alone_writeAll (hfail : String → Run κ) (next : Run κ) (chunks : List (List UInt8))
    (s : Disk κ) : Alone (Does ops) k (writeAll k hfail next chunks) s next
      { s with content := Function.update s.content k (s.content k ++ chunks.flatten) } := by
  induction chunks generalizing s with
  | nil =>
      rw [List.flatten_nil, List.append_nil, Function.update_eq_self]
      exact .refl k next s
  | cons chunk chunks ih =>
      refine .call (.ok ()) rfl ?_
      have hrest := ih { s with content := Function.update s.content k (s.content k ++ chunk) }
      simp only [Function.update_self, Function.update_idem, List.append_assoc] at hrest
      exact hrest

/-- The disk after a publication that meets no failure: its record is in place. -/
def Disk.publish (s : Disk κ) (file : κ) (d : RuntimeDiscovery) : Disk κ where
  path := some file
  temporary := Function.update s.temporary file false
  content := Function.update s.content file d.text
  placed f := f = file ∨ s.placed f
  ended := s.ended

theorem content_publish (s : Disk κ) (file : κ) (d : RuntimeDiscovery) :
    (s.publish file d).content file = d.text := Function.update_self ..

theorem alone_publish (serde : Serde) (ops : κ → Op) (k : κ) (hvalid : d.validate = .ok ())
    (s : Disk κ) :
    Alone (Does ops) k (publish serde k d) s (.done (.published (.ok ()))) (s.publish k d) := by
  rw [publish, hvalid]
  refine .call (.ok ()) rfl (.call (.ok ()) rfl (.call (.ok ()) rfl ?_))
  refine .trans (alone_writeAll (undo k) (sync k) _ _) ?_
  have htext : (serde.toWriter d ++ [[10]]).flatten = d.text := by
    rw [List.flatten_append, serde.toWriter_flatten]
    rfl
  rw [htext]
  simp only [Function.update_self, Function.update_idem, List.nil_append]
  refine .call (.ok ()) rfl (.call (.ok ()) rfl (.call (.ok ()) ⟨?_, rfl⟩ ?_))
  · exact Function.update_self ..
  · rw [Function.update_idem]
    exact .call (.ok ()) rfl (.call (.ok ()) rfl (.refl k _ _))

/-! ### A removal that takes a new record -/

/-- A `serde_json` that writes a record in one piece. -/
noncomputable def onePiece : Serde where
  toWriter d := [RuntimeDiscovery.serializer.toVec d]
  toWriter_flatten _ := List.flatten_singleton
  fromSlice := Function.partialInv RuntimeDiscovery.text
  fromSlice_text := Function.partialInv_left RuntimeDiscovery.text_injective

/-- The record of a runtime. -/
def sampleDiscovery (n : UInt8) : RuntimeDiscovery where
  schemaVersion := 1
  runtimeId := .ofByte n
  pid := 7
  appVersion := "0.3.3"
  protocolMin := 1
  protocolMax := 1
  endpoint := "broker.sock"
  startedAt := .ofDay 1

/-- A runtime publishes its record and removes it at its end; another one publishes its own. -/
def threeOps : Fin 3 → Op
  | 0 => .publish (sampleDiscovery 1)
  | 1 => .removeIfOwned (.ofByte 1)
  | 2 => .publish (sampleDiscovery 2)

/-- An owner that has found its own record is about to remove it. -/
theorem alone_removeIfOwned (serde : Serde) (ops : κ → Op) (k : κ) {file : κ} {s : Disk κ}
    (hpath : s.path = some file) (hcontent : s.content file = d.text) :
    Alone (Does ops) k (removeIfOwned serde d.runtimeId) s
      (.call (.removeFile ⟨file, d.runtimeId, false⟩) fun _ => .done .removed) s := by
  have howned : (serde.fromSlice (s.content file)).any (·.runtimeId = d.runtimeId) = true := by
    rw [hcontent, serde.fromSlice_text]
    exact decide_eq_true rfl
  refine .call (some file) ⟨rfl, ?_⟩ (.call (some (s.content file)) ⟨rfl, ?_⟩ ?_)
  · rintro f ⟨⟩
    exact hpath
  · rintro bytes ⟨⟩
    rfl
  · dsimp only
    rw [if_pos howned]
    exact .refl k _ s

theorem removal_takes_new_record : ¬ Safe onePiece threeOps (fun _ _ => True) := by
  intro hsafe
  have hvalid₁ : (sampleDiscovery 1).validate = .ok () := by decide
  have hvalid₂ : (sampleDiscovery 2).validate = .ok () := by decide
  let w₀ := begun onePiece threeOps
  let s₁ := w₀.state.publish 0 (sampleDiscovery 1)
  let s₂ := s₁.publish 2 (sampleDiscovery 2)
  -- The first record is published.
  obtain ⟨es₁, h₁⟩ := alone_publish onePiece threeOps 0 hvalid₁ w₀.state w₀ rfl rfl
  let w₁ := w₀.goOn 0 (.done (.published (.ok ()))) s₁
  -- Its runtime finds it.
  have hcontent : s₁.content 0 = (sampleDiscovery 1).text := content_publish _ _ _
  have hpath : s₁.path = some 0 := rfl
  obtain ⟨es₂, h₂⟩ := alone_removeIfOwned onePiece threeOps 1 hpath hcontent w₁ rfl rfl
  let w₂ := w₁.goOn 1 (.call (.removeFile ⟨0, .ofByte 1, false⟩) fun _ => .done .removed) s₁
  -- The second record is published, and the first runtime removes what is there.
  obtain ⟨es₃, h₃⟩ := alone_publish onePiece threeOps 2 hvalid₂ s₁ w₂ rfl rfl
  let w₃ := w₂.goOn 2 (.done (.published (.ok ()))) s₂
  have hstep : Step (Does threeOps) w₃ ⟨1, .removeFile ⟨0, .ofByte 1, false⟩, .ok ()⟩
      (w₃.goOn 1 (.done .removed) { s₂ with path := none }) := by
    have hprogram : w₃.program 1 =
        .call (.removeFile ⟨0, .ofByte 1, false⟩) fun _ => .done .removed := rfl
    have hanswer : Does threeOps w₃.state (.removeFile ⟨0, .ofByte 1, false⟩) (.ok ())
        { s₂ with path := none } := ⟨Option.some_ne_none 2, rfl⟩
    exact .answer hprogram hanswer
  have hcomplete : Complete threeOps w₃.state 2 (sampleDiscovery 2) :=
    ⟨rfl, hvalid₂, content_publish _ _ _⟩
  have hleaves := hsafe.leaves _ w₃ _ _ (h₁.append (h₂.append h₃)) trivial hstep 2
    (sampleDiscovery 2) rfl hcomplete (by intro h; cases h)
  rcases hleaves with ⟨file, hcall, -⟩ | ⟨check, hcall, hid, -⟩
  · cases hcall
  · cases hcall
    exact absurd hid (by decide)

end Runs

end Discovery
end Broker
end AgentDb
