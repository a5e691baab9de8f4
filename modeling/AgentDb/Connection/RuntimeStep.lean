import AgentDb.Connection.RuntimeTask

/-!
# Moves of the connection cache

What a task holds is read off its stage, and each move takes it from one holding to the next.
`Memory.Yields` is what an operation does for its task, and `Task.Moved` is everything a move
does, to the memory and to the map of slots.
-/

namespace AgentDb
namespace Connection

open Store

/-! ### What a stage holds -/

/-- The entry that a call of `connect` uses, with the context it uses it for. -/
def ConnectStage.use : ConnectStage → Option (Context × EntryId)
  | .cached c _ e | .handOff c _ e | .relocking c _ e | .dropping c _ e | .leased c e _ =>
      some (c, e)
  | _ => none

/-- The slot that it has locked. -/
def ConnectStage.locks : ConnectStage → Option SlotId
  | .opening _ sid | .connecting _ sid _ _ | .failed sid | .opened _ sid _ _
  | .verified _ sid _ _ => some sid
  | _ => none

/-- The lease that it has in hand. -/
def ConnectStage.lease : ConnectStage → Option LeaseId
  | .connecting _ _ lease _ => some lease
  | .opened _ _ lease _ | .verified _ _ lease _ | .closing lease => lease
  | _ => none

/-- The slot that it has found under its key. -/
def ConnectStage.place : ConnectStage → Option (Context × SlotId)
  | .locking c sid | .cached c sid _ | .handOff c sid _ | .relocking c sid _ | .dropping c sid _
  | .looping c sid | .opening c sid | .connecting c sid _ _ | .opened c sid _ _
  | .verified c sid _ _ => some (c, sid)
  | _ => none

def ConnectStage.holding (stage : ConnectStage) (retiring : List (EntryId × Retirement)) :
    Holding := ⟨stage.use, retiring, stage.locks, stage.lease⟩

/-- The slot that a mutation has removed and not emptied yet. -/
def MutationStage.takes : MutationStage → Option SlotId
  | .taking sid _ => some sid
  | _ => none

def Task.holding (task : Task) : Holding :=
  match task.stage with
  | .connect stage => stage.holding task.retiring
  | _ => ⟨none, task.retiring, none, none⟩

def Task.place (task : Task) : Option (Context × SlotId) :=
  match task.stage with
  | .connect stage => stage.place
  | _ => none

def Task.takes (task : Task) : Option SlotId :=
  match task.stage with
  | .mutation stage => stage.takes
  | _ => none

/-- The side of the gate a task asks for. -/
def Stage.mode : Stage → Option LockMode
  | .connect _ => some .read
  | .mutation _ => some .write
  | .idle | .timer _ | .fired => none

theorem ConnectStage.reads_of_place {stage : ConnectStage} {p : Context × SlotId}
    (h : stage.place = some p) : stage.reads = true := by
  cases stage with
  | waiting => cases h
  | ended => cases h
  | _ => rfl

theorem MutationStage.writes_of_takes {stage : MutationStage} {sid : SlotId}
    (h : stage.takes = some sid) : stage.writes = true := by
  cases stage with
  | taking sid keys => rfl
  | _ => cases h

/-! ### What an operation does for its task -/

namespace Memory

variable {m m' : Memory} {e : EntryId} {sid : SlotId} {t u : TaskId} {lease : LeaseId}
  {h h' : Holding} {c : Context}

/-- The memory is as good as before, the others have what they had and the task has `h`. -/
structure Yields (t : TaskId) (m m' : Memory) (h : Holding) : Prop where
  ok : m'.Ok
  frame : Frame t m m'
  holds : m'.Holds t h

/-- A slot that has an entry or is locked for opening one. -/
def Busy (m : Memory) (sid : SlotId) : Prop :=
  (m.slot sid).entry ≠ none ∨ (m.slot sid).lockedBy ≠ none

/-- The map is the same, and no slot is in use that was not. -/
structure SameMap (m m' : Memory) : Prop where
  slots : m'.slots = m.slots
  key : ∀ sid, (m'.slot sid).key = (m.slot sid).key
  busy : ∀ sid, m'.Busy sid → m.Busy sid

/-- The map has what it had, and a slot that comes into use is the one of its key. -/
structure GrownMap (m m' : Memory) : Prop where
  slots : ∀ key sid, m.slots.get key = some sid → m'.slots.get key = some sid
  busy : ∀ sid, m'.Busy sid → m.Busy sid ∧ (m'.slot sid).key = (m.slot sid).key ∨
    m'.slots.get (m'.slot sid).key = some sid

theorem SameMap.refl (m : Memory) : SameMap m m := ⟨rfl, fun _ => rfl, fun _ h => h⟩

theorem SameMap.grown (hsame : SameMap m m') : GrownMap m m' where
  slots := fun key sid hkey => by rw [hsame.slots]; exact hkey
  busy := fun sid hbusy => .inl ⟨hsame.busy sid hbusy, hsame.key sid⟩

/-- An operation that leaves the slots alone leaves the map alone. -/
theorem SameMap.of_eq (hslots : m'.slots = m.slots) (hslot : m'.slot = m.slot) : SameMap m m' where
  slots := hslots
  key := fun sid => by rw [hslot]
  busy := fun sid hbusy => by
    unfold Busy at hbusy ⊢
    rw [hslot] at hbusy
    exact hbusy

/-- Writing one slot keeps the map if its key stays and it does not come into use. -/
theorem sameMap_setSlot {slot : ConnectionSlot} (hslots : m'.slots = m.slots)
    (hslot : ∀ sid', m'.slot sid' = if sid' = sid then slot else m.slot sid')
    (hkey : slot.key = (m.slot sid).key)
    (hbusy : slot.entry ≠ none ∨ slot.lockedBy ≠ none → m.Busy sid) : SameMap m m' where
  slots := hslots
  key := fun sid' => by
    rw [hslot]
    split
    · rename_i heq
      rw [hkey, heq]
    · rfl
  busy := fun sid' h => by
    unfold Busy at h
    rw [hslot] at h
    split at h
    · rename_i heq
      rw [heq]
      exact hbusy h
    · exact h

/-- Time, the next generation and the timers are nothing that the invariant speaks of. -/
theorem Ok.withRest (hm : m.Ok) (now nextGeneration : ℕ) (timers : List Timer) :
    ({ m with now, nextGeneration, timers } : Memory).Ok :=
  ⟨⟨hm.shares.slots, hm.shares.nodup, hm.shares.fresh, hm.shares.keys, hm.shares.slotted⟩,
    hm.leases.of_eq rfl rfl rfl rfl, ⟨hm.slots.mapped, hm.slots.fresh, hm.slots.locked⟩⟩

theorem Yields.refl (hm : m.Ok) (hh : m.Holds t h) : Yields t m m h := ⟨hm, .refl t m, hh⟩

/-- What happens after a change of nothing that the invariant speaks of. -/
theorem Yields.of_rest {m₀ : Memory} (hyields : Yields t m m' h) (hentry : m.entry = m₀.entry)
    (hslot : m.slot = m₀.slot) (hlease : m.lease = m₀.lease) : Yields t m₀ m' h :=
  ⟨hyields.ok, hyields.frame.of_eq hentry hslot hlease, hyields.holds⟩

theorem SameMap.of_rest {m₀ : Memory} (hsame : SameMap m m') (hslots : m.slots = m₀.slots)
    (hslot : m.slot = m₀.slot) : SameMap m₀ m' where
  slots := hsame.slots.trans hslots
  key := fun sid => by rw [hsame.key, hslot]
  busy := fun sid hbusy => by
    have hold := hsame.busy sid hbusy
    unfold Busy at hold ⊢
    rw [← hslot]
    exact hold

/-- The slot that a task has locked was made and is in use. -/
theorem Holds.made (hm : m.Ok) (hh : m.Holds t h) (hlocks : h.locks = some sid) :
    (m.slot sid).lockedBy = some t ∧ sid < m.nextSlot := by
  have hmine := (hh.locks sid).2 hlocks
  refine ⟨hmine, ?_⟩
  by_contra hge
  rw [(hm.slots.fresh sid (Nat.le_of_not_lt hge)).1] at hmine
  cases hmine

/-- An entry in a slot is retired by nobody. -/
theorem not_retirer_of_slot (hm : m.Ok) (hslot : (m.slot sid).entry = some e) (u : TaskId) :
    .retirer u ∉ (m.entry e).owners := by
  intro hmem
  rcases hm.shares.slotted e sid ((hm.shares.slots e sid).2 hslot) _ hmem with h | ⟨_, h⟩
  · cases h
  · cases h

/-- Whatever is in the slot is taken to be retired. -/
theorem yields_takeEntry (hm : m.Ok) (hh : m.Holds t h) (sid : SlotId) :
    Yields t m (m.takeEntry sid t).2
        { h with retiring := h.retiring ++ taken (m.takeEntry sid t).1 } ∧
      SameMap m (m.takeEntry sid t).2 ∧ ((m.takeEntry sid t).2.slot sid).entry = none ∧
      ((m.takeEntry sid t).2.slot sid).lockedBy = (m.slot sid).lockedBy := by
  unfold takeEntry
  split
  · rename_i hempty
    refine ⟨⟨hm, .refl t m, ?_⟩, .refl m, hempty, rfl⟩
    show m.Holds t { h with retiring := h.retiring ++ [] }
    rw [List.append_nil]
    exact hh
  · rename_i e hslot
    have hnew := not_retirer_of_slot hm hslot t
    obtain ⟨hok, hframe⟩ := ok_detachEntry hm hslot hnew
    exact ⟨⟨hok, hframe, holds_detachEntry hm hh hslot hnew⟩,
      sameMap_setSlot rfl (fun _ => slot_detachEntry) rfl fun _ => .inl (by rw [hslot]; nofun),
      by rw [slot_detachEntry, if_pos rfl]; rfl, by rw [slot_detachEntry, if_pos rfl]; rfl⟩

theorem sameMap_dropEntry (m : Memory) (e : EntryId) (o : Owner) :
    SameMap m (m.dropEntry e o) := by
  rw [dropEntry_eq]
  split
  · exact .of_eq (rest_freeEntry m e).2.1 (rest_freeEntry m e).1
  · exact .of_eq rfl rfl

theorem sameMap_freeEntry (m : Memory) (e : EntryId) : SameMap m (m.freeEntry e) :=
  .of_eq (rest_freeEntry m e).2.1 (rest_freeEntry m e).1

/-- The task drops the share that it uses. -/
theorem yields_dropUser (hm : m.Ok) (hh : m.Holds t h) (huse : h.use = some (c, e)) :
    Yields t m (m.dropEntry e (.user t)) { h with use := none } := by
  have howner := (hh.user e).2 (by rw [huse]; rfl)
  obtain ⟨hok, hframe⟩ := ok_dropEntry hm (.inl rfl) howner
  exact ⟨hok, hframe, holds_dropUser hm hh huse⟩

/-- The slot is unlocked. -/
theorem yields_unlock (hm : m.Ok) (hh : m.Holds t h) (hlocks : h.locks = some sid) :
    Yields t m (m.unlock sid) { h with locks := none } ∧ SameMap m (m.unlock sid) := by
  obtain ⟨hmine, hmade⟩ := hh.made hm hlocks
  obtain ⟨hok, hframe⟩ := ok_unlock hm hmade hmine
  refine ⟨⟨hok, hframe, holds_unlock hh hlocks⟩,
    sameMap_setSlot rfl (fun _ => slot_setSlot _) rfl ?_⟩
  rintro (hentry | hlocked)
  · exact .inl hentry
  · exact absurd rfl hlocked

/-- The lease in hand goes to release. -/
theorem yields_hand (hm : m.Ok) (hh : m.Holds t h) (hlease : h.lease = some lease) :
    Yields t m (m.hand lease) { h with lease := none } := by
  obtain ⟨hok, hframe⟩ := ok_hand hm ((hh.lease lease).2 hlease)
  exact ⟨hok, hframe, holds_hand hh hlease⟩

/-- A lock on an empty slot is the only use that begins. -/
theorem yields_lock (hm : m.Ok) (hh : m.Holds t h) (hnone : h.locks = none)
    {key : ConnectionCacheKey} (hkey : m.slots.get key = some sid)
    (hfree : (m.slot sid).lockedBy = none) (hempty : (m.slot sid).entry = none) :
    Yields t m (m.lock sid t) { h with locks := some sid } ∧ GrownMap m (m.lock sid t) := by
  obtain ⟨hslot, hmade⟩ := hm.slots.mapped key sid hkey
  obtain ⟨hok, hframe⟩ := ok_lock hm hmade hfree hempty
  have hread : ∀ sid', (m.lock sid t).slot sid' =
      if sid' = sid then (m.slot sid).lock t else m.slot sid' := fun _ => slot_setSlot _
  refine ⟨⟨hok, hframe, holds_lock hh hnone⟩, fun _ _ h => h, fun sid' hbusy => ?_⟩
  by_cases heq : sid' = sid
  · rw [hread, if_pos heq, ConnectionSlot.key_lock, hslot, heq]
    exact .inr hkey
  · unfold Busy at hbusy ⊢
    rw [hread, if_neg heq] at hbusy ⊢
    exact .inl ⟨hbusy, rfl⟩

/-- The slot of a key is in the map from now on. -/
theorem yields_lookup (hm : m.Ok) (hh : m.Holds t h) (key : ConnectionCacheKey) :
    Yields t m (m.lookup key).2 h ∧ GrownMap m (m.lookup key).2 ∧
      (m.lookup key).2.slots.get key = some (m.lookup key).1 := by
  obtain ⟨hget, hok, hframe, hentry, hlease, hlocks, hslots⟩ := lookup_spec (t := t) hm
  refine ⟨⟨hok, hframe, hh.of_eq hentry hlocks hlease⟩, ⟨hslots, fun sid hbusy => ?_⟩, hget⟩
  rcases slot_lookup m sid key with hsame | ⟨hlocked, hempty⟩
  · unfold Busy at hbusy ⊢
    rw [hsame] at hbusy ⊢
    exact .inl ⟨hbusy, rfl⟩
  · rcases hbusy with h | h
    · exact absurd hempty h
    · exact absurd hlocked h

/-- The opened pool is installed in the slot that was locked for it. -/
theorem yields_install (hm : m.Ok) (hh : m.Holds t h) (huse : h.use = none)
    (hlocks : h.locks = some sid) (hkey : m.slots.get c.key = some sid) (retireAt : Option ℕ)
    (generation : ℕ) :
    Yields t m (m.install sid t c h.lease retireAt generation).2
        { h with use := some (c, m.nextEntry), locks := none, lease := none } ∧
      SameMap m (m.install sid t c h.lease retireAt generation).2 := by
  obtain ⟨hmine, hmade⟩ := hh.made hm hlocks
  obtain ⟨hok, hframe⟩ : (m.install sid t c h.lease retireAt generation).2.Ok ∧
      Frame t m (m.install sid t c h.lease retireAt generation).2 :=
    ok_install hm hmine hmade (hm.slots.mapped c.key sid hkey).1.symm
      fun l hl => (hh.lease l).2 hl
  exact ⟨⟨hok, hframe, holds_install hm hh huse hlocks⟩,
    sameMap_setSlot rfl (fun _ => slot_install) rfl fun _ => .inr (by rw [hmine]; nofun)⟩

/-- A share of the entry that is found in a slot. -/
theorem yields_cloneEntry (hm : m.Ok) (hh : m.Holds t h) (hnone : h.use = none)
    (hkey : m.slots.get c.key = some sid) (hslot : (m.slot sid).entry = some e) :
    Yields t m (m.cloneEntry e (.user t)) { h with use := some (c, e) } := by
  have hnew : .user t ∉ (m.entry e).owners := fun hmem => by
    have huse := (hh.user e).1 hmem
    rw [hnone] at huse
    cases huse
  have howner := (hm.shares.slots e sid).2 hslot
  obtain ⟨hok, hframe⟩ := ok_cloneEntry hm hslot hnew
  refine ⟨hok, hframe, holds_cloneEntry hh hnone ?_ fun u hsole => ?_⟩
  · exact (hm.shares.keys sid e hslot).trans (hm.slots.mapped c.key sid hkey).1
  · rw [hsole, List.mem_singleton] at howner
    cases howner

theorem lt_of_not_expired {retireAt : Option ℕ} (h : m.expired retireAt = false) {r : ℕ}
    (hr : retireAt = some r) : m.now < r := by
  subst hr
  exact Nat.lt_of_not_le (of_decide_eq_false h)

end Memory

/-! ### What a move does -/

/-- A lease was handed off before its entry had to be retired. -/
def ConnectStage.InTime (m : Memory) : ConnectStage → Prop
  | .leased _ e handedOffAt => ∀ r, (m.entry e).value.retireAt = some r → handedOffAt < r
  | _ => True

/-- Everything a move of `connect` does. -/
structure Connected (t : TaskId) (m m' : Memory) (stage' : ConnectStage)
    (retiring' : List (EntryId × Retirement)) : Prop where
  yields : m.Yields t m' (stage'.holding retiring')
  grown : m.GrownMap m'
  place : ∀ c sid, stage'.place = some (c, sid) → m'.slots.get c.key = some sid
  inTime : stage'.InTime m'

section

variable {m m' : Memory} {t : TaskId} {retiring retiring' : List (EntryId × Retirement)}
  {stage stage' : ConnectStage} {move : Move}

/-- A move that leaves the map alone stays at its place or goes on without one. -/
theorem Connected.of_same (hyields : m.Yields t m' (stage'.holding retiring'))
    (hsame : m.SameMap m')
    (hplace : ∀ c sid, stage.place = some (c, sid) → m.slots.get c.key = some sid)
    (hstays : stage'.place = none ∨ stage'.place = stage.place) (hinTime : stage'.InTime m') :
    Connected t m m' stage' retiring' where
  yields := hyields
  grown := hsame.grown
  place := fun c sid h => by
    rw [hsame.slots]
    rcases hstays with hnone | hsame
    · rw [hnone] at h
      cases h
    · exact hplace c sid (hsame.symm.trans h)
  inTime := hinTime

theorem connected_of_connectStep (hm : m.Ok) (hh : m.Holds t (stage.holding retiring))
    (hplace : ∀ c sid, stage.place = some (c, sid) → m.slots.get c.key = some sid)
    (h : connectStep move m t retiring stage = some (stage', retiring', m')) :
    Connected t m m' stage' retiring' := by
  have hrefl := Memory.SameMap.refl m
  unfold connectStep at h
  -- one goal for each line of the definition
  split at h
  · obtain ⟨rfl, rfl, rfl⟩ := Option.some.inj h
    exact .of_same (.refl hm hh) hrefl hplace (.inl rfl) trivial
  · obtain ⟨rfl, rfl, rfl⟩ := Option.some.inj h
    exact .of_same (.refl hm hh) hrefl hplace (.inl rfl) trivial
  · rename_i c
    obtain ⟨rfl, rfl, rfl⟩ := Option.some.inj h
    obtain ⟨hyields, hgrown, hget⟩ := Memory.yields_lookup hm hh c.key
    refine ⟨hyields, hgrown, fun c' sid hplace' => ?_, trivial⟩
    obtain ⟨rfl, rfl⟩ := Prod.mk.inj (Option.some.inj hplace')
    exact hget
  · rename_i c sid
    have hkey := hplace c sid rfl
    split at h
    · cases h
    · rename_i hfree
      split at h
      · rename_i e hslot
        split at h
        · obtain ⟨rfl, rfl, rfl⟩ := Option.some.inj h
          obtain ⟨hyields, hsame, -⟩ := Memory.yields_takeEntry hm hh sid
          exact .of_same hyields hsame hplace (.inr rfl) trivial
        · obtain ⟨rfl, rfl, rfl⟩ := Option.some.inj h
          exact .of_same (Memory.yields_cloneEntry hm hh rfl hkey hslot) (.of_eq rfl rfl) hplace
            (.inr rfl) trivial
      · rename_i hempty
        obtain ⟨rfl, rfl, rfl⟩ := Option.some.inj h
        obtain ⟨hyields, hgrown⟩ := Memory.yields_lock hm hh rfl hkey (not_not.1 hfree) hempty
        exact ⟨hyields, hgrown, fun c' sid' hplace' => hplace c' sid' hplace', trivial⟩
  · obtain ⟨rfl, rfl, rfl⟩ := Option.some.inj h
    exact .of_same (.refl hm hh) hrefl hplace (.inr rfl) trivial
  · obtain ⟨rfl, rfl, rfl⟩ := Option.some.inj h
    exact .of_same (Memory.yields_dropUser hm hh rfl) (Memory.sameMap_dropEntry _ _ _) hplace
      (.inl rfl) trivial
  · split at h
    · obtain ⟨rfl, rfl, rfl⟩ := Option.some.inj h
      exact .of_same (.refl hm hh) hrefl hplace (.inr rfl) trivial
    · rename_i hfresh
      obtain ⟨rfl, rfl, rfl⟩ := Option.some.inj h
      exact .of_same (.refl hm hh) hrefl hplace (.inl rfl) fun r hr =>
        Memory.lt_of_not_expired (eq_false_of_ne_true hfresh) hr
  · split at h
    · cases h
    · split at h
      · rename_i _ sid _ _ _
        obtain ⟨rfl, rfl, rfl⟩ := Option.some.inj h
        obtain ⟨hyields, hsame, -⟩ := Memory.yields_takeEntry hm hh sid
        exact .of_same hyields hsame hplace (.inr rfl) trivial
      · obtain ⟨rfl, rfl, rfl⟩ := Option.some.inj h
        exact .of_same (.refl hm hh) hrefl hplace (.inr rfl) trivial
  · obtain ⟨rfl, rfl, rfl⟩ := Option.some.inj h
    exact .of_same (Memory.yields_dropUser hm hh rfl) (Memory.sameMap_dropEntry _ _ _) hplace
      (.inr rfl) trivial
  · split at h
    · rename_i hnil
      subst hnil
      obtain ⟨rfl, rfl, rfl⟩ := Option.some.inj h
      exact .of_same (.refl hm hh) hrefl hplace (.inr rfl) trivial
    · cases h
  · split at h
    · cases h
    · split at h
      · obtain ⟨rfl, rfl, rfl⟩ := Option.some.inj h
        exact .of_same (.refl hm hh) hrefl hplace (.inr rfl) trivial
      · obtain ⟨rfl, rfl, rfl⟩ := Option.some.inj h
        exact .of_same (.refl hm hh) hrefl hplace (.inl rfl) trivial
  · split at h
    · cases h
    · split at h
      · obtain ⟨rfl, rfl, rfl⟩ := Option.some.inj h
        exact .of_same (.refl hm hh) hrefl hplace (.inl rfl) trivial
      · obtain ⟨rfl, rfl, rfl⟩ := Option.some.inj h
        obtain ⟨hok, hframe⟩ := Memory.ok_issue (t := t) hm
        exact .of_same ⟨hok, hframe, Memory.holds_issue hm hh rfl⟩ (.of_eq rfl rfl) hplace
          (.inr rfl) trivial
  · obtain ⟨rfl, rfl, rfl⟩ := Option.some.inj h
    exact .of_same (.refl hm hh) hrefl hplace (.inr rfl) trivial
  · obtain ⟨rfl, rfl, rfl⟩ := Option.some.inj h
    exact .of_same (Memory.yields_hand hm hh rfl) (.of_eq rfl rfl) hplace (.inl rfl) trivial
  · obtain ⟨rfl, rfl, rfl⟩ := Option.some.inj h
    obtain ⟨hyields, hsame⟩ := Memory.yields_unlock hm hh rfl
    exact .of_same hyields hsame hplace (.inl rfl) trivial
  · obtain ⟨rfl, rfl, rfl⟩ := Option.some.inj h
    exact .of_same (.refl hm hh) hrefl hplace (.inr rfl) trivial
  · obtain ⟨rfl, rfl, rfl⟩ := Option.some.inj h
    obtain ⟨hyields, hsame⟩ := Memory.yields_unlock hm hh rfl
    exact .of_same hyields hsame hplace (.inl rfl) trivial
  · rename_i c sid lease retireAt
    have hm' : ({ m with nextGeneration := m.nextGeneration + 1 } : Memory).Ok :=
      hm.withRest m.now (m.nextGeneration + 1) m.timers
    have hh' : ({ m with nextGeneration := m.nextGeneration + 1 } : Memory).Holds t
        ((ConnectStage.verified c sid lease retireAt).holding retiring) :=
      hh.of_eq rfl (fun _ => rfl) rfl
    dsimp only at h
    split at h
    · obtain ⟨rfl, rfl, rfl⟩ := Option.some.inj h
      obtain ⟨hyields, hsame⟩ := Memory.yields_unlock hm' hh' rfl
      exact .of_same (hyields.of_rest rfl rfl rfl) (hsame.of_rest rfl rfl) hplace (.inl rfl) trivial
    · rename_i hfresh
      obtain ⟨rfl, rfl, rfl⟩ := Option.some.inj h
      obtain ⟨hyields, hsame⟩ := Memory.yields_install hm' hh' rfl rfl (hplace c sid rfl)
        retireAt m.nextGeneration
      refine .of_same (hyields.of_rest rfl rfl rfl) (hsame.of_rest rfl rfl) hplace (.inl rfl)
        fun r hr => ?_
      rw [Memory.entry_install, if_pos (by rfl)] at hr
      exact Memory.lt_of_not_expired (eq_false_of_ne_true hfresh) hr
  · rename_i lease
    obtain ⟨rfl, rfl, rfl⟩ := Option.some.inj h
    cases lease with
    | none => exact .of_same (.refl hm hh) hrefl hplace (.inl rfl) trivial
    | some lease =>
      exact .of_same (Memory.yields_hand hm hh rfl) (.of_eq rfl rfl) hplace (.inl rfl) trivial
  · obtain ⟨rfl, rfl, rfl⟩ := Option.some.inj h
    exact .of_same (Memory.yields_dropUser hm hh rfl) (Memory.sameMap_dropEntry _ _ _) hplace
      (.inl rfl) trivial
  · obtain ⟨rfl, rfl, rfl⟩ := Option.some.inj h
    exact .of_same (.refl hm hh) hrefl hplace (.inl rfl) trivial
  · cases h

/-- A move of `retire_entries`. -/
theorem yields_of_retireStep {h : Holding} (hm : m.Ok) (hh : m.Holds t h)
    (hstep : retireStep move m t h.retiring = some (retiring', m')) :
    m.Yields t m' { h with retiring := retiring' } ∧ m.SameMap m' := by
  unfold retireStep at hstep
  split at hstep
  · split at hstep
    · rename_i e hmem
      obtain ⟨rfl, rfl⟩ := Prod.mk.inj (Option.some.inj hstep)
      refine ⟨.refl hm (Memory.holds_tryUnwrap hh hmem fun howned => ?_), .refl m⟩
      by_contra hsole
      rw [if_neg hsole] at howned
      cases howned
    · cases hstep
  · split at hstep
    · rename_i e hmem
      obtain ⟨rfl, rfl⟩ := Prod.mk.inj (Option.some.inj hstep)
      have howner := (hh.retirer e).2 (List.mem_map_of_mem hmem)
      obtain ⟨hok, hframe⟩ := Memory.ok_dropEntry hm (.inr rfl) howner
      exact ⟨⟨hok, hframe, Memory.holds_dropRetirer hm hh hmem⟩, Memory.sameMap_dropEntry _ _ _⟩
    · cases hstep
  · split at hstep
    · rename_i e _ hmem
      obtain ⟨rfl, rfl⟩ := Prod.mk.inj (Option.some.inj hstep)
      obtain ⟨hok, hframe⟩ := Memory.ok_freeEntry hm (hh.owned e hmem)
      exact ⟨⟨hok, hframe, Memory.holds_freeEntry hm hh hmem⟩, Memory.sameMap_freeEntry _ _⟩
    · cases hstep
  · cases hstep

/-- A move of the task of `schedule_expiry`. -/
theorem yields_of_timerStep {timer : Timer} (hm : m.Ok)
    (hh : m.Holds t ⟨none, retiring, none, none⟩)
    (hstep : timerStep move m t retiring timer = some (retiring', m')) :
    m.Yields t m' ⟨none, retiring', none, none⟩ ∧ m.SameMap m' := by
  unfold timerStep at hstep
  split at hstep
  · split at hstep
    · cases hstep
    · split at hstep
      · obtain ⟨rfl, rfl⟩ := Prod.mk.inj (Option.some.inj hstep)
        obtain ⟨hyields, hsame, -⟩ := Memory.yields_takeEntry hm hh timer.slot
        exact ⟨hyields, hsame⟩
      · obtain ⟨rfl, rfl⟩ := Prod.mk.inj (Option.some.inj hstep)
        exact ⟨.refl hm hh, .refl m⟩
  · cases hstep

/-- What a task that is not in `connect` does to the map: a slot that it removes is one that it
takes, and one that it has taken is no longer in use. -/
structure Memory.ShrunkMap (m m' : Memory) (takes takes' : Option SlotId) : Prop where
  key : ∀ sid, (m'.slot sid).key = (m.slot sid).key
  busy : ∀ sid, m'.Busy sid → m.Busy sid
  slots : ∀ key sid, m'.slots.get key = some sid → m.slots.get key = some sid
  removed : ∀ key sid, m.slots.get key = some sid →
    m'.slots.get key = some sid ∨ takes' = some sid
  taken : ∀ sid, takes = some sid → takes' = some sid ∨ ¬ m'.Busy sid
  takes : ∀ sid, takes' = some sid → takes = some sid ∨ m'.slots.get (m'.slot sid).key = none

theorem Memory.SameMap.shrunk {takes : Option SlotId} (hsame : m.SameMap m') :
    m.ShrunkMap m' takes takes where
  key := hsame.key
  busy := hsame.busy
  slots := fun key sid h => by rw [← hsame.slots]; exact h
  removed := fun key sid h => .inl (by rw [hsame.slots]; exact h)
  taken := fun _ h => .inl h
  takes := fun _ h => .inl h

/-- A slot that is removed from the map and is about to be taken. -/
theorem Memory.shrunkMap_remove (hm : m.Ok) {key : ConnectionCacheKey} {sid : SlotId}
    (hkey : m.slots.get key = some sid) :
    m.ShrunkMap { m with slots := m.slots.filterRows fun k _ => k ≠ key } none (some sid) where
  key := fun _ => rfl
  busy := fun _ h => h
  slots := fun key' sid' h => by
    dsimp only at h
    rw [Table.get_filterRows_ne] at h
    grind
  removed := fun key' sid' h => by
    dsimp only
    rw [Table.get_filterRows_ne]
    grind
  taken := nofun
  takes := fun sid' h => by
    obtain rfl := Option.some.inj h
    refine .inr ?_
    dsimp only
    rw [(hm.slots.mapped key sid hkey).1, Table.get_filterRows_ne, if_pos rfl]

/-- A slot that is removed from the map is still what it was. -/
theorem Memory.yields_remove {h : Holding} (hm : m.Ok) (hh : m.Holds t h)
    (key : ConnectionCacheKey) :
    m.Yields t { m with slots := m.slots.filterRows fun k _ => k ≠ key } h := by
  refine ⟨⟨⟨hm.shares.slots, hm.shares.nodup, hm.shares.fresh, hm.shares.keys, hm.shares.slotted⟩,
    hm.leases.of_eq rfl rfl rfl rfl, ⟨fun key' sid hkey' => ?_, hm.slots.fresh, hm.slots.locked⟩⟩,
    (Memory.Frame.refl t m).to_eq rfl rfl rfl, hh.of_eq rfl (fun _ => rfl) rfl⟩
  dsimp only at hkey'
  rw [Table.get_filterRows_ne] at hkey'
  split at hkey'
  · cases hkey'
  · exact hm.slots.mapped key' sid hkey'

/-- A move of a scope operation or a `ConnectionMutation`. -/
theorem yields_of_mutationStep {stage stage' : MutationStage} (hm : m.Ok)
    (hh : m.Holds t ⟨none, retiring, none, none⟩)
    (hstep : mutationStep move m t retiring stage = some (stage', retiring', m')) :
    m.Yields t m' ⟨none, retiring', none, none⟩ ∧ m.ShrunkMap m' stage.takes stage'.takes ∧
      (stage'.takes ≠ none → stage.writes = true) ∧
      (stage'.writes = true → stage.writes = true) := by
  have hrefl : ∀ takes, m.ShrunkMap m takes takes := fun takes => (Memory.SameMap.refl m).shrunk
  unfold mutationStep at hstep
  split at hstep
  · obtain ⟨rfl, rfl, rfl⟩ := Option.some.inj hstep
    exact ⟨.refl hm hh, hrefl _, fun _ => rfl, fun _ => rfl⟩
  · obtain ⟨rfl, rfl, rfl⟩ := Option.some.inj hstep
    exact ⟨.refl hm hh, hrefl _, fun _ => rfl, fun _ => rfl⟩
  · split at hstep
    · obtain ⟨rfl, rfl, rfl⟩ := Option.some.inj hstep
      exact ⟨.refl hm hh, hrefl _, fun _ => rfl, fun _ => rfl⟩
    · rename_i hkey
      obtain ⟨rfl, rfl, rfl⟩ := Option.some.inj hstep
      exact ⟨Memory.yields_remove hm hh _, Memory.shrunkMap_remove hm hkey, fun _ => rfl,
        fun _ => rfl⟩
  · split at hstep
    · cases hstep
    · rename_i sid keys hfree
      obtain ⟨rfl, rfl, rfl⟩ := Option.some.inj hstep
      obtain ⟨hyields, hsame, hempty, hkept⟩ := Memory.yields_takeEntry hm hh sid
      have hshrunk : m.ShrunkMap _ none none := hsame.shrunk
      refine ⟨hyields, { hshrunk with taken := fun sid' htakes => .inr ?_, takes := nofun },
        fun h => absurd rfl h, fun _ => rfl⟩
      obtain rfl := Option.some.inj htakes
      rintro (hentry | hlocked)
      · exact hentry hempty
      · exact hlocked (hkept.trans (not_not.1 hfree))
  · obtain ⟨rfl, rfl, rfl⟩ := Option.some.inj hstep
    exact ⟨.refl hm hh, hrefl _, fun _ => rfl, fun _ => rfl⟩
  · split at hstep
    · rename_i hnil
      subst hnil
      obtain ⟨rfl, rfl, rfl⟩ := Option.some.inj hstep
      exact ⟨.refl hm hh, hrefl _, fun h => absurd rfl h, nofun⟩
    · cases hstep
  · cases hstep

/-- What a task reads the map for: a reader adds to it, everybody else leaves it or takes from
it. -/
inductive Task.MapMoved (m m' : Memory) (task task' : Task) : Prop
  | grown (hreads : task.stage.reads = true) (hgrown : m.GrownMap m')
      (hplace : ∀ c sid, task'.place = some (c, sid) → m'.slots.get c.key = some sid)
      (htakes : task'.takes = none)
  | shrunk (hshrunk : m.ShrunkMap m' task.takes task'.takes)
      (hplace : task'.place = none ∨ task'.place = task.place ∧ task'.takes = none)
      (hwrites : task'.takes ≠ none → task.stage.writes = true)

/-- Everything a move of a task does. -/
structure Task.Moved (t : TaskId) (m m' : Memory) (task task' : Task) : Prop where
  yields : m.Yields t m' task'.holding
  mode : task'.stage.mode = task.stage.mode
  reads : task'.stage.reads = true → task.stage.reads = true
  writes : task'.stage.writes = true → task.stage.writes = true
  inTime : (∀ stage, task'.stage = .connect stage → stage.InTime m')
  map : Task.MapMoved m m' task task'

/-- A lease that was handed off in time stays so as long as its entry lives. -/
theorem ConnectStage.InTime.mono (h : stage.InTime m) (hframe : m.Frame t m')
    (hlives : ∀ c e, stage.use = some (c, e) → (m.entry e).owners ≠ []) : stage.InTime m' := by
  cases stage with
  | leased c e handedOffAt =>
    intro r hr
    rw [hframe.retireAt e (hlives c e rfl)] at hr
    exact h r hr
  | _ => trivial

theorem ConnectStage.reads_of_connectStep
    (h : connectStep move m t retiring stage = some (stage', retiring', m')) :
    stage.reads = true := by
  cases stage with
  | waiting => cases h
  | ended => cases h
  | _ => rfl

theorem Task.retiring_holding (task : Task) : task.holding.retiring = task.retiring := by
  unfold Task.holding
  split
  · rfl
  · rfl

/-- A task that has retired an entry has what it had but for that. -/
theorem Task.holding_retiring (task : Task) (retiring : List (EntryId × Retirement)) :
    ({ task with retiring } : Task).holding = { task.holding with retiring } := by
  obtain ⟨stage, _⟩ := task
  cases stage with
  | connect stage => rfl
  | _ => rfl

theorem moved_of_step {task task' : Task} (hm : m.Ok) (hh : m.Holds t task.holding)
    (hplace : ∀ c sid, task.place = some (c, sid) → m.slots.get c.key = some sid)
    (hinTime : ∀ stage, task.stage = .connect stage → stage.InTime m)
    (h : task.step move m t = some (task', m')) : Task.Moved t m m' task task' := by
  unfold Task.step at h
  split at h
  · rename_i retiring' m'' hretire
    obtain ⟨rfl, rfl⟩ := Prod.mk.inj (Option.some.inj h)
    rw [← Task.retiring_holding] at hretire
    obtain ⟨hyields, hsame⟩ := yields_of_retireStep hm hh hretire
    rw [← Task.holding_retiring] at hyields
    refine ⟨hyields, rfl, id, id, fun stage hstage => ?_, .shrunk hsame.shrunk ?_ ?_⟩
    · refine (hinTime stage hstage).mono hyields.frame fun c e huse => hh.lives (c := c) ?_
      unfold Task.holding
      rw [show task.stage = .connect stage from hstage]
      exact huse
    · obtain ⟨stage, retiring⟩ := task
      cases stage with
      | connect stage => exact .inr ⟨rfl, rfl⟩
      | _ => exact .inl rfl
    · intro htakes
      obtain ⟨stage, retiring⟩ := task
      cases stage with
      | mutation stage =>
        obtain ⟨sid, hsid⟩ := Option.ne_none_iff_exists'.1 htakes
        exact MutationStage.writes_of_takes hsid
      | _ => exact absurd rfl htakes
  · obtain ⟨stage, retiring⟩ := task
    cases stage with
    | idle => cases h
    | fired => cases h
    | connect stage =>
      obtain ⟨⟨stage', retiring', m''⟩, hstep, hout⟩ := Option.map_eq_some_iff.1 h
      obtain ⟨rfl, rfl⟩ := Prod.mk.inj hout
      have hreads := ConnectStage.reads_of_connectStep hstep
      have hmoved := connected_of_connectStep hm hh hplace hstep
      refine ⟨hmoved.yields, rfl, fun _ => hreads, fun h => absurd h Bool.false_ne_true,
        fun stage hstage => ?_,
        .grown hreads hmoved.grown hmoved.place rfl⟩
      obtain rfl := Stage.connect.inj hstage
      exact hmoved.inTime
    | timer timer =>
      obtain ⟨⟨retiring', m''⟩, hstep, hout⟩ := Option.map_eq_some_iff.1 h
      obtain ⟨rfl, rfl⟩ := Prod.mk.inj hout
      obtain ⟨hyields, hsame⟩ := yields_of_timerStep hm hh hstep
      exact ⟨hyields, rfl, fun h => absurd h Bool.false_ne_true,
        fun h => absurd h Bool.false_ne_true, fun stage hstage => (by cases hstage),
        .shrunk hsame.shrunk (.inl rfl) fun h => absurd rfl h⟩
    | mutation stage =>
      obtain ⟨⟨stage', retiring', m''⟩, hstep, hout⟩ := Option.map_eq_some_iff.1 h
      obtain ⟨rfl, rfl⟩ := Prod.mk.inj hout
      obtain ⟨hyields, hshrunk, htakes, hwrites⟩ := yields_of_mutationStep hm hh hstep
      exact ⟨hyields, rfl, fun h => absurd h Bool.false_ne_true, hwrites,
        fun stage hstage => (by cases hstage), .shrunk hshrunk (.inl rfl) htakes⟩

end

end Connection
end AgentDb
