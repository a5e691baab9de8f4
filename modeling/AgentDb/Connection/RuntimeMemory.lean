import AgentDb.Connection.Runtime

/-!
# What the shared memory of the connection cache keeps

`SlotsOk`, `SharesOk` and `LeasesOk` are kept by every operation on the memory, under what the task
that calls it knows. `Frame t` is what an operation of task `t` leaves to the other tasks: their
shares, their locks and their leases.
-/

namespace AgentDb
namespace Connection

open Store

/-! ### What is read after an operation -/

namespace ConnectionSlot

variable (slot : ConnectionSlot) (t : TaskId) (e : EntryId)

@[simp, grind =] theorem key_lock : (slot.lock t).key = slot.key := rfl
@[simp, grind =] theorem lockedBy_lock : (slot.lock t).lockedBy = some t := rfl
@[simp, grind =] theorem entry_lock : (slot.lock t).entry = slot.entry := rfl
@[simp, grind =] theorem key_unlock : slot.unlock.key = slot.key := rfl
@[simp, grind =] theorem lockedBy_unlock : slot.unlock.lockedBy = none := rfl
@[simp, grind =] theorem entry_unlock : slot.unlock.entry = slot.entry := rfl
@[simp, grind =] theorem key_take : slot.take.key = slot.key := rfl
@[simp, grind =] theorem lockedBy_take : slot.take.lockedBy = slot.lockedBy := rfl
@[simp, grind =] theorem entry_take : slot.take.entry = none := rfl
@[simp, grind =] theorem key_fill : (slot.fill e).key = slot.key := rfl
@[simp, grind =] theorem lockedBy_fill : (slot.fill e).lockedBy = none := rfl
@[simp, grind =] theorem entry_fill : (slot.fill e).entry = some e := rfl

end ConnectionSlot

namespace Memory

variable {m : Memory} {e e' : EntryId} {sid sid' : SlotId} {t u : TaskId} {o : Owner}
  {lease : LeaseId} {key : ConnectionCacheKey}

@[simp] theorem entry_setEntry (r : Rc Owner CacheEntry) :
    (m.setEntry e r).entry e' = if e' = e then r else m.entry e' :=
  Function.update_apply m.entry e r e'

@[simp] theorem slot_setEntry (r : Rc Owner CacheEntry) : (m.setEntry e r).slot = m.slot := rfl

@[simp] theorem slot_setSlot (slot : ConnectionSlot) :
    (m.setSlot sid slot).slot sid' = if sid' = sid then slot else m.slot sid' :=
  Function.update_apply m.slot sid slot sid'

@[simp] theorem entry_setSlot (slot : ConnectionSlot) : (m.setSlot sid slot).entry = m.entry := rfl

/-- An entry that is gone owns nothing and has no lease. -/
theorem entry_freeEntry : (m.freeEntry e).entry e' =
    if e' = e then ⟨[], { (m.entry e).value with managed := none }⟩ else m.entry e' := by
  unfold freeEntry takeManagedLease
  simp only [entry_setEntry, if_true]
  split
  · rename_i hnone
    rw [entry_setEntry]
    split
    · rw [← hnone]
    · rfl
  · rw [entry_setEntry]
    split
    · rfl
    · rename_i hne
      exact (entry_setEntry _).trans (if_neg hne)

theorem lease_freeEntry (l : LeaseId) : (m.freeEntry e).lease l =
    if (m.entry e).value.managed = some l then .handed else m.lease l := by
  unfold freeEntry takeManagedLease
  simp only [entry_setEntry, if_true]
  split
  · rename_i hnone
    rw [hnone, if_neg (by simp)]
    rfl
  · rename_i lease hsome
    rw [hsome]
    show Function.update m.lease lease .handed l = _
    rw [Function.update_apply]
    simp only [Option.some.injEq, eq_comm]

theorem handed_freeEntry :
    (m.freeEntry e).handed = m.handed ++ (m.entry e).value.managed.toList := by
  unfold freeEntry takeManagedLease
  simp only [entry_setEntry, if_true]
  split
  · rename_i hnone
    rw [hnone, Option.toList_none, List.append_nil]
    rfl
  · rename_i lease hsome
    rw [hsome]
    rfl

/-- Freeing an entry touches entries and leases only. -/
theorem rest_freeEntry (m : Memory) (e : EntryId) :
    (m.freeEntry e).slot = m.slot ∧ (m.freeEntry e).slots = m.slots ∧
      (m.freeEntry e).nextSlot = m.nextSlot ∧ (m.freeEntry e).nextEntry = m.nextEntry ∧
      (m.freeEntry e).nextLease = m.nextLease ∧ (m.freeEntry e).now = m.now := by
  unfold freeEntry takeManagedLease
  split
  · exact ⟨rfl, rfl, rfl, rfl, rfl, rfl⟩
  · exact ⟨rfl, rfl, rfl, rfl, rfl, rfl⟩

/-- The last share that is dropped frees the entry. -/
theorem dropEntry_eq (m : Memory) (e : EntryId) (o : Owner) : m.dropEntry e o =
    if (m.entry e).owners.erase o = [] then m.freeEntry e
    else m.setEntry e ((m.entry e).drop o) := by
  unfold dropEntry
  simp only [entry_setEntry, if_true]
  show (if (m.entry e).owners.erase o = [] then _ else _) = _
  split
  · rename_i hlast
    unfold freeEntry
    rw [show (m.entry e).drop o = { m.entry e with owners := [] } by
      unfold Rc.drop
      rw [hlast]]
  · rfl

/-! ### The invariants -/

/-- Shares of the slots are what the slots say, a slot holds what was opened for its key, and
nobody retires an entry that a slot holds. -/
structure SharesOk (m : Memory) : Prop where
  slots : ∀ e sid, .slot sid ∈ (m.entry e).owners ↔ (m.slot sid).entry = some e
  nodup : ∀ e, (m.entry e).owners.Nodup
  fresh : ∀ e, m.nextEntry ≤ e → (m.entry e).owners = []
  keys : ∀ sid e, (m.slot sid).entry = some e →
    (m.entry e).value.opener.key = (m.slot sid).key
  slotted : ∀ e sid, .slot sid ∈ (m.entry e).owners →
    ∀ o ∈ (m.entry e).owners, o = .slot sid ∨ ∃ u, o = .user u

/-- An entry keeps the lease it was opened with as long as somebody owns it, and its lease has
been handed to release when nobody does. -/
structure LeasesOk (m : Memory) : Prop where
  lifetime : ∀ e, (m.entry e).value.managed =
    if (m.entry e).owners = [] then none else (m.entry e).value.issued
  entry : ∀ e lease, (m.entry e).value.managed = some lease ↔ m.lease lease = .entry e
  issued : ∀ e lease, (m.entry e).value.issued = some lease →
    m.lease lease = .entry e ∨ m.lease lease = .handed
  nodup : m.handed.Nodup
  handed : ∀ lease, lease ∈ m.handed ↔ m.lease lease = .handed
  fresh : ∀ lease, m.nextLease ≤ lease → m.lease lease = .unissued

/-- The map leads to slots of the right key, and a slot that is locked for opening is empty. -/
structure SlotsOk (m : Memory) : Prop where
  mapped : ∀ key sid, m.slots.get key = some sid → (m.slot sid).key = key ∧ sid < m.nextSlot
  fresh : ∀ sid, m.nextSlot ≤ sid → (m.slot sid).lockedBy = none ∧ (m.slot sid).entry = none
  locked : ∀ sid, (m.slot sid).lockedBy ≠ none → (m.slot sid).entry = none

/-- What an operation of task `t` leaves to the others. -/
structure Frame (t : TaskId) (m m' : Memory) : Prop where
  users : ∀ u e, u ≠ t → (.user u ∈ (m'.entry e).owners ↔ .user u ∈ (m.entry e).owners)
  retirers : ∀ u e, u ≠ t → (.retirer u ∈ (m'.entry e).owners ↔ .retirer u ∈ (m.entry e).owners)
  sole : ∀ u e, u ≠ t → (m.entry e).owners = [.retirer u] → (m'.entry e).owners = [.retirer u]
  opener : ∀ e, (m.entry e).owners ≠ [] → (m'.entry e).value.opener = (m.entry e).value.opener
  retireAt : ∀ e, (m.entry e).owners ≠ [] →
    (m'.entry e).value.retireAt = (m.entry e).value.retireAt
  locks : ∀ u sid, u ≠ t → ((m'.slot sid).lockedBy = some u ↔ (m.slot sid).lockedBy = some u)
  leases : ∀ u lease, u ≠ t → (m'.lease lease = .task u ↔ m.lease lease = .task u)

theorem Frame.refl (t : TaskId) (m : Memory) : Frame t m m :=
  ⟨fun _ _ _ => .rfl, fun _ _ _ => .rfl, fun _ _ _ h => h, fun _ _ => rfl, fun _ _ => rfl,
    fun _ _ _ => .rfl, fun _ _ _ => .rfl⟩

/-- A frame depends on nothing but the entries, the mutexes and the leases. -/
theorem Frame.of_eq {m₀ m m' : Memory} (h : Frame t m m') (hentry : m.entry = m₀.entry)
    (hslot : m.slot = m₀.slot) (hlease : m.lease = m₀.lease) : Frame t m₀ m' where
  users := by rw [← hentry]; exact h.users
  retirers := by rw [← hentry]; exact h.retirers
  sole := by rw [← hentry]; exact h.sole
  opener := by rw [← hentry]; exact h.opener
  retireAt := by rw [← hentry]; exact h.retireAt
  locks := by rw [← hslot]; exact h.locks
  leases := by rw [← hlease]; exact h.leases

theorem Frame.to_eq {m m' m₁ : Memory} (h : Frame t m m') (hentry : m₁.entry = m'.entry)
    (hslot : m₁.slot = m'.slot) (hlease : m₁.lease = m'.lease) : Frame t m m₁ where
  users := by rw [hentry]; exact h.users
  retirers := by rw [hentry]; exact h.retirers
  sole := by rw [hentry]; exact h.sole
  opener := by rw [hentry]; exact h.opener
  retireAt := by rw [hentry]; exact h.retireAt
  locks := by rw [hslot]; exact h.locks
  leases := by rw [hlease]; exact h.leases

/-- What is said of the leases depends on nothing but the entries and the leases. -/
theorem LeasesOk.of_eq {m m' : Memory} (h : m.LeasesOk) (hentry : m'.entry = m.entry)
    (hlease : m'.lease = m.lease) (hhanded : m'.handed = m.handed)
    (hnext : m'.nextLease = m.nextLease) : m'.LeasesOk where
  lifetime := by rw [hentry]; exact h.lifetime
  entry := by rw [hentry, hlease]; exact h.entry
  issued := by rw [hentry, hlease]; exact h.issued
  nodup := by rw [hhanded]; exact h.nodup
  handed := by rw [hhanded, hlease]; exact h.handed
  fresh := by rw [hnext, hlease]; exact h.fresh

/-! ### Freeing an entry -/

theorem LeasesOk.freeEntry (h : m.LeasesOk) : (m.freeEntry e).LeasesOk where
  lifetime := by
    intro e'
    rw [entry_freeEntry]
    split
    · simp
    · exact h.lifetime e'
  entry := by
    intro e' l
    rw [entry_freeEntry, lease_freeEntry]
    grind [h.entry]
  issued := by
    intro e' l hl
    rw [entry_freeEntry] at hl
    rw [lease_freeEntry]
    grind [h.issued, h.entry]
  nodup := by
    rw [handed_freeEntry]
    grind [h.nodup, h.handed, h.entry]
  handed := by
    intro l
    rw [handed_freeEntry, lease_freeEntry]
    grind [h.handed]
  fresh := by
    intro l hl
    rw [lease_freeEntry]
    rw [(rest_freeEntry m e).2.2.2.2.1] at hl
    grind [h.fresh, h.entry]

theorem SharesOk.freeEntry (h : m.SharesOk) (hslots : ∀ sid, .slot sid ∉ (m.entry e).owners) :
    (m.freeEntry e).SharesOk where
  slots := by
    intro e' sid
    rw [entry_freeEntry, (rest_freeEntry m e).1]
    grind [h.slots]
  nodup := by
    intro e'
    rw [entry_freeEntry]
    grind [h.nodup]
  fresh := by
    intro e' he
    rw [entry_freeEntry]
    rw [(rest_freeEntry m e).2.2.2.1] at he
    grind [h.fresh]
  keys := by
    intro sid e' he
    rw [(rest_freeEntry m e).1] at he ⊢
    rw [entry_freeEntry]
    grind [h.keys]
  slotted := by
    intro e' sid
    rw [entry_freeEntry]
    have hold := h.slotted e' sid
    grind

theorem SlotsOk.freeEntry (h : m.SlotsOk) : (m.freeEntry e).SlotsOk := by
  obtain ⟨hslot, hslots, hnext, -⟩ := rest_freeEntry m e
  constructor
  · rw [hslot, hslots, hnext]
    exact h.mapped
  · rw [hslot, hnext]
    exact h.fresh
  · rw [hslot]
    exact h.locked

theorem frame_freeEntry (h : m.LeasesOk)
    (hmine : ∀ o ∈ (m.entry e).owners, o = .user t ∨ o = .retirer t) :
    Frame t m (m.freeEntry e) where
  users := by
    intro u e' hu
    rw [entry_freeEntry]
    grind
  retirers := by
    intro u e' hu
    rw [entry_freeEntry]
    grind
  sole := by
    intro u e' hu hsole
    rw [entry_freeEntry, if_neg]
    · exact hsole
    · rintro rfl
      rcases hmine (.retirer u) (by rw [hsole]; exact List.mem_singleton_self _) with h | h
      · cases h
      · exact hu (Owner.retirer.inj h)
  opener := by
    intro e' _
    rw [entry_freeEntry]
    grind
  retireAt := by
    intro e' _
    rw [entry_freeEntry]
    grind
  locks := by
    intro u sid _
    rw [(rest_freeEntry m e).1]
  leases := by
    intro u l _
    rw [lease_freeEntry]
    grind [h.entry]

/-! ### Writing an entry that lives on -/

theorem LeasesOk.setEntry {r : Rc Owner CacheEntry} (h : m.LeasesOk)
    (hvalue : r.value = (m.entry e).value) (hlives : (m.entry e).owners ≠ []) (hr : r.owners ≠ []) :
    (m.setEntry e r).LeasesOk where
  lifetime := by
    intro e'
    rw [entry_setEntry]
    grind [h.lifetime]
  entry := by
    intro e' l
    rw [entry_setEntry]
    have hlease : (m.setEntry e r).lease = m.lease := rfl
    grind [h.entry]
  issued := by
    intro e' l hl
    rw [entry_setEntry] at hl
    have hissued : (m.entry e').value.issued = some l := by
      split at hl
      · rename_i heq
        rw [heq, ← hvalue]
        exact hl
      · exact hl
    exact h.issued e' l hissued
  nodup := h.nodup
  handed := h.handed
  fresh := h.fresh

theorem SharesOk.setEntry {r : Rc Owner CacheEntry} (h : m.SharesOk)
    (hvalue : r.value = (m.entry e).value) (hlives : (m.entry e).owners ≠ [])
    (hslots : ∀ sid, .slot sid ∈ r.owners ↔ .slot sid ∈ (m.entry e).owners)
    (hnodup : r.owners.Nodup)
    (hothers : ∀ o ∈ r.owners, o ∈ (m.entry e).owners ∨ ∃ u, o = .user u) :
    (m.setEntry e r).SharesOk where
  slots := by
    intro e' sid
    rw [entry_setEntry, slot_setEntry]
    grind [h.slots]
  nodup := by
    intro e'
    rw [entry_setEntry]
    grind [h.nodup]
  fresh := by
    intro e' he
    rw [entry_setEntry]
    have hnext : (m.setEntry e r).nextEntry = m.nextEntry := rfl
    grind [h.fresh]
  keys := by
    intro sid e' he
    rw [slot_setEntry] at he ⊢
    rw [entry_setEntry]
    grind [h.keys]
  slotted := by
    intro e' sid
    rw [entry_setEntry]
    have hold := h.slotted e' sid
    grind

theorem SlotsOk.setEntry {r : Rc Owner CacheEntry} (h : m.SlotsOk) : (m.setEntry e r).SlotsOk :=
  ⟨h.mapped, h.fresh, h.locked⟩

/-- The shares of the others and their sole ownership are untouched. -/
theorem frame_setEntry {r : Rc Owner CacheEntry} (hvalue : r.value = (m.entry e).value)
    (husers : ∀ u, u ≠ t → (.user u ∈ r.owners ↔ .user u ∈ (m.entry e).owners))
    (hretirers : ∀ u, u ≠ t → (.retirer u ∈ r.owners ↔ .retirer u ∈ (m.entry e).owners))
    (hsole : ∀ u, u ≠ t → (m.entry e).owners = [.retirer u] → r.owners = [.retirer u]) :
    Frame t m (m.setEntry e r) where
  users := by
    intro u e' hu
    rw [entry_setEntry]
    grind
  retirers := by
    intro u e' hu
    rw [entry_setEntry]
    grind
  sole := by
    intro u e' hu
    rw [entry_setEntry]
    grind
  opener := by
    intro e' _
    rw [entry_setEntry]
    grind
  retireAt := by
    intro e' _
    rw [entry_setEntry]
    grind
  locks := fun _ _ _ => Iff.rfl
  leases := fun _ _ _ => Iff.rfl

/-- Everything the shared memory keeps. -/
structure Ok (m : Memory) : Prop where
  shares : m.SharesOk
  leases : m.LeasesOk
  slots : m.SlotsOk

/-! ### The operations -/

/-- A task that finds an entry in a slot joins its owners. -/
theorem ok_cloneEntry (h : m.Ok) (hslot : (m.slot sid).entry = some e)
    (hnew : .user t ∉ (m.entry e).owners) :
    (m.cloneEntry e (.user t)).Ok ∧ Frame t m (m.cloneEntry e (.user t)) := by
  have howner := (h.shares.slots e sid).2 hslot
  have hlives : (m.entry e).owners ≠ [] := List.ne_nil_of_mem howner
  refine ⟨⟨h.shares.setEntry rfl hlives (fun sid' => ?_) (Rc.nodup_clone (h.shares.nodup e) hnew)
    (fun o ho => ?_), h.leases.setEntry rfl hlives (List.cons_ne_nil _ _), h.slots.setEntry⟩,
    frame_setEntry rfl (fun u hu => ?_) (fun u _ => ?_) fun u _ hsole => ?_⟩
  · simp
  · rw [Rc.mem_clone] at ho
    grind
  · simp [hu]
  · simp
  · rw [hsole, List.mem_singleton] at howner
    cases howner

/-- A task gives up a share of its own, and frees the entry with the last one. -/
theorem ok_dropEntry (h : m.Ok) (hmine : o = .user t ∨ o = .retirer t)
    (howner : o ∈ (m.entry e).owners) :
    (m.dropEntry e o).Ok ∧ Frame t m (m.dropEntry e o) := by
  have hnodup := h.shares.nodup e
  rw [dropEntry_eq]
  split
  · rename_i hlast
    have honly : ∀ o' ∈ (m.entry e).owners, o' = o := fun o' ho' => by
      by_contra hne
      exact List.ne_nil_of_mem ((Rc.mem_drop hnodup).2 ⟨hne, ho'⟩) hlast
    refine ⟨⟨h.shares.freeEntry fun sid hsid => ?_, h.leases.freeEntry, h.slots.freeEntry⟩,
      frame_freeEntry h.leases fun o' ho' => by rwa [honly o' ho']⟩
    have heq := honly _ hsid
    rcases hmine with rfl | rfl
    · cases heq
    · cases heq
  · rename_i hmore
    have hlives : (m.entry e).owners ≠ [] := List.ne_nil_of_mem howner
    refine ⟨⟨h.shares.setEntry rfl hlives (fun sid => ?_) (Rc.nodup_drop hnodup) (fun o' ho' => ?_),
      h.leases.setEntry rfl hlives hmore, h.slots.setEntry⟩,
      frame_setEntry rfl (fun u hu => ?_) (fun u hu => ?_) fun u hu hsole => ?_⟩
    · rw [Rc.mem_drop hnodup]
      grind
    · exact .inl ((Rc.mem_drop hnodup).1 ho').2
    · rw [Rc.mem_drop hnodup]
      grind
    · rw [Rc.mem_drop hnodup]
      grind
    · rw [hsole, List.mem_singleton] at howner
      grind

/-- A task frees an entry of which it is the sole owner. -/
theorem ok_freeEntry (h : m.Ok) (hsole : (m.entry e).owners = [.retirer t]) :
    (m.freeEntry e).Ok ∧ Frame t m (m.freeEntry e) := by
  refine ⟨⟨h.shares.freeEntry fun sid hsid => ?_, h.leases.freeEntry, h.slots.freeEntry⟩,
    frame_freeEntry h.leases fun o ho => ?_⟩
  · rw [hsole, List.mem_singleton] at hsid
    cases hsid
  · rw [hsole, List.mem_singleton] at ho
    exact .inr ho

/-! ### Taking the entry of a slot -/

theorem entry_detachEntry : (m.detachEntry sid e t).entry e' =
    if e' = e then (m.entry e).move (.slot sid) (.retirer t) else m.entry e' :=
  entry_setEntry _

theorem slot_detachEntry : (m.detachEntry sid e t).slot sid' =
    if sid' = sid then (m.slot sid).take else m.slot sid' :=
  slot_setSlot _

/-- Who owns an entry after its slot was emptied. -/
theorem mem_detachEntry (h : m.SharesOk) (hslot : (m.slot sid).entry = some e) (o : Owner) :
    o ∈ ((m.detachEntry sid e t).entry e').owners ↔
      (o = .retirer t ∧ e' = e) ∨ o ∈ (m.entry e').owners ∧ o ≠ .slot sid := by
  rw [entry_detachEntry]
  have hother := h.slots e' sid
  split
  · rename_i heq
    rw [heq, Rc.mem_move (h.nodup e)]
    grind
  · rename_i hne
    have hnot : o ∈ (m.entry e').owners → o ≠ .slot sid := by
      rintro hmem rfl
      exact hne (Option.some.inj ((hother.1 hmem).symm.trans hslot))
    grind

theorem SharesOk.detachEntry (h : m.SharesOk) (hslot : (m.slot sid).entry = some e)
    (hnew : .retirer t ∉ (m.entry e).owners) : (m.detachEntry sid e t).SharesOk where
  slots := by
    intro e' sid'
    rw [mem_detachEntry h hslot, slot_detachEntry]
    have hother := h.slots e' sid'
    grind
  nodup := by
    intro e'
    rw [entry_detachEntry]
    split
    · exact Rc.nodup_move (h.nodup e) hnew
    · exact h.nodup e'
  fresh := by
    intro e' he
    have hold := h.fresh e' he
    have howner := (h.slots e sid).2 hslot
    rw [entry_detachEntry, if_neg]
    · exact hold
    · rintro rfl
      rw [hold] at howner
      cases howner
  keys := by
    intro sid' e' he
    rw [slot_detachEntry] at he ⊢
    have hvalue : ((m.detachEntry sid e t).entry e').value = (m.entry e').value := by
      rw [entry_detachEntry]
      split
      · rename_i heq
        rw [heq]
        rfl
      · rfl
    rw [hvalue]
    have hkey := h.keys sid' e'
    grind
  slotted := by
    intro e' sid' howner o ho
    rw [mem_detachEntry h hslot] at howner ho
    have hold := h.slotted e' sid'
    have hsame := h.slotted e sid ((h.slots e sid).2 hslot)
    grind

theorem LeasesOk.detachEntry (h : m.LeasesOk) (hlives : (m.entry e).owners ≠ []) :
    (m.detachEntry sid e t).LeasesOk :=
  have hleases := h.setEntry (r := (m.entry e).move (.slot sid) (.retirer t)) rfl hlives
    (List.cons_ne_nil _ _)
  ⟨hleases.lifetime, hleases.entry, hleases.issued, hleases.nodup, hleases.handed, hleases.fresh⟩

theorem SlotsOk.detachEntry (h : m.SlotsOk) : (m.detachEntry sid e t).SlotsOk where
  mapped := by
    intro key sid' hkey
    have hmapped := h.mapped key sid' hkey
    rw [slot_detachEntry]
    have hnext : (m.detachEntry sid e t).nextSlot = m.nextSlot := rfl
    grind
  fresh := by
    intro sid' hfresh
    rw [slot_detachEntry]
    have hold := h.fresh sid' hfresh
    grind
  locked := by
    intro sid'
    rw [slot_detachEntry]
    have hold := h.locked sid'
    grind

/-- A task takes the entry of a slot, with its share. -/
theorem ok_detachEntry (h : m.Ok) (hslot : (m.slot sid).entry = some e)
    (hnew : .retirer t ∉ (m.entry e).owners) :
    (m.detachEntry sid e t).Ok ∧ Frame t m (m.detachEntry sid e t) := by
  have howner := (h.shares.slots e sid).2 hslot
  have hlives : (m.entry e).owners ≠ [] := List.ne_nil_of_mem howner
  refine ⟨⟨h.shares.detachEntry hslot hnew, h.leases.detachEntry hlives, h.slots.detachEntry⟩,
    ⟨?_, ?_, ?_, ?_, ?_, ?_, fun _ _ _ => Iff.rfl⟩⟩
  · intro u e' hu
    rw [mem_detachEntry h.shares hslot]
    grind
  · intro u e' hu
    rw [mem_detachEntry h.shares hslot]
    grind
  · intro u e' hu hsole
    rw [entry_detachEntry, if_neg]
    · exact hsole
    · rintro rfl
      rw [hsole, List.mem_singleton] at howner
      cases howner
  · intro e' _
    rw [entry_detachEntry]
    grind [Rc.move]
  · intro e' _
    rw [entry_detachEntry]
    grind [Rc.move]
  · intro u sid' _
    rw [slot_detachEntry]
    grind

/-! ### Slots and their mutexes -/

/-- A slot whose entry is left as it is. -/
theorem ok_setSlot {slot : ConnectionSlot} (h : m.Ok) (hkey : slot.key = (m.slot sid).key)
    (hentry : slot.entry = (m.slot sid).entry) (hmade : sid < m.nextSlot)
    (hlocked : slot.lockedBy ≠ none → slot.entry = none)
    (hothers : ∀ u, u ≠ t → (slot.lockedBy = some u ↔ (m.slot sid).lockedBy = some u)) :
    (m.setSlot sid slot).Ok ∧ Frame t m (m.setSlot sid slot) := by
  refine ⟨⟨⟨fun e sid' => ?_, h.shares.nodup, h.shares.fresh, fun sid' e he => ?_,
      h.shares.slotted⟩, h.leases.of_eq rfl rfl rfl rfl,
      ⟨fun key sid' hkey' => ?_, fun sid' hfresh => ?_, fun sid' => ?_⟩⟩,
    ⟨fun _ _ _ => Iff.rfl, fun _ _ _ => Iff.rfl, fun _ _ _ h => h, fun _ _ => rfl, fun _ _ => rfl,
      fun u sid' hu => ?_, fun _ _ _ => Iff.rfl⟩⟩
  · rw [slot_setSlot, entry_setSlot]
    have hold := h.shares.slots e sid'
    grind
  · rw [slot_setSlot] at he ⊢
    rw [entry_setSlot]
    have hold := h.shares.keys sid' e
    grind
  · rw [slot_setSlot]
    have hold := h.slots.mapped key sid' hkey'
    have hnext : (m.setSlot sid slot).nextSlot = m.nextSlot := rfl
    grind
  · rw [slot_setSlot]
    have hold := h.slots.fresh sid' hfresh
    have hnext : (m.setSlot sid slot).nextSlot = m.nextSlot := rfl
    grind
  · rw [slot_setSlot]
    have hold := h.slots.locked sid'
    grind
  · rw [slot_setSlot]
    have hold := hothers u hu
    grind

/-- A task locks an empty slot to open its connection. -/
theorem ok_lock (h : m.Ok) (hmade : sid < m.nextSlot) (hfree : (m.slot sid).lockedBy = none)
    (hempty : (m.slot sid).entry = none) : (m.lock sid t).Ok ∧ Frame t m (m.lock sid t) := by
  refine ok_setSlot h rfl rfl hmade (fun _ => hempty) fun u hu => ?_
  rw [ConnectionSlot.lockedBy_lock, hfree]
  grind

/-- The task that has locked a slot unlocks it. -/
theorem ok_unlock (h : m.Ok) (hmade : sid < m.nextSlot)
    (hmine : (m.slot sid).lockedBy = some t) : (m.unlock sid).Ok ∧ Frame t m (m.unlock sid) := by
  refine ok_setSlot h rfl rfl hmade (fun hlocked => absurd rfl hlocked) fun u hu => ?_
  rw [ConnectionSlot.lockedBy_unlock, hmine]
  grind

/-- The slot of a key is found under it, and a new one is empty. -/
theorem lookup_spec (h : m.Ok) : (m.lookup key).2.slots.get key = some (m.lookup key).1 ∧
    (m.lookup key).2.Ok ∧ Frame t m (m.lookup key).2 ∧ (m.lookup key).2.entry = m.entry ∧
    (m.lookup key).2.lease = m.lease ∧
    (∀ sid, ((m.lookup key).2.slot sid).lockedBy = (m.slot sid).lockedBy) ∧
    ∀ key' sid, m.slots.get key' = some sid → (m.lookup key).2.slots.get key' = some sid := by
  unfold lookup
  split
  · rename_i sid hsid
    exact ⟨hsid, h, .refl t m, rfl, rfl, fun _ => rfl, fun _ _ h => h⟩
  · rename_i hnone
    have hfresh := h.slots.fresh m.nextSlot le_rfl
    have hslot : ∀ sid', (m.setSlot m.nextSlot ⟨key, none, none⟩).slot sid' =
        if sid' = m.nextSlot then ⟨key, none, none⟩ else m.slot sid' := fun sid' => slot_setSlot _
    have hlocked : ∀ sid', ((m.setSlot m.nextSlot ⟨key, none, none⟩).slot sid').lockedBy =
        (m.slot sid').lockedBy := by
      intro sid'
      rw [hslot]
      grind
    have hentry : ∀ sid', ((m.setSlot m.nextSlot ⟨key, none, none⟩).slot sid').entry =
        (m.slot sid').entry := by
      intro sid'
      rw [hslot]
      grind
    have hkey : ∀ sid' < m.nextSlot, ((m.setSlot m.nextSlot ⟨key, none, none⟩).slot sid').key =
        (m.slot sid').key := by
      intro sid' hlt
      rw [hslot]
      grind
    have hmade : ∀ sid' e, (m.slot sid').entry = some e → sid' < m.nextSlot := by
      intro sid' e he
      by_contra hge
      rw [(h.slots.fresh sid' (Nat.le_of_not_lt hge)).2] at he
      cases he
    refine ⟨Table.get_put_self _ _ _, ⟨⟨fun e sid' => ?_, h.shares.nodup, h.shares.fresh,
      fun sid' e he => ?_, h.shares.slotted⟩, h.leases.of_eq rfl rfl rfl rfl,
        ⟨fun key' sid' hkey' => ?_, fun sid' hge => ?_, fun sid' => ?_⟩⟩,
        ⟨fun _ _ _ => Iff.rfl, fun _ _ _ => Iff.rfl, fun _ _ _ h => h,
        fun _ _ => rfl, fun _ _ => rfl, fun u sid' _ => ?_, fun _ _ _ => Iff.rfl⟩, rfl, rfl,
      hlocked, fun key' sid' hkey' => ?_⟩
    · exact (h.shares.slots e sid').trans (by rw [← hentry sid'])
    · have he' : (m.slot sid').entry = some e := (hentry sid').symm.trans he
      exact (h.shares.keys sid' e he').trans (hkey sid' (hmade sid' e he')).symm
    · show ((m.setSlot m.nextSlot ⟨key, none, none⟩).slot sid').key = key' ∧ sid' < m.nextSlot + 1
      dsimp only at hkey'
      rw [Table.get_put] at hkey'
      rw [hslot]
      have hmapped := h.slots.mapped key' sid'
      grind
    · have hge' : m.nextSlot + 1 ≤ sid' := hge
      have hold := h.slots.fresh sid' (Nat.le_of_succ_le hge')
      exact ⟨(hlocked sid').trans hold.1, (hentry sid').trans hold.2⟩
    · intro hne
      exact (hentry sid').trans (h.slots.locked sid' fun heq => hne ((hlocked sid').trans heq))
    · show ((m.setSlot m.nextSlot ⟨key, none, none⟩).slot sid').lockedBy = some u ↔ _
      rw [hlocked]
    · dsimp only
      rw [Table.get_put, if_neg]
      · exact hkey'
      · rintro rfl
        rw [hnone] at hkey'
        cases hkey'

/-- A slot that is in use is not touched by making another. -/
theorem slot_lookup (m : Memory) (sid : SlotId) (key : ConnectionCacheKey) :
    (m.lookup key).2.slot sid = m.slot sid ∨
      ((m.lookup key).2.slot sid).lockedBy = none ∧ ((m.lookup key).2.slot sid).entry = none := by
  unfold lookup
  split
  · exact .inl rfl
  · show (m.setSlot m.nextSlot ⟨key, none, none⟩).slot sid = _ ∨
      ((m.setSlot m.nextSlot ⟨key, none, none⟩).slot sid).lockedBy = _ ∧
        ((m.setSlot m.nextSlot ⟨key, none, none⟩).slot sid).entry = _
    rw [slot_setSlot]
    split
    · exact .inr ⟨rfl, rfl⟩
    · exact .inl rfl

/-! ### Leases -/

/-- A lease is issued to a task. -/
theorem ok_issue (h : m.Ok) : (m.issue t).2.Ok ∧ Frame t m (m.issue t).2 := by
  have hfresh := h.leases.fresh m.nextLease le_rfl
  have hlease : ∀ l, (m.issue t).2.lease l = if l = m.nextLease then .task t else m.lease l :=
    fun l => Function.update_apply m.lease m.nextLease _ l
  refine ⟨⟨⟨h.shares.slots, h.shares.nodup, h.shares.fresh, h.shares.keys, h.shares.slotted⟩,
    ⟨h.leases.lifetime, fun e l => ?_, fun e l hl => ?_, h.leases.nodup, fun l => ?_,
      fun l hl => ?_⟩, ⟨h.slots.mapped, h.slots.fresh, h.slots.locked⟩⟩,
    ⟨fun _ _ _ => Iff.rfl, fun _ _ _ => Iff.rfl, fun _ _ _ h => h, fun _ _ => rfl, fun _ _ => rfl,
      fun _ _ _ => Iff.rfl, fun u l hu => ?_⟩⟩
  · have hold := h.leases.entry e l
    rw [hlease]
    show (m.entry e).value.managed = some l ↔ _
    grind
  · have hold := h.leases.issued e l hl
    rw [hlease]
    grind
  · have hold := h.leases.handed l
    rw [hlease]
    show l ∈ m.handed ↔ _
    grind
  · have hge : m.nextLease + 1 ≤ l := hl
    have hold := h.leases.fresh l (Nat.le_of_succ_le hge)
    rw [hlease, if_neg (Nat.ne_of_gt hge)]
    exact hold
  · rw [hlease]
    grind

/-- A task hands its lease to release. -/
theorem ok_hand (h : m.Ok) (hmine : m.lease lease = .task t) :
    (m.hand lease).Ok ∧ Frame t m (m.hand lease) := by
  have hlease : ∀ l, (m.hand lease).lease l = if l = lease then .handed else m.lease l :=
    fun l => Function.update_apply m.lease lease _ l
  refine ⟨⟨⟨h.shares.slots, h.shares.nodup, h.shares.fresh, h.shares.keys, h.shares.slotted⟩,
    ⟨h.leases.lifetime, fun e l => ?_, fun e l hl => ?_, ?_, fun l => ?_, fun l hl => ?_⟩,
      ⟨h.slots.mapped, h.slots.fresh, h.slots.locked⟩⟩,
    ⟨fun _ _ _ => Iff.rfl, fun _ _ _ => Iff.rfl, fun _ _ _ h => h, fun _ _ => rfl, fun _ _ => rfl,
      fun _ _ _ => Iff.rfl, fun u l hu => ?_⟩⟩
  · have hold := h.leases.entry e l
    rw [hlease]
    show (m.entry e).value.managed = some l ↔ _
    grind
  · have hold := h.leases.issued e l hl
    rw [hlease]
    grind
  · show (m.handed ++ [lease]).Nodup
    have hnot : lease ∉ m.handed := fun hmem => by
      rw [(h.leases.handed lease).1 hmem] at hmine
      cases hmine
    grind [h.leases.nodup]
  · have hold := h.leases.handed l
    rw [hlease]
    show l ∈ m.handed ++ [lease] ↔ _
    grind
  · have hold := h.leases.fresh l hl
    rw [hlease]
    grind
  · rw [hlease]
    grind

/-! ### Installing an entry -/

section Install

variable {opener : Context} {opened : Option LeaseId} {retireAt : Option ℕ} {generation : ℕ}

theorem entry_install : ((m.install sid t opener opened retireAt generation).2).entry e' =
    if e' = m.nextEntry then
      ⟨[.slot sid, .user t], ⟨opener, generation, retireAt, opened, opened⟩⟩
    else m.entry e' :=
  entry_setEntry _

theorem slot_install : ((m.install sid t opener opened retireAt generation).2).slot sid' =
    if sid' = sid then (m.slot sid).fill m.nextEntry else m.slot sid' :=
  slot_setSlot _

theorem lease_install (l : LeaseId) :
    ((m.install sid t opener opened retireAt generation).2).lease l =
      if opened = some l then .entry m.nextEntry else m.lease l := by
  cases opened with
  | none =>
    rw [if_neg (by simp)]
    rfl
  | some lease =>
    show Function.update m.lease lease (.entry m.nextEntry) l = _
    rw [Function.update_apply]
    simp only [Option.some.injEq, eq_comm]

/-- The pool that a task has opened becomes the entry of the slot it has locked. -/
theorem ok_install (h : m.Ok) (hmine : (m.slot sid).lockedBy = some t) (hmade : sid < m.nextSlot)
    (hkey : opener.key = (m.slot sid).key)
    (hlease : ∀ l, opened = some l → m.lease l = .task t) :
    ((m.install sid t opener opened retireAt generation).2).Ok ∧
      Frame t m (m.install sid t opener opened retireAt generation).2 := by
  have hgone := h.shares.fresh m.nextEntry le_rfl
  have hempty := h.slots.locked sid (by rw [hmine]; exact Option.some_ne_none t)
  have hunmanaged : (m.entry m.nextEntry).value.managed = none := by
    rw [h.leases.lifetime, if_pos hgone]
  have hnot : ∀ sid', (m.slot sid').entry ≠ some m.nextEntry := by
    intro sid' hsid'
    have howner := (h.shares.slots _ sid').2 hsid'
    rw [hgone] at howner
    cases howner
  refine ⟨⟨⟨fun e sid' => ?_, fun e => ?_, fun e he => ?_, fun sid' e he => ?_, fun e sid' => ?_⟩,
    ⟨fun e => ?_, fun e l => ?_, fun e l hl => ?_, h.leases.nodup, fun l => ?_, fun l hl => ?_⟩,
    ⟨fun key' sid' hkey' => ?_, fun sid' hge => ?_, fun sid' => ?_⟩⟩,
    ⟨fun u e hu => ?_, fun u e hu => ?_, fun u e hu hsole => ?_, fun e hlives => ?_,
      fun e hlives => ?_, fun u sid' hu => ?_, fun u l hu => ?_⟩⟩
  · rw [entry_install, slot_install]
    have hold := h.shares.slots e sid'
    have hnever := hnot sid'
    grind
  · rw [entry_install]
    have hold := h.shares.nodup e
    grind
  · have hge : m.nextEntry + 1 ≤ e := he
    rw [entry_install, if_neg (Nat.ne_of_gt hge)]
    exact h.shares.fresh e (Nat.le_of_succ_le hge)
  · rw [slot_install] at he ⊢
    rw [entry_install]
    have hold := h.shares.keys sid' e
    have hnever := hnot sid'
    grind
  · rw [entry_install]
    have hold := h.shares.slotted e sid'
    grind
  · rw [entry_install]
    have hold := h.leases.lifetime e
    grind
  · rw [entry_install, lease_install]
    have hold := h.leases.entry e l
    grind
  · rw [entry_install] at hl
    rw [lease_install]
    have hold := h.leases.issued e l
    grind
  · rw [lease_install]
    have hold := h.leases.handed l
    show l ∈ m.handed ↔ _
    grind
  · rw [lease_install]
    have hold := h.leases.fresh l hl
    grind
  · rw [slot_install]
    have hold := h.slots.mapped key' sid' hkey'
    show _ ∧ sid' < m.nextSlot
    grind
  · rw [slot_install]
    have hge' : m.nextSlot ≤ sid' := hge
    have hold := h.slots.fresh sid' hge'
    have hne : sid' ≠ sid := Nat.ne_of_gt (Nat.lt_of_lt_of_le hmade hge')
    grind
  · rw [slot_install]
    have hold := h.slots.locked sid'
    grind
  · rw [entry_install]
    grind
  · rw [entry_install]
    grind
  · rw [entry_install]
    grind
  · rw [entry_install]
    grind
  · rw [entry_install]
    grind
  · rw [slot_install]
    grind
  · rw [lease_install]
    have hold := hlease l
    grind

end Install

end Memory

end Connection
end AgentDb
