import AgentDb.Connection.RuntimeMemory

/-!
# What a task of the connection cache holds

`Holding` is what a task says it has: a share of an entry that it uses, the shares of the entries
that it retires, a locked slot and a lease. `Memory.Holds` says that the memory agrees. Each
operation changes the holding of its task and, by `Frame`, of nobody else.
-/

namespace AgentDb
namespace Connection

open Store

/-- An entry that is retired once is gone from the list when its pair is. -/
theorem mem_erase_fst {α β : Type} [DecidableEq α] [DecidableEq β] {l : List (α × β)} {a : α}
    {b : β} (hdistinct : (l.map Prod.fst).Nodup) (hmem : (a, b) ∈ l) (a' : α) :
    a' ∈ (l.erase (a, b)).map Prod.fst ↔ a' ∈ l.map Prod.fst ∧ a' ≠ a := by
  induction l with
  | nil => cases hmem
  | cons p l ih =>
    rw [List.map_cons, List.nodup_cons] at hdistinct
    by_cases hp : p = (a, b)
    · subst hp
      rw [List.erase_cons_head, List.map_cons, List.mem_cons]
      grind
    · have hmem' : (a, b) ∈ l := (List.mem_cons.1 hmem).resolve_left (Ne.symm hp)
      have hhead : p.1 ≠ a := fun heq => hdistinct.1 (by
        rw [heq]
        exact List.mem_map_of_mem hmem')
      rw [List.erase_cons_tail (by simpa using hp), List.map_cons, List.mem_cons, List.map_cons,
        List.mem_cons, ih hdistinct.2 hmem']
      grind

/-- What a task has. -/
structure Holding where
  use : Option (Context × EntryId)
  retiring : List (EntryId × Retirement)
  locks : Option SlotId
  lease : Option LeaseId

/-- The memory agrees with what the task has. -/
structure Memory.Holds (m : Memory) (t : TaskId) (h : Holding) : Prop where
  user : ∀ e, .user t ∈ (m.entry e).owners ↔ h.use.map Prod.snd = some e
  retirer : ∀ e, .retirer t ∈ (m.entry e).owners ↔ e ∈ h.retiring.map Prod.fst
  distinct : (h.retiring.map Prod.fst).Nodup
  owned : ∀ e, (e, .owned) ∈ h.retiring → (m.entry e).owners = [.retirer t]
  locks : ∀ sid, (m.slot sid).lockedBy = some t ↔ h.locks = some sid
  lease : ∀ l, m.lease l = .task t ↔ h.lease = some l
  key : ∀ c e, h.use = some (c, e) → (m.entry e).value.opener.key = c.key

namespace Memory

variable {m m' : Memory} {e : EntryId} {sid : SlotId} {t u : TaskId} {lease : LeaseId}
  {h : Holding} {c : Context}

/-- A share keeps its entry alive. -/
theorem Holds.lives (hh : m.Holds t h) (huse : h.use = some (c, e)) :
    (m.entry e).owners ≠ [] :=
  List.ne_nil_of_mem ((hh.user e).2 (by rw [huse]; rfl))

/-- What another task does leaves a task what it has. -/
theorem Holds.carry (hh : m.Holds u h) (hframe : Frame t m m') (hne : u ≠ t) : m'.Holds u h where
  user := fun e => (hframe.users u e hne).trans (hh.user e)
  retirer := fun e => (hframe.retirers u e hne).trans (hh.retirer e)
  distinct := hh.distinct
  owned := fun e he => hframe.sole u e hne (hh.owned e he)
  locks := fun sid => (hframe.locks u sid hne).trans (hh.locks sid)
  lease := fun l => (hframe.leases u l hne).trans (hh.lease l)
  key := fun c e huse =>
    (congrArg Context.key (hframe.opener e (hh.lives huse))).trans (hh.key c e huse)

/-- A memory that agrees on entries, mutexes and leases agrees on what tasks have. -/
theorem Holds.of_eq (hh : m.Holds t h) (hentry : m'.entry = m.entry)
    (hlocks : ∀ sid, (m'.slot sid).lockedBy = (m.slot sid).lockedBy) (hlease : m'.lease = m.lease) :
    m'.Holds t h where
  user := by rw [hentry]; exact hh.user
  retirer := by rw [hentry]; exact hh.retirer
  distinct := hh.distinct
  owned := by rw [hentry]; exact hh.owned
  locks := fun sid => by rw [hlocks]; exact hh.locks sid
  lease := by rw [hlease]; exact hh.lease
  key := by rw [hentry]; exact hh.key

theorem holds_cloneEntry (hh : m.Holds t h) (hnone : h.use = none)
    (hkey : (m.entry e).value.opener.key = c.key)
    (hnot : ∀ u, (m.entry e).owners ≠ [.retirer u]) :
    (m.cloneEntry e (.user t)).Holds t { h with use := some (c, e) } where
  user := by
    intro e'
    have hold := hh.user e'
    unfold cloneEntry
    rw [entry_setEntry]
    grind [Rc.mem_clone]
  retirer := by
    intro e'
    have hold := hh.retirer e'
    unfold cloneEntry
    rw [entry_setEntry]
    grind [Rc.mem_clone]
  distinct := hh.distinct
  owned := by
    intro e' he'
    have hold := hh.owned e' he'
    unfold cloneEntry
    rw [entry_setEntry]
    grind
  locks := hh.locks
  lease := hh.lease
  key := by
    intro c' e' huse
    unfold cloneEntry
    rw [entry_setEntry]
    grind [Rc.value_clone]

/-- Who owns an entry after a share was dropped. -/
theorem mem_dropEntry (hm : m.Ok) (o o' : Owner) (e' : EntryId) :
    o' ∈ ((m.dropEntry e o).entry e').owners ↔ o' ∈ (m.entry e').owners ∧ ¬ (o' = o ∧ e' = e) := by
  have hnodup := hm.shares.nodup e
  have hdrop : ∀ o', o' ∈ ((m.entry e).drop o).owners ↔ o' ≠ o ∧ o' ∈ (m.entry e).owners :=
    fun o' => Rc.mem_drop hnodup
  rw [dropEntry_eq]
  split
  · rename_i hlast
    have hnone : ∀ o', ¬ (o' ≠ o ∧ o' ∈ (m.entry e).owners) := fun o' ho' =>
      List.ne_nil_of_mem ((hdrop o').2 ho') hlast
    have ho' := hnone o'
    rw [entry_freeEntry]
    grind
  · rw [entry_setEntry]
    have ho' := hdrop o'
    grind

theorem value_dropEntry (o : Owner) (e' : EntryId) :
    ((m.dropEntry e o).entry e').value.opener = (m.entry e').value.opener ∧
      ((m.dropEntry e o).entry e').value.retireAt = (m.entry e').value.retireAt := by
  rw [dropEntry_eq]
  split
  · rw [entry_freeEntry]
    split
    · rename_i heq
      rw [heq]
      exact ⟨rfl, rfl⟩
    · exact ⟨rfl, rfl⟩
  · rw [entry_setEntry]
    split
    · rename_i heq
      rw [heq]
      exact ⟨rfl, rfl⟩
    · exact ⟨rfl, rfl⟩

theorem slot_dropEntry (o : Owner) : (m.dropEntry e o).slot = m.slot := by
  rw [dropEntry_eq]
  split
  · exact (rest_freeEntry m e).1
  · rfl

theorem lease_freeEntry_task (hm : m.Ok) (l : LeaseId) :
    (m.freeEntry e).lease l = .task u ↔ m.lease l = .task u := by
  rw [lease_freeEntry]
  have hold := hm.leases.entry e l
  grind

theorem lease_dropEntry_task (hm : m.Ok) (o : Owner) (l : LeaseId) :
    (m.dropEntry e o).lease l = .task u ↔ m.lease l = .task u := by
  rw [dropEntry_eq]
  split
  · exact lease_freeEntry_task hm l
  · rfl

/-- The task gives up the share that it uses. -/
theorem holds_dropUser (hm : m.Ok) (hh : m.Holds t h) (huse : h.use = some (c, e)) :
    (m.dropEntry e (.user t)).Holds t { h with use := none } where
  user := by
    intro e'
    have hold := hh.user e'
    rw [mem_dropEntry hm]
    grind
  retirer := by
    intro e'
    have hold := hh.retirer e'
    rw [mem_dropEntry hm]
    grind
  distinct := hh.distinct
  owned := by
    intro e' he'
    have hsole := hh.owned e' he'
    have howner := (hh.user e).2 (by rw [huse]; rfl)
    have hne : e' ≠ e := by
      rintro rfl
      rw [hsole, List.mem_singleton] at howner
      cases howner
    rw [dropEntry_eq]
    split
    · rw [entry_freeEntry, if_neg hne]
      exact hsole
    · rw [entry_setEntry, if_neg hne]
      exact hsole
  locks := by
    rw [slot_dropEntry]
    exact hh.locks
  lease := fun l => (lease_dropEntry_task hm _ l).trans (hh.lease l)
  key := by
    intro c' e' hnone
    cases hnone

/-- The task gives up a share that it retires and that is not its own yet. -/
theorem holds_dropRetirer (hm : m.Ok) (hh : m.Holds t h) (hmem : (e, .shared) ∈ h.retiring) :
    (m.dropEntry e (.retirer t)).Holds t { h with retiring := h.retiring.erase (e, .shared) } := by
  have hdistinct := hh.distinct
  have herase := mem_erase_fst hdistinct hmem
  refine ⟨fun e' => ?_, fun e' => ?_, ?_, fun e' he' => ?_, ?_, fun l => ?_, fun c' e' huse => ?_⟩
  · have hold := hh.user e'
    rw [mem_dropEntry hm]
    grind
  · have hold := hh.retirer e'
    rw [mem_dropEntry hm, herase]
    grind
  · exact hdistinct.sublist (List.erase_sublist.map _)
  · have hsole := hh.owned e' (List.mem_of_mem_erase he')
    have hne : e' ≠ e := fun heq =>
      ((herase e').1 (List.mem_map_of_mem he')).2 heq
    rw [dropEntry_eq]
    split
    · rw [entry_freeEntry, if_neg hne]
      exact hsole
    · rw [entry_setEntry, if_neg hne]
      exact hsole
  · rw [slot_dropEntry]
    exact hh.locks
  · exact (lease_dropEntry_task hm _ l).trans (hh.lease l)
  · rw [(value_dropEntry _ e').1]
    exact hh.key c' e' huse

/-- The task frees an entry of its own. -/
theorem holds_freeEntry (hm : m.Ok) (hh : m.Holds t h) (hmem : (e, .owned) ∈ h.retiring) :
    (m.freeEntry e).Holds t { h with retiring := h.retiring.erase (e, .owned) } := by
  have hsole := hh.owned e hmem
  have hdistinct := hh.distinct
  have herase := mem_erase_fst hdistinct hmem
  refine ⟨fun e' => ?_, fun e' => ?_, ?_, fun e' he' => ?_, ?_, fun l => ?_, fun c' e' huse => ?_⟩
  · have hold := hh.user e'
    rw [entry_freeEntry]
    grind
  · have hold := hh.retirer e'
    rw [entry_freeEntry, herase]
    grind
  · exact hdistinct.sublist (List.erase_sublist.map _)
  · have hne : e' ≠ e := fun heq => ((herase e').1 (List.mem_map_of_mem he')).2 heq
    rw [entry_freeEntry, if_neg hne]
    exact hh.owned e' (List.mem_of_mem_erase he')
  · rw [(rest_freeEntry m e).1]
    exact hh.locks
  · exact (lease_freeEntry_task hm l).trans (hh.lease l)
  · have hkey := hh.key c' e' huse
    rw [entry_freeEntry]
    grind

/-- The task takes the entry of a slot to retire it. -/
theorem holds_detachEntry (hm : m.Ok) (hh : m.Holds t h) (hslot : (m.slot sid).entry = some e)
    (hnew : .retirer t ∉ (m.entry e).owners) :
    (m.detachEntry sid e t).Holds t { h with retiring := h.retiring ++ [(e, .taken)] } := by
  have hmem : ∀ e' o, o ∈ ((m.detachEntry sid e t).entry e').owners ↔
      (o = .retirer t ∧ e' = e) ∨ o ∈ (m.entry e').owners ∧ o ≠ .slot sid :=
    fun e' o => mem_detachEntry hm.shares hslot o
  have hnot : e ∉ h.retiring.map Prod.fst := fun hlist => hnew ((hh.retirer e).2 hlist)
  refine ⟨fun e' => ?_, fun e' => ?_, ?_, fun e' he' => ?_, fun sid' => ?_, hh.lease,
    fun c' e' huse => ?_⟩
  · rw [hmem]
    have hold := hh.user e'
    grind
  · rw [hmem, List.map_append, List.mem_append]
    have hold := hh.retirer e'
    grind
  · rw [List.map_append]
    exact List.nodup_append.2 ⟨hh.distinct, List.nodup_singleton e, by
      rintro a ha b hb rfl
      have hae : a = e := List.mem_singleton.1 hb
      rw [hae] at ha
      exact hnot ha⟩
  · rcases List.mem_append.1 he' with hold | hlast
    · have hsole := hh.owned e' hold
      rw [entry_detachEntry, if_neg]
      · exact hsole
      · rintro rfl
        exact hnot (List.mem_map_of_mem hold)
    · cases List.mem_singleton.1 hlast
  · rw [slot_detachEntry]
    have hold := hh.locks sid'
    grind
  · have hkey := hh.key c' e' huse
    rw [entry_detachEntry]
    grind [Rc.move]

/-- The task finds out whether an entry is its own. -/
theorem holds_tryUnwrap (hh : m.Holds t h) (hmem : (e, .taken) ∈ h.retiring) {next : Retirement}
    (hnext : next = .owned → (m.entry e).owners = [.retirer t]) :
    m.Holds t { h with retiring := (e, next) :: h.retiring.erase (e, .taken) } := by
  have herase := mem_erase_fst hh.distinct hmem
  have hin : e ∈ h.retiring.map Prod.fst := List.mem_map_of_mem hmem
  refine { hh with retirer := fun e' => ?_, distinct := ?_, owned := fun e' he' => ?_ }
  · rw [hh.retirer, List.map_cons, List.mem_cons, herase]
    grind
  · rw [List.map_cons, List.nodup_cons]
    exact ⟨fun hlist => ((herase e).1 hlist).2 rfl, hh.distinct.sublist (List.erase_sublist.map _)⟩
  · rcases List.mem_cons.1 he' with heq | hold
    · obtain ⟨rfl, rfl⟩ := Prod.mk.inj heq
      exact hnext rfl
    · exact hh.owned e' (List.mem_of_mem_erase hold)

theorem holds_lock (hh : m.Holds t h) (hnone : h.locks = none) :
    (m.lock sid t).Holds t { h with locks := some sid } :=
  { hh with
    locks := fun sid' => by
      have hold := hh.locks sid'
      unfold lock
      rw [slot_setSlot]
      grind }

theorem holds_unlock (hh : m.Holds t h) (hlocks : h.locks = some sid) :
    (m.unlock sid).Holds t { h with locks := none } :=
  { hh with
    locks := fun sid' => by
      have hold := hh.locks sid'
      unfold unlock
      rw [slot_setSlot]
      grind }

theorem holds_issue (hm : m.Ok) (hh : m.Holds t h) (hnone : h.lease = none) :
    (m.issue t).2.Holds t { h with lease := some m.nextLease } :=
  { hh with
    lease := fun l => by
      have hold := hh.lease l
      have hfresh := hm.leases.fresh m.nextLease le_rfl
      show Function.update m.lease m.nextLease _ l = _ ↔ _
      rw [Function.update_apply]
      grind }

theorem holds_hand (hh : m.Holds t h) (hlease : h.lease = some lease) :
    (m.hand lease).Holds t { h with lease := none } :=
  { hh with
    lease := fun l => by
      have hold := hh.lease l
      show Function.update m.lease lease _ l = _ ↔ _
      rw [Function.update_apply]
      grind }

theorem holds_install (hm : m.Ok) (hh : m.Holds t h) (huse : h.use = none)
    (hlocks : h.locks = some sid) {retireAt : Option ℕ} {generation : ℕ} :
    (m.install sid t c h.lease retireAt generation).2.Holds t
      { h with use := some (c, m.nextEntry), locks := none, lease := none } := by
  have hgone := hm.shares.fresh m.nextEntry le_rfl
  refine ⟨fun e' => ?_, fun e' => ?_, hh.distinct, fun e' he' => ?_, fun sid' => ?_, fun l => ?_,
    fun c' e' huse' => ?_⟩
  · have hold := hh.user e'
    rw [entry_install]
    grind
  · have hold := hh.retirer e'
    rw [entry_install]
    grind
  · have hsole := hh.owned e' he'
    rw [entry_install, if_neg]
    · exact hsole
    · rintro rfl
      rw [hgone] at hsole
      cases hsole
  · have hold := hh.locks sid'
    rw [slot_install]
    grind
  · have hold := hh.lease l
    rw [lease_install]
    grind
  · rw [entry_install]
    grind

end Memory

end Connection
end AgentDb
