import AgentDb.Scalars
import Mathlib.Data.List.Nodup
import Mathlib.Logic.Function.Basic

/-!
# The cancellation registry: `executor/cancel.rs`

A slot of the registry holds the sender of a `watch` channel and counts the handles that were given
out for its id. Each handle holds a receiver of that channel, and its drop takes it off the count,
the last one with the slot. The lock makes every operation one move, so that the tasks of the
process are a list of moves. The receiver of a handle outlives its `Drop::drop` by a moment, in
which other tasks may run: such handles are `closing`.
-/

namespace AgentDb
namespace Executor

/-- A `watch::channel`. -/
abbrev Channel := ℕ

/-- `CancelSlot`. -/
structure CancelSlot where
  sender : Channel
  handles : ℕ

/-- `CancelHandle`; two handles of one id differ by their names. -/
structure CancelHandle where
  name : ℕ
  id : Uuid
  rx : Channel
  deriving DecidableEq

/-- `REGISTRY`, the values stored in the channels, and the handles that are around. -/
structure Registry where
  slots : Uuid → Option CancelSlot := fun _ => none
  values : Channel → Bool := fun _ => false
  /-- How many channels were created, and how many handles. -/
  created : ℕ := 0
  registered : ℕ := 0
  live : List CancelHandle := []
  closing : List CancelHandle := []

namespace Registry

/-- `watch::channel(false)`. -/
def channel (r : Registry) : Channel × Registry :=
  (r.created,
    { r with values := Function.update r.values r.created false, created := r.created + 1 })

/-- `Sender::send`: without a receiver the value is not stored. -/
def send (channel : Channel) (value : Bool) (r : Registry) : Registry :=
  if (r.live ++ r.closing).any (·.rx = channel) then
    { r with values := Function.update r.values channel value }
  else r

/-- The slot of an id is replaced, or removed. -/
def setSlot (id : Uuid) (slot : Option CancelSlot) (r : Registry) : Registry :=
  { r with slots := Function.update r.slots id slot }

/-- The handle that `register` returns goes to its task. -/
def handOut (id : Uuid) (rx : Channel) (r : Registry) : CancelHandle × Registry :=
  let handle : CancelHandle := ⟨r.registered, id, rx⟩
  (handle, { r with registered := r.registered + 1, live := handle :: r.live })

/-- `register`. -/
def register (id : Uuid) (r : Registry) : CancelHandle × Registry :=
  match r.slots id with
  | some slot =>
      handOut id slot.sender (setSlot id (some { slot with handles := slot.handles + 1 }) r)
  | none =>
      let (sender, r') := channel r
      handOut id sender (setSlot id (some ⟨sender, 1⟩) r')

/-- `cancel`. -/
def cancel (id : Uuid) (r : Registry) : Bool × Registry :=
  match r.slots id with
  | some slot => (true, send slot.sender true r)
  | none => (false, r)

/-- `Drop::drop` of a handle. -/
def unregister (handle : CancelHandle) (r : Registry) : Registry :=
  let r' : Registry :=
    { r with live := r.live.erase handle, closing := handle :: r.closing }
  match r.slots handle.id with
  | none => r'
  | some slot =>
      if slot.handles > 1 then
        setSlot handle.id (some { slot with handles := slot.handles - 1 }) r'
      else setSlot handle.id none r'

/-- The receiver of a dropped handle goes. -/
def close (handle : CancelHandle) (r : Registry) : Registry :=
  { r with closing := r.closing.erase handle }

/-- `CancelHandle::is_cancelled`. -/
def isCancelled (handle : CancelHandle) (r : Registry) : Bool := r.values handle.rx

/-! ### Runs -/

/-- What a task does next to the registry. -/
inductive Move
  | register (id : Uuid)
  | cancel (id : Uuid)
  | drop (handle : CancelHandle)
  | close (handle : CancelHandle)
  deriving DecidableEq

/-- One move. Only a handle that is around can be dropped. -/
def step (r : Registry) : Move → Registry
  | .register id => (register id r).2
  | .cancel id => (cancel id r).2
  | .drop handle => if handle ∈ r.live then unregister handle r else r
  | .close handle => close handle r

/-- The registry of the process after the moves of its tasks. -/
def run (moves : List Move) : Registry := moves.foldl step {}

@[simp] theorem run_nil : run [] = {} := rfl

theorem run_snoc (moves : List Move) (m : Move) : run (moves ++ [m]) = step (run moves) m :=
  List.foldl_append

/-- What the channel of the slot of `id` stores. -/
def signal (r : Registry) (id : Uuid) : Bool := (r.slots id).any fun slot => r.values slot.sender

/-- The moves since the slot of `id` was created: a registration found none, and there has been one
after every move since. -/
def SlotSince (moves : List Move) (id : Uuid) (since : List Move) : Prop :=
  ∃ before, moves = before ++ .register id :: since ∧ (run before).slots id = none ∧
    ∀ p, p <+: since → (run (before ++ .register id :: p)).slots id ≠ none

/-- A `cancel(id)` happened since the slot of `id` was created. -/
def CancelledSince (moves : List Move) (id : Uuid) : Prop :=
  ∃ since, SlotSince moves id since ∧ Move.cancel id ∈ since

/-! ### What a registry keeps -/

/-- The handles of an id that are around. -/
def handlesOf (r : Registry) (id : Uuid) : List CancelHandle := r.live.filter (·.id = id)

/-- The slot of an id counts its handles, all of which listen to its channel; without a slot there
are none. -/
def Agrees (r : Registry) (id : Uuid) : Prop :=
  match r.slots id with
  | none => handlesOf r id = []
  | some slot =>
      slot.handles = (handlesOf r id).length ∧ 0 < slot.handles ∧ slot.sender < r.created ∧
        ∀ handle ∈ handlesOf r id, handle.rx = slot.sender

/-- Every slot agrees with the handles, no two slots share a channel and no two handles a name. -/
structure WellFormed (r : Registry) : Prop where
  nodup : r.live.Nodup
  named : ∀ handle ∈ r.live, handle.name < r.registered
  agrees : ∀ id, r.Agrees id
  unshared : ∀ {id id' slot slot'}, r.slots id = some slot → r.slots id' = some slot' →
    slot.sender = slot'.sender → id = id'

variable {r r' : Registry} {id id' : Uuid} {slot : CancelSlot} {handle : CancelHandle}

@[simp] theorem mem_handlesOf : handle ∈ handlesOf r id ↔ handle ∈ r.live ∧ handle.id = id := by
  simp [handlesOf]

theorem agrees_of_none (h : r.Agrees id) (hslot : r.slots id = none) : handlesOf r id = [] := by
  simpa only [Agrees, hslot] using h

theorem agrees_of_some (h : r.Agrees id) (hslot : r.slots id = some slot) :
    slot.handles = (handlesOf r id).length ∧ 0 < slot.handles ∧ slot.sender < r.created ∧
      ∀ handle ∈ handlesOf r id, handle.rx = slot.sender := by
  simpa only [Agrees, hslot] using h

theorem agrees_some (hslot : r.slots id = some slot)
    (hcount : slot.handles = (handlesOf r id).length) (hpos : 0 < slot.handles)
    (hcreated : slot.sender < r.created)
    (hrx : ∀ handle ∈ handlesOf r id, handle.rx = slot.sender) : r.Agrees id := by
  unfold Agrees
  rw [hslot]
  exact ⟨hcount, hpos, hcreated, hrx⟩

/-- Nothing about an id changes while its slot and its handles stay. -/
theorem Agrees.frame (h : r.Agrees id) (hslots : r'.slots id = r.slots id)
    (hlive : handlesOf r' id = handlesOf r id) (hcreated : r.created ≤ r'.created) :
    r'.Agrees id := by
  unfold Agrees at h ⊢
  rw [hslots, hlive]
  cases hslot : r.slots id with
  | none => simpa only [hslot] using h
  | some slot =>
    simp only [hslot] at h
    exact ⟨h.1, h.2.1, Nat.lt_of_lt_of_le h.2.2.1 hcreated, h.2.2.2⟩

/-- Slots that keep their channels share none. -/
theorem WellFormed.unshared_of (h : r.WellFormed)
    (hold : ∀ {id slot}, r'.slots id = some slot →
      ∃ old, r.slots id = some old ∧ old.sender = slot.sender)
    {slot' : CancelSlot} (h₁ : r'.slots id = some slot) (h₂ : r'.slots id' = some slot')
    (hsender : slot.sender = slot'.sender) : id = id' := by
  obtain ⟨old, hslot, hold₁⟩ := hold h₁
  obtain ⟨old', hslot', hold₂⟩ := hold h₂
  exact h.unshared hslot hslot' (hold₁.trans (hsender.trans hold₂.symm))

theorem wellFormed_empty : WellFormed {} where
  nodup := List.nodup_nil
  named := by simp
  agrees _ := rfl
  unshared := by simp

/-- A counted handle is around. -/
theorem WellFormed.exists_live (h : r.WellFormed) (hslot : r.slots id = some slot) :
    ∃ handle ∈ r.live, handle.id = id := by
  obtain ⟨hcount, hpos, -, -⟩ := agrees_of_some (h.agrees id) hslot
  rw [hcount, List.length_pos_iff_exists_mem] at hpos
  obtain ⟨handle, hmem⟩ := hpos
  exact ⟨handle, mem_handlesOf.1 hmem⟩

/-- **A slot is there as long as a handle is.** -/
theorem WellFormed.isSome_iff (h : r.WellFormed) :
    (r.slots id).isSome ↔ ∃ handle ∈ r.live, handle.id = id := by
  constructor
  · intro hsome
    obtain ⟨slot, hslot⟩ := Option.isSome_iff_exists.1 hsome
    exact h.exists_live hslot
  · rintro ⟨handle, hmem, hid⟩
    rw [Option.isSome_iff_ne_none]
    intro hnone
    have hnil := agrees_of_none (h.agrees id) hnone
    exact absurd (mem_handlesOf.2 ⟨hmem, hid⟩) (hnil ▸ List.not_mem_nil)

/-- A live handle listens to the slot of its id. -/
theorem WellFormed.listens (h : r.WellFormed) (hmem : handle ∈ r.live) :
    ∃ slot, r.slots handle.id = some slot ∧ handle.rx = slot.sender := by
  obtain ⟨slot, hslot⟩ := Option.isSome_iff_exists.1 (h.isSome_iff.2 ⟨handle, hmem, rfl⟩)
  obtain ⟨-, -, -, hrx⟩ := agrees_of_some (h.agrees handle.id) hslot
  exact ⟨slot, hslot, hrx handle (mem_handlesOf.2 ⟨hmem, rfl⟩)⟩

/-! ### Each move keeps it -/

theorem wellFormed_send (h : r.WellFormed) (channel : Channel) (value : Bool) :
    (send channel value r).WellFormed := by
  unfold send
  split
  · exact ⟨h.nodup, h.named, h.agrees, h.unshared⟩
  · exact h

theorem wellFormed_cancel (h : r.WellFormed) (id : Uuid) : (cancel id r).2.WellFormed := by
  unfold cancel
  split
  · exact wellFormed_send h _ _
  · exact h

theorem wellFormed_close (h : r.WellFormed) (handle : CancelHandle) :
    (close handle r).WellFormed :=
  ⟨h.nodup, h.named, h.agrees, h.unshared⟩

theorem register_of_some (hslot : r.slots id = some slot) :
    register id r = handOut id slot.sender
      (setSlot id (some { slot with handles := slot.handles + 1 }) r) := by
  unfold register
  rw [hslot]

theorem register_of_none (hslot : r.slots id = none) :
    register id r = handOut id r.created (setSlot id (some ⟨r.created, 1⟩) (channel r).2) := by
  unfold register
  rw [hslot]
  rfl

@[simp] theorem slots_handOut (id : Uuid) (rx : Channel) (r : Registry) :
    (handOut id rx r).2.slots = r.slots := rfl

@[simp] theorem slots_setSlot (id : Uuid) (s : Option CancelSlot) (r : Registry) :
    (setSlot id s r).slots = Function.update r.slots id s := rfl

@[simp] theorem handlesOf_handOut_self (id : Uuid) (rx : Channel) (r : Registry) :
    handlesOf (handOut id rx r).2 id = (handOut id rx r).1 :: handlesOf r id :=
  List.filter_cons_of_pos (decide_eq_true rfl)

theorem handlesOf_handOut_of_ne (hne : id' ≠ id) (rx : Channel) (r : Registry) :
    handlesOf (handOut id rx r).2 id' = handlesOf r id' :=
  List.filter_cons_of_neg (by simpa [handOut] using hne.symm)

/-- A new handle is none of those around. -/
theorem WellFormed.nodup_handOut (h : r.WellFormed) (id : Uuid) (rx : Channel) :
    (handOut id rx r).2.live.Nodup ∧
      ∀ handle ∈ (handOut id rx r).2.live, handle.name < r.registered + 1 := by
  refine ⟨List.nodup_cons.2 ⟨fun hmem => ?_, h.nodup⟩, List.forall_mem_cons.2 ⟨?_, ?_⟩⟩
  · exact absurd (h.named _ hmem) (Nat.lt_irrefl _)
  · exact Nat.lt_succ_self _
  · exact fun handle hmem => Nat.lt_succ_of_lt (h.named handle hmem)

/-- Without a slot, `register` opens a channel nobody has heard of. -/
theorem wellFormed_open (h : r.WellFormed) (hslot : r.slots id = none) :
    (register id r).2.WellFormed := by
  have hnil := agrees_of_none (h.agrees id) hslot
  have hold : ∀ {id' slot}, r.slots id' = some slot → slot.sender < r.created :=
    fun hslot => (agrees_of_some (h.agrees _) hslot).2.2.1
  obtain ⟨hnodup, hnamed⟩ := h.nodup_handOut id r.created
  rw [register_of_none hslot]
  refine ⟨hnodup, hnamed, fun id' => ?_, fun {id₁ id₂ slot₁ slot₂} h₁ h₂ hsender => ?_⟩
  · rcases eq_or_ne id' id with rfl | hne
    · have hlive : handlesOf (setSlot id' (some ⟨r.created, 1⟩) (channel r).2) id' = [] := hnil
      refine agrees_some (Function.update_self ..) ?_ Nat.one_pos (Nat.lt_succ_self _) ?_
      · rw [handlesOf_handOut_self, hlive]
        rfl
      · rw [handlesOf_handOut_self, hlive]
        exact List.forall_mem_singleton.2 rfl
    · refine (h.agrees id').frame ?_ (handlesOf_handOut_of_ne hne _ _) (Nat.le_succ _)
      exact Function.update_of_ne hne _ _
  · -- the new channel is none of the old ones
    have hkey : ∀ {id' slot'}, Function.update r.slots id (some ⟨r.created, 1⟩) id' = some slot' →
        id' = id ∧ slot'.sender = r.created ∨ r.slots id' = some slot' := by
      intro id' slot' hslot'
      rcases eq_or_ne id' id with rfl | hne
      · rw [Function.update_self, Option.some.injEq] at hslot'
        exact .inl ⟨rfl, hslot' ▸ rfl⟩
      · exact .inr (by rwa [Function.update_of_ne hne] at hslot')
    rcases hkey h₁ with ⟨rfl, hs₁⟩ | h₁ <;> rcases hkey h₂ with ⟨hid₂, hs₂⟩ | h₂
    · exact hid₂.symm
    · exact absurd (hs₁.symm.trans hsender) (Nat.ne_of_gt (hold h₂))
    · exact absurd (hsender.trans hs₂) (Nat.ne_of_lt (hold h₁))
    · exact h.unshared h₁ h₂ hsender

/-- A handle joins the slot of its id. -/
theorem wellFormed_join (h : r.WellFormed) (hslot : r.slots id = some slot) :
    (register id r).2.WellFormed := by
  obtain ⟨hcount, hpos, hcreated, hrx⟩ := agrees_of_some (h.agrees id) hslot
  obtain ⟨hnodup, hnamed⟩ := h.nodup_handOut id slot.sender
  rw [register_of_some hslot]
  refine ⟨hnodup, hnamed, fun id' => ?_, h.unshared_of fun {id' slot'} hslot' => ?_⟩
  · rcases eq_or_ne id' id with rfl | hne
    · refine agrees_some (Function.update_self ..) ?_ (Nat.succ_pos _) hcreated ?_
      · rw [handlesOf_handOut_self, List.length_cons]
        exact congrArg (· + 1) hcount
      · rw [handlesOf_handOut_self]
        exact List.forall_mem_cons.2 ⟨rfl, hrx⟩
    · refine (h.agrees id').frame ?_ (handlesOf_handOut_of_ne hne _ _) le_rfl
      exact Function.update_of_ne hne _ _
  · rw [slots_handOut, slots_setSlot] at hslot'
    rcases eq_or_ne id' id with rfl | hne
    · rw [Function.update_self, Option.some.injEq] at hslot'
      exact ⟨slot, hslot, hslot' ▸ rfl⟩
    · rw [Function.update_of_ne hne] at hslot'
      exact ⟨slot', hslot', rfl⟩

theorem wellFormed_register (h : r.WellFormed) (id : Uuid) : (register id r).2.WellFormed := by
  cases hslot : r.slots id with
  | none => exact wellFormed_open h hslot
  | some slot => exact wellFormed_join h hslot

theorem live_unregister (handle : CancelHandle) (r : Registry) :
    (unregister handle r).live = r.live.erase handle := by
  unfold unregister
  cases r.slots handle.id with
  | none => rfl
  | some slot =>
    simp only
    split <;> rfl

theorem handlesOf_unregister (handle : CancelHandle) (r : Registry) (id : Uuid) :
    handlesOf (unregister handle r) id = (handlesOf r id).erase handle := by
  unfold handlesOf
  rw [live_unregister, List.erase_filter]

/-- The slots after a drop: one handle less, and no slot after the last. -/
theorem slots_unregister (hslot : r.slots handle.id = some slot) :
    (unregister handle r).slots = Function.update r.slots handle.id
      (if slot.handles > 1 then some { slot with handles := slot.handles - 1 } else none) := by
  unfold unregister
  rw [hslot]
  simp only
  split <;> rfl

theorem values_unregister (handle : CancelHandle) (r : Registry) :
    (unregister handle r).values = r.values ∧ (unregister handle r).created = r.created ∧
      (unregister handle r).registered = r.registered := by
  unfold unregister
  cases r.slots handle.id with
  | none => exact ⟨rfl, rfl, rfl⟩
  | some slot =>
    simp only
    split <;> exact ⟨rfl, rfl, rfl⟩

/-- A dropped handle leaves the slot to the others of its id. -/
theorem wellFormed_unregister (h : r.WellFormed) (hmem : handle ∈ r.live) :
    (unregister handle r).WellFormed := by
  obtain ⟨slot, hslot, -⟩ := h.listens hmem
  obtain ⟨hcount, hpos, hcreated, hrx⟩ := agrees_of_some (h.agrees handle.id) hslot
  obtain ⟨hvalues, hcreated', hregistered⟩ := values_unregister handle r
  have hin : handle ∈ handlesOf r handle.id := mem_handlesOf.2 ⟨hmem, rfl⟩
  have hlength := List.length_erase_of_mem hin
  have hslots := slots_unregister hslot
  refine ⟨?_, fun other hother => ?_, fun id => ?_, h.unshared_of fun {id slot'} hslot' => ?_⟩
  · rw [live_unregister]
    exact h.nodup.erase handle
  · rw [live_unregister] at hother
    rw [hregistered]
    exact h.named other (List.mem_of_mem_erase hother)
  · rcases eq_or_ne id handle.id with rfl | hne
    · by_cases hmore : slot.handles > 1
      · rw [if_pos hmore] at hslots
        refine agrees_some (hslots ▸ Function.update_self ..) ?_ ?_ (hcreated' ▸ hcreated) ?_
        · rw [handlesOf_unregister, hlength]
          exact congrArg (· - 1) hcount
        · exact Nat.sub_pos_of_lt hmore
        · rw [handlesOf_unregister]
          exact fun other hother => hrx other (List.mem_of_mem_erase hother)
      · rw [if_neg hmore] at hslots
        have hnone : (unregister handle r).slots handle.id = none := by
          rw [hslots, Function.update_self]
        unfold Agrees
        rw [hnone]
        simp only
        rw [handlesOf_unregister, ← List.length_eq_zero_iff, hlength]
        omega
    · refine (h.agrees id).frame ?_ ?_ hcreated'.ge
      · rw [hslots, Function.update_of_ne hne]
      · rw [handlesOf_unregister]
        exact List.erase_of_not_mem fun hother => hne (mem_handlesOf.1 hother).2.symm
  · rw [hslots] at hslot'
    rcases eq_or_ne id handle.id with rfl | hne
    · rw [Function.update_self] at hslot'
      split at hslot'
      · exact ⟨slot, hslot, by rw [← Option.some.inj hslot']⟩
      · cases hslot'
    · rw [Function.update_of_ne hne] at hslot'
      exact ⟨slot', hslot', rfl⟩

theorem step_drop (hmem : handle ∈ r.live) : step r (.drop handle) = unregister handle r :=
  if_pos hmem

theorem step_drop_of_not_mem (hmem : handle ∉ r.live) : step r (.drop handle) = r := if_neg hmem

theorem wellFormed_step (h : r.WellFormed) (m : Move) : (step r m).WellFormed := by
  cases m with
  | register id => exact wellFormed_register h id
  | cancel id => exact wellFormed_cancel h id
  | drop handle =>
    by_cases hmem : handle ∈ r.live
    · rw [step_drop hmem]
      exact wellFormed_unregister h hmem
    · rw [step_drop_of_not_mem hmem]
      exact h
  | close handle => exact wellFormed_close h handle

/-- **The registry of the process is well formed whatever its tasks do.** -/
theorem wellFormed_run (moves : List Move) : (run moves).WellFormed := by
  induction moves using List.reverseRecOn with
  | nil => exact wellFormed_empty
  | append_singleton moves m ih =>
    rw [run_snoc]
    exact wellFormed_step ih m

/-! ### The signal of a slot -/

theorem signal_of_none (hslot : r.slots id = none) : signal r id = false := by
  unfold signal
  rw [hslot]
  rfl

theorem signal_of_some (hslot : r.slots id = some slot) : signal r id = r.values slot.sender := by
  unfold signal
  rw [hslot]
  rfl

/-- A registration opens a channel that stores `false`, or leaves the signal as it is. -/
theorem WellFormed.signal_register (h : r.WellFormed) (id id' : Uuid) :
    signal (register id r).2 id' = signal r id' := by
  cases hslot : r.slots id with
  | none =>
    rw [register_of_none hslot]
    unfold signal
    rw [slots_handOut, slots_setSlot]
    rcases eq_or_ne id' id with rfl | hne
    · rw [Function.update_self, hslot]
      exact Function.update_self ..
    · rw [Function.update_of_ne hne]
      change (r.slots id').any _ = _
      cases hslot' : r.slots id' with
      | none => rfl
      | some slot' =>
        obtain ⟨-, -, hlt, -⟩ := agrees_of_some (h.agrees id') hslot'
        exact Function.update_of_ne (Nat.ne_of_lt hlt) _ _
  | some slot =>
    rw [register_of_some hslot]
    unfold signal
    rw [slots_handOut, slots_setSlot]
    rcases eq_or_ne id' id with rfl | hne
    · rw [Function.update_self, hslot]
      rfl
    · rw [Function.update_of_ne hne]
      rfl

/-- A slot has a receiver, so what is sent to it is stored. -/
theorem WellFormed.send_eq (h : r.WellFormed) (hslot : r.slots id = some slot) (value : Bool) :
    send slot.sender value r =
      { r with values := Function.update r.values slot.sender value } := by
  obtain ⟨handle, hmem, rfl⟩ := h.exists_live hslot
  obtain ⟨slot', hslot', hrx⟩ := h.listens hmem
  obtain rfl := Option.some.inj (hslot.symm.trans hslot')
  unfold send
  rw [if_pos]
  rw [List.any_eq_true]
  exact ⟨handle, List.mem_append_left _ hmem, decide_eq_true hrx⟩

theorem cancel_of_none (hslot : r.slots id = none) : cancel id r = (false, r) := by
  unfold cancel
  rw [hslot]

theorem WellFormed.cancel_of_some (h : r.WellFormed) (hslot : r.slots id = some slot) :
    cancel id r =
      (true, { r with values := Function.update r.values slot.sender true }) := by
  unfold cancel
  rw [hslot]
  exact congrArg (Prod.mk true) (h.send_eq hslot true)

/-- A cancel is stored in the channel of its own slot and in no other. -/
theorem WellFormed.signal_cancel (h : r.WellFormed) (id : Uuid) (hslot : r.slots id' ≠ none) :
    signal (cancel id r).2 id' = true ↔ id = id' ∨ signal r id' = true := by
  obtain ⟨slot', hslot'⟩ := Option.ne_none_iff_exists'.1 hslot
  cases hcancel : r.slots id with
  | none =>
    rw [cancel_of_none hcancel, or_iff_right]
    rintro rfl
    exact hslot hcancel
  | some slot =>
    rw [h.cancel_of_some hcancel]
    unfold signal
    simp only [hslot', Option.any_some]
    rcases eq_or_ne id id' with rfl | hne
    · obtain rfl := Option.some.inj (hcancel.symm.trans hslot')
      simp only [Function.update_self, true_or]
    · have hsender : slot'.sender ≠ slot.sender :=
        fun heq => hne (h.unshared hslot' hcancel heq).symm
      simp only [Function.update_of_ne hsender, hne, false_or]

/-- A drop leaves the signal as it is wherever a slot stays. -/
theorem WellFormed.signal_unregister (h : r.WellFormed) (hmem : handle ∈ r.live)
    (hslot : (unregister handle r).slots id ≠ none) :
    signal (unregister handle r) id = signal r id := by
  obtain ⟨slot, hold, -⟩ := h.listens hmem
  unfold signal
  rw [(values_unregister handle r).1]
  rw [slots_unregister hold] at hslot ⊢
  rcases eq_or_ne id handle.id with rfl | hne
  · rw [Function.update_self] at hslot ⊢
    split at hslot
    · next hmore =>
      rw [if_pos hmore, hold]
      rfl
    · exact absurd rfl hslot
  · rw [Function.update_of_ne hne]

/-- No move but a registration makes a slot. -/
theorem WellFormed.slots_step (h : r.WellFormed) {m : Move} (hslot : (step r m).slots id ≠ none) :
    r.slots id ≠ none ∨ m = .register id := by
  cases m with
  | register id' =>
    rcases eq_or_ne id' id with rfl | hne
    · exact .inr rfl
    · refine .inl ?_
      change (register id' r).2.slots id ≠ none at hslot
      cases hold : r.slots id' with
      | none =>
        rw [register_of_none hold, slots_handOut, slots_setSlot, Function.update_of_ne hne.symm]
          at hslot
        exact hslot
      | some slot =>
        rw [register_of_some hold, slots_handOut, slots_setSlot, Function.update_of_ne hne.symm]
          at hslot
        exact hslot
  | cancel id' =>
    refine .inl ?_
    change (cancel id' r).2.slots id ≠ none at hslot
    cases hold : r.slots id' with
    | none =>
      rw [cancel_of_none hold] at hslot
      exact hslot
    | some slot =>
      rw [h.cancel_of_some hold] at hslot
      exact hslot
  | drop handle =>
    refine .inl fun hnone => hslot ?_
    by_cases hmem : handle ∈ r.live
    · obtain ⟨slot, hold, -⟩ := h.listens hmem
      rw [step_drop hmem, slots_unregister hold, Function.update_of_ne]
      · exact hnone
      · rintro rfl
        rw [hnone] at hold
        cases hold
    · rw [step_drop_of_not_mem hmem]
      exact hnone
  | close handle => exact .inl hslot

/-- **What one move does to the signal of a slot.** Only its own `cancel` raises it, and a slot that
was not there before the move starts without one. -/
theorem WellFormed.signal_step (h : r.WellFormed) {m : Move}
    (hslot : (step r m).slots id ≠ none) :
    signal (step r m) id = true ↔ r.slots id ≠ none ∧ (m = .cancel id ∨ signal r id = true) := by
  have hsignal : signal r id = true → r.slots id ≠ none := by
    intro hsignal hnone
    rw [signal_of_none hnone] at hsignal
    cases hsignal
  cases m with
  | register id' =>
    change signal (register id' r).2 id = true ↔ _
    rw [h.signal_register]
    simpa using hsignal
  | cancel id' =>
    have hold := (h.slots_step hslot).resolve_right nofun
    change signal (cancel id' r).2 id = true ↔ _
    rw [h.signal_cancel id' hold, Move.cancel.injEq]
    exact (and_iff_right hold).symm
  | drop handle =>
    have hsame : signal (step r (.drop handle)) id = signal r id := by
      by_cases hmem : handle ∈ r.live
      · rw [step_drop hmem] at hslot ⊢
        exact h.signal_unregister hmem hslot
      · rw [step_drop_of_not_mem hmem]
    rw [hsame]
    simpa using hsignal
  | close handle =>
    change signal r id = true ↔ _
    simpa using hsignal

/-! ### Since a slot was created -/

variable {moves since : List Move} {m : Move}

/-- A slot that is there was created by one of the moves. -/
theorem exists_slotSince (hslot : (run moves).slots id ≠ none) :
    ∃ since, SlotSince moves id since := by
  induction moves using List.reverseRecOn with
  | nil => exact absurd rfl hslot
  | append_singleton moves m ih =>
    have hlast := hslot
    rw [run_snoc] at hslot
    by_cases hold : (run moves).slots id = none
    · obtain rfl := ((wellFormed_run moves).slots_step hslot).resolve_left (not_not_intro hold)
      refine ⟨[], moves, rfl, hold, fun p hp => ?_⟩
      rw [List.prefix_nil.1 hp]
      exact hlast
    · obtain ⟨since, before, rfl, hnone, hall⟩ := ih hold
      refine ⟨since ++ [m], before, by simp, hnone, fun p hp => ?_⟩
      rcases List.prefix_concat_iff.1 hp with rfl | hp
      · simpa using hlast
      · exact hall p hp

theorem SlotSince.slot_ne_none (h : SlotSince moves id since) : (run moves).slots id ≠ none := by
  obtain ⟨before, rfl, -, hall⟩ := h
  exact hall since List.prefix_rfl

/-- The moves since a creation grow with the run. -/
theorem slotSince_snoc (hslot : (run (moves ++ [m])).slots id ≠ none) :
    SlotSince (moves ++ [m]) id since ↔
      (∃ old, since = old ++ [m] ∧ SlotSince moves id old) ∨
        since = [] ∧ m = .register id ∧ (run moves).slots id = none := by
  constructor
  · rintro ⟨before, heq, hnone, hall⟩
    rcases since.eq_nil_or_concat' with rfl | ⟨old, last, rfl⟩
    · obtain ⟨rfl, hm⟩ := List.append_inj' heq rfl
      exact .inr ⟨rfl, List.singleton_inj.1 hm, hnone⟩
    · rw [← List.cons_append, ← List.append_assoc] at heq
      obtain ⟨rfl, hm⟩ := List.append_inj' heq rfl
      rw [List.singleton_inj.1 hm]
      exact .inl ⟨old, rfl, before, rfl, hnone,
        fun p hp => hall p (hp.trans (List.prefix_append ..))⟩
  · rintro (⟨old, rfl, before, rfl, hnone, hall⟩ | ⟨rfl, rfl, hnone⟩)
    · refine ⟨before, by simp, hnone, fun p hp => ?_⟩
      rcases List.prefix_concat_iff.1 hp with rfl | hp
      · simpa using hslot
      · exact hall p hp
    · refine ⟨moves, rfl, hnone, fun p hp => ?_⟩
      rw [List.prefix_nil.1 hp]
      exact hslot

theorem cancelledSince_snoc (hslot : (run (moves ++ [m])).slots id ≠ none) :
    CancelledSince (moves ++ [m]) id ↔
      (run moves).slots id ≠ none ∧ (m = .cancel id ∨ CancelledSince moves id) := by
  unfold CancelledSince
  simp only [slotSince_snoc hslot]
  constructor
  · rintro ⟨since, ⟨old, rfl, hold⟩ | ⟨rfl, -, -⟩, hmem⟩
    · refine ⟨hold.slot_ne_none, ?_⟩
      rcases List.mem_append.1 hmem with hmem | hmem
      · exact .inr ⟨old, hold, hmem⟩
      · exact .inl (List.mem_singleton.1 hmem).symm
    · cases hmem
  · rintro ⟨hold, hm | ⟨since, hsince, hmem⟩⟩
    · obtain ⟨since, hsince⟩ := exists_slotSince hold
      exact ⟨since ++ [m], .inl ⟨since, rfl, hsince⟩, by simp [hm]⟩
    · exact ⟨since ++ [m], .inl ⟨since, rfl, hsince⟩, List.mem_append_left _ hmem⟩

/-- **A slot is signalled exactly when its id was cancelled since it was created.** -/
theorem signal_run (hslot : (run moves).slots id ≠ none) :
    signal (run moves) id = true ↔ CancelledSince moves id := by
  induction moves using List.reverseRecOn with
  | nil => exact absurd rfl hslot
  | append_singleton moves m ih =>
    rw [cancelledSince_snoc hslot]
    rw [run_snoc] at hslot ⊢
    rw [(wellFormed_run moves).signal_step hslot]
    exact and_congr_right fun hold => or_congr_right (ih hold)

/-! ### What a handle sees -/

theorem WellFormed.isCancelled_eq (h : r.WellFormed) (hmem : handle ∈ r.live) :
    isCancelled handle r = signal r handle.id := by
  obtain ⟨slot, hslot, hrx⟩ := h.listens hmem
  unfold isCancelled
  rw [signal_of_some hslot, hrx]

/-- **A drop takes nothing from the other handles.** -/
theorem WellFormed.others_kept (h : r.WellFormed) (hmem : handle ∈ r.live) {other : CancelHandle}
    (hother : other ∈ r.live) (hne : other ≠ handle) :
    other ∈ (unregister handle r).live ∧ ((unregister handle r).slots other.id).isSome ∧
      isCancelled other (unregister handle r) = isCancelled other r := by
  have hstays : other ∈ (unregister handle r).live := by
    rw [live_unregister]
    exact (List.mem_erase_of_ne hne).2 hother
  refine ⟨hstays, (wellFormed_unregister h hmem).isSome_iff.2 ⟨other, hstays, rfl⟩, ?_⟩
  unfold isCancelled
  rw [(values_unregister handle r).1]

/-- **A new slot starts without a signal**, whatever happened to its id before. -/
theorem isCancelled_register_of_none (hslot : r.slots id = none) :
    isCancelled (register id r).1 (register id r).2 = false := by
  rw [register_of_none hslot]
  exact Function.update_self ..

/-- **The registry follows its handles.** After any moves of the tasks an id has a slot exactly
when a handle for it is around, the slot counts them, and a cancel answers whether there are any. A
handle is cancelled exactly when its id was since its slot was created. The drop of one handle
leaves the others registered and their signal as it is, and no signal reaches a slot created
later. -/
theorem registry_follows_handles (moves : List Move) (id : Uuid) :
    let r := run moves
    ((r.slots id).isSome ↔ ∃ handle ∈ r.live, handle.id = id) ∧
      (∀ slot, r.slots id = some slot → slot.handles = (r.live.filter (·.id = id)).length) ∧
      ((cancel id r).1 = true ↔ ∃ handle ∈ r.live, handle.id = id) ∧
      (∀ handle ∈ r.live, isCancelled handle r = true ↔ CancelledSince moves handle.id) ∧
      (∀ handle ∈ r.live, ∀ other ∈ r.live, other ≠ handle →
        let r' := step r (.drop handle)
        other ∈ r'.live ∧ (r'.slots other.id).isSome ∧
          isCancelled other r' = isCancelled other r) ∧
      (r.slots id = none → isCancelled (register id r).1 (register id r).2 = false) := by
  have h := wellFormed_run moves
  refine ⟨h.isSome_iff, fun slot hslot => ?_, ?_, fun handle hmem => ?_,
    fun handle hmem other hother hne => ?_, isCancelled_register_of_none⟩
  · exact (agrees_of_some (h.agrees id) hslot).1
  · rw [← h.isSome_iff]
    cases hslot : (run moves).slots id with
    | none => simp [cancel_of_none hslot]
    | some slot => simp [h.cancel_of_some hslot]
  · rw [h.isCancelled_eq hmem]
    exact signal_run (Option.isSome_iff_ne_none.1 (h.isSome_iff.2 ⟨handle, hmem, rfl⟩))
  · rw [step_drop hmem]
    exact h.others_kept hmem hother hne

end Registry
end Executor
end AgentDb
