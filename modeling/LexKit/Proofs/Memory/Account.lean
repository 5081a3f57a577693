import LexKit.Proofs.Memory.Calls

/-!
# Accounts of calls

An account sets the blocks that allocators lent off against the blocks that they got back. It opens
with nothing owed, and each call is one entry of it: a refusal changes nothing, a block that was
never lent before comes to be owed, and a block that is owed is repaid. So an account has no place
for a block that is given back twice, or that was never lent.

Blocks of storages that no allocator knows are kept beside it. An allocator cannot come to lend one
of them, since all that it may still lend is in storages to come or in bytes that an arena has left.
-/

set_option autoImplicit false

namespace LexKit

/-- A block and the allocator that supplied it. -/
structure Loan where
  allocator : AllocatorId
  block : Block
deriving DecidableEq, Repr

namespace AllocatorCall

def lent? (call : AllocatorCall) : Option Loan :=
  call.obtained?.map fun extent => ⟨call.allocator, .ofExtent extent⟩

def repaid? (call : AllocatorCall) : Option Loan :=
  call.returned?.map fun block => ⟨call.allocator, block⟩

end AllocatorCall

def lentBy (calls : List AllocatorCall) : List Loan :=
  calls.filterMap AllocatorCall.lent?

def repaidBy (calls : List AllocatorCall) : List Loan :=
  calls.filterMap AllocatorCall.repaid?

theorem Block.ofExtent_injective {first second : Extent}
    (same : Block.ofExtent first = Block.ofExtent second) : first = second := by
  obtain ⟨storage, start, size⟩ := first
  obtain ⟨other, place, length⟩ := second
  simp only [ofExtent, Block.mk.injEq, Option.some.injEq, Int.natCast_inj] at same
  obtain ⟨rfl, rfl, rfl⟩ := same
  rfl

/-- The calls, the last one first, come out at the loans that are owed. -/
inductive Account : List AllocatorCall → List Loan → Prop
  | opened : Account [] []
  | refused {calls : List AllocatorCall} {owed : List Loan} (id : AllocatorId) (size : Int)
      (account : Account calls owed) : Account (.allocate id size none :: calls) owed
  | lent {calls : List AllocatorCall} {owed : List Loan} {id : AllocatorId} {size : Int}
      {extent : Extent} (account : Account calls owed) (positive : 0 < extent.size)
      (new : ⟨id, .ofExtent extent⟩ ∉ lentBy calls) :
      Account (.allocate id size (some extent) :: calls) (⟨id, .ofExtent extent⟩ :: owed)
  | repaid {calls : List AllocatorCall} {owed : List Loan} {id : AllocatorId} {block : Block}
      (taken : Bool) (account : Account calls (⟨id, block⟩ :: owed)) :
      Account (.free id block taken :: calls) owed
  | reordered {calls : List AllocatorCall} {owed other : List Loan} (account : Account calls owed)
      (same : owed.Perm other) : Account calls other

namespace Account

variable {calls : List AllocatorCall} {owed : List Loan}

theorem perm (account : Account calls owed) : (lentBy calls).Perm (repaidBy calls ++ owed) := by
  induction account with
  | opened => exact .refl []
  | refused id size account ih => exact ih
  | lent account positive new ih => exact (ih.cons _).trans List.perm_middle.symm
  | repaid taken account ih => exact ih.trans List.perm_middle
  | reordered account same ih => exact ih.trans (same.append_left _)

theorem nodup (account : Account calls owed) : (lentBy calls).Nodup := by
  induction account with
  | opened => exact List.nodup_nil
  | refused id size account ih => exact ih
  | lent account positive new ih => exact List.nodup_cons.mpr ⟨new, ih⟩
  | repaid taken account ih => exact ih
  | reordered account same ih => exact ih

/-- Only blocks of some size are lent. An empty block would not have to be given back. -/
theorem positive (account : Account calls owed) {loan : Loan} (member : loan ∈ lentBy calls) :
    loan.block.isEmpty = false ∧ 0 < loan.block.size := by
  induction account with
  | opened => cases member
  | refused id size account ih => exact ih member
  | lent account positive new ih =>
      rcases List.mem_cons.mp member with rfl | earlier
      · exact ⟨rfl, Int.natCast_pos.mpr positive⟩
      · exact ih earlier
  | repaid taken account ih => exact ih member
  | reordered account same ih => exact ih member

theorem nodup_parts (account : Account calls owed) : (repaidBy calls ++ owed).Nodup :=
  account.perm.nodup_iff.mp account.nodup

theorem mem_owed_iff (account : Account calls owed) {loan : Loan} :
    loan ∈ owed ↔ loan ∈ lentBy calls ∧ loan ∉ repaidBy calls := by
  rw [account.perm.mem_iff, List.mem_append]
  have apart := (List.nodup_append.mp account.nodup_parts).2.2
  constructor
  · intro member
    exact ⟨.inr member, fun earlier => apart loan earlier loan member rfl⟩
  · rintro ⟨repaid | member, unpaid⟩
    · exact absurd repaid unpaid
    · exact member

/-- At each call that gave a block back, the block was owed. -/
theorem owed_at_free (account : Account calls owed) {later earlier : List AllocatorCall}
    {id : AllocatorId} {block : Block} {taken : Bool}
    (made : calls = later ++ .free id block taken :: earlier) :
    ⟨id, block⟩ ∈ lentBy earlier ∧ ⟨id, block⟩ ∉ repaidBy earlier := by
  induction account generalizing later with
  | opened => simp at made
  | reordered account same ih => exact ih made
  | refused other size account ih =>
      cases later with
      | nil => cases made
      | cons call later => exact ih (List.cons.inj made).2
  | lent account positive new ih =>
      cases later with
      | nil => cases made
      | cons call later => exact ih (List.cons.inj made).2
  | repaid returned account ih =>
      cases later with
      | nil =>
          cases made
          exact account.mem_owed_iff.mp List.mem_cons_self
      | cons call later => exact ih (List.cons.inj made).2

end Account

namespace Memory

/-! ## What allocators may still lend -/

/-- The first byte of the extent is in a storage to come, or is left in the allocator's arena. -/
def Upcoming (memory : Memory) (id : AllocatorId) (extent : Extent) : Prop :=
  memory.storages.size ≤ extent.storage.index ∨
    memory.Remaining id extent.storage extent.start

theorem not_upcoming {memory : Memory} {id : AllocatorId} {extent : Extent}
    (exists_ : extent.storage.index < memory.storages.size)
    (taken : ¬memory.Remaining id extent.storage extent.start) : ¬memory.Upcoming id extent :=
  fun upcoming => upcoming.elim (Nat.not_le_of_lt exists_) taken

/-- No call was made, and nothing came to be lent that could not have been lent before. -/
structure Quiet (memory after : Memory) : Prop where
  calls_eq : after.calls = memory.calls
  upcoming : ∀ id extent, after.Upcoming id extent → memory.Upcoming id extent
  fits : ∀ id, memory.Fits id → after.Fits id

namespace Quiet

variable {first second third : Memory}

theorem refl (memory : Memory) : Quiet memory memory :=
  ⟨rfl, fun _ _ upcoming => upcoming, fun _ fits => fits⟩

theorem trans (left : Quiet first second) (right : Quiet second third) : Quiet first third :=
  ⟨right.calls_eq.trans left.calls_eq,
    fun id extent upcoming => left.upcoming id extent (right.upcoming id extent upcoming),
    fun id fits => right.fits id (left.fits id fits)⟩

end Quiet

theorem ChangesWithin.upcoming {touched : StorageId → Nat → Prop} {memory after : Memory}
    (changed : ChangesWithin touched memory after) {id : AllocatorId} {extent : Extent}
    (upcoming : after.Upcoming id extent) : memory.Upcoming id extent := by
  rcases upcoming with new | remains
  · exact .inl (Nat.le_trans changed.count_le new)
  · exact .inr (changed.remaining _ _ _ remains)

theorem ChangesWithin.quiet {touched : StorageId → Nat → Prop} {memory after : Memory}
    (changed : ChangesWithin touched memory after) (same : after.calls = memory.calls) :
    Quiet memory after :=
  ⟨same, fun _ _ upcoming => changed.upcoming upcoming, changed.fits⟩

theorem quiet_write (memory : Memory) (id : StorageId) (start : Nat) (bytes : Bytes) :
    Quiet memory (memory.write id start bytes) :=
  (changesWithin_write memory id start bytes).quiet rfl

theorem quiet_addStorage (memory : Memory) (storage : Storage) :
    Quiet memory (memory.addStorage storage).2 :=
  (changesWithin_addStorage (fun _ _ => False) memory storage).quiet rfl

/-! ## Booked calls -/

/-- The calls made since `base` are an account of what is owed. Nothing that was lent can be lent
again, and the inline blocks were not lent and cannot be. -/
structure Booked (base calls : List AllocatorCall) (owed : List Loan) (inline : List Extent)
    (memory : Memory) : Prop where
  fits : ∀ id, memory.Fits id
  calls_eq : memory.calls = calls ++ base
  account : Account calls owed
  passed : ∀ id extent, ⟨id, .ofExtent extent⟩ ∈ lentBy calls → ¬memory.Upcoming id extent
  unlent : ∀ extent ∈ inline, ∀ id,
    ⟨id, .ofExtent extent⟩ ∉ lentBy calls ∧ ¬memory.Upcoming id extent

namespace Booked

variable {base calls : List AllocatorCall} {owed other : List Loan} {inline : List Extent}
  {memory after : Memory} {id : AllocatorId} {size : Int} {extent : Extent} {block : Block}

theorem opened (fits : ∀ id, memory.Fits id) : Booked memory.calls [] [] [] memory :=
  ⟨fits, rfl, .opened, fun _ _ lent => absurd lent List.not_mem_nil,
    fun _ member => absurd member List.not_mem_nil⟩

theorem reordered (booked : Booked base calls owed inline memory) (same : owed.Perm other) :
    Booked base calls other inline memory :=
  ⟨booked.fits, booked.calls_eq, booked.account.reordered same, booked.passed, booked.unlent⟩

theorem subset {fewer : List Extent} (booked : Booked base calls owed inline memory)
    (within : fewer ⊆ inline) : Booked base calls owed fewer memory :=
  ⟨booked.fits, booked.calls_eq, booked.account, booked.passed,
    fun extent member => booked.unlent extent (within member)⟩

theorem quiet (booked : Booked base calls owed inline memory) (quiet : Quiet memory after) :
    Booked base calls owed inline after :=
  ⟨fun id => quiet.fits id (booked.fits id), quiet.calls_eq.trans booked.calls_eq, booked.account,
    fun id extent lent upcoming => booked.passed id extent lent (quiet.upcoming id extent upcoming),
    fun extent member id => ⟨(booked.unlent extent member id).1,
      fun upcoming => (booked.unlent extent member id).2 (quiet.upcoming id extent upcoming)⟩⟩

private theorem recorded (booked : Booked base calls owed inline memory) (call : AllocatorCall)
    (nothing : call.lent? = none) (account : Account (call :: calls) other) :
    Booked base (call :: calls) other inline (memory.record call) := by
  have lent : lentBy (call :: calls) = lentBy calls := List.filterMap_cons_none nothing
  have changed := changesWithin_record (fun _ _ => False) memory call
  refine ⟨fun id => changed.fits id (booked.fits id),
    congrArg (List.cons call) booked.calls_eq, account, ?_, ?_⟩
  · intro id extent member upcoming
    rw [lent] at member
    exact booked.passed id extent member (changed.upcoming upcoming)
  · intro extent member id
    rw [lent]
    exact ⟨(booked.unlent extent member id).1,
      fun upcoming => (booked.unlent extent member id).2 (changed.upcoming upcoming)⟩

/-- A refusal is on the books without a loan: nothing was obtained, so nothing is owed for it. -/
theorem refused (booked : Booked base calls owed inline memory) (id : AllocatorId) (size : Int) :
    Booked base (.allocate id size none :: calls) owed inline
      (memory.record (.allocate id size none)) :=
  booked.recorded _ rfl (booked.account.refused id size)

theorem repaid (booked : Booked base calls (⟨id, block⟩ :: owed) inline memory) (taken : Bool) :
    Booked base (.free id block taken :: calls) owed inline
      (memory.record (.free id block taken)) :=
  booked.recorded _ rfl (booked.account.repaid taken)

theorem lent (booked : Booked base calls owed inline memory) (positive : 0 < size)
    (supplied : allocate id size memory = .ok extent after) :
    Booked base (.allocate id size (some extent) :: calls) (⟨id, .ofExtent extent⟩ :: owed) inline
      after := by
  have granted := granted_of_allocate (booked.fits id) supplied
  have sized : 0 < extent.size := by
    rw [size_of_allocate supplied]
    omega
  -- The extent was upcoming and is not any more, so it is none of those that had passed before.
  have first : extent.Covers extent.storage extent.start :=
    ⟨rfl, Nat.le_refl _, Nat.lt_add_of_pos_right sized⟩
  have before : memory.Upcoming id extent := granted.fresh _ _ first
  have behind : ¬after.Upcoming id extent :=
    not_upcoming granted.holds.storage_lt (granted.taken _ _ first)
  refine ⟨fun other => granted.changed.fits other (booked.fits other), ?_, ?_, ?_, ?_⟩
  · rw [calls_of_allocate supplied, booked.calls_eq]
    rfl
  · exact booked.account.lent sized fun earlier => booked.passed id extent earlier before
  · intro other place member upcoming
    rcases List.mem_cons.mp member with same | earlier
    · obtain ⟨rfl, block_eq⟩ := Loan.mk.inj same
      rw [Block.ofExtent_injective block_eq] at upcoming
      exact behind upcoming
    · exact booked.passed other place earlier (granted.changed.upcoming upcoming)
  · intro place member other
    obtain ⟨apart, past⟩ := booked.unlent place member other
    refine ⟨?_, fun upcoming => past (granted.changed.upcoming upcoming)⟩
    intro also
    rcases List.mem_cons.mp also with same | earlier
    · obtain ⟨rfl, block_eq⟩ := Loan.mk.inj same
      rw [Block.ofExtent_injective block_eq] at past
      exact past before
    · exact apart earlier

theorem inlined (booked : Booked base calls owed inline memory) (size : Nat) :
    Booked base calls owed (⟨(memory.addStorage (Storage.zeros size)).1, 0, size⟩ :: inline)
      (memory.addStorage (Storage.zeros size)).2 := by
  have changed := changesWithin_addStorage (fun _ _ => False) memory (Storage.zeros size)
  have later := booked.quiet (quiet_addStorage memory (Storage.zeros size))
  refine ⟨later.fits, later.calls_eq, later.account, later.passed, ?_⟩
  intro extent member id
  rcases List.mem_cons.mp member with rfl | known
  -- What is left in arenas lies in storages that there were, so nothing of it is in the new one.
  · have new : memory.storages.size ≤ (memory.addStorage (Storage.zeros size)).1.index :=
      Nat.le_refl _
    refine ⟨fun lent => booked.passed id _ lent (.inl new), not_upcoming ?_ ?_⟩
    · exact (holds_addStorage memory size).storage_lt
    · intro remains
      have old := (booked.fits id).storage_lt_of_remaining (changed.remaining _ _ _ remains)
      exact Nat.not_lt_of_le new old
  · exact later.unlent extent known id

end Booked

def Balanced (base : List AllocatorCall) (owed : List Loan) (inline : List Extent)
    (memory : Memory) : Prop :=
  ∃ calls, Booked base calls owed inline memory

end Memory

end LexKit
