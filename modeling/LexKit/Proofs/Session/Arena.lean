import Mathlib
import LexKit.Proofs.Session.Requests

/-!
# Runs of an arena

A run is a sequence of calls to one arena, of handles that a user makes by hand, and of writes. A
ledger goes with it: it lists the extents supplied since the last reset, and those that count as
used. `Books` relates a session to its ledger; every call preserves it, and all that is promised of
an arena follows from it.
-/

set_option autoImplicit false

namespace LexKit

inductive ArenaCall where
  | allocate (size : Int)
  /-- Any handle, also one that is empty or stale. -/
  | free (handle : BlockId)
  | reset
  | close
  /-- A handle made by hand, over any storage. -/
  | place (block : Block)
  | write (window : Window) (index value : Int)

/-- The extents supplied since the last reset, and since the last reset or close. -/
structure Ledger where
  issued : List Extent
  counted : List Extent

namespace Ledger

def empty : Ledger :=
  ⟨[], []⟩

def used (ledger : Ledger) : Nat :=
  (ledger.counted.map Extent.size).sum

def issue (ledger : Ledger) (extent : Extent) : Ledger :=
  ⟨extent :: ledger.issued, extent :: ledger.counted⟩

@[simp]
theorem used_issue (ledger : Ledger) (extent : Extent) :
    (ledger.issue extent).used = ledger.used + extent.size := by
  rw [used, issue, List.map_cons, List.sum_cons, Nat.add_comm]
  rfl

end Ledger

/-- The extent that a block refers to, if its parts are what they should be. -/
def PlacedBlock.extent? (block : PlacedBlock) : Option Extent :=
  match block.storage, block.start.int?, block.size.int? with
  | .storage storage, some start, some size => some ⟨storage, start.toNat, size.toNat⟩
  | _, _, _ => none

namespace ArenaCall

def perform (arena : AllocatorId) : ArenaCall → SessionM Object
  | allocate size => SessionM.allocate arena (Object.int size)
  | free handle => SessionM.free arena (.block handle)
  | reset => SessionM.done (SessionM.reset arena)
  | close => SessionM.done (SessionM.close arena)
  | place block => SessionM.addBlock (.ofBlock block)
  | write window index value =>
      SessionM.done (SessionM.setThrough window (Object.int index) (Object.int value))

def book (call : ArenaCall) (ledger : Ledger) (result : Object) (after : Session) : Ledger :=
  match call, result with
  | allocate _, .block handle =>
      match (after.block handle).extent? with
      | some extent => ledger.issue extent
      | none => ledger
  | reset, _ => .empty
  | close, _ => { ledger with counted := [] }
  | _, _ => ledger

def step (arena : AllocatorId) (call : ArenaCall) (state : Session × Ledger) : Session × Ledger :=
  match call.perform arena state.1 with
  | .ok result after => (after, call.book state.2 result after)
  | .error _ after => (after, state.2)

def run (arena : AllocatorId) (calls : List ArenaCall) (state : Session × Ledger) :
    Session × Ledger :=
  calls.foldl (fun state call => call.step arena state) state

end ArenaCall

/-- The books of an arena over the first `capacity` bytes of a storage. -/
structure Books (id : AllocatorId) (storage : StorageId) (capacity : Nat) (session : Session)
    (ledger : Ledger) : Prop where
  counts : SessionM.CountsWhole session id
  flagless : session.flagRegions.lookup storage = none
  holds : session.memory.Holds ⟨storage, 0, capacity⟩
  within : ledger.used ≤ capacity
  /-- An open arena hands out what lies behind all it handed out; a closed one has no region. -/
  known :
    (session.memory.allocator id = .arena ⟨some ⟨storage, 0, capacity⟩, ledger.used⟩ ∧
      ∀ extent ∈ ledger.issued, extent.stop ≤ ledger.used) ∨
    (session.memory.allocator id = .arena ⟨none, 0⟩ ∧ ledger.used = 0)
  inside : ∀ extent ∈ ledger.issued, extent.storage = storage ∧ extent.stop ≤ capacity
  disjoint : ledger.issued.Pairwise Extent.Disjoint
  handles : ∀ handle, ∃ block, session.block handle = .ofBlock block

namespace Books

open SessionM

variable {id : AllocatorId} {storage : StorageId} {capacity : Nat} {session after : Session}
  {ledger : Ledger}

/-- What leaves the arena and the ledger as they are keeps the books, as long as the handles remain
what they should be. -/
theorem keeps (books : Books id storage capacity session ledger) (kept : Keeps session after id)
    (known : after.memory.allocator id = session.memory.allocator id)
    (handles : ∀ handle, ∃ block, after.block handle = .ofBlock block) :
    Books id storage capacity after ledger := by
  refine ⟨kept.counts books.counts, ?_, kept.holds _ books.holds, books.within, ?_, books.inside,
    books.disjoint, handles⟩
  · rw [kept.flags]
    exact books.flagless
  · rw [known]
    exact books.known

theorem block_push (blocks : Array PlacedBlock) (block : PlacedBlock) (handle : BlockId) :
    (blocks.push block).getD handle.index PlacedBlock.empty =
      if handle.index = blocks.size then block
      else blocks.getD handle.index PlacedBlock.empty := by
  rw [Array.getD_eq_getD_getElem?, Array.getElem?_push]
  split
  · rfl
  · rw [Array.getD_eq_getD_getElem?]

theorem block_setIfInBounds (blocks : Array PlacedBlock) (handle other : BlockId)
    (block : PlacedBlock) :
    (blocks.setIfInBounds handle.index block).getD other.index PlacedBlock.empty =
      if other.index = handle.index ∧ handle.index < blocks.size then block
      else blocks.getD other.index PlacedBlock.empty := by
  rw [Array.getD_eq_getD_getElem?, Array.getElem?_setIfInBounds, Array.getD_eq_getD_getElem?]
  by_cases same : handle.index = other.index
  · by_cases known : handle.index < blocks.size
    · rw [if_pos same, if_pos known, if_pos ⟨same.symm, known⟩]
      rfl
    · rw [if_pos same, if_neg known, if_neg (by omega), ← same,
        Array.getElem?_eq_none (Nat.le_of_not_lt known)]
  · rw [if_neg same, if_neg (by omega)]

theorem fits (books : Books id storage capacity session ledger) : session.memory.Fits id := by
  intro region used known
  rcases books.known with ⟨opened, -⟩ | ⟨closed, -⟩
  · rw [opened] at known
    cases known
    exact ⟨books.holds, books.within⟩
  · rw [closed] at known
    cases known

/-! ## Requests -/

/-- A request that was granted: the extent is the next one of the region, and the books go on. -/
structure Supply (id : AllocatorId) (storage : StorageId) (capacity : Nat) (session : Session)
    (ledger : Ledger) (size : Nat) (after : Session) : Prop where
  granted : Memory.Granted session.memory id size ⟨storage, ledger.used, size⟩ after.memory
  bytes : ∀ other, other ≠ storage → after.memory.storage other = session.memory.storage other
  block : after.block ⟨session.blocks.size⟩ =
    .ofExtent ⟨storage, ledger.used, size⟩ (Object.int size)
  books : Books id storage capacity after (ledger.issue ⟨storage, ledger.used, size⟩)

theorem supply (books : Books id storage capacity session ledger)
    (opened : session.memory.allocator id = .arena ⟨some ⟨storage, 0, capacity⟩, ledger.used⟩)
    {size : Nat} (room : ledger.used + size ≤ capacity) :
    ∃ after, allocate id (Object.int size) session = .ok (.block ⟨session.blocks.size⟩) after ∧
      Supply id storage capacity session ledger size after := by
  have natural : ¬(size : Int) < 0 := Int.not_lt.mpr (Int.natCast_nonneg size)
  have enough : (ledger.used : Int) + size ≤ capacity := by exact_mod_cast room
  have grant := Memory.grant_arena opened natural enough
  simp only [Nat.zero_add, Int.toNat_natCast] at grant
  have granted := Memory.granted_of_grant books.fits grant
  have recorded := allocate_supplied books.counts opened natural enough grant
  have below : ∀ extent ∈ ledger.issued, extent.stop ≤ ledger.used := by
    rcases books.known with ⟨-, below⟩ | ⟨closed, -⟩
    · exact below
    · rw [opened] at closed
      cases closed
  refine ⟨_, recorded, granted, ?_, ?_, ?_⟩
  · intro other different
    exact Memory.storage_updateStorage_other different _
  · change (session.blocks.push _).getD session.blocks.size PlacedBlock.empty = _
    rw [block_push _ _ ⟨session.blocks.size⟩, if_pos rfl]
  · refine ⟨⟨books.counts.own, books.counts.whole⟩, books.flagless, ?_, ?_, .inl ⟨?_, ?_⟩,
      ?_, ?_, ?_⟩
    · exact granted.changed.holds books.holds
    · rw [Ledger.used_issue]
      exact room
    · rw [Ledger.used_issue]
      have openedThen : (session.memory.updateStorage storage
          (·.zero ledger.used size)).allocator id = .arena ⟨some ⟨storage, 0, capacity⟩,
            ledger.used⟩ := opened
      exact Memory.allocator_setAllocator_self openedThen _
    · intro extent member
      rw [Ledger.used_issue]
      rcases List.mem_cons.mp member with rfl | member
      · exact Nat.le_refl _
      · exact Nat.le_trans (below extent member) (Nat.le_add_right _ _)
    · intro extent member
      rcases List.mem_cons.mp member with rfl | member
      · exact ⟨rfl, room⟩
      · exact books.inside extent member
    · refine List.pairwise_cons.mpr ⟨?_, books.disjoint⟩
      rintro extent member other index ⟨-, above, -⟩ ⟨-, -, under⟩
      have le := below extent member
      simp only at above
      omega
    · intro handle
      change ∃ block, (session.blocks.push _).getD handle.index PlacedBlock.empty = _
      rw [block_push]
      split
      · exact ⟨.ofExtent ⟨storage, ledger.used, size⟩, rfl⟩
      · exact books.handles handle

/-! ## Steps -/

private theorem keeps_of_same (workspace : after.workspace = session.workspace)
    (strangers : after.strangers = session.strangers) (uses : after.realUses = session.realUses)
    (flags : after.flagRegions = session.flagRegions) : Keeps session after id := by
  refine ⟨fun counts => ⟨?_, ?_⟩, flags, fun extent held => ?_⟩
  · rw [strangers]
    exact counts.own
  · rw [uses]
    exact counts.whole
  · rw [Session.memory, workspace]
    exact held

private theorem step_allocate (books : Books id storage capacity session ledger) (size : Int) :
    Books id storage capacity ((ArenaCall.allocate size).step id (session, ledger)).1
      ((ArenaCall.allocate size).step id (session, ledger)).2 := by
  simp only [ArenaCall.step, ArenaCall.perform]
  rcases books.known with ⟨opened, -⟩ | ⟨closed, -⟩
  · by_cases refused : size < 0 ∨ ((capacity : Nat) : Int) < ledger.used + size
    · obtain ⟨fault, ran⟩ := allocate_refused books.counts opened refused
      rw [ran]
      exact books.keeps (keeps_of_same rfl rfl rfl rfl) rfl books.handles
    · obtain ⟨count, rfl⟩ := Int.eq_ofNat_of_zero_le (show 0 ≤ size by omega)
      have room : ledger.used + count ≤ capacity := by omega
      obtain ⟨after, ran, supply⟩ := books.supply opened room
      rw [ran]
      have extent : (after.block ⟨session.blocks.size⟩).extent? =
          some ⟨storage, ledger.used, count⟩ := by
        rw [supply.block]
        rfl
      simp only [ArenaCall.book, extent]
      exact supply.books
  · rw [allocate_closed books.counts closed]
    exact books.keeps (keeps_of_same rfl rfl rfl rfl) rfl books.handles

private theorem step_free (books : Books id storage capacity session ledger) (handle : BlockId) :
    Books id storage capacity ((ArenaCall.free handle).step id (session, ledger)).1
      ((ArenaCall.free handle).step id (session, ledger)).2 := by
  obtain ⟨block, held⟩ := books.handles handle
  have ran : ∃ arena, session.memory.allocator id = .arena arena := by
    rcases books.known with ⟨opened, -⟩ | ⟨closed, -⟩
    · exact ⟨_, opened⟩
    · exact ⟨_, closed⟩
  obtain ⟨arena, known⟩ := ran
  simp only [ArenaCall.step, ArenaCall.perform, free_block known held]
  refine books.keeps (keeps_of_same rfl rfl rfl rfl) rfl ?_
  intro other
  change ∃ placed, Array.getD (if session.memory.takesBack id block then
    session.blocks.setIfInBounds handle.index PlacedBlock.empty else session.blocks)
      other.index PlacedBlock.empty = _
  split
  · rw [block_setIfInBounds]
    split
    · exact ⟨Block.empty, rfl⟩
    · exact books.handles other
  · exact books.handles other

private theorem step_reset (books : Books id storage capacity session ledger) :
    Books id storage capacity (ArenaCall.reset.step id (session, ledger)).1
      (ArenaCall.reset.step id (session, ledger)).2 := by
  have ran : ∃ after, reset id session = .ok () after ∧ Keeps session after id ∧
      after.blocks = session.blocks ∧
      (after.memory.allocator id = .arena ⟨some ⟨storage, 0, capacity⟩, 0⟩ ∨
        after.memory.allocator id = .arena ⟨none, 0⟩) := by
    rcases books.known with ⟨opened, -⟩ | ⟨closed, -⟩
    · obtain ⟨after, ran, kept, known, blocks⟩ := reset_arena opened
      exact ⟨after, ran, kept, blocks, .inl known⟩
    -- A reset does not bring the region of a closed arena back.
    · obtain ⟨after, ran, kept, known, blocks⟩ := reset_arena closed
      exact ⟨after, ran, kept, blocks, .inr known⟩
  obtain ⟨after, ran, kept, blocks, known⟩ := ran
  have done : SessionM.done (reset id) session = .ok Object.none after := by
    simp only [SessionM.done, Running.run_bind, ran, Running.run_pure]
  simp only [ArenaCall.step, ArenaCall.perform, done]
  refine ⟨kept.counts books.counts, ?_, kept.holds _ books.holds, Nat.zero_le _, ?_, ?_,
    List.Pairwise.nil, ?_⟩
  · rw [kept.flags]
    exact books.flagless
  · rcases known with opened | closed
    · exact .inl ⟨opened, fun _ member => absurd member List.not_mem_nil⟩
    · exact .inr ⟨closed, rfl⟩
  · exact fun _ member => absurd member List.not_mem_nil
  · intro handle
    rw [Session.block, blocks]
    exact books.handles handle

private theorem step_close (books : Books id storage capacity session ledger) :
    Books id storage capacity (ArenaCall.close.step id (session, ledger)).1
      (ArenaCall.close.step id (session, ledger)).2 := by
  have ran : ∃ after, close id session = .ok () after ∧ Keeps session after id ∧
      after.memory.allocator id = .arena ⟨none, 0⟩ ∧ after.blocks = session.blocks := by
    rcases books.known with ⟨opened, -⟩ | ⟨closed, -⟩
    · exact close_arena opened
    · exact close_arena closed
  obtain ⟨after, ran, kept, known, blocks⟩ := ran
  have done : SessionM.done (close id) session = .ok Object.none after := by
    simp only [SessionM.done, Running.run_bind, ran, Running.run_pure]
  simp only [ArenaCall.step, ArenaCall.perform, done]
  refine ⟨kept.counts books.counts, ?_, kept.holds _ books.holds, Nat.zero_le _,
    .inr ⟨known, rfl⟩, books.inside, books.disjoint, ?_⟩
  · rw [kept.flags]
    exact books.flagless
  · intro handle
    rw [Session.block, blocks]
    exact books.handles handle

private theorem step_place (books : Books id storage capacity session ledger) (block : Block) :
    Books id storage capacity ((ArenaCall.place block).step id (session, ledger)).1
      ((ArenaCall.place block).step id (session, ledger)).2 := by
  refine books.keeps (keeps_of_same rfl rfl rfl rfl) rfl ?_
  intro handle
  change ∃ placed, (session.blocks.push _).getD handle.index PlacedBlock.empty = _
  rw [block_push]
  split
  · exact ⟨block, rfl⟩
  · exact books.handles handle

private theorem step_write (books : Books id storage capacity session ledger) (window : Window)
    (index value : Int) :
    Books id storage capacity ((ArenaCall.write window index value).step id (session, ledger)).1
      ((ArenaCall.write window index value).step id (session, ledger)).2 := by
  obtain ⟨after, ran, kept, known, blocks⟩ := setThrough_window session id window index value
  have handles : ∀ handle, ∃ block, after.block handle = .ofBlock block := by
    intro handle
    rw [Session.block, blocks]
    exact books.handles handle
  simp only [ArenaCall.step, ArenaCall.perform, SessionM.done, Running.run_bind]
  rcases ran with ran | ⟨fault, ran⟩
  · rw [ran]
    exact books.keeps kept known handles
  · rw [ran]
    exact books.keeps kept known handles

/-- Every call keeps the books. -/
theorem step (books : Books id storage capacity session ledger) (call : ArenaCall) :
    Books id storage capacity (call.step id (session, ledger)).1
      (call.step id (session, ledger)).2 := by
  cases call with
  | allocate size => exact books.step_allocate size
  | free handle => exact books.step_free handle
  | reset => exact books.step_reset
  | close => exact books.step_close
  | place block => exact books.step_place block
  | write window index value => exact books.step_write window index value

/-- The books stay in order through any run of calls, refused and failing ones included. -/
theorem run (books : Books id storage capacity session ledger) (calls : List ArenaCall) :
    Books id storage capacity (ArenaCall.run id calls (session, ledger)).1
      (ArenaCall.run id calls (session, ledger)).2 := by
  induction calls generalizing session ledger with
  | nil => exact books
  | cons call rest ih => exact ih (books.step call)

/-- A new arena has empty books, whatever memory the machine may refuse later on. -/
theorem start {machine : Machine} {capacity : Int} {made : Object} {start : Session}
    (created : newArena (Object.int capacity) (Session.empty machine) = .ok made start) :
    ∃ size : Nat, capacity = size ∧ made = .allocator ⟨0⟩ ∧
      Books ⟨0⟩ ⟨0⟩ size start .empty := by
  obtain ⟨size, same, arena, rfl⟩ := newArena_empty created
  have fits := (Memory.fits_ofArena (Nat.zero_le size) machine) ⟨⟨0⟩, 0, size⟩ 0 rfl
  refine ⟨size, same, arena, ⟨⟨rfl, rfl⟩, rfl, fits.1, Nat.zero_le _, .inl ⟨rfl, ?_⟩, ?_,
    List.Pairwise.nil, fun _ => ⟨Block.empty, rfl⟩⟩⟩
  · exact fun _ member => absurd member List.not_mem_nil
  · exact fun _ member => absurd member List.not_mem_nil

end Books

/-! ## What is promised of an arena -/

/-- A request is refused exactly where the arena is closed, the size is negative or too much would
be in use, and a refusal changes the log alone. What is granted gives a handle of an extent of the
requested size, which shows zeros, and no byte outside it changes. -/
structure RequestLaw (id : AllocatorId) (arena : Arena) (session : Session) (size : Int) :
    Prop where
  refused_iff : (∃ fault after,
      SessionM.allocate id (Object.int size) session = .error fault after) ↔
    arena.region = none ∨ size < 0 ∨ (arena.capacity : Int) < arena.used + size
  refused_eq : ∀ fault after,
    SessionM.allocate id (Object.int size) session = .error fault after →
      after = session.logged ⟨id, false, Object.int size, false⟩
  granted : ∀ object after,
    SessionM.allocate id (Object.int size) session = .ok object after →
      ∃ handle extent, object = .block handle ∧ handle.index = session.blocks.size ∧
        (extent.size : Int) = size ∧ after.block handle = .ofExtent extent (Object.int size) ∧
        SessionM.view (after.block handle) after = .ok (List.replicate extent.size 0) after ∧
        ∀ storage index, ¬extent.Covers storage index →
          (after.memory.storage storage).byte index =
            (session.memory.storage storage).byte index

/-- A block is taken back exactly where it lies in the region of an open arena. Its handle becomes
empty then and stays as it is otherwise; other handles and the workspace stay in any case. -/
structure ReturnLaw (id : AllocatorId) (arena : Arena) (session : Session) (handle : BlockId)
    (block : Block) (taken : Bool) (after : Session) : Prop where
  returned : SessionM.free id (.block handle) session = .ok (Object.bool taken) after
  taken_iff : taken = true ↔
    ∃ region, arena.region = some region ∧ block.storage = some region.storage ∧
      region.start ≤ block.start ∧ block.stop ≤ region.stop
  handle_eq : after.block handle = if taken then PlacedBlock.empty else session.block handle
  others_eq : ∀ other, other ≠ handle → after.block other = session.block other
  workspace_eq : after.workspace = session.workspace

/-- What is promised of an arena made with a capacity, at a session of a run, by its ledger. -/
structure ArenaLaws (id : AllocatorId) (capacity : Int) (arena : Arena) (session : Session)
    (ledger : Ledger) : Prop where
  known : session.memory.allocator id = .arena arena
  shown : session.usedOf id arena = .int arena.used ∧
    session.capacityOf arena = .int arena.capacity
  capacity_eq : (arena.capacity : Int) = if arena.region.isSome then capacity else 0
  used_le : arena.used ≤ arena.capacity
  used_eq : arena.used = ledger.used
  disjoint : ledger.issued.Pairwise Extent.Disjoint
  inside : ∃ storage, ∀ extent ∈ ledger.issued,
    extent.storage = storage ∧ (extent.stop : Int) ≤ capacity
  requests : ∀ size, RequestLaw id arena session size
  returns : ∀ handle, ∃ block taken after, session.block handle = .ofBlock block ∧
    ReturnLaw id arena session handle block taken after

namespace Books

open SessionM

variable {id : AllocatorId} {storage : StorageId} {capacity : Nat} {session : Session}
  {ledger : Ledger}

private theorem requests_open (books : Books id storage capacity session ledger)
    (opened : session.memory.allocator id = .arena ⟨some ⟨storage, 0, capacity⟩, ledger.used⟩)
    (size : Int) : RequestLaw id ⟨some ⟨storage, 0, capacity⟩, ledger.used⟩ session size := by
  by_cases refused : size < 0 ∨ ((capacity : Nat) : Int) < ledger.used + size
  · obtain ⟨fault, ran⟩ := allocate_refused books.counts opened refused
    refine ⟨⟨fun _ => .inr refused, fun _ => ⟨fault, _, ran⟩⟩, ?_, ?_⟩
    · intro other after again
      rw [ran] at again
      cases again
      rfl
    · intro object after supplied
      rw [ran] at supplied
      cases supplied
  · obtain ⟨count, rfl⟩ := Int.eq_ofNat_of_zero_le (show 0 ≤ size by omega)
    have room : ledger.used + count ≤ capacity := by omega
    obtain ⟨after, ran, supply⟩ := books.supply opened room
    refine ⟨⟨?_, ?_⟩, ?_, ?_⟩
    · rintro ⟨fault, other, again⟩
      rw [ran] at again
      cases again
    · rintro (closed | excess)
      · cases closed
      · exact absurd excess refused
    · intro fault other again
      rw [ran] at again
      cases again
    · intro object other again
      rw [ran] at again
      cases again
      have zeros := supply.granted.zeros
      refine ⟨_, _, rfl, rfl, rfl, supply.block, ?_, ?_⟩
      · rw [supply.block]
        exact (view_ofExtent supply.granted.holds).trans (by rw [zeros])
      · intro place index outside
        by_cases same : place = storage
        · subst same
          exact supply.granted.changed.byte_eq place index books.holds.storage_lt outside
        · rw [supply.bytes place same]

private theorem requests_closed (books : Books id storage capacity session ledger)
    (closed : session.memory.allocator id = .arena ⟨none, 0⟩) (size : Int) :
    RequestLaw id ⟨none, 0⟩ session size := by
  have ran := allocate_closed books.counts closed size
  refine ⟨⟨fun _ => .inl rfl, fun _ => ⟨_, _, ran⟩⟩, ?_, ?_⟩
  · intro fault after again
    rw [ran] at again
    cases again
    rfl
  · intro object after supplied
    rw [ran] at supplied
    cases supplied

private theorem takesBack_iff {memory : Memory} {arena : Arena} {block : Block}
    (known : memory.allocator id = .arena arena) :
    memory.takesBack id block = true ↔
      ∃ region, arena.region = some region ∧ block.storage = some region.storage ∧
        region.start ≤ block.start ∧ block.stop ≤ region.stop := by
  obtain ⟨region, used⟩ := arena
  cases region with
  | none => simp [Memory.takesBack, known]
  | some region =>
      have stop : (Block.ofExtent region).stop = region.stop := by
        simp [Block.ofExtent, Block.stop, Extent.stop]
      have answer : memory.takesBack id block = (block.storage == some region.storage &&
          decide ((region.start : Int) ≤ block.start) &&
          decide (block.stop ≤ (Block.ofExtent region).stop)) := by
        simp only [Memory.takesBack, known]
        rfl
      rw [answer, stop]
      simp [and_assoc]

private theorem returns {arena : Arena} (known : session.memory.allocator id = .arena arena)
    {handle : BlockId} {block : Block} (held : session.block handle = .ofBlock block) :
    ∃ taken after, ReturnLaw id arena session handle block taken after := by
  refine ⟨_, _, free_block known held, takesBack_iff known, ?_, ?_, rfl⟩
  · cases taken : session.memory.takesBack id block with
    | false => rfl
    | true =>
        change (session.blocks.setIfInBounds handle.index PlacedBlock.empty).getD handle.index
          PlacedBlock.empty = _
        rw [block_setIfInBounds]
        split
        · rfl
        · rename_i unknown
          rw [Array.getD_eq_getD_getElem?, Array.getElem?_eq_none (by omega)]
          rfl
  · intro other different
    cases session.memory.takesBack id block with
    | false => rfl
    | true =>
        change (session.blocks.setIfInBounds handle.index PlacedBlock.empty).getD other.index
          PlacedBlock.empty = _
        rw [block_setIfInBounds, if_neg]
        · rfl
        · rintro ⟨same, -⟩
          exact different (by cases other; cases handle; exact congrArg BlockId.mk same)

theorem laws (books : Books id storage capacity session ledger) :
    ∃ arena, ArenaLaws id capacity arena session ledger := by
  have inside : ∃ storage, ∀ extent ∈ ledger.issued,
      extent.storage = storage ∧ (extent.stop : Int) ≤ capacity := by
    refine ⟨storage, fun extent member => ?_⟩
    obtain ⟨same, le⟩ := books.inside extent member
    exact ⟨same, by exact_mod_cast le⟩
  have used : ∀ arena, session.usedOf id arena = .int arena.used := by
    intro arena
    rw [Session.usedOf, books.counts.whole]
  have returned : ∀ {arena}, session.memory.allocator id = .arena arena → ∀ handle,
      ∃ block taken after, session.block handle = .ofBlock block ∧
        ReturnLaw id arena session handle block taken after := by
    intro arena known handle
    obtain ⟨block, held⟩ := books.handles handle
    obtain ⟨taken, after, law⟩ := returns known held
    exact ⟨block, taken, after, held, law⟩
  rcases books.known with ⟨opened, -⟩ | ⟨closed, none⟩
  · refine ⟨_, opened, ⟨used _, ?_⟩, rfl, books.within, rfl, books.disjoint, inside,
      books.requests_open opened, returned opened⟩
    simp only [Session.capacityOf, books.flagless, Arena.capacity]
  · exact ⟨_, closed, ⟨used _, rfl⟩, rfl, Nat.le_refl 0, none.symm, books.disjoint, inside,
      books.requests_closed closed, returned closed⟩

end Books

/-- Whatever is called on a new arena, in whatever order, all that is promised of an arena holds
afterwards. -/
theorem arenaLaws_of_run {machine : Machine} {capacity : Int} {id : AllocatorId} {start : Session}
    (made : SessionM.newArena (Object.int capacity) (Session.empty machine) =
      .ok (.allocator id) start)
    (calls : List ArenaCall) :
    ∃ arena, ArenaLaws id capacity arena (ArenaCall.run id calls (start, .empty)).1
      (ArenaCall.run id calls (start, .empty)).2 := by
  obtain ⟨size, rfl, same, books⟩ := Books.start made
  cases same
  exact (books.run calls).laws

/-- An arena of eight bytes: a block is written to and given back, a request is refused, the whole
space is handed out again after a reset, and the arena is closed. -/
theorem arenaLaws_of_run_eight :
    ∃ start, SessionM.newArena (Object.int 8) Session.empty = .ok (.allocator ⟨0⟩) start ∧
      ∃ arena, ArenaLaws ⟨0⟩ 8 arena
        (ArenaCall.run ⟨0⟩ [.allocate 3, .write ⟨⟨0⟩, 0, 3, false, false⟩ 1 7, .free ⟨0⟩,
          .allocate 6, .reset, .allocate 8, .close] (start, .empty)).1
        (ArenaCall.run ⟨0⟩ [.allocate 3, .write ⟨⟨0⟩, 0, 3, false, false⟩ 1 7, .free ⟨0⟩,
          .allocate 6, .reset, .allocate 8, .close] (start, .empty)).2 :=
  ⟨_, rfl, @arenaLaws_of_run .unlimited 8 ⟨0⟩ _ rfl _⟩

end LexKit
