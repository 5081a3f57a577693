import LexKit.Proofs.Workspace.Steps

/-!
# Buffers refine slots

Every answer of a workspace is the one that slots give, for every run of commands to any number of
buffers that share heaps and arenas, as long as memory lasts. A step keeps the relation between the
two, and a run keeps it by induction. The only layouts left out are those whose counted bytes have
no room for their count and lie at the end of the element: there the count is written over what is
next to the element.
-/

set_option autoImplicit false

namespace LexKit.Workspace

variable {memory : Memory} {buffers : Array Buffer} {model : SlotMemory}

/-! ## All commands -/

/-- Each command does to the workspace what it does to the slots. -/
theorem stepped {command : BufferCommand} {answer : Answer} {later : SlotMemory}
    (shows : Shows ⟨memory, buffers⟩ model) (contained : command.isContained = true)
    (expected : model.step? command = some (answer, later))
    (lasting : ((Workspace.mk memory buffers).perform command).1.isShortage = false) :
    Stepped ⟨memory, buffers⟩ command answer later := by
  cases command with
  | newHeap =>
      cases expected
      exact stepped_newHeap shows
  | newArena capacity =>
      cases expected
      exact stepped_newArena shows lasting
  | newBuffer allocator pattern inlineCapacity =>
      obtain ⟨layout, read, rest⟩ := Option.bind_eq_some_iff.mp expected
      obtain ⟨⟨offset, type⟩, single, made⟩ := Option.bind_eq_some_iff.mp rest
      split at made
      · cases made
      · rename_i sized
        cases made
        rw [BufferCommand.isContained, read, Option.all_some] at contained
        have contains := Layout.contains_of_isContained read single sized contained
        exact stepped_newBuffer shows read ⟨offset, type, contains⟩ lasting
  | newText allocator inlineCapacity =>
      cases expected
      exact stepped_newText shows lasting
  | push id value =>
      obtain ⟨slots, known, rest⟩ := Option.bind_eq_some_iff.mp expected
      obtain ⟨new, pushed, same⟩ := Option.bind_eq_some_iff.mp rest
      cases same
      exact stepped_push shows known pushed rfl lasting
  | extend id values =>
      obtain ⟨slots, known, rest⟩ := Option.bind_eq_some_iff.mp expected
      obtain ⟨new, extended, same⟩ := Option.bind_eq_some_iff.mp rest
      cases same
      exact stepped_extend shows known extended lasting
  | extendBy id source =>
      obtain ⟨slots, known, rest⟩ := Option.bind_eq_some_iff.mp expected
      obtain ⟨shown, knownSource, rest⟩ := Option.bind_eq_some_iff.mp rest
      cases listed : shown.list with
      | ok values =>
          rw [listed] at rest
          obtain ⟨rfl, readable⟩ := list_eq_ok listed
          obtain ⟨new, extended, same⟩ := Option.bind_eq_some_iff.mp rest
          cases same
          exact stepped_extendBy shows known knownSource readable extended lasting
      | error fault =>
          rw [listed] at rest
          obtain ⟨rfl, some_, unreadable⟩ := list_eq_error listed
          cases rest
          exact stepped_unreadable id shows knownSource some_ unreadable
  | append id piece =>
      obtain ⟨slots, text, rest⟩ := Option.bind_eq_some_iff.mp expected
      obtain ⟨values, listed, rest⟩ := Option.bind_eq_some_iff.mp rest
      obtain ⟨new, extended, same⟩ := Option.bind_eq_some_iff.mp rest
      cases same
      exact stepped_append shows text listed extended lasting
  | get id index =>
      obtain ⟨slots, known, same⟩ := Option.bind_eq_some_iff.mp expected
      cases same
      exact stepped_of_answer shows rfl (observe_answer
        (Buffer.get_eq (shows.sound.ready id) (shows.buffer id slots known) index))
  | set id index value =>
      obtain ⟨slots, known, rest⟩ := Option.bind_eq_some_iff.mp expected
      cases named : slots.place index with
      | ok place =>
          rw [named] at rest
          obtain ⟨kept, taken, same⟩ := Option.bind_eq_some_iff.mp rest
          cases same
          exact stepped_set shows known named taken
      | error fault =>
          rw [named] at rest
          cases rest
          exact stepped_set_outside shows known named
  | pop id =>
      obtain ⟨slots, known, rest⟩ := Option.bind_eq_some_iff.mp expected
      cases last : slots.last with
      | ok value =>
          rw [last] at rest
          cases rest
          exact stepped_pop shows known last
      | error fault =>
          rw [last] at rest
          cases rest
          exact stepped_pop_fault shows known last
  | clear id =>
      obtain ⟨slots, known, same⟩ := Option.bind_eq_some_iff.mp expected
      cases same
      exact stepped_clear shows known
  | reserve id capacity =>
      obtain ⟨slots, known, same⟩ := Option.bind_eq_some_iff.mp expected
      cases same
      exact stepped_reserve shows known lasting
  | resize id count =>
      obtain ⟨slots, known, rest⟩ := Option.bind_eq_some_iff.mp expected
      by_cases negative : count < 0
      · rw [if_pos negative] at rest
        cases rest
        exact stepped_resize_negative id shows negative
      · rw [if_neg negative] at rest
        cases rest
        exact stepped_resize shows known negative lasting
  | copy id =>
      obtain ⟨slots, known, same⟩ := Option.bind_eq_some_iff.mp expected
      cases same
      exact stepped_copy shows known lasting
  | take id =>
      obtain ⟨slots, known, same⟩ := Option.bind_eq_some_iff.mp expected
      cases same
      exact stepped_take shows known lasting
  | release id =>
      obtain ⟨slots, known, same⟩ := Option.bind_eq_some_iff.mp expected
      cases same
      exact stepped_release shows known
  | length id =>
      obtain ⟨slots, known, same⟩ := Option.bind_eq_some_iff.mp expected
      cases same
      refine stepped_unchanged shows ?_
      rw [← (shows.buffer id slots known).count_eq]
      rfl
  | toList id =>
      obtain ⟨slots, known, same⟩ := Option.bind_eq_some_iff.mp expected
      cases same
      exact stepped_of_answer shows rfl (observe_answer
        (Buffer.toList_eq (shows.sound.ready id) (shows.buffer id slots known)))
  | toBytes id =>
      obtain ⟨slots, text, same⟩ := Option.bind_eq_some_iff.mp expected
      cases same
      obtain ⟨known, role⟩ := text?_eq_some text
      have showsText := shows.buffer id slots known
      refine stepped_unchanged shows ?_
      rw [← Buffer.content_eq_bytes (shows.sound.ready id) showsText (showsText.regular.text role)]
      rfl

/-! ## Runs -/

def Bounded (workspace : Workspace) : Prop :=
  ∀ id, id.index < workspace.buffers.size → ∃ capacity,
    (workspace.buffer id).capacity = .ok capacity ∧ (workspace.buffer id).count ≤ capacity

/-- No buffer has a smaller capacity after the command, unless it was moved out or released. -/
def Growing (command : BufferCommand) (before after : Workspace) : Prop :=
  ∀ id, id.index < before.buffers.size → command ≠ .take id → command ≠ .release id →
    ∃ capacity later, (before.buffer id).capacity = .ok capacity ∧
      (after.buffer id).capacity = .ok later ∧ capacity ≤ later

theorem shows_empty (machine : Machine) : (Workspace.empty machine).Shows .empty := by
  refine ⟨sound_empty machine, rfl, ?_⟩
  intro id slots known
  cases known

private theorem Shows.slots {workspace : Workspace} (shows : workspace.Shows model) {id : BufferId}
    (inside : id.index < workspace.buffers.size) :
    ∃ slots, (workspace.buffer id).Shows workspace.memory slots := by
  rw [shows.size_eq] at inside
  exact ⟨_, shows.buffer id _ (Array.getElem?_eq_getElem inside)⟩

private theorem Shows.bounded {workspace : Workspace} (shows : workspace.Shows model) :
    workspace.Bounded := by
  intro id inside
  obtain ⟨slots, showsBuffer⟩ := shows.slots inside
  obtain ⟨offset, type, contains⟩ := showsBuffer.contains
  exact ⟨_, Buffer.capacity_eq contains.positive,
    (Nat.le_div_iff_mul_le contains.positive).mpr showsBuffer.room⟩

private theorem Stepped.growing {workspace : Workspace} {command : BufferCommand} {answer : Answer}
    {later : SlotMemory} (shows : workspace.Shows model)
    (stepped : Stepped workspace command answer later) :
    Growing command workspace (workspace.perform command).2 := by
  intro id inside notTaken notReleased
  obtain ⟨slots, showsBuffer⟩ := shows.slots inside
  obtain ⟨offset, type, contains⟩ := showsBuffer.contains
  have roomy := stepped.roomy id inside notTaken notReleased
  have positive := contains.positive
  rw [← roomy.layout_eq] at positive
  refine ⟨_, _, Buffer.capacity_eq contains.positive, Buffer.capacity_eq positive, ?_⟩
  rw [roomy.layout_eq]
  exact Nat.div_le_div_right roomy.blockSize_le

private theorem perform_cons (command : BufferCommand) (rest : List BufferCommand)
    (workspace : Workspace) :
    performAll (command :: rest) workspace =
      ((workspace.perform command).1 :: (performAll rest (workspace.perform command).2).1,
        (performAll rest (workspace.perform command).2).2) :=
  rfl

private theorem run_refines {commands : List BufferCommand} {answers : List Answer}
    {last : SlotMemory} {workspace : Workspace} (shows : workspace.Shows model)
    (contained : ∀ command ∈ commands, command.isContained = true)
    (expected : SlotMemory.run? commands model = some (answers, last))
    (lasting : ∀ answer ∈ (performAll commands workspace).1, answer.isShortage = false) :
    (performAll commands workspace).1 = answers ∧
      ∀ done command rest, commands = done ++ command :: rest →
        Bounded ((performAll done workspace).2.perform command).2 ∧
        Growing command (performAll done workspace).2
          ((performAll done workspace).2.perform command).2 := by
  induction commands generalizing workspace model answers with
  | nil =>
      cases expected
      refine ⟨rfl, ?_⟩
      intro done command rest split
      cases done <;> cases split
  | cons first others ih =>
      obtain ⟨⟨answer, between⟩, step, rest⟩ := Option.bind_eq_some_iff.mp expected
      obtain ⟨⟨behind, final⟩, run, same⟩ := Option.bind_eq_some_iff.mp rest
      cases same
      rw [perform_cons] at lasting ⊢
      have once : Stepped workspace first answer between :=
        stepped shows (contained first List.mem_cons_self) step (lasting _ List.mem_cons_self)
      obtain ⟨equal, throughout⟩ := ih once.shows
        (fun command later => contained command (List.mem_cons_of_mem _ later)) run
        (fun given later => lasting given (List.mem_cons_of_mem _ later))
      refine ⟨by rw [once.answer_eq, equal], ?_⟩
      intro done command remaining split
      cases done with
      | nil =>
          cases split
          exact ⟨once.shows.bounded, once.growing shows⟩
      | cons next done =>
          cases split
          exact throughout done command remaining rfl

/-- The answers of a workspace are those of the slots: results, faults, lengths and contents, for
every run that does not run out of memory. Counts stay within capacities, and capacities do not
shrink. -/
theorem refines_slots {machine : Machine} {commands : List BufferCommand} {answers : List Answer}
    {last : SlotMemory}
    (contained : ∀ command ∈ commands, command.isContained = true)
    (expected : SlotMemory.run? commands .empty = some (answers, last))
    (lasting : ∀ answer ∈ (performAll commands (.empty machine)).1, answer.isShortage = false) :
    (performAll commands (.empty machine)).1 = answers ∧
      ∀ done command rest, commands = done ++ command :: rest →
        Bounded ((performAll done (.empty machine)).2.perform command).2 ∧
        Growing command (performAll done (.empty machine)).2
          ((performAll done (.empty machine)).2.perform command).2 :=
  run_refines (shows_empty machine) contained expected lasting

/-- Elements that come back by a resize, a copy without them, and a text appended to itself. -/
def mixedRun : List BufferCommand :=
  [.newHeap, .newArena 64, .newBuffer ⟨0⟩ ">h" 2, .extend ⟨0⟩ [.int 1, .int (-2), .int 3],
    .pop ⟨0⟩, .copy ⟨0⟩, .resize ⟨0⟩ 4, .resize ⟨1⟩ 3, .extendBy ⟨0⟩ ⟨0⟩, .take ⟨0⟩, .get ⟨0⟩ 0,
    .toList ⟨1⟩, .toList ⟨2⟩, .newText ⟨1⟩ 1, .append ⟨3⟩ (.string "ab"), .append ⟨3⟩ (.text ⟨3⟩),
    .append ⟨3⟩ (.number 33), .toBytes ⟨3⟩, .release ⟨3⟩, .length ⟨3⟩]

theorem refines_slots_mixed :
    (performAll mixedRun .empty).1 =
      [.nothing, .nothing, .buffer ⟨0⟩, .nothing, .value (.int 3), .buffer ⟨1⟩, .nothing, .nothing,
        .nothing, .buffer ⟨2⟩, .fault (.indexOutOfRange (.int 0) 0),
        .values [.int 1, .int (-2), .int 0],
        .values [.int 1, .int (-2), .int 3, .int 0, .int 1, .int (-2), .int 3, .int 0],
        .buffer ⟨3⟩, .nothing, .nothing, .nothing, .bytes [97, 98, 97, 98, 33], .nothing,
        .count 0] := by
  have evaluated : (SlotMemory.run? mixedRun .empty).map Prod.fst =
      some [.nothing, .nothing, .buffer ⟨0⟩, .nothing, .value (.int 3), .buffer ⟨1⟩, .nothing,
        .nothing, .nothing, .buffer ⟨2⟩, .fault (.indexOutOfRange (.int 0) 0),
        .values [.int 1, .int (-2), .int 0],
        .values [.int 1, .int (-2), .int 3, .int 0, .int 1, .int (-2), .int 3, .int 0],
        .buffer ⟨3⟩, .nothing, .nothing, .nothing, .bytes [97, 98, 97, 98, 33], .nothing,
        .count 0] := by decide +kernel
  obtain ⟨⟨answers, last⟩, expected, rfl⟩ := Option.map_eq_some_iff.mp evaluated
  exact (refines_slots (by decide +kernel) expected (by decide +kernel)).1

/-- Where the count of counted bytes lies behind its element, a push writes it over an element of
another buffer. -/
def overlappingRun : List BufferCommand :=
  [.newArena 2, .newBuffer ⟨0⟩ "x0p" 0, .newBuffer ⟨0⟩ "B" 0, .reserve ⟨0⟩ 1, .reserve ⟨1⟩ 1,
    .push ⟨1⟩ (.int 7), .push ⟨0⟩ (.bytes []), .get ⟨1⟩ 0]

theorem not_refines_slots_uncontained :
    (SlotMemory.run? overlappingRun .empty).map Prod.fst =
      some [.nothing, .buffer ⟨0⟩, .buffer ⟨1⟩, .nothing, .nothing, .nothing, .nothing,
        .value (.int 7)] ∧
    (performAll overlappingRun .empty).1 =
      [.nothing, .buffer ⟨0⟩, .buffer ⟨1⟩, .nothing, .nothing, .nothing, .nothing,
        .value (.int 255)] ∧
    (∀ answer ∈ (performAll overlappingRun .empty).1, answer.isShortage = false) := by
  decide +kernel

end LexKit.Workspace
