import LexKit.Source.Report
import Mathlib.Data.List.TakeWhile

/-!
# The lines of a source

A position counts line feeds. A report takes its line from a list in which a carriage return ends a
line too, with a line feed behind it or without one. The two agree on a line if neither the line nor
what is in front of it has a carriage return that stands alone.
-/

set_option autoImplicit false

namespace LexKit

namespace Position

def lineHead (before : Bytes) : Bytes :=
  (before.reverse.dropWhile (· != Byte.lineFeed)).reverse

theorem lineHead_append_lineTail (before : Bytes) : lineHead before ++ lineTail before = before := by
  rw [lineHead, lineTail, ← List.reverse_append, List.takeWhile_append_dropWhile,
    List.reverse_reverse]

theorem not_mem_lineTail (before : Bytes) : Byte.lineFeed ∉ lineTail before := by
  intro member
  have kept := List.mem_takeWhile_imp (List.mem_reverse.mp member)
  simp at kept

theorem dropWhile_cases (bytes : Bytes) :
    bytes.dropWhile (· != Byte.lineFeed) = [] ∨
      ∃ rest, bytes.dropWhile (· != Byte.lineFeed) = Byte.lineFeed :: rest := by
  have stopped := List.head?_dropWhile_not (· != Byte.lineFeed) bytes
  cases shape : bytes.dropWhile (· != Byte.lineFeed) with
  | nil => exact .inl rfl
  | cons byte rest =>
      rw [shape] at stopped
      obtain rfl : byte = Byte.lineFeed := by simpa using stopped
      exact .inr ⟨rest, rfl⟩

/-- The lines in front of the current one are none, or end with a line feed. -/
theorem lineHead_cases (before : Bytes) :
    lineHead before = [] ∨ ∃ front, lineHead before = front ++ [Byte.lineFeed] := by
  unfold lineHead
  rcases dropWhile_cases before.reverse with nothing | ⟨rest, fed⟩
  · exact .inl (by rw [nothing, List.reverse_nil])
  · exact .inr ⟨rest.reverse, by rw [fed, List.reverse_cons]⟩

theorem count_lineHead (before : Bytes) :
    (lineHead before).count Byte.lineFeed = before.count Byte.lineFeed := by
  have parts := congrArg (List.count Byte.lineFeed) (lineHead_append_lineTail before)
  rwa [List.count_append, List.count_eq_zero.mpr (not_mem_lineTail before), Nat.add_zero] at parts

end Position

namespace Source

open Position (lineHead lineTail)

/-- The carriage returns that stand in front of another byte than a line feed. -/
def loneReturns : Bytes → Nat
  | 0x0D :: byte :: rest =>
      (if byte = Byte.lineFeed then 0 else 1) + loneReturns (byte :: rest)
  | _ :: rest => loneReturns rest
  | [] => 0

def aheadOf (source : Bytes) (offset : Nat) : Bytes :=
  lineHead (source.take offset)

/-- The bytes from behind the last line feed in front of the offset, or from the start, up to the
next line feed, or to the end. -/
def wholeLine (source : Bytes) (offset : Nat) : Bytes :=
  lineTail (source.take offset) ++ (source.drop offset).takeWhile (· != Byte.lineFeed)

/-- The same line without a carriage return at its end. -/
def lineOf (source : Bytes) (offset : Nat) : Bytes :=
  if (wholeLine source offset).getLast? = some Byte.carriageReturn then
    (wholeLine source offset).dropLast
  else
    wholeLine source offset

/-! ## One step of the division into lines -/

variable (current : Bytes)

theorem linesFrom_lineFeed (rest : Bytes) :
    linesFrom current (Byte.lineFeed :: rest) = current.reverse :: linesFrom [] rest := by
  rw [Byte.lineFeed, linesFrom]
  · rfl
  · intro _ same
    cases same

theorem linesFrom_both (rest : Bytes) :
    linesFrom current (Byte.carriageReturn :: Byte.lineFeed :: rest) =
      current.reverse :: linesFrom [] rest := by
  rw [Byte.carriageReturn, Byte.lineFeed, linesFrom]

theorem linesFrom_carriageReturn {rest : Bytes} (alone : rest.head? ≠ some Byte.lineFeed) :
    linesFrom current (Byte.carriageReturn :: rest) = current.reverse :: linesFrom [] rest := by
  rw [linesFrom]
  · rfl
  · rintro after - rfl
    exact alone rfl

theorem linesFrom_inside {byte : UInt8} (rest : Bytes) (notReturn : byte ≠ Byte.carriageReturn)
    (notFeed : byte ≠ Byte.lineFeed) :
    linesFrom current (byte :: rest) = linesFrom (byte :: current) rest := by
  rw [linesFrom]
  · simp [notReturn, notFeed]
  · rintro after rfl
    exact absurd rfl notReturn

theorem loneReturns_both (rest : Bytes) :
    loneReturns (Byte.carriageReturn :: Byte.lineFeed :: rest) = loneReturns rest := by
  rw [Byte.carriageReturn, loneReturns, if_pos rfl, Nat.zero_add, loneReturns]
  intro other after same
  cases same

theorem loneReturns_alone {byte : UInt8} {rest : Bytes} (alone : byte ≠ Byte.lineFeed) :
    loneReturns (Byte.carriageReturn :: byte :: rest) = 1 + loneReturns (byte :: rest) := by
  rw [Byte.carriageReturn, loneReturns, if_neg alone]

theorem loneReturns_inside {byte : UInt8} (rest : Bytes) (notReturn : byte ≠ Byte.carriageReturn) :
    loneReturns (byte :: rest) = loneReturns rest := by
  rw [loneReturns]
  rintro other after rfl
  exact absurd rfl notReturn

/-- Bytes one line end or one other byte at a time. -/
@[elab_as_elim]
theorem induction_lines {motive : Bytes → Prop} (nil : motive [])
    (both : ∀ rest, motive rest → motive (Byte.carriageReturn :: Byte.lineFeed :: rest))
    (feed : ∀ rest, motive rest → motive (Byte.lineFeed :: rest))
    (alone : ∀ rest, rest.head? ≠ some Byte.lineFeed → motive rest →
      motive (Byte.carriageReturn :: rest))
    (inside : ∀ byte rest, byte ≠ Byte.carriageReturn → byte ≠ Byte.lineFeed → motive rest →
      motive (byte :: rest)) : ∀ bytes, motive bytes
  | [] => nil
  | byte :: rest => by
      have behind := induction_lines nil both feed alone inside rest
      by_cases isFeed : byte = Byte.lineFeed
      · exact isFeed ▸ feed rest behind
      by_cases isReturn : byte = Byte.carriageReturn
      · subst isReturn
        match rest with
        | [] => exact alone [] (by simp) behind
        | second :: after =>
            by_cases paired : second = Byte.lineFeed
            · exact paired ▸ both after (induction_lines nil both feed alone inside after)
            · exact alone (second :: after) (by simpa using paired) behind
      · exact inside byte rest isReturn isFeed behind

/-! ## Sources in front of a line feed -/

/-- A line feed always ends a line, so what is behind it is divided by itself. -/
theorem linesFrom_append (front rest : Bytes) :
    linesFrom current (front ++ Byte.lineFeed :: rest) =
      linesFrom current (front ++ [Byte.lineFeed]) ++ lines rest := by
  induction front using induction_lines generalizing current with
  | nil => simp [linesFrom_lineFeed, linesFrom, lines]
  | both front ih => simp [linesFrom_both, ih]
  | feed front ih => simp [linesFrom_lineFeed, ih]
  | alone front alone ih =>
      cases front with
      | nil => simp [linesFrom_both, linesFrom, lines]
      | cons byte front =>
          have unpaired (tail : Bytes) : (byte :: front ++ tail).head? ≠ some Byte.lineFeed := alone
          simp only [List.cons_append] at ih unpaired ⊢
          rw [linesFrom_carriageReturn current (unpaired _),
            linesFrom_carriageReturn current (unpaired _), ih, List.cons_append]
  | inside byte front notReturn notFeed ih => simp [linesFrom_inside, notReturn, notFeed, ih]

private theorem count_carriageReturn (rest : Bytes) :
    (Byte.carriageReturn :: rest).count Byte.lineFeed = rest.count Byte.lineFeed :=
  List.count_cons_of_ne (by decide)

/-- The lines up to a line feed are as many as the line feeds and the carriage returns that stand
alone. -/
theorem length_linesFrom (front : Bytes) :
    (linesFrom current (front ++ [Byte.lineFeed])).length =
      (front ++ [Byte.lineFeed]).count Byte.lineFeed +
        loneReturns (front ++ [Byte.lineFeed]) := by
  induction front using induction_lines generalizing current with
  | nil => rfl
  | both front ih =>
      have later := ih []
      simp only [List.cons_append, linesFrom_both, List.length_cons, loneReturns_both] at later ⊢
      rw [later, count_carriageReturn, List.count_cons_self]
      omega
  | feed front ih =>
      have later := ih []
      simp only [List.cons_append, linesFrom_lineFeed, List.length_cons] at later ⊢
      rw [later, List.count_cons_self, loneReturns_inside _ (by decide)]
      omega
  | alone front alone ih =>
      cases front with
      | nil => rfl
      | cons byte front =>
          have later := ih []
          have unpaired : byte ≠ Byte.lineFeed := by simpa using alone
          simp only [List.cons_append] at later ⊢
          rw [linesFrom_carriageReturn current (by simpa using unpaired), List.length_cons, later,
            loneReturns_alone unpaired, count_carriageReturn]
          omega
  | inside byte front notReturn notFeed ih =>
      rw [List.cons_append, linesFrom_inside current _ notReturn notFeed, ih,
        List.count_cons_of_ne notFeed, loneReturns_inside _ notReturn]

private theorem infix_of_mem_cons {line first rest : Bytes} (ending : Bytes)
    (behind : line ∈ linesFrom [] rest → line <:+: rest)
    (member : line ∈ first :: linesFrom [] rest) : line <:+: first ++ (ending ++ rest) := by
  rcases List.mem_cons.mp member with rfl | later
  · exact List.infix_append' [] _ _
  · exact (behind later).trans ⟨first ++ ending, [], by simp⟩

/-- Each line is a piece of the source. -/
theorem infix_of_mem_linesFrom {line bytes : Bytes} (member : line ∈ linesFrom current bytes) :
    line <:+: current.reverse ++ bytes := by
  induction bytes using induction_lines generalizing current with
  | nil =>
      unfold linesFrom at member
      split at member
      · cases member
      · obtain rfl := List.mem_singleton.mp member
        exact List.infix_append' [] _ _
  | both rest ih =>
      rw [linesFrom_both] at member
      exact infix_of_mem_cons [Byte.carriageReturn, Byte.lineFeed] (ih []) member
  | feed rest ih =>
      rw [linesFrom_lineFeed] at member
      exact infix_of_mem_cons [Byte.lineFeed] (ih []) member
  | alone rest alone ih =>
      rw [linesFrom_carriageReturn current alone] at member
      exact infix_of_mem_cons [Byte.carriageReturn] (ih []) member
  | inside byte rest notReturn notFeed ih =>
      rw [linesFrom_inside current rest notReturn notFeed] at member
      simpa using ih (byte :: current) member

/-- The first line ends at the first line feed or carriage return. -/
theorem head?_linesFrom {line rest : Bytes} (unfed : Byte.lineFeed ∉ line)
    (nonempty : current ≠ [] ∨ line ≠ [])
    (ends : rest = [] ∨ ∃ after, rest = Byte.lineFeed :: after) :
    (linesFrom current (line ++ rest)).head? =
      some (current.reverse ++ line.takeWhile (· != Byte.carriageReturn)) := by
  induction line generalizing current with
  | nil =>
      rcases ends with rfl | ⟨after, rfl⟩
      · have filled : current ≠ [] := by simpa using nonempty
        simp [linesFrom, filled]
      · simp [linesFrom_lineFeed]
  | cons byte line ih =>
      obtain ⟨notFeed, unfedLater⟩ : byte ≠ Byte.lineFeed ∧ Byte.lineFeed ∉ line := by
        simpa [eq_comm] using unfed
      by_cases isReturn : byte = Byte.carriageReturn
      · subst isReturn
        -- Whatever stands behind the carriage return, it ends the line.
        have ended : (linesFrom current (Byte.carriageReturn :: (line ++ rest))).head? =
            some current.reverse := by
          by_cases paired : (line ++ rest).head? = some Byte.lineFeed
          · obtain ⟨after, shape⟩ := List.head?_eq_some_iff.mp paired
            rw [shape, linesFrom_both, List.head?_cons]
          · rw [linesFrom_carriageReturn current paired, List.head?_cons]
        simpa using ended
      · rw [List.cons_append, linesFrom_inside current _ isReturn notFeed,
          ih (byte :: current) unfedLater (.inl (List.cons_ne_nil _ _))]
        simp [isReturn]

/-! ## The line of an offset -/

variable {source : Bytes} {offset : Nat}

/-- The lines in front of an offset's line, and how many they are. -/
private theorem lines_eq (source : Bytes) (offset : Nat) :
    lines source = lines (aheadOf source offset) ++ lines (wholeLine source offset ++
        (source.drop offset).dropWhile (· != Byte.lineFeed)) ∧
      (lines (aheadOf source offset)).length =
        (aheadOf source offset).count Byte.lineFeed + loneReturns (aheadOf source offset) := by
  have split : source = aheadOf source offset ++ (wholeLine source offset ++
      (source.drop offset).dropWhile (· != Byte.lineFeed)) := by
    rw [wholeLine, List.append_assoc, List.takeWhile_append_dropWhile, ← List.append_assoc, aheadOf,
      Position.lineHead_append_lineTail, List.take_append_drop]
  have divided := congrArg lines split
  rcases Position.lineHead_cases (source.take offset) with nothing | ⟨front, ends⟩
  · rw [← aheadOf] at nothing
    rw [nothing] at divided ⊢
    exact ⟨divided, rfl⟩
  · rw [← aheadOf] at ends
    rw [ends] at divided ⊢
    refine ⟨?_, length_linesFrom [] front⟩
    rw [divided, List.append_assoc]
    exact linesFrom_append [] front _

theorem not_mem_wholeLine (source : Bytes) (offset : Nat) :
    Byte.lineFeed ∉ wholeLine source offset := by
  intro member
  rcases List.mem_append.mp member with front | back
  · exact Position.not_mem_lineTail _ front
  · have kept := List.mem_takeWhile_imp back
    simp at kept

/-- The line goes on at its offset with the byte there, which is none of its end. -/
theorem exists_lineOf_eq {byte : UInt8} (found : source[offset]? = some byte)
    (solid : Byte.isWhitespace byte = false) :
    wholeLine source offset ≠ [] ∧
      ∃ back, lineOf source offset = lineTail (source.take offset) ++ byte :: back := by
  have differs {other : UInt8} (blank : Byte.isWhitespace other = true) : byte ≠ other := by
    rintro rfl
    exact Bool.false_ne_true (solid.symm.trans blank)
  rw [← List.head?_drop] at found
  obtain ⟨rest, reads⟩ := List.head?_eq_some_iff.mp found
  have whole : wholeLine source offset =
      lineTail (source.take offset) ++ byte :: rest.takeWhile (· != Byte.lineFeed) := by
    rw [wholeLine, reads, List.takeWhile_cons_of_pos]
    exact bne_iff_ne.mpr (differs rfl)
  refine ⟨by simp [whole], ?_⟩
  rw [lineOf, whole]
  split
  · rename_i ended
    rcases List.eq_nil_or_concat (rest.takeWhile (· != Byte.lineFeed)) with
      nothing | ⟨back, last, kept⟩
    · rw [nothing, List.getLast?_concat] at ended
      exact absurd (Option.some.inj ended) (differs rfl)
    · refine ⟨back, ?_⟩
      rw [kept, List.concat_eq_append, ← List.cons_append, ← List.append_assoc, List.dropLast_concat]
  · exact ⟨_, rfl⟩

/-- Where no carriage return stands alone in front of a line, the list has the line in the place
that its line feeds give, up to its first carriage return. -/
theorem getElem?_lines_of_paired (nonempty : wholeLine source offset ≠ [])
    (paired : loneReturns (aheadOf source offset) = 0) :
    (lines source)[(aheadOf source offset).count Byte.lineFeed]? =
      some ((wholeLine source offset).takeWhile (· != Byte.carriageReturn)) := by
  obtain ⟨divided, length⟩ := lines_eq source offset
  rw [paired, Nat.add_zero] at length
  rw [divided, ← length, List.getElem?_append_right (Nat.le_refl _), Nat.sub_self,
    ← List.head?_eq_getElem?]
  exact head?_linesFrom [] (not_mem_wholeLine source offset) (.inr nonempty)
    (Position.dropWhile_cases _)

/-- Where some do, the list has a piece of what is in front of the line there. -/
theorem getElem?_lines_of_alone (alone : 0 < loneReturns (aheadOf source offset)) :
    ∃ line, (lines source)[(aheadOf source offset).count Byte.lineFeed]? = some line ∧
      line <:+: aheadOf source offset := by
  obtain ⟨divided, length⟩ := lines_eq source offset
  have early : (aheadOf source offset).count Byte.lineFeed <
      (lines (aheadOf source offset)).length := by omega
  refine ⟨_, ?_, infix_of_mem_linesFrom [] (List.getElem_mem early)⟩
  rw [divided, List.getElem?_append_left early, List.getElem?_eq_getElem early]

/-- A carriage return that ends the line is the only one there, unless one stands alone. -/
theorem takeWhile_eq_lineOf (paired : loneReturns (wholeLine source offset) = 0) :
    (wholeLine source offset).takeWhile (· != Byte.carriageReturn) = lineOf source offset := by
  have unfed := not_mem_wholeLine source offset
  unfold lineOf
  generalize wholeLine source offset = line at paired unfed
  induction line with
  | nil => rfl
  | cons byte rest ih =>
      obtain ⟨-, unfedLater⟩ : byte ≠ Byte.lineFeed ∧ Byte.lineFeed ∉ rest := by
        simpa [eq_comm] using unfed
      by_cases isReturn : byte = Byte.carriageReturn
      · subst isReturn
        cases rest with
        | nil => rfl
        | cons second rest =>
            have unpaired : second ≠ Byte.lineFeed := fun same => unfedLater (by simp [same])
            rw [loneReturns_alone unpaired] at paired
            omega
      · rw [loneReturns_inside rest isReturn] at paired
        have later := ih paired unfedLater
        rw [List.takeWhile_cons_of_pos (by simpa using isReturn), later]
        cases rest with
        | nil => simp [isReturn]
        | cons second rest =>
            rw [List.getLast?_cons_cons, List.dropLast_cons_cons]
            split <;> rfl

end Source

end LexKit
