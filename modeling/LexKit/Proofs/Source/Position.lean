import LexKit.Proofs.Source.Line
import Mathlib.Data.Prod.Lex
import Mathlib.Data.Set.Function
import Mathlib.Order.Interval.Set.Defs

/-!
# Lines and columns

The line of an offset counts the line feeds in front of it, and the column counts the bytes from
behind the last of them. So a line and a column lead back to the offset, and they come in the order
of the offsets.
-/

set_option autoImplicit false

namespace LexKit.Position

def lineStart : Bytes → Nat → Nat
  | byte :: rest, line + 2 =>
      lineStart rest (if byte = Byte.lineFeed then line + 1 else line + 2) + 1
  | _, _ => 0

/-- A line begins at the start of the source and behind each line feed. -/
def BeginsLine (source : Bytes) (start : Nat) : Prop :=
  start = 0 ∨ ∃ last, start = last + 1 ∧ source[last]? = some Byte.lineFeed

/-- The position is that of an offset: the line goes on from its beginning to the offset, and the
column counts the bytes between them, beginning with 1. -/
structure Locates (position : Position) (source : Bytes) (offset : Nat) : Prop where
  offset_eq : position.offset = offset
  line_eq : position.line = (source.take offset).count Byte.lineFeed + 1
  column_pos : 0 < position.column
  start_add_column : lineStart source position.line + position.column = offset + 1
  begins : BeginsLine source (lineStart source position.line)
  unfed : ∀ index, lineStart source position.line ≤ index → index < offset →
    source[index]? ≠ some Byte.lineFeed

def lineColumn (source : Bytes) (offset : Nat) : Nat × Nat :=
  ((ofOffset source offset).line, (ofOffset source offset).column)

def offsetAt (source : Bytes) (place : Nat × Nat) : Nat :=
  lineStart source place.1 + place.2 - 1

variable {source : Bytes} {offset : Nat}

/-- A line begins right behind the line feed that ends the one before it. -/
theorem lineStart_lineFeed (front rest : Bytes) :
    lineStart (front ++ Byte.lineFeed :: rest) (front.count Byte.lineFeed + 2) =
      front.length + 1 := by
  induction front with
  | nil => simp [lineStart]
  | cons byte front ih =>
      by_cases feed : byte = Byte.lineFeed
      · simp [lineStart, feed, ih]
      · simp [lineStart, feed, ih]

/-- The line of an offset begins behind what is in front of this line. -/
theorem lineStart_eq_length (source : Bytes) (offset : Nat) :
    lineStart source ((source.take offset).count Byte.lineFeed + 1) =
      (lineHead (source.take offset)).length := by
  rw [← count_lineHead]
  rcases lineHead_cases (source.take offset) with nothing | ⟨front, fed⟩
  · rw [nothing]
    cases source <;> rfl
  · have split : source = front ++ Byte.lineFeed ::
        (lineTail (source.take offset) ++ source.drop offset) := by
      have parts := lineHead_append_lineTail (source.take offset)
      rw [fed] at parts
      conv_lhs => rw [← List.take_append_drop offset source, ← parts]
      simp
    rw [fed, List.count_append, List.length_append]
    conv_lhs => rw [split]
    exact lineStart_lineFeed front _

theorem length_lineHead_add_lineTail (before : Bytes) :
    (lineHead before).length + (lineTail before).length = before.length := by
  rw [← List.length_append, lineHead_append_lineTail]

theorem beginsLine_lineHead (source : Bytes) (offset : Nat) :
    BeginsLine source (lineHead (source.take offset)).length := by
  rcases lineHead_cases (source.take offset) with nothing | ⟨front, fed⟩
  · exact .inl (by rw [nothing, List.length_nil])
  · refine .inr ⟨front.length, by simp [fed], ?_⟩
    have parts := lineHead_append_lineTail (source.take offset)
    have found : (source.take offset)[front.length]? = some Byte.lineFeed := by
      rw [← parts, fed]
      simp
    rw [List.getElem?_take] at found
    split at found
    · exact found
    · cases found

theorem getElem?_ne_lineFeed {index : Nat}
    (behind : (lineHead (source.take offset)).length ≤ index) (ahead : index < offset) :
    source[index]? ≠ some Byte.lineFeed := by
  intro fed
  have parts := lineHead_append_lineTail (source.take offset)
  have found : (source.take offset)[index]? = some Byte.lineFeed := by
    rw [List.getElem?_take_of_lt ahead, fed]
  rw [← parts, List.getElem?_append_right behind] at found
  exact not_mem_lineTail _ (List.mem_of_getElem? found)

/-- An offset within a source has its position. -/
theorem locates_ofOffset (within : offset ≤ source.length) :
    (ofOffset source offset).Locates source offset := by
  have start : lineStart source (ofOffset source offset).line =
      (lineHead (source.take offset)).length :=
    lineStart_eq_length source offset
  have length := length_lineHead_add_lineTail (source.take offset)
  rw [List.length_take_of_le within] at length
  exact {
    offset_eq := List.length_take_of_le within
    line_eq := rfl
    column_pos := Nat.succ_pos _
    start_add_column := by
      rw [start]
      exact congrArg (· + 1) length
    begins := by
      rw [start]
      exact beginsLine_lineHead source offset
    unfed := by
      rw [start]
      exact fun _ => getElem?_ne_lineFeed
  }

/-- An offset outside a source has the position of the end that is nearer to it. -/
theorem ofOffset_clamped (source : Bytes) (offset : Int) :
    ∃ clamped : Nat, (clamped : Int) = max 0 (min offset source.length) ∧
      clamped ≤ source.length ∧ ofOffset source offset = ofOffset source clamped := by
  refine ⟨min offset.toNat source.length, by omega, Nat.min_le_right _ _, ?_⟩
  rw [ofOffset, ofOffset, Int.toNat_natCast]
  congr 1
  rw [List.take_eq_take_iff]
  omega

theorem offsetAt_lineColumn (within : offset ≤ source.length) :
    offsetAt source (lineColumn source offset) = offset := by
  have located := (locates_ofOffset within).start_add_column
  unfold offsetAt lineColumn
  dsimp only
  omega

/-- A later offset has a later line, or the same line and a later column. -/
theorem lineColumn_lt {later : Nat} (within : later ≤ source.length) (less : offset < later) :
    toLex (lineColumn source offset) < toLex (lineColumn source later) := by
  have first := locates_ofOffset (less.le.trans within)
  have second := locates_ofOffset within
  have lines : (ofOffset source offset).line ≤ (ofOffset source later).line := by
    rw [first.line_eq, second.line_eq]
    exact Nat.succ_le_succ ((List.take_prefix_take_left less.le).sublist.count_le _)
  rw [Prod.Lex.toLex_lt_toLex]
  rcases lines.lt_or_eq with earlier | same
  · exact .inl earlier
  -- In one line both columns are counted from the same beginning.
  · have before := first.start_add_column
    have behind := second.start_add_column
    rw [same] at before
    have columns : (ofOffset source offset).column < (ofOffset source later).column := by omega
    exact .inr ⟨same, columns⟩

/-- Every offset, moved into the source if it is outside, has the line and the column that the line
feeds in front of it give. Within the source they tell offsets apart, come in the order of the
offsets, and lead back to them. -/
theorem ofOffset_invertible (source : Bytes) :
    (∀ offset : Int, ∃ clamped : Nat, (clamped : Int) = max 0 (min offset source.length) ∧
      (ofOffset source offset).Locates source clamped) ∧
    Set.InjOn (lineColumn source) (Set.Iic source.length) ∧
    StrictMonoOn (fun offset => toLex (lineColumn source offset)) (Set.Iic source.length) ∧
    Set.LeftInvOn (offsetAt source) (lineColumn source) (Set.Iic source.length) := by
  have recovered : Set.LeftInvOn (offsetAt source) (lineColumn source) (Set.Iic source.length) :=
    fun _ within => offsetAt_lineColumn within
  refine ⟨fun offset => ?_, recovered.injOn, ?_, recovered⟩
  · obtain ⟨clamped, moved, within, same⟩ := ofOffset_clamped source offset
    rw [same]
    exact ⟨clamped, moved, locates_ofOffset within⟩
  · intro offset _ later within less
    exact lineColumn_lt within less

-- A line feed still belongs to the line that it ends.
example : [2, 3, 4, 5].map (lineColumn [0x61, 0x62, 0x0A, 0x0A, 0x63]) =
    [(1, 3), (2, 1), (3, 1), (3, 2)] := by decide

end LexKit.Position
