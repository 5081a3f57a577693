import LexKit.Text.Pieces

/-!
# Runs between delimiters

Cutting a byte string at a delimiter gives its longest non-empty runs without the delimiter, in
order: delimiters at either end and next to each other leave no trace. Joining such runs with the
delimiter is undone by cutting.
-/

set_option autoImplicit false

namespace LexKit.Text

structure IsRun (delimiter : UInt8) (run : Bytes) : Prop where
  nonempty : run ≠ []
  spares : delimiter ∉ run

/-- The runs of a byte string in order. Each one reaches from the beginning or from behind a
delimiter to the end or to the next delimiter, so none of them could be longer. -/
inductive Runs (delimiter : UInt8) : Bytes → List Bytes → Prop where
  | nil : Runs delimiter [] []
  | skip {rest runs} : Runs delimiter rest runs → Runs delimiter (delimiter :: rest) runs
  | last {run} : IsRun delimiter run → Runs delimiter run [run]
  | run {run rest runs} :
      IsRun delimiter run → Runs delimiter rest runs →
      Runs delimiter (run ++ delimiter :: rest) (run :: runs)

variable {delimiter : UInt8} {bytes piece rest : Bytes} {runs : List Bytes}

/-! ## Pieces -/

theorem pieces_ne_nil (delimiter : UInt8) (bytes : Bytes) : pieces delimiter bytes ≠ [] := by
  cases bytes with
  | nil => exact List.cons_ne_nil _ _
  | cons byte rest =>
      change prependToPieces delimiter byte (pieces delimiter rest) ≠ []
      unfold prependToPieces
      split <;> split <;> exact List.cons_ne_nil _ _

theorem pieces_cons_delimiter (delimiter : UInt8) (rest : Bytes) :
    pieces delimiter (delimiter :: rest) = [] :: pieces delimiter rest := by
  change prependToPieces delimiter delimiter (pieces delimiter rest) = _
  cases found : pieces delimiter rest with
  | nil => exact absurd found (pieces_ne_nil delimiter rest)
  | cons first others => simp [prependToPieces]

theorem pieces_cons_other {byte : UInt8} (other : byte ≠ delimiter) {first : Bytes}
    {others : List Bytes} (found : pieces delimiter rest = first :: others) :
    pieces delimiter (byte :: rest) = (byte :: first) :: others := by
  change prependToPieces delimiter byte (pieces delimiter rest) = _
  rw [found]
  simp [prependToPieces, other]

/-- Up to the first delimiter there is one piece. -/
theorem pieces_append_delimiter (spares : delimiter ∉ piece) (rest : Bytes) :
    pieces delimiter (piece ++ delimiter :: rest) = piece :: pieces delimiter rest := by
  induction piece with
  | nil => exact pieces_cons_delimiter delimiter rest
  | cons byte piece ih =>
      obtain ⟨other, spares⟩ := not_or.mp (mt List.mem_cons.mpr spares)
      exact pieces_cons_other (Ne.symm other) (ih spares)

theorem pieces_of_spares (spares : delimiter ∉ piece) : pieces delimiter piece = [piece] := by
  induction piece with
  | nil => rfl
  | cons byte piece ih =>
      obtain ⟨other, spares⟩ := not_or.mp (mt List.mem_cons.mpr spares)
      exact pieces_cons_other (Ne.symm other) (ih spares)

/-! ## Cutting -/

theorem split_cons_delimiter (delimiter : UInt8) (rest : Bytes) :
    split delimiter (delimiter :: rest) = split delimiter rest := by
  unfold split
  rw [pieces_cons_delimiter]
  rfl

theorem split_run (run : IsRun delimiter piece) : split delimiter piece = [piece] := by
  unfold split
  rw [pieces_of_spares run.spares]
  simp [run.nonempty]

theorem split_run_append (run : IsRun delimiter piece) (rest : Bytes) :
    split delimiter (piece ++ delimiter :: rest) = piece :: split delimiter rest := by
  unfold split
  rw [pieces_append_delimiter run.spares]
  simp [run.nonempty]

theorem IsRun.cons {byte : UInt8} (other : byte ≠ delimiter) (spares : delimiter ∉ piece) :
    IsRun delimiter (byte :: piece) :=
  ⟨List.cons_ne_nil _ _, fun member => (List.mem_cons.mp member).elim (Ne.symm other) spares⟩

theorem exists_runs (delimiter : UInt8) (bytes : Bytes) : ∃ runs, Runs delimiter bytes runs := by
  induction bytes with
  | nil => exact ⟨[], .nil⟩
  | cons byte rest ih =>
      obtain ⟨runs, cut⟩ := ih
      by_cases other : byte = delimiter
      · subst other
        exact ⟨runs, .skip cut⟩
      -- The byte is a run of its own, or the first run goes on with it.
      · cases cut with
        | nil => exact ⟨_, .last (.cons other List.not_mem_nil)⟩
        | skip behind => exact ⟨_, .run (.cons other List.not_mem_nil) behind⟩
        | last run => exact ⟨_, .last (.cons other run.spares)⟩
        | run run behind => exact ⟨_, .run (.cons other run.spares) behind⟩

theorem Runs.eq_split (cut : Runs delimiter bytes runs) : runs = split delimiter bytes := by
  induction cut with
  | nil => rfl
  | skip _ ih => rw [split_cons_delimiter, ih]
  | last run => rw [split_run run]
  | run run _ ih => rw [split_run_append run, ih]

/-- What cutting gives is the runs, and nothing else is. -/
theorem runs_iff_split : Runs delimiter bytes runs ↔ runs = split delimiter bytes := by
  constructor
  · exact Runs.eq_split
  · rintro rfl
    obtain ⟨runs, cut⟩ := exists_runs delimiter bytes
    exact cut.eq_split ▸ cut

/-- Runs that are joined with the delimiter are what cutting gives back. -/
theorem split_intercalate (each : ∀ run ∈ runs, IsRun delimiter run) :
    split delimiter (List.intercalate [delimiter] runs) = runs := by
  induction runs with
  | nil => rfl
  | cons run others ih =>
      have first := each run List.mem_cons_self
      cases others with
      | nil => rw [List.intercalate_singleton, split_run first]
      | cons next others =>
          rw [List.intercalate_cons_cons, List.append_assoc, List.singleton_append,
            split_run_append first,
            ih fun later member => each later (List.mem_cons_of_mem _ member)]

end LexKit.Text
