import LexKit.Proofs.Buffer.Item

/-!
# Items inside of elements

The fields of an element lie one behind the other within its size. Where an element holds one item
only, the bytes of a value stay inside of the element, unless the item is counted bytes without room
for their count at the very end.
-/

set_option autoImplicit false

namespace LexKit.Layout

/-- The code counts as many bytes as its item takes, and has an alignment. -/
private def Code.Sized : Code → Prop
  | .item type size align => type.size = size ∧ 0 < align
  | _ => True

private theorem sized_of_commonCode? {char : Char} {code : Code}
    (known : commonCode? char = some code) : code.Sized := by
  unfold commonCode? at known
  split at known <;> cases known <;> trivial

private theorem sized_of_code? {isNative : Bool} {char : Char} {code : Code}
    (known : code? isNative char = some code) : code.Sized := by
  unfold code? at known
  split at known
  · cases known
    cases isNative <;> exact ⟨rfl, by decide⟩
  · cases known
    cases isNative <;> exact ⟨rfl, by decide⟩
  · cases isNative <;> cases known
    exact ⟨rfl, by decide⟩
  · cases isNative <;> cases known
    exact ⟨rfl, by decide⟩
  · cases isNative <;> cases known
    exact ⟨rfl, by decide⟩
  · exact sized_of_commonCode? known

private theorem le_alignUp (offset : Nat) {align : Nat} (positive : 0 < align) :
    offset ≤ alignUp offset align := by
  have whole := Nat.div_add_mod' (offset + align - 1) align
  have short := Nat.mod_lt (offset + align - 1) positive
  unfold alignUp
  omega

/-- The run lies within the first `stop` bytes of an element. -/
private def EndsBy (stop : Nat) (run : FieldRun) : Prop :=
  run.offset + run.type.size * run.count ≤ stop

private theorem place_bounds (isNative : Bool) (offset : Nat) {code : Code} (sized : code.Sized)
    (count : Nat) :
    offset ≤ (place isNative offset code count).1 ∧
      ∀ run ∈ (place isNative offset code count).2,
        EndsBy (place isNative offset code count).1 run := by
  cases code with
  | padding => exact ⟨Nat.le_add_right offset count, by simp [place]⟩
  | item type size align =>
      obtain ⟨same, positive⟩ := sized
      have start : offset ≤ if isNative then alignUp offset align else offset := by
        split
        · exact le_alignUp offset positive
        · exact Nat.le_refl offset
      refine ⟨Nat.le_add_right_of_le start, ?_⟩
      intro run member
      rw [place, List.mem_singleton] at member
      subst member
      simp [EndsBy, place, same]
  | bytes counted =>
      refine ⟨Nat.le_add_right offset count, ?_⟩
      intro run member
      rw [place, List.mem_singleton] at member
      subst member
      cases counted <;> simp [EndsBy, place, FieldType.size]

private theorem readCodes_bounds (isNative : Bool) {offset size : Nat} {pending : Option Nat}
    {codes : List Char} {runs : List FieldRun}
    (read : readCodes isNative offset pending codes = some (size, runs)) :
    offset ≤ size ∧ ∀ run ∈ runs, EndsBy size run := by
  induction codes generalizing offset pending size runs with
  | nil =>
      unfold readCodes at read
      split at read
      · cases read
        exact ⟨Nat.le_refl _, by simp⟩
      · cases read
  | cons char rest ih =>
      unfold readCodes at read
      split at read
      · dsimp only at read
        split at read
        · exact ih read
        · cases read
      · split at read
        · exact ih read
        · split at read
          · cases read
          · rename_i code known
            have bounds := place_bounds isNative offset (sized_of_code? known) (pending.getD 1)
            dsimp only at read
            split at read
            · obtain ⟨⟨last, behind⟩, later, same⟩ := Option.map_eq_some_iff.mp read
              cases same
              obtain ⟨before, inside⟩ := ih later
              refine ⟨Nat.le_trans bounds.1 before, ?_⟩
              intro run member
              rcases List.mem_append.mp member with own | other
              · exact Nat.le_trans (bounds.2 run own) before
              · exact inside run other
            · cases read

private theorem ofCodes?_bounds {pattern : String} {bigEndian isNative : Bool} {codes : List Char}
    {layout : Layout} (read : ofCodes? pattern bigEndian isNative codes = some layout) :
    ∀ run ∈ layout.runs, EndsBy layout.size run := by
  unfold ofCodes? at read
  obtain ⟨⟨size, runs⟩, known, rfl⟩ := Option.map_eq_some_iff.mp read
  exact (readCodes_bounds isNative known).2

private theorem ofPattern?_bounds {pattern : String} {layout : Layout}
    (read : ofPattern? pattern = some layout) : ∀ run ∈ layout.runs, EndsBy layout.size run := by
  unfold ofPattern? at read
  split at read <;> exact ofCodes?_bounds read

/-- The only item of an element lies inside of it, and so do the bytes that are written for a
value. -/
structure Contains (layout : Layout) (offset : Nat) (type : FieldType) : Prop where
  single : layout.singleItem? = some (offset, type)
  positive : 0 < layout.size
  written_le : offset + type.written ≤ layout.size

theorem Contains.size_le {layout : Layout} {offset : Nat} {type : FieldType}
    (contains : layout.Contains offset type) : offset + type.size ≤ layout.size :=
  Nat.le_trans (Nat.add_le_add_left type.size_le_written offset) contains.written_le

theorem contains_byteLayout : byteLayout.Contains 0 (.integer false 1) :=
  ⟨rfl, by decide, by decide⟩

/-- Only counted bytes without room for their count can reach out of their element. -/
theorem contains_of_ofPattern? {pattern : String} {layout : Layout} {offset : Nat}
    {type : FieldType} (read : ofPattern? pattern = some layout)
    (single : layout.singleItem? = some (offset, type)) (positive : 0 < layout.size)
    (roomy : type = .countedBytes 0 → offset < layout.size) : layout.Contains offset type := by
  refine ⟨single, positive, ?_⟩
  unfold singleItem? at single
  split at single
  · obtain ⟨run, found, same⟩ := Option.map_eq_some_iff.mp single
    cases same
    have count : run.count = 1 := by simpa using List.find?_some found
    have inside := ofPattern?_bounds read run (List.mem_of_find?_eq_some found)
    rw [EndsBy, count, Nat.mul_one] at inside
    by_cases counted : run.type = .countedBytes 0
    · have room := roomy counted
      rw [counted]
      exact room
    · rwa [FieldType.written_eq_size counted]
  · cases single

/-- The first item of a layout that was read from a pattern lies within its element, so reading it
never reaches the next element. -/
theorem firstItem?_size_le {pattern : String} {layout : Layout} {offset : Nat} {type : FieldType}
    (read : ofPattern? pattern = some layout) (first : layout.firstItem? = some (offset, type)) :
    offset + type.size ≤ layout.size := by
  obtain ⟨run, found, same⟩ := Option.map_eq_some_iff.mp first
  cases same
  have count : 0 < run.count := Nat.pos_of_ne_zero (by simpa using List.find?_some found)
  have inside := ofPattern?_bounds read run (List.mem_of_find?_eq_some found)
  exact Nat.le_trans (Nat.add_le_add_left (Nat.le_mul_of_pos_right _ count) _) inside

theorem firstItem?_of_singleItem? {layout : Layout} {item : Nat × FieldType}
    (single : layout.singleItem? = some item) : layout.firstItem? = some item := by
  unfold singleItem? itemCount at single
  unfold firstItem?
  generalize layout.runs = runs at *
  induction runs with
  | nil => cases single
  | cons first rest ih =>
      rw [List.foldr_cons] at single
      by_cases none : first.count = 0
      · rw [List.find?_cons_of_neg (by simp [none]), none, Nat.zero_add] at single
        rw [List.find?_cons_of_neg (by simp [none])]
        exact ih single
      · rw [List.find?_cons_of_pos (by simpa using none)]
        split at single
        · have one : first.count = 1 := by omega
          rwa [List.find?_cons_of_pos (by simpa using one)] at single
        · cases single

end LexKit.Layout
