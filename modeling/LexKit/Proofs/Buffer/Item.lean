import LexKit.Buffer.Item
import Mathlib.Algebra.Ring.Nat

/-!
# Items and their bytes

The bytes of a value are as many as its item type says. What reading them gives is the value as the
layout keeps it: an integer is kept as it is, other values may be cut, padded or rounded. Fields lie
one behind the other, so an item lies inside of its element.
-/

set_option autoImplicit false

namespace LexKit

/-! ## Numbers as bytes -/

theorem length_littleEndian (width value : Nat) : (littleEndian width value).length = width := by
  induction width generalizing value with
  | zero => rfl
  | succ width ih => rw [littleEndian, List.length_cons, ih]

theorem length_orderedBytes (bigEndian : Bool) (width value : Nat) :
    (orderedBytes bigEndian width value).length = width := by
  unfold orderedBytes
  split
  · rw [List.length_reverse, length_littleEndian]
  · exact length_littleEndian width value

theorem ofLittleEndian_littleEndian (width value : Nat) :
    ofLittleEndian (littleEndian width value) = value % 256 ^ width := by
  induction width generalizing value with
  | zero =>
      rw [Nat.pow_zero, Nat.mod_one]
      rfl
  | succ width ih =>
      have low : (UInt8.ofNat (value % 256)).toNat = value % 256 := by
        rw [UInt8.toNat_ofNat']
        omega
      calc ofLittleEndian (littleEndian (width + 1) value)
          = (UInt8.ofNat (value % 256)).toNat +
              256 * ofLittleEndian (littleEndian width (value / 256)) := rfl
        _ = value % 256 + 256 * (value / 256 % 256 ^ width) := by rw [low, ih]
        _ = value % 256 ^ (width + 1) := by rw [Nat.pow_succ', Nat.mod_mul]

/-- Reading bytes in the order in which they were written gives the number back, up to what the
width can hold. -/
theorem ofOrderedBytes_orderedBytes (bigEndian : Bool) (width value : Nat) :
    ofOrderedBytes bigEndian (orderedBytes bigEndian width value) = value % 256 ^ width := by
  unfold ofOrderedBytes orderedBytes
  cases bigEndian with
  | false => exact ofLittleEndian_littleEndian width value
  | true =>
      rw [if_pos rfl, if_pos rfl, List.reverse_reverse]
      exact ofLittleEndian_littleEndian width value

namespace FieldType

theorem ofIntegerPattern_integerPattern {signed : Bool} {width pattern : Nat} {number : Int}
    (fits : integerPattern? signed width number = some pattern) :
    pattern < 256 ^ width ∧ ofIntegerPattern signed width pattern = number := by
  have span : Nat.pow 2 (8 * width) = 256 ^ width := by
    rw [Nat.pow_eq, Nat.pow_mul]
  have positive : 0 < 256 ^ width := Nat.pow_pos (by decide)
  have even : 256 ^ width % 2 = 0 ∨ 256 ^ width = 1 := by
    cases width with
    | zero => exact .inr rfl
    | succ width =>
        rw [Nat.pow_succ]
        omega
  unfold integerPattern? at fits
  rw [span] at fits
  unfold ofIntegerPattern
  rw [span]
  generalize 256 ^ width = limit at *
  cases signed with
  | false =>
      simp only [Bool.false_eq_true, ↓reduceIte, Int.zero_add] at fits
      split at fits
      · rename_i range
        cases fits
        rw [Int.emod_eq_of_lt range.1 range.2, if_neg (by simp)]
        omega
      · cases fits
  | true =>
      simp only [↓reduceIte] at fits
      split at fits
      · rename_i range
        cases fits
        by_cases natural : 0 ≤ number
        · rw [Int.emod_eq_of_lt natural (by omega), if_neg (by simp; omega)]
          omega
        · have wrapped : number % (limit : Int) = number + limit := by
            rw [← Int.add_emod_right, Int.emod_eq_of_lt (by omega) (by omega)]
          rw [wrapped, if_pos (by simp; omega)]
          omega
      · cases fits

/-! ## The bytes of a value -/

/-- How many bytes are written for a value. Counted bytes without room for their count have it
written behind them all the same. -/
def written : FieldType → Nat
  | .countedBytes 0 => 1
  | type => type.size

theorem size_le_written (type : FieldType) : type.size ≤ type.written := by
  unfold written
  split
  · exact Nat.zero_le 1
  · exact Nat.le_refl _

theorem written_eq_size {type : FieldType} (counted : type ≠ .countedBytes 0) :
    type.written = type.size := by
  unfold written
  split
  · exact absurd rfl counted
  · rfl

private theorem length_fixedContent (length : Nat) (content : Bytes) :
    (fixedContent length content).length = length := by
  rw [fixedContent, List.length_append, List.length_take, List.length_replicate]
  omega

private theorem length_countedContent (length : Nat) (content : Bytes) :
    (countedContent length content).length = (countedBytes length).written := by
  unfold countedContent
  split
  · rename_i zero
    subst zero
    rfl
  · rename_i positive
    rw [length_fixedContent, written_eq_size (by simpa using positive)]
    rfl

private theorem exists_of_map_ok {α β : Type} {found : Except Fault α} {change : α → β} {result : β}
    (mapped : found.map change = .ok result) :
    ∃ value, found = .ok value ∧ change value = result := by
  cases found with
  | error fault => cases mapped
  | ok value =>
      cases mapped
      exact ⟨value, rfl, rfl⟩

private theorem error_of_map_error {α β : Type} {found : Except Fault α} {change : α → β}
    {fault : Fault} (mapped : found.map change = .error fault) : found = .error fault := by
  cases found with
  | error cause =>
      cases mapped
      rfl
  | ok value => cases mapped

/-- An encoded value has the written length of its type, whatever the value. This exceeds the size
of the item only for counted bytes without room for their count. -/
theorem length_encode {type : FieldType} {isNative bigEndian : Bool} {value : Value} {bytes : Bytes}
    (encoded : type.encode isNative bigEndian value = .ok bytes) : bytes.length = type.written := by
  unfold encode at encoded
  cases type with
  | integer signed width =>
      dsimp only at encoded
      split at encoded
      · split at encoded
        · cases encoded
          exact length_orderedBytes bigEndian width _
        · cases encoded
      · cases encoded
  | address =>
      dsimp only at encoded
      split at encoded
      · cases encoded
        exact length_orderedBytes bigEndian 8 _
      · cases encoded
  | float format =>
      obtain ⟨pattern, -, rfl⟩ := exists_of_map_ok encoded
      exact length_orderedBytes bigEndian _ pattern
  | truth =>
      cases encoded
      rfl
  | character =>
      dsimp only at encoded
      split at encoded
      · cases encoded
        rfl
      · cases encoded
  | fixedBytes length =>
      dsimp only at encoded
      split at encoded
      · cases encoded
        exact length_fixedContent length _
      · cases encoded
        exact length_fixedContent length _
      · cases encoded
  | countedBytes length =>
      dsimp only at encoded
      split at encoded
      · cases encoded
        exact length_countedContent length _
      · cases encoded
        exact length_countedContent length _
      · cases encoded

private theorem realPattern_error {isNative : Bool} {format : Real.Format} {bits : UInt64}
    {fault : Fault} (refused : realPattern isNative format bits = .error fault) :
    fault = .floatTooLarge := by
  unfold realPattern at refused
  split at refused
  · cases refused
  · dsimp only at refused
    split at refused
    · cases refused
    · split at refused
      · cases refused
      · cases refused
        rfl
    · cases refused
      rfl

private theorem intPattern_error {isNative : Bool} {format : Real.Format} {value : Int}
    {fault : Fault} (refused : intPattern isNative format value = .error fault) :
    fault = .rejectedValue := by
  unfold intPattern at refused
  split at refused
  · cases refused
    rfl
  · split at refused
    · cases refused
    · cases refused
      rfl

/-- A value that an item does not take is rejected as such, or as a number that is too large. -/
theorem encode_error {type : FieldType} {isNative bigEndian : Bool} {value : Value} {fault : Fault}
    (refused : type.encode isNative bigEndian value = .error fault) :
    fault = .rejectedValue ∨ fault = .floatTooLarge := by
  cases type with
  | float format =>
      have cause := error_of_map_error refused
      split at cause
      · exact .inr (realPattern_error cause)
      · exact .inl (intPattern_error cause)
      · exact .inl (intPattern_error cause)
      · cases cause
        exact .inl rfl
  | _ =>
      left
      unfold encode at refused
      grind

/-- A byte written behind the item is none that is read. -/
theorem decode_take_encode {type : FieldType} {isNative bigEndian : Bool} {value : Value}
    {bytes : Bytes} (encoded : type.encode isNative bigEndian value = .ok bytes) :
    type.decode bigEndian (bytes.take type.size) = type.decode bigEndian bytes := by
  have length := length_encode encoded
  by_cases counted : type = .countedBytes 0
  · subst counted
    unfold encode at encoded
    dsimp only at encoded
    split at encoded
    · cases encoded
      rfl
    · cases encoded
      rfl
    · cases encoded
  · rw [written_eq_size counted] at length
    rw [List.take_of_length_le (Nat.le_of_eq length)]

end FieldType

end LexKit
