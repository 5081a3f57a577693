import LexKit.Proofs.Buffer.Elements
import LexKit.Proofs.Real.Binary

/-!
# Values that were read

An item takes every value that it shows, and shows the same value again. The bytes may be others: of
a truth item, of a number that is none, and behind counted bytes.
-/

set_option autoImplicit false

namespace LexKit

/-! ## Bytes that were read -/

theorem ofLittleEndian_lt (bytes : Bytes) : ofLittleEndian bytes < 256 ^ bytes.length := by
  induction bytes with
  | nil => exact Nat.one_pos
  | cons byte rest ih =>
      have small := byte.toNat_lt
      change byte.toNat + 256 * ofLittleEndian rest < 256 ^ (rest.length + 1)
      rw [Nat.pow_succ]
      omega

theorem ofOrderedBytes_lt (bigEndian : Bool) (bytes : Bytes) :
    ofOrderedBytes bigEndian bytes < 256 ^ bytes.length := by
  unfold ofOrderedBytes
  split
  · rw [← List.length_reverse]
    exact ofLittleEndian_lt bytes.reverse
  · exact ofLittleEndian_lt bytes

namespace FieldType

theorem integerPattern_ofIntegerPattern (signed : Bool) {width pattern : Nat}
    (small : pattern < 256 ^ width) :
    integerPattern? signed width (ofIntegerPattern signed width pattern) = some pattern := by
  have span : Nat.pow 2 (8 * width) = 256 ^ width := by
    rw [Nat.pow_eq, Nat.pow_mul]
  have even : 256 ^ width % 2 = 0 ∨ 256 ^ width = 1 := by
    cases width with
    | zero => exact .inr rfl
    | succ width =>
        rw [Nat.pow_succ]
        omega
  unfold integerPattern? ofIntegerPattern
  rw [span]
  generalize 256 ^ width = limit at *
  cases signed with
  | false =>
      simp only [Bool.false_eq_true, false_and, ↓reduceIte, Int.zero_add]
      rw [if_pos (by omega), Int.emod_eq_of_lt (by omega) (by omega), Int.toNat_natCast]
  | true =>
      simp only [true_and, ↓reduceIte]
      by_cases negative : 2 * pattern ≥ limit
      · have wrapped : ((pattern : Int) - limit) % limit = pattern := by
          rw [← Int.add_emod_right, Int.sub_add_cancel, Int.emod_eq_of_lt (by omega) (by omega)]
        rw [if_pos negative, if_pos (by omega), wrapped, Int.toNat_natCast]
      · rw [if_neg negative, if_pos (by omega), Int.emod_eq_of_lt (by omega) (by omega),
          Int.toNat_natCast]

def IsKnown : FieldType → Prop
  | .float format => (format = Real.half ∨ format = Real.single) ∨ format = Real.double
  | _ => True

/-- What encoding a value gives and decoding it then gives the value again. -/
def Retakes (type : FieldType) (isNative bigEndian : Bool) (value : Value) : Prop :=
  ∃ bytes, type.encode isNative bigEndian value = .ok bytes ∧ type.decode bigEndian bytes = value

variable {isNative bigEndian : Bool} {bytes : Bytes}

private theorem retakes_integer (signed : Bool) {width : Nat} (length : bytes.length = width) :
    (FieldType.integer signed width).Retakes isNative bigEndian
      (decode (.integer signed width) bigEndian bytes) := by
  have small := ofOrderedBytes_lt bigEndian bytes
  rw [length] at small
  refine ⟨orderedBytes bigEndian width (ofOrderedBytes bigEndian bytes), ?_, ?_⟩
  · simp only [encode, decode, Value.int?, integerPattern_ofIntegerPattern signed small]
  · simp only [decode, ofOrderedBytes_orderedBytes, Nat.mod_eq_of_lt small]

/-- For any value, as with a number the pattern would be computed. -/
private theorem encode_address {value : Value} {pattern : Nat}
    (found : value.int?.bind addressPattern? = some pattern) :
    encode .address isNative bigEndian value = .ok (orderedBytes bigEndian 8 pattern) := by
  simp only [encode, found]

private theorem retakes_address (length : bytes.length = 8) :
    FieldType.address.Retakes isNative bigEndian (decode .address bigEndian bytes) := by
  have small := ofOrderedBytes_lt bigEndian bytes
  rw [length] at small
  have pattern : addressPattern? (ofOrderedBytes bigEndian bytes) =
      some (ofOrderedBytes bigEndian bytes) := by
    unfold addressPattern?
    have natural : decide ((ofOrderedBytes bigEndian bytes : Int) < 0) = false := by
      rw [decide_eq_false_iff_not]
      omega
    have plain : ofIntegerPattern false 8 (ofOrderedBytes bigEndian bytes) =
        ofOrderedBytes bigEndian bytes := by
      simp [ofIntegerPattern]
    have same := integerPattern_ofIntegerPattern false small
    rwa [plain, ← natural] at same
  have stands : (decode .address bigEndian bytes).int? =
      some (ofOrderedBytes bigEndian bytes : Int) := rfl
  refine ⟨orderedBytes bigEndian 8 (ofOrderedBytes bigEndian bytes), encode_address ?_, ?_⟩
  · rw [stands, Option.bind_some, pattern]
  · simp only [decode, ofOrderedBytes_orderedBytes, Nat.mod_eq_of_lt small]

private theorem retakes_double (length : bytes.length = 8) :
    (FieldType.float Real.double).Retakes isNative bigEndian
      (decode (.float Real.double) bigEndian bytes) := by
  have small := ofOrderedBytes_lt bigEndian bytes
  rw [length] at small
  have pattern : (UInt64.ofNat (ofOrderedBytes bigEndian bytes)).toNat =
      ofOrderedBytes bigEndian bytes := UInt64.toNat_ofNat_of_lt' small
  refine ⟨orderedBytes bigEndian 8 (ofOrderedBytes bigEndian bytes), ?_, ?_⟩
  · simp only [encode, decode, realPattern, ↓reduceIte, pattern]
    rfl
  · simp only [decode, ↓reduceIte, ofOrderedBytes_orderedBytes, Nat.mod_eq_of_lt small]

private theorem retakes_narrow {format : Real.Format}
    (narrow : format = Real.half ∨ format = Real.single)
    (length : bytes.length = format.width / 8) :
    (FieldType.float format).Retakes isNative bigEndian
      (decode (.float format) bigEndian bytes) := by
  have other : format ≠ Real.double := by
    rcases narrow with rfl | rfl <;> decide
  have whole : 2 ^ format.width = 256 ^ (format.width / 8) := by
    rcases narrow with rfl | rfl <;> decide
  have small := ofOrderedBytes_lt bigEndian bytes
  rw [length, ← whole] at small
  obtain ⟨fits, again, narrowed, inside, same⟩ := Real.Format.narrow?_decode_widen narrow small
  have number : Real.ofBits (UInt64.ofNat (format.widen (ofOrderedBytes bigEndian bytes))) =
      Real.double.decode (format.widen (ofOrderedBytes bigEndian bytes)) := by
    rw [Real.ofBits, UInt64.toNat_ofNat_of_lt' fits]
  refine ⟨orderedBytes bigEndian (format.width / 8) again, ?_, ?_⟩
  · simp only [encode, decode, realPattern, other, ↓reduceIte, number, narrowed]
    rfl
  · rw [whole] at inside
    simp only [decode, other, ↓reduceIte, ofOrderedBytes_orderedBytes, Nat.mod_eq_of_lt inside,
      same]

private theorem retakes_counted {length : Nat} (counted : length ≠ 0)
    (whole : bytes.length = length) :
    (FieldType.countedBytes length).Retakes isNative bigEndian
      (decode (.countedBytes length) bigEndian bytes) := by
  cases bytes with
  | nil => exact absurd whole.symm counted
  | cons count content =>
      have few := count.toNat_lt
      rw [List.length_cons] at whole
      have kept : (content.take count.toNat).take (length - 1) = content.take count.toNat := by
        apply List.take_of_length_le
        rw [List.length_take]
        omega
      have counts : (UInt8.ofNat (min (content.take count.toNat).length 255)).toNat =
          (content.take count.toNat).length := by
        have short : (content.take count.toNat).length ≤ 255 := by
          rw [List.length_take]
          omega
        rw [Nat.min_eq_left short]
        exact UInt8.toNat_ofNat_of_lt' (Nat.lt_succ_of_le short)
      refine ⟨countedContent length (content.take count.toNat), rfl, ?_⟩
      rw [countedContent, if_neg counted]
      dsimp only
      rw [kept, fixedContent, List.take_of_length_le (by
        rw [List.length_cons, List.length_take]
        omega), List.cons_append]
      dsimp only [decode]
      rw [counts, List.take_left]

/-- An item takes the value that its bytes show. -/
theorem retakes_decode {type : FieldType} (known : type.IsKnown) (counted : type ≠ .countedBytes 0)
    (length : bytes.length = type.size) :
    type.Retakes isNative bigEndian (type.decode bigEndian bytes) := by
  cases type with
  | integer signed width => exact retakes_integer signed length
  | address => exact retakes_address length
  | float format =>
      rcases known with narrow | rfl
      · exact retakes_narrow narrow length
      · exact retakes_double length
  | truth =>
      refine ⟨_, rfl, ?_⟩
      cases shown : bytes.any (· != 0) <;> simp [decode, Value.truth, shown]
  | character =>
      obtain ⟨byte, rfl⟩ := List.length_eq_one_iff.mp length
      exact ⟨[byte], rfl, rfl⟩
  | fixedBytes size =>
      refine ⟨fixedContent size bytes, rfl, ?_⟩
      have whole : bytes.length = size := length
      rw [fixedContent, ← whole, List.take_length, Nat.sub_self, List.replicate_zero,
        List.append_nil]
  | countedBytes size => exact retakes_counted (fun empty => counted (by rw [empty])) length

end FieldType

/-! ## Items of a layout -/

namespace Layout

private theorem isKnown_of_commonCode? {char : Char} {type : FieldType} {size align : Nat}
    (known : commonCode? char = some (.item type size align)) : type.IsKnown := by
  unfold commonCode? Code.integer at known
  split at known <;> cases known <;> simp [FieldType.IsKnown]

private theorem isKnown_of_code? {isNative : Bool} {char : Char} {type : FieldType}
    {size align : Nat} (known : code? isNative char = some (.item type size align)) :
    type.IsKnown := by
  unfold code? Code.integer at known
  split at known
  · cases known
    trivial
  · cases known
    trivial
  · cases isNative <;> cases known
    trivial
  · cases isNative <;> cases known
    trivial
  · cases isNative <;> cases known
    trivial
  · exact isKnown_of_commonCode? known

private theorem isKnown_of_readCodes {isNative : Bool} {offset size : Nat} {pending : Option Nat}
    {codes : List Char} {runs : List FieldRun}
    (read : readCodes isNative offset pending codes = some (size, runs)) :
    ∀ run ∈ runs, run.type.IsKnown := by
  induction codes generalizing offset pending size runs with
  | nil =>
      unfold readCodes at read
      split at read <;> cases read
      simp
  | cons char rest ih =>
      unfold readCodes at read
      split at read
      · dsimp only at read
        split at read
        · exact ih read
        · cases read
      · split at read
        · exact ih read
        · split at read
          · cases read
          · rename_i code known
            dsimp only at read
            split at read
            · obtain ⟨⟨last, behind⟩, later, same⟩ := Option.map_eq_some_iff.mp read
              cases same
              intro run member
              rcases List.mem_append.mp member with own | other
              · cases code with
                | padding => cases own
                | item type size align =>
                    rw [List.mem_singleton.mp own]
                    exact isKnown_of_code? known
                | bytes counted =>
                    rw [List.mem_singleton.mp own]
                    cases counted <;> trivial
              · exact ih later run other
            · cases read

theorem IsRead.isKnown {layout : Layout} (read : layout.IsRead) :
    ∀ run ∈ layout.runs, run.type.IsKnown := by
  obtain ⟨pattern, read⟩ := read
  unfold ofPattern? at read
  split at read <;>
    obtain ⟨⟨size, runs⟩, known, rfl⟩ := Option.map_eq_some_iff.mp read <;>
    exact isKnown_of_readCodes known

theorem mem_of_singleItem? {layout : Layout} {offset : Nat} {type : FieldType}
    (single : layout.singleItem? = some (offset, type)) :
    ∃ run ∈ layout.runs, run.type = type := by
  unfold singleItem? at single
  split at single
  · obtain ⟨run, found, same⟩ := Option.map_eq_some_iff.mp single
    cases same
    exact ⟨run, List.mem_of_find?_eq_some found, rfl⟩
  · cases single

end Layout

/-- What an element shows can be pushed, and is kept as it is. -/
theorem Buffer.kept?_slot {buffer : Buffer} {item : Nat × FieldType} (read : buffer.layout.IsRead)
    (single : buffer.layout.singleItem? = some item) (readable : buffer.layout.isReadable = true)
    (memory : Memory) (index : Nat) :
    buffer.layout.kept? (buffer.slot memory index) = some (buffer.slot memory index) := by
  obtain ⟨offset, type⟩ := item
  obtain ⟨run, member, same⟩ := Layout.mem_of_singleItem? single
  have known := read.isKnown run member
  have counted : run.type ≠ .countedBytes 0 := by
    have all := List.all_eq_true.mp readable run member
    simpa using all
  rw [same] at known counted
  have length : (buffer.itemBytes memory index offset type.size).length = type.size := by
    rw [itemBytes, List.length_map, List.length_range]
  obtain ⟨bytes, encoded, decoded⟩ := @FieldType.retakes_decode buffer.layout.isNative
    buffer.layout.bigEndian _ _ known counted length
  simp only [Layout.kept?, slot, single, encoded, decoded]

end LexKit
