import LexKit.Text.Utf8
import Mathlib.Data.List.Basic
import Mathlib.Data.Option.Basic

/-!
# Encoded text

Bytes are text if they encode characters. Text that stands in front of text, or around an ASCII
byte, can be split off, so that a program that moves over text alone never comes to stand inside a
character.
-/

set_option autoImplicit false

namespace LexKit.Utf8

/-! ## Reading a character -/

private theorem begin_one : ∀ code < 0x80,
    begin (UInt8.ofNat code) = ([some (Char.ofNat code)], .between) := by
  decide

private theorem begin_two : ∀ value < 32, 2 ≤ value →
    begin (UInt8.ofNat (value + 0xC0)) = ([], .within value 1 0x80 0xBF) := by
  decide

/-- The second byte has a range of its own where the first gives only zeros, or the bits of a
surrogate. -/
private theorem begin_three : ∀ value < 16, begin (UInt8.ofNat (value + 0xE0)) =
    ([], .within value 2 (if value = 0 then 0xA0 else 0x80) (if value = 13 then 0x9F else 0xBF)) := by
  decide

private theorem begin_four : ∀ value < 5, begin (UInt8.ofNat (value + 0xF0)) =
    ([], .within value 3 (if value = 0 then 0x90 else 0x80) (if value = 4 then 0x8F else 0xBF)) := by
  decide

private theorem unitsFrom_lead {done : List Unit} {byte : UInt8} {progress : Progress}
    (begun : begin byte = ([], progress)) (rest : Bytes) :
    unitsFrom done .between (byte :: rest) = unitsFrom done progress rest := by
  simp [unitsFrom, step, begun]

/-- The value of a continuation byte is behind the bits read so far. -/
private theorem unitsFrom_tail {done : List Unit} {value missing bits : Nat} {low high : UInt8}
    (above : low.toNat ≤ bits + 0x80) (below : bits + 0x80 ≤ high.toNat) (rest : Bytes) :
    unitsFrom done (.within value missing low high) (UInt8.ofNat (bits + 0x80) :: rest) =
      if missing ≤ 1 then unitsFrom (some (Char.ofNat (value * 64 + bits)) :: done) .between rest
      else unitsFrom done (.within (value * 64 + bits) (missing - 1) 0x80 0xBF) rest := by
  have small : (UInt8.ofNat (bits + 0x80)).toNat = bits + 0x80 :=
    UInt8.toNat_ofNat_of_lt (Nat.lt_of_le_of_lt below high.toNat_lt)
  have inside : low ≤ UInt8.ofNat (bits + 0x80) ∧ UInt8.ofNat (bits + 0x80) ≤ high := by
    simp only [UInt8.le_iff_toNat_le, small]
    exact ⟨above, below⟩
  generalize UInt8.ofNat (bits + 0x80) = byte at small inside
  by_cases last : missing ≤ 1 <;> simp [unitsFrom, step, inside, small, last]

theorem unitsFrom_char (done : List Unit) (char : Char) (rest : Bytes) :
    unitsFrom done .between (String.utf8EncodeChar char ++ rest) =
      unitsFrom (some char :: done) .between rest := by
  have valid : char.val.toNat < 0xD800 ∨ 0xDFFF < char.val.toNat ∧ char.val.toNat < 0x110000 :=
    char.valid
  have whole : Char.ofNat char.val.toNat = char := Char.ofNat_toNat char
  unfold String.utf8EncodeChar
  generalize char.val.toNat = code at valid whole
  have tail (bits : Nat) : bits % 64 + 0x80 ≤ 0xBF := by omega
  dsimp only
  split
  · simp [unitsFrom, step, begin_one code (by omega), whole]
  split
  · have first : code / 64 % 32 = code / 64 := by omega
    have bits : code / 64 * 64 + code % 64 = code := by omega
    simp only [List.cons_append, List.nil_append, first]
    rw [unitsFrom_lead (begin_two _ (by omega) (by omega)),
      unitsFrom_tail (Nat.le_add_left _ _) (tail _), if_pos (Nat.le_refl 1), bits, whole]
  split
  · have first : code / 4096 % 16 = code / 4096 := by omega
    have bits : (code / 4096 * 64 + code / 64 % 64) * 64 + code % 64 = code := by omega
    simp only [List.cons_append, List.nil_append, first]
    rw [unitsFrom_lead (begin_three _ (by omega)), unitsFrom_tail ?_ ?_, if_neg (by decide),
      unitsFrom_tail (Nat.le_add_left _ _) (tail _), if_pos (Nat.le_refl 1), bits, whole]
    all_goals
      simp only [apply_ite UInt8.toNat, UInt8.reduceToNat]
      split <;> omega
  · have first : code / 262144 % 8 = code / 262144 := by omega
    have bits : ((code / 262144 * 64 + code / 4096 % 64) * 64 + code / 64 % 64) * 64 + code % 64 =
        code := by omega
    simp only [List.cons_append, List.nil_append, first]
    rw [unitsFrom_lead (begin_four _ (by omega)), unitsFrom_tail ?_ ?_, if_neg (by decide),
      unitsFrom_tail (Nat.le_add_left _ _) (tail _), if_neg (by decide),
      unitsFrom_tail (Nat.le_add_left _ _) (tail _), if_pos (Nat.le_refl 1), bits, whole]
    all_goals
      simp only [apply_ite UInt8.toNat, UInt8.reduceToNat]
      split <;> omega

theorem unitsFrom_done (done : List Unit) (progress : Progress) (bytes : Bytes) :
    unitsFrom done progress bytes = done.reverse ++ unitsFrom [] progress bytes := by
  induction bytes generalizing done progress with
  | nil => simp [unitsFrom]
  | cons byte rest ih =>
      simp only [unitsFrom]
      rw [ih, ih ((step progress byte).1.reverse ++ [])]
      simp

theorem units_encode_append (text : String) (rest : Bytes) :
    units (encode text ++ rest) = text.toList.map some ++ units rest := by
  unfold encode units
  induction text.toList with
  | nil => rfl
  | cons char chars ih =>
      rw [List.flatMap_cons, List.append_assoc, unitsFrom_char, unitsFrom_done, ih]
      rfl

theorem units_encode (text : String) : units (encode text) = text.toList.map some := by
  simpa [units, unitsFrom, finish] using units_encode_append text []

theorem decode?_encode (text : String) : decode? (encode text) = some text := by
  simp [decode?, units_encode]

theorem encode_injective : Function.Injective encode := by
  intro first second same
  have decoded := congrArg decode? same
  simpa [decode?_encode] using decoded

@[simp]
theorem encode_eq_nil {text : String} : encode text = [] ↔ text = "" :=
  ⟨fun empty => encode_injective (empty.trans rfl), fun same => same ▸ rfl⟩

@[simp]
theorem encode_append (first second : String) :
    encode (first ++ second) = encode first ++ encode second := by
  simp [encode]

theorem encode_singleton (char : Char) :
    encode (String.singleton char) = String.utf8EncodeChar char := by
  simp [encode]

private theorem encodeChar_ascii : ∀ code < 0x80,
    String.utf8EncodeChar (Char.ofNat code) = [UInt8.ofNat code] := by
  decide

/-- Text of ASCII characters is read again from its bytes, one by one. -/
theorem decodeAscii_encode {text : String} (ascii : ∀ char ∈ text.toList, char.toNat < 0x80) :
    decodeAscii (encode text) = text.toList := by
  unfold encode
  generalize text.toList = chars at ascii ⊢
  induction chars with
  | nil => rfl
  | cons char chars ih =>
      obtain ⟨small, later⟩ := List.forall_mem_cons.mp ascii
      have single := encodeChar_ascii char.toNat small
      rw [Char.ofNat_toNat] at single
      have code : (UInt8.ofNat char.toNat).toNat = char.toNat :=
        UInt8.toNat_ofNat_of_lt' (Nat.lt_trans small (by decide))
      have below : UInt8.ofNat char.toNat < 0x80 := by
        rw [UInt8.lt_iff_toNat_lt, code]
        exact small
      rw [List.flatMap_cons, single, List.singleton_append, decodeAscii, List.map_cons, ← decodeAscii,
        ih later, if_pos below, code, Char.ofNat_toNat]

/-- An ASCII byte is the whole of a character. -/
private theorem encodeChar_of_mem {char : Char} {byte : UInt8} (ascii : byte < 0x80)
    (member : byte ∈ String.utf8EncodeChar char) : String.utf8EncodeChar char = [byte] := by
  have large {value : Nat} (high : 0x80 ≤ value) (low : value < 0x100)
      (same : byte = UInt8.ofNat value) : False := by
    rw [same, UInt8.lt_iff_toNat_lt, UInt8.toNat_ofNat_of_lt' low] at ascii
    exact absurd ascii (Nat.not_lt_of_le high)
  unfold String.utf8EncodeChar at member ⊢
  generalize char.val.toNat = code at member ⊢
  dsimp only at member ⊢
  split at member
  · rename_i one
    simpa [one] using (List.mem_singleton.mp member).symm
  · exfalso
    -- The bytes of a longer form are bits behind a mark of 0x80 at least.
    split at member
    · simp only [List.mem_cons, List.not_mem_nil, or_false] at member
      rcases member with same | same <;> exact large (by omega) (by omega) same
    split at member
    · simp only [List.mem_cons, List.not_mem_nil, or_false] at member
      rcases member with same | same | same <;> exact large (by omega) (by omega) same
    · simp only [List.mem_cons, List.not_mem_nil, or_false] at member
      rcases member with same | same | same | same <;> exact large (by omega) (by omega) same

theorem char_of_head {char : Char} {byte : UInt8} (ascii : byte < 0x80)
    (first : (String.utf8EncodeChar char).head? = some byte) : char = Char.ofNat byte.toNat := by
  have whole := encodeChar_of_mem ascii (List.mem_of_head? first)
  have also := encodeChar_ascii byte.toNat ascii
  rw [UInt8.ofNat_toNat] at also
  have same : String.singleton char = String.singleton (Char.ofNat byte.toNat) := by
    apply encode_injective
    rw [encode_singleton, encode_singleton, whole, also]
  simpa using congrArg String.toList same

/-- An ASCII byte is found in the encoding of its own character only. -/
theorem mem_encodeChar_iff {char : Char} {byte : UInt8} (ascii : byte < 0x80) :
    byte ∈ String.utf8EncodeChar char ↔ char = Char.ofNat byte.toNat := by
  constructor
  · intro member
    refine char_of_head ascii ?_
    rw [encodeChar_of_mem ascii member]
    rfl
  · rintro rfl
    simp [encodeChar_ascii byte.toNat ascii]

theorem count_encode {byte : UInt8} (ascii : byte < 0x80) (text : String) :
    (encode text).count byte = text.toList.count (Char.ofNat byte.toNat) := by
  unfold encode
  induction text.toList with
  | nil => rfl
  | cons char chars ih =>
      rw [List.flatMap_cons, List.count_append, ih, List.count_cons, Nat.add_comm]
      congr 1
      by_cases own : char = Char.ofNat byte.toNat
      · simp [own, encodeChar_ascii byte.toNat ascii]
      · simp [own, List.count_eq_zero, mem_encodeChar_iff ascii]

theorem decodeLossy_encode (text : String) : decodeLossy (encode text) = text.toList := by
  simp [decodeLossy, units_encode]

theorem exists_char_of_encode {text : String} {byte : UInt8} {rest : Bytes}
    (encoded : encode text = byte :: rest) :
    ∃ char back, text = String.singleton char ++ back ∧
      (String.utf8EncodeChar char).head? = some byte := by
  unfold encode at encoded
  cases shape : text.toList with
  | nil => simp [shape] at encoded
  | cons char chars =>
      have nonempty : String.utf8EncodeChar char ≠ [] := by
        apply List.ne_nil_of_length_pos
        rw [String.length_utf8EncodeChar]
        exact Char.utf8Size_pos char
      refine ⟨char, String.ofList chars, ?_, ?_⟩
      · apply String.toList_injective
        simp [shape]
      · obtain ⟨first, later, begins⟩ := List.exists_cons_of_ne_nil nonempty
        rw [shape, List.flatMap_cons, begins] at encoded
        rw [begins, (List.cons.inj encoded).1]
        rfl

/-- The offset stands between two characters of the text, or at one of its ends. -/
def Boundary (text : String) (offset : Nat) : Prop :=
  ∃ front back, text = front ++ back ∧ offset = (encode front).length

/-! ## Text -/

def IsText (bytes : Bytes) : Prop :=
  ∃ text, encode text = bytes

namespace IsText

variable {front back : Bytes}

theorem nil : IsText [] :=
  ⟨"", rfl⟩

theorem append (first : IsText front) (second : IsText back) : IsText (front ++ back) := by
  obtain ⟨first, rfl⟩ := first
  obtain ⟨second, rfl⟩ := second
  exact ⟨first ++ second, encode_append first second⟩

/-- What decoding reads of the whole goes on behind what it reads of the front. -/
theorem behind (whole : IsText (front ++ back)) (first : IsText front) : IsText back := by
  obtain ⟨text, encoded⟩ := whole
  obtain ⟨first, rfl⟩ := first
  have read := units_encode_append first back
  rw [← encoded, units_encode] at read
  obtain ⟨before, after, split, same, -⟩ := List.map_eq_append_iff.mp read
  have begins : before = first.toList :=
    List.map_injective_iff.mpr (Option.some_injective Char) same
  refine ⟨String.ofList after, ?_⟩
  rw [encode, split, List.flatMap_append, begins] at encoded
  simpa [encode] using encoded

theorem of_ascii {bytes : Bytes} (ascii : ∀ byte ∈ bytes, byte < 0x80) : IsText bytes := by
  induction bytes with
  | nil => exact nil
  | cons byte bytes ih =>
      have first : IsText [byte] := by
        refine ⟨String.singleton (Char.ofNat byte.toNat), ?_⟩
        rw [encode_singleton, encodeChar_ascii byte.toNat (ascii byte List.mem_cons_self),
          UInt8.ofNat_toNat]
      exact first.append (ih fun later member => ascii later (List.mem_cons_of_mem byte member))

/-- An ASCII byte is inside no character. -/
theorem split_at {byte : UInt8} (ascii : byte < 0x80) (whole : IsText (front ++ byte :: back)) :
    IsText front ∧ IsText back := by
  obtain ⟨text, encoded⟩ := whole
  unfold encode at encoded
  generalize text.toList = chars at encoded
  induction chars generalizing front with
  | nil => simp at encoded
  | cons char chars ih =>
      rw [List.flatMap_cons] at encoded
      have first : IsText (String.utf8EncodeChar char) := ⟨_, encode_singleton char⟩
      rcases List.append_eq_append_iff.mp encoded with ⟨between, rfl, rest⟩ | ⟨inside, head, rest⟩
      · obtain ⟨before, after⟩ := ih rest
        exact ⟨first.append before, after⟩
      · cases inside with
        | nil =>
            rw [List.append_nil] at head
            exact ⟨head ▸ first, (@ih [] rest.symm).2⟩
        | cons other inside =>
            obtain ⟨rfl, after⟩ := List.cons.inj rest
            have single : String.utf8EncodeChar char = [byte] :=
              encodeChar_of_mem ascii (by simp [head])
            rw [single] at head
            cases front with
            | nil =>
              obtain ⟨-, rfl⟩ := List.cons.inj head
              exact ⟨nil, String.ofList chars, by simp [encode, after]⟩
            | cons early front => simp at head

end IsText

end LexKit.Utf8
