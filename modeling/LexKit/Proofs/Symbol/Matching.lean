import LexKit.Cursor
import Mathlib.Data.List.Nodup

/-!
# The match at a cursor

A table tries its entries one after the other and takes the first that is accepted. As its literals
are distinct and the longer ones come first, this is the longest of all entries that stand at the
cursor, and only one entry has this length.
-/

set_option autoImplicit false

namespace LexKit

namespace SymbolEntry

/-- The source reads the literal at the offset. No identifier character follows if it is a word. -/
structure StandsAt (entry : SymbolEntry) (source : Bytes) (offset : Nat) : Prop where
  literal : entry.literal <+: source.drop offset
  ends : entry.isWord = true → ∀ follower,
    source[offset + entry.literal.length]? = some follower → Byte.isIdentifierPart follower = false

/-- Of all entries that stand at the offset, this one alone has the longest literal. -/
structure LongestAt (entry : SymbolEntry) (entries : List SymbolEntry) (source : Bytes)
    (offset : Nat) : Prop where
  member : entry ∈ entries
  stands : entry.StandsAt source offset
  shorter : ∀ other ∈ entries, other.StandsAt source offset → other ≠ entry →
    other.literal.length < entry.literal.length

theorem endsWord_iff (after : Bytes) :
    endsWord after = true ↔
      ∀ follower, after[0]? = some follower → Byte.isIdentifierPart follower = false := by
  cases after with
  | nil => simp [endsWord]
  | cons byte rest => simp [endsWord]

theorem accepts_iff {entry : SymbolEntry} {source : Bytes} {offset : Nat} :
    entry.accepts (source.drop offset) = true ↔ entry.StandsAt source offset := by
  have follower : ((source.drop offset).drop entry.literal.length)[0]? =
      source[offset + entry.literal.length]? := by simp
  simp only [accepts, Bool.and_eq_true, Bool.or_eq_true, Bool.not_eq_true',
    List.isPrefixOf_iff_prefix, endsWord_iff, follower]
  constructor
  · rintro ⟨reads, plain | ends⟩
    · refine ⟨reads, fun word => ?_⟩
      simp [plain] at word
    · exact ⟨reads, fun _ => ends⟩
  · intro stands
    refine ⟨stands.literal, ?_⟩
    cases word : entry.isWord with
    | false => exact .inl rfl
    | true => exact .inr (stands.ends word)

theorem accepts_prefix {entry : SymbolEntry} {rest : Bytes} (accepted : entry.accepts rest = true) :
    entry.literal <+: rest := by
  simp only [accepts, Bool.and_eq_true, List.isPrefixOf_iff_prefix] at accepted
  exact accepted.1

end SymbolEntry

namespace SymbolTable

variable {table : SymbolTable} {rest : Bytes}

/-- No two entries of a table have one literal, so the literal of a match tells the entry. -/
theorem eq_of_literal_eq {first second : SymbolEntry} (member : first ∈ table.entries)
    (also : second ∈ table.entries) (same : first.literal = second.literal) : first = second :=
  List.inj_on_of_nodup_map table.distinct member also same

/-- Entries of one length that are read at one place are the same entry. -/
theorem eq_of_prefix {first second : SymbolEntry} (member : first ∈ table.entries)
    (also : second ∈ table.entries) (reads : first.literal <+: rest)
    (readsAlso : second.literal <+: rest)
    (length : first.literal.length = second.literal.length) : first = second := by
  have extends_ := List.prefix_of_prefix_length_le reads readsAlso (Nat.le_of_eq length)
  exact eq_of_literal_eq member also (extends_.eq_of_length length)

private theorem shorter_of_match? {found other : SymbolEntry}
    (matched : table.match? rest = some found) (member : other ∈ table.entries)
    (accepted : other.accepts rest = true) (different : other ≠ found) :
    other.literal.length < found.literal.length := by
  obtain ⟨taken, before, after, split, refused⟩ := List.find?_eq_some_iff_append.mp matched
  have foundMember : found ∈ table.entries := List.mem_of_find?_eq_some matched
  have behind : other ∈ after := by
    rw [split] at member
    rcases List.mem_append.mp member with early | late
    · simpa [accepted] using refused other early
    · exact (List.mem_cons.mp late).resolve_left different
  have descending := table.descending
  rw [split] at descending
  have le := (List.pairwise_cons.mp (List.pairwise_append.mp descending).2.1).1 other behind
  refine Nat.lt_of_le_of_ne le fun length => different ?_
  exact eq_of_prefix member foundMember (SymbolEntry.accepts_prefix accepted)
    (SymbolEntry.accepts_prefix taken) length

/-- The match is the one accepted entry that is longer than all others. -/
theorem match?_eq_some_iff {found : SymbolEntry} :
    table.match? rest = some found ↔
      found ∈ table.entries ∧ found.accepts rest = true ∧
        ∀ other ∈ table.entries, other.accepts rest = true → other ≠ found →
          other.literal.length < found.literal.length := by
  constructor
  · intro matched
    refine ⟨List.mem_of_find?_eq_some matched, by simpa using List.find?_some matched, ?_⟩
    intro other member accepted different
    exact shorter_of_match? matched member accepted different
  · rintro ⟨member, accepted, longest⟩
    cases matched : table.match? rest with
    | none =>
        have refused := List.find?_eq_none.mp matched found member
        exact absurd accepted refused
    | some first =>
        by_cases same : first = found
        · rw [same]
        · have firstAccepted : first.accepts rest = true := by simpa using List.find?_some matched
          have shorter := longest first (List.mem_of_find?_eq_some matched) firstAccepted same
          have longer := shorter_of_match? matched member accepted (Ne.symm same)
          omega

theorem match?_eq_none_iff :
    table.match? rest = none ↔ ∀ entry ∈ table.entries, ¬entry.accepts rest = true :=
  List.find?_eq_none

end SymbolTable

namespace Cursor

variable {cursor : Cursor}

theorem rest_eq (natural : 0 ≤ cursor.offset) :
    cursor.rest = cursor.bytes.drop cursor.offset.toNat := by
  unfold rest sliceBound size
  rw [if_neg (Int.not_lt.mpr natural)]
  rcases Nat.le_total cursor.offset.toNat cursor.bytes.length with inside | beyond
  · rw [Nat.min_eq_left inside]
  · rw [Nat.min_eq_right beyond, List.drop_length, List.drop_of_length_le beyond]

theorem peek_eq (natural : 0 ≤ cursor.offset) (ahead : Nat) :
    cursor.peek ahead = .ok cursor.bytes[cursor.offset.toNat + ahead]? := by
  unfold peek byteAt size
  dsimp only
  have place : (cursor.offset + ahead).toNat = cursor.offset.toNat + ahead := by omega
  split
  · rename_i inside
    have known : cursor.offset.toNat + ahead < cursor.bytes.length := by omega
    rw [if_neg (by omega), if_neg (by omega), place, List.getElem?_eq_getElem known]
    rfl
  · rw [List.getElem?_eq_none (by omega)]

theorem startsWith_eq (natural : 0 ≤ cursor.offset) {literal : Bytes} (nonempty : literal ≠ []) :
    cursor.startsWith literal = literal.isPrefixOf cursor.rest := by
  unfold startsWith
  by_cases inside : cursor.offset ≤ cursor.size
  · rw [decide_eq_true inside, Bool.true_and]
  · have ended : cursor.rest = [] := by
      rw [rest_eq natural, List.drop_eq_nil_iff]
      unfold size at inside
      omega
    rw [decide_eq_false inside, ended, Bool.false_and]
    cases literal with
    | nil => exact absurd rfl nonempty
    | cons byte literal => rfl

theorem head_drop_rest (natural : 0 ≤ cursor.offset) (ahead : Nat) :
    (cursor.rest.drop ahead).head? = cursor.bytes[cursor.offset.toNat + ahead]? := by
  rw [rest_eq natural, List.drop_drop, List.head?_drop]

theorem accepts_eq (natural : 0 ≤ cursor.offset) {entry : SymbolEntry}
    (nonempty : entry.literal ≠ []) :
    cursor.accepts entry = .ok (entry.accepts cursor.rest) := by
  have behind := head_drop_rest natural entry.literal.length
  simp only [accepts, acceptsBy, startsWith_eq natural nonempty, SymbolEntry.accepts,
    SymbolEntry.endsWord, behind, peek_eq natural]
  cases entry.literal.isPrefixOf cursor.rest with
  | false => rfl
  | true =>
      cases entry.isWord with
      | false => rfl
      | true =>
          cases cursor.bytes[cursor.offset.toNat + entry.literal.length]? with
          | none => rfl
          | some follower => rfl

private theorem firstAccepted_eq (natural : 0 ≤ cursor.offset) {entries : List SymbolEntry}
    (nonempty : ∀ entry ∈ entries, entry.literal ≠ []) :
    cursor.firstAccepted entries = .ok (entries.find? (·.accepts cursor.rest)) := by
  induction entries with
  | nil => rfl
  | cons entry rest ih =>
      have later := ih fun other member => nonempty other (List.mem_cons_of_mem _ member)
      rw [firstAccepted_cons, accepts_eq natural (nonempty entry List.mem_cons_self), List.find?_cons]
      cases entry.accepts cursor.rest with
      | false => exact later
      | true => rfl

/-- A cursor that is not in front of the beginning finds the match of what it reads. -/
theorem match?_eq (natural : 0 ≤ cursor.offset) (table : SymbolTable) :
    cursor.match? table = .ok (table.match? cursor.rest) :=
  firstAccepted_eq natural table.nonempty

end Cursor

end LexKit
