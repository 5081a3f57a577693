import LexKit.Proofs.Scan.Derivation
import LexKit.Proofs.Symbol.Matching
import LexKit.Workspace.Basic

/-!
# The order of the entries given

A table is made of entries in any order. At any one place entries of equal length exclude each
other, so the entries that a cursor reads are tried in the same order in all tables of the same
entries. The tables match the same, and a scan does not tell them apart.
-/

set_option autoImplicit false

namespace LexKit

namespace SymbolTable

variable {entries permuted : List SymbolEntry} {table other : SymbolTable}

theorem repeated?_eq_none {entries seen : List SymbolEntry}
    (distinct : (entries.map SymbolEntry.literal).Nodup)
    (apart : ∀ entry ∈ entries, ∀ earlier ∈ seen, earlier.literal ≠ entry.literal) :
    repeated? seen entries = none := by
  induction entries generalizing seen with
  | nil => rfl
  | cons head rest ih =>
      have absent : seen.find? (·.literal == head.literal) = none := by
        refine List.find?_eq_none.mpr fun earlier member => ?_
        simpa using apart head List.mem_cons_self earlier member
      obtain ⟨fresh, distinctRest⟩ := List.nodup_cons.mp distinct
      rw [repeated?, absent]
      refine ih distinctRest fun entry member earlier earlierMember => ?_
      rcases List.mem_cons.mp earlierMember with rfl | old
      · exact fun same => fresh (List.mem_map.mpr ⟨entry, member, same.symm⟩)
      · exact apart entry (List.mem_cons_of_mem head member) earlier old

theorem ofEntries_eq_ok (accepted : ofEntries entries = .ok table) :
    (∀ entry ∈ entries, isAdmissible entry = true) ∧ (entries.map SymbolEntry.literal).Nodup ∧
      table.entries = arrange entries := by
  unfold ofEntries at accepted
  split at accepted
  · cases accepted
  · rename_i single
    split at accepted
    · cases accepted
    · rename_i pair
      cases accepted
      refine ⟨?_, (distinct_of_repeated?_eq_none entries [] pair).1, rfl⟩
      intro entry member
      simpa using List.find?_eq_none.mp single entry member

theorem exists_ofEntries (admissible : ∀ entry ∈ entries, isAdmissible entry = true)
    (distinct : (entries.map SymbolEntry.literal).Nodup) :
    ∃ table, ofEntries entries = .ok table ∧ table.entries = arrange entries := by
  have single : entries.find? (!isAdmissible ·) = none := by
    refine List.find?_eq_none.mpr fun entry member => ?_
    simp [admissible entry member]
  have pair : repeated? [] entries = none :=
    repeated?_eq_none distinct fun _ _ _ member => absurd member List.not_mem_nil
  unfold ofEntries
  split
  · rename_i found
    cases single.symm.trans found
  · split
    · rename_i found
      cases pair.symm.trans found
    · exact ⟨_, rfl, rfl⟩

theorem mem_of_ofPairs {pairs : List (String × TokenKind)} (made : ofPairs pairs = .ok table)
    {entry : SymbolEntry} (member : entry ∈ table.entries) :
    ∃ pair ∈ pairs, SymbolEntry.ofText pair.1 pair.2 = entry := by
  obtain ⟨-, -, arranged⟩ := ofEntries_eq_ok made
  rw [arranged] at member
  exact List.mem_map.mp (mem_arrange.mp member)

/-- The entries of a table give the table again. -/
theorem ofEntries_entries (table : SymbolTable) : ofEntries table.entries = .ok table := by
  have admissible : ∀ entry ∈ table.entries, isAdmissible entry = true := by
    intro entry member
    simp [isAdmissible, table.nonempty entry member, table.symbolic entry member]
  obtain ⟨other, made, arranged⟩ := exists_ofEntries admissible table.distinct
  have sorted : arrange table.entries = table.entries := by
    apply List.mergeSort_of_pairwise
    exact table.descending.imp fun ordered => decide_eq_true ordered
  rw [sorted] at arranged
  obtain ⟨entries, nonempty, symbolic, distinct, descending⟩ := other
  cases arranged
  exact made

theorem exists_of_perm (accepted : ofEntries entries = .ok table)
    (rearranged : entries.Perm permuted) :
    ∃ other, ofEntries permuted = .ok other ∧ table.entries.Perm other.entries := by
  obtain ⟨admissible, distinct, arranged⟩ := ofEntries_eq_ok accepted
  have literals := rearranged.map SymbolEntry.literal
  obtain ⟨other, made, also⟩ := exists_ofEntries
    (fun entry member => admissible entry (rearranged.mem_iff.mpr member))
    (literals.nodup_iff.mp distinct)
  refine ⟨other, made, ?_⟩
  rw [arranged, also]
  exact (List.mergeSort_perm entries _).trans
    (rearranged.trans (List.mergeSort_perm permuted _).symm)

end SymbolTable

namespace Cursor

variable {table other : SymbolTable}

private theorem firstAccepted_filter (cursor : Cursor) (entries : List SymbolEntry) :
    cursor.firstAccepted (entries.filter (cursor.startsWith ·.literal)) =
      cursor.firstAccepted entries := by
  induction entries with
  | nil => rfl
  | cons entry rest ih =>
      cases starts : cursor.startsWith entry.literal with
      | true =>
          simp only [List.filter_cons, starts, ↓reduceIte]
          rw [firstAccepted_cons, firstAccepted_cons, ih]
      | false =>
          have refused : cursor.accepts entry = .ok false := by
            simp [accepts, acceptsBy, starts, pure, Except.pure]
          simp only [List.filter_cons, starts, Bool.false_eq_true, ↓reduceIte]
          rw [ih, firstAccepted_cons, refused]
          rfl

/-- Among the entries that the cursor reads each one is shorter than those before it. -/
private theorem shrinking_filter (cursor : Cursor) (table : SymbolTable) :
    (table.entries.filter (cursor.startsWith ·.literal)).Pairwise
      fun earlier later => later.literal.length < earlier.literal.length := by
  have distinct : table.entries.Pairwise fun earlier later => earlier ≠ later :=
    List.Nodup.of_map SymbolEntry.literal table.distinct
  have ordered := (table.descending.and distinct).filter (cursor.startsWith ·.literal)
  refine ordered.imp_of_mem ?_
  rintro earlier later early late ⟨le, different⟩
  refine Nat.lt_of_le_of_ne le fun length => different ?_
  have reads : ∀ {entry : SymbolEntry},
      entry ∈ table.entries.filter (cursor.startsWith ·.literal) →
        entry ∈ table.entries ∧ entry.literal <+: cursor.rest := by
    intro entry member
    obtain ⟨known, starts⟩ := List.mem_filter.mp member
    simp only [startsWith, Bool.and_eq_true, List.isPrefixOf_iff_prefix] at starts
    exact ⟨known, starts.2⟩
  obtain ⟨earlyMember, earlyReads⟩ := reads early
  obtain ⟨lateMember, lateReads⟩ := reads late
  exact SymbolTable.eq_of_prefix earlyMember lateMember earlyReads lateReads length.symm

theorem match?_eq_of_perm (rearranged : table.entries.Perm other.entries) (cursor : Cursor) :
    cursor.match? other = cursor.match? table := by
  have same : table.entries.filter (cursor.startsWith ·.literal) =
      other.entries.filter (cursor.startsWith ·.literal) :=
    List.Perm.eq_of_pairwise (fun _ _ _ _ longer shorter => absurd longer (Nat.lt_asymm shorter))
      (shrinking_filter cursor table) (shrinking_filter cursor other) (rearranged.filter _)
  unfold match?
  rw [← firstAccepted_filter, ← same, firstAccepted_filter]

end Cursor

theorem SymbolTable.match?_eq_of_perm {table other : SymbolTable}
    (rearranged : table.entries.Perm other.entries) (rest : Bytes) :
    other.match? rest = table.match? rest := by
  have start : (Cursor.ofBytes rest).rest = rest := Cursor.rest_eq (Int.le_refl 0)
  have same := Cursor.match?_eq_of_perm rearranged (Cursor.ofBytes rest)
  rw [Cursor.match?_eq (Int.le_refl 0), Cursor.match?_eq (Int.le_refl 0), start] at same
  exact Except.ok.inj same

/-! ## Scans with another table -/

namespace Scan

variable {rules : ScanRules} {other : SymbolTable}

theorem skipTrivia_congr {rules other : ScanRules} (marker : other.markerBytes = rules.markerBytes)
    (place : Place) : skipTrivia other place = skipTrivia rules place := by
  fun_induction skipTrivia rules place with
  | case1 place commented ih =>
      have comment : skipComment other place = skipComment rules place := by
        rw [skipComment, marker, ← skipComment]
      rw [← marker] at commented
      rw [skipTrivia, if_pos commented, comment]
      exact ih
  | case2 place uncommented blank ih =>
      rw [← marker] at uncommented
      rw [skipTrivia, if_neg uncommented, if_pos blank]
      exact ih
  | case3 place uncommented unblank =>
      rw [← marker] at uncommented
      rw [skipTrivia, if_neg uncommented, if_neg unblank]

theorem step_symbols (same : ∀ rest, other.match? rest = rules.symbols.match? rest)
    (place : Place) (byte : UInt8) (rest : Bytes) :
    step { rules with symbols := other } place byte rest = step rules place byte rest := by
  simp only [step, same]

/-- A scan uses its table only through what the table matches. Tables that match alike yield the
same tokens. -/
theorem Yields.symbols {place : Place} {tokens : List (Token Bytes)} {ending : ScanEnding}
    (same : ∀ rest, other.match? rest = rules.symbols.match? rest)
    (derived : Yields rules place tokens ending) :
    Yields { rules with symbols := other } place tokens ending := by
  have skips := @skipTrivia_congr rules { rules with symbols := other } rfl
  induction derived with
  | complete ended =>
      exact .complete ((congrArg Place.rest (skips _)).trans ended)
  | failed reads failed =>
      rw [← skips] at reads failed
      exact .failed reads ((step_symbols same _ _ _).trans failed)
  | token reads taken _ ih =>
      rw [← skips] at reads taken
      exact .token reads ((step_symbols same _ _ _).trans taken) ih

/-- A scan asks a table for nothing but its matches. -/
theorem run_symbols (same : ∀ rest, other.match? rest = rules.symbols.match? rest)
    (source : Bytes) : run { rules with symbols := other } source = run rules source :=
  ((yields_runFrom rules (Place.start source)).symbols same).runFrom_eq

end Scan

theorem WorkspaceM.tokenize_symbols {rules : ScanRules} {other : SymbolTable}
    (same : ∀ rest, other.match? rest = rules.symbols.match? rest) (source : Bytes)
    (allocator : AllocatorId) :
    tokenize ⟨source, allocator, { rules with symbols := other }⟩ =
      tokenize ⟨source, allocator, rules⟩ := by
  funext workspace
  simp only [tokenize, PayloadStore.tokenize, Scan.run_symbols same]

namespace SymbolTable

private theorem longestAt_iff {entries : List SymbolEntry} {table : SymbolTable}
    (members : ∀ entry, entry ∈ table.entries ↔ entry ∈ entries) (source : Bytes) (offset : Nat)
    (found : SymbolEntry) :
    table.match? (source.drop offset) = some found ↔ found.LongestAt entries source offset := by
  simp only [match?_eq_some_iff, SymbolEntry.accepts_iff, members]
  exact ⟨fun ⟨member, stands, shorter⟩ => ⟨member, stands, shorter⟩,
    fun longest => ⟨longest.member, longest.stands, longest.shorter⟩⟩

/-- A table matches at a cursor exactly where one of its entries stands there, and the match is the
longest of them. The order in which the entries were given makes no difference to any match, nor to
what a lexer gives for any source, whatever its comment marker, its strictness and its allocator. -/
theorem match_longest_in_any_order {entries : List SymbolEntry} {table : SymbolTable}
    (accepted : ofEntries entries = .ok table) :
    (∀ cursor : Cursor, 0 ≤ cursor.offset →
      cursor.match? table = .ok (table.match? cursor.rest) ∧
      (table.match? cursor.rest = none ↔
        ∀ entry ∈ entries, ¬entry.StandsAt cursor.bytes cursor.offset.toNat) ∧
      ∀ found, table.match? cursor.rest = some found ↔
        found.LongestAt entries cursor.bytes cursor.offset.toNat) ∧
    ∀ permuted, entries.Perm permuted →
      ∃ other, ofEntries permuted = .ok other ∧
        (∀ cursor : Cursor, cursor.match? other = cursor.match? table) ∧
        ∀ rules : ScanRules, rules.symbols = table → ∀ source allocator,
          WorkspaceM.tokenize ⟨source, allocator, { rules with symbols := other }⟩ =
            WorkspaceM.tokenize ⟨source, allocator, rules⟩ := by
  constructor
  · intro cursor natural
    have members : ∀ entry, entry ∈ table.entries ↔ entry ∈ entries := by
      intro entry
      rw [(ofEntries_eq_ok accepted).2.2]
      exact mem_arrange
    refine ⟨Cursor.match?_eq natural table, ?_, ?_⟩
    · simp only [Cursor.rest_eq natural, match?_eq_none_iff, SymbolEntry.accepts_iff, members]
    · intro found
      rw [Cursor.rest_eq natural]
      exact longestAt_iff members _ _ found
  · intro permuted rearranged
    obtain ⟨other, made, same⟩ := exists_of_perm accepted rearranged
    refine ⟨other, made, Cursor.match?_eq_of_perm same, ?_⟩
    rintro rules rfl source allocator
    exact WorkspaceM.tokenize_symbols (match?_eq_of_perm same) source allocator

/-- In front of `ifx` the word `if` is the longest literal, but `x` continues it, and `i` wins in
both orders. -/
theorem match_longest_in_any_order_continued_word :
    ∃ table, ofEntries [⟨Utf8.encode "i", .plus, false⟩, ⟨Utf8.encode "if", .keywordIf, true⟩] =
        .ok table ∧
      (Cursor.ofBytes (Utf8.encode "ifx")).match? table =
        .ok (some ⟨Utf8.encode "i", .plus, false⟩) ∧
      ∃ other,
        ofEntries [⟨Utf8.encode "if", .keywordIf, true⟩, ⟨Utf8.encode "i", .plus, false⟩] =
          .ok other ∧
        (Cursor.ofBytes (Utf8.encode "ifx")).match? other =
          .ok (some ⟨Utf8.encode "i", .plus, false⟩) := by
  obtain ⟨table, accepted, -⟩ := @exists_ofEntries
    [⟨Utf8.encode "i", .plus, false⟩, ⟨Utf8.encode "if", .keywordIf, true⟩]
    (by decide) (by decide)
  obtain ⟨matches_, reordered⟩ := match_longest_in_any_order accepted
  obtain ⟨finds, -, longest⟩ := matches_ (Cursor.ofBytes (Utf8.encode "ifx")) (Int.le_refl 0)
  obtain ⟨other, made, same, -⟩ := reordered _ (List.Perm.swap _ _ [])
  have found : (Cursor.ofBytes (Utf8.encode "ifx")).match? table =
      .ok (some ⟨Utf8.encode "i", .plus, false⟩) := by
    rw [finds, (longest ⟨Utf8.encode "i", .plus, false⟩).mpr ?_]
    refine ⟨List.mem_cons_self, ⟨by decide, nofun⟩, ?_⟩
    intro rival member stands different
    rcases List.mem_pair.mp member with rfl | rfl
    · exact absurd rfl different
    · exact absurd (stands.ends rfl _ rfl) (by decide)
  exact ⟨table, accepted, found, other, made, (same _).trans found⟩

end SymbolTable

end LexKit
