import LexKit.Proofs.Symbol.Matching

/-!
# Entries in an order given by hand

A hand-ordered list of entries is tried from its beginning, and the first entry that matches wins.
The check of such a list compares literals in pairs and reads no source. It accepts exactly the
lists in which no literal hides a longer one behind it, and then the first match is a longest one
wherever a cursor stands.
-/

set_option autoImplicit false

namespace LexKit

/-- The later literal properly extends the earlier one, which matches wherever the later one is
read. -/
structure SymbolEntry.Hides (earlier later : SymbolEntry) : Prop where
  different : later.literal ≠ earlier.literal
  extends_ : earlier.literal <+: later.literal

namespace SymbolTable

variable {entries later : List SymbolEntry} {shorter longer : SymbolEntry}

private theorem hides_iff :
    (longer.literal != shorter.literal && shorter.literal.isPrefixOf longer.literal) = true ↔
      shorter.Hides longer := by
  simp only [Bool.and_eq_true, bne_iff_ne, ne_eq, List.isPrefixOf_iff_prefix]
  exact ⟨fun ⟨different, extends_⟩ => ⟨different, extends_⟩,
    fun ⟨different, extends_⟩ => ⟨different, extends_⟩⟩

theorem shadowedBy?_eq_none_iff :
    shadowedBy? shorter later = none ↔ ∀ longer ∈ later, ¬shorter.Hides longer := by
  simp only [shadowedBy?, List.find?_eq_none, hides_iff]

/-- The check accepts a list if no entry hides one behind it. -/
theorem validate_eq_ok_iff :
    validate entries = .ok () ↔
      entries.Pairwise fun earlier later => ¬earlier.Hides later := by
  induction entries with
  | nil => simp [validate]
  | cons shorter later ih =>
      rw [validate, List.pairwise_cons, ← ih, ← shadowedBy?_eq_none_iff]
      cases shadowedBy? shorter later with
      | none => simp
      | some longer => simp

/-- The check names an entry that hides one behind it. -/
theorem exists_of_validate_error {fault : SymbolFault} (rejected : validate entries = .error fault) :
    ∃ front shorter middle longer back,
      entries = front ++ shorter :: (middle ++ longer :: back) ∧ shorter.Hides longer ∧
        fault = shadowFault shorter longer := by
  induction entries with
  | nil => simp [validate] at rejected
  | cons first later ih =>
      rw [validate] at rejected
      cases found : shadowedBy? first later with
      | none =>
          rw [found] at rejected
          obtain ⟨front, shorter, middle, longer, back, rfl, hides, named⟩ := ih rejected
          exact ⟨first :: front, shorter, middle, longer, back, rfl, hides, named⟩
      | some longer =>
          rw [found] at rejected
          obtain ⟨taken, middle, back, rfl, -⟩ := List.find?_eq_some_iff_append.mp found
          cases rejected
          exact ⟨[], first, middle, longer, back, rfl, hides_iff.mp taken, rfl⟩

end SymbolTable

namespace Cursor

variable {cursor : Cursor} {entries : List SymbolEntry} {found other : SymbolEntry}

/-- The first accepted entry: those in front of it were looked at and not accepted. -/
theorem firstAccepted_eq_some (matched : cursor.firstAccepted entries = .ok (some found)) :
    ∃ before after, entries = before ++ found :: after ∧ cursor.accepts found = .ok true ∧
      ∀ earlier ∈ before, cursor.accepts earlier = .ok false := by
  induction entries with
  | nil => cases matched
  | cons entry rest ih =>
      rw [firstAccepted_cons] at matched
      cases accepted : cursor.accepts entry with
      | error fault =>
          rw [accepted] at matched
          cases matched
      | ok taken =>
          rw [accepted] at matched
          cases taken with
          | true =>
              cases matched
              exact ⟨[], rest, rfl, accepted, by simp⟩
          | false =>
              obtain ⟨before, after, rfl, taken, refused⟩ := ih matched
              exact ⟨entry :: before, after, rfl, taken,
                List.forall_mem_cons.mpr ⟨accepted, refused⟩⟩

theorem prefix_of_accepts (accepted : cursor.accepts found = .ok true) :
    found.literal <+: cursor.rest := by
  rw [accepts, acceptsBy] at accepted
  cases starts : cursor.startsWith found.literal with
  | false => simp [starts, pure, Except.pure] at accepted
  | true =>
      simp only [startsWith, Bool.and_eq_true, List.isPrefixOf_iff_prefix] at starts
      exact starts.2

/-- No entry that matches at the cursor is longer than the first one. -/
def FirstIsLongest (cursor : Cursor) (entries : List SymbolEntry) : Prop :=
  ∀ found, cursor.firstAccepted entries = .ok (some found) →
    ∀ other ∈ entries, cursor.accepts other = .ok true →
      other.literal.length ≤ found.literal.length

/-- If no entry hides a later one, the first entry accepted anywhere is the longest accepted there.
-/
theorem firstIsLongest_of_pairwise (cursor : Cursor)
    (ordered : entries.Pairwise fun earlier later => ¬earlier.Hides later) :
    cursor.FirstIsLongest entries := by
  intro found matched other member accepted
  obtain ⟨before, after, rfl, taken, refused⟩ := firstAccepted_eq_some matched
  have reads := prefix_of_accepts taken
  have readsAlso := prefix_of_accepts accepted
  rcases List.mem_append.mp member with early | late
  · cases (refused other early).symm.trans accepted
  · rcases List.mem_cons.mp late with rfl | behind
    · exact Nat.le_refl _
    · -- Both literals are read at the cursor, so a longer one would be hidden by the first.
      by_contra longer
      have shown := (List.pairwise_cons.mp (List.pairwise_append.mp ordered).2.1).1 other behind
      refine shown ⟨?_, List.prefix_of_prefix_length_le reads readsAlso (by omega)⟩
      intro same
      exact longer (Nat.le_of_eq (congrArg List.length same))

/-- At the start of a text, an entry that is no word matches if the text begins with its literal. -/
private theorem accepts_plain (text : Bytes) (plain : other.isWord = false) :
    (ofBytes text).accepts other = .ok (other.literal.isPrefixOf text) := by
  have rest : (ofBytes text).rest = text := rest_eq (Int.le_refl 0)
  have inside : (ofBytes text).offset ≤ (ofBytes text).size := Int.natCast_nonneg _
  have starts : (ofBytes text).startsWith other.literal = other.literal.isPrefixOf text := by
    rw [startsWith, rest, decide_eq_true inside, Bool.true_and]
  rw [accepts, acceptsBy, starts, plain]
  cases other.literal.isPrefixOf text with
  | false => rfl
  | true => rfl

private theorem firstAccepted_plain (text : Bytes)
    (plain : ∀ entry ∈ entries, entry.isWord = false) :
    (ofBytes text).firstAccepted entries =
      .ok (entries.find? (·.literal.isPrefixOf text)) := by
  induction entries with
  | nil => rfl
  | cons entry rest ih =>
      obtain ⟨first, later⟩ := List.forall_mem_cons.mp plain
      rw [firstAccepted_cons, accepts_plain text first, List.find?_cons]
      cases entry.literal.isPrefixOf text with
      | false => exact ih later
      | true => rfl

/-- Where a hidden literal is read, the entry that hides it matches, or one in front of that, and
neither is as long. -/
theorem not_firstIsLongest_of_hides {front middle back : List SymbolEntry}
    {shorter longer : SymbolEntry} (hides : shorter.Hides longer)
    (distinct : ((front ++ shorter :: (middle ++ longer :: back)).map SymbolEntry.literal).Nodup)
    (plain : ∀ entry ∈ front ++ shorter :: (middle ++ longer :: back), entry.isWord = false) :
    ¬(ofBytes longer.literal).FirstIsLongest (front ++ shorter :: (middle ++ longer :: back)) := by
  intro longest
  have matched := firstAccepted_plain longer.literal plain
  have split : front ++ shorter :: (middle ++ longer :: back) =
      (front ++ [shorter]) ++ (middle ++ longer :: back) := by simp
  have early : ((front ++ [shorter]).find? (·.literal.isPrefixOf longer.literal)).isSome := by
    simp [List.isPrefixOf_iff_prefix, hides.extends_]
  obtain ⟨found, first⟩ := Option.isSome_iff_exists.mp early
  have reads : found.literal <+: longer.literal := by
    simpa [List.isPrefixOf_iff_prefix] using List.find?_some first
  have member : longer ∈ front ++ shorter :: (middle ++ longer :: back) := by simp
  have accepted : (ofBytes longer.literal).accepts longer = .ok true := by
    rw [accepts_plain _ (plain longer member)]
    simp [List.isPrefixOf_iff_prefix]
  rw [split, List.find?_append, first, ← split] at matched
  have same := reads.eq_of_length_le (longest found matched longer member accepted)
  rw [split, List.map_append] at distinct
  have apart := List.disjoint_of_nodup_append distinct
  exact apart (List.mem_map_of_mem (List.mem_of_find?_eq_some first))
    (same ▸ List.mem_map_of_mem (by simp))

end Cursor

namespace SymbolTable

theorem validate_entries (table : SymbolTable) : validate table.entries = .ok () := by
  refine validate_eq_ok_iff.mpr (table.descending.imp ?_)
  rintro earlier later le ⟨different, extends_⟩
  exact different (extends_.eq_of_length_le le).symm

/-- If the check accepts a list, then at every place of every source the first entry that matches is
as long as any other that matches there. If it rejects one that has no words and no literal twice,
then at the start of some source the first match is not the longest. Tables pass the check. -/
theorem firstIsLongest_of_validate :
    (∀ entries, validate entries = .ok () → ∀ cursor : Cursor, cursor.FirstIsLongest entries) ∧
    (∀ entries fault, (entries.map SymbolEntry.literal).Nodup →
      (∀ entry ∈ entries, entry.isWord = false) → validate entries = .error fault →
        ∃ source, ¬(Cursor.ofBytes source).FirstIsLongest entries) ∧
    ∀ table : SymbolTable, validate table.entries = .ok () := by
  refine ⟨?_, ?_, validate_entries⟩
  · intro entries accepted cursor
    exact cursor.firstIsLongest_of_pairwise (validate_eq_ok_iff.mp accepted)
  · intro entries fault distinct plain rejected
    obtain ⟨front, shorter, middle, longer, back, rfl, hides, -⟩ :=
      exists_of_validate_error rejected
    exact ⟨_, Cursor.not_firstIsLongest_of_hides hides distinct plain⟩

/-- The word `if` and the name `i` it begins with, in the order in which both can match, and two
signs in the order in which one hides the other. -/
theorem firstIsLongest_of_validate_continued_word :
    let words : List SymbolEntry :=
      [⟨Utf8.encode "if", .keywordIf, true⟩, ⟨Utf8.encode "i", .plus, false⟩]
    let signs : List SymbolEntry :=
      [⟨Utf8.encode "<", .less, false⟩, ⟨Utf8.encode "<=", .lessEqual, false⟩]
    validate words = .ok () ∧
      (Cursor.ofBytes (Utf8.encode "ifx")).firstAccepted words =
        .ok (some ⟨Utf8.encode "i", .plus, false⟩) ∧
      (Cursor.ofBytes (Utf8.encode "ifx")).FirstIsLongest words ∧
      validate signs = .error (.shadowed "<=" .lessEqual "<" .less) ∧
      ∃ source, ¬(Cursor.ofBytes source).FirstIsLongest signs := by
  intro words signs
  obtain ⟨sound, complete, -⟩ := firstIsLongest_of_validate
  have accepted : validate words = .ok () := by decide +kernel
  have rejected : validate signs = .error (.shadowed "<=" .lessEqual "<" .less) := by
    decide +kernel
  exact ⟨accepted, by decide +kernel, sound words accepted _, rejected,
    complete signs _ (by decide) (by decide) rejected⟩

end SymbolTable

end LexKit
