import LexKit.Symbol.Entry
import LexKit.Text.Quoted

/-!
# Symbol tables

A table tries its entries in order of descending literal length, entries of equal length in the
order given, and the first that is accepted wins. So a literal is tried before each of its prefixes,
and the first match is the longest.
-/

set_option autoImplicit false

namespace LexKit

namespace SymbolFault

/-- The message of a fault; an unreadable literal leaves none. -/
def message? : SymbolFault → Option String
  | .emptyLiteral kind => some ("empty literal for " ++ kind.name)
  | .payloadKind kind => some (kind.name ++ " carries a payload and cannot be a symbol")
  | .duplicate literal first second =>
      some ("duplicate literal " ++ Text.quote literal ++ " (" ++ first.name ++ " and " ++
        second.name ++ ")")
  | .shadowed literal kind shorter shorterKind =>
      some (Text.quote literal ++ " (" ++ kind.name ++ ") is shadowed by its prefix " ++
        Text.quote shorter ++ " (" ++ shorterKind.name ++ ")")
  | .unreadable => none

end SymbolFault

/-- A table of symbols with distinct, non-empty literals, longest first. -/
structure SymbolTable where
  entries : List SymbolEntry
  nonempty : ∀ entry ∈ entries, entry.literal ≠ []
  symbolic : ∀ entry ∈ entries, entry.kind.hasPayload = false
  distinct : (entries.map SymbolEntry.literal).Nodup
  descending : entries.Pairwise fun earlier later => later.literal.length ≤ earlier.literal.length

namespace SymbolTable

def match? (table : SymbolTable) (rest : Bytes) : Option SymbolEntry :=
  table.entries.find? (·.accepts rest)

/-- Longest first; entries of equal length keep their order. -/
def arrange (entries : List SymbolEntry) : List SymbolEntry :=
  entries.mergeSort fun earlier later => decide (later.literal.length ≤ earlier.literal.length)

def isAdmissible (entry : SymbolEntry) : Bool :=
  !entry.literal.isEmpty && !entry.kind.hasPayload

/-- The first entry whose literal an earlier one has already, with that earlier one. -/
def repeated? (seen : List SymbolEntry) : List SymbolEntry → Option (SymbolEntry × SymbolEntry)
  | [] => none
  | entry :: rest =>
      match seen.find? (·.literal == entry.literal) with
      | some earlier => some (earlier, entry)
      | none => repeated? (entry :: seen) rest

theorem mem_arrange {entries : List SymbolEntry} {entry : SymbolEntry} :
    entry ∈ arrange entries ↔ entry ∈ entries :=
  (List.mergeSort_perm entries _).mem_iff

theorem arrange_descending (entries : List SymbolEntry) :
    (arrange entries).Pairwise
      fun earlier later => later.literal.length ≤ earlier.literal.length := by
  have sorted := @List.pairwise_mergeSort SymbolEntry
    (fun earlier later => decide (later.literal.length ≤ earlier.literal.length))
    (fun _ _ _ first second => by simp only [decide_eq_true_eq] at *; omega)
    (fun _ _ => by simp only [Bool.or_eq_true, decide_eq_true_eq]; omega) entries
  exact sorted.imp fun ordered => of_decide_eq_true ordered

theorem distinct_of_repeated?_eq_none (entries seen : List SymbolEntry)
    (unrepeated : repeated? seen entries = none) :
    (entries.map SymbolEntry.literal).Nodup ∧
      ∀ entry ∈ entries, ∀ earlier ∈ seen, entry.literal ≠ earlier.literal := by
  induction entries generalizing seen with
  | nil => exact ⟨List.nodup_nil, fun _ member => absurd member List.not_mem_nil⟩
  | cons head rest ih =>
      unfold repeated? at unrepeated
      split at unrepeated
      · exact absurd unrepeated (by simp)
      · rename_i absent
        obtain ⟨distinctRest, apart⟩ := ih (head :: seen) unrepeated
        have headApart : ∀ earlier ∈ seen, head.literal ≠ earlier.literal := by
          intro earlier member same
          exact List.find?_eq_none.mp absent earlier member (by simp [same])
        refine ⟨?_, ?_⟩
        · rw [List.map_cons, List.nodup_cons]
          refine ⟨?_, distinctRest⟩
          intro member
          obtain ⟨later, laterMember, same⟩ := List.mem_map.mp member
          exact apart later laterMember head List.mem_cons_self same
        · intro entry member earlier earlierMember
          rcases List.mem_cons.mp member with rfl | member
          · exact headApart earlier earlierMember
          · exact apart entry member earlier (List.mem_cons_of_mem _ earlierMember)

def ofDistinct (entries : List SymbolEntry)
    (admissible : ∀ entry ∈ entries, isAdmissible entry = true)
    (distinct : (entries.map SymbolEntry.literal).Nodup) : SymbolTable where
  entries := arrange entries
  nonempty entry member := by
    have accepted := admissible entry (mem_arrange.mp member)
    simp only [isAdmissible, Bool.and_eq_true, Bool.not_eq_true',
      List.isEmpty_eq_false_iff] at accepted
    exact accepted.1
  symbolic entry member := by
    have accepted := admissible entry (mem_arrange.mp member)
    simp only [isAdmissible, Bool.and_eq_true, Bool.not_eq_true'] at accepted
    exact accepted.2
  distinct := (((List.mergeSort_perm entries _).map SymbolEntry.literal).nodup_iff).mpr distinct
  descending := arrange_descending entries

/-- The fault of a single entry. An empty literal is noticed before a kind with a payload. -/
def entryFault (entry : SymbolEntry) : SymbolFault :=
  if entry.literal.isEmpty then .emptyLiteral entry.kind else .payloadKind entry.kind

def duplicateFault (earlier later : SymbolEntry) : SymbolFault :=
  match Utf8.decode? later.literal with
  | some literal => .duplicate literal earlier.kind later.kind
  | none => .unreadable

/-- Builds a table, or names the first entry that cannot be in one. Entries that are faulty by
themselves come before entries that repeat a literal. -/
def ofEntries (entries : List SymbolEntry) : Except SymbolFault SymbolTable :=
  match single : entries.find? (!isAdmissible ·) with
  | some entry => .error (entryFault entry)
  | none =>
      match pair : repeated? [] entries with
      | some (earlier, later) => .error (duplicateFault earlier later)
      | none =>
          .ok (ofDistinct entries
            (fun entry member => by
              have accepted := List.find?_eq_none.mp single entry member
              simpa only [Bool.not_eq_true', Bool.not_eq_false] using accepted)
            (distinct_of_repeated?_eq_none entries [] pair).1)

def ofPairs (pairs : List (String × TokenKind)) : Except SymbolFault SymbolTable :=
  ofEntries (pairs.map fun (literal, kind) => SymbolEntry.ofText literal kind)

/-- The first of the later entries whose literal properly extends the given one. -/
def shadowedBy? (shorter : SymbolEntry) (later : List SymbolEntry) : Option SymbolEntry :=
  later.find? fun longer =>
    longer.literal != shorter.literal && shorter.literal.isPrefixOf longer.literal

def shadowFault (shorter longer : SymbolEntry) : SymbolFault :=
  match Utf8.decode? longer.literal, Utf8.decode? shorter.literal with
  | some literal, some shorterLiteral =>
      .shadowed literal longer.kind shorterLiteral shorter.kind
  | _, _ => .unreadable

/-- Checks a hand-ordered list of entries for first-match scanning: no literal may come after one of
its proper prefixes. -/
def validate : List SymbolEntry → Except SymbolFault Unit
  | [] => .ok ()
  | shorter :: later =>
      match shadowedBy? shorter later with
      | some longer => .error (shadowFault shorter longer)
      | none => validate later

/-- The keywords, operators and punctuation of the language, longest first. -/
def defaultEntries : List SymbolEntry :=
  [SymbolEntry.ofText "while" .keywordWhile,
    SymbolEntry.ofText "if" .keywordIf,
    SymbolEntry.ofText "<=" .lessEqual,
    SymbolEntry.ofText ">=" .greaterEqual,
    SymbolEntry.ofText "==" .equal,
    SymbolEntry.ofText "!=" .notEqual,
    SymbolEntry.ofText "&&" .and,
    SymbolEntry.ofText "||" .or,
    SymbolEntry.ofText "<" .less,
    SymbolEntry.ofText ">" .greater,
    SymbolEntry.ofText "!" .not,
    SymbolEntry.ofText "+" .plus,
    SymbolEntry.ofText "-" .minus,
    SymbolEntry.ofText "*" .multiply,
    SymbolEntry.ofText "/" .divide,
    SymbolEntry.ofText "=" .assign,
    SymbolEntry.ofText "(" .leftParen,
    SymbolEntry.ofText ")" .rightParen,
    SymbolEntry.ofText "," .comma,
    SymbolEntry.ofText ";" .semicolon,
    SymbolEntry.ofText "[" .leftBracket,
    SymbolEntry.ofText "]" .rightBracket]

def default : SymbolTable where
  entries := defaultEntries
  nonempty := by decide
  symbolic := by decide
  distinct := by decide
  descending := by decide

instance : Inhabited SymbolTable := ⟨default⟩

end SymbolTable

end LexKit
