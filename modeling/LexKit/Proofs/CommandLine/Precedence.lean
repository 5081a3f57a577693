import LexKit.Proofs.CommandLine.Resolving

/-!
# Precedence

An option has the value that a flag gives it, or else the one that the settings give it with the
right type, or else its default. What a flag overrides in the settings does not matter, with one
exception: a configured arena size is read before the flag is looked at, and has to be a byte count
even if it has no effect.
-/

set_option autoImplicit false

namespace LexKit

namespace Toml

namespace Value

def text? : Value → Option String
  | .text content => some content
  | _ => none

def boolean? : Value → Option Bool
  | .boolean truth => some truth
  | _ => none

/-- Integers and texts are read as byte counts, and truth values are not integers. -/
def byteCount? : Value → Option (Except SizeFault Nat)
  | .integer number => some (ByteCount.ofInt number)
  | .text content => some (ByteCount.parse content)
  | _ => none

end Value

def Table.setting? (settings : Table) (group name : String) : Option Value :=
  (settings.inner group).find? name

end Toml

def GivenValue.content : GivenValue → String
  | .text content => content
  | .nothing => ""

/-- Where an option has its value from. A configured value that cannot be read counts as absent. -/
inductive Effective {Kind : Type} (read? : Toml.Value → Option Kind) (default : Kind)
    (given : Option Kind) (configured : Option Toml.Value) : Kind → Prop where
  | given {value : Kind} : given = some value → Effective read? default given configured value
  | configured {found : Toml.Value} {value : Kind} :
      given = none → configured = some found → read? found = some value →
      Effective read? default given configured value
  | default : given = none → (∀ found, configured = some found → read? found = none) →
      Effective read? default given configured default

/-- The value in effect is the given one, or else the configured one if it can be read as such a
value, or else the default. -/
theorem effective_iff {Kind : Type} {read? : Toml.Value → Option Kind} {default : Kind}
    {given : Option Kind} {configured : Option Toml.Value} {value : Kind} :
    Effective read? default given configured value ↔
      value = given.getD ((configured.bind read?).getD default) := by
  constructor
  · rintro (rfl | ⟨rfl, rfl, read⟩ | ⟨rfl, unread⟩)
    · rfl
    · simp [read]
    · cases configured with
      | none => rfl
      | some found => simp [unread found rfl]
  · rintro rfl
    cases given with
    | some value => exact .given rfl
    | none =>
        cases configured with
        | none => exact .default rfl (by simp)
        | some found =>
            cases read : read? found with
            | none =>
                simp only [Option.bind_some, read, Option.getD_none]
                exact .default rfl (by simp [read])
            | some value =>
                simp only [Option.bind_some, read, Option.getD_some, Option.getD_none]
                exact .configured rfl rfl read

structure Arguments.Agree (arguments : Arguments) (left right : Toml.Table) : Prop where
  comment : arguments.comment = none →
    left.setting? "lexer" "comment" = right.setting? "lexer" "comment"
  strictStrings : arguments.strictStrings = none →
    left.setting? "lexer" "strict_strings" = right.setting? "lexer" "strict_strings"
  arenaSize : arguments.arenaSize = none →
    left.setting? "arena" "size" = right.setting? "arena" "size"

namespace Arguments

variable {arguments : Arguments} {files : Files} {settings : Toml.Table}

theorem Finds.eq {other : Toml.Table} (left : arguments.Finds files settings)
    (right : arguments.Finds files other) : settings = other := by
  cases left with
  | absent unread =>
      cases right with
      | absent => rfl
      | document found => cases unread.symm.trans found
  | document found decoded parsed =>
      cases right with
      | absent unread => cases unread.symm.trans found
      | document again same also =>
          cases found.symm.trans again
          cases decoded.symm.trans same
          exact Except.ok.inj (parsed.symm.trans also)

theorem SizedBy.getD_eq {count : Nat} (sized : arguments.SizedBy settings count) :
    (arguments.arenaSize.map (ByteCount.parse ·.content)).getD (Options.configuredSize settings) =
      .ok count := by
  cases sized with
  | configured usual absent => simp [absent, usual]
  | given _ given parsed => simp [given, GivenValue.content, parsed]

end Arguments

namespace Options

variable {arguments : Arguments} {left right : Toml.Table}

theorem configuredMarker_eq (settings : Toml.Table) :
    configuredMarker settings =
      ((settings.setting? "lexer" "comment").bind Toml.Value.text?).getD
        ScanRules.default.marker := by
  unfold configuredMarker Toml.Table.setting?
  cases (settings.inner "lexer").find? "comment" with
  | none => rfl
  | some found => cases found <;> rfl

theorem configuredStrictness_eq (settings : Toml.Table) :
    configuredStrictness settings =
      ((settings.setting? "lexer" "strict_strings").bind Toml.Value.boolean?).getD
        ScanRules.default.strictStrings := by
  unfold configuredStrictness Toml.Table.setting?
  cases (settings.inner "lexer").find? "strict_strings" with
  | none => rfl
  | some found => cases found <;> rfl

theorem configuredSize_eq (settings : Toml.Table) :
    configuredSize settings =
      ((settings.setting? "arena" "size").bind Toml.Value.byteCount?).getD (.ok 0) := by
  unfold configuredSize Toml.Table.setting?
  cases (settings.inner "arena").find? "size" with
  | none => rfl
  | some found => cases found <;> rfl

/-- A given marker goes before a configured one, also where it is empty and therefore useless. -/
theorem marker_eq (arguments : Arguments) (settings : Toml.Table) :
    marker arguments settings =
      (arguments.comment.map GivenValue.content).getD (configuredMarker settings) := by
  unfold marker
  cases arguments.comment with
  | none => rfl
  | some given => cases given <;> rfl

theorem marker_congr (agree : arguments.Agree left right) :
    marker arguments left = marker arguments right := by
  rw [marker_eq, marker_eq]
  cases given : arguments.comment with
  | none => rw [configuredMarker_eq, configuredMarker_eq, agree.comment given]
  | some value => rfl

theorem strictness_congr (agree : arguments.Agree left right) :
    strictness arguments left = strictness arguments right := by
  unfold strictness
  cases given : arguments.strictStrings with
  | none => rw [configuredStrictness_eq, configuredStrictness_eq, agree.strictStrings given]
  | some value => rfl

/-- The size in effect is the same if one is given, as long as both configured ones can be read. -/
theorem size_congr (agree : arguments.Agree left right)
    (readable : arguments.arenaSize ≠ none →
      (∃ count, configuredSize left = .ok count) ∧ ∃ count, configuredSize right = .ok count) :
    size arguments left = size arguments right := by
  unfold size
  cases given : arguments.arenaSize with
  | none => rw [configuredSize_eq, configuredSize_eq, agree.arenaSize given]
  | some value =>
      obtain ⟨⟨first, usual⟩, second, unusual⟩ := readable (by simp [given])
      rw [usual, unusual]
      cases value <;> rfl

theorem ofSettings_congr (agree : arguments.Agree left right)
    (readable : arguments.arenaSize ≠ none →
      (∃ count, configuredSize left = .ok count) ∧ ∃ count, configuredSize right = .ok count) :
    ofSettings arguments left = ofSettings arguments right := by
  unfold ofSettings
  rw [marker_congr agree, strictness_congr agree, size_congr agree readable]

end Options

namespace CommandLine

open Arguments

variable {arguments : Arguments} {files : Files} {settings : Toml.Table}

theorem resolves_of_optionsOf {options : Options}
    (resolved : optionsOf arguments files = .ok options) :
    arguments.Resolves files options := by
  rcases resolves_or_unresolved arguments files with ⟨other, resolves⟩ | ⟨fault, unresolved⟩
  · cases (optionsOf_of_resolves resolves).symm.trans resolved
    exact resolves
  · cases (optionsOf_of_unresolved unresolved).symm.trans resolved

/-- Settings that agree in what the flags leave to them resolve alike, faults included, provided
that an overridden arena size can be read; one that cannot be read is a fault all the same, unless
the marker is empty, which is noticed first. Each option in effect is the given one, or else the
configured one if that has the right type, or else the default. -/
theorem precedence_of_optionsOf (finds : arguments.Finds files settings) :
    (∀ (others : Files) (otherSettings : Toml.Table), arguments.Finds others otherSettings →
      arguments.Agree settings otherSettings →
      (arguments.arenaSize ≠ none →
        (∃ count, Options.configuredSize settings = .ok count) ∧
          ∃ count, Options.configuredSize otherSettings = .ok count) →
      optionsOf arguments files = optionsOf arguments others) ∧
    (∀ fault, Options.configuredSize settings = .error fault →
      optionsOf arguments files =
        .error (if Options.marker arguments settings = "" then .emptyMarker else .size fault)) ∧
    ∀ options, optionsOf arguments files = .ok options →
      Effective Toml.Value.text? "//" (arguments.comment.map GivenValue.content)
        (settings.setting? "lexer" "comment") options.rules.marker ∧
      Effective Toml.Value.boolean? false arguments.strictStrings
        (settings.setting? "lexer" "strict_strings") options.rules.strictStrings ∧
      Effective Toml.Value.byteCount? (.ok 0)
        (arguments.arenaSize.map (ByteCount.parse ·.content))
        (settings.setting? "arena" "size") (.ok options.arenaSize) := by
  refine ⟨?_, ?_, ?_⟩
  · intro others otherSettings found agree readable
    rw [optionsOf_of_finds finds, optionsOf_of_finds found,
      Options.ofSettings_congr agree readable]
  · intro fault refused
    split
    · rename_i empty
      exact optionsOf_of_unresolved (.emptyMarker finds empty)
    · rename_i nonempty
      exact optionsOf_of_unresolved (.configured finds nonempty refused)
  · intro options resolved
    obtain ⟨⟨same, found, marker_eq, strictness_eq, sized⟩, -⟩ := resolves_of_optionsOf resolved
    cases finds.eq found
    refine ⟨effective_iff.mpr ?_, effective_iff.mpr ?_, effective_iff.mpr ?_⟩
    · rw [marker_eq, Options.marker_eq, Options.configuredMarker_eq]
      rfl
    · rw [strictness_eq, Options.strictness, Options.configuredStrictness_eq]
      rfl
    · rw [← sized.getD_eq, Options.configuredSize_eq]

def besideInput (document : String) : Files := fun path =>
  if path = .parse Arguments.settingsName then .ok (Utf8.encode document) else .error .missing

theorem finds_besideInput {document : String}
    (beside : arguments.settingsPath = .parse Arguments.settingsName)
    (parsed : Toml.Document.parse document = .ok settings) :
    arguments.Finds (besideInput document) settings :=
  .document (if_pos beside) (Utf8.decode?_encode document) parsed

/-- Which options of a scan a document has something to say about, and how it sizes the arena. -/
private def sketch (document : String) : Option (Bool × Bool × Option Nat) :=
  match Toml.Document.parse document with
  | .ok settings =>
      some ((settings.setting? "lexer" "comment").isSome,
        (settings.setting? "lexer" "strict_strings").isSome,
        (Options.configuredSize settings).toOption)
  | .error _ => none

private theorem exists_of_sketch {document : String} {comment strictness : Bool}
    {size : Option Nat} (sketched : sketch document = some (comment, strictness, size)) :
    ∃ settings, Toml.Document.parse document = .ok settings ∧
      (settings.setting? "lexer" "comment").isSome = comment ∧
      (settings.setting? "lexer" "strict_strings").isSome = strictness ∧
      (Options.configuredSize settings).toOption = size := by
  unfold sketch at sketched
  split at sketched
  · rename_i settings parsed
    simp only [Option.some.injEq, Prod.mk.injEq] at sketched
    exact ⟨settings, parsed, sketched⟩
  · cases sketched

private theorem eq_ok_of_toOption {Problem Value : Type} {result : Except Problem Value}
    {value : Value} (succeeded : result.toOption = some value) : result = .ok value := by
  cases result with
  | error problem => cases succeeded
  | ok other => exact congrArg Except.ok (Option.some.inj succeeded)

/-- Two flags override a marker and a number on the one hand, a number and a text on the other. The
third option is left to documents that say nothing about it. -/
theorem precedence_of_optionsOf_flags :
    let words := ["--comment", "#", "--arena-size", "64"]
    let arguments : Arguments := ⟨"-", none, some (.text "#"), none, some (.text "64"), false⟩
    let files := besideInput "lexer.comment = ';;'\narena.size = 2048"
    let others := besideInput "[lexer]\ncomment = 5\n[arena]\nsize = '2K'"
    Request.parse words = .ok (.scan arguments) ∧
      ∃ left right options, arguments.Finds files left ∧ arguments.Finds others right ∧
        arguments.Agree left right ∧ optionsOf arguments files = .ok options ∧
        optionsOf arguments others = .ok options ∧ options.rules.marker = "#" ∧
        options.rules.strictStrings = false ∧ options.arenaSize = 64 := by
  intro words arguments files others
  have beside : arguments.settingsPath = .parse Arguments.settingsName := by decide +kernel
  obtain ⟨left, parsed, -, silent, sized⟩ := exists_of_sketch
    (by decide +kernel : sketch "lexer.comment = ';;'\narena.size = 2048" =
      some (true, false, some 2048))
  obtain ⟨right, parsedAlso, -, silentAlso, sizedAlso⟩ := exists_of_sketch
    (by decide +kernel : sketch "[lexer]\ncomment = 5\n[arena]\nsize = '2K'" =
      some (true, false, some 2048))
  simp only [Option.isSome_eq_false_iff, Option.isNone_iff_eq_none] at silent silentAlso
  have finds : arguments.Finds files left := finds_besideInput beside parsed
  have found : arguments.Finds others right := finds_besideInput beside parsedAlso
  have agree : arguments.Agree left right :=
    ⟨by simp [arguments], fun _ => silent.trans silentAlso.symm, by simp [arguments]⟩
  have resolved : (optionsOf arguments files).toOption.isSome = true := by decide +kernel
  obtain ⟨options, reached⟩ := Option.isSome_iff_exists.mp resolved
  have left_eq := eq_ok_of_toOption reached
  obtain ⟨alike, -, effective⟩ := precedence_of_optionsOf finds
  have right_eq := alike others right found agree fun _ =>
    ⟨⟨_, eq_ok_of_toOption sized⟩, _, eq_ok_of_toOption sizedAlso⟩
  obtain ⟨marked, strict, bounded⟩ := effective options left_eq
  rw [effective_iff] at marked strict bounded
  rw [silent] at strict
  have given : ByteCount.parse "64" = .ok 64 := by decide +kernel
  exact ⟨by decide +kernel, left, right, options, finds, found, agree, left_eq,
    right_eq.symm.trans left_eq, marked, strict, Except.ok.inj (bounded.trans given)⟩

/-- A configured size that cannot be read is a fault although another one is given. -/
theorem not_overridden_configured_size :
    let arguments : Arguments := ⟨"-", none, none, none, some (.text "64"), false⟩
    let files := besideInput "[arena]\nsize = \"x\"\n"
    let others := besideInput ""
    Request.parse ["--arena-size=64"] = .ok (.scan arguments) ∧
      ∃ left right, arguments.Finds files left ∧ arguments.Finds others right ∧
        arguments.Agree left right ∧ optionsOf arguments files ≠ optionsOf arguments others := by
  intro arguments files others
  have beside : arguments.settingsPath = .parse Arguments.settingsName := by decide +kernel
  obtain ⟨left, parsed, unmarked, silent, -⟩ := exists_of_sketch
    (by decide +kernel : sketch "[arena]\nsize = \"x\"\n" = some (false, false, none))
  obtain ⟨right, parsedAlso, unmarkedAlso, silentAlso, -⟩ := exists_of_sketch
    (by decide +kernel : sketch "" = some (false, false, some 0))
  simp only [Option.isSome_eq_false_iff, Option.isNone_iff_eq_none]
    at unmarked silent unmarkedAlso silentAlso
  refine ⟨by decide +kernel, left, right, finds_besideInput beside parsed,
    finds_besideInput beside parsedAlso, ?_, ?_⟩
  · exact ⟨fun _ => unmarked.trans unmarkedAlso.symm, fun _ => silent.trans silentAlso.symm,
      by simp [arguments]⟩
  · intro same
    have faulty : (optionsOf arguments files).toOption.isSome = false := by decide +kernel
    have sound : (optionsOf arguments others).toOption.isSome = true := by decide +kernel
    rw [same, sound] at faulty
    cases faulty

end CommandLine

end LexKit
