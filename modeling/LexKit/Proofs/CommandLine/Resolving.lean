import LexKit.CommandLine.Run
import LexKit.Proofs.Text.Encoding

/-!
# Options that resolve

Arguments and the files around them either resolve to options or have a fault. The two relations
here tell which, stage by stage: the settings document, the comment marker, the configured size and
the given size. A fault of one stage hides the faults of those behind it.
-/

set_option autoImplicit false

namespace LexKit

namespace Arguments

/-- The settings that are found. There are none where the path leads to no file, or cannot be that
of a file. -/
inductive Finds (arguments : Arguments) (files : Files) : Toml.Table → Prop
  | absent {fault : ReadFault} :
      files arguments.settingsPath = .error fault →
      (arguments.settingsPath.isNameable = true → fault.isAbsence = true) →
      Finds arguments files []
  | document {bytes : Bytes} {text : String} {settings : Toml.Table} :
      files arguments.settingsPath = .ok bytes → Utf8.decode? bytes = some text →
      Toml.Document.parse text = .ok settings →
      Finds arguments files settings

/-- The arena size is the given one, or the configured one if none is given. The configured one must
be a size in either case. -/
inductive SizedBy (arguments : Arguments) (settings : Toml.Table) : Nat → Prop
  | configured {size : Nat} :
      Options.configuredSize settings = .ok size → arguments.arenaSize = none →
      SizedBy arguments settings size
  | given {hidden size : Nat} {text : String} :
      Options.configuredSize settings = .ok hidden → arguments.arenaSize = some (.text text) →
      ByteCount.parse text = .ok size →
      SizedBy arguments settings size

structure Resolves (arguments : Arguments) (files : Files) (options : Options) : Prop where
  found : ∃ settings, Finds arguments files settings ∧
    options.rules.marker = Options.marker arguments settings ∧
    options.rules.strictStrings = Options.strictness arguments settings ∧
    SizedBy arguments settings options.arenaSize
  symbols_eq : options.rules.symbols = SymbolTable.default
  input_eq : options.input = arguments.inputPath?
  debug_eq : options.debug = arguments.debug

/-- Why arguments do not resolve. -/
inductive Unresolved (arguments : Arguments) (files : Files) : OptionFault → Prop
  | unreachable {fault : ReadFault} :
      arguments.settingsPath.isNameable = true →
      files arguments.settingsPath = .error fault → fault.isAbsence = false →
      Unresolved arguments files (.unreachable fault)
  | undecodable {bytes : Bytes} :
      files arguments.settingsPath = .ok bytes → Utf8.decode? bytes = none →
      Unresolved arguments files .undecodable
  | document {bytes : Bytes} {text : String} {problem : Toml.Problem} :
      files arguments.settingsPath = .ok bytes → Utf8.decode? bytes = some text →
      Toml.Document.parse text = .error problem →
      Unresolved arguments files (.document problem)
  | emptyMarker {settings : Toml.Table} :
      Finds arguments files settings → Options.marker arguments settings = "" →
      Unresolved arguments files .emptyMarker
  | configured {settings : Toml.Table} {fault : SizeFault} :
      Finds arguments files settings → Options.marker arguments settings ≠ "" →
      Options.configuredSize settings = .error fault →
      Unresolved arguments files (.size fault)
  | given {settings : Toml.Table} {hidden : Nat} {text : String} {fault : SizeFault} :
      Finds arguments files settings → Options.marker arguments settings ≠ "" →
      Options.configuredSize settings = .ok hidden → arguments.arenaSize = some (.text text) →
      ByteCount.parse text = .error fault →
      Unresolved arguments files (.size fault)
  | lacking {settings : Toml.Table} {hidden : Nat} :
      Finds arguments files settings → Options.marker arguments settings ≠ "" →
      Options.configuredSize settings = .ok hidden → arguments.arenaSize = some .nothing →
      Unresolved arguments files .sizeLacking

end Arguments

namespace CommandLine

open Arguments

variable {arguments : Arguments} {files : Files}

/-! ## Settings -/

private theorem optionsOf_of_absent {fault : ReadFault}
    (unread : files arguments.settingsPath = .error fault)
    (absent : arguments.settingsPath.isNameable = true → fault.isAbsence = true) :
    optionsOf arguments files = Options.ofSettings arguments [] := by
  have nothing : (arguments.settingsPath.isNameable && !fault.isAbsence) = false := by
    cases nameable : arguments.settingsPath.isNameable with
    | false => rfl
    | true => rw [absent nameable]; rfl
  simp only [optionsOf, unread, nothing]
  rfl

private theorem optionsOf_of_ok {bytes : Bytes}
    (found : files arguments.settingsPath = .ok bytes) :
    optionsOf arguments files = Options.resolve arguments (some bytes) := by
  simp only [optionsOf, found]

theorem optionsOf_of_finds {settings : Toml.Table} (finds : arguments.Finds files settings) :
    optionsOf arguments files = Options.ofSettings arguments settings := by
  cases finds with
  | absent unread absent => exact optionsOf_of_absent unread absent
  | document found decoded parsed =>
      rw [optionsOf_of_ok found]
      simp only [Options.resolve, Options.readSettings, decoded, parsed]
      rfl

private theorem finds_or_unresolved (arguments : Arguments) (files : Files) :
    (∃ settings, arguments.Finds files settings) ∨ ∃ fault, arguments.Unresolved files fault := by
  cases read : files arguments.settingsPath with
  | error fault =>
      by_cases absent : arguments.settingsPath.isNameable = true → fault.isAbsence = true
      · exact .inl ⟨_, .absent read absent⟩
      · simp only [Classical.not_imp, Bool.not_eq_true] at absent
        obtain ⟨nameable, present⟩ := absent
        exact .inr ⟨_, .unreachable nameable read present⟩
  | ok bytes =>
      cases decoded : Utf8.decode? bytes with
      | none => exact .inr ⟨_, .undecodable read decoded⟩
      | some text =>
          cases parsed : Toml.Document.parse text with
          | error problem => exact .inr ⟨_, .document read decoded parsed⟩
          | ok settings => exact .inl ⟨_, .document read decoded parsed⟩

/-! ## Markers and sizes -/

variable {settings : Toml.Table}

private theorem ofMarker?_self (rules : ScanRules) :
    ScanRules.ofMarker? rules.marker rules.strictStrings rules.symbols = some rules := by
  simp [ScanRules.ofMarker?, rules.marker_ne]

private theorem exists_ofMarker? {marker : String} (nonempty : marker ≠ "") (strictStrings : Bool)
    (symbols : SymbolTable) :
    ∃ rules, ScanRules.ofMarker? marker strictStrings symbols = some rules ∧
      rules.marker = marker ∧ rules.strictStrings = strictStrings ∧ rules.symbols = symbols := by
  have encoded : Utf8.encode marker ≠ [] := fun empty => nonempty (Utf8.encode_eq_nil.mp empty)
  exact ⟨⟨marker, strictStrings, symbols, encoded⟩, dif_pos encoded, rfl, rfl, rfl⟩

private theorem size_of_sizedBy {size : Nat} (sized : arguments.SizedBy settings size) :
    Options.size arguments settings = .ok size := by
  cases sized with
  | configured usual absent =>
      simp only [Options.size, usual, absent]
      rfl
  | given hidden given parsed =>
      simp only [Options.size, hidden, given, parsed]
      rfl

theorem optionsOf_of_resolves {options : Options} (resolves : arguments.Resolves files options) :
    optionsOf arguments files = .ok options := by
  obtain ⟨⟨settings, finds, marker_eq, strictness_eq, sized⟩, symbols_eq, input_eq, debug_eq⟩ :=
    resolves
  rw [optionsOf_of_finds finds]
  obtain ⟨input, rules, size, debug⟩ := options
  dsimp only at *
  have made := ofMarker?_self rules
  rw [marker_eq, strictness_eq, symbols_eq] at made
  simp only [Options.ofSettings, made, size_of_sizedBy sized, input_eq, debug_eq]
  rfl

theorem optionsOf_of_size_error {fault : OptionFault}
    (finds : arguments.Finds files settings) (nonempty : Options.marker arguments settings ≠ "")
    (refused : Options.size arguments settings = .error fault) :
    optionsOf arguments files = .error fault := by
  obtain ⟨rules, made, -⟩ := exists_ofMarker? nonempty
    (Options.strictness arguments settings) SymbolTable.default
  rw [optionsOf_of_finds finds]
  simp only [Options.ofSettings, made, refused]
  rfl

/-- Every row of `Unresolved` is a fault that the options come to; the stages in front of the
failing one go through. -/
theorem optionsOf_of_unresolved {fault : OptionFault}
    (unresolved : arguments.Unresolved files fault) :
    optionsOf arguments files = .error fault := by
  cases unresolved with
  | unreachable nameable unread present =>
      simp only [optionsOf, unread, nameable, present]
      rfl
  | undecodable found undecoded =>
      rw [optionsOf_of_ok found]
      simp only [Options.resolve, Options.readSettings, undecoded]
      rfl
  | document found decoded problem =>
      rw [optionsOf_of_ok found]
      simp only [Options.resolve, Options.readSettings, decoded, problem]
      rfl
  | emptyMarker finds empty =>
      rw [optionsOf_of_finds finds]
      simp only [Options.ofSettings, empty]
      rfl
  | configured finds nonempty refused =>
      apply optionsOf_of_size_error finds nonempty
      simp only [Options.size, refused]
      rfl
  | given finds nonempty hidden given refused =>
      apply optionsOf_of_size_error finds nonempty
      simp only [Options.size, hidden, given, refused]
      rfl
  | lacking finds nonempty hidden given =>
      apply optionsOf_of_size_error finds nonempty
      simp only [Options.size, hidden, given]
      rfl

private theorem sizedBy_or_unresolved (finds : arguments.Finds files settings)
    (nonempty : Options.marker arguments settings ≠ "") :
    (∃ size, arguments.SizedBy settings size) ∨ ∃ fault, arguments.Unresolved files fault := by
  cases usual : Options.configuredSize settings with
  | error fault => exact .inr ⟨_, .configured finds nonempty usual⟩
  | ok size =>
      cases given : arguments.arenaSize with
      | none => exact .inl ⟨size, .configured usual given⟩
      | some value =>
          cases value with
          | nothing => exact .inr ⟨_, .lacking finds nonempty usual given⟩
          | text text =>
              cases parsed : ByteCount.parse text with
              | error fault => exact .inr ⟨_, .given finds nonempty usual given parsed⟩
              | ok size => exact .inl ⟨size, .given usual given parsed⟩

/-- Arguments resolve or do not. Together with the two theorems above, this makes the relations tell
exactly what the options come to. -/
theorem resolves_or_unresolved (arguments : Arguments) (files : Files) :
    (∃ options, arguments.Resolves files options) ∨ ∃ fault, arguments.Unresolved files fault := by
  rcases finds_or_unresolved arguments files with ⟨settings, finds⟩ | unresolved
  · by_cases empty : Options.marker arguments settings = ""
    · exact .inr ⟨_, .emptyMarker finds empty⟩
    · rcases sizedBy_or_unresolved finds empty with ⟨size, sized⟩ | unresolved
      · obtain ⟨rules, -, marker_eq, strictness_eq, symbols_eq⟩ := exists_ofMarker? empty
          (Options.strictness arguments settings) SymbolTable.default
        exact .inl ⟨⟨arguments.inputPath?, rules, size, arguments.debug⟩,
          ⟨settings, finds, marker_eq, strictness_eq, sized⟩, symbols_eq, rfl, rfl⟩
      · exact .inr unresolved
  · exact .inr unresolved

end CommandLine

end LexKit
