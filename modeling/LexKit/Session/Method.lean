import LexKit.Session.Basic

/-!
# Actions by parameters

What a user can ask for takes parameters, some of which may be left out. Arguments are filled in by
place; how many there are is checked before anything is done.
-/

set_option autoImplicit false

namespace LexKit

/-- Arguments by the places of their parameters. One that is left out is `none`. -/
structure CallArguments where
  placed : List (Option Object)
  /-- An argument was given twice, or for a parameter that does not exist. -/
  misplaced : Bool

/-- Something to be asked for: a part, which is there whatever the arguments are, or an action. Each
parameter of an action has a default or must be given. -/
inductive Method where
  | part (read : SessionM Object)
  | action (defaults : List (Option Object)) (run : List Object → SessionM Object)

namespace Method

def nullary (run : SessionM Object) : Method :=
  .action [] fun _ => run

def unaryOr (first : Option Object) (run : Object → SessionM Object) : Method :=
  .action [first] fun
    | [first] => run first
    | _ => SessionM.fail .wrongType

def unary (run : Object → SessionM Object) : Method :=
  unaryOr none run

/-- An action with two parameters, of which the second may have a default. -/
def binaryOr (second : Option Object) (run : Object → Object → SessionM Object) : Method :=
  .action [none, second] fun
    | [first, second] => run first second
    | _ => SessionM.fail .wrongType

def binary (run : Object → Object → SessionM Object) : Method :=
  binaryOr none run

/-- An action with three parameters and the defaults of all of them. -/
def ternaryOr (first second third : Option Object)
    (run : Object → Object → Object → SessionM Object) : Method :=
  .action [first, second, third] fun
    | [first, second, third] => run first second third
    | _ => SessionM.fail .wrongType

def ternary (run : Object → Object → Object → SessionM Object) : Method :=
  ternaryOr none none none run

def fill? : List (Option Object) → List (Option Object) → Option (List Object)
  | [], [] => some []
  | [], _ :: _ => none
  | default :: defaults, [] =>
      match default, fill? defaults [] with
      | some object, some rest => some (object :: rest)
      | _, _ => none
  | default :: defaults, given :: placed =>
      match given.or default, fill? defaults placed with
      | some object, some rest => some (object :: rest)
      | _, _ => none

def apply (method : Method) (arguments : CallArguments) : SessionM Object :=
  match method with
  | .part read => read
  | .action defaults run =>
      if arguments.misplaced then SessionM.fail .wrongType
      else
        match fill? defaults arguments.placed with
        | some objects => run objects
        | none => SessionM.fail .wrongType

end Method

end LexKit
