/-!
# File paths

A path is a sequence of names, possibly from a root. Empty names and single dots say nothing and are
dropped; double dots stay, because a directory may have been reached through a link.
-/

set_option autoImplicit false

namespace LexKit

structure FilePath where
  /-- The slashes that the path begins with: none, one or two. -/
  root : String
  names : List String
deriving DecidableEq, Repr

namespace FilePath

/-- Exactly two slashes at the beginning are a root of their own; more count as one. -/
def rootOf (chars : List Char) : String :=
  match (chars.takeWhile (· == '/')).length with
  | 0 => ""
  | 2 => "//"
  | _ => "/"

def prependToNames (char : Char) : List (List Char) → List (List Char)
  | [] => if char == '/' then [[], []] else [[char]]
  | first :: rest => if char == '/' then [] :: first :: rest else (char :: first) :: rest

def namesOf (chars : List Char) : List (List Char) :=
  chars.foldr prependToNames [[]]

def saysNothing (name : List Char) : Bool :=
  name.isEmpty || name == ['.']

def parse (text : String) : FilePath :=
  let chars := text.toList
  ⟨rootOf chars, ((namesOf chars).filter (!saysNothing ·)).map String.ofList⟩

/-- The path as text; the path without root and names is a dot. -/
def text (path : FilePath) : String :=
  if path.root.isEmpty && path.names.isEmpty then "."
  else path.root ++ "/".intercalate path.names

/-- No file can have a name with the NUL character in it. -/
def isNameable (path : FilePath) : Bool :=
  !path.text.toList.contains '\x00'

def parent (path : FilePath) : FilePath :=
  { path with names := path.names.dropLast }

def entry (directory : FilePath) (name : String) : FilePath :=
  { directory with names := directory.names ++ [name] }

end FilePath

end LexKit
