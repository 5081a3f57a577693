import LexKit.Files.Path
import LexKit.Text.Utf8

/-!
# File trees

A tree of files below a working directory. A directory exists if it holds a file, directly or
deeper. Outside the tree only the directories that enclose it are known, those that lie right below
the root by custom, and the null device, which reads as an empty file.

The length of a path and the lengths of its names are limited, in bytes of their encoding.
-/

set_option autoImplicit false

namespace LexKit

inductive ReadFault where
  | missing
  | directory
  | notDirectory
  /-- Links lead to each other. -/
  | looped
  /-- A path is too long, or a name in it. -/
  | nameTooLong
  /-- The file, or a directory on the way to it, may not be looked into. -/
  | denied
  | other (message : String)
deriving DecidableEq, Repr

namespace ReadFault

def message : ReadFault → String
  | missing => "No such file or directory"
  | directory => "Is a directory"
  | notDirectory => "Not a directory"
  | looped => "Too many levels of symbolic links"
  | nameTooLong => "File name too long"
  | denied => "Permission denied"
  | other message => message

/-- The path leads to no file. All other faults leave open whether there is one. -/
def isAbsence : ReadFault → Bool
  | missing | directory | notDirectory | looped => true
  | nameTooLong | denied | other _ => false

end ReadFault

abbrev Files := FilePath → Except ReadFault Bytes

/-- Files by the names that lead to them from the working directory. -/
structure FileTree where
  files : List (List String × Bytes)

namespace FileTree

inductive Spot where
  | directory (names : List String)
  /-- A directory that encloses the working directory. -/
  | enclosing
  | file (contents : Bytes)
deriving DecidableEq, Repr

def child (tree : FileTree) (names : List String) : Except ReadFault Spot :=
  match tree.files.lookup names with
  | some contents => .ok (.file contents)
  | none =>
      if tree.files.any fun (place, _) => names.isPrefixOf place then .ok (.directory names)
      else .error .missing

def nameLimit : Nat :=
  255

def pathLimit : Nat :=
  4095

def isLonger (text : String) (limit : Nat) : Bool :=
  decide ((Utf8.encode text).length > limit)

def follow (tree : FileTree) (spot : Spot) (name : String) : Except ReadFault Spot :=
  match spot with
  | .file _ => .error .notDirectory
  | .enclosing =>
      if name = ".." then .ok .enclosing
      else if isLonger name nameLimit then .error .nameTooLong
      else .error .missing
  | .directory names =>
      if name = ".." then .ok (if names.isEmpty then .enclosing else .directory names.dropLast)
      else if isLonger name nameLimit then .error .nameTooLong
      else tree.child (names ++ [name])

/-- The directories that lie right below the root by custom. -/
def customaryDirectories : List String :=
  ["bin", "dev", "etc", "home", "lib", "opt", "proc", "root", "run", "sbin", "srv", "sys", "tmp",
    "usr", "var"]

def customary? : List String → Option Spot
  | [name] => if customaryDirectories.contains name then some .enclosing else none
  | ["dev", "null"] => some (.file [])
  | _ => none

def resolve (tree : FileTree) (path : FilePath) : Except ReadFault Spot :=
  if isLonger path.text pathLimit then .error .nameTooLong
  else if path.root.isEmpty then path.names.foldlM tree.follow (.directory [])
  else
    match customary? path.names with
    | some spot => .ok spot
    | none => path.names.foldlM tree.follow .enclosing

def read (tree : FileTree) : Files := fun path => do
  match ← tree.resolve path with
  | .file contents => return contents
  | _ => throw .directory

end FileTree

end LexKit
