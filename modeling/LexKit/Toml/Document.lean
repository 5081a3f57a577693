import LexKit.Toml.Expression

/-!
# Settings documents

A document has one statement a line: a header, which names the table that the lines below it fill,
or a key with its value. A table may be opened by one header only. Dotted keys open tables as well;
these are closed to other sections from the next header on. Arrays and inline tables are complete as
written, and no statement reaches into them.
-/

set_option autoImplicit false

namespace LexKit.Toml

structure Draft where
  root : Table
  /-- The table that the present section fills. -/
  header : Path
  /-- Tables that a header, or a dotted key of an earlier section, has opened. -/
  opened : List Path
  /-- Tables that dotted keys of the present section lead through. -/
  crossed : List Path
  /-- Arrays and inline tables. -/
  complete : List Path

namespace Draft

def empty : Draft :=
  ⟨[], [], [], [], []⟩

/-- The path leads to or through a complete value. -/
def isComplete (draft : Draft) (path : Path) : Bool :=
  draft.complete.any (·.isPrefixOf path)

def endSection (draft : Draft) : Draft :=
  { draft with opened := draft.crossed ++ draft.opened, crossed := [] }

def openTable? (draft : Draft) (path : Path) : Option Draft :=
  if draft.opened.contains path ∨ draft.isComplete path then none
  else do
    let root ← draft.root.alter? true some path
    return { draft with root := root, header := path, opened := path :: draft.opened }

/-- Begins the section of a new table at the end of an array. What was known of the tables inside
the table before it holds no longer. -/
def openItem? (draft : Draft) (key : Key) : Option Draft :=
  if draft.isComplete key.path then none
  else do
    let root ← draft.root.alter? true (fun inner => inner.beginItem? key.stem) key.parents
    let outside := fun (path : Path) => !key.path.isPrefixOf path
    return { draft with
      root := root
      header := key.path
      opened := key.path :: draft.opened.filter outside
      complete := draft.complete.filter outside }

/-- The tables that a key leads through, from the table of the present section on. -/
def crossing (draft : Draft) (key : Key) : List Path :=
  (List.range key.parents.length).map fun count => draft.header ++ key.parents.take (count + 1)

/-- Adds a value to the present section. Its key leads only through tables that no header has
opened. -/
def assign? (draft : Draft) (key : Key) (value : Value) : Option Draft :=
  let parent := draft.header ++ key.parents
  let crossed := draft.crossing key
  if crossed.any draft.opened.contains ∨ draft.isComplete parent then none
  else do
    let root ← draft.root.alter? true (fun inner => inner.add? key.stem value) parent
    let fixed := if value.isContainer then [draft.header ++ key.path] else []
    return { draft with
      root := root
      crossed := crossed ++ draft.crossed
      complete := fixed ++ draft.complete }

end Draft

namespace Reader

def ofOption {α : Type} : Option α → Reader α
  | some result => return result
  | none => stop

def header (bound : Nat) (draft : Draft) : Reader Draft := do
  let ended := draft.endSection
  let isItem ← takes "["
  skipBlanks
  let key ← key bound
  if isItem then
    let opened ← ofOption (ended.openItem? key)
    expect "]]"
    return opened
  else
    let opened ← ofOption (ended.openTable? key.path)
    expect "]"
    return opened

def statement (bound : Nat) (draft : Draft) : Reader Draft := do
  match ← next? with
  | none => return draft
  | some char =>
      if char = '\n' ∨ char = '#' then return draft
      if ← takes "[" then return ← header bound draft
      unless beginsKey char do stop
      let (key, value) ← assignment bound
      ofOption (draft.assign? key value)

/-- Reads line after line; a document has no more lines than characters, and one. -/
def lines : Nat → Draft → Reader Draft
  | 0, _ => stop
  | bound + 1, draft => do
      skipBlanks
      let extended ← statement bound draft
      skipBlanks
      skipComment
      if (← next?).isNone then return extended
      expect "\n"
      lines bound extended

end Reader

namespace Document

/-- A carriage return in front of a line feed does not count. -/
def unifyLineEnds : List Char → List Char
  | '\r' :: '\n' :: rest => '\n' :: unifyLineEnds rest
  | char :: rest => char :: unifyLineEnds rest
  | [] => []

def parse (text : String) : Except Problem Table := do
  let chars := unifyLineEnds text.toList
  let (draft, _) ← Reader.lines (chars.length + 1) .empty chars
  return draft.root

end Document

end LexKit.Toml
