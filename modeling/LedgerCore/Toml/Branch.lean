/-
How the statements of a file make up one table. A header opens a table or
appends one to an array of tables; an assignment goes into the table that
is open, below the names in front of its last one.

A table remembers how it came about, since that decides who may add to it.
One that was only passed on the way to another may still be opened, one
made by a dotted assignment may be added to by such assignments only, and
what was opened, written out in full or assigned is settled.

There are two manners of putting a file together. They differ in tables that
headers only passed: may dotted assignments add to them or not?
-/
import LedgerCore.Toml.Value

namespace LedgerCore.Toml

/-- How a table came about. -/
inductive Origin where
  /-- A header passed through it. -/
  | passed
  /-- An assignment with a dotted name passed through it. -/
  | dotted
  /-- A header opened it. -/
  | opened
deriving DecidableEq

/-- What dotted assignments may do with tables that headers only passed. -/
inductive Manner where
  /-- They may go through them, but not add to them. -/
  | strict
  /-- They may add to them, and take over all those on their way. -/
  | lenient
deriving DecidableEq

/-- What goes along a path. -/
inductive Route where
  | header
  /-- An assignment with a dotted name. -/
  | dotted (manner : Manner)

namespace Route

/-- How the tables it makes came about. -/
def made : Route → Origin
  | header => .passed
  | dotted _ => .dotted

/-- How a table counts as come about once it was gone through, if it may be.
A dotted name does not go through tables that were opened. -/
def through? : Route → Origin → Option Origin
  | header, origin => some origin
  | dotted _, .opened => none
  | dotted .strict, origin => some origin
  | dotted .lenient, _ => some .dotted

end Route

/-- One statement of a file; paths are given by their first names and their
last one. -/
inductive Statement where
  | openTable (path : List String) (name : String)
  | appendTable (path : List String) (name : String)
  | assign (path : List String) (name : String) (value : Value)

/-- A part of a file that is still being put together. -/
inductive Branch where
  /-- A value nothing can be added to. -/
  | settled (value : Value)
  | table (origin : Origin) (entries : List (String × Branch))
  /-- An array of tables, the last one first. -/
  | tables (newestFirst : List (List (String × Branch)))

namespace Branch

/-- The entries of a table. -/
abbrev Entries := List (String × Branch)

-- ================================================================ changes

/-- Changes what stands under a name, or puts something there. -/
def alter (name : String) (change : Option Branch → Option Branch) : Entries → Option Entries
  | [] => do return [(name, ← change none)]
  | (key, branch) :: rest =>
      if key = name then do return (key, ← change (some branch)) :: rest
      else do return (key, branch) :: (← alter name change rest)

/-- Changes the table at the end of a path, making those on the way that
are missing. In an array of tables the path goes through the last one. -/
def descend (route : Route) (change : Origin → Entries → Option Entries) :
    (path : List String) → Origin → Entries → Option Entries
  | [], origin, entries => change origin entries
  | name :: path, _, entries =>
      entries |> alter name fun
        | none => table route.made <$> descend route change path route.made []
        | some (table origin inner) => do
            let origin ← route.through? origin
            return table origin (← descend route change path origin inner)
        | some (tables (last :: earlier)) => do
            return tables ((← descend route change path .opened last) :: earlier)
        | some _ => none

-- ============================================================= statements

/-- Opens a table that is not there yet or was only passed through. -/
def openEntry (name : String) : Entries → Option Entries :=
  alter name fun
    | none => some (table .opened [])
    | some (table .passed entries) => some (table .opened entries)
    | some _ => none

/-- Appends a table to an array of tables. -/
def appendEntry (name : String) : Entries → Option Entries :=
  alter name fun
    | none => some (tables [[]])
    | some (tables earlier) => some (tables ([] :: earlier))
    | some _ => none

/-- Assigns a value to a name that is not taken. A dotted path has to end in
a table that only dotted assignments made. -/
def assignEntry (dotted : Bool) (name : String) (value : Value) (origin : Origin)
    (entries : Entries) : Option Entries :=
  if dotted = (origin == .dotted) then
    alter name (fun
      | none => some (settled value)
      | some _ => none) entries
  else none

/-- Assigns a value below an open table. -/
def assign (manner : Manner) (path : List String) (name : String) (value : Value) :
    Entries → Option Entries :=
  descend (.dotted manner) (assignEntry (!path.isEmpty) name value) path .opened

/-- The entries so far, and the path of the table that is open. -/
structure State where
  root : Entries
  position : List String

/-- Changes what is below the table at the end of a header's path. -/
def State.below (state : State) (path : List String) (change : Entries → Option Entries) :
    Option Entries :=
  descend .header (fun _ => change) path .opened state.root

/-- Carries out one statement. -/
def State.step (manner : Manner) (state : State) : Statement → Option State
  | .openTable path name => do
      return ⟨← state.below path (openEntry name), path ++ [name]⟩
  | .appendTable path name => do
      return ⟨← state.below path (appendEntry name), path ++ [name]⟩
  | .assign path name value => do
      return { state with root := ← state.below state.position (assign manner path name value) }

-- ================================================================= values

mutual

/-- The value a branch stands for in the end. -/
def toValue : Branch → Value
  | settled value => value
  | table _ entries => .table (entryValues entries)
  | tables newestFirst => .array (tableValues newestFirst).reverse

/-- The values of entries. -/
def entryValues : List (String × Branch) → List (String × Value)
  | [] => []
  | (name, branch) :: rest => (name, branch.toValue) :: entryValues rest

/-- The values of tables. -/
def tableValues : List (List (String × Branch)) → List Value
  | [] => []
  | entries :: rest => .table (entryValues entries) :: tableValues rest

end

/-- The table that the statements of a file make up. -/
def ofStatements? (manner : Manner) (statements : List Statement) : Option Value := do
  let state ← statements.foldlM (State.step manner) ⟨[], []⟩
  return .table (entryValues state.root)

/-- The table that assignments written in one pair of braces make up. There
are no headers in braces, so both manners are the same. -/
def ofAssignments? (assignments : List (List String × String × Value)) : Option Value := do
  let entries ← assignments.foldlM (fun entries (path, name, value) =>
    assign .strict path name value entries) []
  return .table (entryValues entries)

end Branch

end LedgerCore.Toml
