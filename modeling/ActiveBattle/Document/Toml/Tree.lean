import ActiveBattle.Document.Basic

/-!
# TOML tables

Tables as they are put together from the lines of a text. A table knows how it came about, since
that decides what may still be added to it: a table with a header of its own is closed for headers
and dotted keys, one that dotted keys made is open for them alone, and one that lies on the way to
another header is open for its own header.
-/

namespace ActiveBattle.Document.Toml

set_option autoImplicit false

/-- How a table came about. -/
inductive TableKind where
  /-- It has a header of its own. -/
  | headed
  /-- A dotted key made it. -/
  | dotted
  /-- It lies on the way to the table of a header. -/
  | passed
deriving DecidableEq

inductive Node where
  | value (d : Document)
  | table (kind : TableKind) (entries : List (String × Node))
  /-- Tables that share a header with doubled brackets, each with its entries. -/
  | tables (items : List (List (String × Node)))

abbrev Entries := List (String × Node)

namespace Entries

def get? (key : String) : Entries → Option Node
  | [] => none
  | (k, node) :: rest => if k = key then some node else get? key rest

/-- Puts a node under a key, over the one that is there. -/
def set (key : String) (node : Node) : Entries → Entries
  | [] => [(key, node)]
  | (k, old) :: rest => if k = key then (k, node) :: rest else (k, old) :: set key node rest

/-- Puts a node under a key that is not there. -/
def add (key : String) (node : Node) (entries : Entries) : Option Entries :=
  if (get? key entries).isSome then none else some (entries ++ [(key, node)])

/-- The last of several tables, modified. -/
def modifyLast (f : Entries → Option Entries) : List Entries → Option (List Entries)
  | [] => none
  | [last] => (f last).map ([·])
  | first :: rest => (modifyLast f rest).map (first :: ·)

/-- Puts a value under a key at the end of a dotted path. The table it goes to has to be one that
dotted keys made. -/
def assign (key : String) (d : Document) : List String → Entries → Option Entries
  | [], entries => add key (.value d) entries
  | k :: path, entries =>
    match get? k entries with
    | none => (assign key d path []).map fun inner => set k (.table .dotted inner) entries
    | some (.table kind inner) =>
      if kind = .headed ∨ (path.isEmpty ∧ kind ≠ .dotted) then none
      else (assign key d path inner).map fun inner => set k (.table kind inner) entries
    | some (.tables items) =>
      if path.isEmpty then none
      else (modifyLast (assign key d path) items).map fun items => set k (.tables items) entries
    | some (.value _) => none

/-- Modifies the table at the end of a path of headers; of several tables the last one counts. -/
def under (f : Entries → Option Entries) : List String → Entries → Option Entries
  | [], entries => f entries
  | k :: path, entries =>
    match get? k entries with
    | none => (under f path []).map fun inner => set k (.table .passed inner) entries
    | some (.table kind inner) =>
      (under f path inner).map fun inner => set k (.table kind inner) entries
    | some (.tables items) =>
      (modifyLast (under f path) items).map fun items => set k (.tables items) entries
    | some (.value _) => none

def defineTable (fill : Entries → Option Entries) (key : String) (entries : Entries) :
    Option Entries :=
  match get? key entries with
  | none => (fill []).map fun inner => set key (.table .headed inner) entries
  | some (.table .passed inner) =>
    (fill inner).map fun inner => set key (.table .headed inner) entries
  | _ => none

def appendTable (fill : Entries → Option Entries) (key : String) (entries : Entries) :
    Option Entries :=
  match get? key entries with
  | none => (fill []).map fun inner => set key (.tables [inner]) entries
  | some (.tables items) =>
    (fill []).map fun inner => set key (.tables (items ++ [inner])) entries
  | _ => none

end Entries

mutual

def Node.toDocument : Node → Document
  | .value d => d
  | .table _ entries => .table (entriesToDocuments entries)
  | .tables items => .list (tablesToDocuments items)

def entriesToDocuments : List (String × Node) → List (String × Document)
  | [] => []
  | (k, node) :: rest => (k, node.toDocument) :: entriesToDocuments rest

def tablesToDocuments : List (List (String × Node)) → List Document
  | [] => []
  | entries :: rest => .table (entriesToDocuments entries) :: tablesToDocuments rest

end

end ActiveBattle.Document.Toml
