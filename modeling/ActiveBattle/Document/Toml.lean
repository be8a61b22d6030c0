import ActiveBattle.Document.Toml.Number
import ActiveBattle.Document.Toml.Tree

/-!
# TOML

Reading a TOML text: values, then lines and headers. What cannot be read, and a text that defines
something twice, gives no document.
-/

namespace ActiveBattle.Document.Toml

set_option autoImplicit false

open Json (Rest)

/-- Lists are open, and an empty table or list stands under a name that is a whole value. -/
def format : Format where
  openLists := true
  isVoid
    | .table entries => entries.isEmpty
    | .list items => items.isEmpty
    | _ => false

/-- Lists and tables on one line may lie this deep inside each other. -/
def maxDepth : Nat := 79

mutual

def readValue : Nat → Nat → Rest → Option (Document × Rest)
  | 0, _, _ => none
  | bound + 1, depth, cs =>
    match cs with
    | '"' :: _ => (readQuoted cs).map fun (s, rest) => (.text s, rest)
    | '\'' :: _ => (readQuoted cs).map fun (s, rest) => (.text s, rest)
    | 't' :: 'r' :: 'u' :: 'e' :: rest => some (.bool true, rest)
    | 'f' :: 'a' :: 'l' :: 's' :: 'e' :: rest => some (.bool false, rest)
    | '[' :: rest =>
      match depth with
      | 0 => none
      | depth + 1 => readItems bound depth #[] rest
    | '\x7b' :: rest =>
      match depth, skipBlanks rest with
      | 0, _ => none
      | _ + 1, '\x7d' :: rest => some (.table [], rest)
      | depth + 1, rest => readPairs bound depth [] rest
    | _ => readNumber cs

def readItems : Nat → Nat → Array Document → Rest → Option (Document × Rest)
  | 0, _, _, _ => none
  | bound + 1, depth, items, cs => do
    match ← skipSpace (cs.length + 1) cs with
    | ']' :: rest => return (.list items.toList, rest)
    | rest =>
      let (d, rest) ← readValue bound depth rest
      match ← skipSpace (rest.length + 1) rest with
      | ',' :: rest => readItems bound depth (items.push d) rest
      | ']' :: rest => return (.list (items.push d).toList, rest)
      | _ => none

def readPairs : Nat → Nat → Entries → Rest → Option (Document × Rest)
  | 0, _, _, _ => none
  | bound + 1, depth, entries, cs => do
    let (parts, rest) ← readKey maxKeyParts cs
    match rest with
    | '=' :: rest =>
      let (d, rest) ← readValue bound depth (skipBlanks rest)
      let (path, key) := splitKey parts
      let entries ← entries.assign key d path
      match skipBlanks rest with
      | ',' :: rest => readPairs bound depth entries rest
      | '\x7d' :: rest => return (.table (entriesToDocuments entries), rest)
      | _ => none
    | _ => none

end

/-- A key with its value and the end of the line. -/
def readAssignment (cs : Rest) : Option ((List String × Document) × Rest) := do
  let (parts, rest) ← readKey maxKeyParts cs
  match rest with
  | '=' :: rest =>
    let (d, rest) ← readValue (2 * rest.length + 2) maxDepth (skipBlanks rest)
    let rest ← afterLine? rest
    return ((parts, d), rest)
  | _ => none

/-- A header: one of several tables if its brackets are doubled. -/
structure Header where
  several : Bool
  parts : List String

def readHeader (cs : Rest) : Option (Header × Rest) := do
  let (several, cs) := match cs with
    | '[' :: rest => (true, rest)
    | _ => (false, cs)
  let (parts, rest) ← readKey maxKeyParts cs
  match several, rest with
  | true, ']' :: ']' :: rest => (afterLine? rest).map (⟨true, parts⟩, ·)
  | false, ']' :: rest => (afterLine? rest).map (⟨false, parts⟩, ·)
  | _, _ => none

inductive Line where
  | assignment (parts : List String) (value : Document)
  | header (h : Header)

/-- The lines of a text. The first argument bounds their number. -/
def readLines : Nat → Array Line → Rest → Option (List Line)
  | 0, _, _ => none
  | bound + 1, lines, cs =>
    match skipBlanks cs with
    | [] => some lines.toList
    | '#' :: rest => (afterLine? ('#' :: rest)).bind (readLines bound lines)
    | '\n' :: rest => readLines bound lines rest
    | '\r' :: rest => (afterBreak? ('\r' :: rest)).bind (readLines bound lines)
    | '[' :: rest =>
      match readHeader rest with
      | some (h, rest) => readLines bound (lines.push (.header h)) rest
      | none => none
    | rest =>
      match readAssignment rest with
      | some ((parts, d), rest) => readLines bound (lines.push (.assignment parts d)) rest
      | none => none

/-- The assignments up to the next header, and the lines from there on. -/
def takeAssignments : List Line → List (List String × Document) × List Line
  | .assignment parts d :: rest =>
    let (assignments, rest) := takeAssignments rest
    ((parts, d) :: assignments, rest)
  | rest => ([], rest)

def fillTable (assignments : List (List String × Document)) (entries : Entries) : Option Entries :=
  assignments.foldlM
    (fun entries (parts, d) =>
      let (path, key) := splitKey parts
      entries.assign key d path)
    entries

/-- Puts the table of a header in its place. -/
def placeTable (h : Header) (assignments : List (List String × Document)) (root : Entries) :
    Option Entries :=
  let (path, key) := splitKey h.parts
  let fill := fillTable assignments
  root.under (if h.several then Entries.appendTable fill key else Entries.defineTable fill key) path

/-- Puts the tables of all headers in their places. The first argument bounds their number. -/
def placeTables : Nat → List Line → Entries → Option Entries
  | 0, _, _ => none
  | _ + 1, [], root => some root
  | bound + 1, .header h :: rest, root =>
    let (assignments, rest) := takeAssignments rest
    (placeTable h assignments root).bind (placeTables bound rest)
  | _ + 1, .assignment _ _ :: _, _ => none

/-- A text may begin with a mark of its byte order. -/
def skipMark : Rest → Rest
  | '\ufeff' :: rest => rest
  | cs => cs

def parse (s : String) : Option Document := do
  let cs := skipMark s.toList
  let lines ← readLines (cs.length + 1) #[] cs
  let (assignments, rest) := takeAssignments lines
  let root ← fillTable assignments []
  let root ← placeTables (rest.length + 1) rest root
  return .table (entriesToDocuments root)

end ActiveBattle.Document.Toml
