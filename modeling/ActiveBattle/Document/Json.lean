import ActiveBattle.Document.Basic

/-!
# JSON text

Documents as JSON. The reader takes one value with blanks around it and keeps repeated names; the
compact writer puts no blanks, the laid-out one puts each item on a line of its own, indented by
two. A text with half a pair of units, a table with such a name and what lies very deep are well
written but no values.
-/

namespace ActiveBattle.Document.Json

set_option autoImplicit false

/-! ## Writing -/

def hexDigit (n : Nat) : Char := "0123456789abcdef".toList.getD n '0'

def escaped (c : Char) : String :=
  if c = '"' then "\\\""
  else if c = '\\' then "\\\\"
  else if c = '\n' then "\\n"
  else if c = '\r' then "\\r"
  else if c = '\t' then "\\t"
  else if c = '\x08' then "\\b"
  else if c = '\x0c' then "\\f"
  else if c.toNat < 32 then
    "\\u00" ++ String.singleton (hexDigit (c.toNat / 16)) ++
      String.singleton (hexDigit (c.toNat % 16))
  else String.singleton c

def quoted (s : String) : String := s.foldl (fun out c => out ++ escaped c) "\"" ++ "\""

def openBrace : String := "\x7b"

def closeBrace : String := "\x7d"

mutual

def writeTo (out : String) : Document → String
  | .null => out ++ "null"
  | .bool b => out ++ if b then "true" else "false"
  | .int n => out ++ toString n
  | .other literal => out ++ literal
  | .text s => out ++ quoted s
  | .list [] => out ++ "[]"
  | .list (d :: rest) => writeItems (writeTo (out ++ "[") d) rest ++ "]"
  | .table [] => out ++ openBrace ++ closeBrace
  | .table ((k, d) :: rest) =>
    writeEntries (writeTo (out ++ openBrace ++ quoted k ++ ":") d) rest ++ closeBrace

def writeItems (out : String) : List Document → String
  | [] => out
  | d :: rest => writeItems (writeTo (out ++ ",") d) rest

def writeEntries (out : String) : List (String × Document) → String
  | [] => out
  | (k, d) :: rest => writeEntries (writeTo (out ++ "," ++ quoted k ++ ":") d) rest

end

def write (d : Document) : String := writeTo "" d

def newLine (depth : Nat) : String := "\n" ++ "".pushn ' ' (2 * depth)

mutual

def layOutTo (depth : Nat) (out : String) : Document → String
  | .list (d :: rest) =>
    let out := layOutTo (depth + 1) (out ++ "[" ++ newLine (depth + 1)) d
    layOutItems depth out rest ++ newLine depth ++ "]"
  | .table ((k, d) :: rest) =>
    let out := layOutTo (depth + 1) (out ++ openBrace ++ newLine (depth + 1) ++ quoted k ++ ": ") d
    layOutEntries depth out rest ++ newLine depth ++ closeBrace
  | d => writeTo out d

def layOutItems (depth : Nat) (out : String) : List Document → String
  | [] => out
  | d :: rest =>
    layOutItems depth (layOutTo (depth + 1) (out ++ "," ++ newLine (depth + 1)) d) rest

def layOutEntries (depth : Nat) (out : String) : List (String × Document) → String
  | [] => out
  | (k, d) :: rest =>
    layOutEntries depth
      (layOutTo (depth + 1) (out ++ "," ++ newLine (depth + 1) ++ quoted k ++ ": ") d) rest

end

def layOut (d : Document) : String := layOutTo 0 "" d

/-! ## Reading -/

/-- A list has as many items as are read from it, and null stands under a name that is a whole
value. -/
def format : Format where
  openLists := false
  isVoid
    | .null => true
    | _ => false

/-- What is well written but no value. -/
def noValue : Document := .other "null"

/-- What is left after something was read. -/
abbrev Rest := List Char

def isBlank (c : Char) : Bool := c = ' ' || c = '\n' || c = '\t' || c = '\r'

def skipBlanks (cs : Rest) : Rest := cs.dropWhile isBlank

def hexValue? (c : Char) : Option Nat :=
  if '0' ≤ c ∧ c ≤ '9' then some (c.toNat - '0'.toNat)
  else if 'a' ≤ c ∧ c ≤ 'f' then some (c.toNat - 'a'.toNat + 10)
  else if 'A' ≤ c ∧ c ≤ 'F' then some (c.toNat - 'A'.toNat + 10)
  else none

/-- The value of four hexadecimal digits. -/
def readUnit : Rest → Option (Nat × Rest)
  | a :: b :: c :: d :: rest => do
    let a ← hexValue? a
    let b ← hexValue? b
    let c ← hexValue? c
    let d ← hexValue? d
    return (((a * 16 + b) * 16 + c) * 16 + d, rest)
  | _ => none

/-- The second half of a pair, if it follows; any other unit is left where it stands. -/
def readLowUnit : Rest → Option (Option Nat × Rest)
  | '\\' :: 'u' :: rest => do
    let (low, after) ← readUnit rest
    if 0xDC00 ≤ low ∧ low < 0xE000 then return (some low, after)
    else return (none, '\\' :: 'u' :: rest)
  | rest => some (none, rest)

/-- The character of an escape by number. The two halves of a pair make one; a half that stands
alone is none. -/
def readEscapedUnit (cs : Rest) : Option (Option Char × Rest) := do
  let (unit, rest) ← readUnit cs
  if 0xD800 ≤ unit ∧ unit < 0xDC00 then
    let (low, rest) ← readLowUnit rest
    let pair := fun low => Char.ofNat (0x10000 + (unit - 0xD800) * 0x400 + (low - 0xDC00))
    return (low.map pair, rest)
  else if 0xDC00 ≤ unit ∧ unit < 0xE000 then return (none, rest)
  else return (some (Char.ofNat unit), rest)

def readEscape : Rest → Option (Option Char × Rest)
  | '"' :: rest => some (some '"', rest)
  | '\\' :: rest => some (some '\\', rest)
  | '/' :: rest => some (some '/', rest)
  | 'b' :: rest => some (some '\x08', rest)
  | 'f' :: rest => some (some '\x0c', rest)
  | 'n' :: rest => some (some '\n', rest)
  | 'r' :: rest => some (some '\r', rest)
  | 't' :: rest => some (some '\t', rest)
  | 'u' :: rest => readEscapedUnit rest
  | _ => none

def extend : Option String → Option Char → Option String
  | some out, some c => some (out.push c)
  | _, _ => none

/-- A text up to its closing quote, if all its escapes stand for characters. The first argument
bounds the characters read. -/
def readText : Nat → Option String → Rest → Option (Option String × Rest)
  | 0, _, _ => none
  | _ + 1, _, [] => none
  | _ + 1, out, '"' :: rest => some (out, rest)
  | bound + 1, out, '\\' :: rest =>
    match readEscape rest with
    | some (c, rest) => readText bound (extend out c) rest
    | none => none
  | bound + 1, out, c :: rest =>
    if c.toNat < 32 then none else readText bound (extend out (some c)) rest

def readQuoted (cs : Rest) : Option (Option String × Rest) := readText (cs.length + 1) (some "") cs

def digits (cs : Rest) : List Char × Rest := (cs.takeWhile Char.isDigit, cs.dropWhile Char.isDigit)

def digitsValue (ds : List Char) : Nat := ds.foldl (fun n c => n * 10 + (c.toNat - '0'.toNat)) 0

/-- A fraction, with at least one digit, if there is a point. -/
def readFraction : Rest → Option (List Char × Rest)
  | '.' :: rest =>
    match digits rest with
    | ([], _) => none
    | (ds, rest) => some ('.' :: ds, rest)
  | rest => some ([], rest)

def readSign : Rest → List Char × Rest
  | '+' :: rest => (['+'], rest)
  | '-' :: rest => (['-'], rest)
  | rest => ([], rest)

/-- An exponent, with at least one digit, if there is a mark. -/
def readExponent : Rest → Option (List Char × Rest)
  | c :: rest =>
    if c = 'e' ∨ c = 'E' then
      let (sign, rest) := readSign rest
      match digits rest with
      | ([], _) => none
      | (ds, rest) => some (c :: sign ++ ds, rest)
    else some ([], c :: rest)
  | [] => some ([], [])

/-- A number without exponent or fraction is whole, unless it is a negative zero or out of the range
of 64 bits. -/
def numberOf (negative : Bool) (whole tail : List Char) : Document :=
  let n := digitsValue whole
  let literal := .other (String.ofList ((if negative then ['-'] else []) ++ whole ++ tail))
  if !tail.isEmpty then literal
  else if negative then if 0 < n ∧ n ≤ 9223372036854775808 then .int (-n) else literal
  else if n < 18446744073709551616 then .int n else literal

/-- A number after its sign; no zero stands before another digit. -/
def readNumber (negative : Bool) (cs : Rest) : Option (Document × Rest) :=
  match digits cs with
  | ([], _) => none
  | ('0' :: _ :: _, _) => none
  | (whole, rest) => do
    let (fraction, rest) ← readFraction rest
    let (exponent, rest) ← readExponent rest
    return (numberOf negative whole (fraction ++ exponent), rest)

def readScalar : Rest → Option (Document × Rest)
  | '"' :: rest => (readQuoted rest).map fun (s, rest) => ((s.map .text).getD noValue, rest)
  | 'n' :: 'u' :: 'l' :: 'l' :: rest => some (.null, rest)
  | 't' :: 'r' :: 'u' :: 'e' :: rest => some (.bool true, rest)
  | 'f' :: 'a' :: 'l' :: 's' :: 'e' :: rest => some (.bool false, rest)
  | '-' :: rest => readNumber true rest
  | rest => readNumber false rest

/-- The name of an entry after blanks, with its colon. -/
def readName (cs : Rest) : Option (Option String × Rest) :=
  match skipBlanks cs with
  | '"' :: rest =>
    match readQuoted rest with
    | some (name, rest) =>
      match skipBlanks rest with
      | ':' :: rest => some (name, rest)
      | _ => none
    | none => none
  | _ => none

/-! ### Skipping -/

inductive Bracket where
  | list
  | table

inductive Place where
  /-- The innermost bracket has just been opened. -/
  | opened
  /-- A value has to follow. -/
  | expecting
  /-- A value has ended. -/
  | ended

/-- What follows the end of the outermost of the brackets around a place, the innermost being the
first. The numeric argument bounds the steps, of which no character takes more than two. -/
def skipOut : Nat → Place → List Bracket → Rest → Option Rest
  | 0, _, _, _ => none
  | _ + 1, _, [], cs => some cs
  | bound + 1, .expecting, bracket :: outer, cs =>
    match skipBlanks cs with
    | '[' :: rest => skipOut bound .opened (.list :: bracket :: outer) rest
    | '\x7b' :: rest => skipOut bound .opened (.table :: bracket :: outer) rest
    | rest =>
      match readScalar rest with
      | some (_, rest) => skipOut bound .ended (bracket :: outer) rest
      | none => none
  | bound + 1, place, bracket :: outer, cs =>
    match bracket, place, skipBlanks cs with
    | .list, _, ']' :: rest => skipOut bound .ended outer rest
    | .table, _, '\x7d' :: rest => skipOut bound .ended outer rest
    | .list, .ended, ',' :: rest => skipOut bound .expecting (.list :: outer) rest
    | .table, .ended, ',' :: rest =>
      match readName rest with
      | some (_, rest) => skipOut bound .expecting (.table :: outer) rest
      | none => none
    | .list, .opened, rest => skipOut bound .expecting (.list :: outer) rest
    | .table, .opened, rest =>
      match readName rest with
      | some (_, rest) => skipOut bound .expecting (.table :: outer) rest
      | none => none
    | _, _, _ => none

def skip (bracket : Bracket) (cs : Rest) : Option (Document × Rest) :=
  (skipOut (2 * cs.length + 2) .opened [bracket] cs).map (noValue, ·)

/-! ### Values -/

/-- Values are read this deep inside lists and tables, and skipped further in. -/
def maxDepth : Nat := 127

/-- The table of named values; a name that is no text makes it no value. -/
def tableOf (entries : Option (Array (String × Document))) : Document :=
  match entries with
  | some entries => .table entries.toList
  | none => noValue

def addEntry (entries : Option (Array (String × Document))) (name : Option String)
    (d : Document) : Option (Array (String × Document)) :=
  match entries, name with
  | some entries, some name => some (entries.push (name, d))
  | _, _ => none

mutual

/-- A value after blanks. The first argument bounds the recursion, the second the depth. -/
def readValue : Nat → Nat → Rest → Option (Document × Rest)
  | 0, _, _ => none
  | bound + 1, depth, cs =>
    match skipBlanks cs with
    | '[' :: rest =>
      match depth, skipBlanks rest with
      | 0, rest => skip .list rest
      | _ + 1, ']' :: rest => some (.list [], rest)
      | depth + 1, rest => readItems bound depth #[] rest
    | '\x7b' :: rest =>
      match depth, skipBlanks rest with
      | 0, rest => skip .table rest
      | _ + 1, '\x7d' :: rest => some (.table [], rest)
      | depth + 1, rest => readEntries bound depth (some #[]) rest
    | rest => readScalar rest

def readItems : Nat → Nat → Array Document → Rest → Option (Document × Rest)
  | 0, _, _, _ => none
  | bound + 1, depth, items, cs =>
    match readValue bound depth cs with
    | none => none
    | some (d, rest) =>
      match skipBlanks rest with
      | ']' :: rest => some (.list (items.push d).toList, rest)
      | ',' :: rest => readItems bound depth (items.push d) rest
      | _ => none

def readEntries : Nat → Nat → Option (Array (String × Document)) → Rest → Option (Document × Rest)
  | 0, _, _, _ => none
  | bound + 1, depth, entries, cs =>
    match readName cs with
    | none => none
    | some (name, rest) =>
      match readValue bound depth rest with
      | none => none
      | some (d, rest) =>
        match skipBlanks rest with
        | '\x7d' :: rest => some (tableOf (addEntry entries name d), rest)
        | ',' :: rest => readEntries bound depth (addEntry entries name d) rest
        | _ => none

end

def parse (s : String) : Option Document :=
  let cs := s.toList
  match readValue (2 * cs.length + 2) maxDepth cs with
  | some (d, rest) => if (skipBlanks rest).isEmpty then some d else none
  | none => none

end ActiveBattle.Document.Json
