import ActiveBattle.Document.Json

/-!
# TOML text

Blanks, comments and line ends, quoted texts in their four forms, and keys.
-/

namespace ActiveBattle.Document.Toml

set_option autoImplicit false

open Json (Rest hexValue?)

/-- A character that needs no escape: no control character but the tab. -/
def isPlain (c : Char) : Bool := c = '\t' || (' ' ≤ c && c ≠ '\x7f')

def isBlank (c : Char) : Bool := c = ' ' || c = '\t'

def skipBlanks (cs : Rest) : Rest := cs.dropWhile isBlank

/-- What follows a line break. -/
def afterBreak? : Rest → Option Rest
  | '\n' :: rest => some rest
  | '\r' :: '\n' :: rest => some rest
  | _ => none

def skipComment : Rest → Rest
  | '#' :: rest => rest.dropWhile isPlain
  | cs => cs

/-- What follows the end of a line; blanks and a comment may come first. -/
def afterLine? (cs : Rest) : Option Rest :=
  match skipComment (skipBlanks cs) with
  | [] => some []
  | rest => afterBreak? rest

/-- Skips blanks, line breaks and comments that end in one. The first argument bounds the lines. -/
def skipSpace : Nat → Rest → Option Rest
  | 0, _ => none
  | bound + 1, cs =>
    match skipBlanks cs with
    | '#' :: rest => (afterBreak? (rest.dropWhile isPlain)).bind (skipSpace bound)
    | '\n' :: rest => skipSpace bound rest
    | '\r' :: rest => (afterBreak? ('\r' :: rest)).bind (skipSpace bound)
    | rest => some rest

/-! ## Quoted texts -/

/-- The value of hexadecimal digits. -/
def hexNumber (digits : List Char) : Option Nat :=
  digits.foldlM (fun n c => (hexValue? c).map (n * 16 + ·)) 0

/-- The character of a number given in `count` hexadecimal digits; not every number has one. -/
def readNumbered (count : Nat) (cs : Rest) : Option (Char × Rest) := do
  if (cs.take count).length < count then none
  else
    let n ← hexNumber (cs.take count)
    if h : n.isValidChar then some (Char.ofNatAux n h, cs.drop count) else none

def readEscape : Rest → Option (Char × Rest)
  | '"' :: rest => some ('"', rest)
  | '\\' :: rest => some ('\\', rest)
  | 'b' :: rest => some ('\x08', rest)
  | 'f' :: rest => some ('\x0c', rest)
  | 'n' :: rest => some ('\n', rest)
  | 'r' :: rest => some ('\r', rest)
  | 't' :: rest => some ('\t', rest)
  | 'u' :: rest => readNumbered 4 rest
  | 'U' :: rest => readNumbered 8 rest
  | _ => none

/-- A text with escapes up to its closing quote. The first argument bounds the characters. -/
def readBasic : Nat → String → Rest → Option (String × Rest)
  | 0, _, _ => none
  | _ + 1, _, [] => none
  | _ + 1, out, '"' :: rest => some (out, rest)
  | bound + 1, out, '\\' :: rest =>
    match readEscape rest with
    | some (c, rest) => readBasic bound (out.push c) rest
    | none => none
  | bound + 1, out, c :: rest => if isPlain c then readBasic bound (out.push c) rest else none

def readLiteral (out : String) : Rest → Option (String × Rest)
  | [] => none
  | '\'' :: rest => some (out, rest)
  | c :: rest => if isPlain c then readLiteral (out.push c) rest else none

/-- A line break right after the opening quotes does not count. -/
def skipFirstBreak (cs : Rest) : Rest := (afterBreak? cs).getD cs

/-- What follows a backslash at the end of a line: the next character that is neither blank nor line
break. -/
def afterFold? (cs : Rest) : Option Rest :=
  (afterBreak? (skipBlanks cs)).bind (skipBreaks cs.length)
where
  /-- Skips blanks and line breaks. -/
  skipBreaks : Nat → Rest → Option Rest
    | 0, cs => some cs
    | bound + 1, cs =>
      match afterBreak? (skipBlanks cs) with
      | some rest => skipBreaks bound rest
      | none => some (skipBlanks cs)

/-- A run of quotes inside a text of several lines: up to two of them belong to the text, three
close it, and up to two more before the closing ones belong to it. Tells what belongs to the text
and whether it is closed. -/
def readQuotes (quote : Char) (cs : Rest) : Option (String × Bool × Rest) :=
  let count := (cs.takeWhile (· = quote)).length
  let rest := cs.dropWhile (· = quote)
  if count < 3 then some ("".pushn quote count, false, rest)
  else if count ≤ 5 then some ("".pushn quote (count - 3), true, rest)
  else none

def readLongBasic : Nat → String → Rest → Option (String × Rest)
  | 0, _, _ => none
  | _ + 1, _, [] => none
  | bound + 1, out, '"' :: rest =>
    match readQuotes '"' ('"' :: rest) with
    | some (quotes, true, rest) => some (out ++ quotes, rest)
    | some (quotes, false, rest) => readLongBasic bound (out ++ quotes) rest
    | none => none
  | bound + 1, out, '\\' :: rest =>
    match afterFold? rest with
    | some rest => readLongBasic bound out rest
    | none =>
      match readEscape rest with
      | some (c, rest) => readLongBasic bound (out.push c) rest
      | none => none
  | bound + 1, out, c :: rest =>
    if isPlain c then readLongBasic bound (out.push c) rest
    else
      match afterBreak? (c :: rest) with
      | some rest => readLongBasic bound (out.push '\n') rest
      | none => none

def readLongLiteral : Nat → String → Rest → Option (String × Rest)
  | 0, _, _ => none
  | _ + 1, _, [] => none
  | bound + 1, out, '\'' :: rest =>
    match readQuotes '\'' ('\'' :: rest) with
    | some (quotes, true, rest) => some (out ++ quotes, rest)
    | some (quotes, false, rest) => readLongLiteral bound (out ++ quotes) rest
    | none => none
  | bound + 1, out, c :: rest =>
    if isPlain c then readLongLiteral bound (out.push c) rest
    else
      match afterBreak? (c :: rest) with
      | some rest => readLongLiteral bound (out.push '\n') rest
      | none => none

def readQuoted : Rest → Option (String × Rest)
  | '"' :: '"' :: '"' :: rest => readLongBasic (rest.length + 1) "" (skipFirstBreak rest)
  | '"' :: rest => readBasic (rest.length + 1) "" rest
  | '\'' :: '\'' :: '\'' :: rest => readLongLiteral (rest.length + 1) "" (skipFirstBreak rest)
  | '\'' :: rest => readLiteral "" rest
  | _ => none

/-! ## Keys -/

def isBareKeyChar (c : Char) : Bool := c.isAlphanum || c = '-' || c = '_'

/-- One part of a key: quoted in one line, or bare. -/
def readKeyPart : Rest → Option (String × Rest)
  | '"' :: rest => readBasic (rest.length + 1) "" rest
  | '\'' :: rest => readLiteral "" rest
  | cs =>
    match cs.takeWhile isBareKeyChar with
    | [] => none
    | bare => some (String.ofList bare, cs.dropWhile isBareKeyChar)

/-- The parts of a key up to this many are taken. -/
def maxKeyParts : Nat := 79

/-- The parts of a dotted key; blanks may stand around each. The first argument bounds the parts. -/
def readKey : Nat → Rest → Option (List String × Rest)
  | 0, _ => none
  | bound + 1, cs => do
    let (part, rest) ← readKeyPart (skipBlanks cs)
    match skipBlanks rest with
    | '.' :: rest =>
      let (parts, rest) ← readKey bound rest
      return (part :: parts, rest)
    | rest => return ([part], rest)

/-- A key as the path to a table and the last part. -/
def splitKey (parts : List String) : List String × String := (parts.dropLast, parts.getLastD "")

end ActiveBattle.Document.Toml
