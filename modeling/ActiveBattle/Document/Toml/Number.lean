import ActiveBattle.Document.Toml.Text

/-!
# TOML numbers and dates

Whole numbers in four bases, fractions, dates and times. Whole numbers take up to 64 bits with sign.
No value is a fraction, so a fraction is only checked: for its form, and for not being too large. A
date or a time is a record whose fields no other record has.
-/

namespace ActiveBattle.Document.Toml

set_option autoImplicit false

open Json (Rest hexValue? digitsValue)

/-- Further digits; an underscore may stand between two digits. -/
def moreDigits (isDigit : Char → Bool) : Rest → Option (List Char × Rest)
  | '_' :: c :: rest =>
    if isDigit c then (moreDigits isDigit rest).map fun (ds, rest) => (c :: ds, rest) else none
  | ['_'] => none
  | c :: rest =>
    if isDigit c then (moreDigits isDigit rest).map fun (ds, rest) => (c :: ds, rest)
    else some ([], c :: rest)
  | [] => some ([], [])

def someDigits (isDigit : Char → Bool) : Rest → Option (List Char × Rest)
  | c :: rest =>
    if isDigit c then (moreDigits isDigit rest).map fun (ds, rest) => (c :: ds, rest) else none
  | [] => none

/-- The digits of a whole number: a zero stands alone. -/
def wholeDigits : Rest → Option (List Char × Rest)
  | '0' :: rest => some (['0'], rest)
  | cs => someDigits Char.isDigit cs

def isHexDigit (c : Char) : Bool := (hexValue? c).isSome

def valueIn (base : Nat) (ds : List Char) : Nat :=
  ds.foldl (fun n c => n * base + (hexValue? c).getD 0) 0

def whole (n : Int) : Option Document :=
  if -9223372036854775808 ≤ n ∧ n < 9223372036854775808 then some (.int n) else none

/-- A number in another base after its mark. -/
def readBased (base : Nat) (isDigit : Char → Bool) (cs : Rest) : Option (Document × Rest) := do
  let (ds, rest) ← someDigits isDigit cs
  let d ← whole (valueIn base ds)
  return (d, rest)

def readExponent : Rest → Option (Int × Rest)
  | '-' :: rest =>
    (someDigits Char.isDigit rest).map fun (ds, rest) => (-(digitsValue ds : Int), rest)
  | '+' :: rest => (someDigits Char.isDigit rest).map fun (ds, rest) => (digitsValue ds, rest)
  | rest => (someDigits Char.isDigit rest).map fun (ds, rest) => (digitsValue ds, rest)

def isExponentMark (c : Char) : Bool := c = 'e' || c = 'E'

def readExponent? : Rest → Option (Option Int × Rest)
  | c :: rest =>
    if isExponentMark c then (readExponent rest).map fun (e, rest) => (some e, rest)
    else some (none, c :: rest)
  | [] => some (none, [])

/-- The digits of a fraction after its point and an exponent, of which one may be missing. With both
missing the number is whole. -/
def readTail : Rest → Option (Option (List Char × Int) × Rest)
  | '.' :: rest => do
    let (ds, rest) ← someDigits Char.isDigit rest
    let (e, rest) ← readExponent? rest
    return (some (ds, e.getD 0), rest)
  | rest => do
    let (e, rest) ← readExponent? rest
    return (e.map ([], ·), rest)

/-- Fractions below this are nearer to a binary number of 64 bits than to the next power of two. -/
def fractionBound : Nat := (1 <<< 1024) - (1 <<< 970)

/-- Tells whether `n` times a power of ten is below the bound. Numbers of 309 digits are on both
sides of it. -/
def isBounded (n : Nat) (exponent : Int) : Bool :=
  let size := (toString n).length + exponent
  if n = 0 ∨ size < 309 then true
  else if 309 < size then false
  else n * Nat.pow 10 exponent.toNat < fractionBound * Nat.pow 10 (-exponent).toNat

def readDecimal (negative : Bool) : Rest → Option (Document × Rest)
  | 'i' :: 'n' :: 'f' :: rest => some (.other "inf", rest)
  | 'n' :: 'a' :: 'n' :: rest => some (.other "nan", rest)
  | cs => do
    let (ds, rest) ← wholeDigits cs
    match ← readTail rest with
    | (none, rest) =>
      let n : Int := digitsValue ds
      let d ← whole (if negative then -n else n)
      return (d, rest)
    | (some (fraction, exponent), rest) =>
      if negative || isBounded (digitsValue (ds ++ fraction)) (exponent - fraction.length) then
        return (.other "fraction", rest)
      else none

/-! ## Dates and times -/

/-- A number of two digits within bounds. -/
def readTwo (lo hi : Nat) : Rest → Option (Nat × Rest)
  | a :: b :: rest =>
    if a.isDigit && b.isDigit then
      let n := digitsValue [a, b]
      if lo ≤ n ∧ n ≤ hi then some (n, rest) else none
    else none
  | _ => none

/-- A number of two digits after a sign of its own. -/
def readNext (mark : Char) (lo hi : Nat) : Rest → Option (Nat × Rest)
  | c :: rest => if c = mark then readTwo lo hi rest else none
  | [] => none

def isLeapYear (year : Nat) : Bool := year % 4 = 0 && (year % 100 ≠ 0 || year % 400 = 0)

def daysIn (year month : Nat) : Nat :=
  if month = 2 then if isLeapYear year then 29 else 28
  else if month = 4 ∨ month = 6 ∨ month = 9 ∨ month = 11 then 30
  else 31

def readDay (year : Nat) (cs : Rest) : Option Rest := do
  let (month, rest) ← readNext '-' 1 12 cs
  let (day, rest) ← readNext '-' 1 31 rest
  if day ≤ daysIn year month then some rest else none

/-- A fraction of a second, if there is a point with a digit after it. -/
def skipSubsecond : Rest → Rest
  | '.' :: c :: rest => if c.isDigit then rest.dropWhile Char.isDigit else '.' :: c :: rest
  | rest => rest

def readMinutes (cs : Rest) : Option Rest := do
  let (_, rest) ← readNext ':' 0 59 cs
  let (_, rest) ← readNext ':' 0 60 rest
  return skipSubsecond rest

/-- A distance from universal time, if there is one. -/
def readOffset : Rest → Option Rest
  | 'Z' :: rest => some rest
  | 'z' :: rest => some rest
  | c :: rest =>
    if c = '+' ∨ c = '-' then do
      let (_, rest) ← readTwo 0 23 rest
      let (_, rest) ← readNext ':' 0 59 rest
      return rest
    else some (c :: rest)
  | [] => some []

/-- The time after a date, if there is one. -/
def readTimeOfDay : Rest → Option Rest
  | c :: rest =>
    if c = 'T' ∨ c = 't' ∨ c = ' ' then
      match readTwo 0 23 rest with
      | some (_, ':' :: rest) => (readMinutes (':' :: rest)).bind readOffset
      | _ => some (c :: rest)
    else some (c :: rest)
  | [] => some []

/-- A date with or without a time, or a time alone: told by the mark after its first digits. -/
def readMoment? (cs : Rest) : Option (Option Rest) :=
  match cs.takeWhile Char.isDigit, cs.dropWhile Char.isDigit with
  | [a, b, c, d], '-' :: rest =>
    some ((readDay (digitsValue [a, b, c, d]) ('-' :: rest)).bind readTimeOfDay)
  | [a, b], ':' :: rest =>
    if digitsValue [a, b] ≤ 23 then some (readMinutes (':' :: rest)) else none
  | _, _ => none

/-- What a date or a time is read as. -/
def moment : Document := .table [("moment", .other "moment")]

def readNumber : Rest → Option (Document × Rest)
  | '+' :: rest => readDecimal false rest
  | '-' :: rest => readDecimal true rest
  | '0' :: 'x' :: rest => readBased 16 isHexDigit rest
  | '0' :: 'o' :: rest => readBased 8 (fun c => '0' ≤ c && c ≤ '7') rest
  | '0' :: 'b' :: rest => readBased 2 (fun c => c = '0' || c = '1') rest
  | cs =>
    match readMoment? cs with
    | some after => after.map (moment, ·)
    | none => readDecimal false cs

end ActiveBattle.Document.Toml
