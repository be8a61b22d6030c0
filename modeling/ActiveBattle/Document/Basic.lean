import ActiveBattle.Basic

/-!
# Documents

The tree that every text format is read into and written from: scalars, lists and tables. Values are
decoded from a document and encoded into one; a record is written as a table and can be read from a
table by name or from a list by position. Formats differ in what they let a value be written as, so
decoding asks for the format of the document.
-/

namespace ActiveBattle

set_option autoImplicit false

inductive Document where
  | null
  | bool (value : Bool)
  | int (value : Int)
  /-- What is well written but no value, such as a fraction. It may stand where nothing is read. -/
  | other (literal : String)
  | text (value : String)
  | list (items : List Document)
  | table (entries : List (String × Document))

/-- What a text format lets a value be written as. -/
structure Document.Format where
  /-- A list may go on after the items that a value of a fixed size takes from it. -/
  openLists : Bool
  /-- What may stand under a name that is the whole value. -/
  isVoid : Document → Bool

class Decodable (α : Type) where
  decode : Document.Format → Document → Option α

class Encodable (α : Type) where
  encode : α → Document

export Decodable (decode)

export Encodable (encode)

namespace Document

def intWithin (lo hi : Int) : Document → Option Int
  | int n => if lo ≤ n ∧ n ≤ hi then some n else none
  | _ => none

def natBelow (bound : Nat) : Document → Option Nat
  | int n => if 0 ≤ n ∧ n < bound then some n.toNat else none
  | _ => none

instance : Decodable Document := ⟨fun _ => some⟩

instance : Encodable Document := ⟨id⟩

instance : Decodable Int := ⟨fun _ => intWithin operandMin operandMax⟩

instance : Encodable Int := ⟨int⟩

/-- Counts and places take up to 64 bits. -/
instance : Decodable Nat := ⟨fun _ => natBelow 18446744073709551616⟩

instance : Encodable Nat := ⟨fun n => int n⟩

instance : Decodable UInt64 := ⟨fun _ d => (natBelow 18446744073709551616 d).map (·.toUInt64)⟩

instance : Encodable UInt64 := ⟨fun n => int n.toNat⟩

instance : Decodable Bool where
  decode
    | _, bool b => some b
    | _, _ => none

instance : Encodable Bool := ⟨bool⟩

instance : Decodable String where
  decode
    | _, text s => some s
    | _, _ => none

instance : Encodable String := ⟨text⟩

variable {α β : Type}

instance [Decodable α] : Decodable (Option α) where
  decode
    | _, null => some none
    | f, d => (decode f d).map some

instance [Encodable α] : Encodable (Option α) where
  encode
    | none => null
    | some a => encode a

instance [Decodable α] : Decodable (List α) where
  decode
    | f, list items => items.mapM (decode f)
    | _, _ => none

instance [Encodable α] : Encodable (List α) := ⟨fun items => list (items.map encode)⟩

instance [Encodable α] : Encodable (Array α) := ⟨fun items => encode items.toList⟩

/-- The items of a list that a value did not take may be left over. -/
def Format.mayLeave (f : Format) (rest : List Document) : Bool := f.openLists || rest.isEmpty

/-- A pair is a list of two. -/
instance [Decodable α] [Decodable β] : Decodable (α × β) where
  decode
    | f, list (a :: b :: rest) => do
      let a ← decode f a
      let b ← decode f b
      if f.mayLeave rest then some (a, b) else none
    | _, _ => none

instance [Encodable α] [Encodable β] : Encodable (α × β) :=
  ⟨fun (a, b) => list [encode a, encode b]⟩

def field [Encodable α] (name : String) (value : α) : String × Document := (name, encode value)

def get? (name : String) : Document → Option Document
  | table entries => (entries.reverse.find? (·.1 = name)).map (·.2)
  | _ => none

/-- Where the fields of a record come from: a table, or what is left of a list. -/
inductive Source where
  | named (entries : List (String × Document))
  | listed (rest : List Document)

/-- A reader of the fields of a record, in their order. -/
abbrev Fields (α : Type) := Format → Source → Option (α × Source)

namespace Fields

instance : Monad Fields where
  pure a := fun _ s => some (a, s)
  bind read next := fun f s =>
    match read f s with
    | some (a, s) => next a f s
    | none => none

/-- A field that may be missing; no name may occur twice. -/
def find (name : String) : Source → Option (Option Document × Source)
  | .named entries =>
    match entries.filter (·.1 = name) with
    | [] => some (none, .named entries)
    | [e] => some (some e.2, .named entries)
    | _ => none
  | .listed [] => some (none, .listed [])
  | .listed (d :: rest) => some (some d, .listed rest)

def need [Decodable α] (name : String) : Fields α := fun f s =>
  match find name s with
  | some (some d, s) => (decode f d).map (·, s)
  | _ => none

/-- A field with a value to take when it is missing. -/
def orElse [Decodable α] (name : String) (default : α) : Fields α := fun f s =>
  match find name s with
  | some (some d, s) => (decode f d).map (·, s)
  | some (none, s) => some (default, s)
  | none => none

/-- A field that a table may leave out and a list may not. -/
def optional [Decodable α] (name : String) : Fields (Option α) := fun f s =>
  match find name s with
  | some (some d, s) => (decode f d).map (·, s)
  | some (none, .named entries) => some (none, .named entries)
  | _ => none

/-- A field read in a way of its own, with a value to take when it is missing. -/
def orElseBy (read : Document → Option α) (name : String) (default : α) : Fields α :=
    fun _ s =>
  match find name s with
  | some (some d, s) => (read d).map (·, s)
  | some (none, s) => some (default, s)
  | none => none

end Fields

/-- Reads a record. A table may hold more than its fields, a list only where its format has open
lists. -/
def readRecord (fields : Fields α) (f : Format) : Document → Option α
  | table entries => (fields f (.named entries)).map (·.1)
  | list items =>
    match fields f (.listed items) with
    | some (a, .listed rest) => if f.mayLeave rest then some a else none
    | _ => none
  | _ => none

/-- A name that is a whole value: alone, or as the only name of a table with nothing under it. -/
def Format.loneName (f : Format) : Document → Option String
  | text s => some s
  | table [(s, d)] => if f.isVoid d then some s else none
  | _ => none

/-- Reads one of a set of names. -/
def readName (names : List (String × α)) (f : Format) (d : Document) : Option α := do
  let s ← f.loneName d
  let named ← names.find? (·.1 = s)
  return named.2

def nameOf [DecidableEq α] (names : List (String × α)) (a : α) : String :=
  ((names.find? (·.2 = a)).map (·.1)).getD ""

def writeName [DecidableEq α] (names : List (String × α)) (a : α) : Document :=
  text (nameOf names a)

end Document

end ActiveBattle
