import MixedStack.Json.Value
import MixedStack.Text.Quoted

/-!
# Values as data

Data is read off a value from left to right, so the first problem in the text is the one reported,
be it a flaw of the text or a value that does not fit. A record is written as an object with its
fields in any order, or as a list of their values in the order of the record.
-/

namespace MixedStack.Json

/-- What a place in a document is for. -/
inductive Wanted where
  | record (name : String)
  | list
  | text
  | word
  | count
  deriving DecidableEq, Repr

def Wanted.message : Wanted → String
  | record name => "struct " ++ name
  | list => "a sequence"
  | text => "a string"
  | word => "u64"
  | count => "usize"

def Value.message : Value → String
  | .null => "null"
  | .boolean b => "boolean `" ++ (if b then "true" else "false") ++ "`"
  | .natural n => "integer `" ++ n.decimal ++ "`"
  | .negative n => "integer `" ++ toString n ++ "`"
  | .real _ => "floating point"
  | .text s => "string " ++ Text.quoted s
  | .list _ _ => "sequence"
  | .object _ _ => "map"
  | .broken _ => ""

/-- Why a value does not fit its place. -/
inductive Mismatch where
  | wrongType (found : Value) (wanted : Wanted)
  | belowZero (n : Int) (wanted : Wanted)
  | missingField (name : String)
  | duplicateField (name : String)
  | unknownField (name : String) (known : List String)
  /-- A list ends before the value of the field at `length`. -/
  | tooShort (length : Nat) (record : String) (fields : Nat)
  | badAddress (text : String)
  | noAddress

namespace Mismatch

/-- A name as a message shows it. -/
def ticked (name : String) : String := "`" ++ name ++ "`"

/-- The names that would have been right. -/
def alternatives : List String → String
  | [a] => ticked a
  | [a, b] => ticked a ++ " or " ++ ticked b
  | names => "one of " ++ ", ".intercalate (names.map ticked)

def message : Mismatch → String
  | wrongType found wanted => "invalid type: " ++ found.message ++ ", expected " ++ wanted.message
  | belowZero n wanted =>
    "invalid value: integer " ++ ticked (toString n) ++ ", expected " ++ wanted.message
  | missingField name => "missing field " ++ ticked name
  | duplicateField name => "duplicate field " ++ ticked name
  | unknownField name known =>
    "unknown field " ++ ticked name ++ ", expected " ++ alternatives known
  | tooShort length record fields =>
    "invalid length " ++ toString length ++ ", expected struct " ++ record ++ " with "
      ++ toString fields ++ " elements"
  | badAddress text => "invalid address '" ++ text ++ "'"
  | noAddress => "data did not match any variant of untagged enum RawAddress"

end Mismatch

/-- The first problem of a text: the text itself, or what it says. -/
inductive Problem where
  | flawed (flaw : Flaw)
  | mismatch (mismatch : Mismatch)

/-- What reading data answers. -/
abbrev Decoded (α : Type) := Except Problem α

/-- Data that was read in front of a place where the text may be flawed. -/
def Decoded.before {α : Type} (flaw : Option Flaw) (a : α) : Decoded α :=
  match flaw with
  | none => .ok a
  | some flaw => .error (.flawed flaw)

namespace Value

/-- The refusal of a value. -/
def refused {α : Type} (wanted : Wanted) : Value → Decoded α
  | .broken flaw => .error (.flawed flaw)
  | v => .error (.mismatch (.wrongType v wanted))

/-- An unsigned number, for a place that is for one. -/
def unsigned (wanted : Wanted) : Value → Decoded Word
  | .natural n => .ok n
  | .negative n => .error (.mismatch (.belowZero n wanted))
  | v => v.refused wanted

def toWord : Value → Decoded Word := unsigned .word

def toText : Value → Decoded String
  | .text s => .ok s
  | v => v.refused .text

def toList {α : Type} (item : Value → Decoded α) : Value → Decoded (List α)
  | .list items flaw => do Decoded.before flaw (← items.mapM item)
  | v => v.refused .list

end Value

/-- One field of a record, of which `σ` holds what is known so far. -/
structure Field (σ : Type) where
  name : String
  /-- Whether the field has a value. -/
  filled : σ → Bool
  /-- Gives the field the value of its place. -/
  fill : Value → σ → Decoded σ

/-- A field whose value is kept where `get` finds it. -/
def Field.kept {σ β : Type} (name : String) (read : Value → Decoded β) (get : σ → Option β)
    (put : Option β → σ → σ) : Field σ where
  name
  filled known := (get known).isSome
  fill v known := return put (some (← read v)) known

/-- How a record is read. -/
structure Record (σ α : Type) where
  name : String
  fields : List (Field σ)
  /-- Nothing known. -/
  blank : σ
  /-- The record, or the place of the first field that should have had a value. -/
  finish : σ → Except Nat α

namespace Record

/-- A field without which there is no record, at its place among the fields. -/
def required {β : Type} (place : Nat) : Option β → Except Nat β
  | some b => .ok b
  | none => .error place

variable {σ α : Type}

def members (r : Record σ α) (known : σ) : List (String × Value) → Decoded σ
  | [] => .ok known
  | (key, v) :: ms =>
    match r.fields.find? fun field => field.name = key with
    | none => .error (.mismatch (.unknownField key (r.fields.map Field.name)))
    | some field =>
      if field.filled known then .error (.mismatch (.duplicateField key))
      else do r.members (← field.fill v known) ms

/-- Reads the items of a list as the values of `fields`. -/
def items (known : σ) : List (Field σ) → List Value → Decoded σ
  | _, [] => .ok known
  | [], _ :: _ => .error (.flawed .malformed)
  | field :: fields, v :: vs => do items (← field.fill v known) fields vs

def fieldName (r : Record σ α) (place : Nat) : String :=
  (r.fields.map Field.name).getD place ""

def read (r : Record σ α) : Value → Decoded α
  | .object members flaw => do
    let known ← Decoded.before flaw (← r.members r.blank members)
    match r.finish known with
    | .ok a => return a
    | .error place => .error (.mismatch (.missingField (r.fieldName place)))
  | .list vs flaw => do
    let known ← Decoded.before flaw (← items r.blank r.fields vs)
    match r.finish known with
    | .ok a => return a
    | .error place => .error (.mismatch (.tooShort place r.name r.fields.length))
  | v => v.refused (.record r.name)

end Record

def Document.read {α : Type} (d : Document) (root : Value → Decoded α) : Decoded α := do
  Decoded.before d.flaw (← root d.root)

end MixedStack.Json
