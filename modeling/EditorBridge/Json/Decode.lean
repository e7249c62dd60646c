import EditorBridge.Json.Printer
import EditorBridge.Text.Quoted
/-!
# Reading records from JSON values

A record is read from an object, its fields by name and unknown members
skipped, or from a list, its fields by position. The members of an object are
looked at in their order; what is missing is noticed after that, in the order of
the fields.
-/

namespace EditorBridge.Json

/-- How a value differs from what was expected. -/
inductive Mismatch where
  | wrongType (found : Json) (expected : String)
  | outOfRange (found : Int) (expected : String)
  | wrongLength (length : Nat) (expected : String)
  | missing (field : String)
  | repeated (field : String)
  | unknownVariant (found : String) (expected : String)
  | other (text : String)
  deriving DecidableEq

/-- A value as a mismatch names it. -/
def describe : Json → String
  | .null => "null"
  | .bool b => "boolean `" ++ compact (.bool b) ++ "`"
  | .int n => "integer `" ++ toString n ++ "`"
  | .float x => "floating point `" ++ String.ofList x.text ++ "`"
  | .str s => "string " ++ Text.quoted s
  | .arr _ => "sequence"
  | .obj _ => "map"

/-- The wording of a mismatch. -/
def Mismatch.message : Mismatch → String
  | .wrongType found expected => "invalid type: " ++ describe found ++ ", expected " ++ expected
  | .outOfRange found expected =>
    "invalid value: integer `" ++ toString found ++ "`, expected " ++ expected
  | .wrongLength length expected =>
    "invalid length " ++ toString length ++ ", expected " ++ expected
  | .missing field => "missing field `" ++ field ++ "`"
  | .repeated field => "duplicate field `" ++ field ++ "`"
  | .unknownVariant found expected =>
    "unknown variant `" ++ found ++ "`, expected `" ++ expected ++ "`"
  | .other text => text

/-- Reads a value of some type. -/
abbrev Decoder (α : Type) := Json → Except Mismatch α

namespace Decoder

/-- Any value as it is. -/
def any : Decoder Json := .ok

/-- A string. -/
def string : Decoder String
  | .str s => .ok s
  | other => .error (.wrongType other "a string")

/-- A string, wanted as a path. -/
def path : Decoder String
  | .str s => .ok s
  | other => .error (.wrongType other "path string")

/-- A truth value. -/
def boolean : Decoder Bool
  | .bool b => .ok b
  | other => .error (.wrongType other "a boolean")

/-- An integer between two bounds, which `kind` names. -/
def integer (low high : Int) (kind : String) : Decoder Int
  | .int n => if low ≤ n ∧ n ≤ high then .ok n else .error (.outOfRange n kind)
  | other => .error (.wrongType other kind)

/-- An unsigned integer of some bits, which `kind` names. -/
def natural (bits : Nat) (kind : String) : Decoder Nat := fun j =>
  (integer 0 (Nat.pow 2 bits - 1) kind j).map Int.toNat

/-- Nothing for `null`, otherwise a value. -/
def optional {α : Type} (d : Decoder α) : Decoder (Option α)
  | .null => .ok none
  | j => (d j).map some

/-- A list of values. -/
def list {α : Type} (d : Decoder α) : Decoder (List α)
  | .arr items => items.mapM d
  | other => .error (.wrongType other "a sequence")

end Decoder

/-- How the fields of a record are read: checks of single members by name, the record from all
members, and the record from items, the number of those already read being given. -/
structure Record (α : Type) where
  checks : List (String × Decoder Unit)
  ofMembers : Members → Except Mismatch α
  ofItems : (short : Nat → Mismatch) → Nat → List Json → Except Mismatch (α × List Json)

namespace Record

/-- A record without fields. -/
def pure {α : Type} (a : α) : Record α :=
  ⟨[], fun _ => .ok a, fun _ _ items => .ok (a, items)⟩

/-- The fields of two records one after the other. -/
def seq {α β : Type} (f : Record (α → β)) (a : Record α) : Record β where
  checks := f.checks ++ a.checks
  ofMembers members := do
    let g ← f.ofMembers members
    let x ← a.ofMembers members
    return g x
  ofItems short n items := do
    let (g, items) ← f.ofItems short n items
    let (x, items) ← a.ofItems short (n + f.checks.length) items
    return (g x, items)

/-- A field and what stands for it when it is absent from an object and from a list. -/
def field {α : Type} (name : String) (d : Decoder α) (absent fromShortList : Option α) :
    Record α where
  checks := [(name, fun j => (d j).map fun _ => ())]
  ofMembers members :=
    match Members.get? name members with
    | some j => d j
    | none =>
      match absent with
      | some a => .ok a
      | none => .error (.missing name)
  ofItems short n items :=
    match items with
    | j :: rest => do return (← d j, rest)
    | [] =>
      match fromShortList with
      | some a => .ok (a, [])
      | none => .error (short n)

/-- A field that has to be there. -/
def required {α : Type} (name : String) (d : Decoder α) : Record α := field name d none none

/-- A field that an object may leave out. -/
def maybe {α : Type} (name : String) (d : Decoder α) : Record (Option α) :=
  field name d.optional (some none) none

/-- A field with a value for when it is left out. -/
def withDefault {α : Type} (name : String) (d : Decoder α) (a : α) : Record α :=
  field name d (some a) (some a)

/-- The check that a name has in a record. -/
def check? {α : Type} (r : Record α) (name : String) : Option (Decoder Unit) := r.checks.lookup name

/-- The length a list has to have, in words. -/
def lengthText (kind : String) (n : Nat) : String :=
  kind ++ " with " ++ toString n ++ (if n = 1 then " element" else " elements")

/-- Checks members in their order. -/
def checkAll {α : Type} (r : Record α) (members : Members) : Except Mismatch Unit :=
  members.forM fun (key, j) =>
    match r.check? key with
    | some check => check j
    | none => .ok ()

/-- Reads a record; `kind` says what it is in a mismatch. -/
def decode {α : Type} (kind : String) (r : Record α) : Decoder α
  | .obj members => do
    r.checkAll members
    r.ofMembers members
  | .arr items => do
    let short n := Mismatch.wrongLength n (lengthText kind r.checks.length)
    let (a, rest) ← r.ofItems short 0 items
    if rest = [] then return a
    else throw (.wrongLength items.length "fewer elements in array")
  | other => .error (.wrongType other kind)

end Record

end EditorBridge.Json
