import EditorBridge.Json.Decode
import EditorBridge.Json.Skip
/-!
# Reading records straight from text

A record whose fields all have defaults is read from text without a value in
between, so that a mismatch can say where it stands: behind a scalar of the
wrong type, before a list or an object, behind a repeated key.
-/

namespace EditorBridge.Json

open Text (Bytes)

/-- A field of a record: its name, and how its value changes the record. -/
structure TextField (α : Type) where
  name : String
  read : Bytes → Except Fault (Taken (α → α))

namespace Scan

/-- A fault of content at the next unread byte. -/
def mismatch (m : Mismatch) (rest : Bytes) : Fault := .here (.content m.message) rest

/-- The fault of a value of the wrong type. A scalar is read first and has to be well formed. -/
def wrongType {α : Type} (expected : String) (bs : Bytes) : Except Fault α :=
  if bs.head? = some (byte '[') then .error (mismatch (.wrongType (.arr []) expected) bs)
  else if bs.head? = some (byte '\x7b') then .error (mismatch (.wrongType (.obj []) expected) bs)
  else do
    let (j, rest) ← scalar bs
    throw (mismatch (.wrongType j expected) rest)

/-- A value at its first byte, with spaces before it passed over. -/
def atValue {α : Type} (k : UInt8 → Bytes → Except Fault α) (bs : Bytes) : Except Fault α :=
  match skipSpace bs with
  | [] => .error (.next .endInValue [])
  | b :: rest => k b rest

/-- A string field; `expected` names what is wanted. -/
def textField (expected : String) : Bytes → Except Fault (Taken String) :=
  atValue fun b rest => if b = byte '"' then string rest else wrongType expected (b :: rest)

/-- An unsigned integer field of some bits, which `kind` names. -/
def naturalField (bits : Nat) (kind : String) : Bytes → Except Fault (Taken Nat) :=
  atValue fun b rest =>
    if b = byte '-' ∨ isDigit b then do
      let (j, rest) ← number (b :: rest)
      match Decoder.natural bits kind j with
      | .ok n => return (n, rest)
      | .error m => throw (mismatch m rest)
    else wrongType kind (b :: rest)

/-- A field that may be `null`. -/
def optionalField {α : Type} (read : Bytes → Except Fault (Taken α)) (bs : Bytes) :
    Except Fault (Taken (Option α)) :=
  match skipSpace bs with
  | b :: rest =>
    if b = byte 'n' then do
      let ((), rest) ← word (Text.encode "ull") rest
      return (none, rest)
    else (read (b :: rest)).map fun (a, rest) => (some a, rest)
  | [] => (read []).map fun (a, rest) => (some a, rest)

/-- The end of a list all of whose fields have been read. -/
def listEnd {α : Type} (a : α) (bs : Bytes) : Except Fault (Taken α) :=
  match skipSpace bs with
  | [] => .error (.next .endInList [])
  | b :: rest =>
    if b = byte ']' then .ok (a, rest)
    else if b = byte ',' then
      let rest := skipSpace rest
      if rest.head? = some (byte ']') then .error (.next .trailingComma rest)
      else .error (.next .trailingCharacters rest)
    else .error (.next .trailingCharacters (b :: rest))

/-- The fields of a record by position, until the list ends. -/
def recordItems {α : Type} : List (TextField α) → Bool → α → Bytes → Except Fault (Taken α)
  | [], _, a, bs => listEnd a bs
  | f :: fs, first, a, bs => do
    match ← nextItem first bs with
    | (false, bs) => return (a, bs.drop 1)
    | (true, bs) =>
      let (change, bs) ← f.read bs
      recordItems fs false (change a) bs

/-- The fields of a record by name. Each may occur once; unknown ones are passed over. -/
def recordMembers {α : Type} (fields : List (TextField α)) :
    (rounds : Nat) → Bool → List String → α → Bytes → Except Fault (Taken α)
  | 0, _, _, _, bs => .error (.next .endInObject bs)
  | rounds + 1, first, seen, a, bs => do
    match ← nextKey first bs with
    | (false, bs) => return (a, bs.drop 1)
    | (true, bs) =>
      let (key, bs) ← string bs
      match fields.find? (·.name = key) with
      | none =>
        let ((), bs) ← colon bs
        recordMembers fields rounds false seen a (← skip bs)
      | some f =>
        if key ∈ seen then throw (mismatch (.repeated key) (skipSpace bs))
        let ((), bs) ← colon bs
        let (change, bs) ← f.read bs
        recordMembers fields rounds false (key :: seen) (change a) bs

/-- A record, starting from its defaults; `kind` names it in a mismatch. -/
def textRecord {α : Type} (kind : String) (fields : List (TextField α)) (default : α) :
    Bytes → Except Fault (Taken α) :=
  atValue fun b rest =>
    if b = byte '[' then recordItems fields true default rest
    else if b = byte '\x7b' then recordMembers fields rest.length true [] default rest
    else wrongType kind (b :: rest)

end Scan

end EditorBridge.Json
