import EditorBridge.Json.Scanner
/-!
# Reading JSON text

A text is one value between spaces. Lists and objects nest to a limited depth;
of several members with one key the last counts.
-/

namespace EditorBridge.Json

open Text (Bytes)

namespace Scan

/-- The items of a list after its bracket, each read by `item`. Every item takes at least one byte,
so as many rounds as there are bytes suffice. -/
def listItems (item : Bytes → Except Fault (Taken Json)) :
    Nat → Bool → List Json → Bytes → Except Fault (Taken Json)
  | 0, _, _, bs => .error (.next .endInList bs)
  | rounds + 1, first, done, bs => do
    match ← nextItem first bs with
    | (false, bs) => .ok (.arr done.reverse, bs.drop 1)
    | (true, bs) =>
      let (x, bs) ← item bs
      listItems item rounds false (x :: done) bs

/-- The members of an object after its bracket, each value read by `item`. -/
def objectMembers (item : Bytes → Except Fault (Taken Json)) :
    Nat → Bool → Members → Bytes → Except Fault (Taken Json)
  | 0, _, _, bs => .error (.next .endInObject bs)
  | rounds + 1, first, done, bs => do
    match ← nextKey first bs with
    | (false, bs) => .ok (.obj done, bs.drop 1)
    | (true, bs) =>
      let (key, bs) ← string bs
      let ((), bs) ← colon bs
      let (v, bs) ← item bs
      objectMembers item rounds false (Members.insert key v done) bs

/-- A value that is neither a list nor an object, at its first byte. -/
def scalar (bs : Bytes) : Except Fault (Taken Json) :=
  match bs with
  | [] => .error (.next .endInValue bs)
  | b :: rest =>
    if b = byte 'n' then do
      let ((), rest) ← word (Text.encode "ull") rest
      return (.null, rest)
    else if b = byte 't' then do
      let ((), rest) ← word (Text.encode "rue") rest
      return (.bool true, rest)
    else if b = byte 'f' then do
      let ((), rest) ← word (Text.encode "alse") rest
      return (.bool false, rest)
    else if b = byte '"' then do
      let (s, rest) ← string rest
      return (.str s, rest)
    else if b = byte '-' ∨ isDigit b then number bs
    else .error (.next .expectedValue bs)

/-- A value after spaces, with at most `depth` lists and objects around each other. -/
def value : (depth : Nat) → Bytes → Except Fault (Taken Json)
  | 0, bs =>
    let bs := skipSpace bs
    if bs.head? = some (byte '[') ∨ bs.head? = some (byte '\x7b') then .error (.next .tooDeep bs)
    else scalar bs
  | depth + 1, bs =>
    let bs := skipSpace bs
    match bs with
    | b :: rest =>
      if b = byte '[' then listItems (value depth) bs.length true [] rest
      else if b = byte '\x7b' then objectMembers (value depth) bs.length true [] rest
      else scalar bs
    | [] => scalar bs

/-- Nothing but spaces is left. -/
def finish {α : Type} : Taken α → Except Fault α
  | (x, rest) =>
    match skipSpace rest with
    | [] => .ok x
    | b :: after => .error (.next .trailingCharacters (b :: after))

end Scan

/-- The greatest depth of lists and objects in a text. -/
def maxDepth : Nat := 127

/-- The value of a text with at most `depth` lists and objects around each other. -/
def readWithin (depth : Nat) (bs : Bytes) : Except Fault Json := do
  Scan.finish (← Scan.value depth bs)

/-- The value of a text. -/
def read (bs : Bytes) : Except Fault Json := readWithin maxDepth bs

/-- The value of a text, or the wording of its fault. -/
def parse (text : String) : Except String Json :=
  let bs := Text.encode text
  (read bs).mapError (Fault.message bs)

end EditorBridge.Json
