import EditorBridge.Json.Reader
/-!
# Skipping a value

A member that nobody asked for is passed over without being kept. It only has
to look like a value: lists and objects may nest to any depth, numbers may be of
any size, and escapes need not form characters.
-/

namespace EditorBridge.Json.Scan

open Text (Bytes)

/-- Something that is open while a value is passed over. -/
inductive Container where
  | list
  | object
  deriving DecidableEq, Repr

namespace Container

/-- The byte that ends a container. -/
def closing : Container → UInt8
  | .list => byte ']'
  | .object => byte '\x7d'

/-- The fault of a text that ends inside a container. -/
def unfinished : Container → Reason
  | .list => .endInList
  | .object => .endInObject

/-- The fault of a byte that neither separates nor ends. -/
def unexpected : Container → Reason
  | .list => .expectedListEnd
  | .object => .expectedObjectEnd

end Container

/-- Passes over the digits of an exponent, after its letter. -/
def skipExponent (bs : Bytes) : Except Fault Bytes :=
  let bs :=
    match bs with
    | b :: rest => if b = byte '+' ∨ b = byte '-' then rest else b :: rest
    | [] => []
  match bs with
  | [] => .error (.here .invalidNumber [])
  | b :: rest =>
    if isDigit b then .ok (rest.dropWhile isDigit) else .error (.here .invalidNumber rest)

/-- Passes over what may follow the whole part of a number. -/
def skipFraction (bs : Bytes) : Except Fault Bytes :=
  match bs with
  | [] => .ok []
  | b :: rest =>
    if b = byte '.' then
      let after := rest.dropWhile isDigit
      if rest.takeWhile isDigit = [] then .error (.next .invalidNumber rest)
      else
        match after with
        | e :: after' => if isExponentMark e then skipExponent after' else .ok after
        | [] => .ok []
    else if isExponentMark b then skipExponent rest
    else .ok bs

/-- Passes over a number after its sign. -/
def skipNumber : Bytes → Except Fault Bytes
  | [] => .error (.here .invalidNumber [])
  | b :: rest =>
    if b = 0x30 then
      if (rest.head?.map isDigit).getD false then .error (.next .invalidNumber rest)
      else skipFraction rest
    else if isDigit b then skipFraction (rest.dropWhile isDigit)
    else .error (.here .invalidNumber rest)

/-- Passes over a string after its opening quote; `rounds` is at least the number of its bytes. -/
def skipString : (rounds : Nat) → Bytes → Except Fault Bytes
  | _, [] | 0, _ => .error (.here .endInString [])
  | rounds + 1, b :: rest =>
    if b = byte '"' then .ok rest
    else if b = byte '\\' then
      match rest with
      | [] => .error (.here .endInString [])
      | e :: after =>
        if e = byte 'u' then do
          let (_, after) ← hexEscape after
          skipString rounds after
        else if (letterEscape? e).isSome then skipString rounds after
        else .error (.here .invalidEscape after)
    else if b < 0x20 then .error (.here .controlCharacter (b :: rest))
    else skipString rounds rest

/-- Passes over a value that is neither a list nor an object, at its first byte. -/
def skipScalar (b : UInt8) (rest : Bytes) : Except Fault Bytes :=
  if b = byte 'n' then (word (Text.encode "ull") rest).map (·.2)
  else if b = byte 't' then (word (Text.encode "rue") rest).map (·.2)
  else if b = byte 'f' then (word (Text.encode "alse") rest).map (·.2)
  else if b = byte '"' then skipString rest.length rest
  else if b = byte '-' then skipNumber rest
  else if isDigit b then skipNumber (b :: rest)
  else .error (.next .expectedValue (b :: rest))

/-- Passes over the key and the colon of a member. -/
def skipKey (bs : Bytes) : Except Fault Bytes :=
  match skipSpace bs with
  | [] => .error (.next .endInObject [])
  | b :: rest =>
    if b = byte '"' then do
      let rest ← skipString rest.length rest
      let ((), rest) ← colon rest
      return rest
    else .error (.next .keyNotString (b :: rest))

mutual

/-- Passes over a value inside the open containers, and what follows it until they are closed. -/
def skipValue : (rounds : Nat) → List Container → Bytes → Except Fault Bytes
  | 0, _, bs => .error (.next .endInValue bs)
  | rounds + 1, outer, bs =>
    match skipSpace bs with
    | [] => .error (.next .endInValue [])
    | b :: rest =>
      if b = byte '[' then skipRest rounds false .list outer rest
      else if b = byte '\x7b' then skipRest rounds false .object outer rest
      else do
        let rest ← skipScalar b rest
        match outer with
        | [] => return rest
        | c :: outer => skipRest rounds true c outer rest

/-- Passes over the rest of a container; `after` says whether an element has just been read. -/
def skipRest : (rounds : Nat) → (after : Bool) → Container → List Container → Bytes →
    Except Fault Bytes
  | 0, _, c, _, bs => .error (.next c.unfinished bs)
  | rounds + 1, after, c, outer, bs =>
    match skipSpace bs with
    | [] => .error (.next c.unfinished [])
    | b :: rest =>
      let element (bs : Bytes) : Except Fault Bytes :=
        match c with
        | .list => skipValue rounds (.list :: outer) bs
        | .object => do skipValue rounds (.object :: outer) (← skipKey bs)
      if after ∧ b = byte ',' then element rest
      else if b = c.closing then
        match outer with
        | [] => .ok rest
        | c :: outer => skipRest rounds true c outer rest
      else if after then .error (.next c.unexpected (b :: rest))
      else element (b :: rest)

end

/-- Passes over one value. Every second round takes a byte. -/
def skip (bs : Bytes) : Except Fault Bytes := skipValue (2 * bs.length + 2) [] bs

end EditorBridge.Json.Scan
