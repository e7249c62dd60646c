/-!
# Text as bytes

The encoding of text as UTF-8 and the reading of bytes that may not be text.
-/

namespace EditorBridge.Text

/-- A byte string. -/
abbrev Bytes := List UInt8

/-- The UTF-8 bytes of a list of characters. -/
def encodeChars (cs : List Char) : Bytes := cs.flatMap String.utf8EncodeChar

/-- The UTF-8 bytes of a text. -/
def encode (s : String) : Bytes := encodeChars s.toList

/-- A byte inside a sequence of several. -/
def isContinuation (b : UInt8) : Bool := 0x80 ≤ b && b < 0xC0

/-- The six bits that a byte inside a sequence carries. -/
def payload (b : UInt8) : Nat := b.toNat % 64

/-- The character of a code point, unless it is a surrogate, too large, or below `least`, the first
that needs so many bytes. -/
def scalar? (least n : Nat) : Option Char :=
  if least ≤ n ∧ n.isValidChar then some (Char.ofNat n) else none

/-- The first character and the bytes after it, if the bytes start with a well-formed one. -/
def decodeChar : Bytes → Option (Char × Bytes)
  | [] => none
  | a :: rest =>
    if a < 0x80 then some (Char.ofNat a.toNat, rest)
    else if a < 0xC0 then none
    else if a < 0xE0 then
      match rest with
      | b :: rest =>
        if isContinuation b then
          (scalar? 0x80 (a.toNat % 32 * 64 + payload b)).map fun c => (c, rest)
        else none
      | _ => none
    else if a < 0xF0 then
      match rest with
      | b :: c :: rest =>
        if isContinuation b && isContinuation c then
          (scalar? 0x800 ((a.toNat % 16 * 64 + payload b) * 64 + payload c)).map fun c => (c, rest)
        else none
      | _ => none
    else if a < 0xF8 then
      match rest with
      | b :: c :: d :: rest =>
        if isContinuation b && isContinuation c && isContinuation d then
          (scalar? 0x10000 (((a.toNat % 8 * 64 + payload b) * 64 + payload c) * 64 + payload d)).map
            fun c => (c, rest)
        else none
      | _ => none
    else none

theorem decodeChar_length {bs rest : Bytes} {c : Char} (h : decodeChar bs = some (c, rest)) :
    rest.length < bs.length := by
  unfold decodeChar at h
  grind [Option.map_eq_some_iff]

/-- The characters of a byte string, those already read in reverse. -/
def decodeFrom (done : List Char) (bs : Bytes) : Option (List Char) :=
  if bs = [] then some done.reverse
  else
    match _h : decodeChar bs with
    | some (c, rest) => decodeFrom (c :: done) rest
    | none => none
termination_by bs.length
decreasing_by exact decodeChar_length _h

/-- The text whose UTF-8 bytes these are, if they are well formed. -/
def decode? (bs : Bytes) : Option String := (decodeFrom [] bs).map String.ofList

end EditorBridge.Text
