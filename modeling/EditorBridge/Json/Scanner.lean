import EditorBridge.Json.Basic
import EditorBridge.Json.Fault
/-!
# The tokens of JSON text

Reading goes over bytes from left to right. Each function takes the unread
bytes and gives what it read with the bytes after it, or a fault. Bytes outside
strings are only compared, so text that is no UTF-8 is noticed at the end of
the string that holds it.
-/

namespace EditorBridge.Json

open Text (Bytes)

/-- What was read and the bytes after it. -/
abbrev Taken (α : Type) := α × Bytes

namespace Scan

/-- A byte by its ASCII character. -/
def byte (c : Char) : UInt8 := c.toUInt8

/-- Blank, line feed, carriage return or tab. -/
def isSpace (b : UInt8) : Bool := b == 0x20 || b == 0x0A || b == 0x0D || b == 0x09

/-- The bytes from the first that is not a space. -/
def skipSpace (bs : Bytes) : Bytes := bs.dropWhile isSpace

/-- A decimal digit. -/
def isDigit (b : UInt8) : Bool := 0x30 ≤ b && b ≤ 0x39

/-- The value of a decimal digit. -/
def digitValue (b : UInt8) : Nat := b.toNat - 0x30

/-- The number that digits stand for. -/
def digitsValue (ds : Bytes) : Nat := ds.foldl (fun n d => 10 * n + digitValue d) 0

/-- The value of a hexadecimal digit of either case. -/
def hexValue? (b : UInt8) : Option Nat :=
  if isDigit b then some (digitValue b)
  else if 0x61 ≤ b && b ≤ 0x66 then some (b.toNat - 0x57)
  else if 0x41 ≤ b && b ≤ 0x46 then some (b.toNat - 0x37)
  else none

/-! ## Words -/

/-- The letters of a word after its first. -/
def word : Bytes → Bytes → Except Fault (Taken Unit)
  | [], bs => .ok ((), bs)
  | _ :: _, [] => .error (.here .endInValue [])
  | w :: ws, b :: bs => if w = b then word ws bs else .error (.here .expectedIdent bs)

/-! ## Strings -/

/-- Four hexadecimal digits. With fewer than four bytes left the text ends here. -/
def hexEscape : Bytes → Except Fault (Taken Nat)
  | a :: b :: c :: d :: rest =>
    match hexValue? a, hexValue? b, hexValue? c, hexValue? d with
    | some a, some b, some c, some d => .ok (((a * 16 + b) * 16 + c) * 16 + d, rest)
    | _, _, _, _ => .error (.here .invalidEscape rest)
  | _ => .error (.here .endInString [])

/-- The second half of a surrogate pair, which has to follow its first half. -/
def secondSurrogate (high : Nat) : Bytes → Except Fault (Taken Char)
  | 0x5C :: 0x75 :: rest => do
    let (low, rest) ← hexEscape rest
    if low < 0xDC00 ∨ 0xDFFF < low then .error (.here .loneSurrogate rest)
    else .ok (Char.ofNat (0x10000 + (high - 0xD800) * 0x400 + (low - 0xDC00)), rest)
  | 0x5C :: _ :: rest => .error (.here .unfinishedSurrogate rest)
  | [0x5C] | [] => .error (.here .endInString [])
  | _ :: rest => .error (.here .unfinishedSurrogate rest)

/-- The character of an escape, after its `u`. -/
def unicodeEscape (bs : Bytes) : Except Fault (Taken Char) := do
  let (code, rest) ← hexEscape bs
  if 0xDC00 ≤ code ∧ code ≤ 0xDFFF then .error (.here .loneSurrogate rest)
  else if 0xD800 ≤ code ∧ code ≤ 0xDBFF then secondSurrogate code rest
  else .ok (Char.ofNat code, rest)

/-- The character that a letter stands for after a backslash. -/
def letterEscape? (b : UInt8) : Option Char :=
  if b = byte '"' then some '"'
  else if b = byte '\\' then some '\\'
  else if b = byte '/' then some '/'
  else if b = byte 'b' then some '\x08'
  else if b = byte 'f' then some '\x0c'
  else if b = byte 'n' then some '\n'
  else if b = byte 'r' then some '\r'
  else if b = byte 't' then some '\t'
  else none

/-- The character of an escape, after its backslash. -/
def escaped : Bytes → Except Fault (Taken Char)
  | [] => .error (.here .endInString [])
  | b :: rest =>
    if b = byte 'u' then unicodeEscape rest
    else
      match letterEscape? b with
      | some c => .ok (c, rest)
      | none => .error (.here .invalidEscape rest)

theorem hexEscape_length {bs rest : Bytes} {n : Nat} (h : hexEscape bs = .ok (n, rest)) :
    rest.length ≤ bs.length := by
  unfold hexEscape at h
  repeat' split at h
  all_goals first
    | contradiction
    | (simp only [Except.ok.injEq, Prod.mk.injEq] at h; obtain ⟨-, rfl⟩ := h; simp; omega)

theorem secondSurrogate_length {bs rest : Bytes} {n : Nat} {c : Char}
    (h : secondSurrogate n bs = .ok (c, rest)) : rest.length ≤ bs.length := by
  unfold secondSurrogate at h
  split at h
  · rename_i r
    cases hx : hexEscape r with
    | error e => simp [hx, bind, Except.bind] at h
    | ok p =>
      have hl := @hexEscape_length _ p.2 p.1 hx
      simp only [hx, bind, Except.bind] at h
      split at h
      · contradiction
      · simp only [Except.ok.injEq, Prod.mk.injEq] at h
        obtain ⟨-, rfl⟩ := h
        simp only [List.length_cons]
        omega
  all_goals contradiction

theorem unicodeEscape_length {bs rest : Bytes} {c : Char} (h : unicodeEscape bs = .ok (c, rest)) :
    rest.length ≤ bs.length := by
  unfold unicodeEscape at h
  cases hx : hexEscape bs with
  | error e => simp [hx, bind, Except.bind] at h
  | ok p =>
    have hl := @hexEscape_length _ p.2 p.1 hx
    simp only [hx, bind, Except.bind] at h
    split at h
    · contradiction
    · split at h
      · exact Nat.le_trans (secondSurrogate_length h) hl
      · simp only [Except.ok.injEq, Prod.mk.injEq] at h
        obtain ⟨-, rfl⟩ := h
        exact hl

theorem escaped_length {bs rest : Bytes} {c : Char} (h : escaped bs = .ok (c, rest)) :
    rest.length ≤ bs.length := by
  unfold escaped at h
  split at h
  · contradiction
  · split at h
    · exact Nat.le_succ_of_le (unicodeEscape_length h)
    · split at h
      · simp only [Except.ok.injEq, Prod.mk.injEq] at h
        obtain ⟨-, rfl⟩ := h
        simp
      · contradiction

/-- A string after its opening quote: the characters already read in reverse, and if some bytes were
no text, the number of bytes behind the first of them. That fault is raised when the string has
been read to its end, so any other fault of the string comes before it. -/
def stringBody (done : List Char) (bad : Option Nat) (bs : Bytes) : Except Fault (Taken String) :=
  match bs with
  | [] => .error (.here .endInString [])
  | b :: rest =>
    if b = byte '"' then
      match bad with
      | none => .ok (String.ofList done.reverse, rest)
      | some left => .error ⟨.invalidText, left⟩
    else if b = byte '\\' then
      match _h : escaped rest with
      | .ok (c, after) => stringBody (c :: done) bad after
      | .error fault => .error fault
    else if b < 0x20 then .error (.here .controlCharacter rest)
    else
      match _h : Text.decodeChar (b :: rest) with
      | some (c, after) => stringBody (c :: done) bad after
      | none => stringBody done (some (bad.getD rest.length)) rest
termination_by bs.length
decreasing_by
  · have := escaped_length _h
    simp only [List.length_cons]
    omega
  · exact Text.decodeChar_length _h
  · simp

/-- A string after its opening quote. -/
def string (bs : Bytes) : Except Fault (Taken String) := stringBody [] none bs

/-! ## Numbers -/

/-- A number as an integer if it is one of 64 bits; a minus sign makes zero a floating-point
number. -/
def ofInteger? (negative : Bool) (n : Nat) : Option Json :=
  if negative then
    if n = 0 ∨ Nat.pow 2 63 < n then none else some (.int (-n))
  else if n < Nat.pow 2 64 then some (.int n) else none

/-- `digits · 10^exp`, the fault being at the bytes after it. -/
def float (negative : Bool) (digits : Nat) (exp : Int) (rest : Bytes) : Except Fault (Taken Json) :=
  match Binary64.ofDecimal negative digits exp with
  | some x => .ok (.float x, rest)
  | none => .error (.here .numberRange rest)

/-- Digits of an exponent for as long as it fits into 31 bits: the exponent and the bytes behind
it, with a mark if the last digit read made it too large. -/
def exponentDigits (n : Nat) : Bytes → Nat × Bool × Bytes
  | [] => (n, false, [])
  | b :: rest =>
    if isDigit b then
      let n' := 10 * n + digitValue b
      if n' < Nat.pow 2 31 then exponentDigits n' rest else (n, true, rest)
    else (n, false, b :: rest)

/-- An exponent after its letter, and with it the number. -/
def exponent (negative : Bool) (digits : Nat) (exp : Int) (bs : Bytes) :
    Except Fault (Taken Json) :=
  let (down, bs) :=
    match bs with
    | 0x2B :: rest => (false, rest)
    | 0x2D :: rest => (true, rest)
    | _ => (false, bs)
  match bs with
  | [] => .error (.here .endInValue [])
  | b :: rest =>
    if isDigit b then
      match exponentDigits (digitValue b) rest with
      | (n, false, rest) => float negative digits (if down then exp - n else exp + n) rest
      | (_, true, rest) =>
        if digits = 0 ∨ down then .ok (.float (.zero negative), rest.dropWhile isDigit)
        else .error (.here .numberRange rest)
    else .error (.here .invalidNumber rest)

/-- Starts an exponent. -/
def isExponentMark (b : UInt8) : Bool := b == byte 'e' || b == byte 'E'

/-- The digits after a decimal point, and with them the number. -/
def fraction (negative : Bool) (digits : Nat) (bs : Bytes) : Except Fault (Taken Json) :=
  let ds := bs.takeWhile isDigit
  let rest := bs.dropWhile isDigit
  let digits' := digits * Nat.pow 10 ds.length + digitsValue ds
  let exp : Int := -ds.length
  if ds = [] then
    if bs = [] then .error (.next .endInValue bs) else .error (.next .invalidNumber bs)
  else
    match rest with
    | b :: after =>
      if isExponentMark b then exponent negative digits' exp after
      else float negative digits' exp rest
    | [] => float negative digits' exp rest

/-- A number after the digits before its point. -/
def afterWhole (negative : Bool) (digits : Nat) (bs : Bytes) : Except Fault (Taken Json) :=
  match bs with
  | b :: rest =>
    if b = byte '.' then fraction negative digits rest
    else if isExponentMark b then exponent negative digits 0 rest
    else whole
  | [] => whole
where
  /-- The number ends here. -/
  whole : Except Fault (Taken Json) :=
    match ofInteger? negative digits with
    | some j => .ok (j, bs)
    | none => float negative digits 0 bs

/-- A number after its sign. A zero stands alone before the point. -/
def unsigned (negative : Bool) : Bytes → Except Fault (Taken Json)
  | [] => .error (.here .endInValue [])
  | b :: rest =>
    if b = 0x30 then
      if (rest.head?.map isDigit).getD false then .error (.next .invalidNumber rest)
      else afterWhole negative 0 rest
    else if isDigit b then
      let ds := b :: rest.takeWhile isDigit
      afterWhole negative (digitsValue ds) (rest.dropWhile isDigit)
    else .error (.here .invalidNumber rest)

/-- A number. -/
def number : Bytes → Except Fault (Taken Json)
  | 0x2D :: rest => unsigned true rest
  | bs => unsigned false bs

/-! ## Between the tokens -/

/-- Whether another item follows in a list; the comma before it is read. -/
def nextItem (first : Bool) (bs : Bytes) : Except Fault (Taken Bool) :=
  let bs := skipSpace bs
  match bs with
  | [] => .error (.next .endInList bs)
  | b :: rest =>
    if b = byte ']' then .ok (false, bs)
    else if first then .ok (true, bs)
    else if b = byte ',' then
      let rest := skipSpace rest
      match rest with
      | [] => .error (.next .endInValue rest)
      | b :: _ => if b = byte ']' then .error (.next .trailingComma rest) else .ok (true, rest)
    else .error (.next .expectedListEnd bs)

/-- Whether another member follows in an object; the comma before it and the opening quote of its
key are read. -/
def nextKey (first : Bool) (bs : Bytes) : Except Fault (Taken Bool) :=
  let bs := skipSpace bs
  match bs with
  | [] => .error (.next .endInObject bs)
  | b :: rest =>
    if b = byte '\x7d' then .ok (false, bs)
    else if first then
      if b = byte '"' then .ok (true, rest) else .error (.next .keyNotString bs)
    else if b = byte ',' then
      let rest := skipSpace rest
      match rest with
      | [] => .error (.next .endInValue rest)
      | b :: after =>
        if b = byte '"' then .ok (true, after)
        else if b = byte '\x7d' then .error (.next .trailingComma rest)
        else .error (.next .keyNotString rest)
    else .error (.next .expectedObjectEnd bs)

/-- The colon after a key. -/
def colon (bs : Bytes) : Except Fault (Taken Unit) :=
  let bs := skipSpace bs
  match bs with
  | [] => .error (.next .endInObject bs)
  | b :: rest => if b = byte ':' then .ok ((), rest) else .error (.next .expectedColon bs)

end Scan

end EditorBridge.Json
