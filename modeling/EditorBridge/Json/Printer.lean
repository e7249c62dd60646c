import EditorBridge.Json.Basic
import EditorBridge.Number.Shortest
/-!
# JSON text

Two layouts: compact, without any blank, and indented by two blanks a level.
Quotes, backslashes and control characters are escaped, nothing else.
-/

namespace EditorBridge.Json

/-- The lower-case hexadecimal digit of a number below 16. -/
def hexDigit (n : Nat) : Char := Nat.digitChar n

/-- How a character stands inside quotes. -/
def escapeChar (c : Char) : List Char :=
  if c = '"' then ['\\', '"']
  else if c = '\\' then ['\\', '\\']
  else if c = '\n' then ['\\', 'n']
  else if c = '\r' then ['\\', 'r']
  else if c = '\t' then ['\\', 't']
  else if c = '\x08' then ['\\', 'b']
  else if c = '\x0c' then ['\\', 'f']
  else if c.toNat < 0x20 then
    ['\\', 'u', '0', '0', hexDigit (c.toNat / 16), hexDigit (c.toNat % 16)]
  else [c]

/-- The characters of a string between its quotes. -/
def escape : List Char → List Char
  | [] => []
  | c :: rest => escapeChar c ++ escape rest

/-- A string in quotes. -/
def quote (s : String) : List Char := '"' :: escape s.toList ++ ['"']

mutual

/-- The compact text of a value. -/
def chars : Json → List Char
  | .null => "null".toList
  | .bool true => "true".toList
  | .bool false => "false".toList
  | .int n => (toString n).toList
  | .float x => x.text
  | .str s => quote s
  | .arr items => '[' :: itemChars items ++ [']']
  | .obj members => '\x7b' :: memberChars members ++ ['\x7d']

/-- Items separated by commas. -/
def itemChars : List Json → List Char
  | [] => []
  | [x] => x.chars
  | x :: rest => x.chars ++ ',' :: itemChars rest

/-- Members separated by commas. -/
def memberChars : List (String × Json) → List Char
  | [] => []
  | [(k, v)] => quote k ++ ':' :: v.chars
  | (k, v) :: rest => quote k ++ ':' :: v.chars ++ ',' :: memberChars rest

end

/-- The compact text of a value. -/
def compact (j : Json) : String := String.ofList j.chars

/-- A line end and the indentation of a level. -/
def newLine (level : Nat) : List Char := '\n' :: List.replicate (2 * level) ' '

mutual

/-- The indented text of a value whose line is at the given level. -/
def indentedChars (level : Nat) : Json → List Char
  | .arr [] => ['[', ']']
  | .arr items => '[' :: indentedItems (level + 1) items ++ newLine level ++ [']']
  | .obj [] => ['\x7b', '\x7d']
  | .obj members => '\x7b' :: indentedMembers (level + 1) members ++ newLine level ++ ['\x7d']
  | .null => "null".toList
  | .bool b => chars (.bool b)
  | .int n => chars (.int n)
  | .float x => x.text
  | .str s => quote s

/-- Each item on a line of its own. -/
def indentedItems (level : Nat) : List Json → List Char
  | [] => []
  | [x] => newLine level ++ x.indentedChars level
  | x :: rest => newLine level ++ x.indentedChars level ++ ',' :: indentedItems level rest

/-- Each member on a line of its own. -/
def indentedMembers (level : Nat) : List (String × Json) → List Char
  | [] => []
  | [(k, v)] => newLine level ++ quote k ++ ':' :: ' ' :: v.indentedChars level
  | (k, v) :: rest =>
    newLine level ++ quote k ++ ':' :: ' ' :: v.indentedChars level ++
      ',' :: indentedMembers level rest

end

/-- The indented text of a value. -/
def indented (j : Json) : String := String.ofList (j.indentedChars 0)

end EditorBridge.Json
