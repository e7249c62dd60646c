import EditorBridge.Rpc.Error
/-!
# Results of tools

A result is a list of texts, and the same outcome once more as a JSON value. A
failure that the caller can act on is a result too, with a kind and a message.
-/

namespace EditorBridge.Tool

open Json (Record Decoder Mismatch)

/-- A piece of text; there is no other content. -/
structure Content where
  text : String
  deriving DecidableEq

namespace Content

/-- A piece of text with the tag of its type. -/
def toJson (c : Content) : Json := .obj [("type", .str "text"), ("text", .str c.text)]

/-- Reads the tag of a piece of content. -/
def decodeTag : Decoder Unit
  | .str s => if s = "text" then .ok () else .error (.unknownVariant s "text")
  | other => .error (.wrongType other "variant identifier")

/-- The fields beside the tag. -/
def record : Record Content := (Record.pure Content.mk).seq (.required "text" Decoder.string)

/-- Reads the fields beside the tag by position. -/
def ofItems (items : List Json) : Except Mismatch Content := do
  let short n := Mismatch.wrongLength n (Record.lengthText "struct variant Content::Text" 1)
  let (c, rest) ← record.ofItems short 0 items
  if rest = [] then return c
  else throw (.wrongLength items.length "1 element in sequence")

/-- Reads a piece of content. The tag is looked at before the fields. -/
def decode : Decoder Content
  | .obj members => do
    match Json.Members.get? "type" members with
    | none => throw (.missing "type")
    | some tag => decodeTag tag
    record.checkAll members
    record.ofMembers members
  | .arr [] => .error (.missing "type")
  | .arr (tag :: items) => do
    decodeTag tag
    ofItems items
  | other => .error (.wrongType other "internally tagged enum Content")

end Content

/-- The outcome of a tool call that came to an end. -/
structure Result where
  content : List Content
  structured : Option Json
  isError : Bool
  deriving DecidableEq

namespace Result

/-- The members of a result. -/
def toJson (r : Result) : Json :=
  .obj ([("content", .arr (r.content.map Content.toJson))] ++
    (r.structured.map fun j => ("structuredContent", j)).toList ++
    [("isError", .bool r.isError)])

/-- Reads a result. -/
def decode : Decoder Result :=
  ((((Record.pure Result.mk).seq
    (.required "content" (Decoder.list Content.decode))).seq
    (.maybe "structuredContent" Decoder.any)).seq
    (.withDefault "isError" Decoder.boolean false)).decode "struct ToolResult"

/-- A success: the value as indented text and as it is. -/
def success (value : Json) : Result := ⟨[⟨value.indented⟩], some value, false⟩

/-- A failure that a caller can tell by its kind. -/
def failure (kind : Rpc.ErrorKind) (message : String) : Result where
  content := [⟨message⟩]
  structured :=
    some (.obj [("error", .obj [("kind", .str kind.name), ("message", .str message)])])
  isError := true

/-- The kind of a failure. -/
def kind? (r : Result) : Option Rpc.ErrorKind := do
  Rpc.ErrorKind.ofJson? (← (← (← r.structured).get? "error").get? "kind")

theorem kind?_failure (kind : Rpc.ErrorKind) (message : String) :
    (failure kind message).kind? = some kind := by
  cases kind <;> rfl

end Result

end EditorBridge.Tool
