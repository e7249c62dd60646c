import EditorBridge.Json.Decode
/-!
# Parameters of methods

What `tools/call` and `resources/read` want to know.
-/

namespace EditorBridge.Rpc

open Json (Record Decoder)

/-- A tool to call and the arguments to call it with. -/
structure ToolCall where
  name : String
  arguments : Option Json
  deriving DecidableEq

/-- Reads the parameters of a tool call. -/
def ToolCall.decode : Decoder ToolCall :=
  (((Record.pure ToolCall.mk).seq
    (.required "name" Decoder.string)).seq
    (.withDefault "arguments" (Decoder.optional Decoder.any) none)).decode "struct CallToolParams"

/-- A resource to read. -/
structure ResourceRead where
  uri : String
  deriving DecidableEq

/-- Reads the parameters of a resource request. -/
def ResourceRead.decode : Decoder ResourceRead :=
  ((Record.pure ResourceRead.mk).seq
    (.required "uri" Decoder.string)).decode "struct ReadResourceParams"

end EditorBridge.Rpc
