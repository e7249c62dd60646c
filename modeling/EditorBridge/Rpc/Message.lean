import EditorBridge.Rpc.Error
/-!
# JSON-RPC messages

A message of JSON-RPC 2.0: a request, a notification or a response. It is
written with the members it has, in a fixed order, and read back from an object
or from a list of all six members.
-/

namespace EditorBridge.Rpc

/-- The version every message declares. -/
def version : String := "2.0"

/-- A message. -/
structure Message where
  jsonrpc : String
  id : Option Json
  method : Option String
  params : Option Json
  result : Option Json
  error : Option Error
  deriving DecidableEq

namespace Message

/-- The answer to a request. -/
def response (id result : Json) : Message := ⟨version, some id, none, none, some result, none⟩

/-- The refusal of a request. -/
def errorReply (id : Json) (e : Error) : Message := ⟨version, some id, none, none, none, some e⟩

/-- A message that wants no answer. -/
def notification (method : String) (params : Option Json) : Message :=
  ⟨version, none, some method, params, none, none⟩

/-- A message with an id and an outcome, and no method. -/
def isResponse (m : Message) : Bool :=
  m.id.isSome && m.method.isNone && (m.result.isSome || m.error.isSome)

/-- A message with a method and no id. -/
def isNotification (m : Message) : Bool := m.method.isSome && m.id.isNone

/-- A message with an error. -/
def isError (m : Message) : Bool := m.error.isSome

/-- The members of a message, in the order they are written. -/
def toJson (m : Message) : Json :=
  .obj ([("jsonrpc", .str m.jsonrpc)] ++
    (m.id.map fun j => ("id", j)).toList ++
    (m.method.map fun s => ("method", .str s)).toList ++
    (m.params.map fun j => ("params", j)).toList ++
    (m.result.map fun j => ("result", j)).toList ++
    (m.error.map fun e => ("error", e.toJson)).toList)

/-- The text of a message. -/
def wire (m : Message) : String := m.toJson.compact

/-- The fields of a message. -/
def record : Json.Record Message :=
  ((((((Json.Record.pure Message.mk).seq
    (.required "jsonrpc" Json.Decoder.string)).seq
    (.maybe "id" Json.Decoder.any)).seq
    (.maybe "method" Json.Decoder.string)).seq
    (.maybe "params" Json.Decoder.any)).seq
    (.maybe "result" Json.Decoder.any)).seq
    (.maybe "error" Error.decode)

/-- Reads a message. -/
def decode : Json.Decoder Message := record.decode "struct MCPMessage"

end Message

end EditorBridge.Rpc
