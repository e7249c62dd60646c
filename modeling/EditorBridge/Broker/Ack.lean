import EditorBridge.Json.Decode
import EditorBridge.Time.Reading
/-!
# Acknowledgements

What the editor answers to a command: which command, whether it succeeded, and
a result or an error text.
-/

namespace EditorBridge

/-- A timestamp in a JSON string. -/
def Timestamp.decode : Json.Decoder Timestamp
  | .str s => (Timestamp.read s).mapError fun e => .other e.message
  | other => .error (.wrongType other "an RFC 3339 formatted date and time string")

namespace Broker

/-- The outcome of a command as the editor reports it. -/
structure Ack where
  commandId : String
  success : Bool
  result : Option Json
  error : Option String
  ackedAt : Option Timestamp
  deriving DecidableEq

namespace Ack

/-- The members of an acknowledgement, those without a value left out. -/
def toJson (a : Ack) : Json :=
  .obj ([("commandId", .str a.commandId), ("success", .bool a.success)] ++
    (a.result.map fun j => ("result", j)).toList ++
    (a.error.map fun s => ("error", .str s)).toList ++
    (a.ackedAt.map fun t => ("ackedAt", .str t.text)).toList)

/-- The fields of an acknowledgement. -/
def record : Json.Record Ack :=
  (((((Json.Record.pure Ack.mk).seq
    (.required "commandId" Json.Decoder.string)).seq
    (.required "success" Json.Decoder.boolean)).seq
    (.withDefault "result" (Json.Decoder.optional Json.Decoder.any) none)).seq
    (.withDefault "error" (Json.Decoder.optional Json.Decoder.string) none)).seq
    (.withDefault "ackedAt" (Json.Decoder.optional Timestamp.decode) none)

/-- Reads an acknowledgement. -/
def decode : Json.Decoder Ack := record.decode "struct CommandAck"

/-- The same acknowledgement, with the time it was taken if it names none. -/
def stamped (a : Ack) (now : Timestamp) : Ack := { a with ackedAt := some (a.ackedAt.getD now) }

end Ack

end Broker

end EditorBridge
