import EditorBridge.Json.Decode
/-!
# JSON-RPC errors

An error has a code, a message and data. Errors of the bridge carry in their
data a kind that a client can branch on.
-/

namespace EditorBridge.Rpc

/-- What a client can do about an error. -/
inductive ErrorKind where
  /-- Try again: the editor is away, its data is old or a session is not ready. -/
  | notAvailable
  /-- The feature does not exist. -/
  | notSupported
  /-- The request is wrong. -/
  | invalidParams
  /-- The fault is on this side. -/
  | internal
  deriving DecidableEq, Repr

/-- The name of a kind. -/
def ErrorKind.name : ErrorKind → String
  | .notAvailable => "not_available"
  | .notSupported => "not_supported"
  | .invalidParams => "invalid_params"
  | .internal => "internal"

/-- The kind with a name. -/
def ErrorKind.ofName? (s : String) : Option ErrorKind :=
  [ErrorKind.notAvailable, .notSupported, .invalidParams, .internal].find? (·.name = s)

/-- A kind written as its name, or as an object whose only member has that name and is `null`. -/
def ErrorKind.ofJson? : Json → Option ErrorKind
  | .str s => ofName? s
  | .obj [(s, .null)] => ofName? s
  | _ => none

/-- Parse errors of a body. -/
def parseErrorCode : Int := -32700
/-- Messages that are no valid request. -/
def invalidRequestCode : Int := -32600
/-- Methods that do not exist. -/
def methodNotFoundCode : Int := -32601
/-- Parameters that do not fit. -/
def invalidParamsCode : Int := -32602
/-- Faults on this side. -/
def internalErrorCode : Int := -32603
/-- Errors of the server's own. -/
def serverErrorCode : Int := -32000

/-- A JSON-RPC error. -/
structure Error where
  code : Int
  message : String
  data : Option Json
  deriving DecidableEq

namespace Error

/-- An error whose data is its kind. -/
def tagged (code : Int) (message : String) (kind : ErrorKind) : Error :=
  ⟨code, message, some (.obj [("kind", .str kind.name)])⟩

/-- The body is no JSON. -/
def parseError (detail : String) : Error := ⟨parseErrorCode, "Parse error: " ++ detail, none⟩

/-- The message is no valid request. -/
def invalidRequest (message : String) : Error := ⟨invalidRequestCode, message, none⟩

/-- The method does not exist. -/
def methodNotFound (method : String) : Error :=
  ⟨methodNotFoundCode, "Method not found: " ++ method, none⟩

/-- A mistake of the client. -/
def invalidParams (message : String) : Error := tagged invalidParamsCode message .invalidParams

/-- Not available at the moment. -/
def notAvailable (message : String) : Error := tagged serverErrorCode message .notAvailable

/-- Not supported. -/
def notSupported (message : String) : Error := tagged serverErrorCode message .notSupported

/-- A fault on this side. -/
def internal (message : String) : Error := tagged internalErrorCode message .internal

/-- The kind in an error's data. -/
def kind? (e : Error) : Option ErrorKind := do ErrorKind.ofJson? (← (← e.data).get? "kind")

/-- The members of an error, its data only if there is some. -/
def toJson (e : Error) : Json :=
  .obj ([("code", .int e.code), ("message", .str e.message)] ++
    (e.data.map fun d => ("data", d)).toList)

/-- The fields of an error. -/
def record : Json.Record Error :=
  ((Json.Record.pure Error.mk).seq
    (.required "code" (Json.Decoder.integer (-2147483648) 2147483647 "i32"))).seq
    (.required "message" Json.Decoder.string) |>.seq (.maybe "data" Json.Decoder.any)

/-- Reads an error. -/
def decode : Json.Decoder Error := record.decode "struct JsonRpcError"

end Error

end EditorBridge.Rpc
