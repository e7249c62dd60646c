import EditorBridge.Json.Reader
import EditorBridge.Rpc.Message
/-!
# Inbound frames

The body of a POST holds exactly one message. Every body is sorted into one of
three: a request (or notification), a response that is only taken note of, or a
refusal that is itself a well-formed message and echoes the body's id where it
is usable.
-/

namespace EditorBridge.Rpc

open Text (Bytes)

/-- The method of the first request of a session. -/
def handshakeMethod : String := "initialize"

/-- A request that has passed the checks; without an id it is a notification. -/
structure Request where
  id : Option Json
  method : String
  params : Option Json
  deriving DecidableEq

namespace Request

/-- A request that wants no answer. -/
def isNotification (r : Request) : Bool := r.id.isNone

/-- The first request of a session. -/
def isHandshake (r : Request) : Bool := r.method = handshakeMethod

/-- The id to answer to. -/
def replyId (r : Request) : Json := Json.orNull r.id

/-- The members of the params, none if they are absent. -/
def paramMembers (r : Request) : Json.Members :=
  match r.params with
  | some (.obj members) => members
  | _ => []

end Request

/-- What a body holds. -/
inductive Frame where
  | request (r : Request)
  | oneWay
  | rejected (m : Message)
  deriving DecidableEq

/-- An id that can be answered to. -/
def isId : Json → Bool
  | .str _ | .int _ => true
  | _ => false

namespace Frame

/-- A refusal with an error. -/
def refuse (id : Json) (e : Error) : Frame := .rejected (.errorReply id e)

/-- A refusal of something that is no valid request. -/
def invalid (id : Json) (detail : String) : Frame :=
  refuse id (.invalidRequest ("Invalid Request: " ++ detail))

/-- A message without a method: a response with exactly one outcome. -/
def ofResponse (id : Option Json) (members : Json.Members) : Frame :=
  match (Json.Members.get? "result" members).isSome, (Json.Members.get? "error" members).isSome with
  | true, true => invalid (Json.orNull id) "response cannot carry both result and error"
  | false, false => invalid (Json.orNull id) "missing method"
  | _, _ => if id.isSome then .oneWay else invalid .null "response requires an id"

/-- A message with a method. -/
def ofCall (id : Option Json) (method : String) (members : Json.Members) : Frame :=
  let replyId := Json.orNull id
  let accept (params : Option Json) : Frame :=
    if method = handshakeMethod ∧ id = none then invalid .null "initialize requires an id"
    else .request ⟨id, method, params⟩
  if (Json.Members.get? "result" members).isSome ∨ (Json.Members.get? "error" members).isSome then
    invalid replyId "request cannot carry result or error"
  else
    match Json.Members.get? "params" members with
    | none => accept none
    | some (.obj params) => accept (some (.obj params))
    | some _ => refuse replyId (.invalidParams "Invalid params: params must be an object")

/-- An object whose id is usable or absent. -/
def ofMembers (id : Option Json) (members : Json.Members) : Frame :=
  if Json.Members.get? "jsonrpc" members ≠ some (.str version) then
    invalid (Json.orNull id) "jsonrpc must be \"2.0\""
  else
    match Json.Members.get? "method" members with
    | none => ofResponse id members
    | some (.str method) =>
      if method = "" then invalid (Json.orNull id) "method must be a string"
      else ofCall id method members
    | some _ => invalid (Json.orNull id) "method must be a string"

/-- The frame of a JSON value. -/
def ofJson : Json → Frame
  | .obj members =>
    match Json.Members.get? "id" members with
    | none => ofMembers none members
    | some id =>
      if isId id then ofMembers (some id) members
      else invalid .null "id must be a string or an integer"
  | .arr _ => invalid .null "batch requests are not supported"
  | _ => invalid .null "expected a JSON object"

/-- The frame of a body. -/
def parse (body : Bytes) : Frame :=
  match Json.read body with
  | .ok j => ofJson j
  | .error fault => refuse .null (.parseError (fault.message body))

end Frame

end EditorBridge.Rpc
