import EditorBridge.Rpc.Message
import EditorBridge.Session
import EditorBridge.Text.Blank
import EditorBridge.Text.Utf8
/-!
# Requests and responses of HTTP

What the routes look at in a request and what they put into a response.
-/

namespace EditorBridge.Http

/-- A request. The headers come in their order, and the first of several counts. -/
structure Request where
  method : String
  path : String
  headers : List (String × String)
  body : Text.Bytes
  deriving DecidableEq

/-- What a response carries. -/
inductive Body where
  | empty
  | json (j : Json)
  | text (s : String)
  /-- The frames of a transport, as they come. -/
  | stream (t : TransportId)
  deriving DecidableEq

/-- A response. -/
structure Response where
  status : Nat
  contentType : Option String
  cacheControl : Option String
  session : Option String
  body : Body
  deriving DecidableEq

namespace Response

/-- A response without a body. -/
def plain (status : Nat) : Response := ⟨status, none, none, none, .empty⟩

/-- A response with a JSON body. -/
def json (status : Nat) (j : Json) : Response :=
  ⟨status, some "application/json", none, none, .json j⟩

/-- A response with a message. -/
def message (status : Nat) (m : Rpc.Message) : Response := json status m.toJson

/-- The refusal of a request. -/
def refusal (status : Nat) (id : Json) (e : Rpc.Error) : Response :=
  message status (.errorReply id e)

end Response

/-! ## Headers -/

/-- The name of the header that names a session. -/
def sessionHeader : String := "mcp-session-id"

/-- The name of the header that names a protocol version. -/
def versionHeader : String := "mcp-protocol-version"

/-- A character that a readable header value may have. -/
def isHeaderChar (c : Char) : Bool := c = '\t' || (0x20 ≤ c.toNat && c.toNat < 0x7F)

/-- The text of a header, if it is readable. Names are compared without regard to case. -/
def Request.header? (r : Request) (name : String) : Option String :=
  match r.headers.find? fun (n, _) => n.toLower = name with
  | some (_, v) => if v.toList.all isHeaderChar then some v else none
  | none => none

/-- The text of a header without blanks around it, if there is any. -/
def Request.value? (r : Request) (name : String) : Option String :=
  match (r.header? name).map Text.trim with
  | some "" | none => none
  | some v => some v

/-- Whether some characters occur in a row. -/
def contains (part : List Char) : List Char → Bool
  | [] => part.isEmpty
  | c :: rest => part.isPrefixOf (c :: rest) || contains part rest

/-- Whether a client takes an event stream. -/
def Request.acceptsStream (r : Request) : Bool :=
  ((r.header? "accept").map fun v => contains "text/event-stream".toList v.toList).getD false

/-! ## Paths -/

/-- The value of a hexadecimal digit. -/
def hexDigit? (c : Char) : Option Nat :=
  if c.isDigit then some (c.toNat - 48)
  else if 'a' ≤ c ∧ c ≤ 'f' then some (c.toNat - 87)
  else if 'A' ≤ c ∧ c ≤ 'F' then some (c.toNat - 55)
  else none

/-- A path with its escapes of ASCII characters resolved. -/
def unescape : List Char → List Char
  | [] => []
  | '%' :: a :: b :: rest =>
    match hexDigit? a, hexDigit? b with
    | some h, some l =>
      if h < 8 then Char.ofNat (16 * h + l) :: unescape rest else '%' :: a :: b :: unescape rest
    | _, _ => '%' :: unescape (a :: b :: rest)
  | c :: rest => c :: unescape rest

/-- The path of a request without its query, escapes resolved. -/
def Request.route (r : Request) : String :=
  String.ofList (unescape (r.path.toList.takeWhile fun c => c ≠ '?' && c ≠ '#'))

end EditorBridge.Http
