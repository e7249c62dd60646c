import EditorBridge.Json.Decode
/-!
# The handshake

What a client says about itself in its first request, and what the bridge
answers. The protocol versions that a session may agree on are listed here.
-/

namespace EditorBridge

/-- The version offered to a client that asks for an unknown one. -/
def preferredVersion : String := "2025-06-18"

/-- Every version a session may agree on. -/
def supportedVersions : List String := [preferredVersion, "2025-03-26", "2024-11-05"]

/-- Whether a session may agree on a version. -/
def isSupportedVersion (v : String) : Bool := supportedVersions.contains v

/-- The name the bridge gives itself. -/
def serverName : String := "Editor MCP Bridge"

/-- The version the bridge gives itself. -/
def serverVersion : String := "0.1.0"

namespace Handshake

open Json (Record Decoder)

/-- A client's description of itself. -/
structure ClientInfo where
  name : String
  version : String
  deriving DecidableEq

/-- Reads a client's description. -/
def ClientInfo.decode : Decoder ClientInfo :=
  (((Record.pure ClientInfo.mk).seq
    (.required "name" Decoder.string)).seq
    (.withDefault "version" Decoder.string "")).decode "struct ClientInfo"

/-- The members of a client's description. -/
def ClientInfo.toJson (c : ClientInfo) : Json :=
  .obj [("name", .str c.name), ("version", .str c.version)]

/-- What a client asks for. -/
structure Params where
  protocolVersion : String
  capabilities : Json
  clientInfo : Option ClientInfo
  deriving DecidableEq

/-- Reads what a client asks for. -/
def Params.decode : Decoder Params :=
  ((((Record.pure Params.mk).seq
    (.required "protocolVersion" Decoder.string)).seq
    (.withDefault "capabilities" Decoder.any .null)).seq
    (.withDefault "clientInfo" (Decoder.optional ClientInfo.decode) none)).decode
    "struct InitializeParams"

/-- The members of a client's request. -/
def Params.toJson (p : Params) : Json :=
  .obj [("protocolVersion", .str p.protocolVersion), ("capabilities", p.capabilities),
    ("clientInfo", Json.orNull (p.clientInfo.map ClientInfo.toJson))]

/-- What the bridge offers: whether lists of tools, prompts and resources report changes, and
whether resources can be subscribed to. -/
structure Capabilities where
  toolsChange : Bool
  promptsChange : Bool
  resourcesChange : Bool
  resourcesSubscribe : Bool
  deriving DecidableEq

/-- Reads the capability of a list that may report changes. -/
def decodeChange (kind : String) : Decoder Bool :=
  ((Record.pure id).seq (.withDefault "listChanged" Decoder.boolean false)).decode kind

/-- Reads the capabilities of resources. -/
def decodeResources : Decoder (Bool × Bool) :=
  (((Record.pure Prod.mk).seq
    (.withDefault "listChanged" Decoder.boolean false)).seq
    (.withDefault "subscribe" Decoder.boolean false)).decode "struct ResourcesCapability"

/-- Reads what the bridge offers. -/
def Capabilities.decode : Decoder Capabilities :=
  let gather (tools prompts : Bool) (resources : Bool × Bool) : Capabilities :=
    ⟨tools, prompts, resources.1, resources.2⟩
  ((((Record.pure gather).seq
    (.required "tools" (decodeChange "struct ToolsCapability"))).seq
    (.required "prompts" (decodeChange "struct PromptsCapability"))).seq
    (.required "resources" decodeResources)).decode "struct ServerCapabilities"

/-- The members of what the bridge offers. -/
def Capabilities.toJson (c : Capabilities) : Json :=
  .obj [("tools", .obj [("listChanged", .bool c.toolsChange)]),
    ("prompts", .obj [("listChanged", .bool c.promptsChange)]),
    ("resources", .obj [("listChanged", .bool c.resourcesChange),
      ("subscribe", .bool c.resourcesSubscribe)])]

/-- The bridge's description of itself. -/
structure ServerInfo where
  name : String
  version : String
  deriving DecidableEq

/-- Reads the bridge's description. -/
def ServerInfo.decode : Decoder ServerInfo :=
  (((Record.pure ServerInfo.mk).seq
    (.required "name" Decoder.string)).seq
    (.required "version" Decoder.string)).decode "struct ServerInfo"

/-- The members of the bridge's description. -/
def ServerInfo.toJson (s : ServerInfo) : Json :=
  .obj [("name", .str s.name), ("version", .str s.version)]

/-- What the bridge answers. -/
structure Result where
  protocolVersion : String
  capabilities : Capabilities
  serverInfo : ServerInfo
  instructions : Option String
  deriving DecidableEq

/-- Reads an answer. -/
def Result.decode : Decoder Result :=
  (((((Record.pure Result.mk).seq
    (.required "protocolVersion" Decoder.string)).seq
    (.required "capabilities" Capabilities.decode)).seq
    (.required "serverInfo" ServerInfo.decode)).seq
    (.maybe "instructions" Decoder.string)).decode "struct InitializeResult"

/-- The members of an answer. -/
def Result.toJson (r : Result) : Json :=
  .obj ([("protocolVersion", .str r.protocolVersion), ("capabilities", r.capabilities.toJson),
    ("serverInfo", r.serverInfo.toJson)] ++
    (r.instructions.map fun s => ("instructions", .str s)).toList)

/-- The bridge's answer once a version has been agreed on. -/
def answer (version : String) : Result where
  protocolVersion := version
  capabilities := ⟨false, false, false, false⟩
  serverInfo := ⟨serverName, serverVersion⟩
  instructions :=
    some "Editor state is available through the scene tools once the editor plugin has synced."

end Handshake

end EditorBridge
