import EditorBridge.Tool.Registry
/-!
# Registrations

Tools are offered to a registry one after another; each is taken or refused, and
the registry goes on either way. Who has a name in the end can be told from the
offers alone: the first one that is valid.
-/

namespace EditorBridge.Tool

/-- A tool fit to be registered: it has a name, and its schema is an object and makes sense. -/
def valid (d : Schema.Dialect) (t : Tool) : Bool :=
  t.name != "" && t.inputSchema.isObject && (d.fault? t.inputSchema).isNone

/-- The tool that has a name after offers. -/
def firstValid? (d : Schema.Dialect) (offers : List Tool) (name : String) : Option Tool :=
  offers.find? fun t => t.name == name && t.valid d

/-- The name in an entry of a list of tools. -/
def entryName? (entry : Json) : Option String := (entry.get? "name").bind Json.str?

/-- A tool that does something else when it is run. -/
def doing (t : Tool) (run : Context → Json → Services → Outcome × Services) : Tool :=
  { t with run := run }

namespace Registry

/-- How the offer of a tool goes, and the registry after it. -/
def offer (d : Schema.Dialect) (r : Registry) (t : Tool) : Except BridgeError Unit × Registry :=
  match r.registerIn d t with
  | .ok r => (.ok (), r)
  | .error e => (.error e, r)

/-- The registry after offers. -/
def ofOffers (d : Schema.Dialect) (offers : List Tool) : Registry :=
  offers.foldl (fun r t => (r.offer d t).2) []

end Registry

end EditorBridge.Tool
