import EditorBridge.Tool.Basic
import EditorBridge.Tool.Schema
/-!
# The registry of tools

Tools by name, in the order of their names. A name is taken by the first valid
registration; arguments are checked against the schema before a tool runs. The
language of the schemas is given; the tools of the bridge have it from the
keywords.
-/

namespace EditorBridge.Tool

/-- The registered tools in the order of their names. -/
abbrev Registry := List Tool

namespace Registry

/-- The tool with a name. -/
def find? (r : Registry) (name : String) : Option Tool := List.find? (·.name = name) r

/-- Adds a tool at the place of its name. -/
def insert (t : Tool) : Registry → Registry
  | [] => [t]
  | u :: rest => if t.name < u.name then t :: u :: rest else u :: insert t rest

/-- Registers a tool, unless it has no name, no valid schema, or a name that is taken. -/
def registerIn (d : Schema.Dialect) (r : Registry) (t : Tool) : Except BridgeError Registry :=
  let named := "Tool '" ++ t.name ++ "' "
  match t.name, t.inputSchema with
  | "", _ => .error (.validation "Tool name cannot be empty")
  | _, .obj members =>
    match d.fault? (.obj members) with
    | some fault => .error (.validation (named ++ "has an invalid input schema: " ++ fault))
    | none =>
      if (r.find? t.name).isSome then .error (.validation (named ++ "is already registered"))
      else .ok (r.insert t)
  | _, _ => .error (.validation (named ++ "input schema must be a JSON object"))

/-- Registers a tool whose schema is one of keywords. -/
def register (r : Registry) (t : Tool) : Except BridgeError Registry :=
  r.registerIn Schema.keywordDialect t

/-- The entries of all tools. -/
def list (r : Registry) : List Json := r.map Tool.info

/-- The arguments of a call; `null` stands for none. -/
def arguments : Json → Json
  | .null => .obj []
  | j => j

/-- The detail of a breakdown. -/
def panicDetail (detail : Option String) : String := detail.getD "unknown panic"

/-- An outcome with breakdowns turned into errors. -/
def contain : Outcome → Outcome
  | .panic detail => .error (.executionFailed (panicDetail detail))
  | other => other

/-- Runs the tool with a name on arguments that fit its schema. -/
def executeIn (d : Schema.Dialect) (r : Registry) (name : String) (args : Json) (c : Context)
    (s : Services) : Outcome × Services :=
  match r.find? name with
  | none => (.error (.notFound name), s)
  | some t =>
    let args := arguments args
    match d.violations t.inputSchema args with
    | [] =>
      let (o, s) := t.run c args s
      (contain o, s)
    | vs => (t.reject ("Invalid arguments for " ++ name ++ ": " ++ "; ".intercalate vs) c, s)

section

variable {d : Schema.Dialect} {r : Registry} {name : String} {args : Json} {c : Context}
  {s : Services}

theorem executeIn_of_none (h : r.find? name = none) :
    r.executeIn d name args c s = (.error (.notFound name), s) := by
  simp only [executeIn, h]

theorem executeIn_of_fits {t : Tool} (h : r.find? name = some t)
    (hv : d.violations t.inputSchema (arguments args) = []) :
    r.executeIn d name args c s =
      (contain (t.run c (arguments args) s).1, (t.run c (arguments args) s).2) := by
  simp only [executeIn, h, hv]

theorem executeIn_of_misfit {t : Tool} (h : r.find? name = some t)
    (hv : d.violations t.inputSchema (arguments args) ≠ []) :
    r.executeIn d name args c s = (t.reject ("Invalid arguments for " ++ name ++ ": " ++
      "; ".intercalate (d.violations t.inputSchema (arguments args))) c, s) := by
  simp only [executeIn, h]

end

/-- Runs the tool with a name, its schema being one of keywords. -/
def execute (r : Registry) (name : String) (args : Json) (c : Context) (s : Services) :
    Outcome × Services :=
  r.executeIn Schema.keywordDialect name args c s

end Registry

end EditorBridge.Tool
