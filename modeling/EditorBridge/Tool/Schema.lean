import EditorBridge.Json.Printer
/-!
# Schemas of arguments

A schema says which values a tool takes: their type, the members an object must
have and the schemas of its members, the least length of a string, and bounds of
a number. A keyword says nothing about values of another kind. Violations are
listed in the order of the keywords. What a registry of tools makes of schemas
does not depend on the keywords, so a language of schemas is a value here.
-/

namespace EditorBridge.Tool.Schema

/-- The names of the types, in the order in which messages list them. -/
def typeNames : List String :=
  ["array", "boolean", "integer", "null", "number", "object", "string"]

/-- Whether a value is of a type. A number without fraction is an integer. -/
def hasType : Json → String → Bool
  | .arr _, t => t == "array"
  | .bool _, t => t == "boolean"
  | .null, t => t == "null"
  | .obj _, t => t == "object"
  | .str _, t => t == "string"
  | .int _, t => t == "integer" || t == "number"
  | .float x, t => t == "number" || (t == "integer" && x.isIntegral)

/-- A number as a quotient. -/
def quotient? : Json → Option (Int × Nat)
  | .int n => some (n, 1)
  | .float x => some x.toQuotient
  | _ => none

/-- Whether one number is less than another; false for other values. -/
def less (a b : Json) : Bool :=
  match quotient? a, quotient? b with
  | some (n, d), some (n', d') => n * d' < n' * d
  | _, _ => false

/-- A natural number, also one written with a fraction of zero. -/
def natural? : Json → Option Nat
  | .int n => if 0 ≤ n then some n.toNat else none
  | .float x =>
    if x.isIntegral && !x.negative then some (x.toQuotient.1 / x.toQuotient.2).toNat else none
  | _ => none

/-- A name in quotes. -/
def quoted (s : String) : String := (Json.str s).compact

/-- The violation of a single type. -/
def notOfType (x : Json) (t : String) : String := x.compact ++ " is not of type " ++ quoted t

/-- The violation of several types. -/
def notOfTypes (x : Json) (ts : List String) : String :=
  x.compact ++ " is not of types " ++ ", ".intercalate ((typeNames.filter (· ∈ ts)).map quoted)

/-- Violations of the keyword `type`. -/
def typeViolations (expected x : Json) : List String :=
  match expected with
  | .str t => if hasType x t then [] else [notOfType x t]
  | .arr [.str t] => if hasType x t then [] else [notOfType x t]
  | .arr ts =>
    let names := ts.filterMap Json.str?
    if names.any (hasType x) then [] else [notOfTypes x names]
  | _ => []

/-- Violations of the keyword `required`. -/
def requiredViolations (names x : Json) : List String :=
  match names, x with
  | .arr ns, .obj members =>
    ((ns.filterMap Json.str?).filter fun n => (Json.Members.get? n members).isNone).map fun n =>
      quoted n ++ " is a required property"
  | _, _ => []

/-- Violations of the keyword `minLength`. -/
def minLengthViolations (limit x : Json) : List String :=
  match natural? limit, x with
  | some n, .str s =>
    if s.length < n then
      let unit := if n = 1 then " character" else " characters"
      [x.compact ++ " is shorter than " ++ toString n ++ unit]
    else []
  | _, _ => []

/-- Violations of a keyword other than `properties`. -/
def keywordViolations (keyword : String) (v x : Json) : List String :=
  match keyword with
  | "type" => typeViolations v x
  | "required" => requiredViolations v x
  | "minLength" => minLengthViolations v x
  | "minimum" =>
    if less x v then [x.compact ++ " is less than the minimum of " ++ v.compact] else []
  | "maximum" =>
    if less v x then [x.compact ++ " is greater than the maximum of " ++ v.compact] else []
  | _ => []

mutual

/-- How a value violates a schema. -/
def violations : (schema x : Json) → List String
  | .obj keywords, x => allViolations keywords x
  | .bool false, x => ["False schema does not allow " ++ x.compact]
  | _, _ => []

/-- How a value violates keywords. -/
def allViolations : List (String × Json) → Json → List String
  | [], _ => []
  | (keyword, v) :: rest, x =>
    let first :=
      match v with
      | .obj schemas =>
        if keyword = "properties" then memberViolations schemas x
        else keywordViolations keyword (.obj schemas) x
      | v => keywordViolations keyword v x
    first ++ allViolations rest x

/-- How the members of an object violate their schemas. -/
def memberViolations : List (String × Json) → Json → List String
  | [], _ => []
  | (name, schema) :: rest, x =>
    let first :=
      match x.get? name with
      | some y => violations schema y
      | none => []
    first ++ memberViolations rest x

end

/-! ## Schemas that are no schemas -/

/-- Whether no string occurs twice. -/
def distinct (items : List Json) : Bool := decide (items.filterMap Json.str?).Nodup

/-- The name of a type, or several distinct ones. -/
def isTypeKeyword : Json → Bool
  | .str t => typeNames.contains t
  | .arr ts =>
    !ts.isEmpty && ts.all (fun t => (t.str?.map typeNames.contains).getD false) && distinct ts
  | _ => false

/-- What is wrong with the value of a keyword other than `properties`. -/
def keywordFaults (keyword : String) (v : Json) : List String :=
  match keyword with
  | "description" => typeViolations (.str "string") v
  | "minimum" | "maximum" => typeViolations (.str "number") v
  | "minLength" => keywordViolations "minimum" (.int 0) v ++ typeViolations (.str "integer") v
  | "required" =>
    match v with
    | .arr items =>
      items.flatMap (typeViolations (.str "string")) ++
        if distinct items then [] else [v.compact ++ " has non-unique elements"]
    | v => [notOfType v "array"]
  | "properties" => typeViolations (.str "object") v
  | "type" =>
    if isTypeKeyword v then []
    else [v.compact ++ " is not valid under any of the schemas listed in the 'anyOf' keyword"]
  | _ => []

mutual

/-- What is wrong with a schema. -/
def faults : Json → List String
  | .obj keywords => allFaults keywords
  | .bool _ => []
  | other => [notOfTypes other ["boolean", "object"]]

/-- What is wrong with keywords. -/
def allFaults : List (String × Json) → List String
  | [] => []
  | (keyword, v) :: rest =>
    let first :=
      match v with
      | .obj schemas =>
        if keyword = "properties" then memberFaults schemas
        else keywordFaults keyword (.obj schemas)
      | v => keywordFaults keyword v
    first ++ allFaults rest

/-- What is wrong with the schemas of members. -/
def memberFaults : List (String × Json) → List String
  | [] => []
  | (_, schema) :: rest => faults schema ++ memberFaults rest

end

/-! ## Languages of schemas -/

/-- A language of schemas: what is wrong with a schema, unless it is one, and how a value violates
it. -/
structure Dialect where
  fault? : Json → Option String
  violations : Json → Json → List String

/-- The language of the keywords. -/
def keywordDialect : Dialect where
  fault? schema := (faults schema).head?
  violations := violations

end EditorBridge.Tool.Schema
