import EditorBridge.Number.Binary64
/-!
# JSON values

Numbers without fraction and exponent are integers as long as they fit into 64
bits, signed or unsigned; all others are double-precision numbers. The members
of an object are kept in the order of their keys, each key once.
-/

namespace EditorBridge

/-- A JSON value. -/
inductive Json where
  | null
  | bool (b : Bool)
  | int (n : Int)
  | float (x : Binary64)
  | str (s : String)
  | arr (items : List Json)
  | obj (members : List (String × Json))
  deriving Inhabited

namespace Json

mutual

/-- Equality of values is decidable. -/
def decEq : (a b : Json) → Decidable (a = b)
  | .null, .null => isTrue rfl
  | .bool a, .bool b => decidable_of_iff (a = b) (by simp)
  | .int a, .int b => decidable_of_iff (a = b) (by simp)
  | .float a, .float b => decidable_of_iff (a = b) (by simp)
  | .str a, .str b => decidable_of_iff (a = b) (by simp)
  | .arr a, .arr b => @decidable_of_iff _ (a = b) (by simp) (decEqItems a b)
  | .obj a, .obj b => @decidable_of_iff _ (a = b) (by simp) (decEqMembers a b)
  | .null, .bool _ | .null, .int _ | .null, .float _ | .null, .str _ | .null, .arr _
  | .null, .obj _ | .bool _, .null | .bool _, .int _ | .bool _, .float _ | .bool _, .str _
  | .bool _, .arr _ | .bool _, .obj _ | .int _, .null | .int _, .bool _ | .int _, .float _
  | .int _, .str _ | .int _, .arr _ | .int _, .obj _ | .float _, .null | .float _, .bool _
  | .float _, .int _ | .float _, .str _ | .float _, .arr _ | .float _, .obj _ | .str _, .null
  | .str _, .bool _ | .str _, .int _ | .str _, .float _ | .str _, .arr _ | .str _, .obj _
  | .arr _, .null | .arr _, .bool _ | .arr _, .int _ | .arr _, .float _ | .arr _, .str _
  | .arr _, .obj _ | .obj _, .null | .obj _, .bool _ | .obj _, .int _ | .obj _, .float _
  | .obj _, .str _ | .obj _, .arr _ => isFalse (by simp)

/-- Equality of lists of values is decidable. -/
def decEqItems : (a b : List Json) → Decidable (a = b)
  | [], [] => isTrue rfl
  | [], _ :: _ | _ :: _, [] => isFalse (by simp)
  | x :: xs, y :: ys =>
    match decEq x y, decEqItems xs ys with
    | isTrue h, isTrue h' => isTrue (by rw [h, h'])
    | isFalse h, _ => isFalse (by simp [h])
    | _, isFalse h => isFalse (by simp [h])

/-- Equality of lists of members is decidable. -/
def decEqMembers : (a b : List (String × Json)) → Decidable (a = b)
  | [], [] => isTrue rfl
  | [], _ :: _ | _ :: _, [] => isFalse (by simp)
  | (k, x) :: xs, (l, y) :: ys =>
    match decEq x y, decEqMembers xs ys, decEq' k l with
    | isTrue h, isTrue h', isTrue h'' => isTrue (by rw [h, h', h''])
    | isFalse h, _, _ => isFalse (by simp [h])
    | _, isFalse h, _ => isFalse (by simp [h])
    | _, _, isFalse h => isFalse (by simp [h])
where
  /-- Equality of keys. -/
  decEq' (k l : String) : Decidable (k = l) := inferInstance

end

instance : DecidableEq Json := decEq

/-- Members in the order of their keys, each key once. -/
abbrev Members := List (String × Json)

/-- Sets the value of a key, replacing an earlier one. -/
def Members.insert (key : String) (value : Json) : Members → Members
  | [] => [(key, value)]
  | (k, v) :: rest =>
    if key < k then (key, value) :: (k, v) :: rest
    else if key = k then (key, value) :: rest
    else (k, v) :: Members.insert key value rest

/-- The value of a key. -/
def Members.get? (key : String) (members : Members) : Option Json := members.lookup key

/-- The members in key order; the last of several with one key counts. -/
def Members.ofList (members : List (String × Json)) : Members :=
  members.foldl (fun sorted (k, v) => Members.insert k v sorted) []

/-- An object from members in any order. -/
def object (members : List (String × Json)) : Json := .obj (Members.ofList members)

/-- The value of a key of an object; nothing for other values. -/
def get? (key : String) : Json → Option Json
  | .obj members => Members.get? key members
  | _ => none

/-- The text of a string value. -/
def str? : Json → Option String
  | .str s => some s
  | _ => none

/-- Whether a value is an object. -/
def isObject : Json → Bool
  | .obj _ => true
  | _ => false

mutual

/-- The same value with the members of every object in key order. -/
def sorted : Json → Json
  | .arr items => .arr (sortedItems items)
  | .obj members => .obj (Members.ofList (sortedMembers members))
  | other => other

/-- Every value sorted. -/
def sortedItems : List Json → List Json
  | [] => []
  | x :: rest => x.sorted :: sortedItems rest

/-- Every member's value sorted, the members in their given order. -/
def sortedMembers : List (String × Json) → List (String × Json)
  | [] => []
  | (k, v) :: rest => (k, v.sorted) :: sortedMembers rest

end

/-- The value, or `null` if there is none. -/
def orNull (j : Option Json) : Json := j.getD .null

/-- Strictly increasing keys. -/
def Members.Increasing (members : Members) : Prop :=
  members.Pairwise fun a b => a.1 < b.1

mutual

/-- Every object in the value has its members in key order, each key once. -/
def WellFormed : Json → Prop
  | .arr items => WellFormedItems items
  | .obj members => Members.Increasing members ∧ WellFormedMembers members
  | _ => True

/-- Every value of the list is well formed. -/
def WellFormedItems : List Json → Prop
  | [] => True
  | x :: rest => x.WellFormed ∧ WellFormedItems rest

/-- Every member's value is well formed. -/
def WellFormedMembers : List (String × Json) → Prop
  | [] => True
  | (_, v) :: rest => v.WellFormed ∧ WellFormedMembers rest

end

end Json

end EditorBridge
