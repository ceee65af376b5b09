import FlowGraph.Binary64

/-! JSON values. Integers are exact, and an object keeps the order of its fields. -/

namespace FlowGraph

inductive Json where
  | null
  | bool (b : Bool)
  | int (n : Int)
  | float (x : Binary64)
  | string (s : String)
  | array (items : List Json)
  | object (fields : List (String × Json))
  deriving Repr, Inhabited

namespace Json

/-- Sets a field. A new field goes to the end, one that is there keeps its place. -/
def put (key : String) (value : Json) : List (String × Json) → List (String × Json)
  | [] => [(key, value)]
  | (k, v) :: rest => if k = key then (k, value) :: rest else (k, v) :: put key value rest

def lookup (key : String) : List (String × Json) → Option Json
  | [] => none
  | (k, v) :: rest => if k = key then some v else lookup key rest

theorem lookup_put_self (key : String) (value : Json) (fields : List (String × Json)) :
    lookup key (put key value fields) = some value := by
  induction fields with
  | nil => simp [put, lookup]
  | cons field rest ih => by_cases h : field.1 = key <;> simp [put, lookup, h, ih]

theorem lookup_put_of_ne {key other : String} (h : key ≠ other) (value : Json)
    (fields : List (String × Json)) :
    lookup other (put key value fields) = lookup other fields := by
  induction fields with
  | nil => simp [put, lookup, h]
  | cons field rest ih =>
    simp only [put]
    split
    · next hk => simp [lookup, hk, h]
    · simp only [lookup, ih]

theorem put_of_not_mem {key : String} {fields : List (String × Json)}
    (h : key ∉ fields.map (·.1)) (value : Json) :
    put key value fields = fields ++ [(key, value)] := by
  induction fields with
  | nil => rfl
  | cons field fields ih =>
    simp only [List.map_cons, List.mem_cons, not_or] at h
    rw [put, if_neg (Ne.symm h.1), ih h.2, List.cons_append]

/-- Null, false, zero, and whatever is empty. -/
def isVoid : Json → Bool
  | .null => true
  | .bool b => !b
  | .int n => n == 0
  | .float (.finite _ mantissa _) => mantissa == 0
  | .float _ => false
  | .string s => s.isEmpty
  | .array items => items.isEmpty
  | .object fields => fields.isEmpty

def kind : Json → String
  | .null => "NoneType"
  | .bool _ => "bool"
  | .int _ => "int"
  | .float _ => "float"
  | .string _ => "str"
  | .array _ => "list"
  | .object _ => "dict"

end Json

end FlowGraph
