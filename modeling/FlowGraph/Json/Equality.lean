import FlowGraph.Json.Basic

/-! Equality of JSON values can be decided. -/

namespace FlowGraph.Json

mutual

def same : Json → Json → Bool
  | .null, .null => true
  | .bool a, .bool b => a == b
  | .int m, .int n => m == n
  | .float x, .float y => x == y
  | .string s, .string t => s == t
  | .array xs, .array ys => sameItems xs ys
  | .object xs, .object ys => sameFields xs ys
  | _, _ => false

def sameItems : List Json → List Json → Bool
  | [], [] => true
  | x :: xs, y :: ys => same x y && sameItems xs ys
  | _, _ => false

def sameFields : List (String × Json) → List (String × Json) → Bool
  | [], [] => true
  | (k, x) :: xs, (l, y) :: ys => k == l && same x y && sameFields xs ys
  | _, _ => false

end

mutual

theorem same_iff (x y : Json) : same x y = true ↔ x = y := by
  cases x <;> cases y <;> simp [same, sameItems_iff, sameFields_iff]

theorem sameItems_iff (xs ys : List Json) : sameItems xs ys = true ↔ xs = ys := by
  cases xs <;> cases ys <;> simp [sameItems]
  rw [same_iff, sameItems_iff]

theorem sameFields_iff (xs ys : List (String × Json)) : sameFields xs ys = true ↔ xs = ys := by
  cases xs <;> cases ys <;> simp [sameFields]
  rw [Prod.ext_iff, same_iff, sameFields_iff]

end

instance : DecidableEq Json := fun x y => decidable_of_iff _ (same_iff x y)

end FlowGraph.Json
