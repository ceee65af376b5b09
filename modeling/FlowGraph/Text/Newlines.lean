/-! Line ends. Text from a file has only line feeds: a carriage return becomes one, together
with the line feed after it, if there is one. -/

namespace FlowGraph.Text

def unifyNewlines : List Char → List Char
  | [] => []
  | '\r' :: '\n' :: rest => '\n' :: unifyNewlines rest
  | c :: rest => (if c = '\r' then '\n' else c) :: unifyNewlines rest

theorem not_mem_unifyNewlines (s : List Char) : '\r' ∉ unifyNewlines s := by
  fun_induction unifyNewlines s with
  | case1 => simp
  | case2 rest ih => simp [ih]
  | case3 c rest h ih => by_cases hc : c = '\r' <;> simp [hc, ih, Ne.symm]

def countNewlines (s : List Char) : Nat :=
  s.count '\n'

end FlowGraph.Text
