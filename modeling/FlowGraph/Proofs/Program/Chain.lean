import FlowGraph.Program.Parse

/-! Chains. A chain starts with a literal, or with a node and its outport. Each of its links leads
over an arrow to an inport of a node, and every node but the last one has an outport for the next
link. Cut at its inner nodes, a chain says the same. -/

namespace FlowGraph.Program

/-- A node as a chain names it, with its component where one is written. -/
structure Mention where
  id : String
  component : Option String := none
  deriving DecidableEq, Repr

inductive Head where
  | literal (data : String)
  | port (node : Mention) (outport : String)
  deriving DecidableEq, Repr

structure Link where
  inport : String
  node : Mention
  deriving DecidableEq, Repr

/-- The inner links stand with the outport at which the chain goes on. -/
structure Chain where
  head : Head
  inner : List (Link × String) := []
  last : Link
  deriving DecidableEq, Repr

def Mention.token (m : Mention) : Token :=
  match m.component with
  | none => .word m.id
  | some component => .node m.id component

def Mention.declared (m : Mention) : List (String × String) :=
  match m.component with
  | none => []
  | some component => if component = "" then [] else [(m.id, component)]

def Head.tokens : Head → List Token
  | .literal data => [.literal data]
  | .port node outport => [node.token, .word outport]

def Head.source : Head → Source
  | .literal data => .literal data
  | .port node outport => .port ⟨node.id, outport⟩

def Head.declared : Head → List (String × String)
  | .literal _ => []
  | .port node _ => node.declared

def Link.tokens (l : Link) : List Token :=
  [.arrow, .word l.inport, l.node.token]

def Link.target (l : Link) : Endpoint :=
  ⟨l.node.id, l.inport⟩

def Chain.tokens (c : Chain) : List Token :=
  c.head.tokens ++ c.inner.flatMap (fun (l, outport) => l.tokens ++ [.word outport]) ++
    c.last.tokens

/-- Where the links of a chain start: at its head, and then at each inner node. -/
def Chain.heads (c : Chain) : List Head :=
  c.head :: c.inner.map fun (l, outport) => .port l.node outport

def Chain.links (c : Chain) : List Link :=
  c.inner.map (·.1) ++ [c.last]

def Chain.connections (c : Chain) : List Connection :=
  List.zipWith (fun h l => h.source.connect l.target) c.heads c.links

def Chain.declared (c : Chain) : List (String × String) :=
  c.head.declared ++ c.links.flatMap (·.node.declared)

def Chain.statement (c : Chain) : Statement :=
  ⟨c.declared, c.connections⟩

/-- The chain cut at its inner nodes: one chain for each link. -/
def Chain.cut (c : Chain) : List Chain :=
  List.zipWith (fun h l => ⟨h, [], l⟩) c.heads c.links

/-! The tokens of a chain, split at its arrows. -/

def Link.segment (l : Link) : List Token :=
  [.word l.inport, l.node.token]

/-- The tokens after each arrow of a chain. -/
def linkSegments (inner : List (Link × String)) (last : Link) : List (List Token) :=
  inner.map (fun (l, outport) => l.segment ++ [.word outport]) ++ [last.segment]

theorem linkSegments_cons (l : Link) (outport : String) (inner : List (Link × String))
    (last : Link) : linkSegments ((l, outport) :: inner) last =
      (l.segment ++ [.word outport]) :: linkSegments inner last := rfl

theorem linkSegments_ne_nil (inner : List (Link × String)) (last : Link) :
    linkSegments inner last ≠ [] := by
  simp [linkSegments]

theorem Mention.token_ne_arrow (m : Mention) : m.token ≠ .arrow := by
  obtain ⟨id, component⟩ := m
  cases component <;> simp [Mention.token]

theorem Head.arrow_not_mem (h : Head) : .arrow ∉ h.tokens := by
  cases h with
  | literal data => simp [Head.tokens]
  | port node outport => simp [Head.tokens, (node.token_ne_arrow).symm]

theorem Link.arrow_not_mem (l : Link) : .arrow ∉ l.segment := by
  simp [Link.segment, (l.node.token_ne_arrow).symm]

theorem arrow_not_mem_linkSegments (inner : List (Link × String)) (last : Link) :
    ∀ segment ∈ linkSegments inner last, .arrow ∉ segment := by
  intro segment hs
  rcases List.mem_append.mp hs with hs | hs
  · obtain ⟨⟨l, outport⟩, -, rfl⟩ := List.mem_map.mp hs
    simp [l.arrow_not_mem]
  · rw [List.mem_singleton.mp hs]
    exact last.arrow_not_mem

theorem Chain.tokens_eq (c : Chain) : c.tokens =
    c.head.tokens ++ (linkSegments c.inner c.last).flatMap (.arrow :: ·) := by
  simp [Chain.tokens, linkSegments, Link.tokens, Link.segment, List.flatMap_map]

/-! What a chain says. -/

theorem Chain.length_connections (c : Chain) : c.connections.length = c.inner.length + 1 := by
  simp [Chain.connections, Chain.heads, Chain.links]

theorem Chain.count_arrow (c : Chain) : c.tokens.count .arrow = c.inner.length + 1 := by
  have hsegments (segments : List (List Token)) (h : ∀ s ∈ segments, .arrow ∉ s) :
      (segments.flatMap (.arrow :: ·)).count .arrow = segments.length := by
    induction segments with
    | nil => rfl
    | cons s segments ih =>
      rw [List.forall_mem_cons] at h
      simp [List.count_eq_zero_of_not_mem h.1, ih h.2]
  rw [Chain.tokens_eq, List.count_append, List.count_eq_zero_of_not_mem c.head.arrow_not_mem,
    hsegments _ (arrow_not_mem_linkSegments c.inner c.last)]
  simp [linkSegments]

theorem Chain.cut_cons (h : Head) (l : Link) (outport : String) (inner : List (Link × String))
    (last : Link) : (Chain.mk h ((l, outport) :: inner) last).cut =
      ⟨h, [], l⟩ :: (Chain.mk (.port l.node outport) inner last).cut := rfl

theorem Chain.connections_cut (c : Chain) :
    c.cut.flatMap Chain.connections = c.connections := by
  obtain ⟨h, inner, last⟩ := c
  induction inner generalizing h with
  | nil => rfl
  | cons link inner ih =>
    obtain ⟨l, outport⟩ := link
    rw [Chain.cut_cons, List.flatMap_cons, ih]
    rfl

theorem declare_append (known declared declared' : List (String × String)) :
    declare known (declared ++ declared') = declare (declare known declared) declared' :=
  List.foldl_append

/-- To name a node a second time gives it no other component. -/
theorem declare_declared_twice (known : List (String × String)) (m : Mention) :
    declare known (m.declared ++ m.declared) = declare known m.declared := by
  obtain ⟨id, component⟩ := m
  cases component with
  | none => rfl
  | some component =>
    by_cases hc : component = ""
    · simp [Mention.declared, hc]
    · by_cases hk : known.any (·.1 == id) = true
      · simp [Mention.declared, declare, hc, hk]
      · simp [Mention.declared, declare, hc, hk]

theorem Chain.declare_cut (c : Chain) (known : List (String × String)) :
    declare known (c.cut.flatMap Chain.declared) = declare known c.declared := by
  obtain ⟨h, inner, last⟩ := c
  induction inner generalizing h known with
  | nil => simp [Chain.cut, Chain.heads, Chain.links]
  | cons link inner ih =>
    obtain ⟨l, outport⟩ := link
    have hfirst : (Chain.mk h [] l).declared = h.declared ++ l.node.declared := by
      simp [Chain.declared, Chain.links]
    have hrest : (Chain.mk (.port l.node outport) inner last).declared =
        l.node.declared ++ (inner.map (·.1) ++ [last]).flatMap (·.node.declared) := rfl
    have hall : (Chain.mk h ((l, outport) :: inner) last).declared = h.declared ++
        (l.node.declared ++ (inner.map (·.1) ++ [last]).flatMap (·.node.declared)) := rfl
    calc declare known ((Chain.mk h ((l, outport) :: inner) last).cut.flatMap Chain.declared)
        = declare (declare known (h.declared ++ l.node.declared))
            (l.node.declared ++ (inner.map (·.1) ++ [last]).flatMap (·.node.declared)) := by
          rw [Chain.cut_cons, List.flatMap_cons, declare_append, ih, hfirst, hrest]
      _ = declare (declare (declare known h.declared) (l.node.declared ++ l.node.declared))
            ((inner.map (·.1) ++ [last]).flatMap (·.node.declared)) := by
          simp only [declare_append]
      _ = declare known (Chain.mk h ((l, outport) :: inner) last).declared := by
          rw [declare_declared_twice, hall]
          simp only [declare_append]

theorem ofStatements_cut (name : String) (c : Chain) (before after : List Statement) :
    ofStatements name (before ++ c.cut.map Chain.statement ++ after) =
      ofStatements name (before ++ c.statement :: after) := by
  have hdeclared := c.declare_cut (declare [] (before.flatMap (·.declared)))
  have hconnections := c.connections_cut
  simp only [ofStatements, List.flatMap_append, List.flatMap_cons, List.flatMap_map,
    Chain.statement, declare_append, List.append_assoc, Program.mk.injEq, true_and]
  rw [hdeclared, hconnections]
  exact ⟨rfl, rfl⟩

end FlowGraph.Program
