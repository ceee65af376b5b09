import FlowGraph.CommandLine.Word

/-! What the words of the command line ask for. All words are classified first, then they take
effect from left to right. -/

namespace FlowGraph.CommandLine

/-- The output directory and the format are none if they were taken away. -/
structure Settings where
  input : String
  output : Option String := some "."
  format : Option Format := some .json
  list : Bool := false
  verbose : Bool := false
  deriving DecidableEq, Repr

structure Progress where
  input : Option String := none
  output : Option String := some "."
  format : Option Format := some .json
  list : Bool := false
  verbose : Bool := false
  extras : List String := []
  deriving DecidableEq, Repr

inductive Stop where
  | help
  | refused (error : UsageError)
  deriving DecidableEq, Repr

def Progress.set (p : Progress) : Flag → Except Stop Progress
  | .help => .error .help
  | .list => .ok { p with list := true }
  | .verbose => .ok { p with verbose := true }
  | .output | .format => .ok p

/-- Two dashes are no value, and take away what the flag stands for. -/
def Progress.setValue (p : Progress) (f : Flag) (value : String) : Except Stop Progress :=
  match f with
  | .output => .ok { p with output := if value = "--" then none else some value }
  | .format =>
    if value = "--" then .ok { p with format := none }
    else match Format.ofName? value with
      | some format => .ok { p with format := some format }
      | none => .error (.refused (.unknownFormat value))
  | _ => p.set f

def Progress.extra (p : Progress) (word : String) : Progress :=
  { p with extras := p.extras ++ [word] }

/-- The flags of a word take effect together, after the value for the last is found. -/
def Progress.apply (p : Progress) (c : Cluster) (value : Option String) :
    Except Stop Progress := do
  let p ← c.plain.foldlM Progress.set p
  match c.valued, c.waiting, value with
  | some (f, v), _, _ => p.setValue f v
  | none, some f, some v => p.setValue f v
  | none, _, _ => return p

/-- The first argument is the input. Two dashes next to it belong to it. A flag that waits for
its value takes the next word, which must be an argument. -/
def follow (p : Progress) : Option (Flag × Cluster) → List (String × Slot) →
    Except Stop Progress
  | none, [] => .ok p
  | some (_, cluster), (word, .argument) :: rest => do
    follow (← p.apply cluster (some word)) none rest
  | some (f, _), _ => .error (.refused (.noValue f))
  | none, (word, .unknown) :: rest => follow (p.extra word) none rest
  | none, (word, .dashes) :: rest =>
    follow (if p.input.isSome then p.extra word else p) none rest
  | none, [(word, .argument)] =>
    .ok (if p.input.isSome then p.extra word else { p with input := some word })
  | none, (word, .argument) :: next :: rest =>
    if p.input.isSome then follow (p.extra word) none (next :: rest)
    else if next.2 = .dashes then follow { p with input := some word } none rest
    else follow { p with input := some word } none (next :: rest)
  | none, (_, .option found) :: rest => do
    let cluster ← found.cluster.mapError .refused
    match cluster.waiting with
    | some f => follow p (some (f, cluster)) rest
    | none => follow (← p.apply cluster none) none rest

def parse (words : List String) : Except Stop Settings := do
  let slots ← (classifyAll words).mapError .refused
  let p ← follow {} none slots
  match p.input, p.extras with
  | none, _ => throw (.refused .noInput)
  | some input, [] => return ⟨input, p.output, p.format, p.list, p.verbose⟩
  | some _, extras => throw (.refused (.unrecognized extras))

end FlowGraph.CommandLine
