import FlowGraph.Proofs.Definition.Check

/-! The sections of a definition. One that is not there counts as empty, and one of the wrong kind
is refused, unless it is the properties and they are void. -/

namespace FlowGraph

namespace Json

def without (key : String) (fields : List (String × Json)) : List (String × Json) :=
  fields.filter fun field => field.1 != key

theorem lookup_without_self (key : String) (fields : List (String × Json)) :
    lookup key (without key fields) = none := by
  induction fields with
  | nil => rfl
  | cons field fields ih =>
    by_cases h : field.1 = key
    · simpa [without, h] using ih
    · simpa [without, lookup, h] using ih

theorem lookup_without_of_ne {key other : String} (hne : key ≠ other)
    (fields : List (String × Json)) : lookup other (without key fields) = lookup other fields := by
  induction fields with
  | nil => rfl
  | cons field fields ih =>
    by_cases h : field.1 = key
    · have hskip : lookup other (field :: fields) = lookup other fields := by
        simp [lookup, h, hne]
      rw [hskip, ← ih]
      simp [without, h]
    · have hkeep : without key (field :: fields) = field :: without key fields := by
        simp [without, h]
      rw [hkeep, lookup, lookup, ih]

end Json

namespace Definition

inductive Section where
  | properties
  | processes
  | connections
  deriving DecidableEq, Repr

namespace Section

def key : Section → String
  | .properties => "properties"
  | .processes => "processes"
  | .connections => "connections"

/-- Whether a value is of the kind that belongs in a section. -/
def fits : Section → Json → Bool
  | .properties, v => v.isObject
  | .processes, v => v.isObject
  | .connections, v => v.isArray

def empty : Section → Json
  | .properties => .object []
  | .processes => .object []
  | .connections => .array []

/-- Whether a value of another kind is let through. -/
def excuses : Section → Json → Bool
  | .properties, v => v.isVoid
  | .processes, _ => false
  | .connections, _ => false

theorem key_injective {s t : Section} (h : s.key = t.key) : s = t := by
  cases s <;> cases t <;> first | rfl | exact absurd h (by decide)

end Section

/-- The value of a section. One that is not there is taken for empty. -/
def sectionOf (s : Section) (fields : Fields) : Json :=
  (Json.lookup s.key fields).getD s.empty

theorem readName_eq (fields : Fields) : readName fields =
    if (sectionOf .properties fields).isVoid then .ok ""
    else match sectionOf .properties fields with
      | .object inner =>
        match Json.lookup "name" inner with
        | none => .ok ""
        | some (.string name) => .ok name
        | some other => .error (.name other.kind)
      | _ => .error .properties := by
  unfold readName sectionOf Section.key
  cases Json.lookup "properties" fields <;> rfl

theorem readNodes_eq (fields : Fields) : readNodes fields =
    match sectionOf .processes fields with
    | .object entries => entries.mapM fun entry => readNode entry.1 entry.2
    | _ => .error .processes := by
  unfold readNodes sectionOf Section.key
  cases Json.lookup "processes" fields with
  | none => rfl
  | some v => cases v <;> rfl

theorem readConnections_eq (fields : Fields) : readConnections fields =
    match sectionOf .connections fields with
    | .array items => readFrom 0 items
    | _ => .error .connections := by
  unfold readConnections sectionOf Section.key
  cases Json.lookup "connections" fields with
  | none => rfl
  | some v => cases v <;> rfl

theorem decode_congr {fs gs : Fields} (hname : readName fs = readName gs)
    (h : ∀ s, s ≠ .properties → sectionOf s fs = sectionOf s gs) :
    decode (.object fs) = decode (.object gs) := by
  have hnodes : readNodes fs = readNodes gs := by
    rw [readNodes_eq, readNodes_eq, h .processes (by decide)]
  have hconnections : readConnections fs = readConnections gs := by
    rw [readConnections_eq, readConnections_eq, h .connections (by decide)]
  simp only [decode, hname, hnodes, hconnections]

theorem sectionOf_of_lookup {s : Section} {fields : Fields} {v : Json}
    (h : Json.lookup s.key fields = some v) : sectionOf s fields = v := by
  rw [sectionOf, h, Option.getD_some]

theorem sectionOf_put_empty {s : Section} {fields : Fields}
    (h : Json.lookup s.key fields = none) (t : Section) :
    sectionOf t (Json.put s.key s.empty fields) = sectionOf t fields := by
  by_cases hst : s = t
  · rw [← hst, sectionOf, sectionOf, Json.lookup_put_self, h]
    rfl
  · have hkey : s.key ≠ t.key := fun hk => hst (Section.key_injective hk)
    rw [sectionOf, sectionOf, Json.lookup_put_of_ne hkey]

theorem decode_put_empty {s : Section} {fields : Fields}
    (h : Json.lookup s.key fields = none) :
    decode (.object (Json.put s.key s.empty fields)) = decode (.object fields) := by
  refine decode_congr ?_ fun t _ => sectionOf_put_empty h t
  rw [readName_eq, readName_eq, sectionOf_put_empty h]

theorem refused_of_misfit {s : Section} {fields : Fields} {v : Json}
    (hv : Json.lookup s.key fields = some v) (hfits : s.fits v = false)
    (hexcuses : s.excuses v = false) : ∃ fault, decode (.object fields) = .error fault := by
  cases s with
  | properties =>
    have hpart : propertiesOf (.object fields) = v := congrArg (fun o => o.getD Json.null) hv
    refine refused_of_check (c := ⟨v.isObject || v.isVoid, .properties⟩) ?_ ?_
    · simp [checks, frameChecks, nameChecks, hpart]
    · exact Bool.or_eq_false_iff.mpr ⟨hfits, hexcuses⟩
  | processes =>
    have hpart : processesOf (.object fields) = v := sectionOf_of_lookup hv
    refine refused_of_check (c := ⟨v.isObject, .processes⟩) ?_ hfits
    simp [checks, frameChecks, processChecks, hpart]
  | connections =>
    have hpart : connectionsOf (.object fields) = v := sectionOf_of_lookup hv
    refine refused_of_check (c := ⟨v.isArray, .connections⟩) ?_ hfits
    simp [checks, frameChecks, hpart]

theorem decode_without_excused {s : Section} {fields : Fields} {v : Json}
    (hv : Json.lookup s.key fields = some v) (hexcuses : s.excuses v = true) :
    decode (.object fields) = decode (.object (Json.without s.key fields)) := by
  cases s with
  | properties =>
    have hvoid : v.isVoid = true := hexcuses
    refine decode_congr ?_ fun t ht => ?_
    · have hnone : sectionOf .properties (Json.without "properties" fields) = .object [] := by
        rw [sectionOf, Section.key, Json.lookup_without_self]
        rfl
      rw [readName_eq, readName_eq, sectionOf_of_lookup hv, if_pos hvoid, Section.key, hnone]
      rfl
    · have hkey : Section.properties.key ≠ t.key := fun hk => ht (Section.key_injective hk).symm
      rw [sectionOf, sectionOf, Json.lookup_without_of_ne hkey]
  | processes => cases hexcuses
  | connections => cases hexcuses

/-- A section that is not there stands for an empty one. One of the wrong kind is refused, whatever
it is and whatever the rest is, unless it is void properties; these count as not there. -/
theorem misfit_refused_unless_void (fields : Fields) (s : Section) :
    (Json.lookup s.key fields = none →
      decode (.object (Json.put s.key s.empty fields)) = decode (.object fields)) ∧
    ∀ v, Json.lookup s.key fields = some v → s.fits v = false →
      (s.excuses v = false → ∃ fault, decode (.object fields) = .error fault) ∧
      (s.excuses v = true →
        decode (.object fields) = decode (.object (Json.without s.key fields))) :=
  ⟨decode_put_empty, fun _ hv hfits => ⟨refused_of_misfit hv hfits, decode_without_excused hv⟩⟩

theorem voidProperties_excused :
    decode (.object [("properties", .bool false), ("connections", .array [])]) =
      decode (.object [("connections", .array [])]) ∧
    ∃ fault, decode (.object [("properties", .int 0), ("processes", .null)]) = .error fault := by
  have hexcused := ((misfit_refused_unless_void
    [("properties", .bool false), ("connections", .array [])] .properties).2 (.bool false)
      rfl rfl).2 rfl
  have hrefused := ((misfit_refused_unless_void
    [("properties", .int 0), ("processes", .null)] .processes).2 .null rfl rfl).1 rfl
  exact ⟨hexcused, hrefused⟩

/-- Properties that are an empty list are let through. -/
theorem misfit_not_always_refused : ¬ ∀ (fields : Fields) (s : Section) (v : Json),
    Json.lookup s.key fields = some v → s.fits v = false →
      ∃ fault, decode (.object fields) = .error fault := by
  intro h
  obtain ⟨fault, hfault⟩ := h [("properties", .array [])] .properties (.array []) rfl rfl
  cases hfault

end Definition

end FlowGraph
