import FlowGraph.Definition.Encode
import Mathlib.Data.List.Induction
import Mathlib.Data.List.Nodup

/-! Nodes by id. An object of processes has one entry for each id, at the place of the first node
with it and with what the last one says. -/

namespace FlowGraph

/-- One node for each id: the ids in the order of their first nodes, each with its last node. -/
def distinctNodes (nodes : List Node) : List Node :=
  (nodes.map (·.id)).eraseDups.filterMap fun id => nodes.reverse.find? (·.id == id)

theorem eraseDups_concat_of_mem {α : Type} [DecidableEq α] {l : List α} {a : α} (h : a ∈ l) :
    (l ++ [a]).eraseDups = l.eraseDups := by
  simp [List.eraseDups_append, List.removeAll, h]

theorem eraseDups_concat_of_not_mem {α : Type} [DecidableEq α] {l : List α} {a : α}
    (h : a ∉ l) : (l ++ [a]).eraseDups = l.eraseDups ++ [a] := by
  simp [List.eraseDups_append, List.removeAll, h, List.eraseDups_cons]

theorem nodup_eraseDups {α : Type} [DecidableEq α] (l : List α) : l.eraseDups.Nodup := by
  induction l using List.reverseRecOn with
  | nil => exact List.nodup_nil
  | append_singleton l a ih =>
    by_cases h : a ∈ l
    · rw [eraseDups_concat_of_mem h]
      exact ih
    · rw [eraseDups_concat_of_not_mem h, ← List.concat_eq_append]
      exact ih.concat fun hm => h (List.mem_eraseDups.mp hm)

theorem find_last {nodes : List Node} {id : String} (h : id ∈ nodes.map (·.id)) :
    ∃ n, nodes.reverse.find? (·.id == id) = some n ∧ n.id = id := by
  obtain ⟨m, hm, rfl⟩ := List.mem_map.mp h
  cases hf : nodes.reverse.find? (·.id == m.id) with
  | none => simpa using List.find?_eq_none.mp hf m (by simpa using hm)
  | some n => exact ⟨n, rfl, by simpa using List.find?_some hf⟩

theorem map_id_distinctNodes (nodes : List Node) :
    (distinctNodes nodes).map (·.id) = (nodes.map (·.id)).eraseDups := by
  rw [distinctNodes, List.map_filterMap]
  have hsome : ∀ id ∈ (nodes.map (·.id)).eraseDups,
      (nodes.reverse.find? (·.id == id)).map (·.id) = some id := by
    intro id hid
    obtain ⟨n, hn, rfl⟩ := find_last (List.mem_eraseDups.mp hid)
    rw [hn, Option.map_some]
  rw [List.filterMap_congr hsome, List.filterMap_some]

theorem nodup_distinctNodes (nodes : List Node) : ((distinctNodes nodes).map (·.id)).Nodup := by
  rw [map_id_distinctNodes]
  exact nodup_eraseDups _

theorem distinctNodes_concat_of_mem {nodes : List Node} {n : Node}
    (h : n.id ∈ nodes.map (·.id)) :
    distinctNodes (nodes ++ [n]) =
      (distinctNodes nodes).map fun m => if m.id = n.id then n else m := by
  unfold distinctNodes
  rw [List.map_append, List.map_singleton, eraseDups_concat_of_mem h, List.map_filterMap]
  apply List.filterMap_congr
  intro id hid
  obtain ⟨m, hm, rfl⟩ := find_last (List.mem_eraseDups.mp hid)
  rw [hm, List.reverse_concat, List.find?_cons]
  by_cases hne : n.id = m.id
  · simp [hne]
  · simp [beq_eq_false_iff_ne.mpr hne, Ne.symm hne, hm]

theorem distinctNodes_concat_of_not_mem {nodes : List Node} {n : Node}
    (h : n.id ∉ nodes.map (·.id)) : distinctNodes (nodes ++ [n]) = distinctNodes nodes ++ [n] := by
  unfold distinctNodes
  rw [List.map_append, List.map_singleton, eraseDups_concat_of_not_mem h, List.filterMap_append]
  congr 1
  · apply List.filterMap_congr
    intro id hid
    have hne : n.id ≠ id := fun he => h (he ▸ List.mem_eraseDups.mp hid)
    simp [hne]
  · simp

theorem distinctNodes_of_nodup {nodes : List Node} (h : (nodes.map (·.id)).Nodup) :
    distinctNodes nodes = nodes := by
  induction nodes using List.reverseRecOn with
  | nil => rfl
  | append_singleton nodes n ih =>
    rw [List.map_append, List.nodup_append] at h
    have hn : n.id ∉ nodes.map (·.id) := fun hm => h.2.2 _ hm n.id (by simp) rfl
    rw [distinctNodes_concat_of_not_mem hn, ih h.1]

namespace Definition

def nodeFields (nodes : List Node) : List (String × Json) :=
  nodes.map fun n => (n.id, ofNode n)

theorem map_fst_nodeFields (nodes : List Node) :
    (nodeFields nodes).map (·.1) = nodes.map (·.id) := by
  simp [nodeFields]

theorem put_nodeFields_of_mem {nodes : List Node} {n : Node} (hn : (nodes.map (·.id)).Nodup)
    (h : n.id ∈ nodes.map (·.id)) : Json.put n.id (ofNode n) (nodeFields nodes) =
      nodeFields (nodes.map fun m => if m.id = n.id then n else m) := by
  induction nodes with
  | nil => simp at h
  | cons m nodes ih =>
    rw [List.map_cons, List.nodup_cons] at hn
    simp only [nodeFields, List.map_cons, Json.put]
    by_cases hm : m.id = n.id
    · have hrest : nodes.map (fun m => if m.id = n.id then n else m) = nodes := by
        refine (List.map_congr_left fun k hk => ?_).trans (List.map_id nodes)
        have hne : k.id ≠ n.id := fun he => hn.1 (hm ▸ he ▸ List.mem_map_of_mem hk)
        rw [if_neg hne, id]
      rw [if_pos hm, if_pos hm, hrest, hm]
    · have hmem : n.id ∈ nodes.map (·.id) := by
        simpa [Ne.symm hm] using h
      rw [if_neg hm, if_neg hm]
      exact congrArg _ (ih hn.2 hmem)

theorem processes_eq (nodes : List Node) : processes nodes = nodeFields (distinctNodes nodes) := by
  induction nodes using List.reverseRecOn with
  | nil => rfl
  | append_singleton nodes n ih =>
    have hput : processes (nodes ++ [n]) = Json.put n.id (ofNode n) (processes nodes) := by
      simp [processes]
    rw [hput, ih]
    by_cases h : n.id ∈ nodes.map (·.id)
    · have hmem : n.id ∈ (distinctNodes nodes).map (·.id) := by
        rw [map_id_distinctNodes]
        exact List.mem_eraseDups.mpr h
      rw [distinctNodes_concat_of_mem h, put_nodeFields_of_mem (nodup_distinctNodes nodes) hmem]
    · have hmem : n.id ∉ (nodeFields (distinctNodes nodes)).map (·.1) := by
        rw [map_fst_nodeFields, map_id_distinctNodes]
        exact fun hm => h (List.mem_eraseDups.mp hm)
      rw [distinctNodes_concat_of_not_mem h, Json.put_of_not_mem hmem]
      simp [nodeFields]

end Definition

end FlowGraph
