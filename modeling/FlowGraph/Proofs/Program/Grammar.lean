import FlowGraph.Proofs.Outcome
import FlowGraph.Proofs.Program.Chain

/-! Which lists of tokens are statements: exactly the chains. Any other list is refused on the line
of one of its tokens. -/

namespace FlowGraph.Program

section

variable {t : Located} {ts first : List Located} {links : List (List Located)} {line : Nat}
  {e : SyntaxError}

/-! Ports and nodes. -/

theorem readPort_eq_ok_iff {port : String} : readPort t = .ok port ↔ t.token = .word port := by
  unfold readPort
  split <;> simp_all

theorem readNode_eq_ok_iff {found : String × List (String × String)} :
    readNode t = .ok found ↔ ∃ m : Mention, t.token = m.token ∧ found = (m.id, m.declared) := by
  constructor
  · intro h
    unfold readNode at h
    split at h
    · next id ht => exact ⟨⟨id, none⟩, ht, (Except.ok.inj h).symm⟩
    · next id component ht => exact ⟨⟨id, some component⟩, ht, (Except.ok.inj h).symm⟩
    · cases h
  · rintro ⟨⟨id, component⟩, ht, rfl⟩
    cases component <;> simp [readNode, ht, Mention.token, Mention.declared]

theorem line_of_readPort (h : readPort t = .error e) : e.line = t.line := by
  unfold readPort at h
  split at h
  · cases h
  · exact (congrArg SyntaxError.line (Except.error.inj h)).symm

theorem line_of_readNode (h : readNode t = .error e) : e.line = t.line := by
  unfold readNode at h
  split at h
  · cases h
  · cases h
  · exact (congrArg SyntaxError.line (Except.error.inj h)).symm

/-! The head. -/

theorem readStart_eq_ok_iff {found : Source × List (String × String)} :
    readStart line first = .ok found ↔
      ∃ h : Head, first.map (·.token) = h.tokens ∧ found = (h.source, h.declared) := by
  constructor
  · intro h
    unfold readStart at h
    split at h
    · next t =>
      split at h
      · next data ht =>
        exact ⟨.literal data, by simp [ht, Head.tokens], (Except.ok.inj h).symm⟩
      · cases h
    · next n p =>
      obtain ⟨node, hn, h⟩ := Outcome.bind_eq_ok_iff.mp h
      obtain ⟨port, hp, h⟩ := Outcome.bind_eq_ok_iff.mp h
      obtain ⟨m, hm, rfl⟩ := readNode_eq_ok_iff.mp hn
      have hport := readPort_eq_ok_iff.mp hp
      exact ⟨.port m port, by simp [hm, hport, Head.tokens], (Except.ok.inj h).symm⟩
    · cases h
  · rintro ⟨h, htokens, rfl⟩
    cases h with
    | literal data =>
      obtain ⟨t, rfl, ht⟩ := List.map_eq_singleton_iff.mp htokens
      simp [readStart, ht, Head.source, Head.declared]
    | port node outport =>
      obtain ⟨n, rest, rfl, hn, hrest⟩ := List.map_eq_cons_iff.mp htokens
      obtain ⟨p, rfl, hp⟩ := List.map_eq_singleton_iff.mp hrest
      rw [readStart, readNode_eq_ok_iff.mpr ⟨node, hn, rfl⟩, readPort_eq_ok_iff.mpr hp]
      rfl

theorem line_of_readStart (h : readStart line first = .error e) :
    e.line = line ∨ ∃ t ∈ first, e.line = t.line := by
  unfold readStart at h
  split at h
  · split at h
    · cases h
    · exact .inl (congrArg SyntaxError.line (Except.error.inj h)).symm
  · next n p =>
    refine .inr ?_
    rcases Outcome.bind_eq_error_iff.mp h with hn | ⟨node, -, h⟩
    · exact ⟨n, by simp, line_of_readNode hn⟩
    · rcases Outcome.bind_eq_error_iff.mp h with hp | ⟨port, -, h⟩
      · exact ⟨p, by simp, line_of_readPort hp⟩
      · cases h
  · exact .inl (congrArg SyntaxError.line (Except.error.inj h)).symm

/-! The links. What is read after an arrow is told by the tokens up to the next arrow. -/

theorem readLinks_last {p n : Located} {source : Source} {s : Statement} :
    readLinks line source [[p, n]] = .ok s ↔ ∃ l : Link, [p, n].map (·.token) = l.segment ∧
      s = ⟨l.node.declared, [source.connect l.target]⟩ := by
  constructor
  · intro h
    obtain ⟨node, hn, h⟩ := Outcome.bind_eq_ok_iff.mp h
    obtain ⟨port, hp, h⟩ := Outcome.bind_eq_ok_iff.mp h
    obtain ⟨m, hm, rfl⟩ := readNode_eq_ok_iff.mp hn
    have hport := readPort_eq_ok_iff.mp hp
    exact ⟨⟨port, m⟩, by simp [hm, hport, Link.segment], (Except.ok.inj h).symm⟩
  · rintro ⟨⟨port, m⟩, ht, rfl⟩
    obtain ⟨hp, hn⟩ : p.token = .word port ∧ n.token = m.token := by
      simpa [Link.segment] using ht
    rw [readLinks, readNode_eq_ok_iff.mpr ⟨m, hn, rfl⟩, readPort_eq_ok_iff.mpr hp]
    rfl

theorem readLinks_inner {p n q : Located} {source : Source} {s : Statement} (hl : links ≠ []) :
    readLinks line source ([p, n, q] :: links) = .ok s ↔ ∃ (l : Link) (outport : String)
      (after : Statement), [p, n, q].map (·.token) = l.segment ++ [.word outport] ∧
      readLinks line (.port ⟨l.node.id, outport⟩) links = .ok after ∧
      s = ⟨l.node.declared ++ after.declared, source.connect l.target :: after.connections⟩ := by
  -- A segment of three tokens is refused at the end of a statement, so the next one is shown.
  obtain ⟨next, links, rfl⟩ := List.exists_cons_of_ne_nil hl
  constructor
  · intro h
    obtain ⟨node, hn, h⟩ := Outcome.bind_eq_ok_iff.mp h
    obtain ⟨inport, hp, h⟩ := Outcome.bind_eq_ok_iff.mp h
    obtain ⟨outport, hq, h⟩ := Outcome.bind_eq_ok_iff.mp h
    obtain ⟨after, hafter, h⟩ := Outcome.bind_eq_ok_iff.mp h
    obtain ⟨m, hm, rfl⟩ := readNode_eq_ok_iff.mp hn
    have hin := readPort_eq_ok_iff.mp hp
    have hout := readPort_eq_ok_iff.mp hq
    exact ⟨⟨inport, m⟩, outport, after, by simp [hm, hin, hout, Link.segment], hafter,
      (Except.ok.inj h).symm⟩
  · rintro ⟨⟨inport, m⟩, outport, after, ht, hafter, rfl⟩
    obtain ⟨hp, hn, hq⟩ :
        p.token = .word inport ∧ n.token = m.token ∧ q.token = .word outport := by
      simpa [Link.segment] using ht
    have hnode := readNode_eq_ok_iff.mpr ⟨m, hn, rfl⟩
    have hin := readPort_eq_ok_iff.mpr hp
    have hout := readPort_eq_ok_iff.mpr hq
    rw [readLinks, hnode, hin, hout]
    · show (readLinks line (.port ⟨m.id, outport⟩) (next :: links) >>= _) = _
      rw [hafter]
      rfl
    · exact List.cons_ne_nil _ _

theorem segments_of_readLinks {source : Source} {s : Statement} (hl : links ≠ [])
    (h : readLinks line source links = .ok s) :
    ∃ inner last, links.map (·.map (·.token)) = linkSegments inner last := by
  induction links generalizing source s with
  | nil => exact absurd rfl hl
  | cons segment links ih =>
    by_cases hend : links = []
    · subst hend
      match segment, h with
      | [p, n], h =>
        obtain ⟨l, hsegment, -⟩ := readLinks_last.mp h
        exact ⟨[], l, by rw [List.map_singleton, hsegment]; rfl⟩
    · obtain ⟨next, rest, rfl⟩ := List.exists_cons_of_ne_nil hend
      match segment, h with
      | [p, n, q], h =>
        obtain ⟨l, outport, after, hsegment, hafter, -⟩ := (readLinks_inner hend).mp h
        obtain ⟨inner, last, hlinks⟩ := ih hend hafter
        exact ⟨(l, outport) :: inner, last, by
          rw [List.map_cons, hsegment, hlinks, linkSegments_cons]⟩

theorem readLinks_of_segments (head : Head) {inner : List (Link × String)} {last : Link}
    (h : links.map (·.map (·.token)) = linkSegments inner last) :
    readLinks line head.source links = .ok
      ⟨(Chain.mk head inner last).links.flatMap (·.node.declared),
        (Chain.mk head inner last).connections⟩ := by
  induction inner generalizing head links with
  | nil =>
    obtain ⟨segment, rfl, hsegment⟩ := List.map_eq_singleton_iff.mp h
    obtain ⟨p, rest, rfl, -, hrest⟩ := List.map_eq_cons_iff.mp hsegment
    obtain ⟨n, rfl, -⟩ := List.map_eq_singleton_iff.mp hrest
    rw [readLinks_last.mpr ⟨last, hsegment, rfl⟩]
    simp [Chain.links, Chain.connections, Chain.heads]
  | cons link inner ih =>
    obtain ⟨l, outport⟩ := link
    rw [linkSegments_cons] at h
    obtain ⟨segment, rest, rfl, hsegment, hrest⟩ := List.map_eq_cons_iff.mp h
    obtain ⟨p, tail, rfl, -, htail⟩ := List.map_eq_cons_iff.mp hsegment
    obtain ⟨n, tail, rfl, -, htail⟩ := List.map_eq_cons_iff.mp htail
    obtain ⟨q, rfl, -⟩ := List.map_eq_singleton_iff.mp htail
    have hne : rest ≠ [] := by
      rintro rfl
      exact linkSegments_ne_nil inner last hrest.symm
    have hafter := ih (.port l.node outport) hrest
    rw [(readLinks_inner hne).mpr ⟨l, outport, _, hsegment, hafter, rfl⟩]
    rfl

theorem line_of_readLinks {source : Source} (h : readLinks line source links = .error e) :
    e.line = line ∨ ∃ segment ∈ links, ∃ t ∈ segment, e.line = t.line := by
  fun_induction readLinks line source links with
  | case1 => cases h
  | case2 source p n =>
    refine .inr ⟨[p, n], by simp, ?_⟩
    rcases Outcome.bind_eq_error_iff.mp h with hn | ⟨node, -, h⟩
    · exact ⟨n, by simp, line_of_readNode hn⟩
    · rcases Outcome.bind_eq_error_iff.mp h with hp | ⟨port, -, h⟩
      · exact ⟨p, by simp, line_of_readPort hp⟩
      · cases h
  | case3 => exact .inl (congrArg SyntaxError.line (Except.error.inj h)).symm
  | case4 source p n q rest hne ih =>
    rcases Outcome.bind_eq_error_iff.mp h with hn | ⟨⟨id, declared⟩, -, h⟩
    · exact .inr ⟨_, List.mem_cons_self, n, by simp, line_of_readNode hn⟩
    rcases Outcome.bind_eq_error_iff.mp h with hp | ⟨inport, -, h⟩
    · exact .inr ⟨_, List.mem_cons_self, p, by simp, line_of_readPort hp⟩
    rcases Outcome.bind_eq_error_iff.mp h with hq | ⟨outport, -, h⟩
    · exact .inr ⟨_, List.mem_cons_self, q, by simp, line_of_readPort hq⟩
    rcases Outcome.bind_eq_error_iff.mp h with hrest | ⟨after, -, h⟩
    · rcases ih id outport hrest with hline | ⟨segment, hs, hline⟩
      · exact .inl hline
      · exact .inr ⟨segment, List.mem_cons_of_mem _ hs, hline⟩
    · cases h
  | case5 => exact .inl (congrArg SyntaxError.line (Except.error.inj h)).symm

/-! Where the arrows stand. -/

theorem map_token_segments (ts : List Located) : ts.map (·.token) =
    (segments ts).1.map (·.token) ++
      (segments ts).2.flatMap (fun segment => .arrow :: segment.map (·.token)) := by
  induction ts with
  | nil => rfl
  | cons t ts ih =>
    by_cases h : t.token = .arrow
    · simp [segments, h, ih]
    · simp [segments, h, ih]

theorem segments_of_tokens {start : List Token} {rest : List (List Token)}
    (h : ts.map (·.token) = start ++ rest.flatMap (.arrow :: ·)) (hs : .arrow ∉ start)
    (hr : ∀ segment ∈ rest, .arrow ∉ segment) :
    (segments ts).1.map (·.token) = start ∧ (segments ts).2.map (·.map (·.token)) = rest := by
  induction ts generalizing start rest with
  | nil =>
    obtain ⟨rfl, hrest⟩ := List.append_eq_nil_iff.mp h.symm
    cases rest with
    | nil => exact ⟨rfl, rfl⟩
    | cons segment rest => simp at hrest
  | cons t ts ih =>
    cases start with
    | nil =>
      cases rest with
      | nil => simp at h
      | cons segment rest =>
        rw [List.forall_mem_cons] at hr
        obtain ⟨ht, h⟩ : t.token = .arrow ∧
            ts.map (·.token) = segment ++ rest.flatMap (.arrow :: ·) := by
          simpa using h
        obtain ⟨hstart, hrest⟩ := ih h hr.1 hr.2
        simp [segments, ht, hstart, hrest]
    | cons first start =>
      rw [List.mem_cons, not_or] at hs
      obtain ⟨ht, h⟩ : t.token = first ∧
          ts.map (·.token) = start ++ rest.flatMap (.arrow :: ·) := by
        simpa using h
      obtain ⟨hstart, hrest⟩ := ih h hs.2 hr
      have hne : first ≠ .arrow := Ne.symm hs.1
      simp [segments, hne, ht, hstart, hrest]

theorem mem_of_mem_segments (ts : List Located) :
    (∀ t ∈ (segments ts).1, t ∈ ts) ∧ ∀ segment ∈ (segments ts).2, ∀ t ∈ segment, t ∈ ts := by
  induction ts with
  | nil => simp [segments]
  | cons u ts ih =>
    obtain ⟨hfirst, hrest⟩ := ih
    by_cases h : u.token = .arrow
    · simp only [segments, h, if_true, List.not_mem_nil, false_implies, implies_true, true_and,
        List.forall_mem_cons]
      exact ⟨fun t ht => .tail _ (hfirst t ht), fun segment hs t ht => .tail _ (hrest _ hs t ht)⟩
    · simp only [segments, h, if_false, List.forall_mem_cons]
      exact ⟨⟨List.mem_cons_self, fun t ht => .tail _ (hfirst t ht)⟩,
        fun segment hs t ht => .tail _ (hrest _ hs t ht)⟩

/-! The statement. -/

theorem readStatement_of_chain {c : Chain} (h : ts.map (·.token) = c.tokens) :
    readStatement ts = .ok c.statement := by
  rw [Chain.tokens_eq] at h
  obtain ⟨hfirst, hlinks⟩ := segments_of_tokens h c.head.arrow_not_mem
    (arrow_not_mem_linkSegments c.inner c.last)
  unfold readStatement
  split
  · next first hsegments =>
    rw [hsegments] at hlinks
    exact absurd hlinks.symm (linkSegments_ne_nil c.inner c.last)
  · next first links hne hsegments =>
    rw [hsegments] at hfirst hlinks
    refine Outcome.bind_eq_ok_iff.mpr ⟨_, readStart_eq_ok_iff.mpr ⟨c.head, hfirst, rfl⟩, ?_⟩
    exact Outcome.bind_eq_ok_iff.mpr ⟨_, readLinks_of_segments c.head hlinks, rfl⟩

theorem readStatement_eq_ok_iff {s : Statement} :
    readStatement ts = .ok s ↔ ∃ c : Chain, ts.map (·.token) = c.tokens ∧ s = c.statement := by
  constructor
  · intro h
    have hchain : ∃ c : Chain, ts.map (·.token) = c.tokens := by
      unfold readStatement at h
      split at h
      · cases h
      · next first links hne hsegments =>
        obtain ⟨start, hstart, h⟩ := Outcome.bind_eq_ok_iff.mp h
        obtain ⟨rest, hrest, h⟩ := Outcome.bind_eq_ok_iff.mp h
        obtain ⟨head, hhead, -⟩ := readStart_eq_ok_iff.mp hstart
        obtain ⟨inner, last, hlinks⟩ := segments_of_readLinks hne hrest
        refine ⟨⟨head, inner, last⟩, ?_⟩
        rw [map_token_segments, hsegments, Chain.tokens_eq, ← hlinks, ← hhead, List.flatMap_map]
    obtain ⟨c, hc⟩ := hchain
    exact ⟨c, hc, Except.ok.inj (h.symm.trans (readStatement_of_chain hc))⟩
  · rintro ⟨c, hc, rfl⟩
    exact readStatement_of_chain hc

theorem line_of_readStatement (hne : ts ≠ []) (h : readStatement ts = .error e) :
    ∃ t ∈ ts, e.line = t.line := by
  obtain ⟨t, rest, rfl⟩ := List.exists_cons_of_ne_nil hne
  obtain ⟨hfirst, hlinks⟩ := mem_of_mem_segments (t :: rest)
  have hself : ∃ u ∈ t :: rest, t.line = u.line := ⟨t, List.mem_cons_self, rfl⟩
  unfold readStatement at h
  split at h
  · rw [← Except.error.inj h]
    exact hself
  · next first links hnil hsegments =>
    rw [hsegments] at hfirst hlinks
    rcases Outcome.bind_eq_error_iff.mp h with hstart | ⟨start, -, h⟩
    · rcases line_of_readStart hstart with hline | ⟨u, hu, hline⟩
      · exact hline ▸ hself
      · exact ⟨u, hfirst u hu, hline⟩
    · rcases Outcome.bind_eq_error_iff.mp h with hrest | ⟨chain, -, h⟩
      · rcases line_of_readLinks hrest with hline | ⟨segment, hs, u, hu, hline⟩
        · exact hline ▸ hself
        · exact ⟨u, hlinks segment hs u hu, hline⟩
      · cases h

end

/-- The statements of a chain's pieces are read one by one. -/
theorem mapM_readStatement_of_chains {pieces : List (List Located)} {chains : List Chain}
    (h : pieces.map (·.map (·.token)) = chains.map Chain.tokens) :
    pieces.mapM readStatement = .ok (chains.map Chain.statement) := by
  rw [Outcome.mapM_eq_ok_iff, List.forall₂_map_right_iff]
  rw [← List.forall₂_eq_eq_eq, List.forall₂_map_left_iff, List.forall₂_map_right_iff] at h
  exact h.imp fun _ _ => readStatement_of_chain

/-- A statement is read just if its tokens are a chain, and is refused on the line of one of them
otherwise. It adds one connection for each arrow, those of the chain in their order. The chain says
the same as the pieces into which its inner nodes cut it. -/
theorem readStatement_reads_exactly_chains (t : Located) (rest : List Located) :
    ((∃ s, readStatement (t :: rest) = .ok s) ↔
      ∃ c : Chain, (t :: rest).map (·.token) = c.tokens) ∧
    ((¬ ∃ c : Chain, (t :: rest).map (·.token) = c.tokens) →
      ∃ e, readStatement (t :: rest) = .error e ∧ ∃ u ∈ t :: rest, e.line = u.line) ∧
    ∀ c : Chain, (t :: rest).map (·.token) = c.tokens →
      readStatement (t :: rest) = .ok c.statement ∧
      c.connections.length = ((t :: rest).map (·.token)).count .arrow ∧
      ∀ (name : String) (before after : List Statement),
        (ofStatements name (before ++ [c.statement])).connections =
          (ofStatements name before).connections ++ c.connections ∧
        ∀ pieces : List (List Located), pieces.map (·.map (·.token)) = c.cut.map Chain.tokens →
          ∃ cut, pieces.mapM readStatement = .ok cut ∧
            ofStatements name (before ++ cut ++ after) =
              ofStatements name (before ++ c.statement :: after) := by
  refine ⟨⟨?_, ?_⟩, ?_, ?_⟩
  · rintro ⟨s, hs⟩
    obtain ⟨c, hc, -⟩ := readStatement_eq_ok_iff.mp hs
    exact ⟨c, hc⟩
  · rintro ⟨c, hc⟩
    exact ⟨c.statement, readStatement_of_chain hc⟩
  · intro hno
    cases h : readStatement (t :: rest) with
    | ok s =>
      obtain ⟨c, hc, -⟩ := readStatement_eq_ok_iff.mp h
      exact absurd ⟨c, hc⟩ hno
    | error e => exact ⟨e, rfl, line_of_readStatement (List.cons_ne_nil t rest) h⟩
  · intro c hc
    refine ⟨readStatement_of_chain hc, ?_, fun name before after => ⟨?_, fun pieces hp => ?_⟩⟩
    · rw [hc, c.length_connections, c.count_arrow]
    · simp [ofStatements, Chain.statement]
    · exact ⟨_, mapM_readStatement_of_chains hp, ofStatements_cut name c before after⟩

/-- The tokens of `'x' -> IN A(C) OUT -> IN B`. -/
def twoLinks : List Located :=
  [⟨.literal "x", 1⟩, ⟨.arrow, 1⟩, ⟨.word "IN", 1⟩, ⟨.node "A" "C", 1⟩, ⟨.word "OUT", 1⟩,
    ⟨.arrow, 1⟩, ⟨.word "IN", 1⟩, ⟨.word "B", 1⟩]

theorem twoLinks_read : readStatement twoLinks = .ok ⟨[("A", "C")],
    [.initial ⟨.string "x", ⟨"A", "IN"⟩⟩, .edge ⟨⟨"A", "OUT"⟩, ⟨"B", "IN"⟩⟩]⟩ :=
  ((readStatement_reads_exactly_chains _ _).2.2
    ⟨.literal "x", [(⟨"IN", ⟨"A", some "C"⟩⟩, "OUT")], ⟨"IN", ⟨"B", none⟩⟩⟩ rfl).1

end FlowGraph.Program
