import FlowGraph.Proofs.Dot.Token

/-! The words of a document, its names and keywords, are those of its statements in the same order:
the parser drops marks and arrows only, and the words before the opening brace. -/

namespace FlowGraph.Dot

namespace Language

def Token.isWord : Token → Bool
  | .id _ | .keyword _ => true
  | .mark _ | .arrow | .line => false

def wordsOf (ts : List Token) : List Token :=
  ts.filter Token.isWord

@[simp]
theorem wordsOf_id (i : Id) (ts : List Token) : wordsOf (.id i :: ts) = .id i :: wordsOf ts :=
  rfl

@[simp]
theorem wordsOf_keyword (k : Keyword) (ts : List Token) :
    wordsOf (.keyword k :: ts) = .keyword k :: wordsOf ts :=
  rfl

@[simp]
theorem wordsOf_mark (c : Char) (ts : List Token) : wordsOf (.mark c :: ts) = wordsOf ts :=
  rfl

@[simp]
theorem wordsOf_arrow (ts : List Token) : wordsOf (.arrow :: ts) = wordsOf ts :=
  rfl

def Place.words (p : Place) : List Token :=
  (p.id :: p.ports).map .id

def attributeWords (given : List (Id × Id)) : List Token :=
  given.flatMap fun (name, value) => [.id name, .id value]

def Item.words : Item → List Token
  | .node place given => place.words ++ attributeWords given
  | .edge places given => places.flatMap Place.words ++ attributeWords given
  | .default k given => .keyword k :: attributeWords given
  | .setting name value => [.id name, .id value]

end Language

open FlowGraph.Dot.Language

variable {ts rest : List Token} {items : List Item}

theorem words_ports (ts : List Token) :
    wordsOf ts = (ports ts).1.map .id ++ wordsOf (ports ts).2 := by
  fun_cases ports ts <;> simp

theorem words_heads (ts : List Token) :
    wordsOf ts = (heads ts).1.flatMap Place.words ++ wordsOf (heads ts).2 := by
  fun_induction heads ts <;> simp_all [Place.words]

theorem words_pair {name value : Id} {given : List (Id × Id)}
    (ih : ∀ {given : List (Id × Id)}, attributeBody ts = some (given, rest) →
      wordsOf ts = attributeWords given ++ wordsOf rest)
    (h : (attributeBody ts).map (fun (given, after) => ((name, value) :: given, after)) =
      some (given, rest)) :
    .id name :: .id value :: wordsOf ts = attributeWords given ++ wordsOf rest := by
  obtain ⟨inner, hinner, rfl⟩ := exists_of_map_fst _ h
  rw [ih hinner]
  rfl

theorem words_attributeBody {given : List (Id × Id)} (h : attributeBody ts = some (given, rest)) :
    wordsOf ts = attributeWords given ++ wordsOf rest := by
  fun_induction attributeBody ts generalizing given with
  | case1 ts ih => exact ih h
  | case2 ts hopen =>
    cases h
    rfl
  | case3 name value ts ih => exact @words_pair ts rest name value given ih h
  | case4 name value ts ih => exact @words_pair ts rest name value given ih h
  | case5 name value ts hcomma hsemicolon ih => exact @words_pair ts rest name value given ih h
  | case6 => cases h

theorem words_attributes {given : List (Id × Id)} (h : attributes ts = some (given, rest)) :
    wordsOf ts = attributeWords given ++ wordsOf rest := by
  unfold attributes at h
  split at h
  · next after => exact (wordsOf_mark '[' after).trans (words_attributeBody h)
  · cases h
    rfl

theorem words_statement? {item : Item} (h : statement? ts = some (item, rest)) :
    wordsOf ts = item.words ++ wordsOf rest := by
  unfold statement? at h
  split at h
  · cases h
    rfl
  · next i after hsetting =>
    dsimp only at h
    obtain ⟨⟨given, tail⟩, hgiven, hpair⟩ := Option.map_eq_some_iff.mp h
    obtain ⟨rfl, rfl⟩ := Prod.mk.inj hpair
    have hwords := words_attributes hgiven
    rw [wordsOf_id, words_ports after, words_heads (ports after).2, hwords]
    split
    · next hnone => simp [hnone, Item.words, Place.words]
    · simp [Item.words, Place.words]
  · next k after =>
    split at h
    · obtain ⟨given, hgiven, rfl⟩ := exists_of_map_fst (Item.default k) h
      rw [wordsOf_keyword, wordsOf_mark, words_attributeBody hgiven]
      rfl
    · cases h
  · cases h

theorem words_afterSemicolon (ts : List Token) : wordsOf (afterSemicolon ts) = wordsOf ts := by
  fun_cases afterSemicolon ts <;> rfl

theorem words_statementsFor {fuel : Nat} (h : statementsFor fuel ts = some items) :
    wordsOf ts = items.flatMap Item.words := by
  induction fuel generalizing ts items with
  | zero => cases h
  | succ fuel ih =>
    unfold statementsFor at h
    split at h
    · next hclose =>
      cases h
      rw [hclose]
      rfl
    · split at h
      · next item rest hitem =>
        obtain ⟨later, hlater, rfl⟩ := Option.map_eq_some_iff.mp h
        rw [words_statement? hitem, ← words_afterSemicolon rest, ih hlater, List.flatMap_cons]
      · cases h

/-- Before the brace there is no other one. -/
theorem body?_eq_some (h : body? ts = some rest) : ∃ header, ts = header ++ .mark '\x7b' :: rest ∧
    .mark '\x7b' ∉ header ∧
      (.keyword .digraph ∈ header.getLast? → header = [.keyword .digraph] ∨
        header = [.keyword .strict, .keyword .digraph]) := by
  unfold body? at h
  split at h <;> cases h
  · next i => exact ⟨[.keyword .strict, .keyword .digraph, .id i], rfl, by simp, by simp⟩
  · exact ⟨[.keyword .strict, .keyword .digraph], rfl, by simp, by simp⟩
  · next i => exact ⟨[.keyword .digraph, .id i], rfl, by simp, by simp⟩
  · exact ⟨[.keyword .digraph], rfl, by simp, by simp⟩

end FlowGraph.Dot
