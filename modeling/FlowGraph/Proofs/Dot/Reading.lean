import FlowGraph.Dot.Document
import FlowGraph.Proofs.Dot.Identifier

/-! Documents are read as they were written, statement by statement, if each identifier stays one
token. Every token takes something from the text, so its length is fuel enough. -/

namespace FlowGraph.Dot

open FlowGraph.Dot.Language

variable {s rest : List Char} {ts : List Token}

/-! Tokens are not empty, and what is left after one is an end of the text. -/

theorem quotedBody_suffix {body after : List Char} (h : quotedBody s = some (body, after)) :
    after <:+ s.tail := by
  fun_induction quotedBody s generalizing body with
  | case1 => cases h
  | case2 rest =>
    obtain ⟨-, rfl⟩ := Prod.mk.inj (Option.some.inj h)
    exact List.suffix_refl _
  | case3 rest ih =>
    obtain ⟨inner, hinner, -⟩ := exists_of_map_fst _ h
    exact ((ih hinner).trans (List.tail_suffix rest)).trans (List.suffix_cons _ _)
  | case4 rest ih =>
    obtain ⟨inner, hinner, -⟩ := exists_of_map_fst (fun s => '\\' :: '\\' :: s) h
    exact ((ih hinner).trans (List.tail_suffix rest)).trans (List.suffix_cons _ _)
  | case5 rest ih => exact ((ih h).trans (List.tail_suffix rest)).trans (List.suffix_cons _ _)
  | case6 c rest hquote hescaped hpair hline ih =>
    obtain ⟨inner, hinner, -⟩ := exists_of_map_fst _ h
    exact (ih hinner).trans (List.tail_suffix rest)

theorem numeral?_suffix {n after : List Char} (h : numeral? s = some (n, after)) :
    after <:+ s.tail := by
  have hwhole : s.dropWhile Char.isDigit <:+ s := List.dropWhile_suffix _
  have hsplit : s.takeWhile Char.isDigit ++ s.dropWhile Char.isDigit = s :=
    List.takeWhile_append_dropWhile
  unfold numeral? at h
  dsimp only at h
  split at h
  · next fraction hrest =>
    split at h
    · cases h
    · obtain ⟨-, rfl⟩ := Prod.mk.inj (Option.some.inj h)
      obtain ⟨digits, hdigits⟩ := hrest ▸ hwhole
      have hfraction : fraction <:+ s.tail := by
        rw [← hdigits]
        cases digits with
        | nil => exact List.suffix_refl _
        | cons d digits => exact (List.suffix_cons _ _).trans (List.suffix_append digits _)
      exact (List.dropWhile_suffix _).trans hfraction
  · split at h
    · cases h
    · next hne =>
      obtain ⟨-, rfl⟩ := Prod.mk.inj (Option.some.inj h)
      obtain ⟨d, digits, hdigits⟩ := List.exists_cons_of_ne_nil hne
      rw [hdigits, List.cons_append] at hsplit
      exact ⟨digits, congrArg List.tail hsplit⟩

theorem token?_suffix {t : Token} (h : token? s = some (t, rest)) : rest <:+ s.tail := by
  unfold token? at h
  split at h
  · cases h
  · obtain ⟨body, hbody, -⟩ := exists_of_map_fst (fun s => Token.id (.text s)) h
    exact (quotedBody_suffix hbody).trans (List.tail_suffix _)
  · obtain ⟨body, hbody, -⟩ := exists_of_map_fst (fun s => Token.id (.markup s)) h
    rw [(markupBody_eq_some_iff.mp hbody).1]
    exact (List.suffix_cons _ _).trans (List.suffix_append body _)
  · cases h
    exact List.suffix_cons _ _
  · cases h
    exact List.suffix_cons _ _
  · obtain ⟨n, hn, -⟩ := exists_of_map_fst (fun s => Token.id (.text ('-' :: s))) h
    exact (numeral?_suffix hn).trans (List.tail_suffix _)
  · next c after _ _ _ _ _ =>
    split at h
    · cases h
      exact List.suffix_refl _
    split at h
    · next hstart =>
      obtain ⟨-, rfl⟩ := Prod.mk.inj (Option.some.inj h)
      have hc : Language.isNameChar c = true := by simp [Language.isNameChar, hstart]
      rw [List.dropWhile_cons_of_pos hc]
      exact List.dropWhile_suffix _
    · obtain ⟨n, hn, -⟩ := exists_of_map_fst (fun s => Token.id (.text s)) h
      exact numeral?_suffix hn

theorem length_token? {t : Token} (h : token? s = some (t, rest)) : rest.length < s.length := by
  have hlength := (token?_suffix h).length_le
  cases s with
  | nil => cases h
  | cons c after => exact Nat.lt_succ_of_le hlength

def startsGap (c : Char) : Bool :=
  c == '/' || isBlank c

theorem token?_of_startsGap {c : Char} (hc : startsGap c = true) (after : List Char) :
    token? (c :: after) = none := by
  have hkind : c = '/' ∨ ((c = ' ' ∨ c = '\t') ∨ c = '\r') ∨ c = '\n' := by
    simpa [startsGap, isBlank] using hc
  rcases hkind with rfl | ((rfl | rfl) | rfl) | rfl <;> rfl

/-- A character that opens no comment and no line with a number sign. -/
theorem gap?_single {c : Char} (hline : ∀ after, c = '/' → s = '/' :: after → False)
    (hstar : ∀ after, c = '/' → s = '*' :: after → False)
    (hsign : ∀ after, c = '\n' → s = '#' :: after → False) :
    gap? (c :: s) = if isBlank c then some s else none := by
  rewrite [gap?]
  · rfl
  · exact hline
  · exact hstar
  · exact hsign

theorem gap?_of_token? {t : Token} (h : token? s = some (t, rest)) : gap? s = none := by
  cases s with
  | nil => rfl
  | cons c after =>
    have hc : startsGap c = false := by
      rw [← Bool.not_eq_true]
      intro hc
      cases (token?_of_startsGap hc after).symm.trans h
    simp only [startsGap, Bool.or_eq_false_iff, beq_eq_false_iff_ne] at hc
    have hline : c ≠ '\n' := by
      rintro rfl
      cases hc.2
    rw [gap?_single (fun _ h => absurd h hc.1) (fun _ h => absurd h hc.1)
      fun _ h => absurd h hline, if_neg (Bool.not_eq_true _ ▸ hc.2)]

/-! What a text is read as, whatever fuel there is beyond its length. -/

def Lexes (s : List Char) (ts : List Token) : Prop :=
  ∀ fuel, s.length ≤ fuel → lexFor fuel s = some ts

theorem lexes_nil : Lexes [] [] := by
  intro fuel _
  cases fuel <;> rfl

theorem lexFor_succ (fuel : Nat) (s : List Char) (hs : s ≠ []) : lexFor (fuel + 1) s =
    match gap? s with
    | some rest => lexFor fuel rest
    | none =>
      match token? s with
      | some (t, rest) => (lexFor fuel rest).map (t :: ·)
      | none => none := by
  obtain ⟨c, s, rfl⟩ := List.exists_cons_of_ne_nil hs
  rfl

theorem Lexes.gap (h : Lexes rest ts) (hgap : gap? s = some rest)
    (hlength : rest.length < s.length) : Lexes s ts := by
  intro fuel hfuel
  obtain ⟨fuel, rfl⟩ : ∃ n, fuel = n + 1 := Nat.exists_eq_add_one_of_ne_zero (by omega)
  have hs : s ≠ [] := List.ne_nil_of_length_pos (by omega)
  rw [lexFor_succ fuel s hs, hgap]
  exact h fuel (by omega)

theorem Lexes.token {t : Token} (h : Lexes rest ts) (htoken : token? s = some (t, rest)) :
    Lexes s (t :: ts) := by
  have hlength := length_token? htoken
  intro fuel hfuel
  obtain ⟨fuel, rfl⟩ : ∃ n, fuel = n + 1 := Nat.exists_eq_add_one_of_ne_zero (by omega)
  have hs : s ≠ [] := List.ne_nil_of_length_pos (by omega)
  rw [lexFor_succ fuel s hs, gap?_of_token? htoken, htoken]
  simp only [h fuel (by omega), Option.map_some]

/-- A number sign begins no token, so this line feed is a gap of its own. -/
theorem Lexes.newline (h : Lexes rest ts) : Lexes ('\n' :: rest) ts := by
  have hsign (after : List Char) : rest ≠ '#' :: after := by
    rintro rfl
    have hnone : lexFor (after.length + 1) ('#' :: after) = none := rfl
    cases hnone.symm.trans (h _ (Nat.le_refl _))
  have hgap : gap? ('\n' :: rest) = some rest := gap?_single nofun nofun fun after _ => hsign after
  exact h.gap hgap (Nat.lt_succ_self _)

theorem Lexes.blank {c : Char} (h : Lexes rest ts) (hc : c = ' ' ∨ c = '\t') :
    Lexes (c :: rest) ts := by
  have hgap : gap? (c :: rest) = some rest := by
    rcases hc with rfl | rfl <;> rfl
  exact h.gap hgap (Nat.lt_succ_self _)

theorem Lexes.comment {text : List Char} (h : Lexes rest ts) (htext : '\n' ∉ text) :
    Lexes ('/' :: '/' :: (text ++ '\n' :: rest)) ts := by
  have hgap : gap? ('/' :: '/' :: (text ++ '\n' :: rest)) = some ('\n' :: rest) := by
    have hrun : ∀ c ∈ text, decide (c ≠ '\n') = true := by
      intro c hc
      rw [decide_eq_true_iff]
      rintro rfl
      exact htext hc
    exact congrArg some (Program.dropWhile_append_of_stop hrun (by simp))
  refine h.newline.gap hgap ?_
  simp
  omega

/-! The texts of statements. -/

def ReadsName (s : List Char) (i : Id) : Prop :=
  ∃ tail, (tail = [] ∨ tail = ['\n']) ∧
    ∀ rest, Ends rest → token? (identifier s ++ rest) = some (.id i, tail ++ rest)

theorem Lexes.identifier {i : Id} (h : Lexes rest ts) (hi : ReadsName s i) (hr : Ends rest) :
    Lexes (Dot.identifier s ++ rest) (.id i :: ts) := by
  obtain ⟨tail, htail, hread⟩ := hi
  have hafter : Lexes (tail ++ rest) ts := by
    rcases htail with rfl | rfl
    · exact h
    · exact h.newline
  exact hafter.token (hread rest hr)

def shape : Id := .text "shape".toList

def box : Id := .text "box".toList

def label : Id := .text "label".toList

def nodeTokens (i : Id) : List Token :=
  [.id i, .mark '[', .id shape, .mark '=', .id box, .mark ']']

def edgeTokens (tail head name : Id) : List Token :=
  [.id tail, .arrow, .id head, .mark '[', .id label, .mark '=', .id name, .mark ']']

theorem Lexes.node {id : String} {i : Id} (h : Lexes rest ts) (hi : ReadsName id.toList i) :
    Lexes ((Statement.node id).text ++ rest) (nodeTokens i ++ ts) := by
  have hclose : Lexes ("]\n".toList ++ rest) (.mark ']' :: ts) := h.newline.token rfl
  have hbox : Lexes ("box]\n".toList ++ rest) (.id box :: .mark ']' :: ts) := hclose.token rfl
  have hshape : Lexes (" [shape=box]\n".toList ++ rest)
      (.mark '[' :: .id shape :: .mark '=' :: .id box :: .mark ']' :: ts) :=
    (((hbox.token rfl).token rfl).token rfl).blank (.inl rfl)
  have hname := hshape.identifier hi ⟨' ', _, rfl, by decide⟩
  have htext : (Statement.node id).text ++ rest =
      '\t' :: (Dot.identifier id.toList ++ (" [shape=box]\n".toList ++ rest)) := by
    simp [Statement.text]
  rw [htext]
  exact hname.blank (.inr rfl)

theorem Lexes.edge {tail head name : String} {i j l : Id} (h : Lexes rest ts)
    (hi : ReadsName tail.toList i) (hj : ReadsName head.toList j) (hl : ReadsName name.toList l) :
    Lexes ((Statement.edge tail head name).text ++ rest) (edgeTokens i j l ++ ts) := by
  have hclose : Lexes ("]\n".toList ++ rest) (.mark ']' :: ts) := h.newline.token rfl
  have hname := hclose.identifier hl ⟨']', _, rfl, by decide⟩
  have hlabel : Lexes (" [label=".toList ++ (Dot.identifier name.toList ++ ("]\n".toList ++ rest)))
      (.mark '[' :: .id label :: .mark '=' :: .id l :: .mark ']' :: ts) :=
    (((hname.token rfl).token rfl).token rfl).blank (.inl rfl)
  have hhead := hlabel.identifier hj ⟨' ', _, rfl, by decide⟩
  have harrow : Lexes (" -> ".toList ++ (Dot.identifier head.toList ++ (" [label=".toList ++
      (Dot.identifier name.toList ++ ("]\n".toList ++ rest))))) (.arrow :: .id j :: .mark '[' ::
      .id label :: .mark '=' :: .id l :: .mark ']' :: ts) :=
    ((hhead.blank (.inl rfl)).token rfl).blank (.inl rfl)
  have htail := harrow.identifier hi ⟨' ', _, rfl, by decide⟩
  have htext : (Statement.edge tail head name).text ++ rest =
      '\t' :: (Dot.identifier tail.toList ++ (" -> ".toList ++ (Dot.identifier head.toList ++
        (" [label=".toList ++ (Dot.identifier name.toList ++ ("]\n".toList ++ rest)))))) := by
    simp [Statement.text]
  rw [htext]
  exact htail.blank (.inr rfl)

/-! The tokens of statements. -/

def Parses (ts : List Token) (items : List Item) : Prop :=
  ∀ fuel, ts.length ≤ fuel → statementsFor fuel ts = some items

/-- No statement takes a token with which another begins, nor the closing brace. -/
def Begins (ts : List Token) : Prop :=
  ∃ t rest, ts = t :: rest ∧ (t = .mark '\x7d' ∨ ∃ i, t = .id i)

theorem parses_close : Parses [.mark '\x7d'] [] := by
  intro fuel hfuel
  obtain ⟨fuel, rfl⟩ := Nat.exists_eq_add_one_of_ne_zero (Nat.ne_of_gt hfuel)
  rfl

variable {items : List Item}

theorem Parses.statement {first : List Token} {item : Item} (h : Parses ts items)
    (hts : Begins ts) (hfirst : 2 ≤ first.length)
    (hitem : statement? (first ++ ts) = some (item, ts)) :
    Parses (first ++ ts) (item :: items) := by
  intro fuel hfuel
  rw [List.length_append] at hfuel
  obtain ⟨fuel, rfl⟩ : ∃ n, fuel = n + 1 := Nat.exists_eq_add_one_of_ne_zero (by omega)
  obtain ⟨t, rest, rfl, ht⟩ := hts
  have hopen : first ++ t :: rest ≠ [.mark '\x7d'] := by
    intro heq
    have hlength := congrArg List.length heq
    simp at hlength
    omega
  have hsemicolon : afterSemicolon (t :: rest) = t :: rest := by
    rcases ht with rfl | ⟨i, rfl⟩ <;> rfl
  have hrest := h fuel (by omega)
  rw [statementsFor, if_neg hopen, hitem]
  simp only [hsemicolon, hrest, Option.map_some]

def nodeItem (i : Id) : Item :=
  .node ⟨i, []⟩ [(shape, box)]

def edgeItem (tail head name : Id) : Item :=
  .edge [⟨tail, []⟩, ⟨head, []⟩] [(label, name)]

theorem Parses.node (i : Id) (h : Parses ts items) (hts : Begins ts) :
    Parses (nodeTokens i ++ ts) (nodeItem i :: items) := by
  refine h.statement hts (by simp [nodeTokens]) ?_
  obtain ⟨t, rest, rfl, rfl | ⟨j, rfl⟩⟩ := hts <;> rfl

theorem Parses.edge (i j l : Id) (h : Parses ts items) (hts : Begins ts) :
    Parses (edgeTokens i j l ++ ts) (edgeItem i j l :: items) := by
  refine h.statement hts (by simp [edgeTokens]) ?_
  obtain ⟨t, rest, rfl, rfl | ⟨j, rfl⟩⟩ := hts <;> rfl

/-! Documents. -/

/-- What a statement is read as, given what its names are read as. -/
inductive ReadsAs : Statement → Item → Prop
  | node {id : String} {i : Id} (hi : ReadsName id.toList i) :
    ReadsAs (.node id) (nodeItem i)
  | edge {tail head name : String} {i j l : Id} (hi : ReadsName tail.toList i)
    (hj : ReadsName head.toList j) (hl : ReadsName name.toList l) :
    ReadsAs (.edge tail head name) (edgeItem i j l)

theorem exists_tokens {statements : List Statement}
    (h : List.Forall₂ ReadsAs statements items) : ∃ ts,
      Lexes (statements.flatMap Statement.text ++ "\x7d\n".toList) ts ∧ Parses ts items ∧
        Begins ts := by
  induction h with
  | nil =>
    have hclose : Lexes "\x7d\n".toList [.mark '\x7d'] := lexes_nil.newline.token rfl
    exact ⟨_, hclose, parses_close, _, _, rfl, .inl rfl⟩
  | cons hfirst _ ih =>
    obtain ⟨ts, hlex, hparse, hbegins⟩ := ih
    rw [List.flatMap_cons, List.append_assoc]
    cases hfirst with
    | node hi => exact ⟨_, hlex.node hi, hparse.node _ hbegins, _, _, rfl, .inr ⟨_, rfl⟩⟩
    | edge hi hj hl =>
      exact ⟨_, hlex.edge hi hj hl, hparse.edge _ _ _ hbegins, _, _, rfl, .inr ⟨_, rfl⟩⟩

theorem read_document {g : Graph} (hname : '\n' ∉ g.name.toList)
    (h : List.Forall₂ ReadsAs (statements g) items) : read (document g).toList = some items := by
  obtain ⟨ts, hbody, hparse, -⟩ := exists_tokens h
  have hopen : Lexes ("digraph \x7b\n".toList ++
      ((statements g).flatMap Statement.text ++ "\x7d\n".toList))
      (.keyword .digraph :: .mark '\x7b' :: ts) :=
    ((hbody.newline.token rfl).blank (.inl rfl)).token rfl
  have htext : (document g).toList = comment g.name ++ ("digraph \x7b\n".toList ++
      ((statements g).flatMap Statement.text ++ "\x7d\n".toList)) := by
    simp [document]
  have hlex : Lexes (document g).toList (.keyword .digraph :: .mark '\x7b' :: ts) := by
    rw [htext, comment]
    split
    · exact hopen
    · have hline : '\n' ∉ ' ' :: g.name.toList := by simpa using hname
      simpa using hopen.comment hline
  have htokens : lex (document g).toList = some (.keyword .digraph :: .mark '\x7b' :: ts) :=
    hlex.newline _ (by simp)
  rw [Language.read, htokens]
  exact hparse ts.length (Nat.le_refl _)

end FlowGraph.Dot
