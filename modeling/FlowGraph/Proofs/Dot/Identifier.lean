import FlowGraph.Proofs.Dot.Token
import FlowGraph.Proofs.Text.Digits
import FlowGraph.Proofs.Text.Lowercase

/-! When the identifier for a text stays one token. Most texts do; those that do not end in a
backslash too many, are markup with brackets that do not pair, or are keywords with a line feed. -/

namespace FlowGraph.Dot

open FlowGraph.Dot.Language

variable {s rest : List Char}

/-! Keywords. -/

theorem lowerAfter_ascii (hs : ∀ c ∈ s, c.toNat < 128) (before : List Char) :
    Text.lowerAfter before s = s.map Char.toLower := by
  induction s generalizing before with
  | nil => rfl
  | cons c s ih =>
    rw [List.forall_mem_cons] at hs
    have hsigma : c ≠ '\u03a3' := by
      rintro rfl
      exact absurd hs.1 (by decide)
    have hdotted : c ≠ '\u0130' := by
      rintro rfl
      exact absurd hs.1 (by decide)
    rw [Text.lowerAfter, Text.lowerBetween, if_neg hsigma, if_neg hdotted,
      Text.lowerChar_ascii hs.1, ih hs.2]
    rfl

/-- For ASCII the language's keywords are those that are never written bare. -/
theorem keyword?_eq_none_iff (hs : ∀ c ∈ s, c.toNat < 128) :
    keyword? s = none ↔ isKeyword s = false := by
  have hlower : Text.lowercase (String.ofList s) = String.ofList (s.map Char.toLower) := by
    rw [Text.lowercase, String.toList_ofList, lowerAfter_ascii hs]
  have hnames : keywords = Keyword.all.map Keyword.name := rfl
  rw [keyword?, List.find?_eq_none, isKeyword, hlower, hnames, ← Bool.not_eq_true,
    List.contains_iff_mem, List.mem_map]
  constructor
  · rintro h ⟨k, hk, hname⟩
    exact h k hk (by rw [hname, String.toList_ofList, beq_self_eq_true])
  · intro h k hk hname
    exact h ⟨k, hk, by rw [← eq_of_beq hname, String.ofList_toList]⟩

theorem ascii_of_isPlainName (hs : isPlainName s = true) : ∀ c ∈ s, c.toNat < 128 := by
  have hletter {c : Char} (h : isLetter c = true) : c.toNat < 128 := by
    rcases isLetter_iff.mp h with (⟨-, h⟩ | ⟨-, h⟩) | rfl
    · exact Nat.lt_of_le_of_lt (m := 122) h (by decide)
    · exact Nat.lt_of_le_of_lt (m := 90) h (by decide)
    · decide
  have hdigit {c : Char} (h : Text.isDigit c = true) : c.toNat < 128 :=
    Nat.lt_of_le_of_lt (m := 57) (Text.isDigit_iff.mp h).2 (by decide)
  cases s with
  | nil => cases hs
  | cons c s =>
    simp only [isPlainName, Bool.and_eq_true, List.all_eq_true, Bool.or_eq_true] at hs
    rw [List.forall_mem_cons]
    exact ⟨hletter hs.1, fun d hd => (hs.2 d hd).elim hletter hdigit⟩

/-! The line feed that does not count. -/

def lastNewline (s : List Char) : List Char :=
  if s.getLast? = some '\n' then ['\n'] else []

theorem dropLastNewline_append (s : List Char) : dropLastNewline s ++ lastNewline s = s := by
  unfold dropLastNewline lastNewline
  split
  · next h =>
    obtain ⟨t, rfl⟩ := List.getLast?_eq_some_iff.mp h
    rw [List.dropLast_concat]
  · exact List.append_nil s

theorem dropLastNewline_of_not_mem (h : '\n' ∉ s) : dropLastNewline s = s :=
  if_neg fun hlast => h (List.mem_of_getLast? hlast)

theorem Ends.lastNewline_append (hr : Ends rest) (s : List Char) :
    Ends (lastNewline s ++ rest) := by
  unfold lastNewline
  split
  · exact ⟨'\n', rest, rfl, by decide⟩
  · exact hr

theorem dropLastNewline_cons (c d : Char) (s : List Char) :
    dropLastNewline (c :: d :: s) = c :: dropLastNewline (d :: s) := by
  unfold dropLastNewline
  rw [List.getLast?_cons_cons]
  split <;> rfl

theorem exists_body_of_isMarkup (h : isMarkup s = true) :
    ∃ body, dropLastNewline s = '<' :: body ++ ['>'] := by
  unfold isMarkup at h
  split at h
  · next inner =>
    obtain ⟨body, hbody⟩ := List.getLast?_eq_some_iff.mp (of_decide_eq_true h)
    cases inner with
    | nil => simp [dropLastNewline] at hbody
    | cons d inner => exact ⟨body, by rw [dropLastNewline_cons, hbody, List.cons_append]⟩
  · cases h

/-! Texts that stay in their token. -/

def Contained (s : List Char) : Prop :=
  if isMarkup s = true then ∃ body, dropLastNewline s = '<' :: body ++ ['>'] ∧ Balanced 0 body
  else if isBare s = true ∧ isKeyword s = false then
    ¬ (isPlainName (dropLastNewline s) = true ∧ isKeyword (dropLastNewline s) = true)
  else (s.reverse.takeWhile (· = '\\')).length % 2 = 0

theorem token?_bare (hs : isBare s = true) (hr : Ends rest)
    (hk : ¬ (isPlainName (dropLastNewline s) = true ∧ isKeyword (dropLastNewline s) = true)) :
    token? (s ++ rest) = some (.id (.text (dropLastNewline s)), lastNewline s ++ rest) := by
  have htoken : token? (dropLastNewline s ++ (lastNewline s ++ rest)) =
      some (.id (.text (dropLastNewline s)), lastNewline s ++ rest) := by
    have hshape : isPlainName (dropLastNewline s) = true ∨
        isNumeral (dropLastNewline s) = true := by
      simpa [isBare] using hs
    rcases hshape with hname | hnumeral
    · have hplain : isKeyword (dropLastNewline s) = false := by
        simpa [hname] using hk
      have hnone := (keyword?_eq_none_iff (ascii_of_isPlainName hname)).mpr hplain
      rw [token?_word hname (hr.lastNewline_append s), word, hnone]
    · exact token?_numeral hnumeral (hr.lastNewline_append s)
  rwa [← List.append_assoc, dropLastNewline_append] at htoken

theorem eq_markup {body : List Char} (hs : dropLastNewline s = '<' :: body ++ ['>']) :
    s = '<' :: (body ++ '>' :: lastNewline s) := by
  have hsplit := dropLastNewline_append s
  rw [hs, List.append_assoc] at hsplit
  exact hsplit.symm

theorem token?_markup (rest : List Char) : token? ('<' :: rest) =
    (markupBody 0 rest).map fun (s, after) => (.id (.markup s), after) :=
  rfl

theorem token?_string (rest : List Char) : token? ('"' :: rest) =
    (quotedBody rest).map fun (s, after) => (.id (.text s), after) :=
  rfl

theorem identifier_quoted (hm : ¬ isMarkup s = true)
    (hb : ¬ (isBare s = true ∧ isKeyword s = false)) :
    identifier s = '"' :: (escapeQuotes false s ++ ['"']) := by
  have hquoted : ¬ (isMarkup s || isBare s && !isKeyword s) = true := by
    simpa using ⟨by simpa using hm, by simpa using hb⟩
  rw [identifier, if_neg hquoted, List.cons_append]

theorem token?_identifier (h : Contained s) : ∃ i tail, (tail = [] ∨ tail = ['\n']) ∧
    ∀ rest, Ends rest → token? (identifier s ++ rest) = some (.id i, tail ++ rest) := by
  have htail : lastNewline s = [] ∨ lastNewline s = ['\n'] := by
    unfold lastNewline
    split <;> simp
  unfold Contained at h
  split at h
  · next hm =>
    obtain ⟨body, hs, hb⟩ := h
    have hidentifier : identifier s = s := by simp [identifier, hm]
    refine ⟨.markup body, lastNewline s, htail, fun rest _ => ?_⟩
    rw [hidentifier, eq_markup hs, List.cons_append, List.append_assoc, token?_markup,
      List.cons_append, markupBody_append hb, ← eq_markup hs]
    rfl
  split at h
  · next hm hbare =>
    have hidentifier : identifier s = s := by simp [identifier, hbare]
    exact ⟨_, _, htail, fun rest hr => by rw [hidentifier, token?_bare hbare.1 hr h]⟩
  · next hm hbare =>
    obtain ⟨value, hvalue⟩ := closes_escapeQuotes false s
    rw [(endsEven_iff s).mpr h] at hvalue
    refine ⟨.text value, [], .inl rfl, fun rest _ => ?_⟩
    rw [identifier_quoted hm hbare, List.cons_append, List.append_assoc, token?_string]
    have hbody : quotedBody (escapeQuotes false s ++ '"' :: rest) = some (value, rest) :=
      hvalue rest
    rw [List.singleton_append, hbody]
    rfl

/-- Without backslashes, line feeds and the brackets of markup a text is read as it is. -/
theorem token?_identifier_of_plain (hslash : '\\' ∉ s) (hline : '\n' ∉ s)
    (hm : ¬ (s.head? = some '<' ∧ s.getLast? = some '>')) (hr : Ends rest) :
    token? (identifier s ++ rest) = some (.id (.text s), rest) := by
  have hcore : dropLastNewline s = s := dropLastNewline_of_not_mem hline
  have hmarkup : ¬ isMarkup s = true := by
    intro h
    obtain ⟨body, hbody⟩ := exists_body_of_isMarkup h
    rw [hcore] at hbody
    exact hm ⟨by rw [hbody]; rfl, by rw [hbody, List.getLast?_concat]⟩
  by_cases hbare : isBare s = true ∧ isKeyword s = false
  · have hidentifier : identifier s = s := by simp [identifier, hbare]
    have htail : lastNewline s = [] := if_neg fun h => hline (List.mem_of_getLast? h)
    have hk : ¬ (isPlainName (dropLastNewline s) = true ∧
        isKeyword (dropLastNewline s) = true) := by
      rw [hcore, hbare.2]
      simp
    rw [hidentifier, token?_bare hbare.1 hr hk, hcore, htail, List.nil_append]
  · rw [identifier_quoted hmarkup hbare, List.cons_append, List.append_assoc, token?_string,
      List.singleton_append, quotedBody_of_not_mem hslash]
    rfl

theorem eq_of_append_close {a b t u : List Char} (ht : '>' ∉ t) (hu : '>' ∉ u)
    (h : a ++ '>' :: t = b ++ '>' :: u) : a = b := by
  have hback : t.reverse ++ '>' :: a.reverse = u.reverse ++ '>' :: b.reverse := by
    simpa using congrArg List.reverse h
  have hdrop (x y : List Char) (hx : '>' ∉ x) :
      (x.reverse ++ '>' :: y).dropWhile (· != '>') = '>' :: y := by
    refine Program.dropWhile_append_of_stop (fun c hc => ?_) (by simp)
    rw [bne_iff_ne]
    rintro rfl
    exact hx (List.mem_reverse.mp hc)
  have hrest : '>' :: a.reverse = '>' :: b.reverse := by
    rw [← hdrop t a.reverse ht, hback, hdrop u b.reverse hu]
  exact List.reverse_inj.mp (List.cons.inj hrest).2

/-- The identifier for a text is read as one name, up to its end or a last line feed, just if the
text is contained. -/
theorem contained_iff_token : Contained s ↔ ∃ i tail, (tail = [] ∨ tail = ['\n']) ∧
    token? (identifier s ++ [' ']) = some (.id i, tail ++ [' ']) := by
  constructor
  · intro h
    obtain ⟨i, tail, htail, hread⟩ := token?_identifier h
    exact ⟨i, tail, htail, hread _ ⟨' ', [], rfl, by decide⟩⟩
  · rintro ⟨i, tail, htail, hread⟩
    unfold Contained
    split
    · next hm =>
      obtain ⟨body, hs⟩ := exists_body_of_isMarkup hm
      have hidentifier : identifier s = s := by simp [identifier, hm]
      have hlast : '>' ∉ lastNewline s ++ [' '] ∧ '>' ∉ tail ++ [' '] := by
        unfold lastNewline
        rcases htail with rfl | rfl <;> split <;> decide
      rw [hidentifier, eq_markup hs, List.cons_append, List.append_assoc, token?_markup] at hread
      obtain ⟨inner, hbody, -⟩ := exists_of_map_fst (fun s => Token.id (.markup s)) hread
      obtain ⟨htext, hb⟩ := markupBody_eq_some_iff.mp hbody
      exact ⟨body, hs, eq_of_append_close hlast.1 hlast.2 htext ▸ hb⟩
    split
    · next hm hbare =>
      rintro ⟨hname, hkeyword⟩
      have hidentifier : identifier s = s := by simp [identifier, hbare]
      have hends : Ends (lastNewline s ++ [' ']) :=
        Ends.lastNewline_append ⟨' ', [], rfl, by decide⟩ s
      have hword := token?_word hname hends
      rw [hidentifier] at hread
      rw [← List.append_assoc, dropLastNewline_append, hread] at hword
      have hnone : keyword? (dropLastNewline s) = none := by
        cases hk : keyword? (dropLastNewline s) with
        | none => rfl
        | some k => simp [word, hk] at hword
      rw [keyword?_eq_none_iff (ascii_of_isPlainName hname), hkeyword] at hnone
      cases hnone
    · next hm hbare =>
      rw [← endsEven_iff]
      obtain ⟨value, hvalue⟩ := closes_escapeQuotes false s
      cases heven : endsEven false s with
      | true => rfl
      | false =>
        rw [heven] at hvalue
        have hbody : quotedBody (escapeQuotes false s ++ '"' :: [' ']) = none := hvalue [' ']
        rw [identifier_quoted hm hbare, List.cons_append, List.append_assoc, token?_string,
          List.singleton_append, hbody] at hread
        cases hread

end FlowGraph.Dot
