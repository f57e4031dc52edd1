-- The pieces of a statement: code, quoted literals and comments. The split is from left to
-- right and loses nothing: the texts of the pieces in a row are the text.

namespace QueryReview.Statement

/-- The apostrophe and the double quote, which open a literal. -/
def isQuote (c : Char) : Bool := c == '\x27' || c == '\x22'

inductive Piece
  /-- One character outside literals and comments. -/
  | code (c : Char)
  /-- A closed literal: its quote, and what stands between the quotes. -/
  | literal (quote : Char) (body : List Char)
  /-- A comment, with the marks around it. -/
  | comment (text : List Char)
deriving DecidableEq, Repr

namespace Piece

def text : Piece → List Char
  | code c => [c]
  | literal q body => q :: body ++ [q]
  | comment text => text

/-- The body of the literal that `q` has opened, and the text after the closing quote. A backslash
takes the next character into the body, which must not be a line feed. There is no literal when
no quote closes it. -/
def literalBody? (q : Char) : List Char → Option (List Char × List Char)
  | [] => none
  | c :: cs =>
    if c = q then some ([], cs)
    else if c = '\\' then
      match cs with
      | [] => none
      | d :: ds =>
        if d = '\n' then none
        else (literalBody? q ds).map fun (body, rest) => (c :: d :: body, rest)
    else (literalBody? q cs).map fun (body, rest) => (c :: body, rest)

/-- The rest of the comment that `/*` has opened, up to the first `*/` or the end of the text,
and the text after it. -/
def blockBody : List Char → List Char × List Char
  | [] => ([], [])
  | '*' :: '/' :: cs => (['*', '/'], cs)
  | c :: cs =>
    let (body, rest) := blockBody cs
    (c :: body, rest)

/-- The literal at the start of the text, and the text after it. -/
def literalAt? : List Char → Option (Piece × List Char)
  | [] => none
  | c :: cs =>
    if isQuote c then (literalBody? c cs).map fun (body, rest) => (literal c body, rest)
    else none

/-- The comment at the start of the text, and the text after it. A line comment leaves its line
feed, and a block comment that is never closed runs to the end. -/
def commentAt? : List Char → Option (Piece × List Char)
  | '-' :: '-' :: cs =>
    some (comment ('-' :: '-' :: cs.takeWhile (· != '\n')), cs.dropWhile (· != '\n'))
  | '/' :: '*' :: cs =>
    let (body, rest) := blockBody cs
    some (comment ('/' :: '*' :: body), rest)
  | _ => none

/-! ## Every piece takes at least one character -/

theorem literalBody?_text {q : Char} {cs body rest : List Char}
    (h : literalBody? q cs = some (body, rest)) : cs = body ++ q :: rest := by
  fun_induction literalBody? q cs generalizing body rest with
  | case1 => cases h
  | case2 => simp_all
  | case3 => cases h
  | case4 => cases h
  | case5 d ds _ _ ih =>
    obtain ⟨⟨b, r⟩, hb, he⟩ := Option.map_eq_some_iff.1 h
    obtain ⟨rfl, rfl⟩ := Prod.mk.inj he
    simp [ih hb]
  | case6 c cs _ _ ih =>
    obtain ⟨⟨b, r⟩, hb, he⟩ := Option.map_eq_some_iff.1 h
    obtain ⟨rfl, rfl⟩ := Prod.mk.inj he
    simp [ih hb]

theorem blockBody_text (cs : List Char) : (blockBody cs).1 ++ (blockBody cs).2 = cs := by
  fun_induction blockBody cs with
  | case1 => rfl
  | case2 => rfl
  | case3 _ _ _ _ _ hb ih => simpa [hb] using ih

theorem literalAt?_text {cs rest : List Char} {p : Piece} (h : literalAt? cs = some (p, rest)) :
    cs = p.text ++ rest := by
  cases cs with
  | nil => cases h
  | cons c cs =>
    by_cases hq : isQuote c
    · simp only [literalAt?, hq, if_true] at h
      obtain ⟨⟨b, r⟩, hb, he⟩ := Option.map_eq_some_iff.1 h
      obtain ⟨rfl, rfl⟩ := Prod.mk.inj he
      simp [text, literalBody?_text hb]
    · simp [literalAt?, hq] at h

theorem commentAt?_text {cs rest : List Char} {p : Piece} (h : commentAt? cs = some (p, rest)) :
    cs = p.text ++ rest := by
  unfold commentAt? at h
  split at h
  · obtain ⟨rfl, rfl⟩ := Prod.mk.inj (Option.some.inj h)
    simp [text, List.takeWhile_append_dropWhile]
  · obtain ⟨rfl, rfl⟩ := Prod.mk.inj (Option.some.inj h)
    simp [text, blockBody_text]
  · cases h

theorem literalAt?_text_ne_nil {cs rest : List Char} {p : Piece}
    (h : literalAt? cs = some (p, rest)) : p.text ≠ [] := by
  cases cs with
  | nil => cases h
  | cons c cs =>
    by_cases hq : isQuote c
    · simp only [literalAt?, hq, if_true] at h
      obtain ⟨⟨b, r⟩, _, he⟩ := Option.map_eq_some_iff.1 h
      obtain ⟨rfl, rfl⟩ := Prod.mk.inj he
      simp [text]
    · simp [literalAt?, hq] at h

theorem commentAt?_text_ne_nil {cs rest : List Char} {p : Piece}
    (h : commentAt? cs = some (p, rest)) : p.text ≠ [] := by
  unfold commentAt? at h
  split at h
  · obtain ⟨rfl, rfl⟩ := Prod.mk.inj (Option.some.inj h)
    simp [text]
  · obtain ⟨rfl, rfl⟩ := Prod.mk.inj (Option.some.inj h)
    simp [text]
  · cases h

theorem length_lt_of_literalAt? {cs rest : List Char} {p : Piece}
    (h : literalAt? cs = some (p, rest)) : rest.length < cs.length := by
  have := List.length_pos_iff.2 (literalAt?_text_ne_nil h)
  rw [literalAt?_text h, List.length_append]
  omega

theorem length_lt_of_commentAt? {cs rest : List Char} {p : Piece}
    (h : commentAt? cs = some (p, rest)) : rest.length < cs.length := by
  have := List.length_pos_iff.2 (commentAt?_text_ne_nil h)
  rw [commentAt?_text h, List.length_append]
  omega

/-! ## The split -/

/-- The pieces of a text. An opening quote that has no partner is a character of code. -/
def split (cs : List Char) : List Piece :=
  match cs with
  | [] => []
  | c :: rest =>
    match _hl : literalAt? (c :: rest) with
    | some (p, after) => p :: split after
    | none =>
      match _hc : commentAt? (c :: rest) with
      | some (p, after) => p :: split after
      | none => code c :: split rest
termination_by cs.length
decreasing_by
  · exact length_lt_of_literalAt? ‹_›
  · exact length_lt_of_commentAt? ‹_›
  · simp

/-- The pieces of a text whose comments count as code. -/
def splitLiterals (cs : List Char) : List Piece :=
  match cs with
  | [] => []
  | c :: rest =>
    match _hl : literalAt? (c :: rest) with
    | some (p, after) => p :: splitLiterals after
    | none => code c :: splitLiterals rest
termination_by cs.length
decreasing_by
  · exact length_lt_of_literalAt? ‹_›
  · simp

/-- Nothing is lost: the texts of the pieces in a row are the text. -/
theorem flatMap_text_split (cs : List Char) : (split cs).flatMap text = cs := by
  fun_induction split cs with
  | case1 => rfl
  | case2 c rest p after hl ih => simp [ih, literalAt?_text hl]
  | case3 c rest hl p after hc ih => simp [ih, commentAt?_text hc]
  | case4 c rest hl hc ih => simp [ih, text]

theorem flatMap_text_splitLiterals (cs : List Char) : (splitLiterals cs).flatMap text = cs := by
  fun_induction splitLiterals cs with
  | case1 => rfl
  | case2 c rest p after hl ih => simp [ih, literalAt?_text hl]
  | case3 c rest hl ih => simp [ih, text]

/-! ## What becomes of a piece -/

/-- A comment leaves one space, so that the words on its two sides stay apart. -/
def withoutComment : Piece → List Char
  | comment _ => [' ']
  | p => p.text

/-- A literal leaves its two quotes. -/
def emptied : Piece → List Char
  | literal q _ => [q, q]
  | p => p.text

end Piece

/-- The statement with each comment as one space. Literals stay as they are. -/
def stripComments (cs : List Char) : List Char := (Piece.split cs).flatMap Piece.withoutComment

/-- The statement with each literal empty, so that no word inside one can be taken for code. -/
def maskLiterals (cs : List Char) : List Char := (Piece.splitLiterals cs).flatMap Piece.emptied

/-- The code of a statement alone: no comment, and nothing inside the literals. -/
def bareCode (cs : List Char) : List Char := maskLiterals (stripComments cs)

end QueryReview.Statement
