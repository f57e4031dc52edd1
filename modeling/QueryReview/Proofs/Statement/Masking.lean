-- What emptying the literals leaves of a statement. The text that is left falls into the pieces of
-- the statement with nothing between the quotes of its literals. A quote that opens no literal gets
-- no partner by it: on the search for one an emptied literal counts like the full one, as no line
-- feed stands behind a backslash in it. So emptying the literals once more changes nothing, and no
-- later pass finds a literal with anything in it.
import QueryReview.Proofs.Statement.Stripping
import QueryReview.Proofs.Statement.Tail

namespace QueryReview.Statement

open Piece

/-! ## A quote behind which literals are emptied -/

/-- In the body of a literal a search for a quote finds it, or is as open at the end as before. -/
theorem through_body {q q' : Char} (hq : isQuote q = true) {cs body rest : List Char}
    (h : literalBody? q' cs = some (body, rest)) :
    Search.open_.through q body = .closed ∨ Search.open_.through q body = .open_ := by
  have hqb : '\\' ≠ q := ne_of_isQuote hq (by decide)
  fun_induction literalBody? q' cs generalizing body rest with
  | case1 => cases h
  | case2 =>
    cases h
    exact .inr rfl
  | case3 => cases h
  | case4 => cases h
  | case5 d ds hd _ ih =>
    obtain ⟨⟨b, r⟩, hb, he⟩ := Option.map_eq_some_iff.mp h
    obtain ⟨rfl, rfl⟩ := Prod.mk.inj he
    have hstep : Search.open_.through q ('\\' :: d :: b) = Search.open_.through q b := by
      simp [Search.through, Search.step, hqb, hd]
    rw [hstep]
    exact ih hb
  | case6 c cs _ hc ih =>
    obtain ⟨⟨b, r⟩, hb, he⟩ := Option.map_eq_some_iff.mp h
    obtain ⟨rfl, rfl⟩ := Prod.mk.inj he
    have hrest : Search.open_.through q (c :: b) = (Search.open_.step q c).through q b := rfl
    rw [hrest]
    by_cases hcq : c = q
    · left
      rw [show Search.open_.step q c = .closed by simp [Search.step, hcq], through_closed]
    · rw [show Search.open_.step q c = .open_ by simp [Search.step, hcq, hc]]
      exact ih hb

/-- A search that does not find its quote in a literal comes out of it as out of the empty one. -/
theorem through_literal {q q' : Char} (hq : isQuote q = true) (hq' : isQuote q' = true)
    {cs body rest : List Char} (h : literalBody? q' cs = some (body, rest)) (s : Search) :
    s.through q (q' :: (body ++ [q'])) = .closed ∨
      s.through q (q' :: (body ++ [q'])) = s.through q [q', q'] := by
  have hfull : s.through q (q' :: (body ++ [q']))
      = ((s.step q q').through q body).through q [q'] := by
    rw [← through_append]
    rfl
  have hempty : s.through q [q', q'] = (s.step q q').through q [q'] := rfl
  have hslash : q' ≠ '\\' := (ne_of_isQuote hq' (by decide)).symm
  rw [hfull, hempty]
  cases hs : s.step q q' with
  | open_ =>
    rcases through_body hq h with hclosed | hopen
    · rw [hclosed, through_closed]
      exact .inl rfl
    · rw [hopen]
      exact .inr rfl
  | escaping =>
    -- The opening quote is no backslash.
    cases s <;> grind [Search.step]
  | closed =>
    rw [through_closed, through_closed]
    exact .inl rfl
  | broken =>
    rw [through_broken]
    exact .inr rfl

/-- Behind a quote no partner appears when the literals are emptied. -/
theorem through_maskLiterals {q : Char} (hq : isQuote q = true) {cs : List Char} {s : Search}
    (h : s.through q cs ≠ .closed) : s.through q (maskLiterals cs) ≠ .closed := by
  fun_induction splitLiterals cs generalizing s with
  | case1 => rwa [maskLiterals_nil]
  | case2 c cs p after hl ih =>
    obtain ⟨q', body, tail, hcs, hq', hb, rfl⟩ := literalAt?_cases hl
    have htext : c :: cs = (q' :: (body ++ [q'])) ++ after := literalAt?_text hl
    have hmasked : maskLiterals (c :: cs) = [q', q'] ++ maskLiterals after := by
      rw [hcs, maskLiterals_of_literalBody? hq' hb]
      rfl
    rw [htext, through_append] at h
    rw [hmasked, through_append]
    rcases through_literal hq hq' hb s with hclosed | hsame
    · rw [hclosed, through_closed] at h
      exact absurd rfl h
    · rw [hsame] at h
      exact ih h
  | case3 c cs hl ih =>
    rw [maskLiterals_code hl]
    exact ih h

theorem literalBody?_maskLiterals {q : Char} (hq : isQuote q = true) {cs : List Char}
    (h : literalBody? q cs = none) : literalBody? q (maskLiterals cs) = none := by
  rw [literalBody?_eq_none_iff hq] at h ⊢
  exact through_maskLiterals hq h

/-! ## Texts without full literals -/

/-- The piece with nothing in it if it is a literal. -/
def Piece.hollowed : Piece → Piece
  | literal q _ => literal q []
  | p => p

theorem hollowed_hollowed (p : Piece) : p.hollowed.hollowed = p.hollowed := by
  cases p with
  | code c => rfl
  | literal q body => rfl
  | comment words => rfl

theorem text_hollowed (p : Piece) : p.hollowed.text = p.emptied := by
  cases p with
  | code c => rfl
  | literal q body => rfl
  | comment words => rfl

/-- Code and empty literals in a row, where no quote of the code has a partner in what follows. -/
def Settled : List Piece → Prop
  | [] => True
  | .code c :: ps => (isQuote c = true → literalBody? c (ps.flatMap text) = none) ∧ Settled ps
  | .literal q body :: ps => isQuote q = true ∧ body = [] ∧ Settled ps
  | .comment _ :: _ => False

theorem maskLiterals_eq (cs : List Char) :
    maskLiterals cs = ((splitLiterals cs).map hollowed).flatMap text := by
  rw [List.flatMap_map]
  simp only [text_hollowed]
  rfl

/-- Emptying the literals settles a text. -/
theorem settled_hollowed (cs : List Char) : Settled ((splitLiterals cs).map hollowed) := by
  fun_induction splitLiterals cs with
  | case1 => trivial
  | case2 c cs p after hl ih =>
    obtain ⟨q, body, tail, _, hq, _, rfl⟩ := literalAt?_cases hl
    exact ⟨hq, rfl, ih⟩
  | case3 c cs hl ih =>
    refine ⟨fun hq => ?_, ih⟩
    rw [← maskLiterals_eq]
    apply literalBody?_maskLiterals hq
    simpa [literalAt?, hq] using hl

/-- An empty literal is found where it stands. -/
theorem literalAt?_empty {q : Char} (hq : isQuote q = true) (rest : List Char) :
    literalAt? ((literal q []).text ++ rest) = some (literal q [], rest) :=
  literalAt?_cons hq (literalBody?_quote q rest)

/-- A settled text falls into its pieces. -/
theorem splitLiterals_of_settled {ps : List Piece} (h : Settled ps) :
    splitLiterals (ps.flatMap text) = ps := by
  induction ps with
  | nil => simp [splitLiterals]
  | cons p ps ih =>
    cases p with
    | code c =>
      have hl : literalAt? (c :: ps.flatMap text) = none := literalAt?_eq_none h.1
      exact (splitLiterals_code hl).trans (by rw [ih h.2])
    | literal q body =>
      obtain ⟨hq, rfl, hps⟩ := h
      rw [List.flatMap_cons, splitLiterals_literal (literalAt?_empty hq _), ih hps]
    | comment words => exact h.elim

/-! ## Comments in a settled text -/

theorem Settled.of_suffix {ps qs : List Piece} (h : Settled ps) (hs : qs <:+ ps) : Settled qs := by
  induction ps with
  | nil => rwa [List.suffix_nil.mp hs]
  | cons p ps ih =>
    rcases List.suffix_cons_iff.mp hs with rfl | hqs
    · exact h
    · cases p with
      | code c => exact ih h.2 hqs
      | literal q body => exact ih h.2.2 hqs
      | comment words => exact h.elim

/-- A line ends between two pieces of a settled text. -/
theorem Settled.exists_dropWhile {ps : List Piece} (h : Settled ps) :
    ∃ qs, qs <:+ ps ∧ (ps.flatMap text).dropWhile (· != '\n') = qs.flatMap text := by
  induction ps with
  | nil => exact ⟨[], List.suffix_rfl, rfl⟩
  | cons p ps ih =>
    cases p with
    | code c =>
      obtain ⟨qs, hqs, hdrop⟩ := ih h.2
      by_cases hc : c = '\n'
      · exact ⟨_, List.suffix_rfl, by simp [text, hc]⟩
      · refine ⟨qs, hqs.trans (List.suffix_cons _ _), ?_⟩
        simpa [text, List.dropWhile_cons, hc] using hdrop
    | literal q body =>
      obtain ⟨hq, rfl, hps⟩ := h
      obtain ⟨qs, hqs, hdrop⟩ := ih hps
      have hfeed : q ≠ '\n' := (ne_of_isQuote hq (by decide)).symm
      refine ⟨qs, hqs.trans (List.suffix_cons _ _), ?_⟩
      simpa [text, List.dropWhile_cons, hfeed] using hdrop
    | comment words => exact h.elim

/-- The first character of a settled text that is no quote is a piece of its own. -/
theorem Settled.code_of_head {ps : List Piece} (h : Settled ps) {c : Char} {more : List Char}
    (hc : isQuote c = false) (he : ps.flatMap text = c :: more) :
    ∃ qs, ps = code c :: qs ∧ more = qs.flatMap text := by
  cases ps with
  | nil => cases he
  | cons p ps =>
    cases p with
    | code d =>
      obtain ⟨rfl, rfl⟩ := List.cons.inj he
      exact ⟨ps, rfl, rfl⟩
    | literal q body =>
      obtain ⟨rfl, _⟩ := List.cons.inj he
      rw [h.1] at hc
      cases hc
    | comment words => exact h.elim

/-- A block comment ends between two pieces of a settled text. -/
theorem Settled.exists_blockBody {ps : List Piece} (h : Settled ps) :
    ∃ qs, qs <:+ ps ∧ (blockBody (ps.flatMap text)).2 = qs.flatMap text := by
  induction ps with
  | nil => exact ⟨[], List.suffix_rfl, rfl⟩
  | cons p ps ih =>
    cases p with
    | code c =>
      by_cases hend : ∃ more, c :: ps.flatMap text = '*' :: '/' :: more
      · obtain ⟨more, he⟩ := hend
        obtain ⟨rfl, hslash⟩ := List.cons.inj he
        obtain ⟨qs, rfl, rfl⟩ := h.2.code_of_head (by decide) hslash
        exact ⟨qs, (List.suffix_cons _ _).trans (List.suffix_cons _ _), rfl⟩
      · obtain ⟨qs, hqs, hbody⟩ := ih h.2
        refine ⟨qs, hqs.trans (List.suffix_cons _ _), ?_⟩
        exact (blockBody_cons fun more he => hend ⟨more, he⟩).trans hbody
    | literal q body =>
      obtain ⟨hq, rfl, hps⟩ := h
      obtain ⟨qs, hqs, hbody⟩ := ih hps
      have hstar : q ≠ '*' := (ne_of_isQuote hq (by decide)).symm
      refine ⟨qs, hqs.trans (List.suffix_cons _ _), ?_⟩
      have hskip : ∀ cs, (blockBody (q :: cs)).2 = (blockBody cs).2 := fun cs =>
        blockBody_cons fun more he => hstar (List.cons.inj he).1
      exact ((hskip _).trans (hskip _)).trans hbody
    | comment words => exact h.elim

/-- Behind a comment a settled text is settled. -/
theorem Settled.of_commentAt? {ps : List Piece} (h : Settled ps) {p : Piece} {after : List Char}
    (hc : commentAt? (ps.flatMap text) = some (p, after)) :
    ∃ qs, qs <:+ ps ∧ after = qs.flatMap text := by
  obtain ⟨_, ⟨tail, he, rfl⟩ | ⟨tail, he, rfl⟩⟩ := commentAt?_cases hc
  · obtain ⟨ps, rfl, hdash⟩ := h.code_of_head (by decide) he
    obtain ⟨ps, rfl, rfl⟩ := h.2.code_of_head (by decide) hdash.symm
    obtain ⟨qs, hqs, hdrop⟩ := h.2.2.exists_dropWhile
    exact ⟨qs, hqs.trans ((List.suffix_cons _ _).trans (List.suffix_cons _ _)), hdrop⟩
  · obtain ⟨ps, rfl, hstar⟩ := h.code_of_head (by decide) he
    obtain ⟨ps, rfl, rfl⟩ := h.2.code_of_head (by decide) hstar.symm
    obtain ⟨qs, hqs, hbody⟩ := h.2.2.exists_blockBody
    exact ⟨qs, hqs.trans ((List.suffix_cons _ _).trans (List.suffix_cons _ _)), hbody⟩

/-- With the comments told apart too, no literal of a settled text has anything in it. -/
theorem Settled.body_eq_nil {ps : List Piece} (h : Settled ps) :
    ∀ q body, literal q body ∈ split (ps.flatMap text) → body = [] := by
  -- A comment may take many pieces along, so the induction is on the length of the text.
  induction hn : (ps.flatMap text).length using Nat.strong_induction_on generalizing ps with
  | _ n ih =>
    subst hn
    intro q body hmem
    cases ps with
    | nil => simp [split] at hmem
    | cons p ps =>
      cases p with
      | code c =>
        have hl : literalAt? (c :: ps.flatMap text) = none := literalAt?_eq_none h.1
        cases hc : commentAt? (c :: ps.flatMap text) with
        | none =>
          have hsplit : split ((code c :: ps).flatMap text) = code c :: split (ps.flatMap text) :=
            split_code hl hc
          rw [hsplit, List.mem_cons] at hmem
          rcases hmem with hmem | hmem
          · cases hmem
          · exact ih _ (Nat.lt_succ_self _) h.2 rfl q body hmem
        | some r =>
          obtain ⟨p, after⟩ := r
          obtain ⟨⟨words, rfl⟩, _⟩ := commentAt?_cases hc
          obtain ⟨qs, hqs, rfl⟩ := h.of_commentAt? hc
          have hsplit : split ((code c :: ps).flatMap text)
              = comment words :: split (qs.flatMap text) := split_comment hc
          rw [hsplit, List.mem_cons] at hmem
          rcases hmem with hmem | hmem
          · cases hmem
          · exact ih _ (length_lt_of_commentAt? hc) (h.of_suffix hqs) rfl q body hmem
      | literal q' body' =>
        obtain ⟨hq, rfl, hps⟩ := h
        have hl := literalAt?_empty hq (ps.flatMap text)
        rw [List.flatMap_cons, split_literal hl, List.mem_cons] at hmem
        rcases hmem with hmem | hmem
        · cases hmem
          rfl
        · exact ih _ (length_lt_of_literalAt? hl) hps rfl q body hmem
      | comment words => exact h.elim

/-- Emptying the literals of a statement once more changes nothing. What is left falls into the same
pieces, with nothing between the quotes of a literal. It has no literal with anything in it either
when its comments are told apart from its code. -/
theorem masking_again_changes_nothing (cs : List Char) :
    maskLiterals (maskLiterals cs) = maskLiterals cs ∧
    splitLiterals (maskLiterals cs) = (splitLiterals cs).map hollowed ∧
    (∀ q body, literal q body ∈ splitLiterals (maskLiterals cs) → body = []) ∧
    ∀ q body, literal q body ∈ split (maskLiterals cs) → body = [] := by
  have hsettled := settled_hollowed cs
  have hsplit : splitLiterals (maskLiterals cs) = (splitLiterals cs).map hollowed := by
    rw [maskLiterals_eq, splitLiterals_of_settled hsettled]
  refine ⟨?_, hsplit, ?_, ?_⟩
  · rw [maskLiterals_eq (maskLiterals cs), hsplit, List.map_map, maskLiterals_eq]
    exact congrArg _ (List.map_congr_left fun p _ => hollowed_hollowed p)
  · rw [hsplit]
    intro q body hmem
    obtain ⟨p, _, hp⟩ := List.mem_map.mp hmem
    cases p <;> cases hp
    rfl
  · rw [maskLiterals_eq]
    exact hsettled.body_eq_nil

end QueryReview.Statement
