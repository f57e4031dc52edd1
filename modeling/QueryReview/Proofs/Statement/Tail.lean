-- What the passes leave of a statement with semicolons and white space at its end. Such a tail
-- closes no literal and neither opens nor closes a comment, so what stands before it is read as
-- if it stood alone. Of the tail itself the passes leave all, or its end alone: a comment that is
-- open where the tail starts takes the front of it along.
import QueryReview.Proofs.Statement.Segments
import QueryReview.Proofs.Statement.Verdict

namespace QueryReview.Statement

open Piece Text

/-! ## Texts that tell nothing -/

/-- Nothing but semicolons and white space. -/
def Mute (cs : List Char) : Prop := ∀ c ∈ cs, ¬ Telling c

section Mute

variable {tail : List Char}

theorem Mute.not_mem (ht : Mute tail) {c : Char} (hc : Telling c) : c ∉ tail :=
  fun hmem => ht c hmem hc

theorem Mute.of_suffix (ht : Mute tail) {end_ : List Char} (hs : end_ <:+ tail) : Mute end_ :=
  fun c hc => ht c (hs.subset hc)

theorem mute_of_blank (h : ∀ c ∈ tail, isBlank c = true) : Mute tail := by
  rintro c hc ⟨hblank, _⟩
  rw [h c hc] at hblank
  cases hblank

/-- A mute text has no character that the marks of a comment are made of. -/
theorem Mute.ne_mark (ht : Mute tail) {c : Char} (hc : c ∈ tail) : c ≠ '-' ∧ c ≠ '/' ∧ c ≠ '*' := by
  refine ⟨?_, ?_, ?_⟩
  all_goals
    rintro rfl
    exact ht _ hc ⟨by decide, by decide⟩

/-! ## Plain code -/

/-- A text without quotes, dashes and slashes stays what it is, whatever follows it. -/
theorem Pass.plain_append {pass : List Char → List Char} {literal : Char → List Char → List Char}
    (hp : Pass pass literal) {cs : List Char}
    (hc : ∀ c ∈ cs, isQuote c = false ∧ c ≠ '-' ∧ c ≠ '/') (rest : List Char) :
    pass (cs ++ rest) = cs ++ pass rest := by
  induction cs with
  | nil => rfl
  | cons c cs ih =>
    obtain ⟨hquote, hdash, hslash⟩ := hc c List.mem_cons_self
    have hnone : commentAt? (c :: (cs ++ rest)) = none := by
      apply commentAt?_eq_none_of_code
      intro d _
      simp [opensComment, hdash, hslash]
    rw [List.cons_append, hp.code hquote hnone, ih fun d hd => hc d (List.mem_cons_of_mem _ hd)]
    rfl

theorem Mute.plain (ht : Mute tail) : ∀ c ∈ tail, isQuote c = false ∧ c ≠ '-' ∧ c ≠ '/' := by
  intro c hc
  refine ⟨?_, (ht.ne_mark hc).1, (ht.ne_mark hc).2.1⟩
  by_contra hq
  exact ht c hc (telling_of_isQuote (by simpa using hq))

theorem Mute.pass_eq {pass : List Char → List Char} {literal : Char → List Char → List Char}
    (hp : Pass pass literal) (ht : Mute tail) : pass tail = tail := by
  have h := hp.plain_append ht.plain []
  rwa [hp.nil, List.append_nil] at h

/-! ## The first piece in front of a tail -/

theorem literalBody?_of_not_mem {q : Char} {cs : List Char} (h : q ∉ cs) :
    literalBody? q cs = none := by
  cases hb : literalBody? q cs with
  | none => rfl
  | some p =>
    obtain ⟨body, rest⟩ := p
    rw [literalBody?_text hb] at h
    simp at h

/-- The tail closes no literal. -/
theorem literalBody?_append_mute {q : Char} (hq : isQuote q = true) (ht : Mute tail)
    (cs : List Char) :
    literalBody? q (cs ++ tail) = (literalBody? q cs).map fun p => (p.1, p.2 ++ tail) := by
  have hqb : '\\' ≠ q := ne_of_isQuote hq (by decide)
  have hmem : q ∉ tail := ht.not_mem (telling_of_isQuote hq)
  fun_induction literalBody? q cs with
  | case1 => exact literalBody?_of_not_mem hmem
  | case2 cs => exact literalBody?_quote q (cs ++ tail)
  | case3 => exact literalBody?_of_not_mem (by simpa [Ne.symm hqb] using hmem)
  | case4 ds hne => simp [literalBody?, hne]
  | case5 d ds hd hne ih =>
    rw [List.cons_append, List.cons_append, literalBody?_escape hqb hd, ih]
    simp [Function.comp_def]
  | case6 c cs hne hc ih =>
    rw [List.cons_append, literalBody?_cons hne hc, ih]
    simp [Function.comp_def]

theorem literalBody?_append_mute_some {q : Char} {cs body rest : List Char}
    (hq : isQuote q = true) (ht : Mute tail) (h : literalBody? q cs = some (body, rest)) :
    literalBody? q (cs ++ tail) = some (body, rest ++ tail) := by
  rw [literalBody?_append_mute hq ht, h]
  rfl

theorem literalAt?_append_mute_none {c : Char} {cs : List Char} (ht : Mute tail)
    (h : literalAt? (c :: cs) = none) : literalAt? (c :: (cs ++ tail)) = none := by
  apply literalAt?_eq_none
  intro hq
  have hnone : literalBody? c cs = none := by simpa [literalAt?, hq] using h
  rw [literalBody?_append_mute hq ht, hnone]
  rfl

/-- The tail opens no comment, not even together with the character in front of it. -/
theorem commentAt?_append_mute_none {c : Char} {cs : List Char} (ht : Mute tail)
    (h : commentAt? (c :: cs) = none) : commentAt? (c :: (cs ++ tail)) = none := by
  cases cs with
  | nil =>
    apply commentAt?_eq_none_of_code
    intro d hd
    obtain ⟨hdash, _, hstar⟩ := ht.ne_mark (List.mem_of_mem_head? hd)
    simp [opensComment, hdash, hstar]
  | cons d ds =>
    cases hc : commentAt? (c :: (d :: ds ++ tail)) with
    | none => rfl
    | some r =>
      obtain ⟨p, after⟩ := r
      obtain ⟨_, ⟨more, he, _⟩ | ⟨more, he, _⟩⟩ := commentAt?_cases hc
      · cases he
        cases h
      · cases he
        cases h

theorem blockBody_cons {c : Char} {cs : List Char} (h : ∀ more, c :: cs ≠ '*' :: '/' :: more) :
    (blockBody (c :: cs)).2 = (blockBody cs).2 := by
  rw [blockBody.eq_def]
  split
  · rename_i he
    cases he
  · rename_i he
    exact absurd he (h _)
  · rename_i he
    cases he
    rfl

theorem blockBody_mute (ht : Mute tail) : (blockBody tail).2 = [] := by
  induction tail with
  | nil => rfl
  | cons c cs ih =>
    rw [blockBody_cons]
    · exact ih fun d hd => ht d (List.mem_cons_of_mem _ hd)
    · rintro more he
      cases he
      exact (ht.ne_mark List.mem_cons_self).2.2 rfl

/-- The tail does not close a block comment. -/
theorem blockBody_append_mute (ht : Mute tail) (cs : List Char) :
    ∃ left, left <:+ tail ∧ (blockBody (cs ++ tail)).2 = (blockBody cs).2 ++ left := by
  fun_induction blockBody cs with
  | case1 => exact ⟨[], List.nil_suffix, by simpa [blockBody] using blockBody_mute ht⟩
  | case2 cs => exact ⟨tail, List.suffix_rfl, by simp [blockBody]⟩
  | case3 c cs hne body rest hb ih =>
    obtain ⟨left, hleft, heq⟩ := ih
    refine ⟨left, hleft, ?_⟩
    rw [List.cons_append, blockBody_cons, heq, hb]
    intro more he
    cases cs with
    | nil =>
      have hslash : '/' ∈ tail := by
        obtain ⟨_, rfl⟩ := List.cons.inj he
        exact List.mem_cons_self
      exact (ht.ne_mark hslash).2.1 rfl
    | cons d ds =>
      cases he
      exact hne _ rfl rfl

/-- A comment that is open where the tail starts takes the front of it along. -/
theorem commentAt?_append_mute {cs after : List Char} {p : Piece} (ht : Mute tail)
    (h : commentAt? cs = some (p, after)) :
    ∃ p' left, left <:+ tail ∧ commentAt? (cs ++ tail) = some (p', after ++ left) := by
  obtain ⟨_, ⟨more, rfl, rfl⟩ | ⟨more, rfl, rfl⟩⟩ := commentAt?_cases h
  · simp only [List.cons_append, commentAt?, List.dropWhile_append]
    split
    · rename_i hopen
      have hnil : more.dropWhile (· != '\n') = [] := by simpa using hopen
      rw [hnil]
      exact ⟨_, _, List.dropWhile_suffix _, rfl⟩
    · exact ⟨_, tail, List.suffix_rfl, rfl⟩
  · obtain ⟨left, hleft, heq⟩ := blockBody_append_mute ht more
    simp only [List.cons_append, commentAt?]
    rw [heq]
    exact ⟨_, left, hleft, rfl⟩

/-! ## The passes in front of a tail -/

theorem stripComments_append_mute (ht : Mute tail) (cs : List Char) :
    ∃ left, left <:+ tail ∧ stripComments (cs ++ tail) = stripComments cs ++ left := by
  fun_induction split cs generalizing tail with
  | case1 =>
    refine ⟨tail, List.suffix_rfl, ?_⟩
    rw [List.nil_append, ht.pass_eq pass_stripComments, pass_stripComments.nil, List.nil_append]
  | case2 c cs p after hl ih =>
    obtain ⟨q, body, more, he, hq, hb, _⟩ := literalAt?_cases hl
    obtain ⟨rfl, rfl⟩ := List.cons.inj he
    obtain ⟨left, hleft, heq⟩ := ih ht
    have hlong := literalBody?_append_mute_some hq ht hb
    refine ⟨left, hleft, ?_⟩
    rw [List.cons_append, pass_stripComments.literal hq hlong, heq,
      pass_stripComments.literal hq hb, List.append_assoc]
  | case3 c cs hl p after hc ih =>
    obtain ⟨p', front, hfront, hlong⟩ := commentAt?_append_mute ht hc
    obtain ⟨left, hleft, heq⟩ := ih (ht.of_suffix hfront)
    refine ⟨left, hleft.trans hfront, ?_⟩
    rw [pass_stripComments.comment hlong, heq, pass_stripComments.comment hc, List.cons_append]
  | case4 c cs hl hc ih =>
    obtain ⟨left, hleft, heq⟩ := ih ht
    refine ⟨left, hleft, ?_⟩
    rw [List.cons_append, stripComments_code (literalAt?_append_mute_none ht hl)
      (commentAt?_append_mute_none ht hc), heq, stripComments_code hl hc, List.cons_append]

theorem maskLiterals_nil : maskLiterals [] = [] := by
  simp [maskLiterals, splitLiterals]

theorem maskLiterals_code {c : Char} {cs : List Char} (hl : literalAt? (c :: cs) = none) :
    maskLiterals (c :: cs) = c :: maskLiterals cs := by
  unfold maskLiterals
  rw [splitLiterals_code hl]
  rfl

theorem maskLiterals_of_literalBody? {q : Char} {cs body rest : List Char} (hq : isQuote q = true)
    (h : literalBody? q cs = some (body, rest)) :
    maskLiterals (q :: cs) = q :: q :: maskLiterals rest := by
  unfold maskLiterals
  rw [splitLiterals_literal (literalAt?_cons hq h)]
  rfl

theorem Mute.maskLiterals_eq (ht : Mute tail) : maskLiterals tail = tail := by
  have h := maskLiterals_plain_append (fun c hc => (ht.plain c hc).1) []
  rwa [maskLiterals_nil, List.append_nil] at h

theorem maskLiterals_append_mute (ht : Mute tail) (cs : List Char) :
    maskLiterals (cs ++ tail) = maskLiterals cs ++ tail := by
  fun_induction splitLiterals cs with
  | case1 => rw [List.nil_append, maskLiterals_nil, List.nil_append, ht.maskLiterals_eq]
  | case2 c cs p after hl ih =>
    obtain ⟨q, body, more, he, hq, hb, _⟩ := literalAt?_cases hl
    obtain ⟨rfl, rfl⟩ := List.cons.inj he
    have hlong := literalBody?_append_mute_some hq ht hb
    rw [List.cons_append, maskLiterals_of_literalBody? hq hlong, ih,
      maskLiterals_of_literalBody? hq hb, List.cons_append, List.cons_append]
  | case3 c cs hl ih =>
    rw [List.cons_append, maskLiterals_code (literalAt?_append_mute_none ht hl), ih,
      maskLiterals_code hl, List.cons_append]

/-- Of a statement with a tail the passes leave what they leave of it alone, and an end of the
tail. -/
theorem bareCode_append_mute (ht : Mute tail) (cs : List Char) :
    ∃ left, left <:+ tail ∧ bareCode (cs ++ tail) = bareCode cs ++ left := by
  obtain ⟨left, hleft, heq⟩ := stripComments_append_mute ht cs
  refine ⟨left, hleft, ?_⟩
  unfold bareCode
  rw [heq, maskLiterals_append_mute (ht.of_suffix hleft)]

end Mute

end QueryReview.Statement
