-- Spaces between two semicolons. The passes carry them along: of a statement with the spaces and of
-- the same without them they leave the same, or two texts that differ in these spaces alone. Words,
-- calls and file names end at a semicolon, so the first two tests cannot tell the two apart. The
-- third can, and where it does the semicolons end the statement: it takes the semicolons off the
-- end, but not the white space between them, and takes the one in front for the end of a statement
-- of its own.
import QueryReview.Proofs.Statement.Rules
import QueryReview.Proofs.Statement.Stripping
import QueryReview.Proofs.Statement.Tail

namespace QueryReview.Statement

open Piece Text

/-! ## Spread texts -/

/-- The text `cs` is `ds`, or it is `ds` with the gap between two semicolons. -/
def Spread (gap cs ds : List Char) : Prop :=
  cs = ds ∨ ∃ front back, cs = front ++ ';' :: (gap ++ ';' :: back) ∧
    ds = front ++ ';' :: ';' :: back

section

variable {gap : List Char}

theorem Spread.refl (cs : List Char) : Spread gap cs cs := .inl rfl

theorem spread_pair (gap back : List Char) :
    Spread gap (';' :: (gap ++ ';' :: back)) (';' :: ';' :: back) := .inr ⟨[], back, rfl, rfl⟩

theorem Spread.append_left {cs ds : List Char} (h : Spread gap cs ds) (more : List Char) :
    Spread gap (more ++ cs) (more ++ ds) := by
  obtain rfl | ⟨front, back, rfl, rfl⟩ := h
  · exact .refl _
  · exact .inr ⟨more ++ front, back, by simp, by simp⟩

theorem Spread.append_right {cs ds : List Char} (h : Spread gap cs ds) (more : List Char) :
    Spread gap (cs ++ more) (ds ++ more) := by
  obtain rfl | ⟨front, back, rfl, rfl⟩ := h
  · exact .refl _
  · exact .inr ⟨front, back ++ more, by simp, by simp⟩

theorem Spread.cons {cs ds : List Char} (h : Spread gap cs ds) (c : Char) :
    Spread gap (c :: cs) (c :: ds) := h.append_left [c]

theorem Spread.eq_nil {cs : List Char} (h : Spread gap cs []) : cs = [] := by
  obtain rfl | ⟨front, back, _, hnil⟩ := h
  · rfl
  · simp at hnil

/-- The two start with the same character, and it is the first of the two semicolons or not. -/
theorem Spread.cons_cases {cs ds : List Char} {c : Char} (h : Spread gap cs (c :: ds)) :
    (∃ more, cs = c :: more ∧ Spread gap more ds) ∨
      ∃ back, c = ';' ∧ cs = ';' :: (gap ++ ';' :: back) ∧ ds = ';' :: back := by
  obtain rfl | ⟨front, back, rfl, hds⟩ := h
  · exact .inl ⟨ds, rfl, .refl ds⟩
  · cases front with
    | nil =>
      obtain ⟨rfl, rfl⟩ := List.cons.inj hds
      exact .inr ⟨back, rfl, rfl, rfl⟩
    | cons d front =>
      obtain ⟨rfl, rfl⟩ := List.cons.inj hds
      exact .inl ⟨front ++ ';' :: (gap ++ ';' :: back), rfl, .inr ⟨front, back, rfl, rfl⟩⟩

theorem Spread.head?_eq {cs ds : List Char} (h : Spread gap cs ds) : cs.head? = ds.head? := by
  cases ds with
  | nil => rw [h.eq_nil]
  | cons c ds =>
    obtain ⟨more, rfl, _⟩ | ⟨back, rfl, rfl, _⟩ := h.cons_cases
    · rfl
    · rfl

/-- Behind a first character that is no semicolon the texts are spread too. -/
theorem Spread.tail {cs ds : List Char} {c : Char} (h : Spread gap cs (c :: ds)) (hc : c ≠ ';') :
    ∃ more, cs = c :: more ∧ Spread gap more ds := by
  obtain hmore | ⟨_, rfl, _⟩ := h.cons_cases
  · exact hmore
  · exact absurd rfl hc

/-! ## The pieces of spread texts -/

/-- Of two spread texts the same is taken off and spread texts are left, or spread texts are taken
off and the same is left. -/
def TakenAlike (gap : List Char) (p p' : List Char × List Char) : Prop :=
  p.1 = p'.1 ∧ Spread gap p.2 p'.2 ∨ Spread gap p.1 p'.1 ∧ p.2 = p'.2

theorem TakenAlike.cons {p p' : List Char × List Char} (h : TakenAlike gap p p') (c : Char) :
    TakenAlike gap (c :: p.1, p.2) (c :: p'.1, p'.2) := by
  obtain ⟨hsame, hspread⟩ | ⟨hspread, hsame⟩ := h
  · exact .inl ⟨congrArg (c :: ·) hsame, hspread⟩
  · exact .inr ⟨hspread.cons c, hsame⟩

theorem rel_map {α β : Type} {r : α → α → Prop} {f : α → β} {t : β → β → Prop} {a b : Option α}
    (h : Option.Rel r a b) (hf : ∀ x y, r x y → t (f x) (f y)) :
    Option.Rel t (a.map f) (b.map f) := by
  cases h with
  | some h => exact .some (hf _ _ h)
  | none => exact .none

/-- Characters that mean nothing in a literal are taken into its body. -/
theorem literalBody?_plain_append {q : Char} {front : List Char}
    (hf : ∀ c ∈ front, c ≠ q ∧ c ≠ '\\') (rest : List Char) :
    literalBody? q (front ++ rest) = (literalBody? q rest).map fun p => (front ++ p.1, p.2) := by
  induction front with
  | nil => simp
  | cons c front ih =>
    rw [List.forall_mem_cons] at hf
    rw [List.cons_append, literalBody?_cons hf.1.1 hf.1.2, ih hf.2]
    simp [Function.comp_def]

/-- A quote finds its partner in both texts or in none. -/
theorem literalBody?_spread (hg : ∀ c ∈ gap, c = ' ') {q : Char} (hq : isQuote q = true)
    {cs ds : List Char} (h : Spread gap cs ds) :
    Option.Rel (TakenAlike gap) (literalBody? q cs) (literalBody? q ds) := by
  have hslash : '\\' ≠ q := ne_of_isQuote hq (by decide)
  have hsemicolon : ';' ≠ q := ne_of_isQuote hq (by decide)
  have hspace : ' ' ≠ q := ne_of_isQuote hq (by decide)
  -- Behind the first of the two semicolons: the gap and the second one stand in the body.
  have hgap : ∀ back, Option.Rel (fun p p' => TakenAlike gap (';' :: p.1, p.2) (';' :: p'.1, p'.2))
      (literalBody? q (gap ++ ';' :: back)) (literalBody? q (';' :: back)) := by
    intro back
    have hplain : ∀ c ∈ gap ++ [';'], c ≠ q ∧ c ≠ '\\' := by
      intro c hc
      rcases List.mem_append.mp hc with hc | hc
      · obtain rfl := hg c hc
        exact ⟨hspace, by decide⟩
      · obtain rfl := List.mem_singleton.mp hc
        exact ⟨hsemicolon, by decide⟩
    have hlong := literalBody?_plain_append hplain back
    rw [List.append_assoc, List.singleton_append] at hlong
    rw [hlong, literalBody?_cons hsemicolon (by decide)]
    cases literalBody? q back with
    | none => exact .none
    | some p => exact .some (.inr ⟨by simpa using spread_pair gap p.1, rfl⟩)
  fun_induction literalBody? q ds generalizing cs with
  | case1 =>
    rw [h.eq_nil]
    exact .none
  | case2 ds =>
    obtain ⟨more, rfl, hmore⟩ := h.tail hsemicolon.symm
    rw [literalBody?_quote]
    exact .some (.inl ⟨rfl, hmore⟩)
  | case3 hne =>
    obtain ⟨more, rfl, hmore⟩ := h.tail (by decide)
    rw [hmore.eq_nil]
    simp only [literalBody?, if_neg hslash, if_true]
    exact .none
  | case4 ds hne =>
    obtain ⟨more, rfl, hmore⟩ := h.tail (by decide)
    obtain ⟨more, rfl, _⟩ := hmore.tail (by decide)
    simp only [literalBody?, if_neg hslash, if_true]
    exact .none
  | case5 d ds hd hne ih =>
    obtain ⟨more, rfl, hmore⟩ := h.tail (by decide)
    obtain ⟨more, rfl, hrest⟩ | ⟨back, rfl, rfl, rfl⟩ := hmore.cons_cases
    · rw [literalBody?_escape hslash hd]
      exact rel_map (ih hrest) fun _ _ hp => (hp.cons d).cons '\\'
    · rw [literalBody?_escape hslash hd]
      exact rel_map (hgap back) fun _ _ hp => hp.cons '\\'
  | case6 c ds hne hc ih =>
    obtain ⟨more, rfl, hrest⟩ | ⟨back, rfl, rfl, rfl⟩ := h.cons_cases
    · rw [literalBody?_cons hne hc]
      exact rel_map (ih hrest) fun _ _ hp => hp.cons c
    · rw [literalBody?_cons hne hc]
      exact rel_map (hgap back) fun _ _ hp => hp

theorem blockBody_plain_append {front : List Char} (hf : '*' ∉ front) (rest : List Char) :
    (blockBody (front ++ rest)).2 = (blockBody rest).2 := by
  induction front with
  | nil => rfl
  | cons c front ih =>
    rw [List.mem_cons, not_or] at hf
    rw [List.cons_append, blockBody_cons, ih hf.2]
    rintro more he
    exact hf.1 (List.cons.inj he).1.symm

/-- A block comment ends in both texts at the same place, or it takes the gap along. -/
theorem blockBody_spread (hg : ∀ c ∈ gap, c = ' ') {cs ds : List Char} (h : Spread gap cs ds) :
    Spread gap (blockBody cs).2 (blockBody ds).2 := by
  fun_induction blockBody ds generalizing cs with
  | case1 =>
    rw [h.eq_nil]
    exact .refl _
  | case2 ds =>
    obtain ⟨more, rfl, hmore⟩ := h.tail (by decide)
    obtain ⟨more, rfl, hrest⟩ := hmore.tail (by decide)
    simpa [blockBody] using hrest
  | case3 c ds hne body rest hb ih =>
    rw [hb] at ih
    obtain ⟨more, rfl, hmore⟩ | ⟨back, rfl, rfl, rfl⟩ := h.cons_cases
    · rw [blockBody_cons]
      · exact ih hmore
      · intro end_ he
        obtain ⟨rfl, rfl⟩ := List.cons.inj he
        obtain ⟨ds, rfl⟩ := List.head?_eq_some_iff.mp hmore.head?_eq.symm
        exact hne ds rfl rfl
    · have hstar : '*' ∉ ';' :: gap := by
        intro hmem
        rcases List.mem_cons.mp hmem with he | hmem
        · exact absurd he (by decide)
        · exact absurd (hg _ hmem) (by decide)
      rw [← List.cons_append, blockBody_plain_append hstar, hb]
      exact .refl _

/-- A line comment ends at the same line feed. -/
theorem dropWhile_feed_spread (hg : ∀ c ∈ gap, c = ' ') {cs ds : List Char}
    (h : Spread gap cs ds) :
    Spread gap (cs.dropWhile (· != '\n')) (ds.dropWhile (· != '\n')) := by
  obtain rfl | ⟨front, back, rfl, rfl⟩ := h
  · exact .refl _
  · have hplain : ∀ c ∈ ';' :: (gap ++ [';']), (c != '\n') = true := by
      simp only [List.mem_cons, List.mem_append, List.not_mem_nil, or_false]
      rintro c (rfl | hc | rfl)
      · decide
      · rw [hg c hc]
        decide
      · decide
    have hlong : (';' :: (gap ++ [';']) ++ back).dropWhile (· != '\n')
        = back.dropWhile (· != '\n') := List.dropWhile_append_of_pos hplain
    rw [List.cons_append, List.append_assoc, List.singleton_append] at hlong
    rw [List.dropWhile_append, List.dropWhile_append, hlong]
    split
    · exact .refl _
    · exact .inr ⟨_, back, rfl, rfl⟩

theorem commentAt?_none_of_head?_eq {c : Char} {cs ds : List Char} (hhead : cs.head? = ds.head?)
    (h : commentAt? (c :: ds) = none) : commentAt? (c :: cs) = none := by
  apply commentAt?_eq_none_of_code
  rw [hhead]
  exact opensComment_of_commentAt? h

/-- A comment opens both texts. -/
theorem commentAt?_spread (hg : ∀ c ∈ gap, c = ' ') {cs ds after : List Char} {p : Piece}
    (h : Spread gap cs ds) (hd : commentAt? ds = some (p, after)) :
    ∃ p' after', commentAt? cs = some (p', after') ∧ Spread gap after' after := by
  obtain ⟨_, ⟨tail, rfl, rfl⟩ | ⟨tail, rfl, rfl⟩⟩ := commentAt?_cases hd
  · obtain ⟨more, rfl, hmore⟩ := h.tail (by decide)
    obtain ⟨more, rfl, hrest⟩ := hmore.tail (by decide)
    exact ⟨_, _, rfl, dropWhile_feed_spread hg hrest⟩
  · obtain ⟨more, rfl, hmore⟩ := h.tail (by decide)
    obtain ⟨more, rfl, hrest⟩ := hmore.tail (by decide)
    exact ⟨_, _, rfl, blockBody_spread hg hrest⟩

/-! ## The passes -/

/-- The literal that a quote opens is found in both texts. -/
theorem literalBody?_of_spread (hg : ∀ c ∈ gap, c = ' ') {q : Char} (hq : isQuote q = true)
    {cs ds body rest : List Char} (h : Spread gap cs ds)
    (hd : literalBody? q ds = some (body, rest)) :
    ∃ body' rest', literalBody? q cs = some (body', rest') ∧
      TakenAlike gap (body', rest') (body, rest) := by
  have hrel := literalBody?_spread hg hq h
  rw [hd] at hrel
  cases hcs : literalBody? q cs with
  | none =>
    rw [hcs] at hrel
    cases hrel
  | some p =>
    rw [hcs] at hrel
    cases hrel with
    | some hp => exact ⟨p.1, p.2, rfl, hp⟩

theorem literalAt?_none_of_spread (hg : ∀ c ∈ gap, c = ' ') {c : Char} {cs ds : List Char}
    (h : Spread gap cs ds) (hd : literalAt? (c :: ds) = none) : literalAt? (c :: cs) = none := by
  apply literalAt?_eq_none
  intro hq
  have hrel := literalBody?_spread hg hq h
  have hnone : literalBody? c ds = none := by simpa [literalAt?, hq] using hd
  rw [hnone] at hrel
  cases hcs : literalBody? c cs with
  | none => rfl
  | some p =>
    rw [hcs] at hrel
    cases hrel

/-- The two semicolons and the gap are plain code. -/
theorem plain_loose (hg : ∀ c ∈ gap, c = ' ') :
    ∀ c ∈ ';' :: (gap ++ [';']), isQuote c = false ∧ c ≠ '-' ∧ c ≠ '/' := by
  simp only [List.mem_cons, List.mem_append, List.not_mem_nil, or_false]
  rintro c (rfl | hc | rfl)
  · decide
  · rw [hg c hc]
    decide
  · decide

/-- Where a pass leaves plain code as it is, it leaves the two semicolons and the gap. -/
theorem pass_spread_pair {pass : List Char → List Char} (hg : ∀ c ∈ gap, c = ' ')
    (hpass : ∀ {front : List Char}, (∀ c ∈ front, isQuote c = false ∧ c ≠ '-' ∧ c ≠ '/') →
      ∀ back, pass (front ++ back) = front ++ pass back) (back : List Char) :
    Spread gap (pass (';' :: (gap ++ ';' :: back))) (pass (';' :: ';' :: back)) := by
  have hplain : ∀ c ∈ [';', ';'], isQuote c = false ∧ c ≠ '-' ∧ c ≠ '/' := by simp [isQuote]
  have hloose := hpass (plain_loose hg) back
  have htight := hpass hplain back
  simp only [List.cons_append, List.append_assoc, List.nil_append] at hloose htight
  rw [hloose, htight]
  exact spread_pair gap _

/-- Of spread texts stripping leaves spread texts. -/
theorem stripComments_spread (hg : ∀ c ∈ gap, c = ' ') {cs ds : List Char}
    (h : Spread gap cs ds) : Spread gap (stripComments cs) (stripComments ds) := by
  fun_induction split ds generalizing cs with
  | case1 =>
    rw [h.eq_nil]
    exact .refl _
  | case2 c ds p after hl ih =>
    obtain ⟨q, body, tail, hds, hq, hb, _⟩ := literalAt?_cases hl
    have hsemicolon : q ≠ ';' := (ne_of_isQuote hq (by decide)).symm
    rw [hds] at h ⊢
    obtain ⟨more, rfl, hmore⟩ := h.tail hsemicolon
    obtain ⟨body', after', hb', hbody⟩ := literalBody?_of_spread hg hq hmore hb
    rw [pass_stripComments.literal hq hb, pass_stripComments.literal hq hb']
    obtain ⟨rfl, hafter⟩ | ⟨hbody, rfl⟩ := hbody
    · exact (ih hafter).append_left _
    · exact ((hbody.append_right [q]).cons q).append_right _
  | case3 c ds hl p after hc ih =>
    obtain ⟨p', after', hc', hafter⟩ := commentAt?_spread hg h hc
    rw [pass_stripComments.comment hc, pass_stripComments.comment hc']
    exact (ih hafter).cons ' '
  | case4 c ds hl hc ih =>
    obtain ⟨more, rfl, hmore⟩ | ⟨back, rfl, rfl, rfl⟩ := h.cons_cases
    · rw [stripComments_code (literalAt?_none_of_spread hg hmore hl)
        (commentAt?_none_of_head?_eq hmore.head?_eq hc), stripComments_code hl hc]
      exact (ih hmore).cons c
    · exact pass_spread_pair hg pass_stripComments.plain_append back

/-- Of spread texts emptying the literals leaves spread texts. -/
theorem maskLiterals_spread (hg : ∀ c ∈ gap, c = ' ') {cs ds : List Char}
    (h : Spread gap cs ds) : Spread gap (maskLiterals cs) (maskLiterals ds) := by
  fun_induction splitLiterals ds generalizing cs with
  | case1 =>
    rw [h.eq_nil]
    exact .refl _
  | case2 c ds p after hl ih =>
    obtain ⟨q, body, tail, hds, hq, hb, _⟩ := literalAt?_cases hl
    have hsemicolon : q ≠ ';' := (ne_of_isQuote hq (by decide)).symm
    rw [hds] at h ⊢
    obtain ⟨more, rfl, hmore⟩ := h.tail hsemicolon
    obtain ⟨body', after', hb', hbody⟩ := literalBody?_of_spread hg hq hmore hb
    rw [maskLiterals_of_literalBody? hq hb, maskLiterals_of_literalBody? hq hb']
    obtain ⟨rfl, hafter⟩ | ⟨_, rfl⟩ := hbody
    · exact ((ih hafter).cons q).cons q
    · exact .refl _
  | case3 c ds hl ih =>
    obtain ⟨more, rfl, hmore⟩ | ⟨back, rfl, rfl, rfl⟩ := h.cons_cases
    · rw [maskLiterals_code (literalAt?_none_of_spread hg hmore hl), maskLiterals_code hl]
      exact (ih hmore).cons c
    · have hplain : ∀ {front : List Char},
          (∀ c ∈ front, isQuote c = false ∧ c ≠ '-' ∧ c ≠ '/') →
          ∀ back, maskLiterals (front ++ back) = front ++ maskLiterals back :=
        fun hf => maskLiterals_plain_append fun c hc => (hf c hc).1
      exact pass_spread_pair hg hplain back

end

/-! ## The tests end at a semicolon -/

/-- Whatever stands behind a semicolon, the test answers the same. -/
def StopsAtSemicolon (test : List Char → Bool) : Prop :=
  ∀ front back back', test (front ++ ';' :: back) = test (front ++ ';' :: back')

section

variable {test : List Char → Bool}

theorem stops_wordEnds : StopsAtSemicolon wordEnds := by
  intro front back back'
  cases front with
  | nil => rfl
  | cons c front => rfl

theorem stops_afterTrim (ht : StopsAtSemicolon test) :
    StopsAtSemicolon fun cs => test (trimStart cs) := by
  intro front back back'
  have htrim : ∀ back, trimStart (front ++ ';' :: back) = trimStart front ++ ';' :: back := by
    intro back
    unfold trimStart
    rw [List.dropWhile_append]
    split
    · rename_i hnil
      rw [List.isEmpty_iff.mp hnil]
      rfl
    · rfl
  dsimp only
  rw [htrim, htrim]
  exact ht _ back back'

theorem stops_afterBlank (ht : StopsAtSemicolon test) :
    StopsAtSemicolon fun cs => cs.head?.any isBlank && test cs.tail := by
  intro front back back'
  cases front with
  | nil => rfl
  | cons c front => exact congrArg (isBlank c && ·) (ht front back back')

/-- No semicolon reads as a letter of the word. -/
def lacksSemicolon (word : List Char) : Bool := word.all fun w => !foldsTo w ';'

/-- A word in which no semicolon stands is found in front of the semicolon or not at all. -/
theorem stops_afterWord {word : List Char} (hw : lacksSemicolon word = true)
    (ht : StopsAtSemicolon test) :
    StopsAtSemicolon fun cs => (afterWord? word cs).any test := by
  intro front back back'
  induction word generalizing front with
  | nil => exact ht front back back'
  | cons w word ih =>
    rw [lacksSemicolon, List.all_cons, Bool.and_eq_true, Bool.not_eq_true'] at hw
    cases front with
    | nil => simp [afterWord?, hw.1]
    | cons c front =>
      by_cases hc : foldsTo w c = true
      · simpa [afterWord?, hc] using ih hw.2 front
      · simp [afterWord?, hc]

theorem stops_or {test' : List Char → Bool} (ht : StopsAtSemicolon test)
    (ht' : StopsAtSemicolon test') : StopsAtSemicolon fun cs => test cs || test' cs := by
  intro front back back'
  dsimp only
  rw [ht front back back', ht' front back back']

theorem stops_any {α : Type} {tests : α → List Char → Bool} {as : List α}
    (ht : ∀ a ∈ as, StopsAtSemicolon (tests a)) :
    StopsAtSemicolon fun cs => as.any fun a => tests a cs := by
  intro front back back'
  dsimp only
  rw [Bool.eq_iff_iff, List.any_eq_true, List.any_eq_true]
  refine exists_congr fun a => and_congr_right fun ha => ?_
  rw [ht a ha front back back']

end

theorem stops_startsWithWord {word : List Char} (hw : lacksSemicolon word = true) :
    StopsAtSemicolon (startsWithWord word) := by
  have hany : startsWithWord word = fun cs => (afterWord? word cs).any wordEnds := by
    funext cs
    unfold startsWithWord
    cases afterWord? word cs <;> rfl
  rw [hany]
  exact stops_afterWord hw stops_wordEnds

theorem stops_startsDestructive : StopsAtSemicolon startsDestructive := by
  have hwords : ∀ word ∈ destructiveWords, lacksSemicolon word = true := by decide
  exact stops_any fun word hmem => stops_afterTrim (stops_startsWithWord (hwords word hmem))

theorem stops_opensCall {name : List Char} (hn : lacksSemicolon name = true) :
    StopsAtSemicolon (opensCall name) := by
  have hopens : StopsAtSemicolon fun rest => rest.head? == some '(' := by
    intro front back back'
    cases front with
    | nil => rfl
    | cons c front => rfl
  have hany : opensCall name
      = fun cs => (afterWord? name cs).any fun rest => (trimStart rest).head? == some '(' := by
    funext cs
    unfold opensCall
    cases afterWord? name cs <;> rfl
  rw [hany]
  exact stops_afterWord hn (stops_afterTrim hopens)

theorem stops_namesServerFile : StopsAtSemicolon namesServerFile := by
  have hwords : ∀ word ∈ ["OUTFILE", "DUMPFILE"], lacksSemicolon word.toList = true := by decide
  have hfile : StopsAtSemicolon fun rest =>
      ["OUTFILE", "DUMPFILE"].any fun word => startsWithWord word.toList (trimStart rest) :=
    stops_any fun word hmem => stops_afterTrim (stops_startsWithWord (hwords word hmem))
  have hany : namesServerFile = fun cs => (afterWord? "INTO".toList cs).any fun rest =>
      rest.head?.any isBlank && ["OUTFILE", "DUMPFILE"].any fun word =>
        startsWithWord word.toList (trimStart rest.tail) := by
    funext cs
    unfold namesServerFile
    rcases afterWord? "INTO".toList cs with _ | (_ | ⟨c, rest⟩) <;> rfl
  rw [hany]
  exact stops_afterWord (by decide) (stops_afterBlank hfile)

theorem stops_startsDisallowed : StopsAtSemicolon startsDisallowed :=
  stops_or (stops_or (stops_opensCall (by decide)) (stops_opensCall (by decide)))
    stops_namesServerFile

/-! ## The tests on spread texts -/

section

variable {gap : List Char} {cs ds : List Char}

theorem startsDestructive_spread (h : Spread gap cs ds) :
    startsDestructive cs = startsDestructive ds := by
  obtain rfl | ⟨front, back, rfl, rfl⟩ := h
  · rfl
  · exact stops_startsDestructive front _ _

/-- No construct starts with a semicolon or a space. -/
theorem startsDisallowed_of_pair {c : Char} (hc : c = ';' ∨ c = ' ') (more : List Char) :
    startsDisallowed (c :: more) = false := by
  rcases hc with rfl | rfl
  · rfl
  · rfl

/-- Between the two semicolons and right behind them the search for a construct finds none. -/
theorem anyWordStart_spread {test : List Char → Bool} (ht : StopsAtSemicolon test)
    (hpair : ∀ c, c = ';' ∨ c = ' ' → ∀ more, test (c :: more) = false)
    (hg : ∀ c ∈ gap, c = ' ') (h : Spread gap cs ds) (before : Option Char) :
    anyWordStart test before cs = anyWordStart test before ds := by
  obtain rfl | ⟨front, back, rfl, rfl⟩ := h
  · rfl
  · induction front generalizing before with
    | nil =>
      have hloose : ∀ c ∈ ';' :: (gap ++ [';']), ∀ more, test (c :: more) = false := by
        simp only [List.mem_cons, List.mem_append, List.not_mem_nil, or_false]
        rintro c (hc | hc | hc)
        · exact hpair c (.inl hc)
        · exact hpair c (.inr (hg c hc))
        · exact hpair c (.inl hc)
      have htight : ∀ c ∈ [';', ';'], ∀ more, test (c :: more) = false := by
        intro c hc
        exact hpair c (.inl (by simpa using hc))
      have hl := anyWordStart_skip hloose before back
      have hr := anyWordStart_skip htight before back
      simp only [List.cons_append, List.append_assoc, List.nil_append] at hl hr
      have hlast : (';' :: (gap ++ [';'])).getLast? = some ';' := by
        rw [← List.cons_append]
        exact List.getLast?_concat
      rw [List.nil_append, List.nil_append, hl, hr, hlast]
      rfl
    | cons c front ih =>
      have hhere := ht (c :: front) (gap ++ ';' :: back) (';' :: back)
      rw [List.cons_append, List.cons_append] at hhere ⊢
      rw [anyWordStart, anyWordStart, hhere, ih]

theorem hasDisallowed_spread (hg : ∀ c ∈ gap, c = ' ') (h : Spread gap cs ds) :
    hasDisallowed cs = hasDisallowed ds :=
  anyWordStart_spread stops_startsDisallowed (fun _ hc => startsDisallowed_of_pair hc) hg h none

end

/-! ## The verdict on spread texts -/

/-- Both texts end with the two semicolons, `loose` with the gap between them: nothing stands behind
them but semicolons and then white space. -/
def EndWithPair (gap loose tight : List Char) : Prop :=
  ∃ front semicolons end_,
    loose = front ++ ';' :: (gap ++ ';' :: (semicolons ++ end_)) ∧
    tight = front ++ ';' :: ';' :: (semicolons ++ end_) ∧
    (∀ c ∈ semicolons, c = ';') ∧ ∀ c ∈ end_, isBlank c = true

/-- Spaces between two semicolons of code make the first of them the end of a statement. -/
theorem hasSecondStatement_loose {n : Nat} {cs front back : List Char}
    (h : maskLiterals cs = front ++ ';' :: (List.replicate (n + 1) ' ' ++ ';' :: back)) :
    hasSecondStatement cs = true := by
  rw [hasSecondStatement_iff_exists]
  refine ⟨front ++ [';'], ' ', List.replicate n ' ' ++ ';' :: back, ?_, by simp, by decide, ';',
    by simp, by decide⟩
  rw [h, List.replicate_succ]
  simp

/-- Where no second statement is, nothing stands behind a semicolon but semicolons and then white
space. -/
theorem exists_end_of_not_hasSecondStatement {cs front back : List Char}
    (hcs : maskLiterals cs = front ++ back) (hf : ';' ∈ front) (h : hasSecondStatement cs = false) :
    ∃ semicolons end_, back = semicolons ++ end_ ∧ (∀ c ∈ semicolons, c = ';') ∧
      ∀ c ∈ end_, isBlank c = true := by
  obtain ⟨hback, hsemicolons, hnext⟩ := takeWhile_dropWhile_iff.mp
    ⟨Eq.refl (back.takeWhile (· == ';')), Eq.refl (back.dropWhile (· == ';'))⟩
  refine ⟨_, _, hback, fun c hc => by simpa using hsemicolons c hc, fun d hd => ?_⟩
  rw [← Bool.not_eq_false]
  intro hblank
  obtain ⟨c, more, hend⟩ := List.exists_cons_of_ne_nil (List.ne_nil_of_mem hd)
  have hc : c ≠ ';' := by simpa using hnext c (by rw [hend]; rfl)
  rw [← Bool.not_eq_true, hasSecondStatement_iff_exists] at h
  refine h ⟨front ++ back.takeWhile (· == ';'), c, more, ?_, List.mem_append_left _ hf, hc, d,
    hend ▸ hd, hblank⟩
  rw [hcs, List.append_assoc, ← hend, ← hback]

section

variable {n : Nat} {cs ds : List Char}
  (h : Spread (List.replicate (n + 1) ' ') (maskLiterals cs) (maskLiterals ds))
include h

theorem hasSecondStatement_spread (hd : hasSecondStatement ds = true) :
    hasSecondStatement cs = true := by
  obtain hsame | ⟨front, back, hcs, _⟩ := h
  · unfold hasSecondStatement at hd ⊢
    rwa [hsame]
  · exact hasSecondStatement_loose hcs

/-- The spaces make a second statement of none exactly at the end. -/
theorem hasSecondStatement_iff_endWithPair (hd : hasSecondStatement ds = false) :
    hasSecondStatement cs = true ↔
      EndWithPair (List.replicate (n + 1) ' ') (maskLiterals cs) (maskLiterals ds) := by
  constructor
  · intro hc
    obtain hsame | ⟨front, back, hcs, hds⟩ := h
    · unfold hasSecondStatement at hc hd
      rw [hsame, hd] at hc
      cases hc
    · have hsplit : maskLiterals ds = (front ++ [';', ';']) ++ back := by rw [hds]; simp
      obtain ⟨semicolons, end_, rfl, hsemicolons, hend⟩ :=
        exists_end_of_not_hasSecondStatement hsplit (by simp) hd
      exact ⟨front, semicolons, end_, hcs, hds, hsemicolons, hend⟩
  · rintro ⟨front, semicolons, end_, hcs, _⟩
    exact hasSecondStatement_loose hcs

end

/-- Two texts that only the third test can tell apart get the same verdict, unless the one is safe
and the other has a second statement. -/
theorem judge_strict_of_alike {cs ds : List Char}
    (hdestructive : startsDestructive cs = startsDestructive ds)
    (hdisallowed : hasDisallowed cs = hasDisallowed ds)
    (hsecond : hasSecondStatement ds = true → hasSecondStatement cs = true) :
    judge .strict cs = if judge .strict ds = .safe ∧ hasSecondStatement cs = true
      then .blocked .multipleStatements else judge .strict ds := by
  unfold judge
  rw [hdestructive, hdisallowed]
  by_cases h₁ : startsDestructive ds = true
  · simp [h₁]
  · by_cases h₂ : hasDisallowed ds = true
    · simp [h₁, h₂]
    · by_cases h₃ : hasSecondStatement ds = true
      · simp [h₁, h₂, h₃, hsecond h₃, Policy.strict]
      · by_cases h₄ : hasSecondStatement cs = true
        · simp [h₁, h₂, h₃, h₄, Policy.strict]
        · simp [h₁, h₂, h₃, h₄, Policy.strict]

theorem not_hasSecondStatement_of_safe {cs : List Char} (h : judge .strict cs = .safe) :
    hasSecondStatement cs = false := by
  rw [← Bool.not_eq_true]
  intro hsecond
  have hblocked := judge_strict_of_hasSecondStatement hsecond
  rw [h] at hblocked
  cases hblocked

/-- Put spaces between two semicolons. The strict policy comes to another verdict exactly when the
statement was safe and the two semicolons end its code, and it then refuses the statement for a
second one. -/
theorem spaces_between_semicolons_matter_only_at_the_end (a b : String) (n : Nat) :
    let gap := List.replicate (n + 1) ' '
    let loose := a ++ ";" ++ String.ofList gap ++ ";" ++ b
    let tight := a ++ ";;" ++ b
    (classify .strict loose ≠ classify .strict tight ↔
      classify .strict tight = .safe ∧
        EndWithPair gap (bareCode loose.toList) (bareCode tight.toList)) ∧
    (classify .strict loose ≠ classify .strict tight →
      classify .strict loose = .blocked .multipleStatements) := by
  intro gap loose tight
  have hg : ∀ c ∈ gap, c = ' ' := fun c hc => (List.mem_replicate.mp hc).2
  have htexts : Spread gap loose.toList tight.toList :=
    .inr ⟨a.toList, b.toList, by simp [loose], by simp [tight]⟩
  have hstripped := stripComments_spread hg htexts
  have hcode := maskLiterals_spread hg hstripped
  have hverdict : classify .strict loose = if classify .strict tight = .safe ∧
      hasSecondStatement (stripComments loose.toList) = true
      then .blocked .multipleStatements else classify .strict tight :=
    judge_strict_of_alike (startsDestructive_spread hstripped) (hasDisallowed_spread hg hstripped)
      (hasSecondStatement_spread hcode)
  have hend : classify .strict tight = .safe ∧
        hasSecondStatement (stripComments loose.toList) = true ↔
      classify .strict tight = .safe ∧
        EndWithPair gap (bareCode loose.toList) (bareCode tight.toList) :=
    and_congr_right fun hsafe =>
      hasSecondStatement_iff_endWithPair hcode (not_hasSecondStatement_of_safe hsafe)
  rw [← hend]
  by_cases hex : classify .strict tight = .safe ∧
      hasSecondStatement (stripComments loose.toList) = true
  · rw [if_pos hex] at hverdict
    rw [hverdict, hex.1]
    exact ⟨by simp [hex.2], fun _ => rfl⟩
  · rw [if_neg hex] at hverdict
    exact ⟨iff_of_false (fun hne => hne hverdict) hex, fun hne => absurd hverdict hne⟩

/-- A space between the two semicolons at the end makes a second statement. -/
theorem a_space_between_terminators_is_refused :
    ∃ a w b, (∀ c ∈ w, c = ' ') ∧ w ≠ [] ∧
      classify .strict (a ++ ";" ++ String.ofList w ++ ";" ++ b)
        ≠ classify .strict (a ++ ";;" ++ b) := by
  refine ⟨"SELECT 1", [' '], "", by simp, by simp, ?_⟩
  decide +kernel

end QueryReview.Statement
