-- Statements that differ in the case of their letters. The passes look for quotes, backslashes,
-- line feeds and the marks of comments, and none of these is a letter; so a text with its letters
-- in another case falls into the same pieces. The tests behind them compare folded letters and ask
-- where words and white space are. Both hold of any change of characters that leaves all this
-- alone, and putting the capitals of ASCII in small letters is such a change.
import QueryReview.Proofs.Statement.Rules
import QueryReview.Proofs.Statement.Tail

namespace QueryReview.Statement

open Piece Text

/-! ## Changes that nothing sees -/

/-- The characters that mean something by themselves: they open, close and escape literals and
comments, a space stands for a comment, a parenthesis opens a call, and a semicolon ends a
statement. -/
def signs : List Char := ['\x27', '\x22', '\\', '\n', '-', '/', '*', ' ', '(', ';']

/-- The change takes characters to characters that are read alike. -/
structure Unseen (f : Char → Char) : Prop where
  sign : ∀ m ∈ signs, ∀ c, f c = m ↔ c = m
  blank : ∀ c, isBlank (f c) = isBlank c
  word : ∀ c, isWordChar (f c) = isWordChar c
  folded : ∀ c, folded (f c) = folded c

section

variable {f : Char → Char}

theorem Unseen.sign_self (hf : Unseen f) {m : Char} (hm : m ∈ signs) : f m = m :=
  (hf.sign m hm m).mpr rfl

/-- A sign that stands first has stood first before. -/
theorem Unseen.exists_cons (hf : Unseen f) {m : Char} (hm : m ∈ signs) {cs tail : List Char}
    (h : cs.map f = m :: tail) : ∃ more, cs = m :: more ∧ more.map f = tail := by
  obtain ⟨c, more, rfl, hc, hmore⟩ := List.map_eq_cons_iff.mp h
  exact ⟨more, by rw [(hf.sign m hm c).mp hc], hmore⟩

theorem mem_signs_of_isQuote {q : Char} (hq : isQuote q = true) : q ∈ signs := by
  simp only [isQuote, Bool.or_eq_true, beq_iff_eq] at hq
  rcases hq with rfl | rfl
  · decide
  · decide

theorem Unseen.isQuote (hf : Unseen f) (c : Char) : isQuote (f c) = isQuote c := by
  have hsingle := hf.sign '\x27' (by decide) c
  have hdouble := hf.sign '\x22' (by decide) c
  rw [Bool.eq_iff_iff]
  simp only [Statement.isQuote, Bool.or_eq_true, beq_iff_eq, hsingle, hdouble]

/-! ## The pieces -/

/-- The piece with its text changed. -/
def Piece.map (f : Char → Char) : Piece → Piece
  | code c => code (f c)
  | literal q body => literal q (body.map f)
  | comment words => comment (words.map f)

theorem Unseen.literalBody?_map (hf : Unseen f) {q : Char} (hq : Statement.isQuote q = true)
    (cs : List Char) :
    literalBody? q (cs.map f) = (literalBody? q cs).map fun p => (p.1.map f, p.2.map f) := by
  have hquote := hf.sign q (mem_signs_of_isQuote hq)
  have hslash := hf.sign '\\' (by decide)
  have hfeed := hf.sign '\n' (by decide)
  have hescape : f '\\' = '\\' := (hslash _).mpr rfl
  fun_induction literalBody? q cs with
  | case1 => rfl
  | case2 cs =>
    rw [List.map_cons, (hquote q).mpr rfl, literalBody?_quote, Option.map_some, List.map_nil]
  | case3 hne => simp [literalBody?, hescape, hne]
  | case4 ds hne => simp [literalBody?, hescape, (hfeed _).mpr rfl, hne]
  | case5 d ds hd hne ih =>
    rw [List.map_cons, List.map_cons, hescape, literalBody?_escape hne (mt (hfeed d).mp hd), ih]
    simp [Function.comp_def, hescape]
  | case6 c cs hne hc ih =>
    rw [List.map_cons, literalBody?_cons (mt (hquote c).mp hne) (mt (hslash c).mp hc), ih]
    simp [Function.comp_def]

theorem Unseen.literalAt?_map (hf : Unseen f) (cs : List Char) :
    literalAt? (cs.map f) = (literalAt? cs).map fun p => (p.1.map f, p.2.map f) := by
  cases cs with
  | nil => rfl
  | cons c cs =>
    rw [List.map_cons, literalAt?, literalAt?, hf.isQuote]
    by_cases hq : Statement.isQuote c = true
    · rw [if_pos hq, if_pos hq, hf.sign_self (mem_signs_of_isQuote hq), hf.literalBody?_map hq]
      simp [Function.comp_def, Piece.map]
    · rw [if_neg hq, if_neg hq]
      rfl

theorem Unseen.blockBody_map (hf : Unseen f) (cs : List Char) :
    blockBody (cs.map f) = ((blockBody cs).1.map f, (blockBody cs).2.map f) := by
  have hstar : f '*' = '*' := hf.sign_self (by decide)
  have hslash : f '/' = '/' := hf.sign_self (by decide)
  fun_induction blockBody cs with
  | case1 => rfl
  | case2 cs => simp [blockBody, hstar, hslash]
  | case3 c cs hne body rest hb ih =>
    rw [List.map_cons, blockBody.eq_def]
    split
    · rename_i he
      cases he
    · rename_i more he
      rw [← List.map_cons] at he
      obtain ⟨ds, hds, hmore⟩ := hf.exists_cons (by decide) he
      obtain ⟨rfl, rfl⟩ := List.cons.inj hds
      obtain ⟨es, rfl, _⟩ := hf.exists_cons (by decide) hmore
      exact absurd rfl (hne es rfl)
    · rename_i he
      cases he
      rw [ih, hb]
      rfl

theorem Unseen.commentAt?_map (hf : Unseen f) (cs : List Char) :
    commentAt? (cs.map f) = (commentAt? cs).map fun p => (p.1.map f, p.2.map f) := by
  have hdash : f '-' = '-' := hf.sign_self (by decide)
  have hslash : f '/' = '/' := hf.sign_self (by decide)
  have hstar : f '*' = '*' := hf.sign_self (by decide)
  have hfeed : ((· != '\n') ∘ f) = (· != '\n') := by
    funext c
    simp only [Function.comp_apply, bne, beq_eq_decide, hf.sign '\n' (by decide) c]
  unfold commentAt?
  split
  · rename_i tail he
    obtain ⟨ds, rfl, hds⟩ := hf.exists_cons (by decide) he
    obtain ⟨es, rfl, rfl⟩ := hf.exists_cons (by decide) hds
    simp [List.takeWhile_map, List.dropWhile_map, hfeed, Piece.map, hdash]
  · rename_i tail he
    obtain ⟨ds, rfl, hds⟩ := hf.exists_cons (by decide) he
    obtain ⟨es, rfl, rfl⟩ := hf.exists_cons (by decide) hds
    simp [hf.blockBody_map, Piece.map, hslash, hstar]
  · rename_i hline hblock
    split
    · rename_i tail
      exact absurd (by simp [hdash]) (hline (tail.map f))
    · rename_i tail
      exact absurd (by simp [hslash, hstar]) (hblock (tail.map f))
    · rfl

/-! ## The passes -/

theorem Unseen.stripComments_map (hf : Unseen f) (cs : List Char) :
    stripComments (cs.map f) = (stripComments cs).map f := by
  fun_induction split cs with
  | case1 => simp [pass_stripComments.nil]
  | case2 c cs p after hl ih =>
    obtain ⟨q, body, tail, he, hq, hb, _⟩ := literalAt?_cases hl
    have hquote := hf.sign_self (mem_signs_of_isQuote hq)
    have hlong : literalBody? q (tail.map f) = some (body.map f, after.map f) := by
      rw [hf.literalBody?_map hq, hb]
      rfl
    rw [he, List.map_cons, hquote, pass_stripComments.literal hq hlong, ih,
      pass_stripComments.literal hq hb]
    simp [hquote]
  | case3 c cs hl p after hc ih =>
    have hlong := hf.commentAt?_map (c :: cs)
    rw [hc] at hlong
    rw [pass_stripComments.comment hlong, pass_stripComments.comment hc, ih, List.map_cons,
      hf.sign_self (m := ' ') (by decide)]
  | case4 c cs hl hc ih =>
    have hlit := hf.literalAt?_map (c :: cs)
    have hcom := hf.commentAt?_map (c :: cs)
    rw [hl] at hlit
    rw [hc] at hcom
    rw [List.map_cons, stripComments_code hlit hcom, ih, stripComments_code hl hc, List.map_cons]

theorem Unseen.maskLiterals_map (hf : Unseen f) (cs : List Char) :
    maskLiterals (cs.map f) = (maskLiterals cs).map f := by
  fun_induction splitLiterals cs with
  | case1 => simp [maskLiterals_nil]
  | case2 c cs p after hl ih =>
    obtain ⟨q, body, tail, he, hq, hb, _⟩ := literalAt?_cases hl
    have hquote := hf.sign_self (mem_signs_of_isQuote hq)
    have hlong : literalBody? q (tail.map f) = some (body.map f, after.map f) := by
      rw [hf.literalBody?_map hq, hb]
      rfl
    rw [he, List.map_cons, hquote, maskLiterals_of_literalBody? hq hlong, ih,
      maskLiterals_of_literalBody? hq hb]
    simp [hquote]
  | case3 c cs hl ih =>
    have hlit := hf.literalAt?_map (c :: cs)
    rw [hl] at hlit
    rw [List.map_cons, maskLiterals_code hlit, ih, maskLiterals_code hl, List.map_cons]

/-! ## The tests -/

theorem Unseen.afterWord?_map (hf : Unseen f) {word : List Char} (hw : word.all isCapital = true)
    (cs : List Char) : afterWord? word (cs.map f) = (afterWord? word cs).map (List.map f) := by
  fun_induction afterWord? word cs with
  | case1 cs => rfl
  | case2 w word => rfl
  | case3 w word c cs hc ih =>
    rw [List.all_cons, Bool.and_eq_true] at hw
    have hfold : foldsTo w (f c) = true := by
      rw [foldsTo_iff hw.1, hf.folded, ← foldsTo_iff hw.1, hc]
    rw [List.map_cons, afterWord?, if_pos hfold, ih hw.2]
  | case4 w word c cs hc =>
    rw [List.all_cons, Bool.and_eq_true] at hw
    have hfold : ¬ foldsTo w (f c) = true := by
      rwa [foldsTo_iff hw.1, hf.folded, ← foldsTo_iff hw.1]
    rw [List.map_cons, afterWord?, if_neg hfold]
    rfl

theorem Unseen.trimStart_map (hf : Unseen f) (cs : List Char) :
    trimStart (cs.map f) = (trimStart cs).map f := by
  have hblank : isBlank ∘ f = isBlank := funext hf.blank
  rw [trimStart, List.dropWhile_map, hblank]
  rfl

theorem Unseen.trimEnd_map (hf : Unseen f) (cs : List Char) :
    trimEnd (cs.map f) = (trimEnd cs).map f := by
  have hblank : isBlank ∘ f = isBlank := funext hf.blank
  rw [trimEnd, ← List.map_reverse, List.dropWhile_map, hblank, ← List.map_reverse]
  rfl

theorem Unseen.wordEnds_map (hf : Unseen f) (cs : List Char) :
    wordEnds (cs.map f) = wordEnds cs := by
  cases cs with
  | nil => rfl
  | cons c cs => simp [wordEnds, hf.word]

theorem Unseen.startsWithWord_map (hf : Unseen f) {word : List Char}
    (hw : word.all isCapital = true) (cs : List Char) :
    startsWithWord word (cs.map f) = startsWithWord word cs := by
  unfold startsWithWord
  rw [hf.afterWord?_map hw]
  cases afterWord? word cs with
  | none => rfl
  | some rest => exact hf.wordEnds_map rest

theorem Unseen.startsDestructive_map (hf : Unseen f) (cs : List Char) :
    startsDestructive (cs.map f) = startsDestructive cs := by
  unfold startsDestructive
  rw [hf.trimStart_map, Bool.eq_iff_iff, List.any_eq_true, List.any_eq_true]
  refine exists_congr fun word => and_congr_right fun hmem => ?_
  rw [hf.startsWithWord_map (capitals_of_isWord (isWord_destructiveWords word hmem))]

theorem Unseen.opensCall_map (hf : Unseen f) {name : List Char} (hn : name.all isCapital = true)
    (cs : List Char) : opensCall name (cs.map f) = opensCall name cs := by
  unfold opensCall
  rw [hf.afterWord?_map hn]
  cases afterWord? name cs with
  | none => rfl
  | some rest =>
    dsimp only [Option.map_some]
    rw [hf.trimStart_map]
    cases trimStart rest with
    | nil => rfl
    | cons c more => simp [beq_eq_decide, hf.sign '(' (by decide) c]

theorem Unseen.namesServerFile_map (hf : Unseen f) (cs : List Char) :
    namesServerFile (cs.map f) = namesServerFile cs := by
  have hout : "OUTFILE".toList.all isCapital = true := by decide
  have hdump : "DUMPFILE".toList.all isCapital = true := by decide
  unfold namesServerFile
  rw [hf.afterWord?_map (by decide)]
  cases afterWord? "INTO".toList cs with
  | none => rfl
  | some rest =>
    cases rest with
    | nil => rfl
    | cons c rest =>
      simp only [Option.map_some, List.map_cons, hf.blank, hf.trimStart_map, List.any_cons,
        List.any_nil, hf.startsWithWord_map hout, hf.startsWithWord_map hdump]

theorem Unseen.startsDisallowed_map (hf : Unseen f) (cs : List Char) :
    startsDisallowed (cs.map f) = startsDisallowed cs := by
  unfold startsDisallowed
  rw [hf.opensCall_map (by decide), hf.opensCall_map (by decide), hf.namesServerFile_map]

/-- The same places of the text pass. -/
theorem Unseen.anyWordStart_map (hf : Unseen f) {test : List Char → Bool}
    (ht : ∀ cs, test (cs.map f) = test cs) (before : Option Char) (cs : List Char) :
    anyWordStart test (before.map f) (cs.map f) = anyWordStart test before cs := by
  induction cs generalizing before with
  | nil => rfl
  | cons c cs ih =>
    have hstart : wordMayStart (before.map f) = wordMayStart before := by
      cases before with
      | none => rfl
      | some b => simp [wordMayStart, hf.word]
    have hrest : anyWordStart test (some (f c)) (cs.map f) = anyWordStart test (some c) cs :=
      ih (some c)
    rw [List.map_cons, anyWordStart, anyWordStart, hstart, ← List.map_cons, ht, hrest]

theorem Unseen.hasDisallowed_map (hf : Unseen f) (cs : List Char) :
    hasDisallowed (cs.map f) = hasDisallowed cs :=
  hf.anyWordStart_map hf.startsDisallowed_map none cs

theorem Unseen.hasSecondStatement_map (hf : Unseen f) (cs : List Char) :
    hasSecondStatement (cs.map f) = hasSecondStatement cs := by
  have hsemicolon := hf.sign ';' (by decide)
  have htest : (· == ';') ∘ f = (· == ';') := by
    funext c
    simp only [Function.comp_apply, beq_eq_decide, hsemicolon c]
  unfold hasSecondStatement dropEnd
  rw [hf.maskLiterals_map, hf.trimEnd_map, ← List.map_reverse, List.dropWhile_map, htest,
    ← List.map_reverse, Bool.eq_iff_iff, List.contains_iff_mem, List.contains_iff_mem,
    List.mem_map]
  constructor
  · rintro ⟨c, hmem, hc⟩
    exact (hsemicolon c).mp hc ▸ hmem
  · exact fun hmem => ⟨';', hmem, (hsemicolon _).mpr rfl⟩

theorem Unseen.judge_map (hf : Unseen f) (policy : Policy) (cs : List Char) :
    judge policy (cs.map f) = judge policy cs := by
  unfold judge
  rw [hf.startsDestructive_map, hf.hasDisallowed_map, hf.hasSecondStatement_map]

/-- A change that nothing sees leaves every verdict as it is. -/
theorem Unseen.classify_map (hf : Unseen f) (policy : Policy) (sql : String) :
    classify policy (String.ofList (sql.toList.map f)) = classify policy sql := by
  rw [classify, String.toList_ofList, hf.stripComments_map, hf.judge_map]
  rfl

end

/-! ## Capitals in small letters -/

/-- What holds of a capital of ASCII and its small form holds of any character and its small form,
as other characters have none but themselves. -/
theorem toLower_cases {P : Char → Char → Prop} (hsame : ∀ c, P c c)
    (hcapital : ∀ n ∈ List.range' 65 26, P (Char.ofNat n) (Char.ofNat n).toLower) (c : Char) :
    P c c.toLower := by
  by_cases h : 65 ≤ c.toNat ∧ c.toNat ≤ 90
  · have hc := hcapital c.toNat (by simp; omega)
    rwa [c.ofNat_toNat] at hc
  · have hother : c.toLower = c := by rw [← Char.toNat_inj, toNat_toLower, if_neg h]
    rw [hother]
    exact hsame c

theorem toLower_eq_sign_iff {m : Char} (hm : m ∈ signs) (c : Char) : c.toLower = m ↔ c = m := by
  have hfixed : (signs.all fun m => isCapital m && m.toLower == m) = true := by decide
  have hsign := List.all_eq_true.mp hfixed m hm
  rw [Bool.and_eq_true, beq_iff_eq] at hsign
  obtain ⟨hcapital, hself⟩ := hsign
  have h := toLower_eq_iff hcapital c
  rwa [hself, or_self] at h

theorem unseen_toLower : Unseen Char.toLower where
  sign _ hm c := toLower_eq_sign_iff hm c
  blank := toLower_cases (P := fun c d => isBlank d = isBlank c) (fun _ => rfl) (by decide)
  word := toLower_cases (P := fun c d => isWordChar d = isWordChar c) (fun _ => rfl) (by decide)
  folded := toLower_cases (P := fun c d => folded d = folded c) (fun _ => rfl) (by decide)

/-- The two characters are the same, or one is a capital of ASCII and the other its small form. -/
def SameLetter (c d : Char) : Prop :=
  c = d ∨ (c.isUpper = true ∧ d = c.toLower) ∨ (d.isUpper = true ∧ c = d.toLower)

instance : DecidableRel SameLetter := fun _ _ => inferInstanceAs (Decidable (_ ∨ _))

theorem toLower_toLower (c : Char) : c.toLower.toLower = c.toLower :=
  toLower_cases (P := fun c d => d.toLower = c.toLower) (fun _ => rfl) (by decide) c

theorem SameLetter.toLower_eq {c d : Char} (h : SameLetter c d) : c.toLower = d.toLower := by
  rcases h with rfl | ⟨_, rfl⟩ | ⟨_, rfl⟩
  · rfl
  · exact (toLower_toLower c).symm
  · exact toLower_toLower d

theorem map_toLower_eq {cs ds : List Char} (h : List.Forall₂ SameLetter cs ds) :
    cs.map Char.toLower = ds.map Char.toLower := by
  induction h with
  | nil => rfl
  | cons hsame _ ih => rw [List.map_cons, List.map_cons, hsame.toLower_eq, ih]

/-- Two statements that differ in nothing but the case of ASCII letters, wherever these stand, get
the same verdict under either policy. -/
theorem letter_case_never_changes_a_verdict {sql sql' : String}
    (h : List.Forall₂ SameLetter sql.toList sql'.toList) (policy : Policy) :
    classify policy sql' = classify policy sql := by
  rw [← unseen_toLower.classify_map, ← map_toLower_eq h, unseen_toLower.classify_map]

/-- Letters in a comment, in a literal behind a backslash, and in a disallowed construct. -/
theorem mixed_letters_get_one_verdict :
    let sql := "/* N */ SELECT 'a\\N' INTO OUTFILE 'x'"
    let sql' := "/* n */ select 'A\\n' inTO outFile 'X'"
    List.Forall₂ SameLetter sql.toList sql'.toList ∧
    ∀ policy, classify policy sql' = classify policy sql := by
  intro sql sql'
  have h : List.Forall₂ SameLetter sql.toList sql'.toList := by decide +kernel
  exact ⟨h, letter_case_never_changes_a_verdict h⟩

end QueryReview.Statement
