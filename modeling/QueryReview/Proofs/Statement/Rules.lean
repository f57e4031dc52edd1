-- What the verdict on a statement says. Each of the three tests searches the text from left to
-- right; here each rule says what the text is made of when it applies, and the test decides the
-- rule. The first rule that applies gives the verdict.
import QueryReview.Proofs.Text.Blank
import QueryReview.Proofs.Text.Fold
import QueryReview.Proofs.Text.Word
import QueryReview.Statement.Verdict

namespace QueryReview.Statement

open Text

/-! ## The rules -/

/-- The text starts with the word, in any case, and the word ends there. -/
def Leads (word cs : List Char) : Prop :=
  ∃ said rest, cs = said ++ rest ∧ Says word said ∧ ∀ c ∈ rest.head?, isWordChar c = false

/-- The text starts with the name, and an opening parenthesis follows, maybe after white space. -/
def Calls (name cs : List Char) : Prop :=
  ∃ said gap rest, cs = said ++ (gap ++ '(' :: rest) ∧ Says name said ∧ ∀ c ∈ gap, isBlank c = true

/-- The text starts with the words that write an answer to a file on the server. -/
def WritesFile (cs : List Char) : Prop :=
  ∃ said gap more, cs = said ++ (gap ++ more) ∧ Says "INTO".toList said ∧ gap ≠ [] ∧
    (∀ c ∈ gap, isBlank c = true) ∧ (Leads "OUTFILE".toList more ∨ Leads "DUMPFILE".toList more)

/-- The first word of the text changes data, tables or rights. -/
def Destructive (cs : List Char) : Prop :=
  ∃ gap more, cs = gap ++ more ∧ (∀ c ∈ gap, isBlank c = true) ∧
    ∃ word ∈ ["INSERT", "UPDATE", "DELETE", "DROP", "TRUNCATE", "ALTER", "CREATE", "GRANT",
      "REVOKE"], Leads word.toList more

/-- Somewhere, but not in the middle of a word, the text reaches outside the database. -/
def Disallowed (cs : List Char) : Prop :=
  ∃ front here, cs = front ++ here ∧ (∀ c ∈ front.getLast?, isWordChar c = false) ∧
    (Calls "EXEC".toList here ∨ Calls "LOAD_FILE".toList here ∨ WritesFile here)

/-- With its literals empty, and without the white space and then the semicolons at its end, the
text has a semicolon. -/
def Stacked (cs : List Char) : Prop :=
  ∃ core semicolons gap, maskLiterals cs = core ++ (semicolons ++ gap) ∧
    (∀ c ∈ gap, isBlank c = true) ∧ (∀ c ∈ (core ++ semicolons).getLast?, isBlank c = false) ∧
    (∀ c ∈ semicolons, c = ';') ∧ (∀ c ∈ core.getLast?, c ≠ ';') ∧ ';' ∈ core

/-! ## Words behind white space -/

/-- White space in front of a text that starts with none is what trimming takes off. -/
theorem trimStart_iff {P : List Char → Prop} (hP : ∀ cs, P cs → ∀ c ∈ cs.head?, isBlank c = false)
    {cs : List Char} :
    P (trimStart cs) ↔ ∃ gap more, cs = gap ++ more ∧ (∀ c ∈ gap, isBlank c = true) ∧ P more := by
  constructor
  · intro h
    refine ⟨cs.takeWhile isBlank, trimStart cs, ?_, ?_, h⟩
    · exact List.takeWhile_append_dropWhile.symm
    · exact List.all_eq_true.mp List.all_takeWhile
  · rintro ⟨gap, more, rfl, hgap, hmore⟩
    have htrim : trimStart (gap ++ more) = more := by
      unfold trimStart
      rw [List.dropWhile_append_of_pos hgap]
      cases more with
      | nil => rfl
      | cons c more => simp [hP _ hmore c rfl]
    rwa [htrim]

/-- White space has no case. -/
theorem folded_of_isBlank {c : Char} (h : isBlank c = true) : folded c = c := by
  have hapart : ∀ p ∈ blankRanges, p.2 < 65 ∨ 90 < p.1 := by decide
  have hs : c ≠ longS := by
    rintro rfl
    exact absurd h (by decide)
  have hk : c ≠ kelvin := by
    rintro rfl
    exact absurd h (by decide)
  obtain ⟨p, hp, hlow, hhigh⟩ := Ranges.exists_of_has h
  have hcase : ¬ (65 ≤ c.toNat ∧ c.toNat ≤ 90) := by
    rcases hapart p hp with hlt | hlt <;> omega
  rw [folded, if_neg hs, if_neg hk, ← Char.toNat_inj, toNat_toLower, if_neg hcase]

/-- A word that is searched for: its letters are given in capitals, and it starts with something to
see. -/
def isWord (word : List Char) : Bool :=
  word.all isCapital && word.head?.any fun w => !isBlank (folded w)

theorem capitals_of_isWord {word : List Char} (hw : isWord word = true) :
    word.all isCapital = true := by
  simp only [isWord, Bool.and_eq_true] at hw
  exact hw.1

theorem not_isBlank_of_leads {word cs : List Char} (hw : isWord word = true) (h : Leads word cs) :
    ∀ c ∈ cs.head?, isBlank c = false := by
  obtain ⟨said, rest, rfl, hsaid, _⟩ := h
  cases word with
  | nil => cases hw
  | cons w word =>
    cases said with
    | nil => cases hsaid
    | cons c said =>
      rintro d ⟨⟩
      have hfold : folded c = folded w := (List.cons.inj hsaid).1
      have hblank : isBlank (folded w) = false := by
        simp only [isWord, Bool.and_eq_true, List.head?_cons, Option.any_some] at hw
        simpa using hw.2
      by_contra hc
      rw [Bool.not_eq_false] at hc
      rw [← hfold, folded_of_isBlank hc, hc] at hblank
      cases hblank

/-- No word starts with white space. -/
theorem afterWord?_of_isBlank {word : List Char} (hw : isWord word = true) {c : Char}
    (hc : isBlank c = true) (cs : List Char) : afterWord? word (c :: cs) = none := by
  cases word with
  | nil => cases hw
  | cons w word =>
    simp only [isWord, List.all_cons, List.head?_cons, Option.any_some, Bool.and_eq_true,
      Bool.not_eq_true'] at hw
    obtain ⟨⟨hcapital, _⟩, hfirst⟩ := hw
    refine if_neg fun hfold => ?_
    rw [foldsTo_iff hcapital, folded_of_isBlank hc] at hfold
    rw [← hfold, hc] at hfirst
    cases hfirst

/-! ## Each test decides its rule -/

theorem startsWithWord_iff {word : List Char} (hw : isWord word = true) {cs : List Char} :
    startsWithWord word cs = true ↔ Leads word cs := by
  have hsome : startsWithWord word cs = true
      ↔ ∃ rest, afterWord? word cs = some rest ∧ wordEnds rest = true := by
    unfold startsWithWord
    cases afterWord? word cs <;> simp
  rw [hsome]
  simp only [afterWord?_eq_some_iff (capitals_of_isWord hw), wordEnds_iff]
  constructor
  · rintro ⟨rest, ⟨said, hcs, hsaid⟩, hend⟩
    exact ⟨said, rest, hcs, hsaid, hend⟩
  · rintro ⟨said, rest, hcs, hsaid, hend⟩
    exact ⟨rest, ⟨said, hcs, hsaid⟩, hend⟩

theorem isWord_destructiveWords : ∀ word ∈ destructiveWords, isWord word = true := by
  have hall : destructiveWords.all isWord = true := by decide
  exact List.all_eq_true.mp hall

theorem startsDestructive_iff {cs : List Char} : startsDestructive cs = true ↔ Destructive cs := by
  have hfirst : ∀ more, (∃ word ∈ destructiveWords, Leads word more) →
      ∀ c ∈ more.head?, isBlank c = false := by
    rintro more ⟨word, hmem, hleads⟩
    exact not_isBlank_of_leads (isWord_destructiveWords word hmem) hleads
  have htest : startsDestructive cs = true
      ↔ ∃ word ∈ destructiveWords, Leads word (trimStart cs) := by
    unfold startsDestructive
    rw [List.any_eq_true]
    refine exists_congr fun word => and_congr_right fun hmem => ?_
    exact startsWithWord_iff (isWord_destructiveWords word hmem)
  rw [htest, trimStart_iff hfirst]
  simp only [destructiveWords, List.mem_map, exists_exists_and_eq_and, Destructive]

theorem opensCall_iff {name : List Char} (hn : name.all isCapital = true) {cs : List Char} :
    opensCall name cs = true ↔ Calls name cs := by
  have hfirst : ∀ more : List Char, more.head? = some '(' →
      ∀ c ∈ more.head?, isBlank c = false := by
    rintro more hmore c hc
    rw [hmore] at hc
    cases hc
    decide
  have hsome : opensCall name cs = true
      ↔ ∃ rest, afterWord? name cs = some rest ∧ (trimStart rest).head? = some '(' := by
    unfold opensCall
    cases afterWord? name cs <;> simp
  rw [hsome]
  simp only [afterWord?_eq_some_iff hn, trimStart_iff hfirst, List.head?_eq_some_iff]
  constructor
  · rintro ⟨_, ⟨said, rfl, hsaid⟩, gap, _, rfl, hgap, rest, rfl⟩
    exact ⟨said, gap, rest, rfl, hsaid, hgap⟩
  · rintro ⟨said, gap, rest, rfl, hsaid, hgap⟩
    exact ⟨_, ⟨said, rfl, hsaid⟩, gap, _, rfl, hgap, rest, rfl⟩

theorem namesServerFile_iff {cs : List Char} : namesServerFile cs = true ↔ WritesFile cs := by
  have hinto : "INTO".toList.all isCapital = true := by decide
  have hout : isWord "OUTFILE".toList = true := by decide
  have hdump : isWord "DUMPFILE".toList = true := by decide
  have hfirst : ∀ more, (Leads "OUTFILE".toList more ∨ Leads "DUMPFILE".toList more) →
      ∀ c ∈ more.head?, isBlank c = false := by
    rintro more (h | h)
    · exact not_isBlank_of_leads hout h
    · exact not_isBlank_of_leads hdump h
  have hsome : namesServerFile cs = true ↔ ∃ c rest,
      afterWord? "INTO".toList cs = some (c :: rest) ∧ isBlank c = true ∧
        (Leads "OUTFILE".toList (trimStart rest) ∨ Leads "DUMPFILE".toList (trimStart rest)) := by
    simp only [← startsWithWord_iff hout, ← startsWithWord_iff hdump]
    unfold namesServerFile
    split
    · rename_i c rest h
      rw [h]
      simp
    · rename_i h
      refine iff_of_false (by simp) ?_
      rintro ⟨c, rest, hrest, _⟩
      exact h c rest hrest
  rw [hsome]
  simp only [afterWord?_eq_some_iff hinto, trimStart_iff hfirst]
  constructor
  · rintro ⟨c, _, ⟨said, rfl, hsaid⟩, hc, gap, more, rfl, hgap, hmore⟩
    refine ⟨said, c :: gap, more, rfl, hsaid, by simp, ?_, hmore⟩
    exact List.forall_mem_cons.mpr ⟨hc, hgap⟩
  · rintro ⟨said, gap, more, rfl, hsaid, hne, hgap, hmore⟩
    obtain ⟨c, gap, rfl⟩ := List.exists_cons_of_ne_nil hne
    obtain ⟨hc, hgap⟩ := List.forall_mem_cons.mp hgap
    exact ⟨c, gap ++ more, ⟨said, rfl, hsaid⟩, hc, gap, more, rfl, hgap, hmore⟩

theorem hasDisallowed_iff {cs : List Char} : hasDisallowed cs = true ↔ Disallowed cs := by
  have hexec : "EXEC".toList.all isCapital = true := by decide
  have hload : "LOAD_FILE".toList.all isCapital = true := by decide
  unfold hasDisallowed
  rw [anyWordStart_iff (by decide)]
  simp only [Option.or_none, wordMayStart_iff, startsDisallowed, Bool.or_eq_true, or_assoc,
    opensCall_iff hexec, opensCall_iff hload, namesServerFile_iff, Disallowed]

/-- A semicolon is left behind the two trims exactly when it stands in front of what they take. -/
theorem hasSecondStatement_iff {cs : List Char} : hasSecondStatement cs = true ↔ Stacked cs := by
  unfold hasSecondStatement
  rw [List.contains_iff_mem]
  constructor
  · intro h
    obtain ⟨gap, hcs, hgap, hlast⟩ := trimEnd_eq_iff.mp (Eq.refl (trimEnd (maskLiterals cs)))
    obtain ⟨semicolons, htrim, hsemicolons, hcore⟩ :=
      dropEnd_eq_iff.mp (Eq.refl (dropEnd ';' (trimEnd (maskLiterals cs))))
    refine ⟨dropEnd ';' (trimEnd (maskLiterals cs)), semicolons, gap, ?_, hgap, ?_, ?_, ?_, h⟩
    · rw [← List.append_assoc, ← htrim, ← hcs]
    · rwa [← htrim]
    · exact hsemicolons
    · exact hcore
  · rintro ⟨core, semicolons, gap, hcs, hgap, hlast, hsemicolons, hcore, hmem⟩
    have htrim : trimEnd (maskLiterals cs) = core ++ semicolons :=
      trimEnd_eq_iff.mpr ⟨gap, by rw [hcs, List.append_assoc], hgap, hlast⟩
    have hdrop : dropEnd ';' (core ++ semicolons) = core :=
      dropEnd_eq_iff.mpr ⟨semicolons, rfl, hsemicolons, hcore⟩
    rwa [htrim, hdrop]

/-- So it is exactly when some semicolon has another character behind it that is not a part of the
white space at the end. -/
theorem hasSecondStatement_iff_exists {cs : List Char} :
    hasSecondStatement cs = true ↔ ∃ front c back, maskLiterals cs = front ++ c :: back ∧
      ';' ∈ front ∧ c ≠ ';' ∧ ∃ d ∈ c :: back, isBlank d = false := by
  constructor
  · intro h
    obtain ⟨core, semicolons, gap, hcs, _, hlast, hsemicolons, hcore, hmem⟩ :=
      hasSecondStatement_iff.mp h
    rcases List.eq_nil_or_concat core with rfl | ⟨front, c, rfl⟩
    · cases hmem
    · rw [List.concat_eq_append] at hcs hlast hcore hmem
      have hc : c ≠ ';' := hcore c (by simp)
      refine ⟨front, c, semicolons ++ gap, by simpa using hcs, ?_, hc, ?_⟩
      · simpa [hc.symm] using hmem
      · cases semicolons with
        | nil => exact ⟨c, List.mem_cons_self, hlast c (by simp)⟩
        | cons d semicolons =>
          obtain rfl := hsemicolons d List.mem_cons_self
          exact ⟨';', by simp, by decide⟩
  · rintro ⟨front, c, back, hcs, hmem, hc, d, hd, hblank⟩
    obtain ⟨left, right, hsplit⟩ := List.append_of_mem hd
    obtain ⟨more, hmore⟩ := trimEnd_append_cons hblank (front ++ left) right
    obtain ⟨rest, hrest⟩ : ∃ rest, left ++ d :: more = c :: rest := by
      cases left with
      | nil => exact ⟨more, by rw [(List.cons.inj hsplit).1]; rfl⟩
      | cons e left => exact ⟨left ++ d :: more, by rw [(List.cons.inj hsplit).1]; rfl⟩
    obtain ⟨kept, hkept⟩ := dropEnd_append_cons hc front rest
    have hall : front ++ c :: back = (front ++ left) ++ d :: right := by rw [hsplit]; simp
    unfold hasSecondStatement
    rw [List.contains_iff_mem, hcs, hall, hmore, List.append_assoc, hrest, hkept]
    exact List.mem_append_left _ hmem

/-! ## The verdict -/

theorem eq_strict_iff {policy : Policy} :
    policy = .strict ↔ policy.rejectMultipleStatements = true := by
  cases policy
  simp [Policy.strict]

/-- A statement is judged by its text without comments. It is refused for its first word when that
is a destructive one; otherwise for a construct that reaches outside the database, when there is
one; otherwise for a second statement, when the policy is strict and there is a semicolon in front
of the end; and otherwise it is safe. -/
theorem the_first_rule_that_applies_gives_the_verdict (policy : Policy) (sql : String) :
    let cs := stripComments sql.toList
    (classify policy sql = .blocked .destructiveStatement ↔ Destructive cs) ∧
    (classify policy sql = .blocked .disallowedConstruct ↔ ¬ Destructive cs ∧ Disallowed cs) ∧
    (classify policy sql = .blocked .multipleStatements ↔
      ¬ Destructive cs ∧ ¬ Disallowed cs ∧ policy = .strict ∧ Stacked cs) ∧
    (classify policy sql = .safe ↔
      ¬ Destructive cs ∧ ¬ Disallowed cs ∧ ¬ (policy = .strict ∧ Stacked cs)) := by
  intro cs
  rw [← startsDestructive_iff, ← hasDisallowed_iff, ← hasSecondStatement_iff, eq_strict_iff]
  show (judge policy cs = _ ↔ _) ∧ (judge policy cs = _ ↔ _) ∧ (judge policy cs = _ ↔ _) ∧
    (judge policy cs = _ ↔ _)
  unfold judge
  by_cases hdestructive : startsDestructive cs = true
  · simp [hdestructive]
  · by_cases hdisallowed : hasDisallowed cs = true
    · simp [hdestructive, hdisallowed]
    · by_cases hsecond : policy.rejectMultipleStatements = true ∧ hasSecondStatement cs = true
      · simp [hdestructive, hdisallowed, hsecond]
      · simp [hdestructive, hdisallowed, hsecond]

/-- A destructive word in small letters, with a kelvin sign for its `k`. -/
example : classify {} "/* x */ revo\u212ae" = .blocked .destructiveStatement := by decide +kernel

end QueryReview.Statement
