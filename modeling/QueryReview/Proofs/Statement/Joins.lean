-- Statements that read a table and join any number of further ones. The search takes the whole of
-- a name, since white space or the end follows it, and goes on behind it. It finds no name in an
-- alias, which is a word and none of the two keywords. So all of the next `JOIN` is still ahead of
-- it there, whatever the name in front is.
import QueryReview.Proofs.Statement.LetterCase
import QueryReview.Proofs.Statement.Trivia

namespace QueryReview.Statement

open Text

/-! ## Lists of tables as they are written -/

/-- A letter or digit of ASCII, or an underscore. -/
def isPartChar (c : Char) : Bool := c.isAlphanum || c == '_'

/-- A name, and a way to write it: any of the parts between its points may stand in backticks. -/
inductive Spells : List Char → List Char → Prop
  | plain {part : List Char} : (∀ c ∈ part, isPartChar c = true) → Spells part part
  | quoted {part : List Char} :
      (∀ c ∈ part, isPartChar c = true) → Spells part (backtick :: (part ++ [backtick]))
  | point {name name' written written' : List Char} : Spells name written →
      Spells name' written' → Spells (name ++ '.' :: name') (written ++ '.' :: written')

/-- White space, and some of it. -/
structure Gap (cs : List Char) : Prop where
  notEmpty : cs ≠ []
  isBlank : ∀ c ∈ cs, isBlank c = true

/-- The text is one of the two keywords that a name stands behind. -/
def SaysKeyword (cs : List Char) : Prop := Says "FROM".toList cs ∨ Says "JOIN".toList cs

instance : DecidableRel Says := fun _ _ => inferInstanceAs (Decidable (_ = _))

instance : DecidablePred SaysKeyword := fun _ => inferInstanceAs (Decidable (_ ∨ _))

/-- A word that may be an alias. -/
structure IsAlias (word : List Char) : Prop where
  notEmpty : word ≠ []
  isPartChar : ∀ c ∈ word, isPartChar c = true
  notKeyword : ¬ SaysKeyword word

/-- What may stand behind a name: nothing, or an alias, with or without `AS` in front of it. -/
inductive Aliased : List Char → Prop
  | nil : Aliased []
  | word {gap word : List Char} : Gap gap → IsAlias word → Aliased (gap ++ word)
  | asWord {gap said gap' word : List Char} : Gap gap → Says "AS".toList said → Gap gap' →
      IsAlias word → Aliased (gap ++ (said ++ (gap' ++ word)))

/-- The name of a table, and a way to write it. -/
structure WrittenAs (name : String) (written : List Char) : Prop where
  notEmpty : name ≠ ""
  spells : Spells name.toList written

/-- What stands behind a keyword: a table, by its name and perhaps an alias. -/
inductive Refers (name : String) : List Char → Prop
  | intro {gap written tail : List Char} : Gap gap → WrittenAs name written → Aliased tail →
      Refers name (gap ++ (written ++ tail))

/-- What stands behind `FROM`: a table, and further ones behind `JOIN`. -/
inductive Joins : List String → List Char → Prop
  | one {name : String} {cs : List Char} : Refers name cs → Joins [name] cs
  | join {name : String} {names : List String} {cs gap said rest : List Char} :
      Refers name cs → Gap gap → Says "JOIN".toList said → Joins names rest →
      Joins (name :: names) (cs ++ (gap ++ (said ++ rest)))

/-- A statement that reads all of the joined tables. -/
inductive ReadsAll (names : List String) : List Char → Prop
  | intro {select gap gap' said rest : List Char} : Says "SELECT".toList select → Gap gap →
      Gap gap' → Says "FROM".toList said → Joins names rest →
      ReadsAll names (select ++ (gap ++ '*' :: (gap' ++ (said ++ rest))))

/-! ## The characters of a name -/

theorem isWordChar_of_isPartChar {c : Char} (h : isPartChar c = true) : isWordChar c = true := by
  unfold isPartChar at h
  rcases Bool.or_eq_true_iff.mp h with halnum | hline
  · exact isWordChar_of_isAlphanum halnum
  · rw [beq_iff_eq.mp hline]
    decide

theorem isNameChar_of_isPartChar {c : Char} (h : isPartChar c = true) : isNameChar c = true := by
  rw [isNameChar_iff]
  left
  unfold isPartChar at h
  simp [isPlainNameChar, h]

theorem ne_backtick_of_isPartChar {c : Char} (h : isPartChar c = true) : c ≠ backtick := by
  rintro rfl
  revert h
  decide

/-- Every name of these characters can be written as it is. -/
theorem spells_self {part name : List Char} (hp : ∀ c ∈ part, isPartChar c = true)
    (h : ∀ c ∈ name, isPartChar c = true ∨ c = '.') : Spells (part ++ name) (part ++ name) := by
  induction name generalizing part with
  | nil =>
    rw [List.append_nil]
    exact .plain hp
  | cons c name ih =>
    obtain ⟨hc, hname⟩ := List.forall_mem_cons.mp h
    rcases hc with hc | rfl
    · have hmore : ∀ d ∈ part ++ [c], isPartChar d = true :=
        List.forall_mem_append.mpr ⟨hp, List.forall_mem_singleton.mpr hc⟩
      have hspells := ih hmore hname
      rwa [List.append_assoc, List.singleton_append] at hspells
    · have hrest : Spells ([] ++ name) ([] ++ name) := ih (by simp) hname
      exact .point (.plain hp) hrest

namespace Spells

variable {name written : List Char}

theorem isNameChar (h : Spells name written) : ∀ c ∈ written, isNameChar c = true := by
  induction h with
  | plain hpart => exact fun c hc => isNameChar_of_isPartChar (hpart c hc)
  | quoted hpart =>
    rw [List.forall_mem_cons, List.forall_mem_append, List.forall_mem_singleton]
    exact ⟨by decide, fun c hc => isNameChar_of_isPartChar (hpart c hc), by decide⟩
  | point _ _ ih ih' =>
    rw [List.forall_mem_append, List.forall_mem_cons]
    exact ⟨ih, by decide, ih'⟩

/-- What is written is the name, but for the backticks. -/
theorem filter_eq (h : Spells name written) : written.filter (· != backtick) = name := by
  have hkept : ∀ part : List Char, (∀ c ∈ part, isPartChar c = true) →
      part.filter (· != backtick) = part := by
    intro part hpart
    rw [List.filter_eq_self]
    intro c hc
    simpa using ne_backtick_of_isPartChar (hpart c hc)
  induction h with
  | plain hpart => exact hkept _ hpart
  | quoted hpart => simp [hkept _ hpart]
  | point _ _ ih ih' =>
    have hdot : ('.' != backtick) = true := by decide
    rw [List.filter_append, List.filter_cons, if_pos hdot, ih, ih']

end Spells

theorem WrittenAs.ne_nil {name : String} {written : List Char} (h : WrittenAs name written) :
    written ≠ [] := by
  rintro rfl
  have hempty : [] = name.toList := h.spells.filter_eq
  exact h.notEmpty (by simpa using hempty.symm)

theorem WrittenAs.plainName_eq {name : String} {written : List Char} (h : WrittenAs name written) :
    String.ofList (plainName written) = name := by
  rw [plainName_eq_unquoted h.spells.isNameChar, unquoted, h.spells.filter_eq,
    String.ofList_toList]

/-! ## The search in front of white space -/

/-- The text is at its end, or goes on with white space. -/
def Apart (cs : List Char) : Prop := ∀ c ∈ cs.head?, isBlank c = true

theorem Gap.apart_append {gap : List Char} (h : Gap gap) (cs : List Char) : Apart (gap ++ cs) := by
  obtain ⟨c, gap, rfl⟩ := List.exists_cons_of_ne_nil h.notEmpty
  rintro _ ⟨⟩
  exact h.isBlank c List.mem_cons_self

/-- No name starts at white space, so the search forgets there what is in front. -/
theorem writtenNames_of_apart {cs : List Char} (h : Apart cs) (before before' : Option Char) :
    writtenNames before cs = writtenNames before' cs := by
  cases cs with
  | nil => rw [writtenNames, writtenNames]
  | cons c cs =>
    have hc : Text.isBlank c = true := h c rfl
    rw [writtenNames_skip (nameAt?_of_isBlank hc before cs),
      writtenNames_skip (nameAt?_of_isBlank hc before' cs)]

theorem Gap.writtenNames_append {gap : List Char} (h : Gap gap) (before : Option Char)
    (cs : List Char) : writtenNames before (gap ++ cs) = writtenNames none cs := by
  rw [writtenNames_of_apart (h.apart_append cs) before none, writtenNames_blank_append h.isBlank]

theorem isWordChar_folded (c : Char) : isWordChar (folded c) = isWordChar c := by
  unfold folded
  split
  · rename_i hs
    rw [hs]
    decide +kernel
  · split
    · rename_i hk
      rw [hk]
      decide +kernel
    · exact unseen_toLower.word c

theorem isWordChar_of_said {word said : List Char} (hw : word.all isWordChar = true)
    (h : Says word said) : ∀ c ∈ said, isWordChar c = true := by
  intro c hc
  have hmem : folded c ∈ word.map folded := h ▸ List.mem_map_of_mem hc
  obtain ⟨w, hmem, hfold⟩ := List.mem_map.mp hmem
  rw [← isWordChar_folded, ← hfold, isWordChar_folded]
  exact List.all_eq_true.mp hw w hmem

theorem SaysKeyword.isWordChar {said : List Char} (h : SaysKeyword said) :
    ∀ c ∈ said, isWordChar c = true := by
  rcases h with hfrom | hjoin
  · exact isWordChar_of_said (by decide) hfrom
  · exact isWordChar_of_said (by decide) hjoin

/-- A text starts with one word only, when white space or the end follows it. -/
theorem word_unique {word word' rest rest' : List Char} (hw : ∀ c ∈ word, isWordChar c = true)
    (hw' : ∀ c ∈ word', isWordChar c = true) (hr : Apart rest) (hr' : Apart rest')
    (h : word ++ rest = word' ++ rest') : word = word' := by
  have hends : ∀ {cs : List Char}, Apart cs → ∀ c ∈ cs.head?, isWordChar c = false :=
    fun hcs c hc => isWordChar_of_isBlank (hcs c hc)
  have hfirst := (takeWhile_dropWhile_iff.mpr ⟨rfl, hw, hends hr⟩).1
  have hfirst' := (takeWhile_dropWhile_iff.mpr ⟨h, hw', hends hr'⟩).1
  exact hfirst.symm.trans hfirst'

/-- The search finds no name in a word that is no keyword. -/
theorem writtenNames_word_append {word cs : List Char} (hw : ∀ c ∈ word, isWordChar c = true)
    (hk : ¬ SaysKeyword word) (hcs : Apart cs) (before : Option Char) :
    writtenNames before (word ++ cs) = writtenNames none cs := by
  rw [writtenNames_append, writtenNames_of_apart hcs]
  intro front c back hword
  rcases List.eq_nil_or_concat front with rfl | ⟨front, d, rfl⟩
  · -- A name at the start would have the whole word for its keyword.
    rw [nameAt?_eq_none_iff]
    rintro name rest ⟨_, said, gap, more, he, hsaid, hne, hblank, _⟩
    have hgap : Gap gap := ⟨hne, hblank⟩
    have htext : word ++ cs = said ++ (gap ++ more) := by
      rw [hword]
      exact he
    have hsame := word_unique hw (SaysKeyword.isWordChar hsaid) hcs (hgap.apart_append more) htext
    exact hk (hsame ▸ hsaid)
  · -- Behind its first character no word starts.
    have hd : isWordChar d = true := hw d (by simp [hword])
    unfold nameAt?
    simp [wordMayStart, hd]

theorem writtenNames_star (before : Option Char) (cs : List Char) :
    writtenNames before ('*' :: cs) = writtenNames (some '*') cs := by
  apply writtenNames_skip
  unfold nameAt?
  rw [show nameAfterKeyword? ('*' :: cs) = none from rfl, ite_self]

/-! ## One table -/

theorem IsAlias.writtenNames_append {word cs : List Char} (h : IsAlias word) (hcs : Apart cs)
    (before : Option Char) : writtenNames before (word ++ cs) = writtenNames none cs :=
  writtenNames_word_append (fun c hc => isWordChar_of_isPartChar (h.isPartChar c hc))
    h.notKeyword hcs before

theorem not_saysKeyword_of_said {word said : List Char} (h : Says word said)
    (hw : word.map folded ≠ "FROM".toList.map folded ∧
      word.map folded ≠ "JOIN".toList.map folded) : ¬ SaysKeyword said := by
  rintro (hfrom | hjoin)
  · exact hw.1 (h.symm.trans hfrom)
  · exact hw.2 (h.symm.trans hjoin)

theorem Aliased.apart_append {tail cs : List Char} (h : Aliased tail) (hcs : Apart cs) :
    Apart (tail ++ cs) := by
  cases h with
  | nil => exact hcs
  | word hgap _ =>
    rw [List.append_assoc]
    exact hgap.apart_append _
  | asWord hgap _ _ _ =>
    rw [List.append_assoc]
    exact hgap.apart_append _

theorem Aliased.writtenNames_append {tail cs : List Char} (h : Aliased tail) (hcs : Apart cs)
    (before : Option Char) : writtenNames before (tail ++ cs) = writtenNames none cs := by
  cases h with
  | nil => exact writtenNames_of_apart hcs before none
  | word hgap hword =>
    rw [List.append_assoc, hgap.writtenNames_append, hword.writtenNames_append hcs]
  | @asWord gap said gap' word hgap hsaid hgap' hword =>
    have hnot : ¬ SaysKeyword said := not_saysKeyword_of_said hsaid (by decide)
    have hchars := isWordChar_of_said (by decide) hsaid
    rw [List.append_assoc, List.append_assoc, List.append_assoc, hgap.writtenNames_append,
      writtenNames_word_append hchars hnot (hgap'.apart_append _), hgap'.writtenNames_append,
      hword.writtenNames_append hcs]

/-- The search finds the table behind the keyword, and goes on behind its alias. -/
theorem Refers.exists_written {name : String} {said cs here : List Char}
    (h : Refers name cs) (hs : SaysKeyword said) (hh : Apart here) :
    ∃ written, WrittenAs name written ∧
      writtenNames none (said ++ (cs ++ here)) = written :: writtenNames none here := by
  obtain ⟨hgap, hwritten, htail⟩ := h
  rename_i gap written tail
  have hbehind : ∀ c ∈ (tail ++ here).head?, isNameChar c = false := by
    intro c hc
    rw [← Bool.not_eq_true]
    intro hnamed
    have hblank := htail.apart_append hh c hc
    rw [isBlank_of_isNameChar hnamed] at hblank
    cases hblank
  have hopens : Opens written (tail ++ here) (written ++ (tail ++ here)) :=
    ⟨rfl, hwritten.ne_nil, hwritten.spells.isNameChar, hbehind⟩
  have hnamed : NamedBehind none [] written (tail ++ here)
      (said ++ (gap ++ (written ++ (tail ++ here)))) :=
    ⟨by simp, said, gap, _, rfl, hs, hgap.notEmpty, hgap.isBlank, hopens⟩
  have hfound : nameAt? none _ = some (written, tail ++ here) := nameAt?_eq_some_iff.mpr hnamed
  refine ⟨written, hwritten, ?_⟩
  rw [List.append_assoc, List.append_assoc, writtenNames_name hfound,
    htail.writtenNames_append hh]

/-! ## All of the tables -/

/-- The search finds a name for each of the tables, and no more. -/
theorem Joins.forall_written {names : List String} {cs said : List Char} (h : Joins names cs)
    (hs : SaysKeyword said) : List.Forall₂ WrittenAs names (writtenNames none (said ++ cs)) := by
  induction h generalizing said with
  | @one name cs hname =>
    have hend : Apart [] := by simp [Apart]
    obtain ⟨written, hwritten, hfound⟩ := hname.exists_written hs hend
    rw [List.append_nil] at hfound
    rw [hfound, writtenNames]
    exact .cons hwritten .nil
  | @join name names cs gap said' rest hname hgap hjoin _ ih =>
    have hapart : Apart (gap ++ (said' ++ rest)) := hgap.apart_append _
    obtain ⟨written, hwritten, hfound⟩ := hname.exists_written hs hapart
    rw [hfound, hgap.writtenNames_append]
    exact .cons hwritten (ih (.inr hjoin))

theorem eraseDups_concat (names : List String) (name : String) :
    (names ++ [name]).eraseDups
      = if name ∈ names then names.eraseDups else names.eraseDups ++ [name] := by
  rw [List.eraseDups_append, List.removeAll, List.filter_singleton]
  by_cases h : name ∈ names
  · simp [h]
  · simp [h, List.eraseDups_cons]

/-- Of the names that are found, each is kept where it comes first. -/
theorem distinctNames_eq_eraseDups {written : List (List Char)}
    (h : ∀ name ∈ written, String.ofList (plainName name) ≠ "") :
    distinctNames written
      = (written.map fun name => String.ofList (plainName name)).eraseDups := by
  induction written using List.reverseRecOn with
  | nil => rfl
  | append_singleton written name ih =>
    obtain ⟨hfront, hname⟩ := List.forall_mem_append.mp h
    have hne := hname name List.mem_cons_self
    have hlast : distinctNames (written ++ [name]) = addName (distinctNames written) name := by
      rw [distinctNames, List.foldl_append]
      rfl
    rw [hlast, ih hfront, List.map_append, List.map_singleton, eraseDups_concat]
    unfold addName
    simp [hne]

theorem distinctNames_of_writtenAs {names : List String} {written : List (List Char)}
    (h : List.Forall₂ WrittenAs names written) : distinctNames written = names.eraseDups := by
  have hall : written.map (fun name => String.ofList (plainName name)) = names ∧
      ∀ name ∈ written, String.ofList (plainName name) ≠ "" := by
    induction h with
    | nil => simp
    | cons hname _ ih =>
      rw [List.map_cons, List.forall_mem_cons, ih.1, hname.plainName_eq]
      exact ⟨rfl, hname.notEmpty, ih.2⟩
  rw [distinctNames_eq_eraseDups hall.2, hall.1]

/-! ## Code without literals and comments -/

/-- No character of the text opens a literal or a comment. -/
def IsBare (cs : List Char) : Prop := ∀ c ∈ cs, isQuote c = false ∧ c ≠ '-' ∧ c ≠ '/'

theorem IsBare.bareCode_eq {cs : List Char} (h : IsBare cs) : bareCode cs = cs := by
  have hall := pass_bareCode.plain_append h []
  rwa [pass_bareCode.nil, List.append_nil] at hall

theorem IsBare.append {cs cs' : List Char} (h : IsBare cs) (h' : IsBare cs') :
    IsBare (cs ++ cs') := List.forall_mem_append.mpr ⟨h, h'⟩

theorem isBare_of_isWordChar {cs : List Char} (h : ∀ c ∈ cs, isWordChar c = true) :
    IsBare cs := by
  intro c hc
  have hother : ∀ d, isWordChar d = false → c ≠ d := by
    rintro _ hd rfl
    rw [h c hc] at hd
    cases hd
  have hquote : isQuote c = false := by
    simp [isQuote, hother '\x27' (by decide), hother '\x22' (by decide)]
  exact ⟨hquote, hother '-' (by decide), hother '/' (by decide)⟩

theorem isBare_of_said {word said : List Char} (hw : word.all isWordChar = true)
    (h : Says word said) : IsBare said := isBare_of_isWordChar (isWordChar_of_said hw h)

theorem Gap.isBare {gap : List Char} (h : Gap gap) : IsBare gap := (mute_of_blank h.isBlank).plain

theorem isBare_of_isPartChar {part : List Char} (h : ∀ c ∈ part, isPartChar c = true) :
    IsBare part := isBare_of_isWordChar fun c hc => isWordChar_of_isPartChar (h c hc)

theorem isBare_singleton {c : Char} (h : isQuote c = false ∧ c ≠ '-' ∧ c ≠ '/') : IsBare [c] :=
  List.forall_mem_singleton.mpr h

theorem Spells.isBare {name written : List Char} (h : Spells name written) : IsBare written := by
  have htick : IsBare [backtick] := isBare_singleton (by decide)
  have hdot : IsBare ['.'] := isBare_singleton (by decide)
  induction h with
  | plain hpart => exact isBare_of_isPartChar hpart
  | quoted hpart => exact htick.append ((isBare_of_isPartChar hpart).append htick)
  | point _ _ ih ih' => exact ih.append (hdot.append ih')

theorem Aliased.isBare {tail : List Char} (h : Aliased tail) : IsBare tail := by
  cases h with
  | nil => simp [IsBare]
  | word hgap hword => exact hgap.isBare.append (isBare_of_isPartChar hword.isPartChar)
  | asWord hgap hsaid hgap' hword =>
    have hbehind := hgap'.isBare.append (isBare_of_isPartChar hword.isPartChar)
    exact hgap.isBare.append ((isBare_of_said (by decide) hsaid).append hbehind)

theorem Refers.isBare {name : String} {cs : List Char} (h : Refers name cs) : IsBare cs := by
  obtain ⟨hgap, hwritten, htail⟩ := h
  exact hgap.isBare.append (hwritten.spells.isBare.append htail.isBare)

theorem Joins.isBare {names : List String} {cs : List Char} (h : Joins names cs) : IsBare cs := by
  induction h with
  | one hname => exact hname.isBare
  | join hname hgap hjoin _ ih =>
    exact hname.isBare.append (hgap.isBare.append ((isBare_of_said (by decide) hjoin).append ih))

theorem ReadsAll.isBare {names : List String} {cs : List Char} (h : ReadsAll names cs) :
    IsBare cs := by
  obtain ⟨hselect, hgap, hgap', hfrom, hjoins⟩ := h
  have hbehind := hgap'.isBare.append ((isBare_of_said (by decide) hfrom).append hjoins.isBare)
  have hstar : IsBare ['*'] := isBare_singleton (by decide)
  exact (isBare_of_said (by decide) hselect).append (hgap.isBare.append (hstar.append hbehind))

/-! ## Statements -/

/-- The search finds nothing in front of `FROM`. -/
theorem ReadsAll.forall_written {names : List String} {cs : List Char} (h : ReadsAll names cs) :
    List.Forall₂ WrittenAs names (writtenNames none cs) := by
  obtain ⟨hselect, hgap, hgap', hfrom, hjoins⟩ := h
  have hnot := not_saysKeyword_of_said hselect (by decide)
  have hchars := isWordChar_of_said (by decide) hselect
  rw [writtenNames_word_append hchars hnot (hgap.apart_append _), hgap.writtenNames_append,
    writtenNames_star, hgap'.writtenNames_append]
  exact hjoins.forall_written (.inl hfrom)

/-- A statement that reads a table and joins further ones names just these, each where it comes
first. No name hides another, not even one that is a keyword itself: plainly written or in
backticks, with an alias or none. -/
theorem every_joined_table_is_found {names : List String} {sql : String}
    (h : ReadsAll names sql.toList) : tableNames sql = names.eraseDups := by
  rw [tableNames, h.isBare.bareCode_eq]
  exact distinctNames_of_writtenAs h.forall_written

/-- Tables whose names are the three keywords, an alias that starts like one of them, and a name
that is written in two ways. -/
theorem keywords_can_be_the_names_of_tables :
    let sql := "sElect\t* fROM\n`from`.a JOIN1 join JOIN AS as  Join `AS` JOIN from.a"
    let names := ["from.a", "JOIN", "AS", "from.a"]
    ReadsAll names sql.toList ∧ tableNames sql = names.eraseDups ∧
      names.eraseDups = ["from.a", "JOIN", "AS"] := by
  intro sql names
  have hpart : ∀ {part : List Char}, part.all isPartChar = true →
      ∀ c ∈ part, isPartChar c = true := List.all_eq_true.mp
  have hgap : ∀ {cs : List Char}, cs ≠ [] → cs.all isBlank = true → Gap cs :=
    fun hne hall => ⟨hne, List.all_eq_true.mp hall⟩
  have halias : ∀ {word : List Char}, word ≠ [] → word.all isPartChar = true →
      ¬ SaysKeyword word → IsAlias word := fun hne hall hnot => ⟨hne, hpart hall, hnot⟩
  have hspace : Gap " ".toList := hgap (by decide) (by decide)
  have hspaces : Gap "  ".toList := hgap (by decide) (by decide)
  have hfeed : Gap "\n".toList := hgap (by decide) (by decide)
  have htab : Gap "\t".toList := hgap (by decide) (by decide)
  have hticks : Spells "from".toList "`from`".toList := .quoted (hpart (by decide))
  have hquoted : Spells "from.a".toList "`from`.a".toList :=
    .point hticks (.plain (hpart (by decide)))
  have hfirst : Refers "from.a"
      ("\n".toList ++ ("`from`.a".toList ++ (" ".toList ++ "JOIN1".toList))) :=
    .intro hfeed ⟨by decide, hquoted⟩
      (.word hspace (halias (by decide) (by decide) (by decide)))
  have hsecond : Refers "JOIN" (" ".toList ++ ("JOIN".toList ++
      (" ".toList ++ ("AS".toList ++ (" ".toList ++ "as".toList))))) :=
    .intro hspace ⟨by decide, .plain (hpart (by decide))⟩
      (.asWord hspace (by decide) hspace (halias (by decide) (by decide) (by decide)))
  have hthird : Refers "AS" (" ".toList ++ ("`AS`".toList ++ [])) :=
    .intro hspace ⟨by decide, .quoted (hpart (by decide))⟩ .nil
  have hplain : Spells ("from".toList ++ ".a".toList) ("from".toList ++ ".a".toList) :=
    spells_self (hpart (by decide)) (by simp [isPartChar])
  have hlast : Refers "from.a" (" ".toList ++ ("from.a".toList ++ [])) :=
    .intro hspace ⟨by decide, hplain⟩ .nil
  have hone : Says "JOIN".toList "join".toList := by decide
  have htwo : Says "JOIN".toList "Join".toList := by decide
  have hthree : Says "JOIN".toList "JOIN".toList := by decide
  have hjoins := Joins.join hfirst hspace hone
    (.join hsecond hspaces htwo (.join hthird hspace hthree (.one hlast)))
  have hselect : Says "SELECT".toList "sElect".toList := by decide
  have hfrom : Says "FROM".toList "fROM".toList := by decide
  have hreads : ReadsAll names sql.toList := by
    convert ReadsAll.intro hselect htab hspace hfrom hjoins using 1
    decide
  exact ⟨hreads, every_joined_table_is_found hreads, by decide⟩

end QueryReview.Statement
