-- The tables that a statement names. What the search for them finds is said here without the
-- search: a name stands behind a keyword and white space, it is as long as it can be, and the next
-- one is looked for behind it. Of the names that are found, each is kept where it comes first.
-- Their characters are the plain ones of ASCII, but for two letters that are the same as one of
-- these when case does not count.
import Mathlib.Data.List.Induction
import QueryReview.Proofs.Statement.Rules
import QueryReview.Statement.TableNames

namespace QueryReview.Statement

open Text

/-! ## A name behind a keyword -/

/-- The text starts with the name, and the rest follows the whole of it. -/
def Opens (name rest cs : List Char) : Prop :=
  cs = name ++ rest ∧ name ≠ [] ∧ (∀ c ∈ name, isNameChar c = true) ∧
    ∀ c ∈ rest.head?, isNameChar c = false

/-- The text starts with a keyword, in any case, white space and the name. -/
def Introduces (name rest cs : List Char) : Prop :=
  ∃ said gap more, cs = said ++ (gap ++ more) ∧
    (Says "FROM".toList said ∨ Says "JOIN".toList said) ∧
    gap ≠ [] ∧ (∀ c ∈ gap, isBlank c = true) ∧ Opens name rest more

/-- No text starts with both keywords. -/
theorem not_says_both {cs cs' rest rest' : List Char} (h : Says "FROM".toList cs)
    (h' : Says "JOIN".toList cs') : cs ++ rest ≠ cs' ++ rest' := by
  intro he
  cases cs with
  | nil => cases h
  | cons c cs =>
    cases cs' with
    | nil => cases h'
    | cons d cs' =>
      obtain ⟨rfl, _⟩ := List.cons.inj he
      have hfirst : folded 'F' = folded 'J' := (List.cons.inj h).1.symm.trans (List.cons.inj h').1
      exact absurd hfirst (by decide)

theorem afterKeyword_eq_some_iff {cs rest : List Char} :
    ((afterWord? "FROM".toList cs).orElse fun _ => afterWord? "JOIN".toList cs) = some rest ↔
      ∃ said, cs = said ++ rest ∧ (Says "FROM".toList said ∨ Says "JOIN".toList said) := by
  have hfrom : ∀ {rest}, afterWord? "FROM".toList cs = some rest ↔
      ∃ said, cs = said ++ rest ∧ Says "FROM".toList said := afterWord?_eq_some_iff (by decide)
  have hjoin : afterWord? "JOIN".toList cs = some rest ↔
      ∃ said, cs = said ++ rest ∧ Says "JOIN".toList said := afterWord?_eq_some_iff (by decide)
  simp only [and_or_left, exists_or, ← hfrom, ← hjoin]
  cases h : afterWord? "FROM".toList cs with
  | none => simp [Option.orElse]
  | some rest' =>
    obtain ⟨said, rfl, hsaid⟩ := hfrom.mp h
    have hnot : ¬ afterWord? "JOIN".toList (said ++ rest') = some rest := by
      rw [hjoin]
      rintro ⟨said', he, hsaid'⟩
      exact not_says_both hsaid hsaid' he
    rw [or_iff_left hnot]
    rfl

theorem isBlank_of_isNameChar {c : Char} (h : isNameChar c = true) : isBlank c = false := by
  simp only [isNameChar, Bool.or_eq_true, beq_iff_eq] at h
  rcases h with (((((h | rfl) | rfl) | rfl) | rfl) | rfl) | rfl
  · rw [← Bool.not_eq_true]
    intro hblank
    have hword := isWordChar_of_isAlphanum h
    rw [isWordChar_of_isBlank hblank] at hword
    cases hword
  all_goals decide

theorem opens_iff {name rest cs : List Char} :
    Opens name rest cs ↔
      name ≠ [] ∧ cs.takeWhile isNameChar = name ∧ cs.dropWhile isNameChar = rest := by
  rw [takeWhile_dropWhile_iff, Opens]
  exact and_left_comm

theorem not_isBlank_of_opens {name rest cs : List Char} (h : Opens name rest cs) :
    ∀ c ∈ cs.head?, isBlank c = false := by
  obtain ⟨rfl, hne, hname, _⟩ := h
  obtain ⟨c, more, rfl⟩ := List.exists_cons_of_ne_nil hne
  rintro _ ⟨⟩
  exact isBlank_of_isNameChar (hname c List.mem_cons_self)

/-- The name is read behind a keyword and one character of white space at least. -/
theorem nameAfterKeyword?_eq_some {cs name rest : List Char} :
    nameAfterKeyword? cs = some (name, rest) ↔ ∃ c more,
      ((afterWord? "FROM".toList cs).orElse fun _ => afterWord? "JOIN".toList cs)
        = some (c :: more) ∧ isBlank c = true ∧ Opens name rest (trimStart more) := by
  simp only [opens_iff]
  unfold nameAfterKeyword?
  split
  · rename_i c more h
    have hone : ∀ P : Char → List Char → Prop,
        (∃ c' more', some (c :: more) = some (c' :: more') ∧ P c' more') ↔ P c more := by
      simp
    rw [h, hone]
    by_cases hc : isBlank c = true
    · rw [if_pos hc, and_iff_right hc]
      cases (trimStart more).takeWhile isNameChar with
      | nil =>
        refine iff_of_false (by simp) ?_
        rintro ⟨hne, rfl, _⟩
        exact hne rfl
      | cons d ds =>
        simp only [Option.some.injEq, Prod.mk.injEq]
        refine (and_iff_right_of_imp ?_).symm
        rintro ⟨rfl, _⟩
        simp
    · rw [if_neg hc]
      simp [hc]
  · rename_i h
    refine iff_of_false (by simp) ?_
    rintro ⟨c, more, hrest, _⟩
    exact h c more hrest

theorem nameAfterKeyword?_eq_some_iff {cs name rest : List Char} :
    nameAfterKeyword? cs = some (name, rest) ↔ Introduces name rest cs := by
  have htrim : ∀ {more}, Opens name rest (trimStart more) ↔ _ :=
    trimStart_iff fun _ => not_isBlank_of_opens
  rw [nameAfterKeyword?_eq_some]
  simp only [afterKeyword_eq_some_iff, htrim]
  constructor
  · rintro ⟨c, _, ⟨said, rfl, hsaid⟩, hc, gap, more, rfl, hgap, hopens⟩
    exact ⟨said, c :: gap, more, rfl, hsaid, by simp, List.forall_mem_cons.mpr ⟨hc, hgap⟩, hopens⟩
  · rintro ⟨said, gap, more, rfl, hsaid, hne, hgap, hopens⟩
    obtain ⟨c, gap, rfl⟩ := List.exists_cons_of_ne_nil hne
    obtain ⟨hc, hgap⟩ := List.forall_mem_cons.mp hgap
    exact ⟨c, gap ++ more, ⟨said, rfl, hsaid⟩, hc, gap, more, rfl, hgap, hopens⟩

/-! ## The names of a text -/

/-- A word may start behind the front, and a name is introduced there. `before` is the character in
front of it all. -/
def NamedBehind (before : Option Char) (front name rest here : List Char) : Prop :=
  (∀ c ∈ front.getLast?.or before, isWordChar c = false) ∧ Introduces name rest here

/-- The names that the text mentions, as they are written. Each is introduced at the first place
where one is, and the next one is looked for behind it: a keyword that is read as a name introduces
none. -/
inductive Mentions : Option Char → List Char → List (List Char) → Prop
  | done {before : Option Char} {cs : List Char}
      (nowhere : ∀ front here name rest, cs = front ++ here →
        ¬ NamedBehind before front name rest here) :
      Mentions before cs []
  | next {before : Option Char} {front here name rest : List Char} {names : List (List Char)}
      (named : NamedBehind before front name rest here)
      (first : ∀ front' here' name' rest', front ++ here = front' ++ here' →
        front'.length < front.length → ¬ NamedBehind before front' name' rest' here')
      (more : Mentions name.getLast? rest names) :
      Mentions before (front ++ here) (name :: names)

theorem nameAt?_eq_some_iff {before : Option Char} {front name rest here : List Char} :
    nameAt? (front.getLast?.or before) here = some (name, rest) ↔
      NamedBehind before front name rest here := by
  unfold nameAt? NamedBehind
  rw [← wordMayStart_iff, ← nameAfterKeyword?_eq_some_iff]
  by_cases h : wordMayStart (front.getLast?.or before) = true
  · rw [if_pos h, and_iff_right h]
  · simp [h]

theorem nameAt?_eq_none_iff {before : Option Char} {front here : List Char} :
    nameAt? (front.getLast?.or before) here = none ↔
      ∀ name rest, ¬ NamedBehind before front name rest here := by
  simp only [← nameAt?_eq_some_iff, Option.eq_none_iff_forall_ne_some, Prod.forall, ne_eq]

theorem writtenNames_name {before : Option Char} {cs name rest : List Char}
    (h : nameAt? before cs = some (name, rest)) :
    writtenNames before cs = name :: writtenNames name.getLast? rest := by
  cases cs with
  | nil => simp [nameAt?, nameAfterKeyword?, afterWord?] at h
  | cons c cs =>
    rw [writtenNames]
    split
    · rename_i h'
      rw [h] at h'
      cases h'
      rfl
    · rename_i h'
      rw [h] at h'
      cases h'

theorem writtenNames_skip {before : Option Char} {c : Char} {cs : List Char}
    (h : nameAt? before (c :: cs) = none) :
    writtenNames before (c :: cs) = writtenNames (some c) cs := by
  rw [writtenNames]
  split
  · rename_i h'
    rw [h] at h'
    cases h'
  · rfl

theorem writtenNames_congr {before before' : Option Char}
    (h : wordMayStart before = wordMayStart before') (cs : List Char) :
    writtenNames before cs = writtenNames before' cs := by
  cases cs with
  | nil => rw [writtenNames, writtenNames]
  | cons c cs =>
    have hsame : nameAt? before (c :: cs) = nameAt? before' (c :: cs) := by
      unfold nameAt?
      rw [h]
    cases hname : nameAt? before' (c :: cs) with
    | none =>
      rw [hname] at hsame
      rw [writtenNames_skip hname, writtenNames_skip hsame]
    | some r =>
      rw [hname] at hsame
      rw [writtenNames_name hname, writtenNames_name hsame]

/-- A front is passed over when a name starts at none of its characters. -/
theorem writtenNames_append {before : Option Char} {front here : List Char}
    (h : ∀ front' c back, front = front' ++ c :: back →
      nameAt? (front'.getLast?.or before) (c :: (back ++ here)) = none) :
    writtenNames before (front ++ here) = writtenNames (front.getLast?.or before) here := by
  induction front generalizing before with
  | nil => rfl
  | cons c front ih =>
    have hnone : nameAt? before (c :: (front ++ here)) = none := h [] c front rfl
    rw [List.cons_append, writtenNames_skip hnone, ih, getLast?_cons_or]
    intro front' d back hfront
    rw [← getLast?_cons_or c front' before]
    exact h (c :: front') d back (congrArg (c :: ·) hfront)

/-- A place behind a first character is one behind that character. -/
theorem namedBehind_cons_iff {before : Option Char} {c : Char} {front name rest here : List Char} :
    NamedBehind before (c :: front) name rest here ↔ NamedBehind (some c) front name rest here := by
  rw [NamedBehind, NamedBehind, getLast?_cons_or]

theorem not_namedBehind_nil {before : Option Char} {front name rest : List Char} :
    ¬ NamedBehind before front name rest [] := by
  rintro ⟨_, said, gap, more, hcs, _, hne, _⟩
  obtain ⟨_, hmore⟩ := List.append_eq_nil_iff.mp hcs.symm
  exact hne (List.append_eq_nil_iff.mp hmore).1

/-- A character that starts no name is skipped. -/
theorem Mentions.skip {before : Option Char} {c : Char} {cs : List Char}
    {names : List (List Char)} (hc : nameAt? before (c :: cs) = none)
    (h : Mentions (some c) cs names) : Mentions before (c :: cs) names := by
  have hnone : ∀ name rest, ¬ NamedBehind before [] name rest (c :: cs) :=
    nameAt?_eq_none_iff.mp hc
  cases h with
  | done nowhere =>
    refine .done fun front here name rest he => ?_
    cases front with
    | nil =>
      cases he
      exact hnone name rest
    | cons d front =>
      obtain ⟨rfl, hcs⟩ := List.cons.inj he
      rw [namedBehind_cons_iff]
      exact nowhere front here name rest hcs
  | next named first more =>
    rename_i front here name rest names
    rw [← List.cons_append]
    refine .next (namedBehind_cons_iff.mpr named) ?_ more
    intro front' here' name' rest' he hlen
    cases front' with
    | nil =>
      cases he
      exact hnone name' rest'
    | cons d front' =>
      obtain ⟨rfl, hcs⟩ := List.cons.inj he
      rw [namedBehind_cons_iff]
      exact first front' here' name' rest' hcs (Nat.lt_of_succ_lt_succ hlen)

theorem mentions_writtenNames (before : Option Char) (cs : List Char) :
    Mentions before cs (writtenNames before cs) := by
  fun_induction writtenNames before cs with
  | case1 before =>
    refine .done fun front here name rest he => ?_
    obtain ⟨rfl, rfl⟩ := List.append_eq_nil_iff.mp he.symm
    exact not_namedBehind_nil
  | case2 before c cs name rest h ih =>
    rw [← List.nil_append (c :: cs)]
    have hnamed : NamedBehind before [] name rest (c :: cs) := nameAt?_eq_some_iff.mp h
    refine .next hnamed ?_ ih
    intro front' here' name' rest' _ hlen
    exact absurd hlen (Nat.not_lt_zero _)
  | case3 before c cs h ih => exact ih.skip h

/-- The search finds the names that the text mentions, and there are no others. -/
theorem mentions_iff {before : Option Char} {cs : List Char} {names : List (List Char)} :
    Mentions before cs names ↔ names = writtenNames before cs := by
  refine ⟨fun h => ?_, fun h => h ▸ mentions_writtenNames before cs⟩
  induction h with
  | done nowhere =>
    rename_i before cs
    rw [← List.append_nil cs, writtenNames_append, writtenNames]
    intro front c back hcs
    rw [nameAt?_eq_none_iff, List.append_nil]
    exact fun name rest => nowhere front _ name rest hcs
  | next named first more ih =>
    rename_i before front here name rest names
    rw [writtenNames_append, writtenNames_name (nameAt?_eq_some_iff.mpr named), ih]
    rintro front' c back rfl
    rw [nameAt?_eq_none_iff]
    exact fun name' rest' => first front' _ name' rest' (by simp) (by simp)

/-- A name that is mentioned is a part of the text, and has characters of a name alone. -/
theorem Mentions.isInfix {before : Option Char} {cs : List Char} {names : List (List Char)}
    (h : Mentions before cs names) :
    ∀ name ∈ names, name <:+: cs ∧ name ≠ [] ∧ ∀ c ∈ name, isNameChar c = true := by
  induction h with
  | done => simp
  | next named first more ih =>
    rename_i before front here name rest names
    obtain ⟨_, said, gap, _, rfl, _, _, _, rfl, hne, hname, _⟩ := named
    have hhere : name <:+: front ++ (said ++ (gap ++ (name ++ rest))) :=
      ⟨front ++ (said ++ gap), rest, by simp⟩
    have hrest : rest <:+: front ++ (said ++ (gap ++ (name ++ rest))) :=
      ⟨front ++ (said ++ (gap ++ name)), [], by simp⟩
    rw [List.forall_mem_cons]
    refine ⟨⟨hhere, hne, hname⟩, fun name' hmem => ?_⟩
    obtain ⟨hpart, hne', hname'⟩ := ih name' hmem
    exact ⟨hpart.trans hrest, hne', hname'⟩

/-! ## The names that are kept -/

/-- The name without its backticks. -/
def unquoted (written : List Char) : String := String.ofList (written.filter (· != backtick))

/-- Of the names that are mentioned, each that is not empty is listed once, in the order in which
they are mentioned first. -/
structure ListedOnce (mentioned names : List String) : Prop where
  distinct : names.Nodup
  mem_iff : ∀ name, name ∈ names ↔ name ≠ "" ∧ name ∈ mentioned
  ordered : names.Pairwise fun a b => mentioned.idxOf a < mentioned.idxOf b

theorem plainName_eq_unquoted {written : List Char} (h : ∀ c ∈ written, isNameChar c = true) :
    String.ofList (plainName written) = unquoted written := by
  have hblank : ∀ c ∈ written.filter (· != backtick), isBlank c = false :=
    fun c hc => isBlank_of_isNameChar (h c (List.mem_filter.mp hc).1)
  have htrim : trim (written.filter (· != backtick)) = written.filter (· != backtick) :=
    trim_eq_self (fun c hc => hblank c (List.mem_of_mem_head? hc))
      fun c hc => hblank c (List.mem_of_mem_getLast? hc)
  rw [plainName, htrim, unquoted]

/-- A name more is listed at the end, unless it is there already. -/
theorem ListedOnce.addName {mentioned names : List String} (h : ListedOnce mentioned names)
    (written : List Char) :
    ListedOnce (mentioned ++ [String.ofList (plainName written)]) (addName names written) := by
  unfold Statement.addName
  generalize String.ofList (plainName written) = name
  have hold : ∀ a ∈ names, a ∈ mentioned := fun a ha => ((h.mem_iff a).mp ha).2
  have hidx : ∀ a ∈ names, (mentioned ++ [name]).idxOf a = mentioned.idxOf a :=
    fun a ha => List.idxOf_append_of_mem (hold a ha)
  have hordered : names.Pairwise fun a b =>
      (mentioned ++ [name]).idxOf a < (mentioned ++ [name]).idxOf b := by
    refine h.ordered.imp_of_mem fun ha hb hlt => ?_
    rwa [hidx _ ha, hidx _ hb]
  by_cases hskip : name = "" ∨ name ∈ names
  · rw [if_pos (by simpa using hskip)]
    refine ⟨h.distinct, fun a => ?_, hordered⟩
    rw [h.mem_iff, List.mem_append, List.mem_singleton]
    refine and_congr_right fun hne => (or_iff_left_of_imp ?_).symm
    rintro rfl
    exact hold a (hskip.resolve_left hne)
  · obtain ⟨hne, hnew⟩ := not_or.mp hskip
    rw [if_neg (by simpa using hskip)]
    have hfresh : name ∉ mentioned := fun hmem => hnew ((h.mem_iff name).mpr ⟨hne, hmem⟩)
    refine ⟨?_, fun a => ?_, ?_⟩
    · refine List.nodup_append.mpr ⟨h.distinct, List.pairwise_singleton _ _, ?_⟩
      rintro a ha b hb rfl
      exact hnew (List.mem_singleton.mp hb ▸ ha)
    · rw [List.mem_append, List.mem_append, List.mem_singleton, h.mem_iff, and_or_left]
      refine or_congr_right (iff_and_self.mpr ?_)
      rintro rfl
      exact hne
    · refine List.pairwise_append.mpr ⟨hordered, List.pairwise_singleton _ _, ?_⟩
      intro a ha b hb
      obtain rfl := List.mem_singleton.mp hb
      rw [hidx a ha, List.idxOf_append_of_notMem hfresh]
      exact Nat.lt_add_right _ (List.idxOf_lt_length_iff.mpr (hold a ha))

theorem listedOnce_distinctNames (written : List (List Char)) :
    ListedOnce (written.map fun name => String.ofList (plainName name))
      (distinctNames written) := by
  induction written using List.reverseRecOn with
  | nil => exact ⟨.nil, by simp [distinctNames], .nil⟩
  | append_singleton written name ih =>
    rw [List.map_append, List.map_singleton, distinctNames, List.foldl_append]
    exact ih.addName name

/-! ## The tables -/

/-- A character of a name as the documents have it: a letter or digit of ASCII, an underscore, a
point or a hyphen. -/
def isPlainNameChar (c : Char) : Bool := c.isAlphanum || c == '_' || c == '.' || c == '-'

/-- Two letters beyond ASCII may stand in a name, as they are the same as an `s` and a `k` when case
does not count. -/
theorem isNameChar_iff {c : Char} :
    isNameChar c = true ↔ isPlainNameChar c = true ∨ c = backtick ∨ c = longS ∨ c = kelvin := by
  simp only [isNameChar, isPlainNameChar, Bool.or_eq_true, beq_iff_eq]
  tauto

/-- The tables of a statement are the names that its code mentions after a keyword, without their
backticks: the ones that are not empty, each once, in the order in which they are mentioned first.
They are made of plain characters, and of long s and kelvin signs where the code has these. -/
theorem the_tables_are_the_names_after_keywords (sql : String) :
    (∃ written, (∀ names, Mentions none (bareCode sql.toList) names ↔ names = written) ∧
      ListedOnce (written.map unquoted) (tableNames sql)) ∧
    ∀ name ∈ tableNames sql, ∀ c ∈ name.toList,
      isPlainNameChar c = true ∨ c ∈ bareCode sql.toList ∧ (c = longS ∨ c = kelvin) := by
  have hmentions := mentions_writtenNames none (bareCode sql.toList)
  have hlisted : ListedOnce ((writtenNames none (bareCode sql.toList)).map unquoted)
      (tableNames sql) := by
    have h := listedOnce_distinctNames (writtenNames none (bareCode sql.toList))
    rwa [List.map_congr_left fun name hmem =>
      plainName_eq_unquoted (hmentions.isInfix name hmem).2.2] at h
  refine ⟨⟨_, fun _ => mentions_iff, hlisted⟩, fun name hmem c hc => ?_⟩
  obtain ⟨_, hmem⟩ := (hlisted.mem_iff name).mp hmem
  obtain ⟨written, hwritten, rfl⟩ := List.mem_map.mp hmem
  obtain ⟨hpart, _, hchars⟩ := hmentions.isInfix written hwritten
  rw [unquoted, String.toList_ofList, List.mem_filter] at hc
  obtain ⟨hc, hquote⟩ := hc
  rcases isNameChar_iff.mp (hchars c hc) with hplain | rfl | hfolded
  · exact .inl hplain
  · simp at hquote
  · exact .inr ⟨hpart.subset hc, hfolded⟩

/-- A name that starts with a long s. -/
theorem a_long_s_gets_into_a_name :
    ∃ sql name c, name ∈ tableNames sql ∧ c ∈ name.toList ∧ isPlainNameChar c = false := by
  refine ⟨"SELECT * FROM \u017fhop", "\u017fhop", longS, ?_, ?_, ?_⟩
  · decide +kernel
  · decide
  · decide

end QueryReview.Statement
