-- The small form of a text inside a longer one. Each character has one small form wherever it
-- stands, but for the capital sigma: it hangs on the nearest characters that count, on both sides,
-- whether it ends a word. So a text has one small form in all places exactly when neither its first
-- nor its last character that counts is a sigma that could begin or stop to end a word there.
import QueryReview.Proofs.Text.Find
import QueryReview.Text.Lower

namespace QueryReview.Text

/-! ## A text between two others -/

/-- A sigma between the two texts ends a word, where `before` has its last character first. -/
def endsWord (before after : List Char) : Bool := nextIsCased before && !nextIsCased after

/-- The small form of a character between two texts. -/
def lowerAt (before : List Char) (c : Char) (after : List Char) : List Char :=
  if c = sigma then [if endsWord before after then '\u03c2' else '\u03c3'] else lowerChar c

/-- The small form of a text between two others. -/
def lowerBetween (before : List Char) : List Char → List Char → List Char
  | [], _ => []
  | c :: cs, after => lowerAt before c (cs ++ after) ++ lowerBetween (c :: before) cs after

theorem lowerAfter_cons (before : List Char) (c : Char) (cs : List Char) :
    lowerAfter before (c :: cs) = lowerAt before c cs ++ lowerAfter (c :: before) cs := by
  rw [lowerAfter, lowerAt]
  split
  · rfl
  · rfl

theorem lowerAfter_append (before cs after : List Char) :
    lowerAfter before (cs ++ after)
      = lowerBetween before cs after ++ lowerAfter (cs.reverse ++ before) after := by
  induction cs generalizing before with
  | nil => rfl
  | cons c cs ih =>
    rw [List.cons_append, lowerAfter_cons, ih, lowerBetween]
    simp

theorem lower_eq_lowerBetween (cs : List Char) : lower cs = lowerBetween [] cs [] := by
  have h := lowerAfter_append [] cs []
  rw [List.append_nil] at h
  rw [lower, h]
  exact List.append_nil _

theorem lowerBetween_append (before front back after : List Char) :
    lowerBetween before (front ++ back) after
      = lowerBetween before front (back ++ after)
        ++ lowerBetween (front.reverse ++ before) back after := by
  induction front generalizing before with
  | nil => rfl
  | cons c front ih => simp [lowerBetween, ih]

/-- A text has the same small form in two places where its sigmas do. -/
theorem lowerBetween_congr {before before' cs after after' : List Char}
    (h : ∀ front back, cs = front ++ sigma :: back →
      endsWord (front.reverse ++ before) (back ++ after)
        = endsWord (front.reverse ++ before') (back ++ after')) :
    lowerBetween before cs after = lowerBetween before' cs after' := by
  induction cs generalizing before before' with
  | nil => rfl
  | cons c cs ih =>
    have hhead : lowerAt before c (cs ++ after) = lowerAt before' c (cs ++ after') := by
      unfold lowerAt
      split
      · rename_i hc
        have hends := h [] cs (by rw [hc, List.nil_append])
        simp only [List.reverse_nil, List.nil_append] at hends
        rw [hends]
      · rfl
    rw [lowerBetween, lowerBetween, hhead, ih]
    intro front back he
    have hends := h (c :: front) back (by rw [he, List.cons_append])
    simpa using hends

theorem lowerBetween_of_not_mem {cs : List Char} (h : sigma ∉ cs)
    (before before' after after' : List Char) :
    lowerBetween before cs after = lowerBetween before' cs after' :=
  lowerBetween_congr fun front back he => absurd (by rw [he]; simp) h

/-! ## The nearest character that counts -/

theorem nextIsCased_append (cs ds : List Char) :
    nextIsCased (cs ++ ds)
      = if cs.all isCaseIgnorable then nextIsCased ds else nextIsCased cs := by
  induction cs with
  | nil => rfl
  | cons c cs ih =>
    by_cases hc : isCaseIgnorable c = true
    · simpa [nextIsCased, hc] using ih
    · simp [nextIsCased, hc]

theorem nextIsCased_of_all {cs : List Char} (h : cs.all isCaseIgnorable = true) :
    nextIsCased cs = false := by
  have happend := nextIsCased_append cs []
  rw [if_pos h, List.append_nil] at happend
  exact happend

theorem not_isCaseIgnorable_sigma : isCaseIgnorable sigma = false := by decide +kernel

theorem sigma_not_mem {cs : List Char} (h : cs.all isCaseIgnorable = true) : sigma ∉ cs := by
  intro hmem
  have hsigma := List.all_eq_true.mp h sigma hmem
  rw [not_isCaseIgnorable_sigma] at hsigma
  cases hsigma

theorem nextIsCased_append_of_counts {cs : List Char} (h : cs.all isCaseIgnorable = false)
    (ds : List Char) : nextIsCased (cs ++ ds) = nextIsCased cs := by
  rw [nextIsCased_append, if_neg (by rw [h]; simp)]

/-- A sigma counts, so it makes no difference what stands behind it. -/
theorem nextIsCased_sigma (front more more' : List Char) :
    nextIsCased (front ++ sigma :: more) = nextIsCased (front ++ sigma :: more') := by
  have hcounts : (front ++ [sigma]).all isCaseIgnorable = false := by
    simp [not_isCaseIgnorable_sigma]
  have hfront : ∀ more, nextIsCased (front ++ sigma :: more) = nextIsCased (front ++ [sigma]) := by
    intro more
    rw [← nextIsCased_append_of_counts hcounts more, List.append_assoc]
    rfl
  rw [hfront more, hfront more']

/-! ## Sigmas that keep their form -/

/-- Between the two texts the sigmas of the text have the form that they have in the text alone. -/
def KeepsSigmas (before cs after : List Char) : Prop :=
  ∀ front back, cs = front ++ sigma :: back →
    endsWord (front.reverse ++ before.reverse) (back ++ after) = endsWord front.reverse back

/-- A text whose sigmas keep their form is found by its small form. -/
theorem KeepsSigmas.lower_isInfix {before cs after : List Char} (h : KeepsSigmas before cs after) :
    lower cs <:+: lower (before ++ cs ++ after) := by
  have hkept : lowerBetween before.reverse cs after = lower cs := by
    rw [lower_eq_lowerBetween]
    refine lowerBetween_congr fun front back he => ?_
    rw [h front back he, List.append_nil, List.append_nil]
  rw [lower_eq_lowerBetween (before ++ cs ++ after), lowerBetween_append, lowerBetween_append,
    List.append_nil, List.append_nil, hkept]
  exact ⟨_, _, rfl⟩

/-- What follows the first character that counts, when that is a sigma. -/
def behindSigma? (cs : List Char) : Option (List Char) :=
  match cs.dropWhile isCaseIgnorable with
  | [] => none
  | c :: back => if c = sigma then some back else none

/-- The first character that counts is a sigma, and the next one is not cased. It would end a word
if a letter stood in front of the text. -/
def opensWithSigma (cs : List Char) : Bool := (behindSigma? cs).any fun back => !nextIsCased back

/-- The last character that counts is a sigma, and the one in front of it is cased. It would not end
a word if a letter stood behind the text. -/
def closesWithSigma (cs : List Char) : Bool := (behindSigma? cs.reverse).any nextIsCased

/-- The text has a sigma whose small form hangs on what the text stands in. -/
def hasOpenSigma (cs : List Char) : Bool := opensWithSigma cs || closesWithSigma cs

theorem behindSigma?_eq_some_iff {cs back : List Char} :
    behindSigma? cs = some back ↔
      ∃ front, cs = front ++ sigma :: back ∧ front.all isCaseIgnorable = true := by
  unfold behindSigma?
  constructor
  · intro h
    split at h
    · cases h
    · rename_i c rest hdrop
      obtain ⟨rfl, hrest⟩ := Option.ite_none_right_eq_some.mp h
      obtain rfl := Option.some.inj hrest
      refine ⟨cs.takeWhile isCaseIgnorable, ?_, List.all_takeWhile⟩
      rw [← hdrop, List.takeWhile_append_dropWhile]
  · rintro ⟨front, rfl, hall⟩
    rw [List.dropWhile_append_of_pos (List.all_eq_true.mp hall),
      List.dropWhile_cons_of_neg (by simp [not_isCaseIgnorable_sigma])]
    exact if_pos rfl

theorem opensWithSigma_iff {cs : List Char} :
    opensWithSigma cs = true ↔ ∃ front back, cs = front ++ sigma :: back ∧
      front.all isCaseIgnorable = true ∧ nextIsCased back = false := by
  simp only [opensWithSigma, Option.any_eq_true, behindSigma?_eq_some_iff, Bool.not_eq_true']
  constructor
  · rintro ⟨back, ⟨front, he, hall⟩, hcased⟩
    exact ⟨front, back, he, hall, hcased⟩
  · rintro ⟨front, back, he, hall, hcased⟩
    exact ⟨back, ⟨front, he, hall⟩, hcased⟩

theorem closesWithSigma_iff {cs : List Char} :
    closesWithSigma cs = true ↔ ∃ front back, cs = front ++ sigma :: back ∧
      back.all isCaseIgnorable = true ∧ nextIsCased front.reverse = true := by
  simp only [closesWithSigma, Option.any_eq_true, behindSigma?_eq_some_iff]
  constructor
  · rintro ⟨front, ⟨back, he, hall⟩, hcased⟩
    refine ⟨front.reverse, back.reverse, ?_, by rwa [List.all_reverse], by
      rwa [List.reverse_reverse]⟩
    rw [← List.reverse_reverse cs, he]
    simp
  · rintro ⟨front, back, rfl, hall, hcased⟩
    exact ⟨front.reverse, ⟨back.reverse, by simp, by rwa [List.all_reverse]⟩, hcased⟩

/-- The sigmas of a text keep their form everywhere when none of them is open. -/
theorem keepsSigmas_of_closed {cs : List Char} (h : hasOpenSigma cs = false)
    (before after : List Char) : KeepsSigmas before cs after := by
  rw [hasOpenSigma, Bool.or_eq_false_iff, ← Bool.not_eq_true, ← Bool.not_eq_true,
    opensWithSigma_iff, closesWithSigma_iff] at h
  obtain ⟨hopens, hcloses⟩ := h
  intro front back he
  have hback : front.all isCaseIgnorable = true → nextIsCased back = true := by
    intro hall
    rw [← Bool.not_eq_false]
    exact fun hcased => hopens ⟨front, back, he, hall, hcased⟩
  have hfront : back.all isCaseIgnorable = true → nextIsCased front.reverse = false := by
    intro hall
    rw [← Bool.not_eq_true]
    exact fun hcased => hcloses ⟨front, back, he, hall, hcased⟩
  unfold endsWord
  rw [nextIsCased_append, nextIsCased_append, List.all_reverse]
  by_cases hf : front.all isCaseIgnorable = true
  · have hcased := hback hf
    have hb : ¬ back.all isCaseIgnorable = true := fun hall => by
      rw [nextIsCased_of_all hall] at hcased
      cases hcased
    rw [if_neg hb, hcased]
    simp
  · rw [if_neg hf]
    by_cases hb : back.all isCaseIgnorable = true
    · rw [hfront hb]
      rfl
    · rw [if_neg hb]

/-! ## Sigmas that change their form -/

/-- A sigma hides what is behind it from what is in front of it, and the other way round. So the text
around it stays as it is in small letters when no other sigma meets the change. -/
theorem lowerBetween_around_sigma {before front back after : List Char}
    (hf : sigma ∉ front ∨ before = []) (hb : sigma ∉ back ∨ after = []) :
    lowerBetween before (front ++ sigma :: back) after
      = lowerBetween [] front [sigma]
        ++ (if endsWord (front.reverse ++ before) (back ++ after) then '\u03c2' else '\u03c3')
          :: lowerBetween [sigma] back [] := by
  have hfront : lowerBetween before front (sigma :: (back ++ after))
      = lowerBetween [] front [sigma] := by
    rcases hf with hnone | rfl
    · exact lowerBetween_of_not_mem hnone ..
    · refine lowerBetween_congr fun p q _ => ?_
      rw [endsWord, endsWord, nextIsCased_sigma]
  have hback : lowerBetween (sigma :: (front.reverse ++ before)) back after
      = lowerBetween [sigma] back [] := by
    rcases hb with hnone | rfl
    · exact lowerBetween_of_not_mem hnone ..
    · refine lowerBetween_congr fun p q _ => ?_
      rw [endsWord, endsWord, nextIsCased_sigma]
  have hsigma : lowerAt (front.reverse ++ before) sigma (back ++ after)
      = [if endsWord (front.reverse ++ before) (back ++ after) then '\u03c2' else '\u03c3'] :=
    if_pos rfl
  rw [lowerBetween_append, List.cons_append, hfront, lowerBetween, hsigma, hback]
  rfl

/-- A text that has more of a character than another one does not occur in it. -/
theorem not_isInfix_of_count_lt {cs ds : List Char} {c : Char} (h : ds.count c < cs.count c) :
    ¬ cs <:+: ds :=
  fun hpart => absurd (hpart.sublist.count_le c) (Nat.not_le.mpr h)

theorem nextIsCased_letter : nextIsCased ['a'] = true := by decide +kernel

/-- Behind a letter a sigma that opens a text ends a word. -/
theorem not_isInfix_of_opensWithSigma {cs : List Char} (h : opensWithSigma cs = true) :
    ¬ lower cs <:+: lower ('a' :: cs) := by
  obtain ⟨front, back, rfl, hall, hcased⟩ := opensWithSigma_iff.mp h
  have hfront : sigma ∉ front := sigma_not_mem hall
  have halone : endsWord (front.reverse ++ []) (back ++ []) = false := by
    have hnone : nextIsCased front.reverse = false := nextIsCased_of_all (by rwa [List.all_reverse])
    simp [endsWord, hnone]
  have hbehind : endsWord (front.reverse ++ ['a']) (back ++ []) = true := by
    simp [endsWord, nextIsCased_append, hall, nextIsCased_letter, hcased]
  have hword : lower ('a' :: (front ++ sigma :: back))
      = 'a' :: lowerBetween ['a'] (front ++ sigma :: back) [] := by
    rw [lower_eq_lowerBetween]
    rfl
  apply not_isInfix_of_count_lt (c := '\u03c3')
  rw [hword, lower_eq_lowerBetween, lowerBetween_around_sigma (.inl hfront) (.inr rfl),
    lowerBetween_around_sigma (.inl hfront) (.inr rfl), halone, hbehind]
  simp [List.count_append]

/-- In front of a letter a sigma that closes a text ends no word. -/
theorem not_isInfix_of_closesWithSigma {cs : List Char} (h : closesWithSigma cs = true) :
    ¬ lower cs <:+: lower (cs ++ ['a']) := by
  obtain ⟨front, back, rfl, hall, hcased⟩ := closesWithSigma_iff.mp h
  have hback : sigma ∉ back := sigma_not_mem hall
  have halone : endsWord (front.reverse ++ []) (back ++ []) = true := by
    simp [endsWord, nextIsCased_of_all hall, hcased]
  have hbefore : endsWord (front.reverse ++ []) (back ++ ['a']) = false := by
    simp [endsWord, nextIsCased_append, hall, nextIsCased_letter]
  have hword : lower ((front ++ sigma :: back) ++ ['a'])
      = lowerBetween [] (front ++ sigma :: back) ['a'] ++ ['a'] := by
    rw [lower, lowerAfter_append]
    rfl
  apply not_isInfix_of_count_lt (c := '\u03c2')
  rw [hword, lower_eq_lowerBetween, lowerBetween_around_sigma (.inr rfl) (.inl hback),
    lowerBetween_around_sigma (.inr rfl) (.inl hback), halone, hbefore]
  simp [List.count_append]

/-- The small form of a text occurs in that of every text around it exactly when no sigma of it is
open. -/
theorem lower_isInfix_iff {cs : List Char} :
    (∀ around, cs <:+: around → lower cs <:+: lower around) ↔ hasOpenSigma cs = false := by
  constructor
  · intro h
    rw [hasOpenSigma, Bool.or_eq_false_iff, ← Bool.not_eq_true, ← Bool.not_eq_true]
    refine ⟨fun hopens => ?_, fun hcloses => ?_⟩
    · exact not_isInfix_of_opensWithSigma hopens (h _ (List.suffix_cons _ _).isInfix)
    · exact not_isInfix_of_closesWithSigma hcloses (h _ (List.prefix_append _ _).isInfix)
  · rintro h _ ⟨before, after, rfl⟩
    exact (keepsSigmas_of_closed h before after).lower_isInfix

end QueryReview.Text
