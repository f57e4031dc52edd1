-- Numerals where they stand in a text. What is read is a numeral in parts, and a numeral is read
-- off the start of a text when nothing behind it could be a part of it.
import Mathlib.Tactic.ByContra
import QueryReview.Decimal.Numeral
import QueryReview.Proofs.Text.Blank

namespace QueryReview.Decimal

open Text

/-- A sign, or none. -/
def IsSign (cs : List Char) : Prop := cs = [] ∨ cs = ['+'] ∨ cs = ['-']

def AllDigits (cs : List Char) : Prop := ∀ c ∈ cs, isAnyDigit c = true

namespace Numeral

/-- The parts are those of a numeral. -/
structure Proper (n : Numeral) : Prop where
  sign : IsSign n.sign
  whole : AllDigits n.whole
  fraction : AllDigits n.fraction
  digits : n.whole ≠ [] ∨ n.fraction ≠ []
  point : n.fraction ≠ [] → n.point = true
  exponent : ∀ e ∈ n.exponent,
    (e.1 = 'e' ∨ e.1 = 'E') ∧ IsSign e.2.1 ∧ e.2.2 ≠ [] ∧ AllDigits e.2.2

/-- The text does not go on with what could be a part of the numeral. -/
def EndsBefore (n : Numeral) (rest : List Char) : Prop :=
  ∀ c ∈ rest.head?, isAnyDigit c = false ∧
    (c = '.' → n.point = true ∨ n.exponent.isSome = true) ∧
    (c = 'e' ∨ c = 'E' → n.exponent.isSome = true)

def exponentText (n : Numeral) : List Char :=
  match n.exponent with
  | none => []
  | some (mark, sign, digits) => mark :: (sign ++ digits)

/-- The numeral up to its exponent. -/
def significand (n : Numeral) : Numeral := { n with exponent := none }

end Numeral

open Numeral

/-! ## Reading what is written -/

theorem takeRun_append {test : Char → Bool} {run rest : List Char} (h : ∀ c ∈ run, test c = true)
    (hr : ∀ c ∈ rest.head?, test c = false) : takeRun test (run ++ rest) = (run, rest) := by
  obtain ⟨hrun, hrest⟩ := takeWhile_dropWhile_iff.mpr ⟨rfl, h, hr⟩
  rw [takeRun, hrun, hrest]

theorem takeSign_append {sign rest : List Char} (h : IsSign sign)
    (hr : ∀ c ∈ rest.head?, c ≠ '+' ∧ c ≠ '-') : takeSign (sign ++ rest) = (sign, rest) := by
  rcases h with rfl | rfl | rfl
  · cases rest with
    | nil => rfl
    | cons c cs =>
      obtain ⟨hplus, hminus⟩ := hr c rfl
      unfold takeSign
      split
      · rename_i heq
        cases heq
        exact absurd rfl hplus
      · rename_i heq
        cases heq
        exact absurd rfl hminus
      · rfl
  · rfl
  · rfl

theorem not_sign_of_isAnyDigit {c : Char} (h : isAnyDigit c = true) : c ≠ '+' ∧ c ≠ '-' := by
  constructor <;> rintro rfl <;> exact absurd h (by decide)

theorem AllDigits.head? {cs : List Char} (h : AllDigits cs) (hne : cs ≠ []) (rest : List Char) :
    ∀ c ∈ (cs ++ rest).head?, isAnyDigit c = true := by
  obtain ⟨c, cs, rfl⟩ := List.exists_cons_of_ne_nil hne
  rintro c' ⟨⟩
  exact h c List.mem_cons_self

theorem withExponent_exponentText {n : Numeral} {rest : List Char} (h : n.Proper)
    (hr : n.EndsBefore rest) :
    withExponent n.significand (n.exponentText ++ rest) = (n, rest) := by
  obtain ⟨sign, whole, point, fraction, exponent⟩ := n
  unfold withExponent exponentText
  cases exponent with
  | none =>
    have hnone : exponentAt? rest = none := by
      cases rest with
      | nil => rfl
      | cons c cs =>
        have hmark : ¬ (c = 'e' ∨ c = 'E') := fun hc => by cases (hr c rfl).2.2 hc
        rw [exponentAt?, if_neg hmark]
    dsimp only
    rw [List.nil_append, hnone]
    rfl
  | some e =>
    obtain ⟨mark, sign', digits⟩ := e
    obtain ⟨hmark, hsign, hne, hdigits⟩ := h.exponent _ rfl
    dsimp only at hmark hsign hne hdigits
    have hhead := hdigits.head? hne rest
    have htakeSign := takeSign_append hsign fun c hc => not_sign_of_isAnyDigit (hhead c hc)
    have htakeRun := takeRun_append hdigits fun c hc => (hr c hc).1
    obtain ⟨d, digits, rfl⟩ := List.exists_cons_of_ne_nil hne
    have hsome : exponentAt? (mark :: (sign' ++ d :: digits) ++ rest)
        = some ((mark, sign', d :: digits), rest) := by
      rw [List.cons_append, List.append_assoc, exponentAt?, if_pos hmark, htakeSign]
      dsimp only
      rw [htakeRun]
    dsimp only
    rw [hsome]
    rfl

/-- Behind the digits of a numeral stands its exponent, or what is no part of it. -/
theorem head?_exponentText {n : Numeral} {rest : List Char} (h : n.Proper)
    (hr : n.EndsBefore rest) :
    ∀ c ∈ (n.exponentText ++ rest).head?, isAnyDigit c = false ∧ (c = '.' → n.point = true) := by
  obtain ⟨sign, whole, point, fraction, exponent⟩ := n
  unfold exponentText
  cases exponent with
  | none =>
    intro c hc
    obtain ⟨hdigit, hpoint, _⟩ := hr c hc
    exact ⟨hdigit, fun hc => by simpa using hpoint hc⟩
  | some e =>
    obtain ⟨hmark, _⟩ := h.exponent e rfl
    rintro c ⟨⟩
    rcases hmark with hmark | hmark
    · rw [hmark]
      exact ⟨by decide, fun hc => absurd hc (by decide)⟩
    · rw [hmark]
      exact ⟨by decide, fun hc => absurd hc (by decide)⟩

theorem read?_fraction {cs sign after more rest fraction : List Char}
    (hs : takeSign cs = (sign, after)) (hw : takeRun isAnyDigit after = ([], '.' :: more))
    (hf : takeRun isAnyDigit more = (fraction, rest)) (hne : fraction ≠ []) :
    read? cs = some (withExponent ⟨sign, [], true, fraction, none⟩ rest) := by
  obtain ⟨d, ds, rfl⟩ := List.exists_cons_of_ne_nil hne
  simp only [read?, hs, hw, hf]

theorem read?_point {cs sign after more rest whole fraction : List Char}
    (hs : takeSign cs = (sign, after)) (hw : takeRun isAnyDigit after = (whole, '.' :: more))
    (hne : whole ≠ []) (hf : takeRun isAnyDigit more = (fraction, rest)) :
    read? cs = some (withExponent ⟨sign, whole, true, fraction, none⟩ rest) := by
  obtain ⟨d, ds, rfl⟩ := List.exists_cons_of_ne_nil hne
  simp only [read?, hs, hw, hf]

theorem read?_whole {cs sign after rest whole : List Char} (hs : takeSign cs = (sign, after))
    (hw : takeRun isAnyDigit after = (whole, rest)) (hne : whole ≠ [])
    (hp : rest.head? ≠ some '.') :
    read? cs = some (withExponent ⟨sign, whole, false, [], none⟩ rest) := by
  obtain ⟨d, ds, rfl⟩ := List.exists_cons_of_ne_nil hne
  unfold read?
  rw [hs]
  dsimp only
  rw [hw]
  split
  · rename_i heq
    cases heq
  · rename_i heq
    cases heq
  · rename_i heq
    cases heq
    exact absurd rfl hp
  · rename_i heq
    cases heq
    rfl

/-- A numeral is read where it stands, with all that follows left over. -/
theorem read?_text {n : Numeral} {rest : List Char} (h : n.Proper) (hr : n.EndsBefore rest) :
    read? (n.text ++ rest) = some (n, rest) := by
  have htail := head?_exponentText h hr
  have hend := withExponent_exponentText h hr
  have htext : n.text ++ rest = n.sign ++ (n.whole ++ ((if n.point then ['.'] else [])
      ++ (n.fraction ++ (n.exponentText ++ rest)))) := by
    have hparts : n.text = n.sign ++ n.whole ++ (if n.point then ['.'] else []) ++ n.fraction
        ++ n.exponentText := rfl
    rw [hparts]
    simp only [List.append_assoc]
  rw [htext, ← hend]
  clear hend htext
  generalize n.exponentText ++ rest = tail at htail
  obtain ⟨sign, whole, point, fraction, exponent⟩ := n
  obtain ⟨hsign, hwhole, hfraction, hdigits, hpoint, _⟩ := h
  dsimp only at hsign hwhole hfraction hdigits hpoint htail ⊢
  have hdot : ∀ c ∈ ('.' :: (fraction ++ tail)).head?, isAnyDigit c = false := by
    rintro c ⟨⟩
    decide
  have hfractionRun := takeRun_append hfraction fun c hc => (htail c hc).1
  by_cases hw : whole = []
  · have hf : fraction ≠ [] := by simpa [hw] using hdigits
    subst hw
    cases hpoint hf
    have hrun : takeRun isAnyDigit ('.' :: (fraction ++ tail)) = ([], '.' :: (fraction ++ tail)) :=
      @takeRun_append _ [] _ (by simp) hdot
    exact read?_fraction (takeSign_append hsign (by rintro c ⟨⟩; decide)) hrun hfractionRun hf
  · have hsignEnd := takeSign_append hsign fun c hc =>
      not_sign_of_isAnyDigit (hwhole.head? hw ((if point then ['.'] else []) ++ (fraction ++ tail)) c hc)
    cases point with
    | true => exact read?_point hsignEnd (takeRun_append hwhole hdot) hw hfractionRun
    | false =>
      have hf : fraction = [] := by
        by_contra hne
        cases hpoint hne
      subst hf
      refine read?_whole hsignEnd (takeRun_append hwhole fun c hc => (htail c hc).1) hw ?_
      intro hc
      cases (htail '.' hc).2 rfl

/-! ## What is read -/

theorem takeSign_spec {cs sign rest : List Char} (h : takeSign cs = (sign, rest)) :
    IsSign sign ∧ cs = sign ++ rest := by
  unfold takeSign at h
  split at h
  · cases h
    exact ⟨.inr (.inl rfl), rfl⟩
  · cases h
    exact ⟨.inr (.inr rfl), rfl⟩
  · cases h
    exact ⟨.inl rfl, rfl⟩

theorem takeRun_spec {cs run rest : List Char} (h : takeRun isAnyDigit cs = (run, rest)) :
    AllDigits run ∧ cs = run ++ rest := by
  obtain ⟨hcs, hrun, _⟩ := takeWhile_dropWhile_iff.mp (Prod.mk.inj h)
  exact ⟨hrun, hcs⟩

theorem exponentAt?_spec {cs rest : List Char} {e : Char × List Char × List Char}
    (h : exponentAt? cs = some (e, rest)) :
    ((e.1 = 'e' ∨ e.1 = 'E') ∧ IsSign e.2.1 ∧ e.2.2 ≠ [] ∧ AllDigits e.2.2) ∧
      cs = e.1 :: (e.2.1 ++ e.2.2) ++ rest := by
  cases cs with
  | nil => cases h
  | cons c cs =>
    by_cases hmark : c = 'e' ∨ c = 'E'
    · rw [exponentAt?, if_pos hmark] at h
      rcases hs : takeSign cs with ⟨sign, after⟩
      rcases hrun : takeRun isAnyDigit after with ⟨digits, more⟩
      obtain ⟨hsign, hcs⟩ := takeSign_spec hs
      obtain ⟨hdigits, hafter⟩ := takeRun_spec hrun
      rw [hs] at h
      dsimp only at h
      rw [hrun] at h
      cases digits with
      | nil => cases h
      | cons d ds =>
        cases h
        refine ⟨⟨hmark, hsign, List.cons_ne_nil _ _, hdigits⟩, ?_⟩
        rw [hcs, hafter]
        simp
    · rw [exponentAt?, if_neg hmark] at h
      cases h

/-- An exponent is added to a numeral that has none. -/
theorem withExponent_spec {n m : Numeral} {cs rest : List Char} (hn : n.exponent = none)
    (h : withExponent n cs = (m, rest)) :
    m.significand = n ∧ m.exponentText ++ rest = cs ∧ ∀ e ∈ m.exponent,
      (e.1 = 'e' ∨ e.1 = 'E') ∧ IsSign e.2.1 ∧ e.2.2 ≠ [] ∧ AllDigits e.2.2 := by
  have hpart : n.significand = n := by
    unfold significand
    rw [← hn]
  unfold withExponent at h
  split at h
  · rename_i e more he
    cases h
    obtain ⟨hproper, hcs⟩ := exponentAt?_spec he
    refine ⟨hpart, hcs.symm, ?_⟩
    rintro e' ⟨⟩
    exact hproper
  · cases h
    refine ⟨hpart, ?_, ?_⟩
    · rw [exponentText, hn]
      rfl
    · rw [hn]
      rintro e ⟨⟩

theorem text_of_significand {n m : Numeral} (h : m.significand = n) :
    m.text = n.sign ++ n.whole ++ (if n.point then ['.'] else []) ++ n.fraction ++ m.exponentText := by
  subst h
  rfl

/-- What is read is a numeral, and the text is that of the numeral with what is left over. -/
theorem proper_of_read? {n : Numeral} {cs rest : List Char} (h : read? cs = some (n, rest)) :
    n.Proper ∧ cs = n.text ++ rest := by
  have hbuild : ∀ {sign whole tail : List Char} (point : Bool) (fraction : List Char), IsSign sign →
      AllDigits whole → AllDigits fraction → (whole ≠ [] ∨ fraction ≠ []) →
      (fraction ≠ [] → point = true) →
      cs = sign ++ whole ++ (if point then ['.'] else []) ++ fraction ++ tail →
      withExponent ⟨sign, whole, point, fraction, none⟩ tail = (n, rest) →
      n.Proper ∧ cs = n.text ++ rest := by
    intro sign whole tail point fraction hsign hwhole hfraction hdigits hpoint hcs hend
    obtain ⟨hpart, htail, hexponent⟩ := withExponent_spec rfl hend
    refine ⟨?_, by rw [hcs, ← htail, text_of_significand hpart]; simp⟩
    obtain ⟨sign', whole', point', fraction', exponent'⟩ := n
    cases hpart
    exact ⟨hsign, hwhole, hfraction, hdigits, hpoint, hexponent⟩
  rcases hs : takeSign cs with ⟨sign, after⟩
  rcases hrun : takeRun isAnyDigit after with ⟨whole, behind⟩
  obtain ⟨hsign, hcs⟩ := takeSign_spec hs
  obtain ⟨hwhole, hafter⟩ := takeRun_spec hrun
  have hempty : AllDigits [] := by rintro c ⟨⟩
  simp only [read?, hs, hrun] at h
  split at h
  · rename_i more heq
    cases heq
    rcases hfractionRun : takeRun isAnyDigit more with ⟨fraction, tail⟩
    obtain ⟨hfraction, hmore⟩ := takeRun_spec hfractionRun
    rw [hfractionRun] at h
    cases fraction with
    | nil => cases h
    | cons d ds =>
      refine hbuild true (d :: ds) hsign hempty hfraction (.inr (List.cons_ne_nil _ _))
        (fun _ => rfl) ?_ (Option.some.inj h)
      rw [hcs, hafter, hmore]
      simp
  · cases h
  · rename_i whole' more hne heq
    cases heq
    rcases hfractionRun : takeRun isAnyDigit more with ⟨fraction, tail⟩
    obtain ⟨hfraction, hmore⟩ := takeRun_spec hfractionRun
    rw [hfractionRun] at h
    refine hbuild true fraction hsign hwhole hfraction (.inl hne) (fun _ => rfl) ?_
      (Option.some.inj h)
    rw [hcs, hafter, hmore]
    simp
  · rename_i hne _ heq
    cases heq
    refine hbuild false [] hsign hwhole hempty (.inl hne) (fun hf => absurd rfl hf) ?_
      (Option.some.inj h)
    rw [hcs, hafter]
    simp

/-! ## A numeral as a whole text -/

/-- A character that a numeral may be written with. -/
def isNumeralChar (c : Char) : Bool := isAnyDigit c || "+-.eE".toList.contains c

theorem AllDigits.isNumeralChar {cs : List Char} (h : AllDigits cs) :
    ∀ c ∈ cs, isNumeralChar c = true := by
  intro c hc
  rw [Decimal.isNumeralChar, h c hc]
  rfl

theorem IsSign.isNumeralChar {cs : List Char} (h : IsSign cs) :
    ∀ c ∈ cs, isNumeralChar c = true := by
  rcases h with rfl | rfl | rfl <;> exact List.all_eq_true.mp (by decide)

theorem isBlank_of_isNumeralChar {c : Char} (h : isNumeralChar c = true) : isBlank c = false := by
  rcases (Bool.or_eq_true _ _).mp h with h | h
  · exact isBlank_of_isAnyDigit h
  · have hmarks : ∀ m ∈ "+-.eE".toList, (!isBlank m) = true := List.all_eq_true.mp (by decide)
    simpa using hmarks c (List.contains_iff_mem.mp h)

theorem isNumeralChar_of_mem_text {n : Numeral} (h : n.Proper) :
    ∀ c ∈ n.text, isNumeralChar c = true := by
  unfold text
  simp only [List.forall_mem_append]
  refine ⟨⟨⟨⟨h.sign.isNumeralChar, h.whole.isNumeralChar⟩, ?_⟩, h.fraction.isNumeralChar⟩, ?_⟩
  · split
    · exact List.all_eq_true.mp (by decide)
    · rintro c ⟨⟩
  · cases he : n.exponent with
    | none => rintro c ⟨⟩
    | some e =>
      obtain ⟨hmark, hsign, _, hdigits⟩ := h.exponent e he
      dsimp only
      rw [List.forall_mem_cons, List.forall_mem_append]
      refine ⟨?_, hsign.isNumeralChar, hdigits.isNumeralChar⟩
      rcases hmark with hmark | hmark
      · rw [hmark]
        decide
      · rw [hmark]
        decide

theorem text_ne_nil {n : Numeral} (h : n.Proper) : n.text ≠ [] := by
  rcases h.digits with hw | hf
  · simp [text, hw]
  · simp [text, hf]

theorem endsBefore_nil (n : Numeral) : n.EndsBefore [] := by
  rintro c ⟨⟩

/-- A character that no numeral is written with ends any numeral. -/
theorem endsBefore_cons (n : Numeral) {c : Char} (hc : isNumeralChar c = false) (rest : List Char) :
    n.EndsBefore (c :: rest) := by
  rw [isNumeralChar, Bool.or_eq_false_iff] at hc
  rintro c' ⟨⟩
  refine ⟨hc.1, ?_, ?_⟩
  · rintro rfl
    exact absurd hc.2 (by decide)
  · rintro (rfl | rfl) <;> exact absurd hc.2 (by decide)

/-- A text with a value is a numeral. -/
theorem exists_numeral_of_float? {cs : List Char} {x : Float} (h : float? cs = some x) :
    ∃ n : Numeral, n.Proper ∧ cs = n.text ∧ n.value? = some x := by
  unfold float? at h
  split at h
  · rename_i n hread
    obtain ⟨hproper, hcs⟩ := proper_of_read? hread
    exact ⟨n, hproper, by rw [hcs, List.append_nil], h⟩
  · cases h

/-! ## Numerals with two points behind them -/

/-- A numeral with digits in front, and behind its point if it has one. -/
structure Numeral.Plain (n : Numeral) : Prop where
  proper : n.Proper
  whole : n.whole ≠ []
  fraction : n.point = true → n.fraction ≠ []

/-- Digits with neither a point nor an exponent. -/
def Numeral.isBare (n : Numeral) : Bool := !n.point && n.exponent.isNone

theorem isBare_iff {n : Numeral} : n.isBare = true ↔ n.point = false ∧ n.exponent = none := by
  rw [Numeral.isBare, Bool.and_eq_true, Bool.not_eq_true', Option.isNone_iff_eq_none]

theorem Numeral.Proper.fraction_eq_nil {n : Numeral} (h : n.Proper) (hp : n.point = false) :
    n.fraction = [] := by
  by_contra hne
  rw [h.point hne] at hp
  cases hp

/-- Digits that two points follow take the first of them for their own point. -/
theorem read?_two_points {n : Numeral} (h : n.Plain) (rest : List Char) :
    read? (n.text ++ '.' :: '.' :: rest)
      = if n.isBare then some ({ n with point := true }, '.' :: rest)
        else some (n, '.' :: '.' :: rest) := by
  obtain ⟨hproper, hwhole, hfraction⟩ := h
  have hdot : isAnyDigit '.' = false := by decide
  have hno : ¬ ('.' = 'e' ∨ '.' = 'E') := by decide
  split
  · rename_i hbare
    obtain ⟨hpoint, hexponent⟩ := isBare_iff.mp hbare
    have hf := hproper.fraction_eq_nil hpoint
    have htext : n.text ++ '.' :: '.' :: rest = { n with point := true }.text ++ '.' :: rest := by
      simp [text, hpoint, hexponent, hf]
    have hpointed : { n with point := true }.Proper :=
      ⟨hproper.sign, hproper.whole, hproper.fraction, hproper.digits, fun _ => rfl,
        hproper.exponent⟩
    rw [htext]
    apply read?_text hpointed
    rintro c ⟨⟩
    exact ⟨hdot, fun _ => .inl rfl, fun hc => absurd hc hno⟩
  · rename_i hbare
    apply read?_text hproper
    rintro c ⟨⟩
    refine ⟨hdot, fun _ => ?_, fun hc => absurd hc hno⟩
    cases hpoint : n.point with
    | true => exact .inl rfl
    | false =>
      right
      simpa [isBare, hpoint, Option.isSome_iff_ne_none] using hbare

/-- A numeral with digits in front does not start with a point. -/
theorem Numeral.Plain.head?_text {n : Numeral} (h : n.Plain) :
    ∃ c cs, n.text = c :: cs ∧ c ≠ '.' := by
  have hdot : isAnyDigit '.' = false := by decide
  obtain ⟨d, ds, hd⟩ := List.exists_cons_of_ne_nil h.whole
  have hne : d ≠ '.' := by
    rintro rfl
    rw [h.proper.whole _ (by rw [hd]; exact List.mem_cons_self)] at hdot
    cases hdot
  unfold text
  rcases h.proper.sign with hs | hs | hs
  · rw [hs, hd]
    exact ⟨d, _, rfl, hne⟩
  · rw [hs]
    exact ⟨'+', _, rfl, by decide⟩
  · rw [hs]
    exact ⟨'-', _, rfl, by decide⟩

end QueryReview.Decimal
