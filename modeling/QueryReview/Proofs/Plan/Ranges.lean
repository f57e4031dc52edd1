-- Ranges of numbers: from the time of the first row to that of the last, and from the cost of the
-- first row to that of the last. The points that end the first half may be taken for its own.
import Mathlib.Tactic.Set
import QueryReview.Plan.Outline
import QueryReview.Proofs.Plan.Groups

namespace QueryReview.Plan

open Text Decimal
open Numeral (read?)

/-! ## Times -/

def rangeText (a b : Numeral) : List Char := a.text ++ ("..".toList ++ b.text)

def timesPart (a b : Numeral) : List Char := "actual time=".toList ++ rangeText a b

/-- The group of what was measured, with the times in front of the numbers. -/
def timesGroup (a b : Numeral) (w : Numbers) : List Char := join [' '] (timesPart a b :: w.parts)

theorem rangeEnd?_text {b : Numeral} (hb : b.Plain) {rest : List Char} (hr : Stops rest) :
    rangeEnd? ("..".toList ++ (b.text ++ rest)) = some b := by
  rw [rangeEnd?, after?_append, Option.bind_some, read?_text hb.proper (hr.endsBefore b)]
  rfl

/-- One point is no mark of a range. -/
theorem rangeEnd?_one_point {b : Numeral} (hb : b.Plain) (rest : List Char) :
    rangeEnd? ('.' :: (b.text ++ rest)) = none := by
  obtain ⟨c, cs, hc, hne⟩ := hb.head?_text
  have hnone : after? "..".toList ('.' :: (b.text ++ rest)) = none := by
    rw [hc]
    exact if_neg (Ne.symm hne)
  rw [rangeEnd?, hnone]
  rfl

section
variable {a b : Numeral} (ha : a.Plain) (hb : b.Plain)
include ha hb

theorem isNumeralChar_of_mem_rangeText : ∀ c ∈ rangeText a b, isNumeralChar c = true := by
  unfold rangeText
  simp only [List.forall_mem_append]
  have hpoints : ∀ c ∈ "..".toList, isNumeralChar c = true := List.all_eq_true.mp (by decide)
  exact ⟨isNumeralChar_of_mem_text ha.proper, hpoints, isNumeralChar_of_mem_text hb.proper⟩

theorem isGroup_rangeText : IsGroup (rangeText a b) := by
  apply isGroup_of_numeralChars _ (isNumeralChar_of_mem_rangeText ha hb)
  simp [rangeText, text_ne_nil ha.proper]

theorem isGroup_timesPart : IsGroup (timesPart a b) :=
  isGroup_names.2.2.2.append (isGroup_rangeText ha hb)

/-- The times are told apart, however they are spelled. -/
theorem timesAt?_text {rest : List Char} (hr : Stops rest) :
    timesAt? (timesPart a b ++ rest) = some (a, b) := by
  have htext : timesPart a b ++ rest
      = "actual time=".toList ++ (a.text ++ '.' :: '.' :: (b.text ++ rest)) := by
    unfold timesPart rangeText
    rw [List.append_assoc, List.append_assoc, List.append_assoc]
    rfl
  have hend : rangeEnd? ('.' :: '.' :: (b.text ++ rest)) = some b := rangeEnd?_text hb hr
  rw [htext, timesAt?, after?_append, Option.bind_some, numeralReadings, read?_two_points ha]
  split
  · rename_i heq
    split at heq <;> cases heq
  · rename_i n behind heq
    cases hbare : a.isBare with
    | true =>
      -- Bare digits take the first point, no range ends behind it, and they give it back.
      rw [hbare, if_pos rfl] at heq
      cases heq
      obtain ⟨hpoint, hexponent⟩ := isBare_iff.mp hbare
      have hf := ha.proper.fraction_eq_nil hpoint
      have hback : { a with point := false } = a := by rw [← hpoint]
      rw [if_pos ⟨rfl, hf, hexponent⟩]
      simp only [List.findSome?_cons, rangeEnd?_one_point hb, Option.map_none, hend, Option.map_some]
      exact congrArg (fun n => some (n, b)) hback
    | false =>
      rw [hbare, if_neg (by decide)] at heq
      cases heq
      have hno : ¬ (a.point = true ∧ a.fraction = [] ∧ a.exponent = none) :=
        fun h => ha.fraction h.1 h.2.1
      rw [if_neg hno]
      simp only [List.findSome?_cons, hend, Option.map_some]

theorem timingIn_timesGroup (loops : Nat) (w : Numbers) :
    timingIn loops (timesGroup a b w)
      = a.value?.bind fun first => b.value?.map fun last => Timing.ofLoops first last loops := by
  obtain ⟨rest, hrest, hstops⟩ := exists_join_cons (timesPart a b) w.parts
  have hfound : firstAtWordStart timesAt? none (timesGroup a b w) = some (a, b) := by
    have hcons : timesPart a b ++ rest = 'a' :: ("ctual time=".toList ++ rangeText a b ++ rest) :=
      rfl
    have hread := timesAt?_text ha hb hstops
    rw [timesGroup, hrest]
    rw [hcons] at hread ⊢
    exact firstAtWordStart_here rfl hread
  rw [timingIn, hfound, Option.bind_some]
  dsimp only
  cases a.value? with
  | none => rfl
  | some first => cases b.value? <;> rfl

variable {w : Numbers} (h : w.Proper)
include h

theorem isGroup_timesGroup : IsGroup (timesGroup a b w) :=
  isGroup_join (List.cons_ne_nil _ _)
    (List.forall_mem_cons.mpr ⟨isGroup_timesPart ha hb, h.isGroup⟩)

theorem rowsIn_timesGroup : rowsIn (timesGroup a b w) = w.rows.bind Numeral.value? := by
  have hlead : ∀ p ∈ [timesPart a b], 'r' ∉ p := by
    rw [List.forall_mem_singleton]
    exact not_mem_part (by decide) (by decide) (isNumeralChar_of_mem_rangeText ha hb)
  exact rowsIn_parts h hlead

/-- The l in the first word of the group is no start of a word. -/
theorem loopsIn_timesGroup : loopsIn (timesGroup a b w) = w.loopCount := by
  have hword : ∀ rest, firstAtWordStart loopsAt? none ("actual ".toList ++ rest)
      = firstAtWordStart loopsAt? (some ' ') rest := fun rest => rfl
  have hgroup : timesGroup a b w
      = "actual ".toList ++ join [' '] (["time=".toList ++ rangeText a b] ++ w.parts) := by
    unfold timesGroup
    cases w.parts <;> rfl
  have hlead : ∀ p ∈ ["time=".toList ++ rangeText a b], 'l' ∉ p := by
    rw [List.forall_mem_singleton]
    exact not_mem_part (by decide) (by decide) (isNumeralChar_of_mem_rangeText ha hb)
  rw [loopsIn, hgroup, hword, loopsAt?_parts h hlead fun hnil => absurd hnil (List.cons_ne_nil _ _)]
  rfl

/-- A group with times is taken for the measurements, if these are asked for and none were seen. -/
theorem addGroup_times (mode : Mode) (r : Reading) :
    r.addGroup mode (timesGroup a b w)
      = if mode.isActual && !r.seenActual then
          { r with
            step := { r.step with
              timing := a.value?.bind fun first => b.value?.map fun last =>
                Timing.ofLoops first last (w.loopCount.getD 1)
              actualRows := w.rows.bind Numeral.value?
              actualLoops := w.loopCount }
            seenActual := true }
        else r := by
  have hactual : isActualGroup (timesGroup a b w) = true := by
    rw [isActualGroup, startsWith_iff]
    have hpart : "actual".toList <+: timesPart a b := ⟨_, rfl⟩
    exact hpart.trans (part_isPrefixOf_join _ _ _)
  rw [Reading.addGroup, if_pos hactual, Step.withActual, loopsIn_timesGroup ha hb h,
    timingIn_timesGroup ha hb, rowsIn_timesGroup ha hb h]

end

/-- The end of a range of costs is found, but not behind bare digits. -/
theorem costAt?_range {a b : Numeral} (ha : a.Plain) (hb : b.Plain) {rest : List Char}
    (hr : Stops rest) :
    costAt? ("cost=".toList ++ (a.text ++ ("..".toList ++ (b.text ++ rest))))
      = some (if a.isBare then { a with point := true } else b) := by
  have hend : rangeEnd? ('.' :: '.' :: (b.text ++ rest)) = some b := rangeEnd?_text hb hr
  have hread := read?_two_points ha (b.text ++ rest)
  rw [costAt?, after?_append, Option.bind_some]
  change (Option.map _ (read? (a.text ++ '.' :: '.' :: (b.text ++ rest)))) = _
  rw [hread]
  split
  · simp only [Option.map_some, rangeEnd?_one_point hb, Option.getD_none]
  · simp only [Option.map_some, hend, Option.getD_some]

/-! ## Lines with ranges -/

/-- The group of the estimate, with a range of costs. -/
def costsGroup (a b r : Numeral) : List Char :=
  join [' '] ["cost=".toList ++ rangeText a b, "rows=".toList ++ r.text]

section
variable {a b r : Numeral} (ha : a.Plain) (hb : b.Plain) (hr : r.Proper)
include ha hb hr

theorem isGroup_costsGroup : IsGroup (costsGroup a b r) := by
  obtain ⟨hcost, hrows, _⟩ := isGroup_names
  apply isGroup_join (List.cons_ne_nil _ _)
  rw [List.forall_mem_cons, List.forall_mem_singleton]
  exact ⟨hcost.append (isGroup_rangeText ha hb), hrows.append (isGroup_text hr)⟩

theorem addGroup_costs (mode : Mode) (before : Reading) (hseen : before.seenEstimate = false) :
    before.addGroup mode (costsGroup a b r)
      = { before with
          step := { before.step with
            cost := if a.isBare then a.value? else b.value?
            estimatedRows := r.value? }
          seenEstimate := true } := by
  have hw : (Numbers.mk none (some r) none).Proper :=
    ⟨by rintro n ⟨⟩, by rintro n ⟨⟩; exact hr, by rintro ds ⟨⟩⟩
  have hlead : ∀ p ∈ ["cost=".toList ++ rangeText a b], 'r' ∉ p := by
    rw [List.forall_mem_singleton]
    exact not_mem_part (by decide) (by decide) (isNumeralChar_of_mem_rangeText ha hb)
  have hrows : rowsIn (costsGroup a b r) = r.value? := rowsIn_parts hw hlead
  have hgroup : costsGroup a b r = "cost=".toList
      ++ (a.text ++ ("..".toList ++ (b.text ++ ' ' :: ("rows=".toList ++ r.text)))) := by
    unfold costsGroup rangeText
    rw [join_cons_cons]
    simp only [List.append_assoc]
    rfl
  have hcost : costIn (costsGroup a b r) = if a.isBare then a.value? else b.value? := by
    have hread : costAt? (costsGroup a b r)
        = some (if a.isBare then { a with point := true } else b) := by
      rw [hgroup]
      apply costAt?_range ha hb
      rintro c ⟨⟩
      rfl
    have hfound : firstAtWordStart costAt? none (costsGroup a b r)
        = some (if a.isBare then { a with point := true } else b) := by
      have hcons : costsGroup a b r = 'c' :: (costsGroup a b r).tail := rfl
      rw [hcons] at hread ⊢
      exact firstAtWordStart_here rfl hread
    rw [costIn, hfound, Option.bind_some]
    split <;> rfl
  have hactual : isActualGroup (costsGroup a b r) = false := rfl
  have hestimate : isEstimateGroup (costsGroup a b r) = true := by
    have hname : occursIn "cost=".toList (costsGroup a b r) = true := by
      rw [occursIn_iff, hgroup]
      exact (List.prefix_append _ _).isInfix
    rw [isEstimateGroup, hname]
    rfl
  rw [Reading.addGroup, hactual, hseen, hestimate, Step.withEstimate, hcost, hrows]
  rfl

end

theorem inParentheses_costsGroup (a b r : Numeral) :
    inParentheses [costsGroup a b r] = "(cost=".toList ++ a.text ++ "..".toList ++ b.text
      ++ " rows=".toList ++ r.text ++ ")".toList := by
  have hopen : "(cost=".toList = '(' :: "cost=".toList := rfl
  have hrows : " rows=".toList = ' ' :: "rows=".toList := rfl
  have hclose : ")".toList = [')'] := rfl
  simp only [hopen, hrows, hclose, inParentheses, List.map_singleton, costsGroup, rangeText, join,
    List.append_assoc, List.cons_append, List.nil_append]

theorem inParentheses_timesGroup (a b r : Numeral) (loops : List Char) :
    inParentheses [timesGroup a b ⟨none, some r, some loops⟩] = "(actual time=".toList ++ a.text
      ++ "..".toList ++ b.text ++ " rows=".toList ++ r.text ++ " loops=".toList ++ loops
      ++ ")".toList := by
  have hopen : "(actual time=".toList = '(' :: "actual time=".toList := rfl
  have hrows : " rows=".toList = ' ' :: "rows=".toList := rfl
  have hloops : " loops=".toList = ' ' :: "loops=".toList := rfl
  have hclose : ")".toList = [')'] := rfl
  have hparts : (Numbers.mk none (some r) (some loops)).parts
      = ["rows=".toList ++ r.text, "loops=".toList ++ loops] := rfl
  rw [timesGroup, hparts, hopen, hrows, hloops, hclose]
  unfold timesPart rangeText
  generalize "actual time=".toList = named, "rows=".toList = rows, "loops=".toList = again
  simp [inParentheses, join]

/-- Of a range of times both ends are read, and of a range of costs the second one, unless bare
digits open it: they take a point of the range for their own, and the first end is read. -/
theorem a_range_gives_its_end_unless_bare_digits_open_costs {indent operation : List Char}
    (hi : ∀ c ∈ indent, isBlank c = true) (hc : Clear operation) {a b r : Numeral} (ha : a.Plain)
    (hb : b.Plain) (hr : r.Proper) {loops : List Char} (hne : loops ≠ []) (hl : AllDigits loops)
    {x y : Float} (hx : a.value? = some x) (hy : b.value? = some y) :
    let costs := "(cost=".toList ++ a.text ++ "..".toList ++ b.text ++ " rows=".toList ++ r.text
      ++ ")".toList
    let times := "(actual time=".toList ++ a.text ++ "..".toList ++ b.text ++ " rows=".toList
      ++ r.text ++ " loops=".toList ++ loops ++ ")".toList
    let line := fun metrics : List Char =>
      indent ++ "-> ".toList ++ operation ++ "  ".toList ++ metrics
    (∀ mode, ∃ l, Line.read? mode (line costs) = some l ∧
      l.step.cost = some (if a.isBare then x else y)) ∧
    ∀ metrics ∈ [times, costs ++ " ".toList ++ times],
      ∃ l, Line.read? .actual (line metrics) = some l ∧
        l.step.timing.map (fun t => (t.first, t.last)) = some (x, y) := by
  intro costs times line
  have hindent : '-' ∉ indent := fun hmem => absurd (hi _ hmem) (by decide)
  have hw : (Numbers.mk none (some r) (some loops)).Proper :=
    ⟨by rintro n ⟨⟩, by rintro n ⟨⟩; exact hr, by rintro ds ⟨⟩; exact ⟨hne, hl⟩⟩
  set measured : Numbers := ⟨none, some r, some loops⟩ with hmeasured
  have hcosts : inParentheses [costsGroup a b r] = costs := inParentheses_costsGroup a b r
  have htimes : inParentheses [timesGroup a b measured] = times :=
    inParentheses_timesGroup a b r loops
  have hboth : inParentheses [costsGroup a b r, timesGroup a b measured]
      = costs ++ " ".toList ++ times := by
    rw [← hcosts, ← htimes, List.append_assoc]
    exact join_cons_cons _ _ _ _
  have hline : ∀ groups, line (inParentheses groups)
      = indent ++ ("-> ".toList ++ (operation ++ ' ' :: ' ' :: inParentheses groups)) := by
    intro groups
    simp only [line, List.append_assoc]
    rfl
  have hread : ∀ (mode : Mode) {groups : List (List Char)} {metrics : List Char},
      inParentheses groups = metrics → opensMetrics (inParentheses groups) = true →
      (∀ g ∈ groups, g = costsGroup a b r ∨ g = timesGroup a b measured) →
      ∃ l, Line.read? mode (line metrics) = some l ∧ l.step = (groups.foldl
        (Reading.addGroup mode) { step := { operation := String.ofList (trim operation) } }).step := by
    intro mode groups metrics hmetrics hopens hgroups
    rw [← hmetrics, hline]
    apply read?_groups mode hindent hc _ hopens
    intro g hg
    rcases hgroups g hg with rfl | rfl
    · exact isGroup_costsGroup ha hb hr
    · exact isGroup_timesGroup ha hb hw
  refine ⟨fun mode => ?_, ?_⟩
  · obtain ⟨l, hl, hstep⟩ := hread mode hcosts rfl (by simp)
    refine ⟨l, hl, ?_⟩
    rw [hstep, List.foldl_cons, List.foldl_nil, addGroup_costs ha hb hr mode _ rfl, hx, hy]
    split <;> rfl
  · rw [List.forall_mem_cons, List.forall_mem_singleton]
    constructor
    · obtain ⟨l, hl, hstep⟩ := hread .actual htimes rfl (by simp)
      refine ⟨l, hl, ?_⟩
      rw [hstep, List.foldl_cons, List.foldl_nil, addGroup_times ha hb hw, hx, hy]
      rfl
    · obtain ⟨l, hl, hstep⟩ := hread .actual hboth rfl (by simp)
      refine ⟨l, hl, ?_⟩
      rw [hstep, List.foldl_cons, List.foldl_cons, List.foldl_nil,
        addGroup_costs ha hb hr .actual _ rfl, addGroup_times ha hb hw, hx, hy]
      rfl

theorem a_cost_from_one_and_a_half_to_two_is_two :
    (∀ mode, ∃ l, Line.read? mode "-> A  (cost=1.5..2 rows=3)".toList = some l ∧
      l.step.cost = some 2) ∧
    ∃ l, Line.read? .actual "-> A  (actual time=1.5..2 rows=3 loops=4)".toList = some l ∧
      l.step.timing.map (fun t => (t.first, t.last)) = some (1.5, 2) := by
  have hplain : ∀ n ∈ [Numeral.mk [] ['1'] true ['5'] none, ⟨[], ['2'], false, [], none⟩,
      ⟨[], ['3'], false, [], none⟩], n.Plain := by
    intro n hn
    have hread : read? n.text = some (n, []) ∧ n.whole ≠ [] ∧
        (n.point = true → n.fraction ≠ []) := by
      revert n
      decide
    exact ⟨(proper_of_read? hread.1).1, hread.2.1, hread.2.2⟩
  simp only [List.forall_mem_cons] at hplain
  obtain ⟨ha, hb, hr, _⟩ := hplain
  have hloops : AllDigits ['4'] := List.all_eq_true.mp (by decide)
  have hline := @a_range_gives_its_end_unless_bare_digits_open_costs [] ['A'] (by simp)
    (clear_of_no_parenthesis (by decide)) _ _ _ ha hb hr.proper ['4'] (by decide) hloops 1.5 2
    (by decide +kernel) (by decide +kernel)
  exact ⟨hline.1, hline.2 _ List.mem_cons_self⟩

/-- The digit in front of the two points takes the first of them for its own. -/
theorem a_cost_from_one_to_two_is_read_as_one :
    let plan := Forest.parse .estimated "-> A  (cost=1..2 rows=3)"
    float? "1".toList = some 1 ∧ float? "2".toList = some 2 ∧
      plan.steps.map Step.cost = [some 1] ∧ plan.steps.map Step.cost ≠ [some 2] := by
  decide +kernel

end QueryReview.Plan
