-- The groups of metrics behind an operation: how groups in a row are told apart, and what is read
-- from a group that is written part by part, each part under its name.
import QueryReview.Proofs.Decimal.Numeral
import QueryReview.Proofs.Plan.RenderedLine
import QueryReview.Proofs.Text.Word

namespace QueryReview.Plan

open Text Decimal
open Numeral (read?)

/-! ## Groups in a row -/

/-- Each text in parentheses, with a space between each two. -/
def inParentheses (groups : List (List Char)) : List Char :=
  join [' '] (groups.map fun g => '(' :: (g ++ [')']))

/-- The text may stand in parentheses: it has none of its own, and trimming leaves it alone. -/
structure IsGroup (g : List Char) : Prop where
  no_open : '(' ∉ g
  no_close : ')' ∉ g
  firm : Firm g

theorem IsGroup.append {front back : List Char} (hf : IsGroup front) (hb : IsGroup back) :
    IsGroup (front ++ back) :=
  ⟨by simp [hf.no_open, hb.no_open], by simp [hf.no_close, hb.no_close],
    hf.firm.around hb.firm []⟩

theorem isGroup_join {parts : List (List Char)} (hne : parts ≠ []) (h : ∀ p ∈ parts, IsGroup p) :
    IsGroup (join [' '] parts) := by
  fun_induction join [' '] parts with
  | case1 => exact absurd rfl hne
  | case2 part => exact h part List.mem_cons_self
  | case3 part more hmore ih =>
    have hpart := h part List.mem_cons_self
    have hrest := ih hmore fun p hp => h p (List.mem_cons_of_mem _ hp)
    refine ⟨?_, ?_, ?_⟩
    · simp [hpart.no_open, hrest.no_open]
    · simp [hpart.no_close, hrest.no_close]
    · rw [List.append_assoc]
      exact hpart.firm.around hrest.firm [' ']

theorem groupsFrom_inside {g : List Char} (ho : '(' ∉ g) (hc : ')' ∉ g) (read rest : List Char) :
    groupsFrom (some read) (g ++ ')' :: rest) = (read.reverse ++ g) :: groupsFrom none rest := by
  induction g generalizing read with
  | nil => simp [groupsFrom]
  | cons c g ih =>
    rw [List.mem_cons, not_or] at ho hc
    rw [List.cons_append, groupsFrom, if_neg (Ne.symm ho.1), if_neg (Ne.symm hc.1), Option.map_some,
      ih ho.2 hc.2]
    simp

theorem groupsFrom_inParentheses {groups : List (List Char)} (h : ∀ g ∈ groups, IsGroup g) :
    groupsFrom none (inParentheses groups) = groups := by
  have hfirst : ∀ g rest, IsGroup g →
      groupsFrom none ('(' :: (g ++ [')']) ++ rest) = g :: groupsFrom none rest := by
    intro g rest hg
    rw [List.cons_append, List.append_assoc, groupsFrom, if_pos rfl, List.singleton_append,
      groupsFrom_inside hg.no_open hg.no_close]
    rfl
  unfold inParentheses
  induction groups with
  | nil => rfl
  | cons g groups ih =>
    rw [List.forall_mem_cons] at h
    cases groups with
    | nil => simpa [join, groupsFrom] using hfirst g [] h.1
    | cons g' groups =>
      have hspace : ∀ rest, groupsFrom none (' ' :: rest) = groupsFrom none rest := fun rest => rfl
      have hrest := ih h.2
      rw [List.map_cons] at hrest
      rw [List.map_cons, List.map_cons, join_cons_cons, hfirst g _ h.1, List.singleton_append,
        hspace, hrest]

theorem withMetrics_inParentheses (step : Step) (mode : Mode) {groups : List (List Char)}
    (h : ∀ g ∈ groups, IsGroup g) :
    step.withMetrics mode (inParentheses groups)
      = (groups.foldl (Reading.addGroup mode) { step }).step := by
  have htrim : groups.map trim = groups := by
    rw [List.map_congr_left fun g hg => (h g hg).firm.trim, List.map_id']
  rw [Step.withMetrics, groupsFrom_inParentheses h, htrim]

theorem getLast?_inParentheses {groups : List (List Char)} (hne : groups ≠ []) :
    (inParentheses groups).getLast? = some ')' := by
  unfold inParentheses
  induction groups with
  | nil => exact absurd rfl hne
  | cons g groups ih =>
    cases groups with
    | nil =>
      have hlast : ('(' :: g ++ [')']).getLast? = some ')' := List.getLast?_concat
      exact hlast
    | cons g' groups =>
      have hrest := ih (List.cons_ne_nil _ _)
      rw [List.map_cons] at hrest
      rw [List.map_cons, List.map_cons, join_cons_cons, List.getLast?_append, List.getLast?_append,
        hrest]
      rfl

/-- A line with groups gives a step with what is read from the groups, one after the other. -/
theorem read?_groups (mode : Mode) {indent operation : List Char} (hi : '-' ∉ indent)
    (hc : Clear operation) {groups : List (List Char)} (hg : ∀ g ∈ groups, IsGroup g)
    (ho : opensMetrics (inParentheses groups) = true) :
    ∃ l, Line.read? mode
        (indent ++ ("-> ".toList ++ (operation ++ ' ' :: ' ' :: inParentheses groups))) = some l ∧
      l.step = (groups.foldl (Reading.addGroup mode)
        { step := { operation := String.ofList (trim operation) } }).step := by
  have hne : groups ≠ [] := by
    rintro rfl
    cases ho
  refine ⟨_, read?_metrics mode hi hc ho (getLast?_inParentheses hne), ?_⟩
  exact withMetrics_inParentheses _ mode hg

/-! ## The parts of a group -/

/-- What may stand behind a part: nothing, or a space. -/
def Stops (rest : List Char) : Prop := ∀ c ∈ rest.head?, c = ' '

theorem Stops.endsBefore {rest : List Char} (h : Stops rest) (n : Numeral) : n.EndsBefore rest := by
  cases rest with
  | nil => exact endsBefore_nil n
  | cons c rest =>
    cases h c rfl
    exact endsBefore_cons n (by decide) rest

theorem Stops.rangeEnd? {rest : List Char} (h : Stops rest) : rangeEnd? rest = none := by
  cases rest with
  | nil => rfl
  | cons c rest =>
    cases h c rfl
    rfl

theorem exists_join_cons (part : List Char) (parts : List (List Char)) :
    ∃ rest, join [' '] (part :: parts) = part ++ rest ∧ Stops rest := by
  cases parts with
  | nil => exact ⟨[], (List.append_nil _).symm, by rintro c ⟨⟩⟩
  | cons p ps =>
    refine ⟨' ' :: join [' '] (p :: ps), by simp [join], ?_⟩
    rintro c ⟨⟩
    rfl

section
variable {α : Type} {read : List Char → Option α} {k : Char}

/-- A value is found at the first part that starts with its name. -/
theorem firstAtWordStart_parts (hk : ∀ c more, c ≠ k → read (c :: more) = none) (hspace : k ≠ ' ')
    {lead parts : List (List Char)} (hlead : ∀ p ∈ lead, k ∉ p) {before : Option Char}
    (hb : lead = [] → wordMayStart before = true) {tail : List Char} {a : α}
    (hread : ∀ rest, Stops rest → read (k :: (tail ++ rest)) = some a) :
    firstAtWordStart read before (join [' '] (lead ++ (k :: tail) :: parts)) = some a := by
  obtain ⟨rest, hrest, hstops⟩ := exists_join_cons (k :: tail) parts
  rw [join_append_cons, hrest, List.cons_append]
  apply firstAtWordStart_found hk _ _ (hread rest hstops)
  · intro hmem
    obtain ⟨p, hp, hc⟩ := List.mem_flatMap.mp hmem
    rcases List.mem_append.mp hc with hc | hc
    · exact hlead p hp hc
    · exact hspace (List.mem_singleton.mp hc)
  · rcases List.eq_nil_or_concat lead with rfl | ⟨init, last, rfl⟩
    · exact hb rfl
    · simp [List.getLast?_append]
      rfl

theorem firstAtWordStart_parts_none (hk : ∀ c more, c ≠ k → read (c :: more) = none)
    (hspace : k ≠ ' ') {parts : List (List Char)} (h : ∀ p ∈ parts, k ∉ p) (before : Option Char) :
    firstAtWordStart read before (join [' '] parts) = none := by
  apply firstAtWordStart_none hk
  intro hmem
  rcases mem_join hmem with hc | ⟨p, hp, hc⟩
  · exact hspace (List.mem_singleton.mp hc)
  · exact h p hp hc

end

/-! ## Numbers under their names -/

/-- The numbers in a group: those that are written, in this order. -/
structure Numbers where
  cost : Option Numeral := none
  rows : Option Numeral := none
  loops : Option (List Char) := none

namespace Numbers

def parts (w : Numbers) : List (List Char) :=
  (w.cost.map fun n => "cost=".toList ++ n.text).toList
    ++ (w.rows.map fun n => "rows=".toList ++ n.text).toList
    ++ (w.loops.map fun ds => "loops=".toList ++ ds).toList

structure Proper (w : Numbers) : Prop where
  cost : ∀ n ∈ w.cost, n.Proper
  rows : ∀ n ∈ w.rows, n.Proper
  loops : ∀ ds ∈ w.loops, ds ≠ [] ∧ AllDigits ds

/-- The count of loops that is read. -/
def loopCount (w : Numbers) : Option Nat :=
  w.loops.bind fun ds => (natural? ds).filter (· ≤ maxLoops)

end Numbers

theorem isGroup_of_numeralChars {cs : List Char} (hne : cs ≠ [])
    (h : ∀ c ∈ cs, isNumeralChar c = true) : IsGroup cs := by
  refine ⟨fun hc => ?_, fun hc => ?_, ?_⟩
  · exact absurd (h _ hc) (by decide)
  · exact absurd (h _ hc) (by decide)
  · exact firm_of_no_blank hne fun c hc => isBlank_of_isNumeralChar (h c hc)

theorem isGroup_text {n : Numeral} (h : n.Proper) : IsGroup n.text :=
  isGroup_of_numeralChars (text_ne_nil h) (isNumeralChar_of_mem_text h)

theorem isGroup_names :
    IsGroup "cost=".toList ∧ IsGroup "rows=".toList ∧ IsGroup "loops=".toList ∧
      IsGroup "actual time=".toList := by
  have hgroup : ∀ {cs : List Char} (first last : Char), cs.head? = some first →
      cs.getLast? = some last → ('(' ∉ cs ∧ ')' ∉ cs ∧ isBlank first = false ∧
      isBlank last = false) → IsGroup cs :=
    fun first last hfirst hlast h =>
      ⟨h.1, h.2.1, ⟨first, hfirst, h.2.2.1⟩, ⟨last, hlast, h.2.2.2⟩⟩
  exact ⟨hgroup 'c' '=' rfl rfl (by decide), hgroup 'r' '=' rfl rfl (by decide),
    hgroup 'l' '=' rfl rfl (by decide), hgroup 'a' '=' rfl rfl (by decide)⟩

/-- What holds of each part that may be written holds of all parts. -/
theorem Numbers.forall_parts {w : Numbers} {P : List Char → Prop}
    (hc : ∀ n ∈ w.cost, P ("cost=".toList ++ n.text))
    (hr : ∀ n ∈ w.rows, P ("rows=".toList ++ n.text))
    (hl : ∀ ds ∈ w.loops, P ("loops=".toList ++ ds)) : ∀ p ∈ w.parts, P p := by
  intro p hp
  simp only [parts, List.mem_append, Option.mem_toList, Option.map_eq_some_iff] at hp
  rcases hp with (⟨n, hn, rfl⟩ | ⟨n, hn, rfl⟩) | ⟨ds, hds, rfl⟩
  · exact hc n hn
  · exact hr n hn
  · exact hl ds hds

theorem Numbers.Proper.isGroup {w : Numbers} (h : w.Proper) : ∀ p ∈ w.parts, IsGroup p := by
  obtain ⟨hcost, hrows, hloops, _⟩ := isGroup_names
  apply Numbers.forall_parts
  · exact fun n hn => hcost.append (isGroup_text (h.cost n hn))
  · exact fun n hn => hrows.append (isGroup_text (h.rows n hn))
  · intro ds hds
    obtain ⟨hne, hdigits⟩ := h.loops ds hds
    exact hloops.append (isGroup_of_numeralChars hne hdigits.isNumeralChar)

/-- No letter but those of its name stands in a part. -/
theorem not_mem_part {name value : List Char} {k : Char} (hname : k ∉ name)
    (hk : isNumeralChar k = false) (hv : ∀ c ∈ value, isNumeralChar c = true) :
    k ∉ name ++ value := by
  rw [List.mem_append, not_or]
  refine ⟨hname, fun hmem => ?_⟩
  rw [hv k hmem] at hk
  cases hk

/-! ## What is read from a group -/

theorem costAt?_of_ne (c : Char) (more : List Char) (hc : c ≠ 'c') :
    costAt? (c :: more) = none := by
  rw [costAt?, after?_of_ne rfl hc]
  rfl

theorem rowsAt?_of_ne (c : Char) (more : List Char) (hc : c ≠ 'r') :
    rowsAt? (c :: more) = none := by
  rw [rowsAt?, after?_of_ne rfl hc]
  rfl

theorem loopsAt?_of_ne (c : Char) (more : List Char) (hc : c ≠ 'l') :
    loopsAt? (c :: more) = none := by
  rw [loopsAt?, after?_of_ne rfl hc]
  rfl

theorem costAt?_text {n : Numeral} (h : n.Proper) {rest : List Char} (hr : Stops rest) :
    costAt? ("cost=".toList ++ (n.text ++ rest)) = some n := by
  rw [costAt?, after?_append, Option.bind_some, read?_text h (hr.endsBefore n), Option.map_some]
  dsimp only
  rw [hr.rangeEnd?]
  rfl

theorem rowsAt?_text {n : Numeral} (h : n.Proper) {rest : List Char} (hr : Stops rest) :
    rowsAt? ("rows=".toList ++ (n.text ++ rest)) = some n := by
  rw [rowsAt?, after?_append, Option.bind_some, read?_text h (hr.endsBefore n)]
  rfl

theorem loopsAt?_text {ds rest : List Char} (hne : ds ≠ []) (hd : AllDigits ds) (hr : Stops rest) :
    loopsAt? ("loops=".toList ++ (ds ++ rest)) = some ds := by
  have hstop : ∀ c ∈ rest.head?, isAnyDigit c = false := by
    intro c hc
    rw [hr c hc]
    decide
  have hrun : (ds ++ rest).takeWhile isAnyDigit = ds :=
    congrArg Prod.fst (takeRun_append hd hstop)
  rw [loopsAt?, after?_append, Option.bind_some, hrun]
  cases ds with
  | nil => exact absurd rfl hne
  | cons d ds => rfl

section
variable {w : Numbers} (h : w.Proper)
include h

theorem Numbers.Proper.not_mem_parts {k : Char} (hk : isNumeralChar k = false)
    (hc : w.cost = none ∨ k ∉ "cost=".toList) (hr : w.rows = none ∨ k ∉ "rows=".toList)
    (hl : w.loops = none ∨ k ∉ "loops=".toList) : ∀ p ∈ w.parts, k ∉ p := by
  apply Numbers.forall_parts
  · intro n hn
    have hname := hc.resolve_left (by rw [hn]; exact Option.some_ne_none n)
    exact not_mem_part hname hk (isNumeralChar_of_mem_text (h.cost n hn))
  · intro n hn
    have hname := hr.resolve_left (by rw [hn]; exact Option.some_ne_none n)
    exact not_mem_part hname hk (isNumeralChar_of_mem_text (h.rows n hn))
  · intro ds hds
    have hname := hl.resolve_left (by rw [hds]; exact Option.some_ne_none ds)
    exact not_mem_part hname hk (h.loops ds hds).2.isNumeralChar

theorem costIn_parts : costIn (join [' '] w.parts) = w.cost.bind Numeral.value? := by
  unfold costIn
  cases hc : w.cost with
  | none =>
    rw [firstAtWordStart_parts_none costAt?_of_ne (by decide)
      (h.not_mem_parts (by decide) (.inl hc) (.inr (by decide)) (.inr (by decide)))]
  | some n =>
    have hparts : w.parts
        = [] ++ ('c' :: ("ost=".toList ++ n.text)) :: { w with cost := none }.parts := by
      simp [Numbers.parts, hc]
    have hread : ∀ rest, Stops rest →
        costAt? ('c' :: ("ost=".toList ++ n.text ++ rest)) = some n := by
      intro rest hrest
      rw [List.append_assoc]
      exact costAt?_text (h.cost n hc) hrest
    rw [hparts, firstAtWordStart_parts costAt?_of_ne (by decide) (by simp) (fun _ => rfl) hread]

/-- The rows are found behind parts that have no r. -/
theorem rowsIn_parts {lead : List (List Char)} (hlead : ∀ p ∈ lead, 'r' ∉ p) :
    rowsIn (join [' '] (lead ++ w.parts)) = w.rows.bind Numeral.value? := by
  unfold rowsIn
  cases hr : w.rows with
  | none =>
    have hnone : ∀ p ∈ lead ++ w.parts, 'r' ∉ p := List.forall_mem_append.mpr ⟨hlead,
      h.not_mem_parts (by decide) (.inr (by decide)) (.inl hr) (.inr (by decide))⟩
    rw [firstAtWordStart_parts_none rowsAt?_of_ne (by decide) hnone]
  | some n =>
    have hparts : lead ++ w.parts = (lead ++ Numbers.parts { cost := w.cost })
        ++ ('r' :: ("ows=".toList ++ n.text)) :: Numbers.parts { loops := w.loops } := by
      simp [Numbers.parts, hr]
    have hfront : ∀ p ∈ lead ++ Numbers.parts { cost := w.cost }, 'r' ∉ p := by
      refine List.forall_mem_append.mpr ⟨hlead, ?_⟩
      have hcost : (Numbers.mk w.cost none none).Proper :=
        ⟨h.cost, by rintro n ⟨⟩, by rintro ds ⟨⟩⟩
      exact hcost.not_mem_parts (by decide) (.inr (by decide)) (.inl rfl) (.inl rfl)
    have hread : ∀ rest, Stops rest →
        rowsAt? ('r' :: ("ows=".toList ++ n.text ++ rest)) = some n := by
      intro rest hrest
      rw [List.append_assoc]
      exact rowsAt?_text (h.rows n hr) hrest
    rw [hparts, firstAtWordStart_parts rowsAt?_of_ne (by decide) hfront (fun _ => rfl) hread]

/-- The count of loops is found behind parts that have no l. -/
theorem loopsAt?_parts {lead : List (List Char)} (hlead : ∀ p ∈ lead, 'l' ∉ p) {before : Option Char}
    (hb : lead = [] → wordMayStart before = true) :
    firstAtWordStart loopsAt? before (join [' '] (lead ++ w.parts)) = w.loops := by
  cases hl : w.loops with
  | none =>
    have hnone : ∀ p ∈ lead ++ w.parts, 'l' ∉ p := List.forall_mem_append.mpr ⟨hlead,
      h.not_mem_parts (by decide) (.inr (by decide)) (.inr (by decide)) (.inl hl)⟩
    exact firstAtWordStart_parts_none loopsAt?_of_ne (by decide) hnone _
  | some ds =>
    obtain ⟨hne, hdigits⟩ := h.loops ds hl
    have hparts : lead ++ w.parts = (lead ++ { w with loops := none }.parts)
        ++ [('l' :: ("oops=".toList ++ ds))] := by
      simp [Numbers.parts, hl]
    have hfront : ∀ p ∈ lead ++ { w with loops := none }.parts, 'l' ∉ p := by
      refine List.forall_mem_append.mpr ⟨hlead, ?_⟩
      have hrest : { w with loops := none }.Proper := ⟨h.cost, h.rows, by rintro ds ⟨⟩⟩
      exact hrest.not_mem_parts (by decide) (.inr (by decide)) (.inr (by decide)) (.inl rfl)
    have hread : ∀ rest, Stops rest →
        loopsAt? ('l' :: ("oops=".toList ++ ds ++ rest)) = some ds := by
      intro rest hrest
      rw [List.append_assoc]
      exact loopsAt?_text hne hdigits hrest
    rw [hparts]
    refine firstAtWordStart_parts loopsAt?_of_ne (by decide) hfront (fun hnil => hb ?_) hread
    exact (List.append_eq_nil_iff.mp hnil).1

theorem isActualGroup_parts : isActualGroup (join [' '] w.parts) = false := by
  have hparts := h.not_mem_parts (k := 'a') (by decide) (.inr (by decide)) (.inr (by decide))
    (.inr (by decide))
  rw [isActualGroup, ← Bool.not_eq_true, startsWith_iff]
  intro hactual
  have hmem : 'a' ∈ join [' '] w.parts := hactual.subset List.mem_cons_self
  rcases mem_join hmem with hc | ⟨p, hp, hc⟩
  · exact absurd hc (by decide)
  · exact hparts p hp hc

theorem isEstimateGroup_parts :
    isEstimateGroup (join [' '] w.parts) = (w.cost.isSome || w.rows.isSome) := by
  have hnone : ∀ {name : List Char} {k : Char}, k ∈ name → k ≠ ' ' → (∀ p ∈ w.parts, k ∉ p) →
      occursIn name (join [' '] w.parts) = false := by
    intro name k hk hspace hparts
    rw [← Bool.not_eq_true, occursIn_iff]
    intro hoccurs
    rcases mem_join (hoccurs.subset hk) with hc | ⟨p, hp, hc⟩
    · exact hspace (List.mem_singleton.mp hc)
    · exact hparts p hp hc
  have hsome : ∀ name value : List Char, name ++ value ∈ w.parts →
      occursIn name (join [' '] w.parts) = true := by
    intro name value hmem
    rw [occursIn_iff]
    exact (List.prefix_append name value).isInfix.trans (part_isInfixOf_join [' '] hmem)
  unfold isEstimateGroup
  congr 1
  · cases hc : w.cost with
    | none =>
      exact hnone (k := 'c') (by decide) (by decide)
        (h.not_mem_parts (by decide) (.inl hc) (.inr (by decide)) (.inr (by decide)))
    | some n => exact hsome _ n.text (by simp [Numbers.parts, hc])
  · cases hr : w.rows with
    | none =>
      exact hnone (k := 'r') (by decide) (by decide)
        (h.not_mem_parts (by decide) (.inr (by decide)) (.inl hr) (.inr (by decide)))
    | some n => exact hsome _ n.text (by simp [Numbers.parts, hr])

/-- A group of numbers is taken for the estimate, if it tells a cost or rows and none was seen. -/
theorem addGroup_numbers (mode : Mode) (r : Reading) :
    r.addGroup mode (join [' '] w.parts)
      = if !r.seenEstimate && (w.cost.isSome || w.rows.isSome) then
          { r with
            step := { r.step with
              cost := w.cost.bind Numeral.value?
              estimatedRows := w.rows.bind Numeral.value? }
            seenEstimate := true }
        else r := by
  have hrows : rowsIn (join [' '] ([] ++ w.parts)) = _ := rowsIn_parts h (by simp)
  rw [List.nil_append] at hrows
  rw [Reading.addGroup, isActualGroup_parts h, isEstimateGroup_parts h, Step.withEstimate,
    costIn_parts h, hrows]
  rfl

end

end QueryReview.Plan
