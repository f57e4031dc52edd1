-- How the rows of a table stand below each other. A column is as wide as the longest cell that any
-- row has in it, so it begins at the same place in every line. What is cut off the end of a line is
-- white space, so a cell is whole unless there is nothing more to see from its end on.
import Mathlib.Data.List.Forall2
import QueryReview.Proofs.Text.Blank
import QueryReview.Proofs.Text.Find
import QueryReview.Report.Columns

namespace QueryReview.Report

open Text

/-! ## The width of a column -/

/-- The number of characters in the longest cell of a column. -/
def widest (rows : List (List Cell)) (k : Nat) : Nat :=
  (rows.map fun row => (row[k]?.getD []).length).foldr max 0

/-- No cell is longer than a column may be wide. -/
def Fits (rows : List (List Cell)) : Prop :=
  ∀ row ∈ rows, ∀ cell ∈ row, cell.length ≤ maxWidth

instance (rows : List (List Cell)) : Decidable (Fits rows) :=
  inferInstanceAs (Decidable (∀ row ∈ rows, ∀ cell ∈ row, cell.length ≤ maxWidth))

theorem widest_cons (row : List Cell) (rows : List (List Cell)) (k : Nat) :
    widest (row :: rows) k = max (row[k]?.getD []).length (widest rows k) :=
  rfl

theorem widest_le_iff {rows : List (List Cell)} {k n : Nat} :
    widest rows k ≤ n ↔ ∀ row ∈ rows, ∀ cell, row[k]? = some cell → cell.length ≤ n := by
  induction rows with
  | nil => simp [widest]
  | cons row rows ih =>
    rw [widest_cons, Nat.max_le, ih, List.forall_mem_cons]
    refine and_congr_left fun _ => ?_
    cases row[k]? with
    | none => simp
    | some cell => simp

theorem length_le_widest {rows : List (List Cell)} {row : List Cell} (h : row ∈ rows) {k : Nat}
    {cell : Cell} (hcell : row[k]? = some cell) : cell.length ≤ widest rows k :=
  widest_le_iff.mp (Nat.le_refl _) row h cell hcell

theorem widest_le_maxWidth_iff {rows : List (List Cell)} :
    (∀ k, widest rows k ≤ maxWidth) ↔ Fits rows := by
  simp only [widest_le_iff, Fits, List.mem_iff_getElem?]
  constructor
  · rintro h row hrow cell ⟨k, hk⟩
    exact h k row hrow cell hk
  · intro h k row hrow cell hk
    exact h row hrow cell ⟨k, hk⟩

theorem length_widen (widths : List Nat) (row : List Cell) :
    (widen widths row).length = max widths.length row.length := by
  fun_induction widen widths row with
  | case1 widths => simp
  | case2 cell row ih => simp [ih]
  | case3 w widths cell row ih => simp [ih, Nat.succ_max_succ]

/-- A row widens each of its columns up to its cell there, and no other column. -/
theorem getElem?_widen (widths : List Nat) (row : List Cell) (k : Nat) :
    (widen widths row)[k]?.getD 0 = max (widths[k]?.getD 0) (row[k]?.getD []).length := by
  fun_induction widen widths row generalizing k with
  | case1 widths => simp
  | case2 cell row ih =>
    cases k with
    | zero => simp
    | succ k => simpa using ih k
  | case3 w widths cell row ih =>
    cases k with
    | zero => simp
    | succ k => simpa using ih k

theorem getElem?_foldl_widen (rows : List (List Cell)) (widths : List Nat) (k : Nat) :
    (rows.foldl widen widths)[k]?.getD 0 = max (widths[k]?.getD 0) (widest rows k) := by
  induction rows generalizing widths with
  | nil => simp [widest]
  | cons row rows ih =>
    rw [List.foldl_cons, ih, getElem?_widen, widest_cons, Nat.max_assoc]

theorem length_le_foldl_widen (rows : List (List Cell)) (widths : List Nat) :
    widths.length ≤ (rows.foldl widen widths).length ∧
      ∀ row ∈ rows, row.length ≤ (rows.foldl widen widths).length := by
  induction rows generalizing widths with
  | nil => simp
  | cons row rows ih =>
    obtain ⟨hwidths, hrows⟩ := ih (widen widths row)
    rw [length_widen] at hwidths
    rw [List.foldl_cons, List.forall_mem_cons]
    exact ⟨by omega, by omega, hrows⟩

/-- Every row has a width for each of its cells, and it is that of the longest cell there. -/
theorem getElem?_columnWidths {rows : List (List Cell)} {row : List Cell} (h : row ∈ rows) {k : Nat}
    (hk : k < row.length) : (columnWidths rows)[k]? = some (widest rows k) := by
  have hlength := (length_le_foldl_widen rows []).2 row h
  have hwidth := getElem?_foldl_widen rows [] k
  have hlt : k < (columnWidths rows).length := Nat.lt_of_lt_of_le hk hlength
  rw [List.getElem?_eq_getElem hlt]
  rw [← columnWidths, List.getElem?_eq_getElem hlt] at hwidth
  simpa using hwidth

theorem all_columnWidths_iff {rows : List (List Cell)} :
    ((columnWidths rows).all fun width => decide (width ≤ maxWidth)) = true ↔ Fits rows := by
  have hwidth (k : Nat) : (columnWidths rows)[k]?.getD 0 = widest rows k :=
    (getElem?_foldl_widen rows [] k).trans (Nat.zero_max _)
  rw [← widest_le_maxWidth_iff, List.all_eq_true]
  simp only [List.mem_iff_getElem?, decide_eq_true_eq]
  constructor
  · intro h k
    rw [← hwidth]
    cases hk : (columnWidths rows)[k]? with
    | none => exact Nat.zero_le _
    | some w => exact h w ⟨k, hk⟩
  · rintro h w ⟨k, hk⟩
    have hw := h k
    rwa [← hwidth, hk] at hw

/-- The rows stand in columns unless a cell is longer than a column may be wide. -/
theorem alignRows_iff {rows : List (List Cell)} {lines : List (List Char)} :
    alignRows rows = .ok lines ↔ Fits rows ∧ lines = rows.map (alignRow (columnWidths rows)) := by
  rw [← all_columnWidths_iff]
  simp only [alignRows]
  split
  · rename_i h
    simp [h, eq_comm]
  · rename_i h
    simp [h]

/-! ## Where the cells stand in a line -/

/-- Where a column begins: behind the columns before it, with two spaces after each. -/
def offset (rows : List (List Cell)) : Nat → Nat
  | 0 => 0
  | j + 1 => offset rows j + (widest rows j + 2)

/-- Something is to be seen in the row behind the cell. -/
def SeenBehind (row : List Cell) (j : Nat) : Prop :=
  ∃ cell ∈ row.drop (j + 1), ∃ c ∈ cell, isBlank c = false

/-- How a row of a table stands in its line, if the columns begin at the given places. -/
structure Laid (start : Nat → Nat) (row : List Cell) (text : List Char) : Prop where
  /-- A cell is whole and in its column, if it ends with something to see or has that behind it. -/
  whole : ∀ j cell, row[j]? = some cell →
    (∃ c ∈ cell.getLast?, isBlank c = false) ∨ SeenBehind row j →
    ∃ front back, text = front ++ cell ++ back ∧ front.length = start j
  /-- Two spaces or more stand between a cell and the next one, which begins in its own column. -/
  apart : ∀ j cell, row[j]? = some cell → SeenBehind row j →
    ∃ front spaces back, text = front ++ cell ++ List.replicate spaces ' ' ++ back ∧
      front.length = start j ∧ 2 ≤ spaces ∧
      start j + cell.length + spaces = start (j + 1)
  /-- There is nothing in the line but its cells, each in its column, and spaces. -/
  only : ∀ p c, text[p]? = some c →
    c = ' ' ∨ ∃ j cell, row[j]? = some cell ∧ start j ≤ p ∧
      cell[p - start j]? = some c
  /-- No white space stands at the end of the line. -/
  trimmed : ∀ c ∈ text.getLast?, isBlank c = false

/-- A character in a row of texts comes from one of the gaps or from one of the texts. -/
theorem getElem?_join_columnGap {parts : List (List Char)} {p : Nat} {c : Char}
    (h : (join columnGap parts)[p]? = some c) :
    c = ' ' ∨ ∃ j part, parts[j]? = some part ∧
      ((parts.take j).flatMap fun q => q ++ columnGap).length ≤ p ∧
      part[p - ((parts.take j).flatMap fun q => q ++ columnGap).length]? = some c := by
  fun_induction join columnGap parts generalizing p with
  | case1 => cases h
  | case2 part => exact .inr ⟨0, part, rfl, Nat.zero_le _, by simpa using h⟩
  | case3 part parts hne ih =>
    by_cases hfirst : p < part.length
    · rw [List.append_assoc, List.getElem?_append_left hfirst] at h
      exact .inr ⟨0, part, rfl, Nat.zero_le _, by simpa using h⟩
    by_cases hgap : p < (part ++ columnGap).length
    · rw [List.getElem?_append_left hgap, List.getElem?_append_right (by omega)] at h
      have hmem : c ∈ columnGap := List.mem_of_getElem? h
      left
      simpa [columnGap] using hmem
    · rw [List.getElem?_append_right (by omega)] at h
      rcases ih h with hspace | ⟨j, next, hnext, hle, hc⟩
      · exact .inl hspace
      · refine .inr ⟨j + 1, next, by simpa using hnext, ?_, ?_⟩
        · simp only [List.take_succ_cons, List.flatMap_cons, List.length_append] at *
          omega
        · simp only [List.take_succ_cons, List.flatMap_cons, List.length_append] at *
          rw [← Nat.sub_sub, ← Nat.sub_sub]
          rwa [← Nat.sub_sub] at hc

section
variable {rows : List (List Cell)} {row : List Cell}

/-- The cells of a row, each filled up to the width of its column. -/
def padded (rows : List (List Cell)) (row : List Cell) : List (List Char) :=
  List.zipWith (fun cell width => pad width cell) row (columnWidths rows)

theorem getElem?_padded (h : row ∈ rows) (j : Nat) :
    (padded rows row)[j]? = row[j]?.map (pad (widest rows j)) := by
  rw [padded, List.getElem?_zipWith]
  cases hcell : row[j]? with
  | none => rfl
  | some cell =>
    rw [getElem?_columnWidths h (List.getElem?_eq_some_iff.mp hcell).1]
    rfl

theorem length_pad {width : Nat} {cell : Cell} (h : cell.length ≤ width) :
    (pad width cell).length = width := by
  simp only [pad, List.length_append, List.length_replicate]
  omega

/-- What stands before a cell is as long as the columns before it. -/
theorem length_before_padded (h : row ∈ rows) {j : Nat} (hj : j ≤ row.length) :
    (((padded rows row).take j).flatMap fun q => q ++ columnGap).length = offset rows j := by
  induction j with
  | zero => rfl
  | succ j ih =>
    have hcell : row[j]? = some row[j] := List.getElem?_eq_getElem hj
    have hpart := getElem?_padded h j
    rw [hcell, Option.map_some] at hpart
    rw [List.take_add_one, hpart, List.flatMap_append, List.length_append, ih (by omega),
      offset]
    simp [length_pad (length_le_widest h hcell), columnGap]

/-- A cell in its line before the end of it is cut off: what stands before the cell is as long as
the columns before it, then the cell is filled up, and the next cells follow behind two spaces. -/
theorem join_padded (h : row ∈ rows) {j : Nat} {cell : Cell} (hcell : row[j]? = some cell) :
    ∃ front, front.length = offset rows j ∧
      join columnGap (padded rows row)
        = front ++ join columnGap (pad (widest rows j) cell :: (padded rows row).drop (j + 1)) := by
  have hpart := getElem?_padded h j
  rw [hcell, Option.map_some] at hpart
  obtain ⟨hlt, hget⟩ := List.getElem?_eq_some_iff.mp hpart
  have hle : j ≤ row.length := Nat.le_of_lt (List.getElem?_eq_some_iff.mp hcell).1
  refine ⟨_, length_before_padded h hle, ?_⟩
  rw [← join_append_cons, ← hget, ← List.drop_eq_getElem_cons hlt, List.take_append_drop]

theorem seen_in_padded {j : Nat} (h : row ∈ rows) (hseen : SeenBehind row j) :
    ∃ c ∈ join columnGap ((padded rows row).drop (j + 1)), isBlank c = false := by
  obtain ⟨cell, hcell, c, hc, hblank⟩ := hseen
  obtain ⟨i, hi⟩ := List.mem_iff_getElem?.mp hcell
  rw [List.getElem?_drop] at hi
  have hpart : pad (widest rows (j + 1 + i)) cell ∈ (padded rows row).drop (j + 1) := by
    rw [List.mem_iff_getElem?]
    exact ⟨i, by rw [List.getElem?_drop, getElem?_padded h, hi, Option.map_some]⟩
  refine ⟨c, (part_isInfixOf_join columnGap hpart).subset ?_, hblank⟩
  exact List.mem_append_left _ hc

/-- The columns are filled up with spaces, and two more stand before the next column. -/
theorem apart_of_seen (h : row ∈ rows) {j : Nat} {cell : Cell} (hcell : row[j]? = some cell)
    (hseen : SeenBehind row j) :
    ∃ front spaces back, alignRow (columnWidths rows) row
        = front ++ cell ++ List.replicate spaces ' ' ++ back ∧
      front.length = offset rows j ∧ 2 ≤ spaces ∧
      offset rows j + cell.length + spaces = offset rows (j + 1) := by
  obtain ⟨c, hc, hblank⟩ := seen_in_padded h hseen
  obtain ⟨front, hfront, hjoin⟩ := join_padded h hcell
  have hlength := length_le_widest h hcell
  obtain ⟨between, more, hbehind⟩ := List.append_of_mem hc
  cases hparts : (padded rows row).drop (j + 1) with
  | nil =>
    rw [hparts] at hc
    cases hc
  | cons next nexts =>
    have hgap : columnGap = List.replicate 2 ' ' := rfl
    have hspaces : List.replicate (widest rows j - cell.length) ' ' ++ columnGap
        = List.replicate (widest rows j - cell.length + 2) ' ' := by
      rw [hgap, List.replicate_append_replicate]
    have hline : join columnGap (padded rows row)
        = (front ++ cell ++ List.replicate (widest rows j - cell.length + 2) ' ' ++ between)
          ++ c :: more := by
      rw [hjoin, hparts, join_cons_cons, ← hparts, hbehind, pad, ← hspaces]
      simp only [List.append_assoc]
    obtain ⟨back, hback⟩ := trimEnd_append_cons hblank
      (front ++ cell ++ List.replicate (widest rows j - cell.length + 2) ' ' ++ between) more
    refine ⟨front, widest rows j - cell.length + 2, between ++ c :: back, ?_, hfront, by omega, ?_⟩
    · rw [alignRow, ← padded, hline, hback, List.append_assoc]
    · rw [offset]
      omega

/-- Nothing of a cell is cut off that ends with something to see. -/
theorem whole_of_last (h : row ∈ rows) {j : Nat} {cell : Cell} (hcell : row[j]? = some cell)
    (hlast : ∃ c ∈ cell.getLast?, isBlank c = false) :
    ∃ front back, alignRow (columnWidths rows) row = front ++ cell ++ back ∧
      front.length = offset rows j := by
  obtain ⟨c, hc, hblank⟩ := hlast
  obtain ⟨init, rfl⟩ := List.getLast?_eq_some_iff.mp hc
  obtain ⟨front, hfront, hjoin⟩ := join_padded h hcell
  obtain ⟨rest, hrest⟩ := part_isPrefixOf_join columnGap (pad (widest rows j) (init ++ [c]))
    ((padded rows row).drop (j + 1))
  obtain ⟨back, hback⟩ := trimEnd_append_cons hblank (front ++ init)
    (List.replicate (widest rows j - (init ++ [c]).length) ' ' ++ rest)
  have hline : join columnGap (padded rows row) = (front ++ init)
      ++ c :: (List.replicate (widest rows j - (init ++ [c]).length) ' ' ++ rest) := by
    rw [hjoin, ← hrest, pad]
    simp
  refine ⟨front, back, ?_, hfront⟩
  rw [alignRow, ← padded, hline, hback]
  simp

theorem only_cells (h : row ∈ rows) {p : Nat} {c : Char}
    (hc : (alignRow (columnWidths rows) row)[p]? = some c) :
    c = ' ' ∨ ∃ j cell, row[j]? = some cell ∧ offset rows j ≤ p ∧
      cell[p - offset rows j]? = some c := by
  have hjoin : (join columnGap (padded rows row))[p]? = some c := by
    have hprefix : alignRow (columnWidths rows) row <+: join columnGap (padded rows row) :=
      trimEnd_isPrefixOf _
    obtain ⟨rest, hrest⟩ := hprefix
    rw [← hrest, List.getElem?_append_left (List.getElem?_eq_some_iff.mp hc).1, hc]
  rcases getElem?_join_columnGap hjoin with hspace | ⟨j, part, hpart, hle, hin⟩
  · exact .inl hspace
  rw [getElem?_padded h, Option.map_eq_some_iff] at hpart
  obtain ⟨cell, hcell, rfl⟩ := hpart
  rw [length_before_padded h (Nat.le_of_lt (List.getElem?_eq_some_iff.mp hcell).1)] at hle hin
  by_cases hinside : p - offset rows j < cell.length
  · rw [pad, List.getElem?_append_left hinside] at hin
    exact .inr ⟨j, cell, hcell, hle, hin⟩
  · rw [pad, List.getElem?_append_right (by omega)] at hin
    exact .inl (List.eq_of_mem_replicate (List.mem_of_getElem? hin))

theorem laid_alignRow (h : row ∈ rows) :
    Laid (offset rows) row (alignRow (columnWidths rows) row) where
  whole j cell hcell hkept := by
    rcases hkept with hlast | hseen
    · exact whole_of_last h hcell hlast
    · obtain ⟨front, spaces, back, hline, hfront, _⟩ := apart_of_seen h hcell hseen
      exact ⟨front, List.replicate spaces ' ' ++ back, by rw [hline, List.append_assoc], hfront⟩
  apart j cell hcell hseen := apart_of_seen h hcell hseen
  only p c hc := only_cells h hc
  trimmed := getLast?_trimEnd

theorem forall₂_laid (rows : List (List Cell)) :
    List.Forall₂ (Laid (offset rows)) rows (rows.map (alignRow (columnWidths rows))) := by
  rw [List.forall₂_map_right_iff, List.forall₂_same]
  exact fun row h => laid_alignRow h

end

/-! ## A table with a header -/

section
variable (header : List Cell) (rows : List (List Cell))

/-- A row of dashes, as many in each column as it is wide. -/
def rule : List Cell :=
  (columnWidths (header :: rows)).map fun width => List.replicate width '-'

theorem getElem?_rule (k : Nat) :
    ((rule header rows)[k]?.getD []).length = widest (header :: rows) k := by
  have hwidth := getElem?_foldl_widen (header :: rows) [] k
  rw [← columnWidths, List.getElem?_nil, Option.getD_none, Nat.zero_max] at hwidth
  rw [rule, List.getElem?_map, ← hwidth]
  cases (columnWidths (header :: rows))[k]? <;> simp

theorem eq_replicate_of_mem_rule {k : Nat} {cell : Cell} (h : (rule header rows)[k]? = some cell) :
    cell = List.replicate (widest (header :: rows) k) '-' := by
  have hlength := getElem?_rule header rows k
  rw [h, Option.getD_some] at hlength
  rw [rule, List.getElem?_map, Option.map_eq_some_iff] at h
  obtain ⟨width, _, rfl⟩ := h
  rw [← hlength, List.length_replicate]

/-- The row of dashes makes no column wider. -/
theorem widest_with_rule (k : Nat) :
    widest (header :: rule header rows :: rows) k = widest (header :: rows) k := by
  rw [widest_cons, widest_cons, getElem?_rule, widest_cons]
  omega

theorem offset_with_rule :
    offset (header :: rule header rows :: rows) = offset (header :: rows) := by
  funext j
  induction j with
  | zero => rfl
  | succ j ih => rw [offset, offset, ih, widest_with_rule]

theorem fits_with_rule : Fits (header :: rule header rows :: rows) ↔ Fits (header :: rows) := by
  simp only [← widest_le_maxWidth_iff, widest_with_rule]

end

/-- A line with dashes below all of each column, and nothing but spaces between them. -/
structure Ruled (rows : List (List Cell)) (text : List Char) : Prop where
  dashes : ∀ p, text[p]? = some '-' ↔
    ∃ k, offset rows k ≤ p ∧ p < offset rows k + widest rows k
  only : ∀ c ∈ text, c = '-' ∨ c = ' '
  trimmed : ∀ c ∈ text.getLast?, isBlank c = false

theorem Laid.ruled {header : List Cell} {rows : List (List Cell)} {line : List Char}
    (h : Laid (offset (header :: rows)) (rule header rows) line) : Ruled (header :: rows) line where
  dashes p := by
    constructor
    · intro hp
      rcases h.only p '-' hp with hspace | ⟨k, cell, hcell, hle, hin⟩
      · exact absurd hspace (by decide)
      · rw [eq_replicate_of_mem_rule header rows hcell] at hin
        have hlt := (List.getElem?_eq_some_iff.mp hin).1
        rw [List.length_replicate] at hlt
        exact ⟨k, hle, by omega⟩
    · rintro ⟨k, hle, hlt⟩
      have hlength := getElem?_rule header rows k
      cases hcell : (rule header rows)[k]? with
      | none =>
        rw [hcell, Option.getD_none, List.length_nil] at hlength
        omega
      | some cell =>
        obtain rfl := eq_replicate_of_mem_rule header rows hcell
        obtain ⟨front, back, rfl, hfront⟩ := h.whole k _ hcell
          (.inl ⟨'-', by rw [List.getLast?_replicate, if_neg (by omega)]; rfl, by decide⟩)
        rw [List.append_assoc, List.getElem?_append_right (by omega),
          List.getElem?_append_left (by rw [List.length_replicate]; omega),
          List.getElem?_replicate, if_pos (by omega)]
  only c hc := by
    obtain ⟨p, hp⟩ := List.mem_iff_getElem?.mp hc
    rcases h.only p c hp with hspace | ⟨k, cell, hcell, _, hin⟩
    · exact .inr hspace
    · rw [eq_replicate_of_mem_rule header rows hcell] at hin
      exact .inl (List.eq_of_mem_replicate (List.mem_of_getElem? hin))
  trimmed := h.trimmed

/-- A list of rows stands in columns exactly when no cell is longer than a column may be wide. Each
column then begins at one place in all lines: a cell is whole there if it ends with something to see
or has that behind it, two spaces or more stand in front of the next cell, and no line ends with
white space. A table has its header in the same columns, and a line that is dashes below all of each
column and spaces between them. -/
theorem the_cells_of_a_table_stand_in_columns (header : List Cell) (rows : List (List Cell)) :
    ((∃ lines, alignRows rows = .ok lines) ↔ Fits rows) ∧
    (∀ lines, alignRows rows = .ok lines → List.Forall₂ (Laid (offset rows)) rows lines) ∧
    ((∃ lines, alignTable header rows = .ok lines) ↔ Fits (header :: rows)) ∧
    ∀ lines, alignTable header rows = .ok lines →
      ∃ top dashes body, lines = top :: dashes :: body ∧
        Laid (offset (header :: rows)) header top ∧ Ruled (header :: rows) dashes ∧
        List.Forall₂ (Laid (offset (header :: rows))) rows body := by
  have htable : alignTable header rows = alignRows (header :: rule header rows :: rows) := rfl
  refine ⟨?_, ?_, ?_, ?_⟩
  · simp [alignRows_iff]
  · intro lines h
    obtain ⟨_, rfl⟩ := alignRows_iff.mp h
    exact forall₂_laid rows
  · simp [htable, alignRows_iff, fits_with_rule]
  · intro lines h
    obtain ⟨_, rfl⟩ := alignRows_iff.mp (htable.symm.trans h)
    have hlaid := forall₂_laid (header :: rule header rows :: rows)
    rw [offset_with_rule, List.map_cons, List.map_cons, List.forall₂_cons, List.forall₂_cons]
      at hlaid
    obtain ⟨htop, hdashes, hbody⟩ := hlaid
    exact ⟨_, _, _, rfl, htop, hdashes.ruled, hbody⟩

/-- An empty cell in the middle keeps its column, and one at the end leaves nothing. -/
theorem a_table_with_empty_cells_stands_in_columns :
    let header := ["Column".toList, "Default".toList, "Extra".toList]
    let rows := [["größe".toList, [], "x".toList], ["id".toList, "0".toList, []]]
    alignTable header rows = .ok ["Column  Default  Extra".toList, "------  -------  -----".toList,
        "größe            x".toList, "id      0".toList] ∧
      Ruled (header :: rows) "------  -------  -----".toList ∧
      List.Forall₂ (Laid (offset (header :: rows))) rows
        ["größe            x".toList, "id      0".toList] ∧
      alignRows rows = .ok ["größe     x".toList, "id     0".toList] ∧
      List.Forall₂ (Laid (offset rows)) rows ["größe     x".toList, "id     0".toList] := by
  intro header rows
  have htable : alignTable header rows = .ok ["Column  Default  Extra".toList,
      "------  -------  -----".toList, "größe            x".toList, "id      0".toList] := rfl
  have hrows : alignRows rows = .ok ["größe     x".toList, "id     0".toList] := rfl
  obtain ⟨_, hlaid, _, htables⟩ := the_cells_of_a_table_stand_in_columns header rows
  obtain ⟨top, dashes, body, hlines, _, hdashes, hbody⟩ := htables _ htable
  cases hlines
  exact ⟨htable, hdashes, hbody, hrows, hlaid _ hrows⟩

/-- A cell of more characters than a column may be wide leaves no line at all. -/
theorem a_cell_too_long_leaves_no_line :
    let rows : List (List Cell) := [[List.replicate 65536 'x']]
    (∀ row ∈ rows, row.length = 1) ∧ ¬∃ lines, alignRows rows = .ok lines := by
  intro rows
  constructor
  · intro row hrow
    rw [List.mem_singleton.mp hrow, List.length_singleton]
  rintro ⟨lines, h⟩
  have hfits := (alignRows_iff.mp h).1 _ (List.mem_singleton_self _) _ (List.mem_singleton_self _)
  rw [List.length_replicate] at hfits
  exact absurd hfits (by decide)

end QueryReview.Report
