-- Tables of text: rows of cells under each other, each column as wide as its widest cell.
import QueryReview.Failure
import QueryReview.Text.Blank
import QueryReview.Text.Find

namespace QueryReview.Report

open Text

abbrev Cell := List Char

/-- What stands between two columns. -/
def columnGap : List Char := [' ', ' ']

/-- The widest that a column may be. -/
def maxWidth : Nat := Nat.pow 2 16 - 1

/-- The widths of the columns with one more row taken in. -/
def widen : List Nat → List Cell → List Nat
  | widths, [] => widths
  | [], cell :: row => cell.length :: widen [] row
  | w :: widths, cell :: row => max w cell.length :: widen widths row

/-- The widths of the columns. -/
def columnWidths (rows : List (List Cell)) : List Nat := rows.foldl widen []

/-- The cell, filled up with spaces behind it. -/
def pad (width : Nat) (cell : Cell) : List Char :=
  cell ++ List.replicate (width - cell.length) ' '

/-- The cells of a row in their columns, with no white space at the end of the line. -/
def alignRow (widths : List Nat) (row : List Cell) : List Char :=
  trimEnd (join columnGap (List.zipWith (fun cell width => pad width cell) row widths))

/-- The rows in columns. No column may be too wide. -/
def alignRows (rows : List (List Cell)) : Except Abort (List (List Char)) :=
  let widths := columnWidths rows
  if widths.all (· ≤ maxWidth) then .ok (rows.map (alignRow widths)) else .error .columnTooWide

/-- The header, a line of dashes under each column of it, and the rows. -/
def alignTable (header : List Cell) (rows : List (List Cell)) : Except Abort (List (List Char)) :=
  let dashes := (columnWidths (header :: rows)).map fun width => List.replicate width '-'
  alignRows (header :: dashes :: rows)

end QueryReview.Report
