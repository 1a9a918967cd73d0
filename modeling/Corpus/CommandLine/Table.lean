import Corpus.Text.Basic

/-!
# Plain tables

Rows of cells under a header. Every column is as wide as its widest cell, and two characters wider than
its header at least. A line of hyphens stands under the header, two spaces stand between columns, and
no line ends in a space.
-/

namespace Corpus.CommandLine

/-- The widths of the columns. -/
def columnWidths : List (List Text) → List Nat
  | [] => []
  | [row] => row.map List.length
  | row :: rows => List.zipWith max (row.map List.length) (columnWidths rows)

/-- A line of a table. -/
def tableLine (widths : List Nat) (cells : List Text) : Text :=
  let line := Text.joined "  ".toList (List.zipWith (fun cell width => cell.padded width) cells widths)
  (line.reverse.dropWhile (· = ' ')).reverse ++ ['\n']

/-- **A table in lines.** -/
def table (header : List Text) (rows : List (List Text)) : Text :=
  let widths := columnWidths (header.map (· ++ "  ".toList) :: rows)
  let rule := widths.map fun width => List.replicate width '-'
  (header :: rule :: rows).flatMap (tableLine widths)

end Corpus.CommandLine
