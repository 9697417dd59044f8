import WordMachine.Machine
import WordMachine.Text.Hex
import WordMachine.Text.Pad

/-!
The register table: one row for each register under a title with the program counter and the depth
of the stack. Columns are as wide as their widest entry, the title is centred over them and broken
where it does not fit.
-/
namespace WordMachine.Debugger

open Text

/-- A rule of the table: its left end, its line, the crossings and its right end. -/
structure Rule where
  left : String
  line : Char
  crossing : String
  right : String

def topRule : Rule := ⟨"┏", '━', "┳", "┓"⟩

def headRule : Rule := ⟨"┡", '━', "╇", "┩"⟩

def bottomRule : Rule := ⟨"└", '─', "┴", "┘"⟩

def Rule.draw (r : Rule) (widths : List Nat) : String :=
  r.left ++ r.crossing.intercalate
    (widths.map fun w => String.ofList (List.replicate (w + 2) r.line)) ++ r.right

def drawRow (bar : String) (widths : List Nat) (cells : List String) : String :=
  let padded := (widths.zip cells).mapIdx fun i (w, cell) =>
    if i = 0 then padRight w cell else padLeft w cell
  bar ++ bar.intercalate (padded.map fun cell => " " ++ cell ++ " ") ++ bar

def fold (width : Nat) (cs : List Char) : List (List Char) :=
  if 0 < width ∧ width < cs.length then cs.take width :: fold width (cs.drop width) else [cs]
  termination_by cs.length
  decreasing_by simp only [List.length_drop]; omega

def centre (width : Nat) (cs : List Char) : String :=
  let text := String.ofList (cs.reverse.dropWhile (· == ' ')).reverse
  padRight width (blanks ((width - text.length) / 2) ++ text)

/-- The lines of a title of two parts. The second part goes on a line of its own when the width is
used up, and a first part that is too wide by itself is folded. -/
def titleLines (width : Nat) (first second : String) : List (List Char) :=
  let pieces := if first.length ≤ width then [first.toList ++ [' ', ' ']]
    else fold width (first.toList ++ [' ', ' '])
  let last := pieces.getLast?.getD []
  if last.length + second.length ≤ width then pieces.dropLast ++ [last ++ second.toList]
  else pieces ++ [second.toList]

def registerTable (m : Machine) : List String :=
  let rows := m.registers.toList.mapIdx fun i v => [s!"R{i}", toString v, hex4 v]
  let heads := ["Reg", "Value", "Hex"]
  let widths := heads.mapIdx fun i head =>
    (rows.map fun row => (row.getD i "").length).foldl max head.length
  let width := widths.foldl (fun total w => total + w + 3) 1
  let title := titleLines width s!"pc={m.pc}" s!"stack={m.stack.length}"
  title.map (centre width) ++ [topRule.draw widths, drawRow "┃" widths heads, headRule.draw widths]
    ++ rows.map (drawRow "│" widths) ++ [bottomRule.draw widths]

end WordMachine.Debugger
