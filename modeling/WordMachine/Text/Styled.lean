import WordMachine.Text.Blank
import WordMachine.Text.Columns
import WordMachine.Text.Control

/-!
Styled text as a display of a given width shows it. A line feed ends a line and the styles in it, a
tab goes on to the next stop, and white space at the end of a line is not shown where it would lie
past the edge; nothing else is cut or wrapped.
-/
namespace WordMachine.Text

inductive Style where
  | bold
  | yellow
  | brightBlue
  deriving DecidableEq, Repr

def Style.code : Style → String
  | .bold => "1"
  | .yellow => "33"
  | .brightBlue => "94"

structure Piece where
  style : Option Style
  text : List Char
  deriving DecidableEq, Repr

namespace Piece

/-- A piece without the control codes that a display would act on. -/
def ofText (style : Option Style) (text : String) : Piece :=
  { style, text := text.toList.filter (!isDisplayControl ·) }

/-- The codes that switch a style on and off again; nothing is written for an empty piece. -/
def render (p : Piece) : String :=
  if p.text.isEmpty then ""
  else match p.style with
    | none => String.ofList p.text
    | some style => "\x1b[" ++ style.code ++ "m" ++ String.ofList p.text ++ "\x1b[0m"

def cut (p : Piece) (isEnd : Char → Bool) : List Piece :=
  go [] p.text
where
  go (before : List Char) : List Char → List Piece
    | [] => [{ p with text := before.reverse }]
    | c :: rest =>
      if isEnd c then { p with text := before.reverse } :: go [] rest else go (c :: before) rest

theorem cut_go_eq (p : Piece) {isEnd : Char → Bool} (before : List Char) {text : List Char}
    (h : ∀ c ∈ text, isEnd c = false) :
    cut.go p isEnd before text = [{ p with text := before.reverse ++ text }] := by
  induction text generalizing before with
  | nil => simp [cut.go]
  | cons c rest ih =>
    rw [cut.go, if_neg (by simp [h c]), ih _ fun d hd => h d (List.mem_cons_of_mem _ hd)]
    simp

theorem cut_eq_singleton (p : Piece) {isEnd : Char → Bool} (h : ∀ c ∈ p.text, isEnd c = false) :
    p.cut isEnd = [p] := by
  rw [cut, cut_go_eq p [] h, List.reverse_nil, List.nil_append]

end Piece

/-- Puts the lines of one piece in front of the lines of what follows it: its last line is the
beginning of their first one. -/
def joinLines : List Piece → List (List Piece) → List (List Piece)
  | [], lines => lines
  | [last], line :: lines => (last :: line) :: lines
  | p :: rest, lines => [p] :: joinLines rest lines

def linesOf : List Piece → List (List Piece)
  | [] => [[]]
  | p :: rest => joinLines (p.cut (· == '\n')) (linesOf rest)

def tabSize : Nat := 8

/-- Fills up the parts of a piece that were followed by a tab, given the column where the first one
begins; the last part was not. -/
def fillParts (column : Nat) : List Piece → List Piece × Nat
  | [] => ([], column)
  | [last] => ([last], column + columnCount last.text)
  | p :: rest =>
    let column := column + columnCount p.text
    let fill := tabSize - column % tabSize
    let (rest, column) := fillParts (column + fill) rest
    ({ p with text := p.text ++ List.replicate fill ' ' } :: rest, column)

def expandTabs (column : Nat) : List Piece → List Piece
  | [] => []
  | p :: rest =>
    let (parts, column) := fillParts column (p.cut (· == '\t'))
    parts ++ expandTabs column rest

def dropReversed (n : Nat) : List Piece → List Piece
  | [] => []
  | p :: rest =>
    if n = 0 then p :: rest
    else if n < p.text.length then { p with text := p.text.take (p.text.length - n) } :: rest
    else dropReversed (n - p.text.length) rest

/-- Drops white space at the end of a line, as much as lies past the edge. -/
def trimPast (width : Nat) (line : List Piece) : List Piece :=
  let text := line.flatMap (·.text)
  let blank := (text.reverse.takeWhile isBlank).length
  (dropReversed (min blank (text.length - width)) line.reverse).reverse

/-- A row of pieces on a display of so many columns. -/
def display (width : Nat) (pieces : List Piece) : String :=
  "\n".intercalate ((linesOf pieces).map fun line =>
    String.join ((trimPast width (expandTabs 0 line)).map Piece.render))

theorem linesOf_eq_singleton {pieces : List Piece}
    (h : ∀ p ∈ pieces, ∀ c ∈ p.text, c ≠ '\n') : linesOf pieces = [pieces] := by
  induction pieces with
  | nil => rfl
  | cons p rest ih =>
    rw [linesOf, ih fun q hq => h q (List.mem_cons_of_mem _ hq),
      p.cut_eq_singleton fun c hc => by simpa using h p List.mem_cons_self c hc]
    rfl

theorem expandTabs_eq_self {line : List Piece} (h : ∀ p ∈ line, ∀ c ∈ p.text, c ≠ '\t')
    (column : Nat) : expandTabs column line = line := by
  induction line generalizing column with
  | nil => rfl
  | cons p rest ih =>
    rw [expandTabs, p.cut_eq_singleton fun c hc => by simpa using h p List.mem_cons_self c hc]
    exact congrArg (p :: ·) (ih (fun q hq => h q (List.mem_cons_of_mem _ hq)) _)

end WordMachine.Text
