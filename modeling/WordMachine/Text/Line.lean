/-!
Lines of a text. Files are read with every kind of line end turned into a line feed; a text that is
already in memory can be cut at more characters than that.
-/
namespace WordMachine.Text

/-- Turns a carriage return, with the line feed after it if there is one, into a line feed. -/
def unifyLineEnds : List Char → List Char
  | '\r' :: '\n' :: rest => '\n' :: unifyLineEnds rest
  | '\r' :: rest => '\n' :: unifyLineEnds rest
  | c :: rest => c :: unifyLineEnds rest
  | [] => []

def isLineEnd (c : Char) : Bool :=
  let n := c.toNat
  (0x0A ≤ n && n ≤ 0x0D) || (0x1C ≤ n && n ≤ 0x1E) || n == 0x85 || n == 0x2028 || n == 0x2029

/-- Cuts a text at its line ends and drops them; nothing follows a line end at the very end. The
first argument is the line read so far, in reverse. -/
def linesFrom (line : List Char) : List Char → List (List Char)
  | [] => if line.isEmpty then [] else [line.reverse]
  | '\r' :: '\n' :: rest => line.reverse :: linesFrom [] rest
  | c :: rest =>
    if isLineEnd c then line.reverse :: linesFrom [] rest else linesFrom (c :: line) rest

def splitLines (text : List Char) : List (List Char) := linesFrom [] text

/-- The lines of an input stream, which only line feeds end. -/
def streamFrom (line : List Char) : List Char → List (List Char)
  | [] => if line.isEmpty then [] else [line.reverse]
  | c :: rest =>
    if c = '\n' then line.reverse :: streamFrom [] rest else streamFrom (c :: line) rest

def streamLines (text : List Char) : List (List Char) := streamFrom [] text

end WordMachine.Text
