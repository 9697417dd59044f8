/-!
White space and the words of a text. White space is what separates words in any script: the blanks
of every width, the ends of lines and paragraphs, and the separator controls.
-/
namespace WordMachine.Text

def isBlank (c : Char) : Bool :=
  let n := c.toNat
  (0x09 ≤ n && n ≤ 0x0D) || (0x1C ≤ n && n ≤ 0x20) || n == 0x85 || n == 0xA0 || n == 0x1680
    || (0x2000 ≤ n && n ≤ 0x200A) || n == 0x2028 || n == 0x2029 || n == 0x202F || n == 0x205F
    || n == 0x3000

/-- The words of a text: the longest pieces without white space. -/
def words (text : List Char) : List (List Char) :=
  match text with
  | [] => []
  | c :: rest =>
    if isBlank c then words rest
    else (c :: rest.takeWhile (!isBlank ·)) :: words (rest.dropWhile (!isBlank ·))
  termination_by text.length
  decreasing_by
    · simp
    · have := (List.dropWhile_sublist (l := rest) (!isBlank ·)).length_le
      simp only [List.length_cons]
      omega

def trimRight (text : List Char) : List Char := (text.reverse.dropWhile isBlank).reverse

end WordMachine.Text
