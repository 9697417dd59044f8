import WordMachine.Memory

/-!
Program images: words packed as pairs of bytes, the low byte first. A byte that is left over at the
end of an image replaces the low half of its cell.
-/
namespace WordMachine

/-- The two bytes of a word, the low one first. -/
def Word.bytes (w : Word) : List UInt8 := [w.toUInt8, (w >>> 8).toUInt8]

def Word.ofBytes (low high : UInt8) : Word := low.toUInt16 ||| (high.toUInt16 <<< 8)

/-- The same word with another low byte. -/
def Word.withLow (w : Word) (low : UInt8) : Word := (w &&& 0xFF00) ||| low.toUInt16

theorem Word.toNat_ofBytes (low high : UInt8) :
    (Word.ofBytes low high).toNat = 256 * high.toNat + low.toNat := by
  have hl := low.toNat_lt
  have hh := high.toNat_lt
  have := Nat.two_pow_add_eq_or_of_lt (b := low.toNat) (i := 8) (by omega) high.toNat
  rw [ofBytes, UInt16.toNat_or, Nat.or_comm]
  simp only [UInt16.toNat_shiftLeft, UInt8.toNat_toUInt16, Nat.shiftLeft_eq]
  simp only [show (8 : UInt16).toNat % 16 = 8 from rfl]
  rw [Nat.mod_eq_of_lt (by omega), Nat.mul_comm, ← this]

theorem Word.ofBytes_bytes (w : Word) : Word.ofBytes w.toUInt8 (w >>> 8).toUInt8 = w := by
  apply UInt16.toNat_inj.mp
  have := w.toNat_lt
  rw [toNat_ofBytes]
  simp [Nat.shiftRight_eq_div_pow]
  omega

def packImage (ws : List Int) : Except Cause (List UInt8) := do
  let ws ← ws.mapM checkWord
  return ws.flatMap Word.bytes

namespace Memory

/-- Replaces the cells from an index on by the words of an image, as far as there are cells. -/
def overwrite (cells : Vector Word 32768) (i : Nat) : List UInt8 → Vector Word 32768
  | low :: high :: rest => overwrite (cells.setIfInBounds i (.ofBytes low high)) (i + 1) rest
  | [low] => cells.setIfInBounds i ((cells.getD i 0).withLow low)
  | [] => cells

/-- Loads an image from a cell on, refusing one that reaches past the end of memory. -/
def load (m : Memory) (image : List UInt8) (base : Int) : Except Cause Memory := do
  let i ← checkAddress base
  if 2 * i.val + image.length > 65536 then throw (.imageTooLong image.length base)
  return ⟨overwrite m.cells i image⟩

def ofImage (image : List UInt8) : Except Cause Memory := empty.load image 0

def imageCells (image : List UInt8) : Nat := (image.length + 1) / 2

end Memory

end WordMachine
