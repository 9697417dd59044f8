import WordMachine.Text.Utf8

/-!
The character console: bytes written by the program, bytes waiting to be read by it, and possibly a
sink that sees each written character as it comes.
-/
namespace WordMachine

/-- A text stream that has received some characters and been flushed some number of times. -/
structure Sink where
  text : String := ""
  flushes : Nat := 0
  deriving DecidableEq, Repr

def Sink.put (s : Sink) (b : UInt8) : Sink :=
  { text := s.text.push (Char.ofNat b.toNat)
    flushes := if b = 10 then s.flushes + 1 else s.flushes }

structure CharConsole where
  output : Array UInt8 := #[]
  queue : List UInt8 := []
  sink : Option Sink := none
  deriving DecidableEq, Repr

/-- A line as the program reads it: its UTF-8 bytes and a line feed. -/
def lineBytes (line : String) : List UInt8 := Text.utf8Encode line ++ [10]

namespace CharConsole

def lowByte (code : Int) : UInt8 := UInt8.ofNat (code % 256).toNat

theorem toNat_lowByte (code : Int) : (lowByte code).toNat = (code % 256).toNat := by
  have hlt : (code % 256).toNat < 256 := by omega
  rw [lowByte, UInt8.toNat_ofNat_of_lt' hlt]

theorem lowByte_eq_ten (code : Int) : lowByte code = 10 ↔ code % 256 = 10 := by
  rw [← UInt8.toNat_inj, toNat_lowByte]
  simp only [UInt8.reduceToNat]
  omega

def emit (c : CharConsole) (code : Int) : CharConsole :=
  let b := lowByte code
  { c with output := c.output.push b, sink := c.sink.map (·.put b) }

def feed (c : CharConsole) (line : String) : CharConsole :=
  { c with queue := c.queue ++ lineBytes line }

def feedAll (c : CharConsole) (lines : List String) : CharConsole :=
  { c with queue := c.queue ++ lines.flatMap lineBytes }

def take (c : CharConsole) : Option UInt8 × CharConsole :=
  match c.queue with
  | [] => (none, c)
  | b :: rest => (some b, { c with queue := rest })

/-- Forgets both sides; what a sink has received stays received. -/
def reset (c : CharConsole) : CharConsole := { c with output := #[], queue := [] }

theorem feedAll_nil (c : CharConsole) : c.feedAll [] = c := by
  simp [feedAll]

theorem feedAll_cons (c : CharConsole) (line : String) (lines : List String) :
    c.feedAll (line :: lines) = (c.feed line).feedAll lines := by
  simp [feedAll, feed]

def text (c : CharConsole) : String := Text.latin1 c.output.toList

end CharConsole

end WordMachine
