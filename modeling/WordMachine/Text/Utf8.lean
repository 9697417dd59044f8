/-!
UTF-8 text. Encoding is total; decoding either gives the text or says which bytes are in the way.
-/
namespace WordMachine.Text

def utf8Encode (text : String) : List UInt8 := text.toList.flatMap String.utf8EncodeChar

inductive Utf8Reason where
  | badStart
  | badContinuation
  | truncated
  deriving DecidableEq, Repr

def Utf8Reason.text : Utf8Reason → String
  | .badStart => "invalid start byte"
  | .badContinuation => "invalid continuation byte"
  | .truncated => "unexpected end of data"

/-- Bytes that are no UTF-8: where they begin, the bytes, and what is wrong with them. -/
structure Utf8Defect where
  position : Nat
  bytes : List UInt8
  reason : Utf8Reason
  deriving DecidableEq, Repr

/-- The continuation bytes that a first byte calls for: the bounds of the next one and how many
there are in all. -/
def leadRule? (b : UInt8) : Option (UInt8 × UInt8 × Nat) :=
  if b < 0xC2 then none
  else if b < 0xE0 then some (0x80, 0xBF, 1)
  else if b = 0xE0 then some (0xA0, 0xBF, 2)
  else if b = 0xED then some (0x80, 0x9F, 2)
  else if b < 0xF0 then some (0x80, 0xBF, 2)
  else if b = 0xF0 then some (0x90, 0xBF, 3)
  else if b < 0xF4 then some (0x80, 0xBF, 3)
  else if b = 0xF4 then some (0x80, 0x8F, 3)
  else none

def continuation (low high : UInt8) : Nat → List UInt8 → Nat × Option Utf8Reason
  | 0, _ => (0, none)
  | _ + 1, [] => (0, some .truncated)
  | n + 1, b :: rest =>
    if low ≤ b ∧ b ≤ high then
      let (good, reason) := continuation 0x80 0xBF n rest
      (good + 1, reason)
    else (0, some .badContinuation)

/-- The first defect at or after a position. -/
def firstDefect? (position : Nat) : List UInt8 → Option Utf8Defect
  | [] => none
  | b :: rest =>
    if b < 0x80 then firstDefect? (position + 1) rest
    else match leadRule? b with
      | none => some ⟨position, [b], .badStart⟩
      | some (low, high, n) =>
        match continuation low high n rest with
        | (good, some reason) => some ⟨position, b :: rest.take good, reason⟩
        | (_, none) => firstDefect? (position + 1 + n) (rest.drop n)
  termination_by bytes => bytes.length
  decreasing_by all_goals simp only [List.length_drop, List.length_cons]; omega

def byteHex (b : UInt8) : String := String.ofList ((Nat.toDigits 16 (256 + b.toNat)).drop 1)

def Utf8Defect.message (d : Utf8Defect) : String :=
  match d.bytes with
  | [b] =>
    s!"'utf-8' codec can't decode byte 0x{byteHex b} in position {d.position}: {d.reason.text}"
  | bytes =>
    let last := d.position + bytes.length - 1
    s!"'utf-8' codec can't decode bytes in position {d.position}-{last}: {d.reason.text}"

def utf8Decode (bytes : List UInt8) : Except Utf8Defect String :=
  match String.fromUTF8? ⟨bytes.toArray⟩ with
  | some text => .ok text
  | none => .error ((firstDefect? 0 bytes).getD ⟨0, [], .badStart⟩)

def latin1 (bytes : List UInt8) : String := String.ofList (bytes.map fun b => Char.ofNat b.toNat)

end WordMachine.Text
