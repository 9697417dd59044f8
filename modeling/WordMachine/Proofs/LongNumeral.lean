import Mathlib.Algebra.Group.Nat.Defs
import WordMachine.Debugger.Command
import WordMachine.Proofs.NumeralText

/-!
Numbers that can be read but not written. Hexadecimal numerals may be as long as they like, so a
command for the debugger can name an address that is too long to be written in decimal.
-/
namespace WordMachine

namespace Text

def hexPower (zeros : Nat) : List Char := '0' :: 'x' :: '1' :: List.replicate zeros '0'

theorem of_mem_hexPower {p : Char → Prop} (hzero : p '0') (hmark : p 'x') (hone : p '1')
    {zeros : Nat} : ∀ c ∈ hexPower zeros, p c := by
  intro c hc
  simp only [hexPower, List.mem_cons, List.mem_replicate] at hc
  obtain rfl | rfl | rfl | ⟨-, rfl⟩ := hc
  · exact hzero
  · exact hmark
  · exact hone
  · exact hzero

theorem moreDigits_zeros (value zeros : Nat) :
    moreDigits 16 value (List.replicate zeros '0') = some (value * 16 ^ zeros) := by
  induction zeros generalizing value with
  | zero => rw [List.replicate_zero, moreDigits, Nat.pow_zero, Nat.mul_one]
  | succ zeros ih =>
    have hzero : digitValue? 16 '0' = some 0 := rfl
    rw [List.replicate_succ, moreDigits.eq_3 _ _ _ _ (fun _ _ h => by cases h), hzero,
      Option.bind_eq_bind, Option.bind_some, ih, Nat.add_zero, Nat.mul_assoc, Nat.pow_succ,
      Nat.mul_comm 16]

theorem integer_hexPower (zeros : Nat) {radix : Radix} (hradix : radix ≠ .ten) :
    integer radix (hexPower zeros) = .ok ((16 ^ zeros : Nat) : Int) := by
  have hplain : (hexPower zeros).map plainChar = hexPower zeros :=
    (List.map_congr_left (of_mem_hexPower (p := fun c => plainChar c = c) rfl rfl rfl)).trans
      (List.map_id' _)
  have hdigits : digits? 16 ('1' :: List.replicate zeros '0') = some (16 ^ zeros) :=
    (moreDigits_zeros 1 zeros).trans (congrArg some (Nat.one_mul _))
  have hunsigned : unsigned radix (hexPower zeros) = .ok (16 ^ zeros) := by
    cases radix with
    | ten => contradiction
    | sixteen | marked => exact congrArg orMalformed hdigits
  rw [integer, hplain, trimPlain_eq_self
    (of_mem_hexPower (p := fun c => isPlainBlank c = false) rfl rfl rfl)]
  calc signed radix (hexPower zeros)
    _ = (unsigned radix (hexPower zeros)).map fun n => (n : Int) := rfl
    _ = .ok ((16 ^ zeros : Nat) : Int) := by rw [hunsigned]; rfl

theorem words_hexPower (zeros : Nat) : words (hexPower zeros) = [hexPower zeros] :=
  words_eq_singleton (List.cons_ne_nil _ _)
    (of_mem_hexPower (p := fun c => isBlank c = false) rfl rfl rfl)

/-- With six hexadecimal digits for every seven decimal ones a number is too long to be written. -/
theorem not_isWritable_hexPower {n zeros : Nat} (hn : digitLimit ≤ 7 * n) (h : 6 * n ≤ zeros) :
    ¬IsWritable ((16 ^ zeros : Nat) : Int) := by
  have hpower {digits : Nat} (hd : digits ≤ 7 * n) : Nat.pow 10 digits ≤ 16 ^ zeros :=
    calc Nat.pow 10 digits
      _ ≤ 10 ^ (7 * n) := Nat.pow_le_pow_right (by decide) hd
      _ = (10 ^ 7) ^ n := Nat.pow_mul 10 7 n
      _ ≤ (16 ^ 6) ^ n := Nat.pow_le_pow_left (by decide) n
      _ = 16 ^ (6 * n) := (Nat.pow_mul 16 6 n).symm
      _ ≤ 16 ^ zeros := Nat.pow_le_pow_right (by decide) h
  unfold IsWritable unwritable
  rw [Int.natAbs_natCast, Nat.not_lt]
  exact hpower hn

end Text

namespace Debugger

theorem number_hexPower (zeros : Nat) :
    number (Text.hexPower zeros) = .ok ((16 ^ zeros : Nat) : Int) := by
  have hradix : number (Text.hexPower zeros) =
      (Text.integer .sixteen (Text.hexPower zeros)).mapError fun _ =>
        .notANumber (String.ofList (Text.hexPower zeros)) := rfl
  rw [hradix, Text.integer_hexPower zeros (by decide)]
  rfl

theorem ofLine_mem_hexPower (zeros : Nat) :
    Command.ofLine (String.ofList ("mem".toList ++ ' ' :: Text.hexPower zeros)) =
      .ok (.mem ((16 ^ zeros : Nat) : Int) 64) := by
  have hwords : Text.words ("mem".toList ++ ' ' :: Text.hexPower zeros) =
      ["mem".toList, Text.hexPower zeros] := by
    rw [Text.words_cons_word (by decide) (by simp [Text.isBlank]) rfl, Text.words_hexPower]
  have hname : Text.lower (String.ofList "mem".toList) = "mem" := by decide +kernel
  unfold Command.ofLine
  rw [String.toList_ofList, hwords]
  dsimp only
  unfold Command.ofWords
  simp only [hname, number_hexPower]
  rfl

end Debugger

end WordMachine
