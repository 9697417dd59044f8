/-! Sets of characters as ranges of code points. -/
namespace WordMachine.Text

def inRanges (ranges : List (Nat × Nat)) (n : Nat) : Bool :=
  ranges.any fun r => r.1 ≤ n && n ≤ r.2

theorem toNat_ofNat_cases (n : Nat) : (Char.ofNat n).toNat = n ∨ (Char.ofNat n).toNat = 0 := by
  by_cases h : n.isValidChar
  · have hchar : Char.ofNat n = Char.ofNatAux n h := dif_pos h
    rw [hchar]
    exact .inl rfl
  · have hchar : Char.ofNat n = ⟨0, .inl (by decide)⟩ := dif_neg h
    rw [hchar]
    exact .inr rfl

end WordMachine.Text
