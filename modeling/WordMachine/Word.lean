/-!
Words and the numbers that refer to registers. Numbers below 32768 stand for themselves and for
memory cells, the eight numbers from 32768 on name registers, and the other 16-bit words can be
stored but mean nothing as operands.
-/
namespace WordMachine

abbrev Word := UInt16

abbrev Address := Fin 32768

abbrev RegisterIndex := Fin 8

def modulus : Int := 32768

abbrev IsAddress (a : Int) : Prop := 0 ≤ a ∧ a < 32768

def addressOf (a : Int) (h : IsAddress a) : Address := ⟨a.toNat, by omega⟩

theorem val_addressOf {x : Int} (h : IsAddress x) : ((addressOf x h).val : Int) = x := by
  simp only [addressOf]
  omega

abbrev IsRegister (x : Int) : Prop := 32768 ≤ x ∧ x ≤ 32775

def registerIndex (x : Int) : Int := x - 32768

/-- `R0` to `R7` for a register reference and the decimal number for anything else. -/
def registerName (x : Int) : String :=
  if IsRegister x then "R" ++ toString (registerIndex x) else toString x

def word? (v : Int) : Option Word :=
  if 0 ≤ v ∧ v ≤ 65535 then some (UInt16.ofNat v.toNat) else none

theorem toNat_of_word? {v : Int} {w : Word} (h : word? v = some w) : (w.toNat : Int) = v := by
  unfold word? at h
  split at h
  next hv =>
    cases h
    simp only [UInt16.toNat_ofNat']
    omega
  next => contradiction

/-- Where a value can be kept: a memory cell or a register. -/
inductive Place where
  | cell (address : Address)
  | register (index : RegisterIndex)
  deriving DecidableEq, Repr

def Place.ofNumber? (x : Int) : Option Place :=
  if h : IsAddress x then some (.cell (addressOf x h))
  else if h : IsRegister x then some (.register ⟨(x - 32768).toNat, by omega⟩)
  else none

theorem Place.ofNumber?_eq_none_iff {x : Int} :
    Place.ofNumber? x = none ↔ ¬(0 ≤ x ∧ x ≤ 32775) := by
  unfold Place.ofNumber?
  split
  next h => simp only [reduceCtorEq, false_iff, Decidable.not_not]; omega
  next h =>
    split
    next h' => simp only [reduceCtorEq, false_iff, Decidable.not_not]; omega
    next h' => simp only [true_iff]; omega

end WordMachine
