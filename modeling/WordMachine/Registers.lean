import WordMachine.Word

/-!
The eight registers. A register can be set to any integer from outside; the machine itself keeps
to words.
-/
namespace WordMachine

structure Registers where
  values : Vector Int 8
  deriving DecidableEq

inductive RegisterFault where
  | reading
  | assigning
  /-- The index does not fit a signed 64-bit word. -/
  | unindexable
  deriving DecidableEq, Repr

def RegisterFault.message : RegisterFault → String
  | .reading => "list index out of range"
  | .assigning => "list assignment index out of range"
  | .unindexable => "cannot fit 'int' into an index-sized integer"

namespace Registers

def zero : Registers := ⟨Vector.replicate 8 0⟩

def get (r : Registers) (i : RegisterIndex) : Int := r.values[i]

def set (r : Registers) (i : RegisterIndex) (v : Int) : Registers := ⟨r.values.set i v⟩

@[ext] theorem ext {r s : Registers} (h : ∀ i, r.get i = s.get i) : r = s := by
  cases r
  cases s
  congr 1
  apply Vector.ext
  intro i hi
  exact h ⟨i, hi⟩

@[simp] theorem get_zero (i : RegisterIndex) : zero.get i = 0 := by
  simp [zero, get]

theorem get_set (r : Registers) (i j : RegisterIndex) (v : Int) :
    (r.set i v).get j = if i = j then v else r.get j := by
  simp only [get, set, Fin.getElem_fin, Vector.getElem_set, Fin.ext_iff]

/-- Indices from 0 up count from the first register, those from -1 down from the last. -/
def slot? (i : Int) : Option RegisterIndex :=
  if h : 0 ≤ i ∧ i < 8 then some ⟨i.toNat, by omega⟩
  else if h : -8 ≤ i ∧ i < 0 then some ⟨(i + 8).toNat, by omega⟩
  else none

def refuse (i : Int) (fault : RegisterFault) : RegisterFault :=
  if -0x8000000000000000 ≤ i ∧ i < 0x8000000000000000 then fault else .unindexable

def read (r : Registers) (i : Int) : Except RegisterFault Int :=
  match slot? i with
  | some j => .ok (r.get j)
  | none => .error (refuse i .reading)

def assign (r : Registers) (i v : Int) : Except RegisterFault Registers :=
  match slot? i with
  | some j => .ok (r.set j v)
  | none => .error (refuse i .assigning)

def toList (r : Registers) : List Int := r.values.toList

def display (r : Registers) : String :=
  " ".intercalate (r.toList.mapIdx fun i v => s!"R{i}={v}")

end Registers

end WordMachine
