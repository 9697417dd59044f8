import WordMachine.Fault
import WordMachine.Word

/-!
Memory: 32768 cells of one word each, all zero at first. A number is checked against the range of
addresses before anything is read or written, and an address before the value meant for it.
-/
namespace WordMachine

/-- The cell at an address, or the reason why there is none. -/
def checkAddress (a : Int) : Except Cause Address :=
  if h : IsAddress a then .ok (addressOf a h)
  else .error (.noSuchCell a)

def checkWord (v : Int) : Except Cause Word :=
  match word? v with
  | some w => .ok w
  | none => .error (.tooWide v)

theorem checkAddress_ok_iff {a : Int} {i : Address} :
    checkAddress a = .ok i ↔ a = i.val := by
  unfold checkAddress
  constructor
  · intro h
    split at h
    next ha => cases h; simp only [addressOf]; omega
    next => contradiction
  · rintro rfl
    have : (i.val : Int) < 32768 := by have := i.isLt; omega
    rw [dif_pos ⟨by omega, this⟩]
    congr 1

theorem checkAddress_error_iff {a : Int} {c : Cause} :
    checkAddress a = .error c ↔ ¬IsAddress a ∧ c = .noSuchCell a := by
  unfold checkAddress
  split <;> simp [*, eq_comm]

structure Memory where
  cells : Vector Word 32768

namespace Memory

def empty : Memory := ⟨Vector.replicate 32768 0⟩

def get (m : Memory) (i : Address) : Word := m.cells[i]

def set (m : Memory) (i : Address) (w : Word) : Memory := ⟨m.cells.set i w⟩

@[ext] theorem ext {m n : Memory} (h : ∀ i, m.get i = n.get i) : m = n := by
  cases m
  cases n
  congr 1
  apply Vector.ext
  intro i hi
  exact h ⟨i, hi⟩

@[simp] theorem get_empty (i : Address) : empty.get i = 0 := by
  simp [empty, get]

theorem get_set (m : Memory) (i j : Address) (w : Word) :
    (m.set i w).get j = if i = j then w else m.get j := by
  simp only [get, set, Fin.getElem_fin, Vector.getElem_set, Fin.ext_iff]

@[simp] theorem get_set_self (m : Memory) (i : Address) (w : Word) : (m.set i w).get i = w := by
  simp [get_set]

def read (m : Memory) (a : Int) : Except Cause Int := do
  let i ← checkAddress a
  return (m.get i).toNat

def write (m : Memory) (a v : Int) : Except Cause Memory := do
  let i ← checkAddress a
  let w ← checkWord v
  return m.set i w

/-- So many words of consecutive cells, if all of these exist. -/
def readRun (m : Memory) (a : Int) : (n : Nat) → Except Cause (Vector Int n)
  | 0 => .ok #v[]
  | n + 1 => do
    let words ← m.readRun a n
    return words.push (← m.read (a + n))

def window (m : Memory) (first last : Nat) : List Word := (m.cells.extract first last).toList

/-- A copy of the words between two addresses, both included. -/
def snapshot (m : Memory) (first last : Int) : Except Cause (List Int) := do
  let i ← checkAddress first
  let j ← checkAddress last
  return (m.window i (j + 1)).map fun w => (w.toNat : Int)

def ofWords (ws : List Int) : Except Cause Memory :=
  go empty 0 ws
where
  go (m : Memory) (a : Int) : List Int → Except Cause Memory
    | [] => .ok m
    | w :: ws => do
      let m ← m.write a w
      go m (a + 1) ws

end Memory

end WordMachine
