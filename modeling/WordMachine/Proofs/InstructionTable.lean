import WordMachine.Machine.Step

/-!
The instruction table: for every opcode what it stores, what it does to the stack and the console,
where it goes on and what it shows. The table speaks of numbers only and checks nothing, so it means
something just for instructions that nothing speaks against. What it stores is told by what is read
back afterwards, from every cell and every register.
-/
namespace WordMachine

/-- Numbers that fit a cell. -/
abbrev IsWord (v : Int) : Prop := 0 ≤ v ∧ v ≤ 65535

/-- The number in a cell; there is nothing but zero outside memory. -/
def Memory.cell (m : Memory) (x : Int) : Int :=
  if h : IsAddress x then (m.get (addressOf x h)).toNat else 0

def Memory.setCell (m : Memory) (x v : Int) : Memory :=
  if h : IsAddress x then m.set (addressOf x h) (UInt16.ofNat v.toNat) else m

theorem Memory.isWord_cell (m : Memory) (x : Int) : IsWord (m.cell x) := by
  unfold cell
  split
  next h =>
    have := (m.get (addressOf x h)).toNat_lt
    omega
  next => decide

theorem Memory.cell_val (m : Memory) (i : Address) : m.cell i.val = (m.get i).toNat :=
  dif_pos ⟨by omega, by omega⟩

theorem Memory.get_setCell (m : Memory) (x v : Int) (i : Address) :
    (m.setCell x v).get i = if (i.val : Int) = x then UInt16.ofNat v.toNat else m.get i := by
  unfold setCell
  split
  next hx =>
    have hindex : addressOf x hx = i ↔ (i.val : Int) = x := by
      simp only [addressOf, Fin.ext_iff]
      omega
    simp only [get_set, hindex]
  next hx => rw [if_neg (by omega)]

theorem Memory.cell_setCell (m : Memory) {x v : Int} (hx : IsAddress x) (hv : IsWord v) (y : Int) :
    (m.setCell x v).cell y = if y = x then v else m.cell y := by
  unfold cell
  by_cases hy : IsAddress y
  · rw [dif_pos hy, dif_pos hy, get_setCell, val_addressOf]
    split
    · simp only [UInt16.toNat_ofNat']
      omega
    · rfl
  · have hne : y ≠ x := fun h => hy (h ▸ hx)
    rw [dif_neg hy, dif_neg hy, if_neg hne]

/-- The memory that has these numbers in its cells. -/
@[irreducible] def Memory.ofCells (f : Int → Int) : Memory :=
  ⟨.ofFn fun i => .ofNat (f i.val).toNat⟩

theorem Memory.get_ofCells (f : Int → Int) (i : Address) :
    (ofCells f).get i = .ofNat (f i.val).toNat := by
  unfold ofCells
  simp only [get, Fin.getElem_fin, Vector.getElem_ofFn]

theorem Memory.cell_ofCells {f : Int → Int} {x : Int} (hx : IsAddress x) (hf : IsWord (f x)) :
    (ofCells f).cell x = f x := by
  rw [cell, dif_pos hx, get_ofCells, val_addressOf, UInt16.toNat_ofNat']
  omega

theorem Memory.ofCells_update (m : Memory) (x v : Int) :
    ofCells (fun y => if y = x then v else m.cell y) = m.setCell x v := by
  ext i
  rw [get_ofCells, get_setCell]
  split
  · rfl
  · rw [cell_val, Int.toNat_natCast, UInt16.ofNat_toNat]

theorem IsRegister.index_lt {x : Int} (h : IsRegister x) : (x - 32768).toNat < 8 := by omega

def Registers.named (r : Registers) (x : Int) : Int :=
  if h : IsRegister x then r.get ⟨(x - 32768).toNat, h.index_lt⟩ else 0

def Registers.setNamed (r : Registers) (x v : Int) : Registers :=
  if h : IsRegister x then r.set ⟨(x - 32768).toNat, h.index_lt⟩ v else r

theorem Registers.named_val (r : Registers) (i : RegisterIndex) :
    r.named (32768 + i.val) = r.get i := by
  have hindex : (32768 + (i.val : Int) - 32768).toNat = i.val := by omega
  rw [named, dif_pos (by omega)]
  exact congrArg r.get (Fin.ext hindex)

theorem Registers.get_setNamed (r : Registers) (x v : Int) (i : RegisterIndex) :
    (r.setNamed x v).get i = if (32768 + i.val : Int) = x then v else r.get i := by
  unfold setNamed
  split
  next hx =>
    have hindex : (⟨(x - 32768).toNat, hx.index_lt⟩ : RegisterIndex) = i ↔
        (32768 + i.val : Int) = x := by
      simp only [Fin.ext_iff]
      omega
    simp only [get_set, hindex]
  next hx => rw [if_neg (by omega)]

/-- The registers that have these numbers in them. -/
def Registers.ofNamed (f : Int → Int) : Registers := ⟨.ofFn fun i => f (32768 + i.val)⟩

theorem Registers.get_ofNamed (f : Int → Int) (i : RegisterIndex) :
    (ofNamed f).get i = f (32768 + i.val) := by
  simp only [get, ofNamed, Fin.getElem_fin, Vector.getElem_ofFn]

theorem Registers.named_ofNamed {f : Int → Int} {x : Int} (hx : IsRegister x) :
    (ofNamed f).named x = f x := by
  have hindex : 32768 + ((x - 32768).toNat : Int) = x := by omega
  rw [named, dif_pos hx, get_ofNamed, hindex]

theorem Registers.ofNamed_update (r : Registers) (x v : Int) :
    ofNamed (fun y => if y = x then v else r.named y) = r.setNamed x v := by
  ext i
  rw [get_ofNamed, get_setNamed, named_val]

/-- A console that has been given one more byte, which its sink has received as a character. Only a
line feed makes the sink pass on what it has received. -/
def CharConsole.extended (c : CharConsole) (byte : Int) : CharConsole :=
  { c with
    output := c.output.push (.ofNat byte.toNat)
    sink := c.sink.map fun sink =>
      { text := sink.text.push (.ofNat byte.toNat)
        flushes := if byte = 10 then sink.flushes + 1 else sink.flushes } }

namespace Machine

/-- What a word stands for as a value: itself, or the content of a register. -/
def val (m : Machine) (w : Int) : Int :=
  if w ≤ 32767 then w else m.registers.named w

def held (m : Machine) (x : Int) : Int :=
  if x ≤ 32767 then m.memory.cell x else m.registers.named x

/-- Keeps a value under a number: it is read back there, from a cell or from a register, and all
else is as before. -/
def keep (m : Machine) (x v : Int) : Machine :=
  { m with
    memory := .ofCells fun y => if y = x then v else m.memory.cell y
    registers := .ofNamed fun y => if y = x then v else m.registers.named y }

theorem keep_eq (m : Machine) (x v : Int) : m.keep x v =
    if x ≤ 32767 then { m with memory := m.memory.setCell x v }
    else { m with registers := m.registers.setNamed x v } := by
  rw [keep, m.memory.ofCells_update, m.registers.ofNamed_update]
  by_cases hx : x ≤ 32767
  · rw [if_pos hx, Registers.setNamed, dif_neg (by omega)]
  · rw [if_neg hx, Memory.setCell, dif_neg (by omega)]

def wordAt (m : Machine) (k : Int) : Int := m.memory.cell (m.pc + k)

/-- The instruction at the program counter is whole and has this opcode. -/
structure Fetches (m : Machine) (op : Opcode) : Prop where
  inside : 0 ≤ m.pc
  code : m.wordAt 0 = op.code
  whole : m.pc + op.arity ≤ 32767

def effect (m : Machine) (a b c : Int) : Opcode → Machine
  | .halt => { m with stop := some .halt }
  | .set => m.keep a (m.val b)
  | .push => { m with stack := m.val a :: m.stack }
  | .pop =>
    match m.stack with
    | [] => m
    | v :: rest => { m.keep a v with stack := rest }
  | .eq => m.keep a (if m.val b = m.val c then 1 else 0)
  | .gt => m.keep a (if m.val b > m.val c then 1 else 0)
  | .add => m.keep a ((m.val b + m.val c) % 32768)
  | .mult => m.keep a (m.val b * m.val c % 32768)
  | .mod => m.keep a (m.val b % m.val c)
  | .and => m.keep a ((m.val b).toNat &&& (m.val c).toNat : Nat)
  | .or => m.keep a ((m.val b).toNat ||| (m.val c).toNat : Nat)
  | .not => m.keep a (32767 ^^^ (m.val b).toNat : Nat)
  | .rmem => m.keep a (m.held (m.val b))
  | .wmem => m.keep (m.val a) (m.val b)
  | .call => { m with stack := (m.pc + 2) :: m.stack }
  | .ret =>
    match m.stack with
    | [] => { m with stop := some .ret }
    | _ :: rest => { m with stack := rest }
  | .out => { m with console := m.console.extended (m.val a % 256) }
  | .in =>
    match m.console.queue with
    | [] => m
    | code :: rest =>
      { m.keep a code.toNat with console := { m.console with queue := rest } }
  | .jmp | .jt | .jf | .noop => m

/-- Where the instructions go on: behind themselves, unless they jump or halt. -/
def next (m : Machine) (a b : Int) (op : Opcode) : Int :=
  match op with
  | .halt => m.pc
  | .jmp | .call => m.val a
  | .jt => if m.val a ≠ 0 then m.val b else m.pc + 3
  | .jf => if m.val a = 0 then m.val b else m.pc + 3
  | .ret =>
    match m.stack with
    | [] => m.pc
    | v :: _ => v
  | op => m.pc + op.size

def shown (m : Machine) (a b c : Int) (op : Opcode) : List Int :=
  match op with
  | .halt | .noop => []
  | .set | .not => [m.val b]
  | .push | .out | .jmp | .call => [m.val a]
  | .pop | .ret => m.stack.head?.toList
  | .eq | .gt | .add | .mult | .mod | .and | .or => [m.val b, m.val c]
  | .jt | .jf => [m.val a, m.next a b op]
  | .rmem => [m.val b, m.held (m.val b)]
  | .wmem => [m.val a, m.val b]
  | .in => m.console.queue.head?.toList.map fun code => (code.toNat : Int)

def execute (m : Machine) (op : Opcode) (a b c : Int) : Machine :=
  { m.effect a b c op with pc := m.next a b op, steps := m.steps + 1 }

/-- The registers and the stack hold words, and the program counter is at a cell or just behind
the last one. Cells, queued codes and written bytes cannot be anything but in range. -/
structure WellFormed (m : Machine) : Prop where
  registers : ∀ i, IsWord (m.registers.get i)
  stack : ∀ v ∈ m.stack, IsWord v
  pc : 0 ≤ m.pc ∧ m.pc ≤ 32768

theorem WellFormed.named {m : Machine} (hw : m.WellFormed) (x : Int) :
    IsWord (m.registers.named x) := by
  unfold Registers.named
  split
  · exact hw.registers _
  · decide

theorem WellFormed.val {m : Machine} (hw : m.WellFormed) {x : Int} (hx : 0 ≤ x) :
    IsWord (m.val x) := by
  unfold Machine.val
  split
  · omega
  · exact hw.named x

theorem WellFormed.held {m : Machine} (hw : m.WellFormed) (x : Int) : IsWord (m.held x) := by
  unfold Machine.held
  split
  · exact m.memory.isWord_cell x
  · exact hw.named x

end Machine

end WordMachine
