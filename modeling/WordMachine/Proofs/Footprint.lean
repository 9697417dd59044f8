import WordMachine.Proofs.DebuggerTransparency
import WordMachine.Proofs.Planned

/-!
Which cells a step looks at: those of its instruction and, if this is an `rmem`, the one it loads.
What stands in any other cell makes no difference to a step, which keeps it unless it stores there.
-/
namespace WordMachine

theorem Place.ofNumber?_eq_cell_iff {x : Int} {i : Address} :
    Place.ofNumber? x = some (.cell i) ↔ x = i.val := by
  unfold Place.ofNumber?
  have hi := i.isLt
  constructor
  · intro h
    split at h
    next hx =>
      cases h
      simp only [addressOf]
      omega
    next => split at h <;> cases h
  · rintro rfl
    rw [dif_pos ⟨by omega, by omega⟩]
    rfl

namespace Memory

variable (m : Memory) (x : Address) (w : Word)

theorem read_set_of_ne {a : Int} (h : a ≠ x.val) : (m.set x w).read a = m.read a := by
  unfold read
  cases hi : checkAddress a with
  | error c => rfl
  | ok i =>
    have hne : x ≠ i := by
      intro hxi
      apply h
      rw [checkAddress_ok_iff.mp hi, hxi]
    change Except.ok (((m.set x w).get i).toNat : Int) = Except.ok ((m.get i).toNat : Int)
    rw [get_set, if_neg hne]

theorem set_set_self (v : Word) : (m.set x w).set x v = m.set x v := by
  ext i
  simp only [get_set]
  split <;> rfl

theorem set_comm {y : Address} (h : y ≠ x) (v : Word) :
    (m.set x w).set y v = (m.set y v).set x w := by
  ext i
  simp only [get_set]
  grind

theorem readRun_congr {m n : Memory} {a : Int} {l : Nat}
    (h : ∀ k : Nat, k < l → n.read (a + k) = m.read (a + k)) : n.readRun a l = m.readRun a l := by
  induction l with
  | zero => rfl
  | succ l ih => rw [readRun, readRun, ih fun k hk => h k (by omega), h l (by omega)]

end Memory

namespace Instruction

variable {m n : Memory} {pc : Int}

theorem readOperands_congr {op : Opcode}
    (h : ∀ k : Int, 1 ≤ k → k ≤ op.arity → n.read (pc + k) = m.read (pc + k)) :
    readOperands n pc op = readOperands m pc op := by
  rw [readOperands, readOperands, Memory.readRun_congr]
  intro k hk
  rw [Int.add_assoc]
  exact h (1 + k) (by omega) (by omega)

end Instruction

namespace Machine

variable {m : Machine}

theorem val_of_valueOf {x v : Int} (h : m.valueOf x = .ok v) : v = m.val x := by
  unfold valueOf Place.ofNumber? at h
  unfold val Registers.named
  by_cases hx : IsAddress x
  · rw [dif_pos hx] at h
    rw [if_pos (by omega)]
    exact (Except.ok.inj h).symm
  · rw [dif_neg hx] at h
    by_cases hr : IsRegister x
    · rw [dif_pos hr] at h
      rw [if_neg (by omega), dif_pos hr]
      exact (Except.ok.inj h).symm
    · rw [dif_neg hr] at h
      contradiction

theorem place_of_destination {x v : Int} {d : Place × Word} (h : destination x v = .ok d) :
    Place.ofNumber? x = some d.1 := by
  unfold destination at h
  split at h
  · contradiction
  next p hp =>
    obtain ⟨w, -, h⟩ := exists_of_bind_ok h
    cases h
    exact hp

end Machine

/-- A planned instruction stores into the place that its target names, and nowhere if it has no
target. -/
theorem Instruction.place_of_plan {m : Machine} {i : Instruction} {e : Effect}
    (h : i.plan m = .ok (some e)) :
    e.store.map Prod.fst = (i.target? m).bind Place.ofNumber? := by
  cases i with
  | halt | noop =>
    cases h
    rfl
  | push | jump | call | out =>
    obtain ⟨v, -, h⟩ := exists_of_bind_ok h
    cases h
    rfl
  | not =>
    obtain ⟨v, -, h⟩ := exists_of_bind_ok h
    obtain ⟨d, hd, h⟩ := exists_of_bind_ok h
    cases h
    exact (Machine.place_of_destination hd).symm
  | rmem =>
    obtain ⟨address, -, h⟩ := exists_of_bind_ok h
    obtain ⟨v, -, h⟩ := exists_of_bind_ok h
    obtain ⟨d, hd, h⟩ := exists_of_bind_ok h
    cases h
    exact (Machine.place_of_destination hd).symm
  | wmem =>
    obtain ⟨address, haddress, h⟩ := exists_of_bind_ok h
    obtain ⟨v, -, h⟩ := exists_of_bind_ok h
    obtain ⟨d, hd, h⟩ := exists_of_bind_ok h
    cases h
    obtain rfl := Machine.val_of_valueOf haddress
    exact (Machine.place_of_destination hd).symm
  | binary op =>
    obtain ⟨x, -, h⟩ := exists_of_bind_ok h
    obtain ⟨y, -, h⟩ := exists_of_bind_ok h
    obtain ⟨z, -, h⟩ := exists_of_bind_ok h
    obtain ⟨d, hd, h⟩ := exists_of_bind_ok h
    cases h
    exact (Machine.place_of_destination hd).symm
  | set =>
    rw [plan] at h
    split at h
    · obtain ⟨v, -, h⟩ := exists_of_bind_ok h
      obtain ⟨d, hd, h⟩ := exists_of_bind_ok h
      cases h
      exact (Machine.place_of_destination hd).symm
    · contradiction
  | branch =>
    obtain ⟨v, -, h⟩ := exists_of_bind_ok h
    dsimp only at h
    split at h
    · obtain ⟨next, -, h⟩ := exists_of_bind_ok h
      cases h
      rfl
    · cases h
      rfl
  | pop =>
    rw [plan] at h
    split at h
    · contradiction
    · obtain ⟨d, hd, h⟩ := exists_of_bind_ok h
      cases h
      exact (Machine.place_of_destination hd).symm
  | ret =>
    rw [plan] at h
    split at h
    · cases h
      rfl
    · obtain ⟨_, -, h⟩ := exists_of_bind_ok h
      cases h
      rfl
  | input =>
    rw [plan] at h
    split at h
    · cases h
    · obtain ⟨d, hd, h⟩ := exists_of_bind_ok h
      cases h
      exact (Machine.place_of_destination hd).symm

def Effect.wordIn (e : Effect) (x : Address) (w : Word) : Word :=
  match e.store with
  | some (.cell a, v) => if a = x then v else w
  | _ => w

namespace Machine

variable {m n : Machine} {x : Address} {w : Word}

def withCell (m : Machine) (x : Address) (w : Word) : Machine :=
  { m with memory := m.memory.set x w }

def operandCount (m : Machine) : Nat := (m.opcode?.map Opcode.arity).getD 0

/-- A step looks at a cell: to fetch an opcode or an operand from it, or to load it. -/
inductive LooksAt (m : Machine) (x : Address) : Prop where
  | fetch : m.pc ≤ x.val → x.val ≤ m.pc + m.operandCount → m.LooksAt x
  | load {a b : Int} : Instruction.decode m.memory m.pc = .ok (.rmem a b) →
      m.valueOf b = .ok x.val → m.LooksAt x

theorem fetchOpcode_withCell (h : ¬m.LooksAt x) :
    (m.withCell x w).fetchOpcode = m.fetchOpcode := by
  have hpc : m.pc ≠ x.val := by
    intro hx
    exact h (.fetch (by omega) (by omega))
  change Opcode.ofWord =<< (m.memory.set x w).read m.pc = _
  rw [Memory.read_set_of_ne _ _ _ hpc]
  rfl

theorem opcode?_withCell (h : ¬m.LooksAt x) : (m.withCell x w).opcode? = m.opcode? := by
  rw [opcode?, fetchOpcode_withCell h]
  rfl

theorem decode_eq_fetchOpcode (m : Machine) : Instruction.decode m.memory m.pc =
    m.fetchOpcode >>= Instruction.readOperands m.memory m.pc := by
  unfold Instruction.decode fetchOpcode
  rw [bind_assoc]

theorem decode_withCell (h : ¬m.LooksAt x) :
    Instruction.decode (m.withCell x w).memory (m.withCell x w).pc =
      Instruction.decode m.memory m.pc := by
  rw [decode_eq_fetchOpcode, decode_eq_fetchOpcode, fetchOpcode_withCell h]
  cases hop : m.fetchOpcode with
  | error c => rfl
  | ok op =>
    have hcount : m.operandCount = op.arity := by
      rw [operandCount, opcode?, hop]
      rfl
    apply Instruction.readOperands_congr
    intro k hk hle
    apply Memory.read_set_of_ne
    change m.pc + k ≠ x.val
    intro hx
    exact h (.fetch (by omega) (by omega))

theorem looksAt_iff_of_decode {i : Instruction} (h : Instruction.decode m.memory m.pc = .ok i)
    (hi : ∀ a b, i ≠ .rmem a b) :
    m.LooksAt x ↔ m.pc ≤ x.val ∧ x.val ≤ m.pc + i.opcode.arity := by
  have hcount : m.operandCount = i.opcode.arity := by
    rw [decode_eq_fetchOpcode] at h
    obtain ⟨op, hop, hread⟩ := exists_of_bind_ok h
    rw [operandCount, opcode?, hop, Instruction.opcode_of_readOperands hread]
    rfl
  rw [← hcount]
  constructor
  · intro hlook
    cases hlook with
    | fetch hlow hhigh => exact ⟨hlow, hhigh⟩
    | load hload _ => exact absurd (Except.ok.inj (h.symm.trans hload)) (hi _ _)
  · intro hrange
    exact .fetch hrange.1 hrange.2

theorem load_withCell {a : Int} (h : a ≠ x.val) : (m.withCell x w).load a = m.load a := by
  unfold load
  cases hp : Place.ofNumber? a with
  | none => rfl
  | some p =>
    cases p with
    | register i => rfl
    | cell i =>
      have hne : x ≠ i := by
        rintro rfl
        exact h (Place.ofNumber?_eq_cell_iff.mp hp)
      change Except.ok (((m.memory.set x w).get i).toNat : Int) = _
      rw [Memory.get_set, if_neg hne]

/-- Only an instruction that loads the cell looks into it. -/
theorem plan_withCell {i : Instruction} (h : ∀ a b, i = .rmem a b → m.valueOf b ≠ .ok x.val) :
    i.plan (m.withCell x w) = i.plan m := by
  cases i with
  | rmem a b =>
    have hvalue : (m.withCell x w).valueOf b = m.valueOf b := rfl
    rw [Instruction.plan, Instruction.plan, hvalue]
    cases hb : m.valueOf b with
    | error c => rfl
    | ok address =>
      have hne : address ≠ x.val := by
        rintro rfl
        exact h a b rfl hb
      dsimp only [bind, Except.bind]
      rw [load_withCell hne]
      rfl
  | _ => rfl

theorem perform_withCell (e : Effect) :
    (m.withCell x w).perform e = (m.perform e).withCell x (e.wordIn x w) := by
  unfold perform withCell Effect.wordIn
  cases e.store with
  | none => cases e.written <;> rfl
  | some d =>
    obtain ⟨a | i, v⟩ := d
    · by_cases ha : a = x
      · subst ha
        simp only [putAll, put, Memory.set_set_self, if_pos]
      · simp only [putAll, put, Memory.set_comm _ _ _ ha, if_neg ha]
    · rfl

theorem afterFailure_withCell (i : Instruction) :
    (m.withCell x w).afterFailure i = (m.afterFailure i).withCell x w := by
  cases i <;> rfl

/-- The step stores a word into a cell. -/
def StoresInto (m : Machine) (x : Address) : Prop :=
  ∃ i r, Instruction.decode m.memory m.pc = .ok i ∧ i.target? m = some (x.val : Int) ∧
    m.step.2 = .executed r

theorem get_perform_of_store {e : Effect} {v : Word} (h : e.store = some (.cell x, v)) :
    (m.perform e).memory.get x = v := by
  unfold perform
  rw [h]
  simp only [putAll, put, Memory.get_set_self]

theorem get_perform {e : Effect} (h : e.store.map Prod.fst = some (.cell x)) (w : Word) :
    (m.perform e).memory.get x = e.wordIn x w := by
  obtain ⟨⟨p, v⟩, hstore, rfl⟩ := Option.map_eq_some_iff.mp h
  rw [get_perform_of_store hstore, Effect.wordIn, hstore]
  simp only [if_pos]

/-- A step that does not look at a cell is the same whatever stands there, and leaves the same word
there if it stores one. -/
theorem step_withCell (h : ¬m.LooksAt x) (w : Word) :
    ∃ v, (m.withCell x w).step = (m.step.1.withCell x v, m.step.2) ∧
      (m.StoresInto x → m.step.1.memory.get x = v) := by
  unfold StoresInto
  have hstep := (m.withCell x w).step_eq
  rw [decode_withCell h, opcode?_withCell h] at hstep
  rw [hstep, step_eq]
  cases hdecode : Instruction.decode m.memory m.pc with
  | error c =>
    refine ⟨w, rfl, ?_⟩
    rintro ⟨i, r, hi, -, -⟩
    cases hi
  | ok i =>
    have hload : ∀ a b, i = .rmem a b → m.valueOf b ≠ .ok x.val := by
      rintro a b rfl hb
      exact h (.load hdecode hb)
    dsimp only [carryOut]
    rw [plan_withCell hload]
    rcases hplan : i.plan m with c | _ | e
    · refine ⟨w, Prod.ext (afterFailure_withCell i) rfl, ?_⟩
      · rintro ⟨j, r, -, -, hr⟩
        exact absurd hr (failure_ne_executed _ c r)
    · refine ⟨w, rfl, ?_⟩
      rintro ⟨j, r, -, -, hr⟩
      cases hr
    · refine ⟨e.wordIn x w, Prod.ext (perform_withCell e) rfl, ?_⟩
      · rintro ⟨j, r, hj, htarget, -⟩
        cases hj
        have hplace := Instruction.place_of_plan hplan
        rw [htarget, Option.bind_some, Place.ofNumber?_eq_cell_iff.mpr rfl] at hplace
        exact get_perform hplace w

/-- Machines that differ at most in one cell and in what their sinks have received. -/
structure ApartFrom (x : Address) (m n : Machine) : Prop where
  memory : ∀ y, y ≠ x → n.memory.get y = m.memory.get y
  registers : n.registers = m.registers
  stack : n.stack = m.stack
  output : n.console.output = m.console.output
  queue : n.console.queue = m.console.queue
  pc : n.pc = m.pc
  stop : n.stop = m.stop
  steps : n.steps = m.steps

theorem apartFrom_iff : m.ApartFrom x n ↔ ∃ w, n.muted = (m.withCell x w).muted := by
  constructor
  · intro h
    have hmemory : n.memory = m.memory.set x (n.memory.get x) := by
      apply Memory.ext
      intro y
      rw [Memory.get_set]
      split
      next hy => rw [hy]
      next hy => exact h.memory y (Ne.symm hy)
    obtain ⟨_, _, _, ⟨_, _, _⟩, _, _, _⟩ := m
    obtain ⟨memory, _, _, ⟨_, _, _⟩, _, _, _⟩ := n
    obtain ⟨-, rfl, rfl, rfl, rfl, rfl, rfl, rfl⟩ := h
    exact ⟨memory.get x, by rw [muted, hmemory]; rfl⟩
  · rintro ⟨w, hw⟩
    have hmemory : n.memory = m.memory.set x w := by
      have := congrArg memory hw
      exact this
    exact
      { memory := fun y hy => by rw [hmemory, Memory.get_set, if_neg (Ne.symm hy)]
        registers := by have := congrArg registers hw; exact this
        stack := by have := congrArg stack hw; exact this
        output := by have := congrArg (·.console.output) hw; exact this
        queue := by have := congrArg (·.console.queue) hw; exact this
        pc := by have := congrArg pc hw; exact this
        stop := by have := congrArg stop hw; exact this
        steps := by have := congrArg steps hw; exact this }

theorem ApartFrom.step (h : m.ApartFrom x n) (hlook : ¬m.LooksAt x) :
    m.step.1.ApartFrom x n.step.1 ∧ n.step.2 = m.step.2 ∧
      (m.StoresInto x → n.step.1.memory = m.step.1.memory) ∧
      (n.console.sink = m.console.sink → n.step.1.console.sink = m.step.1.console.sink) := by
  obtain ⟨w, hw⟩ := apartFrom_iff.mp h
  obtain ⟨v, hstep, hstored⟩ := step_withCell hlook w
  obtain ⟨hmachine, houtcome⟩ := step_congr hw
  rw [hstep] at hmachine houtcome
  refine ⟨apartFrom_iff.mpr ⟨v, hmachine⟩, houtcome, fun hstores => ?_, fun hsink => ?_⟩
  · calc n.step.1.memory = m.step.1.memory.set x v := congrArg Machine.memory hmachine
      _ = m.step.1.memory := by
        ext i
        rw [Memory.get_set, ← hstored hstores]
        split
        next hx => rw [hx]
        next => rfl
  · have hsame : n = m.withCell x w := by
      have := eq_of_muted hw
      rw [hsink] at this
      exact this
    rw [hsame, hstep]
    rfl

end Machine

end WordMachine
