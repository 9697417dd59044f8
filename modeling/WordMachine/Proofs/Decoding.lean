import WordMachine.Listing.Disassembly
import WordMachine.Proofs.SessionStep

/-!
The instruction at an address. Decoding it, listing it and executing it each find the same one, or
each find that there is none: the word is no opcode, or an operand would lie past the end of memory.
A listing goes from one such address to the next.
-/
namespace WordMachine

open Listing

namespace Instruction

def standing (m : Memory) (a : Int) (op : Opcode) : Instruction :=
  .make (m.cell (a + 1)) (m.cell (a + 2)) (m.cell (a + 3)) op

theorem opcode_standing (m : Memory) (a : Int) (op : Opcode) : (standing m a op).opcode = op :=
  opcode_make _ _ _ op

variable {m n : Memory} {a : Int}

inductive Stands (m : Memory) (a : Int) : Except Cause Instruction → Item → Prop where
  | noOpcode : 21 < m.cell a → Stands m a (.error (.unknownOpcode (m.cell a))) (.data (m.cell a))
  | cutOff {op : Opcode} : m.cell a = op.code → 32767 < a + op.arity →
      Stands m a (.error (.noSuchCell 32768)) (.data (m.cell a))
  | whole {op : Opcode} : m.cell a = op.code → a + op.arity ≤ 32767 →
      Stands m a (.ok (standing m a op)) (.instruction (standing m a op))

theorem decode_eq (ha : IsAddress a) :
    decode m a = Opcode.ofWord (m.cell a) >>= readOperands m a := by
  unfold decode
  rw [m.read_cell ha]
  rfl

theorem stands_at (ha : IsAddress a) :
    ∃ item, itemAt m a = .ok item ∧ Stands m a (decode m a) item := by
  have hdecode := decode_eq (m := m) ha
  unfold itemAt
  rw [m.read_cell ha]
  by_cases hcode : 21 < m.cell a
  · have hno := Opcode.ofWord?_of_gt hcode
    refine ⟨.data (m.cell a), ?_, ?_⟩
    · simp only [bind, Except.bind, hno, pure, Except.pure]
    · rw [hdecode, Opcode.ofWord, hno]
      exact .noOpcode hcode
  obtain ⟨op, hop, hw⟩ := Opcode.ofWord?_of_le (m.isWord_cell a).1 (by omega)
  by_cases hwhole : a + op.arity ≤ 32767
  · have hread := readOperands_whole (m := m) ha.1 op hwhole
    refine ⟨.instruction (standing m a op), ?_, ?_⟩
    · simp only [bind, Except.bind, hop, hread, pure, Except.pure]
      rw [if_neg (by omega)]
      rfl
    · rw [hdecode, Opcode.ofWord, hop]
      dsimp only [bind, Except.bind]
      rw [hread]
      exact .whole hw hwhole
  · have hread := readOperands_cutOff (m := m) ha.1 (by omega) op (by omega)
    refine ⟨.data (m.cell a), ?_, ?_⟩
    · simp only [bind, Except.bind, hop, pure, Except.pure]
      rw [if_pos (by omega)]
    · rw [hdecode, Opcode.ofWord, hop]
      dsimp only [bind, Except.bind]
      rw [hread]
      exact .cutOff hw (by omega)

theorem itemAt_of_decode (ha : IsAddress a) {i : Instruction} (h : decode m a = .ok i) :
    itemAt m a = .ok (.instruction i) := by
  obtain ⟨item, hitem, hstands⟩ := stands_at (m := m) ha
  rw [h] at hstands
  cases hstands
  exact hitem

theorem exists_decode_iff (ha : IsAddress a) {item : Item} (h : itemAt m a = .ok item) :
    (∃ i, decode m a = .ok i) ↔ item.isData = false := by
  obtain ⟨item', hitem, hstands⟩ := stands_at (m := m) ha
  obtain rfl := Except.ok.inj (h.symm.trans hitem)
  generalize decode m a = decoded at hstands ⊢
  cases hstands <;> simp [Item.isData]

theorem length_item (i : Instruction) : (Item.instruction i).length = i.size := by
  simp only [Item.length, Item.words, List.length_cons, length_operands, size, Opcode.size]
  omega

theorem decode_ok_iff (ha : IsAddress a) {i : Instruction} :
    decode m a = .ok i ↔
      ∃ op : Opcode, m.cell a = op.code ∧ a + op.arity ≤ 32767 ∧ i = standing m a op := by
  constructor
  · intro h
    obtain ⟨item, -, hstands⟩ := stands_at (m := m) ha
    rw [h] at hstands
    cases hstands with
    | whole hcode hwhole => exact ⟨_, hcode, hwhole, rfl⟩
  · rintro ⟨op, hcode, hwhole, rfl⟩
    rw [decode_eq ha, hcode, Opcode.ofWord, Opcode.ofWord?_code]
    exact readOperands_whole ha.1 op hwhole

theorem eq_make (i : Instruction) :
    i = make (i.operands.getD 0 0) (i.operands.getD 1 0) (i.operands.getD 2 0) i.opcode := by
  rcases i with _ | _ | _ | _ | ⟨op, _, _, _⟩ | _ | ⟨onZero, _, _⟩ | _ | _ | _ | _ | _ | _ | _ | _
  case binary => cases op <;> rfl
  case branch => cases onZero <;> rfl
  all_goals rfl

theorem make_congr {op : Opcode} {a b c a' b' c' : Int} (ha : 1 ≤ op.arity → a = a')
    (hb : 2 ≤ op.arity → b = b') (hc : 3 ≤ op.arity → c = c') :
    make a b c op = make a' b' c' op := by
  cases op <;> simp_all [make, Opcode.arity]

theorem decode_congr (ha : IsAddress a) {i : Instruction} (h : decode m a = .ok i)
    (hcells : ∀ x, a ≤ x → x < a + i.size → n.cell x = m.cell x) : decode n a = .ok i := by
  obtain ⟨op, hcode, hwhole, rfl⟩ := (decode_ok_iff ha).mp h
  have hsize : (standing m a op).size = 1 + op.arity := by
    rw [size, opcode_standing]
    rfl
  have hcell {k : Int} (h0 : 0 ≤ k) (hk : k ≤ op.arity) : n.cell (a + k) = m.cell (a + k) :=
    hcells _ (by omega) (by omega)
  refine (decode_ok_iff ha).mpr ⟨op, ?_, hwhole, ?_⟩
  · rw [← hcode, ← Int.add_zero a]
    exact hcell (by omega) (by omega)
  · exact (make_congr (fun _ => hcell (by omega) (by omega)) (fun _ => hcell (by omega) (by omega))
      fun _ => hcell (by omega) (by omega)).symm

end Instruction

namespace Machine

variable {m : Machine}

def carryOut (m : Machine) (i : Instruction) : Machine × Outcome :=
  match i.plan m with
  | .error c => (m.afterFailure i, m.failure (some i.mnemonic) c)
  | .ok none => (m, .starved)
  | .ok (some e) =>
    (m.perform e,
      .executed { pc := m.pc, mnemonic := i.mnemonic, operands := i.operands, values := e.values })

/-- The opcode at the program counter, whether or not its operands are there. -/
def opcode? (m : Machine) : Option Opcode := m.fetchOpcode.toOption

theorem step_eq (m : Machine) : m.step = match Instruction.decode m.memory m.pc with
    | .error c => (m, m.failure (m.opcode?.map Opcode.mnemonic) c)
    | .ok i => m.carryOut i := by
  have hdecode : Instruction.decode m.memory m.pc =
      m.fetchOpcode >>= Instruction.readOperands m.memory m.pc := by
    unfold Instruction.decode fetchOpcode
    rw [bind_assoc]
  rw [hdecode]
  unfold step opcode?
  cases m.fetchOpcode with
  | error c => rfl
  | ok op =>
    dsimp only [bind, Except.bind]
    cases Instruction.readOperands m.memory m.pc op with
    | error c => rfl
    | ok i => rfl

theorem step_eq_carryOut {i : Instruction} (h : Instruction.decode m.memory m.pc = .ok i) :
    m.step = m.carryOut i := by
  rw [step_eq, h]

theorem failure_ne_starved (name : Option String) (c : Cause) : m.failure name c ≠ .starved := by
  unfold failure
  split <;> exact Outcome.noConfusion

theorem carryOut_starved_iff {i : Instruction} :
    (m.carryOut i).2 = .starved ↔ i.plan m = .ok none := by
  unfold carryOut
  split
  next c hc => simp [hc, failure_ne_starved]
  next hn => simp [hn]
  next e he => simp [he]

theorem carryOut_of_starved {i : Instruction} (h : (m.carryOut i).2 = .starved) :
    m.carryOut i = (m, .starved) := by
  rw [carryOut, carryOut_starved_iff.mp h]

theorem step_of_decode_error {c : Cause} (hpc : IsAddress m.pc)
    (h : Instruction.decode m.memory m.pc = .error c) :
    m.step = (m, .failed { c.fault with
      pc := some m.pc
      opcode := m.opcode?.map Opcode.mnemonic }) := by
  obtain ⟨item, -, hstands⟩ := Instruction.stands_at (m := m.memory) hpc
  rw [h] at hstands
  have hshown : ∀ x ∈ c.shown, IsWord x := by
    cases hstands with
    | noOpcode => simpa [Cause.shown] using m.memory.isWord_cell m.pc
    | cutOff => simp [Cause.shown, IsWord]
  rw [step_eq, h]
  simp only [failure_eq (Cause.report?_of_shown hshown)]
  rfl

end Machine

namespace Session

def conclude (s : Session) : Machine × Machine.Outcome → Session × Event
  | (m, .executed r) => { s with machine := m }.witness r
  | (m, .failed f) => ({ s with machine := m }, .failed f)
  | (m, .unreported) => ({ s with machine := m }, .unreported)
  | (m, .starved) => ({ s with machine := m }, .noInput .unattached)

/-- What a step of a session does once it knows its instruction: it is carried out, a second time if
it has had to wait for a line. -/
def carryOut (s : Session) (i : Instruction) : Session × Event :=
  match s.machine.carryOut i with
  | (_, .starved) =>
    match s.supply with
    | (t, some why) => (t, .noInput why)
    | (t, none) => t.conclude (t.machine.carryOut i)
  | done => s.conclude done

variable {s : Session}

theorem settle_eq (s : Session) : s.settle = s.conclude s.machine.step := by
  unfold settle
  rw [advance_eq]
  rcases s.machine.step with ⟨m, _ | _ | _ | _⟩ <;> rfl

theorem decode_supply (s : Session) :
    Instruction.decode s.supply.1.machine.memory s.supply.1.machine.pc =
      Instruction.decode s.machine.memory s.machine.pc := by
  have hread := (Attended.readLine s).machine
  rw [← hread.memory, ← hread.pc]
  unfold supply
  rcases s.readLine with ⟨t, why | line⟩ <;> rfl

theorem step_of_starved (h : s.machine.step = (s.machine, .starved)) :
    s.step = match s.supply with
      | (t, some why) => (t, .noInput why)
      | (t, none) => t.settle := by
  unfold step
  rw [advance_eq, h]
  rfl

theorem step_of_not_starved (h : s.machine.step.2 ≠ .starved) : s.step = s.settle := by
  unfold step settle
  rw [advance_eq]
  generalize s.machine.step = stepped at h ⊢
  obtain ⟨m, _ | _ | _ | _⟩ := stepped
  case starved => exact absurd rfl h
  all_goals rfl

theorem step_eq_carryOut {i : Instruction}
    (h : Instruction.decode s.machine.memory s.machine.pc = .ok i) : s.step = s.carryOut i := by
  have hstep := Machine.step_eq_carryOut h
  by_cases hstarved : (s.machine.carryOut i).2 = .starved
  · have hout := Machine.carryOut_of_starved hstarved
    have hdecode := (decode_supply s).trans h
    rw [step_of_starved (hstep.trans hout), carryOut, hout]
    dsimp only
    generalize s.supply = supplied at hdecode ⊢
    obtain ⟨t, _ | why⟩ := supplied
    · dsimp only
      rw [settle_eq, Machine.step_eq_carryOut hdecode]
    · rfl
  · rw [step_of_not_starved (hstep ▸ hstarved), settle_eq, hstep, carryOut]
    generalize s.machine.carryOut i = done at hstarved ⊢
    obtain ⟨m, _ | _ | _ | _⟩ := done
    case starved => exact absurd rfl hstarved
    all_goals rfl

theorem step_of_decode_error {c : Cause} (hpc : IsAddress s.machine.pc)
    (h : Instruction.decode s.machine.memory s.machine.pc = .error c) :
    s.step = (s, .failed { c.fault with
      pc := some s.machine.pc
      opcode := s.machine.opcode?.map Opcode.mnemonic }) := by
  unfold step
  rw [advance_eq, Machine.step_of_decode_error hpc h]

end Session

namespace Listing

variable {m : Memory} {a last : Int}

theorem disassemble_of_le {item : Item} (h : a ≤ last) (hitem : itemAt m a = .ok item) :
    disassemble m a last = (⟨a, item⟩ :: (disassemble m (a + item.length) last).1,
      (disassemble m (a + item.length) last).2) := by
  rw [disassemble, if_neg (by omega), hitem]

theorem disassemble_of_lt (h : last < a) : disassemble m a last = ([], none) := by
  rw [disassemble, if_pos h]

/-- The addresses that a listing from here to the end of memory goes through. -/
def addresses (m : Memory) (a : Int) : List Int := (disassemble m a 32767).1.map (·.address)

theorem addresses_eq_cons {item : Item} (h : a ≤ 32767) (hitem : itemAt m a = .ok item) :
    addresses m a = a :: addresses m (a + item.length) := by
  rw [addresses, disassemble_of_le h hitem]
  rfl

theorem addresses_head (ha : IsAddress a) : [a] <+: addresses m a := by
  obtain ⟨item, hitem, -⟩ := Instruction.stands_at (m := m) ha
  rw [addresses_eq_cons (by omega) hitem]
  exact ⟨_, rfl⟩

end Listing

end WordMachine
