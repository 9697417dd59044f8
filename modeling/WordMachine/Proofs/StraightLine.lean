import WordMachine.Proofs.Decoding
import WordMachine.Proofs.History
import WordMachine.Proofs.StepContract

/-!
Straight runs. An instruction that neither halts nor jumps goes on behind itself, by as many words
as the listing gives it. A run of such instructions that does not write over what it is going to
execute goes through the addresses of the listing, one after the other.
-/
namespace WordMachine

open Listing

namespace Instruction

/-- The instruction goes on behind itself: it neither halts nor jumps, calls or returns, and if it
is a branch, this is not taken. -/
def GoesOn (m : Machine) : Instruction → Prop
  | .halt | .jump _ | .call _ | .ret => False
  | .branch onZero a _ => decide (m.val a = 0) ≠ onZero
  | _ => True

def target? (m : Machine) : Instruction → Option Int
  | .set a _ | .pop a | .binary _ a _ _ | .not a _ | .rmem a _ | .input a => some a
  | .wmem a _ => some (m.val a)
  | _ => none

end Instruction

namespace Machine

variable {m : Machine}

theorem next_of_goesOn {a b c : Int} {op : Opcode} (h : (Instruction.make a b c op).GoesOn m) :
    m.next a b op = m.pc + op.size := by
  cases op with
  | halt | jmp | call | ret => exact h.elim
  | jt | jf =>
    simp only [Instruction.make, Instruction.GoesOn] at h
    simp only [next, Opcode.size, Opcode.arity]
    simp_all
  | _ => rfl

end Machine

theorem Memory.cell_setCell_of_ne (m : Memory) {x y : Int} (h : y ≠ x) (v : Int) :
    (m.setCell x v).cell y = m.cell y := by
  unfold cell
  split
  next hy => rw [get_setCell, val_addressOf, if_neg h]
  next => rfl

namespace Machine

variable {m : Machine}

theorem cell_keep_of_ne {x y : Int} (h : y ≠ x) (v : Int) :
    (m.keep x v).memory.cell y = m.memory.cell y := by
  rw [keep_eq]
  split
  · exact m.memory.cell_setCell_of_ne h v
  · rfl

theorem cell_effect {a b c x : Int} {op : Opcode}
    (h : (Instruction.make a b c op).target? m ≠ some x) :
    (m.effect a b c op).memory.cell x = m.memory.cell x := by
  have keep {y : Int} (hy : some y ≠ some x) (v : Int) :
      (m.keep y v).memory.cell x = m.memory.cell x :=
    cell_keep_of_ne (fun hxy => hy (congrArg some hxy.symm)) v
  cases op with
  | halt | push | jmp | jt | jf | call | out | noop => rfl
  | set | eq | gt | add | mult | mod | and | or | not | rmem | wmem => exact keep h _
  | ret =>
    simp only [effect]
    split <;> rfl
  | pop =>
    simp only [effect]
    split
    · rfl
    · exact keep h _
  | «in» =>
    simp only [effect]
    split
    · rfl
    · exact keep h _

theorem Fetches.decode {op : Opcode} (h : m.Fetches op) :
    Instruction.decode m.memory m.pc = .ok (.standing m.memory m.pc op) := by
  have hinside := h.inside
  have hwhole := h.whole
  have hcode := h.code
  rw [wordAt, Int.add_zero] at hcode
  exact (Instruction.decode_ok_iff ⟨hinside, by omega⟩).mpr ⟨op, hcode, hwhole, rfl⟩

theorem inside_of_decode {i : Instruction} (h : Instruction.decode m.memory m.pc = .ok i) :
    IsAddress m.pc := by
  apply Decidable.byContradiction
  intro hpc
  rw [Instruction.decode, Memory.read_outside _ hpc] at h
  contradiction

theorem fetches_iff_of_decode {i : Instruction} (h : Instruction.decode m.memory m.pc = .ok i)
    {op : Opcode} : m.Fetches op ↔ i.opcode = op := by
  constructor
  · intro hop
    obtain rfl := Except.ok.inj (hop.decode.symm.trans h)
    apply Instruction.opcode_standing
  · rintro rfl
    have hinside := inside_of_decode h
    obtain ⟨op, hcode, hwhole, rfl⟩ := (Instruction.decode_ok_iff hinside).mp h
    rw [Instruction.opcode_standing]
    refine ⟨hinside.1, ?_, hwhole⟩
    rw [wordAt, Int.add_zero]
    exact hcode

end Machine

namespace Session

variable {s : Session} {i : Instruction}

theorem Serves.eq_or_input {m : Machine} (h : s.Serves m) :
    m = s.machine ∨ s.machine.Fetches .in := by
  cases h with
  | ready => exact .inl rfl
  | line hwait => exact .inr hwait.1

/-- A step that succeeds carries out the decoded instruction, on a machine in which the operands and
the effects mean the same. -/
theorem succeeds_cases (hw : s.machine.WellFormed) (hok : s.step.2.Succeeds)
    (h : Instruction.decode s.machine.memory s.machine.pc = .ok i) :
    ∃ (m : Machine) (a b c : Int) (op : Opcode), i = .make a b c op ∧ m.memory = s.machine.memory ∧
      m.pc = s.machine.pc ∧ (i.GoesOn s.machine → i.GoesOn m) ∧
      i.target? m = i.target? s.machine ∧
      s.step.1.machine.muted = (m.execute op a b c).muted := by
  obtain ⟨t, why, -, -, hstep⟩ | ⟨t, op, f, -, -, -, hstep⟩ | ⟨t, op, ht, -, hop, -, hstep⟩ :=
    step_outcome hw
  · rw [hstep] at hok
    exact hok.elim
  · rw [hstep] at hok
    exact hok.elim
  · have hi : i = .make (s.machine.wordAt 1) (s.machine.wordAt 2) (s.machine.wordAt 3) op := 
      Except.ok.inj (h.symm.trans hop.decode)
    have hmuted := (witness_eq { t with machine := t.machine.executed op }
      (t.machine.recordOf op)).1
    rw [← hstep] at hmuted
    refine ⟨t.machine, _, _, _, op, hi, ht.attended.memory, ht.attended.pc, ?_, ?_, ?_⟩
    · obtain hm | hin := ht.eq_or_input
      · rw [hm]
        exact id
      · rw [hi, hop.unique hin]
        exact id
    · obtain hm | hin := ht.eq_or_input
      · rw [hm]
      · rw [hi, hop.unique hin]
        rfl
    · simp only [← ht.wordAt_eq]
      exact hmuted

theorem pc_of_goesOn (hw : s.machine.WellFormed) (hok : s.step.2.Succeeds)
    (h : Instruction.decode s.machine.memory s.machine.pc = .ok i) (hon : i.GoesOn s.machine) :
    s.step.1.machine.pc = s.machine.pc + i.size := by
  obtain ⟨m, a, b, c, op, rfl, -, hpc, hgoes, -, hmuted⟩ := succeeds_cases hw hok h
  calc s.step.1.machine.pc = m.next a b op := congrArg (·.pc) hmuted
    _ = m.pc + op.size := Machine.next_of_goesOn (hgoes hon)
    _ = s.machine.pc + (Instruction.make a b c op).size := by
      rw [hpc, Instruction.size, Instruction.opcode_make]

theorem cell_of_not_target (hw : s.machine.WellFormed) (hok : s.step.2.Succeeds)
    (h : Instruction.decode s.machine.memory s.machine.pc = .ok i) {x : Int}
    (hx : i.target? s.machine ≠ some x) :
    s.step.1.machine.memory.cell x = s.machine.memory.cell x := by
  obtain ⟨m, a, b, c, op, rfl, hmemory, -, -, htarget, hmuted⟩ := succeeds_cases hw hok h
  have hafter : s.step.1.machine.memory = (m.effect a b c op).memory := congrArg (·.memory) hmuted
  rw [hafter, ← hmemory]
  exact Machine.cell_effect (htarget ▸ hx)

/-- The instruction at the program counter. -/
abbrev Decodes (s : Session) (i : Instruction) : Prop :=
  Instruction.decode s.machine.memory s.machine.pc = .ok i

def after (s : Session) : Nat → Session
  | 0 => s
  | n + 1 => s.step.1.after n

def visited (s : Session) : Nat → List Int
  | 0 => []
  | n + 1 => s.machine.pc :: s.step.1.visited n

theorem after_succ (s : Session) (n : Nat) : s.after (n + 1) = (s.after n).step.1 := by
  induction n generalizing s with
  | zero => rfl
  | succ n ih => exact ih s.step.1

theorem after_keeps {P : Session → Prop} (hstep : ∀ {s : Session}, P s → P s.step.1) {s : Session}
    (h : P s) (n : Nat) : P (s.after n) := by
  induction n generalizing s with
  | zero => exact h
  | succ n ih => exact ih (hstep h)

theorem wellFormed_after (hw : s.machine.WellFormed) (n : Nat) :
    (s.after n).machine.WellFormed :=
  after_keeps (P := (·.machine.WellFormed)) wellFormed_step hw n

/-- So many steps that all succeed and go on behind their instructions, and of which none stores
into a cell of an instruction that is executed later. -/
structure GoesStraight (s : Session) (n : Nat) : Prop where
  goesOn : ∀ k < n, ∃ i, (s.after k).Decodes i ∧ (s.after k).step.2.Succeeds ∧
    i.GoesOn (s.after k).machine
  apart : ∀ k l, k < l → l < n → ∀ i j, (s.after k).Decodes i → (s.after l).Decodes j →
    ∀ x, i.target? (s.after k).machine = some x →
      ¬((s.after l).machine.pc ≤ x ∧ x < (s.after l).machine.pc + j.size)

theorem Decodes.inside (h : s.Decodes i) : IsAddress s.machine.pc := Machine.inside_of_decode h

theorem GoesStraight.decodes_first {n l : Nat} (hw : s.machine.WellFormed) (h : s.GoesStraight n)
    (hl : l < n) (hi : (s.after l).Decodes i) :
    Instruction.decode s.machine.memory (s.after l).machine.pc = .ok i := by
  have hsame (x : Int) (hx : (s.after l).machine.pc ≤ x)
      (hx' : x < (s.after l).machine.pc + i.size) (k : Nat) (hk : k ≤ l) :
      (s.after k).machine.memory.cell x = s.machine.memory.cell x := by
    induction k with
    | zero => rfl
    | succ k ih =>
      obtain ⟨j, hj, hok, -⟩ := h.goesOn k (by omega)
      rw [after_succ, cell_of_not_target (wellFormed_after hw k) hok hj, ih (by omega)]
      intro htarget
      exact h.apart k l (by omega) hl j i hj hi x htarget ⟨hx, hx'⟩
  refine Instruction.decode_congr hi.inside hi fun x hx hx' => ?_
  exact (hsame x hx hx' l (Nat.le_refl l)).symm

/-- Steps that find the instructions of a listing go through its addresses. -/
theorem visited_listed {m : Memory} {n : Nat} (hw : s.machine.WellFormed)
    (h : ∀ k < n, ∃ i, (s.after k).Decodes i ∧
      Instruction.decode m (s.after k).machine.pc = .ok i ∧ (s.after k).step.2.Succeeds ∧
      i.GoesOn (s.after k).machine) :
    s.visited n <+: addresses m s.machine.pc ∧
      ((s.after n).machine.pc ≤ 32767 → s.visited (n + 1) <+: addresses m s.machine.pc) := by
  induction n generalizing s with
  | zero =>
    refine ⟨List.nil_prefix, fun hpc => addresses_head ⟨hw.pc.1, ?_⟩⟩
    exact Int.lt_add_one_of_le hpc
  | succ n ih =>
    obtain ⟨i, hi, him, hok, hon⟩ := h 0 (by omega)
    have hpc : IsAddress s.machine.pc := Decodes.inside hi
    have hwalk := addresses_eq_cons (by omega) (Instruction.itemAt_of_decode hpc him)
    -- The listing goes on where the step does, so the rest of the run is listed from there.
    rw [Instruction.length_item, ← pc_of_goesOn hw hok hi hon] at hwalk
    obtain ⟨hrun, hlast⟩ := ih (wellFormed_step hw) fun k hk => h (k + 1) (by omega)
    rw [hwalk]
    exact ⟨(List.prefix_cons_inj _).mpr hrun, fun hend => (List.prefix_cons_inj _).mpr (hlast hend)⟩

/-- Decoding, listing and executing agree on what stands at an address and on how long it is, and so
a straight run goes through the addresses of the listing that memory has at its beginning. -/
theorem decoders_agree :
    (∀ (m : Memory) (a : Int), IsAddress a → ∃ item, itemAt m a = .ok item ∧
      ((∃ i, Instruction.decode m a = .ok i) ↔ item.isData = false) ∧
      ∀ i, Instruction.decode m a = .ok i → item.mnemonic = i.mnemonic ∧
        item.operands = i.operands ∧ item.length = i.opcode.size) ∧
    (∀ s : Session, s.machine.WellFormed → s.machine.pc ≤ 32767 →
      (∀ i, s.Decodes i → s.step = s.carryOut i ∧
        (s.step.2.Succeeds → i.GoesOn s.machine →
          s.step.1.machine.pc = s.machine.pc + i.opcode.size)) ∧
      ∀ c, Instruction.decode s.machine.memory s.machine.pc = .error c →
        s.step = (s, .failed { c.fault with
          pc := some s.machine.pc
          opcode := s.machine.opcode?.map Opcode.mnemonic })) ∧
    (∀ (s : Session) (n : Nat), s.machine.WellFormed → s.GoesStraight n →
      s.visited n <+: addresses s.machine.memory s.machine.pc ∧
        ((s.after n).machine.pc ≤ 32767 →
          s.visited (n + 1) <+: addresses s.machine.memory s.machine.pc)) := by
  refine ⟨fun m a ha => ?_, fun s hw hpc => ⟨fun i hi => ?_, fun c hc => ?_⟩,
    fun s n hw hrun => ?_⟩
  · obtain ⟨item, hitem, -⟩ := Instruction.stands_at (m := m) ha
    refine ⟨item, hitem, Instruction.exists_decode_iff ha hitem, fun i hi => ?_⟩
    obtain rfl := Except.ok.inj (hitem.symm.trans (Instruction.itemAt_of_decode ha hi))
    exact ⟨rfl, rfl, Instruction.length_item i⟩
  · exact ⟨step_eq_carryOut hi, fun hok hon => pc_of_goesOn hw hok hi hon⟩
  · exact step_of_decode_error ⟨hw.pc.1, Int.lt_add_one_of_le hpc⟩ hc
  · refine visited_listed hw fun k hk => ?_
    obtain ⟨i, hi, hok, hon⟩ := hrun.goesOn k hk
    exact ⟨i, hi, hrun.decodes_first hw hk hi, hok, hon⟩

def storingAhead : Session where
  machine :=
    { memory := (((Memory.empty.setCell 0 16).setCell 1 100).setCell 2 7).setCell 3 21 }

def astray : Session where
  machine := { memory := Memory.empty.setCell 0 22 }

theorem decodes_of_fetches {op : Opcode} (h : s.machine.Fetches op)
    (hi : .standing s.machine.memory s.machine.pc op = i) : s.Decodes i :=
  hi ▸ h.decode

theorem storingAhead_decodes :
    storingAhead.Decodes (.wmem 100 7) ∧ (storingAhead.after 1).Decodes .noop := by
  have hfirst : storingAhead.machine.Fetches .wmem := by decide +kernel
  have hsecond : (storingAhead.after 1).machine.Fetches .noop := by decide +kernel
  exact ⟨decodes_of_fetches hfirst (by decide +kernel), decodes_of_fetches hsecond rfl⟩

theorem storingAhead_goesStraight : storingAhead.GoesStraight 2 := by
  obtain ⟨hfirst, hsecond⟩ := storingAhead_decodes
  refine ⟨fun k hk => ?_, fun k l hkl hl i j hi hj x hx => ?_⟩
  · obtain rfl | rfl : k = 0 ∨ k = 1 := by omega
    · exact ⟨_, hfirst, by decide +kernel, trivial⟩
    · exact ⟨_, hsecond, by decide +kernel, trivial⟩
  · obtain ⟨rfl, rfl⟩ : k = 0 ∧ l = 1 := by omega
    obtain rfl := Except.ok.inj (hi.symm.trans hfirst)
    obtain rfl := Except.ok.inj (hj.symm.trans hsecond)
    have hpc : (storingAhead.after 1).machine.pc = 3 := by decide +kernel
    have hsize : Instruction.noop.size = 1 := rfl
    cases hx
    rw [hpc, hsize]
    decide

theorem storingAhead_decoders_agree :
    (IsAddress 0 ∧ ∃ item, itemAt storingAhead.machine.memory 0 = .ok item ∧
      item.operands = [100, 7] ∧ item.length = 3) ∧
    (storingAhead.machine.WellFormed ∧ storingAhead.machine.pc ≤ 32767 ∧
      storingAhead.Decodes (.wmem 100 7) ∧
      storingAhead.step = storingAhead.carryOut (.wmem 100 7) ∧
      storingAhead.step.2.Succeeds ∧ storingAhead.step.1.machine.pc = 3) ∧
    (Instruction.decode astray.machine.memory 0 = .error (.unknownOpcode 22) ∧
      astray.step = (astray, .failed { (Cause.unknownOpcode 22).fault with pc := some 0 })) ∧
    storingAhead.GoesStraight 2 ∧
      storingAhead.visited 2 <+: addresses storingAhead.machine.memory 0 := by
  obtain ⟨hitems, hsteps, hruns⟩ := decoders_agree
  have hw : storingAhead.machine.WellFormed := ⟨by decide +kernel, by decide, by decide⟩
  have hi := storingAhead_decodes.1
  have hok : storingAhead.step.2.Succeeds := by decide +kernel
  have hastray : astray.machine.WellFormed := ⟨by decide +kernel, by decide, by decide⟩
  have hword : astray.machine.memory.cell 0 = 22 := by decide +kernel
  have hnone : Instruction.decode astray.machine.memory 0 = .error (.unknownOpcode 22) := by
    rw [Instruction.decode_eq (by decide), hword]
    rfl
  obtain ⟨item, hitem, -, hsame⟩ := hitems storingAhead.machine.memory 0 (by decide)
  obtain ⟨hstep, hpc⟩ := (hsteps storingAhead hw (by decide)).1 _ hi
  refine ⟨⟨by decide, item, hitem, (hsame _ hi).2⟩,
    ⟨hw, by decide, hi, hstep, hok, hpc hok trivial⟩, ⟨hnone, ?_⟩, storingAhead_goesStraight,
    (hruns _ 2 hw storingAhead_goesStraight).1⟩
  have hfails := (hsteps astray hastray (by decide)).2 _ hnone
  have hopcode : astray.machine.opcode? = none := by decide +kernel
  rw [hopcode] at hfails
  exact hfails

end Session

end WordMachine
