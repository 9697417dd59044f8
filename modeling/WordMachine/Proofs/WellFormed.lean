import WordMachine.Proofs.StepLaw

/-!
A step keeps a machine well-formed, whether it succeeds or not. The bound on the program counter
comes from two sides: an instruction is whole, so there is room for it before the end of memory, and
a jump has had its target checked.
-/
namespace WordMachine

namespace Objection

theorem first_eq_none_iff {checks : List (Option Fault)} :
    first checks = none ↔ ∀ c ∈ checks, c = none := by
  simp [first, List.findSome?_eq_none_iff]

theorem target_eq_none_iff {x : Int} : target x = none ↔ x ≤ 32767 := by
  simp [target, objectIf]

end Objection

namespace Machine

open Objection

variable {m : Machine}

theorem isWord_get_keep (hm : ∀ i, IsWord (m.registers.get i)) {x v : Int} (hv : IsWord v)
    (i : RegisterIndex) : IsWord ((m.keep x v).registers.get i) := by
  rw [keep_eq]
  unfold Registers.setNamed
  split
  · exact hm i
  · dsimp only
    split
    · rw [Registers.get_set]
      split
      · exact hv
      · exact hm i
    · exact hm i

theorem WellFormed.of_keep (hw : m.WellFormed) {x v : Int} (hv : IsWord v) :
    (m.keep x v).WellFormed :=
  ⟨isWord_get_keep hw.registers hv, by simpa using hw.stack, by simpa using hw.pc⟩

theorem WellFormed.with_stack (hw : m.WellFormed) {stack : List Int}
    (h : ∀ v ∈ stack, IsWord v) : { m with stack }.WellFormed :=
  ⟨hw.registers, h, hw.pc⟩

theorem WellFormed.isWord_of_mem_tail (hw : m.WellFormed) {v : Int} (hv : v ∈ m.stack.tail) :
    IsWord v :=
  hw.stack v (List.mem_of_mem_tail hv)

theorem WellFormed.of_effect (hw : m.WellFormed) {a b c : Int} (ha : IsWord a) (hb : IsWord b)
    (hc : IsWord c) (op : Opcode) : (m.effect a b c op).WellFormed := by
  have hva := hw.val ha.1
  have hvb := hw.val hb.1
  have hvc := hw.val hc.1
  cases op with
  | halt | out => exact ⟨hw.registers, hw.stack, hw.pc⟩
  | jmp | jt | jf | noop => exact hw
  | set | wmem => exact hw.of_keep hvb
  | eq | gt => exact hw.of_keep (BinaryOp.isWord_truth _)
  | add | mult => exact hw.of_keep (BinaryOp.isWord_reduced _)
  | mod =>
    by_cases hzero : m.val c = 0
    · exact hw.of_keep (by rw [hzero, Int.emod_zero]; exact hvb)
    · exact hw.of_keep (BinaryOp.apply_mod hvc hzero).2
  | and => exact hw.of_keep (BinaryOp.apply_and hvb hvc).2
  | or => exact hw.of_keep (BinaryOp.apply_or hvb hvc).2
  | not => exact hw.of_keep (complement_eq hvb).2
  | rmem => exact hw.of_keep (hw.held _)
  | push =>
    refine hw.with_stack fun v hv => ?_
    obtain rfl | hv := List.mem_cons.mp hv
    · exact hva
    · exact hw.stack v hv
  | call =>
    have hpc := hw.pc
    refine hw.with_stack fun v hv => ?_
    obtain rfl | hv := List.mem_cons.mp hv
    · omega
    · exact hw.stack v hv
  | pop =>
    simp only [effect]
    split
    next => exact hw
    next v rest hs =>
      have hv : IsWord v := hw.stack v (hs ▸ List.mem_cons_self)
      refine (hw.of_keep hv).with_stack fun u hu => hw.stack u ?_
      exact hs ▸ List.mem_cons_of_mem v hu
  | ret =>
    simp only [effect]
    split
    next => exact ⟨hw.registers, hw.stack, hw.pc⟩
    next v rest hs => exact hw.with_stack fun u hu => hw.stack u (hs ▸ List.mem_cons_of_mem v hu)
  | «in» =>
    simp only [effect]
    split
    next => exact hw
    next code rest hq =>
      have hcode : IsWord code.toNat := by
        have := code.toNat_lt
        omega
      have := hw.of_keep (x := a) hcode
      exact ⟨this.registers, this.stack, this.pc⟩

theorem WellFormed.next_bounds (hw : m.WellFormed) {a b c : Int} (ha : IsWord a) (hb : IsWord b)
    (op : Opcode) (hwhole : m.pc + op.arity ≤ 32767) (hf : first (m.checks a b c op) = none) :
    0 ≤ m.next a b op ∧ m.next a b op ≤ 32768 := by
  have h0 := hw.pc
  have hjump {x : Int} (hx : IsWord x) (ht : target (m.val x) ∈ m.checks a b c op) :
      0 ≤ m.val x ∧ m.val x ≤ 32768 := by
    have hle := target_eq_none_iff.mp (first_eq_none_iff.mp hf _ ht)
    exact ⟨(hw.val hx.1).1, by omega⟩
  cases op with
  | halt => exact h0
  | jmp | call => exact hjump ha (by simp [checks])
  | jt =>
    simp only [next]
    split
    next htaken => exact hjump hb (by simp [checks, htaken])
    next => simp only [Opcode.arity] at hwhole; omega
  | jf =>
    simp only [next]
    split
    next htaken => exact hjump hb (by simp [checks, htaken])
    next => simp only [Opcode.arity] at hwhole; omega
  | ret =>
    simp only [next]
    split
    next => exact h0
    next v rest hs =>
      have ht : target v = none := first_eq_none_iff.mp hf _ (by simp [checks, hs])
      have := target_eq_none_iff.mp ht
      have := (hw.stack v (hs ▸ List.mem_cons_self)).1
      omega
  | _ =>
    simp only [next, Opcode.size, Opcode.arity] at hwhole ⊢
    omega

theorem WellFormed.of_executed (hw : m.WellFormed) {op : Opcode} (h : m.Fetches op)
    (hf : m.objection op = none) : (m.executed op).WellFormed := by
  have ha := m.isWord_wordAt 1
  have hb := m.isWord_wordAt 2
  have heffect := hw.of_effect ha hb (m.isWord_wordAt 3) op
  exact ⟨heffect.registers, heffect.stack, hw.next_bounds ha hb op h.whole hf⟩

theorem WellFormed.of_refused (hw : m.WellFormed) (op : Opcode) : (m.refused op).WellFormed := by
  unfold refused
  split
  · exact hw.with_stack fun v hv => hw.isWord_of_mem_tail hv
  · exact hw.with_stack fun v hv => hw.isWord_of_mem_tail hv
  · exact ⟨hw.registers, hw.stack, hw.pc⟩
  · exact hw

theorem WellFormed.of_step (hw : m.WellFormed) : m.step.1.WellFormed := by
  obtain hend | ⟨hpc, hcode⟩ | ⟨op, hpc, hcode, hcut⟩ | ⟨op, hop⟩ := cases_of_wellFormed hw
  · rw [step_of_outside hend]
    exact hw
  · rw [step_of_noOpcode hw.pc.1 hpc hcode]
    exact hw
  · rw [step_of_cutOff hw.pc.1 hpc hcode hcut]
    exact hw
  · by_cases hwait : op = .in → m.console.queue ≠ []
    · rw [step_of_fetches hw hop hwait]
      split
      next => exact hw.of_refused op
      next hf => exact hw.of_executed hop hf
    · obtain ⟨rfl, hq⟩ := Classical.not_imp.mp hwait
      rw [step_of_awaits ⟨hop, Classical.not_not.mp hq⟩]
      exact hw

end Machine

end WordMachine
