import WordMachine.Proofs.Footprint
import WordMachine.Proofs.TraceAccount

/-!
Fifteen bits in a machine. Arithmetic makes narrow values of narrow ones, so a step from narrow
registers and a narrow stack leaves them narrow unless it loads a wide word or pushes an address
behind the last one. Each narrow value is an address, so nothing is said against it as one.
-/
namespace WordMachine

theorem isWord_of_isAddress {x : Int} (h : IsAddress x) : IsWord x := by
  omega

section Arithmetic

variable {x y z : Int}

theorem isAddress_natCast {n : Nat} (h : n < 32768) : IsAddress (n : Int) := by
  omega

theorem isAddress_reduced (z : Int) : IsAddress (z % modulus) := by
  unfold modulus
  omega

theorem isAddress_meet (hx : IsAddress x) (hy : IsAddress y) : IsAddress (Bits.meet x y) := by
  obtain ⟨m, rfl⟩ := Int.eq_ofNat_of_zero_le hx.1
  obtain ⟨n, rfl⟩ := Int.eq_ofNat_of_zero_le hy.1
  exact isAddress_natCast (Nat.and_lt_two_pow (n := 15) _ (by omega))

theorem isAddress_join (hx : IsAddress x) (hy : IsAddress y) : IsAddress (Bits.join x y) := by
  obtain ⟨m, rfl⟩ := Int.eq_ofNat_of_zero_le hx.1
  obtain ⟨n, rfl⟩ := Int.eq_ofNat_of_zero_le hy.1
  exact isAddress_natCast (Nat.or_lt_two_pow (n := 15) (by omega) (by omega))

theorem isAddress_complement (hx : IsAddress x) : IsAddress (complement x) := by
  obtain ⟨m, rfl⟩ := Int.eq_ofNat_of_zero_le hx.1
  exact isAddress_natCast (Nat.xor_lt_two_pow (n := 15) (by omega) (by decide))

theorem BinaryOp.isAddress_of_apply {op : BinaryOp} (hx : IsAddress x) (hy : IsAddress y)
    (h : op.apply x y = .ok z) : IsAddress z := by
  cases op with
  | eq | gt =>
    cases h
    split <;> decide
  | add | mult =>
    cases h
    apply isAddress_reduced
  | and =>
    cases h
    exact isAddress_meet hx hy
  | or =>
    cases h
    exact isAddress_join hx hy
  | mod =>
    have hne : y ≠ 0 := by
      rintro rfl
      cases h
    rw [(BinaryOp.apply_mod ⟨hy.1, by omega⟩ hne).1] at h
    cases h
    have hlt : x % y < y := Int.emod_lt_of_pos x (by omega)
    exact ⟨Int.emod_nonneg x hne, by omega⟩

theorem BinaryOp.apply_error {op : BinaryOp} {c : Cause} (h : op.apply x y = .error c) :
    op = .mod ∧ c = .zeroDivisor x := by
  cases op with
  | mod =>
    rw [apply] at h
    split at h
    · cases h
      exact ⟨rfl, rfl⟩
    · cases h
  | _ => cases h

end Arithmetic

structure Effect.Narrow (e : Effect) : Prop where
  store : ∀ d, e.store = some d → d.2.toNat ≤ 32767
  stack : ∀ v ∈ e.stack, IsAddress v

namespace Effect

variable {e : Effect}

theorem narrow_of_no_store (h : e.store = none) (hstack : ∀ v ∈ e.stack, IsAddress v) :
    e.Narrow := by
  refine ⟨?_, hstack⟩
  intro d hd
  rw [h] at hd
  contradiction

theorem narrow_of_store {d : Place × Word} (h : e.store = some d) (hd : d.2.toNat ≤ 32767)
    (hstack : ∀ v ∈ e.stack, IsAddress v) : e.Narrow := by
  refine ⟨?_, hstack⟩
  intro d' hd'
  cases h.symm.trans hd'
  exact hd

end Effect

/-- What can be said against an instruction if all values are narrow. A place that cannot be written
to is named by the first operand itself. -/
inductive Instruction.Refused : Instruction → Cause → Prop where
  | value {i : Instruction} {x : Int} : Refused i (.notANumber x)
  | register {a b : Int} : Refused (.set a b) (.setTarget a)
  | entry {a : Int} : Refused (.pop a) (.emptyStack a)
  | divisor {a b c x : Int} : Refused (.binary .mod a b c) (.zeroDivisor x)
  | place {i : Instruction} {x : Int} : (∀ a b, i ≠ .wmem a b) → i.operands.head? = some x →
      ¬IsAddress x → Refused i (.unwritable x)

theorem Instruction.Refused.spares {i : Instruction} {c : Cause} (h : i.Refused c) :
    c.kind ≠ .outOfRangeAddress ∧ (∀ a b, i = .wmem a b → c.kind = .invalidNumber) ∧
      ∀ a b, i = .rmem a b → c.kind = .invalidNumber ∨ c = .unwritable a ∧ ¬IsAddress a := by
  cases h with
  | value => exact ⟨FaultKind.noConfusion, fun _ _ _ => rfl, fun _ _ _ => .inl rfl⟩
  | register | entry | divisor => exact ⟨FaultKind.noConfusion, by simp, by simp⟩
  | place hwmem hhead hx =>
    refine ⟨FaultKind.noConfusion, fun a b hi => absurd hi (hwmem a b), ?_⟩
    rintro a b rfl
    cases hhead
    exact .inr ⟨rfl, hx⟩

def Instruction.OnlyRefuses {α : Type} (i : Instruction) (r : Except Cause α) : Prop :=
  ∀ c, r = .error c → i.Refused c

namespace Machine

variable {m : Machine} {i : Instruction} {e : Effect} {c : Cause} {x v : Int}

/-- All numbers outside memory are narrow. -/
structure Narrow (m : Machine) : Prop where
  registers : ∀ i, IsAddress (m.registers.get i)
  stack : ∀ v ∈ m.stack, IsAddress v

theorem WellFormed.narrow (hw : m.WellFormed) (hregisters : ∀ i, m.registers.get i ≤ 32767)
    (hstack : ∀ v ∈ m.stack, v ≤ 32767) : m.Narrow := by
  constructor
  · intro i
    exact ⟨(hw.registers i).1, Int.lt_add_one_of_le (hregisters i)⟩
  · intro v hv
    exact ⟨(hw.stack v hv).1, Int.lt_add_one_of_le (hstack v hv)⟩

def LoadsWide (m : Machine) : Prop :=
  ∃ (a b : Int) (x : Address), Instruction.decode m.memory m.pc = .ok (.rmem a b) ∧
    m.valueOf b = .ok x.val ∧ 32767 < (m.memory.get x).toNat

/-- The instruction is a call that stands where its return address is no address. -/
def CallsLast (m : Machine) : Prop :=
  ∃ a, Instruction.decode m.memory m.pc = .ok (.call a) ∧ m.pc = 32766

theorem Narrow.isAddress_of_valueOf (hn : m.Narrow) (h : m.valueOf x = .ok v) : IsAddress v := by
  unfold valueOf at h
  split at h
  next i hp =>
    cases h
    have hx := Place.ofNumber?_eq_cell_iff.mp hp
    omega
  next i hp =>
    cases h
    exact hn.registers i
  next => contradiction

theorem valueOf_error (h : m.valueOf x = .error c) : c = .notANumber x := by
  unfold valueOf at h
  split at h <;> cases h
  rfl

theorem load_of_isAddress (h : IsAddress x) :
    m.load x = .ok (m.memory.get (addressOf x h)).toNat := by
  unfold load Place.ofNumber?
  rw [dif_pos h]

theorem toNat_of_destination {d : Place × Word} (h : destination x v = .ok d) :
    (d.2.toNat : Int) = v := by
  unfold destination at h
  split at h
  · contradiction
  · obtain ⟨w, hw, h⟩ := exists_of_bind_ok h
    cases h
    unfold checkWord at hw
    split at hw
    next hword =>
      cases hw
      exact toNat_of_word? hword
    next => contradiction

theorem narrow_of_destination {d : Place × Word} (h : destination x v = .ok d)
    (hv : IsAddress v) : d.2.toNat ≤ 32767 := by
  have hd := toNat_of_destination h
  omega

theorem destination_error (h : destination x v = .error c) (hv : IsWord v) :
    c = .unwritable x ∧ ¬IsAddress x := by
  by_cases hx : 0 ≤ x ∧ x ≤ 32775
  · obtain ⟨d, hd, -⟩ := destination_eq (m := {}) hx.1 hx.2 hv
    cases hd.symm.trans h
  · rw [destination_of_not_place hx] at h
    cases h
    exact ⟨rfl, fun ha => hx ⟨ha.1, by omega⟩⟩

end Machine

namespace Instruction.OnlyRefuses

variable {α β : Type} {i : Instruction} {m : Machine} {x v : Int}

theorem done {a : α} : i.OnlyRefuses (.ok a) := by
  intro c h
  cases h

theorem refuse {c : Cause} (h : i.Refused c) : i.OnlyRefuses (.error c : Except Cause α) := by
  rintro _ ⟨⟩
  exact h

theorem bind {r : Except Cause α} {k : α → Except Cause β} (hr : i.OnlyRefuses r)
    (hk : ∀ a, r = .ok a → i.OnlyRefuses (k a)) : i.OnlyRefuses (r >>= k) := by
  cases r with
  | error c => exact refuse (hr c rfl)
  | ok a => exact hk a rfl

theorem value : i.OnlyRefuses (m.valueOf x) := by
  intro c h
  obtain rfl := Machine.valueOf_error h
  exact .value

theorem inside (h : IsAddress x) : i.OnlyRefuses (checkAddress x) := by
  rw [checkAddress_of_inside h]
  exact done

theorem jump (hn : m.Narrow) : i.OnlyRefuses (m.jumpTarget x) := by
  rw [Machine.jumpTarget_eq]
  exact bind value fun v hv => bind (inside (hn.isAddress_of_valueOf hv)) fun _ _ => done

theorem place (hv : IsWord v) (hi : i.operands.head? = some x) (hwmem : ∀ a b, i ≠ .wmem a b) :
    i.OnlyRefuses (Machine.destination x v) := by
  intro c h
  obtain ⟨rfl, hx⟩ := Machine.destination_error h hv
  exact .place hwmem hi hx

end Instruction.OnlyRefuses

namespace Machine

variable {m : Machine} {i : Instruction} {e : Effect}

theorem Narrow.of_plan (hn : m.Narrow) (h : i.plan m = .ok (some e))
    (hload : ∀ a b (x : Address), i = .rmem a b → m.valueOf b = .ok x.val →
      (m.memory.get x).toNat ≤ 32767)
    (hcall : ∀ a, i = .call a → IsAddress (m.pc + 2)) : e.Narrow := by
  cases i with
  | halt | noop =>
    cases h
    exact Effect.narrow_of_no_store rfl hn.stack
  | jump | out =>
    obtain ⟨v, -, h⟩ := exists_of_bind_ok h
    cases h
    exact Effect.narrow_of_no_store rfl hn.stack
  | branch =>
    obtain ⟨v, -, h⟩ := exists_of_bind_ok h
    dsimp only at h
    split at h
    · obtain ⟨next, -, h⟩ := exists_of_bind_ok h
      cases h
      exact Effect.narrow_of_no_store rfl hn.stack
    · cases h
      exact Effect.narrow_of_no_store rfl hn.stack
  | set =>
    rw [Instruction.plan] at h
    split at h
    · obtain ⟨v, hv, h⟩ := exists_of_bind_ok h
      obtain ⟨d, hd, h⟩ := exists_of_bind_ok h
      cases h
      have hword := narrow_of_destination hd (hn.isAddress_of_valueOf hv)
      exact Effect.narrow_of_store rfl hword hn.stack
    · contradiction
  | not =>
    obtain ⟨v, hv, h⟩ := exists_of_bind_ok h
    obtain ⟨d, hd, h⟩ := exists_of_bind_ok h
    cases h
    have hword := narrow_of_destination hd (isAddress_complement (hn.isAddress_of_valueOf hv))
    exact Effect.narrow_of_store rfl hword hn.stack
  | binary op =>
    obtain ⟨x, hx, h⟩ := exists_of_bind_ok h
    obtain ⟨y, hy, h⟩ := exists_of_bind_ok h
    obtain ⟨z, hz, h⟩ := exists_of_bind_ok h
    obtain ⟨d, hd, h⟩ := exists_of_bind_ok h
    cases h
    have hnarrow := BinaryOp.isAddress_of_apply (hn.isAddress_of_valueOf hx)
      (hn.isAddress_of_valueOf hy) hz
    exact Effect.narrow_of_store rfl (narrow_of_destination hd hnarrow) hn.stack
  | rmem a b =>
    obtain ⟨address, haddress, h⟩ := exists_of_bind_ok h
    obtain ⟨v, hv, h⟩ := exists_of_bind_ok h
    obtain ⟨d, hd, h⟩ := exists_of_bind_ok h
    cases h
    have hinside := hn.isAddress_of_valueOf haddress
    rw [← val_addressOf hinside] at haddress
    have hnarrow := hload a b _ rfl haddress
    rw [load_of_isAddress hinside] at hv
    cases hv
    exact Effect.narrow_of_store rfl (narrow_of_destination hd ⟨by omega, by omega⟩) hn.stack
  | wmem =>
    obtain ⟨address, -, h⟩ := exists_of_bind_ok h
    obtain ⟨v, hv, h⟩ := exists_of_bind_ok h
    obtain ⟨d, hd, h⟩ := exists_of_bind_ok h
    cases h
    have hword := narrow_of_destination hd (hn.isAddress_of_valueOf hv)
    exact Effect.narrow_of_store rfl hword hn.stack
  | push =>
    obtain ⟨v, hv, h⟩ := exists_of_bind_ok h
    cases h
    apply Effect.narrow_of_no_store rfl
    exact List.forall_mem_cons.mpr ⟨hn.isAddress_of_valueOf hv, hn.stack⟩
  | call a =>
    obtain ⟨target, -, h⟩ := exists_of_bind_ok h
    cases h
    apply Effect.narrow_of_no_store rfl
    exact List.forall_mem_cons.mpr ⟨hcall a rfl, hn.stack⟩
  | pop =>
    have hstack := hn.stack
    rw [Instruction.plan] at h
    split at h
    · contradiction
    next v rest hs =>
      rw [hs, List.forall_mem_cons] at hstack
      obtain ⟨d, hd, h⟩ := exists_of_bind_ok h
      cases h
      exact Effect.narrow_of_store rfl (narrow_of_destination hd hstack.1) hstack.2
  | ret =>
    have hstack := hn.stack
    rw [Instruction.plan] at h
    split at h
    · cases h
      exact Effect.narrow_of_no_store rfl hstack
    next v rest hs =>
      rw [hs, List.forall_mem_cons] at hstack
      obtain ⟨_, -, h⟩ := exists_of_bind_ok h
      cases h
      exact Effect.narrow_of_no_store rfl hstack.2
  | input =>
    rw [Instruction.plan] at h
    split at h
    · cases h
    next code rest _ =>
      obtain ⟨d, hd, h⟩ := exists_of_bind_ok h
      cases h
      have hcode := code.toNat_lt
      exact Effect.narrow_of_store rfl (narrow_of_destination hd ⟨by omega, by omega⟩) hn.stack

theorem Narrow.perform (hn : m.Narrow) (he : e.Narrow) : (m.perform e).Narrow := by
  refine ⟨fun j => ?_, he.stack⟩
  have hregisters : (m.perform e).registers = (m.putAll e.store).registers := rfl
  rw [hregisters]
  rcases hstore : e.store with _ | ⟨p | k, w⟩
  · exact hn.registers j
  · exact hn.registers j
  · have hw : w.toNat ≤ 32767 := he.store _ hstore
    change IsAddress ((m.registers.set k w.toNat).get j)
    rw [Registers.get_set]
    split
    · omega
    · exact hn.registers j

theorem Narrow.afterFailure (hn : m.Narrow) (i : Instruction) : (m.afterFailure i).Narrow := by
  cases i with
  | pop | ret => exact ⟨hn.registers, fun v hv => hn.stack v (List.mem_of_mem_tail hv)⟩
  | _ => exact ⟨hn.registers, hn.stack⟩

/-- A step keeps the numbers narrow, and what it stores into a cell is narrow. -/
theorem Narrow.step (hn : m.Narrow)
    (h : ∀ r, m.step.2 = .executed r → ¬m.LoadsWide ∧ ¬m.CallsLast) :
    m.step.1.Narrow ∧ ∀ x, m.StoresInto x → (m.step.1.memory.get x).toNat ≤ 32767 := by
  unfold LoadsWide CallsLast at h
  unfold StoresInto
  rw [step_eq] at h ⊢
  cases hdecode : Instruction.decode m.memory m.pc with
  | error c =>
    refine ⟨hn, ?_⟩
    rintro x ⟨i, r, hi, -⟩
    cases hi
  | ok i =>
    rw [hdecode] at h
    unfold carryOut at h ⊢
    dsimp only at h ⊢
    split
    next c hplan =>
      refine ⟨hn.afterFailure i, ?_⟩
      rintro x ⟨j, r, -, -, hr⟩
      exact absurd hr (failure_ne_executed _ c r)
    next =>
      refine ⟨hn, ?_⟩
      rintro x ⟨j, r, -, -, hr⟩
      cases hr
    next e hplan =>
      rw [hplan] at h
      obtain ⟨hwide, hlast⟩ := h _ rfl
      have he : e.Narrow := by
        apply hn.of_plan hplan
        · rintro a b x rfl hb
          apply Nat.le_of_not_lt
          intro hlt
          exact hwide ⟨a, b, x, rfl, hb, hlt⟩
        · rintro a rfl
          have hfetches := (fetches_iff_of_decode hdecode).mpr rfl
          have hinside := hfetches.inside
          have hwhole := hfetches.whole
          have hne : m.pc ≠ 32766 := fun hpc => hlast ⟨a, rfl, hpc⟩
          simp only [Instruction.opcode, Opcode.arity] at hwhole
          omega
      refine ⟨hn.perform he, ?_⟩
      rintro x ⟨j, r, hj, htarget, -⟩
      cases hj
      have hplace := Instruction.place_of_plan hplan
      rw [htarget, Option.bind_some, Place.ofNumber?_eq_cell_iff.mpr rfl] at hplace
      obtain ⟨⟨p, w⟩, hstore, rfl⟩ := Option.map_eq_some_iff.mp hplace
      rw [get_perform_of_store hstore]
      exact he.store _ hstore

/-- With narrow values nothing is said against an address that an operand has been resolved to. -/
theorem Narrow.onlyRefuses (hn : m.Narrow) (i : Instruction) : i.OnlyRefuses (i.plan m) := by
  cases i with
  | halt | noop => exact .done
  | push | out => exact .bind .value fun _ _ => .done
  | jump | call => exact .bind (.jump hn) fun _ _ => .done
  | branch onZero =>
    refine .bind .value fun v _ => ?_
    split
    · exact .bind (.jump hn) fun _ _ => .done
    · exact .done
  | set a =>
    rw [Instruction.plan]
    split
    · refine .bind .value fun v hv => .bind ?_ fun _ _ => .done
      exact .place (isWord_of_isAddress (hn.isAddress_of_valueOf hv)) rfl (by simp)
    · exact .refuse .register
  | not =>
    refine .bind .value fun v hv => .bind ?_ fun _ _ => .done
    have hnarrow := isAddress_complement (hn.isAddress_of_valueOf hv)
    exact .place (isWord_of_isAddress hnarrow) rfl (by simp)
  | binary op =>
    refine .bind .value fun x hx => .bind .value fun y hy => ?_
    refine .bind ?_ fun z hz => .bind ?_ fun _ _ => .done
    · intro c h
      obtain ⟨rfl, rfl⟩ := BinaryOp.apply_error h
      exact .divisor
    · have hnarrow := BinaryOp.isAddress_of_apply (hn.isAddress_of_valueOf hx)
        (hn.isAddress_of_valueOf hy) hz
      exact .place (isWord_of_isAddress hnarrow) rfl (by simp)
  | rmem =>
    refine .bind .value fun address haddress => ?_
    have hinside := hn.isAddress_of_valueOf haddress
    have hloaded := (m.memory.get (addressOf address hinside)).toNat_lt
    rw [load_of_isAddress hinside]
    refine .bind .done fun v hv => .bind ?_ fun _ _ => .done
    cases hv
    exact .place ⟨by omega, by omega⟩ rfl (by simp)
  | wmem =>
    refine .bind .value fun address haddress => .bind .value fun v hv => .bind ?_ fun _ _ => .done
    intro c h
    have hword := isWord_of_isAddress (hn.isAddress_of_valueOf hv)
    exact absurd (hn.isAddress_of_valueOf haddress) (destination_error h hword).2
  | pop =>
    have hstack := hn.stack
    rw [Instruction.plan]
    split
    · exact .refuse .entry
    next v rest hs =>
      rw [hs, List.forall_mem_cons] at hstack
      exact .bind (.place (isWord_of_isAddress hstack.1) rfl (by simp)) fun _ _ => .done
  | ret =>
    have hstack := hn.stack
    rw [Instruction.plan]
    split
    · exact .done
    next v rest hs =>
      rw [hs, List.forall_mem_cons] at hstack
      exact .bind (.inside hstack.1) fun _ _ => .done
  | input =>
    rw [Instruction.plan]
    split
    · exact .done
    next code rest _ =>
      have hcode := code.toNat_lt
      exact .bind (.place ⟨by omega, by omega⟩ rfl (by simp)) fun _ _ => .done

theorem Narrow.of_muted {n : Machine} (h : n.muted = m.muted) (hm : m.Narrow) : n.Narrow := by
  have hregisters : n.registers = m.registers := congrArg (·.registers) h
  have hstack : n.stack = m.stack := congrArg (·.stack) h
  exact ⟨hregisters ▸ hm.registers, hstack ▸ hm.stack⟩

theorem Narrow.loads_from_cell (hn : m.Narrow) {a b : Int}
    (hi : Instruction.decode m.memory m.pc = .ok (.rmem a b)) {r : TraceRecord}
    (h : m.step.2 = .executed r) :
    ∃ x : Address, m.valueOf b = .ok x.val ∧ m.step.1.held a = (m.memory.get x).toNat := by
  obtain ⟨i, e, hdecode, hplan, hmachine, -⟩ := plan_of_executed h
  obtain rfl := Except.ok.inj (hi.symm.trans hdecode)
  obtain ⟨address, haddress, hplan⟩ := exists_of_bind_ok hplan
  obtain ⟨v, hv, hplan⟩ := exists_of_bind_ok hplan
  obtain ⟨d, hd, hplan⟩ := exists_of_bind_ok hplan
  cases hplan
  have hinside := hn.isAddress_of_valueOf haddress
  have hloaded := (m.memory.get (addressOf address hinside)).toNat_lt
  rw [load_of_isAddress hinside] at hv
  cases hv
  refine ⟨addressOf address hinside, by rw [val_addressOf, haddress], ?_⟩
  rw [hmachine]
  exact held_perform ⟨by omega, by omega⟩ hd rfl

theorem Narrow.stores_into_cell (hn : m.Narrow) {a b : Int}
    (hi : Instruction.decode m.memory m.pc = .ok (.wmem a b)) {r : TraceRecord}
    (h : m.step.2 = .executed r) :
    ∃ (x : Address) (w : Word), m.valueOf a = .ok x.val ∧ m.valueOf b = .ok w.toNat ∧
      m.step.1.memory = m.memory.set x w ∧ m.step.1.registers = m.registers := by
  obtain ⟨i, e, hdecode, hplan, hmachine, -⟩ := plan_of_executed h
  obtain rfl := Except.ok.inj (hi.symm.trans hdecode)
  obtain ⟨address, haddress, hplan⟩ := exists_of_bind_ok hplan
  obtain ⟨v, hv, hplan⟩ := exists_of_bind_ok hplan
  obtain ⟨⟨p, w⟩, hd, hplan⟩ := exists_of_bind_ok hplan
  cases hplan
  have hinside := hn.isAddress_of_valueOf haddress
  have hplace := place_of_destination hd
  rw [← val_addressOf hinside, Place.ofNumber?_eq_cell_iff.mpr rfl] at hplace
  cases hplace
  refine ⟨addressOf address hinside, w, by rw [val_addressOf, haddress], ?_, ?_, ?_⟩
  · rw [hv, toNat_of_destination hd]
  · rw [hmachine]
    rfl
  · rw [hmachine]
    rfl

end Machine

end WordMachine
