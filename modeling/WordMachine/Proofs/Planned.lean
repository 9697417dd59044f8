import WordMachine.Proofs.Decoding

/-!
What a plan can be. Whatever the operands are, an instruction that is planned goes on in one of a
few ways, which say what becomes of the program counter, the stack and the console. This holds of
every machine, also of one whose registers were given numbers that fit no cell.
-/
namespace WordMachine

namespace Instruction

def record (i : Instruction) (pc : Int) (values : List Int) : TraceRecord :=
  { pc, mnemonic := i.mnemonic, operands := i.operands, values }

inductive Keeps : Instruction → Prop where
  | set {a b : Int} : Keeps (.set a b)
  | binary {op : BinaryOp} {a b c : Int} : Keeps (.binary op a b c)
  | not {a b : Int} : Keeps (.not a b)
  | rmem {a b : Int} : Keeps (.rmem a b)
  | wmem {a b : Int} : Keeps (.wmem a b)

/-- The effects that an instruction can have. -/
inductive Plans (m : Machine) : Instruction → Effect → Prop where
  | halt : Plans m .halt { Effect.goto m m.pc [] with stop := some .halt }
  | noop : Plans m .noop (Effect.goto m (m.pc + 1) [])
  | keeps {i : Instruction} {values : List Int} {d : Place × Word} : i.Keeps →
      Plans m i { Effect.goto m (m.pc + i.size) values with store := some d }
  | push {a v : Int} : Plans m (.push a) { Effect.goto m (m.pc + 2) [v] with stack := v :: m.stack }
  | pop {a v : Int} {rest : List Int} {d : Place × Word} : m.stack = v :: rest →
      Plans m (.pop a) { Effect.goto m (m.pc + 2) [v] with store := some d, stack := rest }
  | jump {a target : Int} : Plans m (.jump a) (Effect.goto m target [target])
  | branch {onZero : Bool} {a b v next : Int} :
      Plans m (.branch onZero a b) (Effect.goto m next [v, next])
  | call {a target : Int} :
      Plans m (.call a) { Effect.goto m target [target] with stack := (m.pc + 2) :: m.stack }
  | bottom : m.stack = [] → Plans m .ret { Effect.goto m m.pc [] with stop := some .ret }
  | ret {v : Int} {rest : List Int} : m.stack = v :: rest →
      Plans m .ret { Effect.goto m v [v] with stack := rest }
  | out {a v : Int} : Plans m (.out a) { Effect.goto m (m.pc + 2) [v] with written := some v }
  | input {a : Int} {code : UInt8} {rest : List UInt8} {d : Place × Word} :
      m.console.queue = code :: rest → Machine.destination a code.toNat = .ok d →
      Plans m (.input a)
        { Effect.goto m (m.pc + 2) [(code.toNat : Int)] with store := some d, queue := rest }

theorem plans_of_plan {m : Machine} {i : Instruction} {e : Effect}
    (h : i.plan m = .ok (some e)) : i.Plans m e := by
  cases i with
  | halt | noop =>
    cases h
    constructor
  | push | jump | call | out =>
    obtain ⟨v, -, h⟩ := exists_of_bind_ok h
    cases h
    constructor
  | not =>
    obtain ⟨v, -, h⟩ := exists_of_bind_ok h
    obtain ⟨d, -, h⟩ := exists_of_bind_ok h
    cases h
    exact .keeps .not
  | rmem | wmem =>
    obtain ⟨address, -, h⟩ := exists_of_bind_ok h
    obtain ⟨v, -, h⟩ := exists_of_bind_ok h
    obtain ⟨d, -, h⟩ := exists_of_bind_ok h
    cases h
    exact .keeps (by constructor)
  | binary op =>
    obtain ⟨x, -, h⟩ := exists_of_bind_ok h
    obtain ⟨y, -, h⟩ := exists_of_bind_ok h
    obtain ⟨z, -, h⟩ := exists_of_bind_ok h
    obtain ⟨d, -, h⟩ := exists_of_bind_ok h
    cases h
    cases op <;> exact .keeps .binary
  | set =>
    rw [plan] at h
    split at h
    · obtain ⟨v, -, h⟩ := exists_of_bind_ok h
      obtain ⟨d, -, h⟩ := exists_of_bind_ok h
      cases h
      exact .keeps .set
    · contradiction
  | branch =>
    obtain ⟨v, -, h⟩ := exists_of_bind_ok h
    dsimp only at h
    split at h
    · obtain ⟨next, -, h⟩ := exists_of_bind_ok h
      cases h
      exact .branch
    · cases h
      exact .branch
  | pop =>
    rw [plan] at h
    split at h
    · contradiction
    next v rest hstack =>
      obtain ⟨d, -, h⟩ := exists_of_bind_ok h
      cases h
      exact .pop hstack
  | ret =>
    rw [plan] at h
    split at h
    next hstack =>
      cases h
      exact .bottom hstack
    next v rest hstack =>
      obtain ⟨_, -, h⟩ := exists_of_bind_ok h
      cases h
      exact .ret hstack
  | input =>
    rw [plan] at h
    split at h
    · cases h
    next code rest hqueue =>
      obtain ⟨d, hd, h⟩ := exists_of_bind_ok h
      cases h
      exact .input hqueue hd

end Instruction

namespace Machine

theorem failure_ne_executed {m : Machine} (name : Option String) (c : Cause) (r : TraceRecord) :
    m.failure name c ≠ .executed r := by
  unfold failure
  split <;> exact Outcome.noConfusion

theorem plan_of_executed {m : Machine} {r : TraceRecord} (h : m.step.2 = .executed r) :
    ∃ i e, Instruction.decode m.memory m.pc = .ok i ∧ i.plan m = .ok (some e) ∧
      m.step.1 = m.perform e ∧ r = i.record m.pc e.values := by
  rw [step_eq] at h ⊢
  cases hd : Instruction.decode m.memory m.pc with
  | error c =>
    rw [hd] at h
    exact absurd h (failure_ne_executed _ c r)
  | ok i =>
    rw [hd] at h
    unfold carryOut at h ⊢
    dsimp only at h ⊢
    split at h
    · exact absurd h (failure_ne_executed _ _ r)
    · contradiction
    next e he =>
      cases h
      exact ⟨i, e, rfl, he, rfl, rfl⟩

theorem step_executed {m : Machine} {r : TraceRecord} (h : m.step.2 = .executed r) :
    ∃ i e, Instruction.decode m.memory m.pc = .ok i ∧ i.Plans m e ∧ m.step.1 = m.perform e ∧
      r = i.record m.pc e.values := by
  obtain ⟨i, e, hdecode, hplan, hmachine, hr⟩ := plan_of_executed h
  exact ⟨i, e, hdecode, Instruction.plans_of_plan hplan, hmachine, hr⟩

end Machine

end WordMachine
