import WordMachine.Memory.Image
import WordMachine.Proofs.SessionStep

/-!
What can be done with a session from outside, and what holds of its machine whatever has been done.
-/
namespace WordMachine

namespace Memory

def bytes (m : Memory) : List UInt8 := m.cells.toList.flatMap Word.bytes

theorem length_bytes (m : Memory) : m.bytes.length = 65536 := by
  have hword (w : Word) : w.bytes.length = 2 := rfl
  have hlist (ws : List Word) : (ws.flatMap Word.bytes).length = 2 * ws.length := by
    induction ws with
    | nil => rfl
    | cons w rest ih =>
      rw [List.flatMap_cons, List.length_append, ih, hword, List.length_cons]
      omega
  rw [bytes, hlist, Vector.length_toList]

end Memory

namespace Machine

variable {m n : Machine}

theorem WellFormed.of_muted (h : m.muted = n.muted) (hw : n.WellFormed) : m.WellFormed := by
  have hregisters : m.registers = n.registers := congrArg (·.registers) h
  have hstack : m.stack = n.stack := congrArg (·.stack) h
  have hpc : m.pc = n.pc := congrArg (·.pc) h
  exact ⟨hregisters ▸ hw.registers, hstack ▸ hw.stack, hpc ▸ hw.pc⟩

theorem WellFormed.of_store (hw : m.WellFormed) {x v : Int} (h : m.store x v = .ok n) :
    n.WellFormed := by
  obtain ⟨-, hv, rfl⟩ := store_ok_iff.mp h
  exact hw.of_keep hv

theorem WellFormed.of_setRegister (hw : m.WellFormed) {index v : Int}
    (h : m.setRegister index v = .ok n) : n.WellFormed :=
  (attended_of_setRegister h).wellFormed hw

theorem wellFormed_fresh (memory : Memory) (console : CharConsole) :
    ({ memory, console } : Machine).WellFormed := by
  refine ⟨fun i => ?_, nofun, Int.le_refl 0, show (0 : Int) ≤ 32768 by decide⟩
  rw [Registers.get_zero]
  decide

end Machine

inductive Action where
  | step
  | run (fuel : Nat)
  | feed (line : String)
  | setRegister (index v : Int)
  | store (x v : Int)
  | load (image : List UInt8) (base : Int)
  | reset
  | command (text : String)
  deriving Repr

namespace Session

/-- Takes over the machine that an operation gives; one that fails gives none. -/
def attempt (s : Session) : Except Cause Machine → Session
  | .ok m => { s with machine := m }
  | .error _ => s

def perform (s : Session) : Action → Session
  | .step => s.step.1
  | .run fuel => (s.run fuel).1
  | .feed line => s.feed line
  | .setRegister index v => s.attempt (s.machine.setRegister index v)
  | .store x v => s.attempt (s.machine.store x v)
  | .load image base => s.attempt do
    let memory ← s.machine.memory.load image base
    return { s.machine with memory }
  | .reset => { s with machine := s.machine.reset }
  | .command text => (s.execute text).1

def performAll (s : Session) (history : List Action) : Session := history.foldl perform s

variable {s : Session}

theorem wellFormed_witness (hw : s.machine.WellFormed) (r : TraceRecord) :
    (s.witness r).1.machine.WellFormed :=
  .of_muted (witness_eq s r).1 hw

theorem wellFormed_settle (hw : s.machine.WellFormed) : s.settle.1.machine.WellFormed := by
  have hadvance : s.advance.1.machine.WellFormed := by
    rw [advance_eq]
    exact hw.of_step
  unfold settle
  generalize s.advance = advanced at *
  obtain ⟨t, r | f | _ | _⟩ := advanced
  · exact wellFormed_witness hadvance r
  · exact hadvance
  · exact hadvance
  · exact hadvance

theorem wellFormed_step (hw : s.machine.WellFormed) : s.step.1.machine.WellFormed := by
  obtain ⟨t, why, -, hread, hstep⟩ | ⟨t, ht, -, -, hstep⟩ := step_cases hw
  · have hattended := (Attended.readLine s).machine.wellFormed hw
    rw [hread] at hattended
    rw [hstep]
    exact hattended
  · rw [hstep]
    exact wellFormed_settle (ht.wellFormed hw)

theorem wellFormed_run (fuel : Nat) (hw : s.machine.WellFormed) :
    (s.run fuel).1.machine.WellFormed := by
  induction fuel generalizing s with
  | zero =>
    unfold run
    split <;> exact hw
  | succ n ih =>
    cases hstop : s.machine.stop with
    | some reason =>
      rw [run, hstop]
      exact hw
    | none =>
      have hstep := wellFormed_step hw
      rw [run_succ s n hstop]
      split
      next t ht =>
        rw [ht] at hstep
        exact ih hstep
      next t event _ ht =>
        rw [ht] at hstep
        exact hstep

theorem wellFormed_attempt (hw : s.machine.WellFormed) {result : Except Cause Machine}
    (h : ∀ m, result = .ok m → m.WellFormed) : (s.attempt result).machine.WellFormed := by
  cases result with
  | ok m => exact h m rfl
  | error c => exact hw

theorem wellFormed_perform (hw : s.machine.WellFormed) (action : Action) :
    (s.perform action).machine.WellFormed := by
  cases action with
  | step => exact wellFormed_step hw
  | run fuel => exact wellFormed_run fuel hw
  | feed line => exact ⟨hw.registers, hw.stack, hw.pc⟩
  | setRegister index v => exact wellFormed_attempt hw fun m hm => hw.of_setRegister hm
  | store x v => exact wellFormed_attempt hw fun m hm => hw.of_store hm
  | load image base =>
    refine wellFormed_attempt hw fun m hm => ?_
    cases hload : s.machine.memory.load image base with
    | error c =>
      rw [hload] at hm
      cases hm
    | ok memory =>
      rw [hload] at hm
      cases hm
      exact ⟨hw.registers, hw.stack, hw.pc⟩
  | reset => exact Machine.wellFormed_fresh _ _
  | command text => exact (Attended.execute s text).machine.wellFormed hw

theorem wellFormed_performAll (hw : s.machine.WellFormed) (history : List Action) :
    (s.performAll history).machine.WellFormed := by
  induction history generalizing s with
  | nil => exact hw
  | cons action rest ih => exact ih (wellFormed_perform hw action)

/-- Whatever has been done with a machine, its numbers are in range, and nothing of it has become
longer or shorter than it should be. -/
theorem history_keeps_bounds (s : Session) (memory : Memory) (sink : Option Sink)
    (history : List Action) :
    let m := ({ s with machine := { memory, console := { sink } } }.performAll history).machine
    (m.memory.cells.toList.length = 32768 ∧ m.memory.bytes.length = 65536 ∧
      ∀ w ∈ m.memory.cells.toList, w.toNat ≤ 65535) ∧
    (m.registers.values.toList.length = 8 ∧ ∀ v ∈ m.registers.values.toList, IsWord v) ∧
    (∀ v ∈ m.stack, IsWord v) ∧
    (∀ code ∈ m.console.queue, code.toNat ≤ 255) ∧
    (∀ byte ∈ m.console.output, byte.toNat ≤ 255) ∧
    (0 ≤ m.pc ∧ m.pc ≤ 32768) ∧
    (m.halted = true ↔ m.stop ≠ none) := by
  intro m
  have hw : m.WellFormed := wellFormed_performAll (Machine.wellFormed_fresh _ _) history
  refine ⟨⟨by simp, m.memory.length_bytes, fun w _ => ?_⟩, ⟨by simp, fun v hv => ?_⟩, hw.stack,
    fun code _ => ?_, fun byte _ => ?_, hw.pc, ?_⟩
  · have := w.toNat_lt
    omega
  · obtain ⟨i, hi, rfl⟩ := List.getElem_of_mem hv
    exact hw.registers ⟨i, by simpa using hi⟩
  · have := code.toNat_lt
    omega
  · have := byte.toNat_lt
    omega
  · rw [Machine.halted, Option.isSome_iff_ne_none]

end Session

end WordMachine
