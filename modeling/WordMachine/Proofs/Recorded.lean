import WordMachine.Proofs.InputSchedule
import WordMachine.Proofs.Planned
import WordMachine.Proofs.StraightLine

/-!
The records that a session makes. A step that succeeds makes one record, of the instruction that
stands at the program counter, and shows it to the observer; a step that does not makes none. All of
this holds of every machine.
-/
namespace WordMachine

theorem Machine.Attended.withQueue {m n : Machine} (h : m.Attended n) :
    m.Attended (n.withQueue m.console.queue) where
  memory := h.memory
  stack := h.stack
  output := h.output
  queue := rfl
  pc := h.pc
  stop := h.stop
  steps := h.steps
  registers := h.registers

theorem Machine.unmoved_of_not_executed {m : Machine} (h : ∀ r, m.step.2 ≠ .executed r) :
    m.step.1.pc = m.pc ∧ m.step.1.steps = m.steps ∧
      m.step.1.console.output = m.console.output := by
  rw [step_eq] at h ⊢
  cases hd : Instruction.decode m.memory m.pc with
  | error c => exact ⟨rfl, rfl, rfl⟩
  | ok i =>
    rw [hd] at h
    unfold carryOut at h ⊢
    dsimp only at h ⊢
    split at h
    · cases i with
      | input a =>
        rw [afterFailure, take_snd]
        exact ⟨rfl, rfl, rfl⟩
      | _ => exact ⟨rfl, rfl, rfl⟩
    · exact ⟨rfl, rfl, rfl⟩
    · exact absurd rfl (h _)

theorem Machine.awaits_iff_starved {m : Machine} : m.Awaits ↔ m.step.2 = .starved := by
  constructor
  · intro h
    rw [Machine.step_of_awaits h]
  · intro h
    obtain ⟨-, hqueue, a, hdecode⟩ := Machine.starved_cases h
    exact ⟨(Machine.fetches_iff_of_decode hdecode).mpr rfl, hqueue⟩

namespace Session

variable {s t : Session}

/-- The session once the line that its instruction waits for has been handed out, with the reason
if there is none. -/
def ready (s : Session) : Session × Option NoInput :=
  if s.machine.step.2 = .starved then s.supply else (s, none)

theorem step_eq_ready (s : Session) : s.step = match s.ready with
    | (t, some why) => (t, .noInput why)
    | (t, none) => t.settle := by
  by_cases h : s.machine.step.2 = .starved
  · rw [ready, if_pos h]
    exact step_of_starved (Machine.starved_cases h).1
  · rw [ready, if_neg h]
    exact step_of_not_starved h

theorem step_of_ready_some {why : NoInput} (h : s.ready.2 = some why) :
    s.step = (s.ready.1, .noInput why) := by
  rw [step_eq_ready]
  generalize s.ready = ready at h ⊢
  obtain ⟨t, w⟩ := ready
  obtain rfl : w = some why := h
  rfl

theorem step_of_ready_none (h : s.ready.2 = none) : s.step = s.ready.1.settle := by
  rw [step_eq_ready]
  generalize s.ready = ready at h ⊢
  obtain ⟨t, w⟩ := ready
  obtain rfl : w = none := h
  rfl

/-- What becomes of a session while its instruction waits. -/
theorem ready_cases (s : Session) :
    (¬s.machine.Awaits ∧ s.ready = (s, none)) ∨
      (∃ t why, s.machine.Awaits ∧ s.readLine = (t, .error why) ∧ s.ready = (t, some why)) ∨
      ∃ t line, s.machine.Awaits ∧ s.readLine = (t, .ok line) ∧
        s.ready = (t.handed line, none) := by
  unfold ready
  by_cases hwait : s.machine.Awaits
  · rw [if_pos (Machine.awaits_iff_starved.mp hwait)]
    rcases hread : s.readLine with ⟨t, why | line⟩
    · exact .inr (.inl ⟨t, why, hwait, rfl, supply_of_error hread⟩)
    · exact .inr (.inr ⟨t, line, hwait, rfl, supply_of_ok hread⟩)
  · rw [if_neg (fun h => hwait (Machine.awaits_iff_starved.mpr h))]
    exact .inl ⟨hwait, rfl⟩

theorem awaits_of_ready {why : NoInput} (h : s.ready.2 = some why) :
    s.machine.Awaits ∧ s.readLine.2 = .error why := by
  obtain ⟨-, hready⟩ | ⟨t, why', hwait, hread, hready⟩ | ⟨t, line, -, -, hready⟩ := ready_cases s
  · rw [hready] at h
    cases h
  · rw [hready] at h
    cases h
    exact ⟨hwait, congrArg Prod.snd hread⟩
  · rw [hready] at h
    cases h

theorem ready_of_decodes {i : Instruction} (h : s.Decodes i) (hi : i.opcode ≠ .in) :
    s.ready = (s, none) := by
  obtain ⟨-, hready⟩ | ⟨t, why, hwait, -⟩ | ⟨t, line, hwait, -⟩ := ready_cases s
  · exact hready
  all_goals exact absurd ((Machine.fetches_iff_of_decode h).mp hwait.1) hi

/-- Waiting for a line changes nothing about the machine but its registers and its queue. -/
theorem attended_ready (s : Session) :
    s.machine.Attended (s.ready.1.machine.withQueue s.machine.console.queue) ∧
      s.ready.1.told = s.told := by
  have hread := Attended.readLine s
  unfold ready
  split
  · unfold supply
    generalize s.readLine = read at hread ⊢
    obtain ⟨t, why | line⟩ := read
    · exact ⟨hread.machine.withQueue, hread.told⟩
    · obtain ⟨hmachine, htold, -⟩ := handed_eq t line
      refine ⟨?_, htold.trans hread.told⟩
      change s.machine.Attended ((t.handed line).machine.withQueue s.machine.console.queue)
      rw [hmachine]
      exact hread.machine.withQueue
  · exact ⟨.refl _, rfl⟩

theorem fetches_ready {op : Opcode} : s.ready.1.machine.Fetches op ↔ s.machine.Fetches op := by
  rw [← (attended_ready s).1.fetches_iff]
  exact ⟨fun h => ⟨h.inside, h.code, h.whole⟩, fun h => ⟨h.inside, h.code, h.whole⟩⟩

theorem decode_ready (s : Session) :
    Instruction.decode s.ready.1.machine.memory s.ready.1.machine.pc =
      Instruction.decode s.machine.memory s.machine.pc := by
  have hattended := (attended_ready s).1
  rw [← hattended.memory, ← hattended.pc]
  rfl

def made (s : Session) : Option TraceRecord :=
  match s.ready with
  | (_, some _) => none
  | (t, none) =>
    match t.machine.step.2 with
    | .executed r => some r
    | _ => none

theorem made_eq_some_iff {r : TraceRecord} :
    s.made = some r ↔ s.ready.2 = none ∧ s.ready.1.machine.step.2 = .executed r := by
  unfold made
  generalize s.ready = ready
  obtain ⟨t, _ | why⟩ := ready
  · dsimp only
    split
    next hexecuted => simp [hexecuted]
    next hnot => simpa using hnot r
  · simp

/-- A step that makes a record carries out the instruction at the program counter and shows the
record to the observer. -/
theorem step_of_made {r : TraceRecord} (h : s.made = some r) :
    ∃ i e, s.Decodes i ∧ i.Plans s.ready.1.machine e ∧
      r = i.record s.machine.pc e.values ∧
      s.step = { s.ready.1 with machine := s.ready.1.machine.perform e }.witness r := by
  have hstep := step_eq_ready s
  have hattended := (attended_ready s).1
  unfold made at h
  generalize s.ready = ready at h hstep hattended ⊢
  obtain ⟨t, _ | why⟩ := ready
  · dsimp only at h hstep
    split at h
    next r' hexecuted =>
      cases h
      obtain ⟨i, e, hdecode, hplans, hmachine, hr⟩ := Machine.step_executed hexecuted
      have hpair : t.machine.step = (t.machine.perform e, .executed r) :=
        Prod.ext hmachine hexecuted
      have hmemory : t.machine.memory = s.machine.memory := hattended.memory
      have hpc : t.machine.pc = s.machine.pc := hattended.pc
      rw [hmemory, hpc] at hdecode
      refine ⟨i, e, hdecode, hplans, by rw [hr, hpc], ?_⟩
      rw [hstep, settle_eq, hpair]
      rfl
    next => contradiction
  · contradiction

theorem step_of_not_made (h : s.made = none) :
    ¬s.step.2.Succeeds ∧ s.step.1.told = s.told ∧ s.step.1.observer = s.ready.1.observer ∧
      s.step.1.machine.pc = s.machine.pc ∧ s.step.1.machine.steps = s.machine.steps ∧
      s.step.1.machine.console.output = s.machine.console.output := by
  have hstep := step_eq_ready s
  obtain ⟨hattended, htold⟩ := attended_ready s
  unfold made at h
  generalize s.ready = ready at h hstep hattended htold ⊢
  obtain ⟨t, _ | why⟩ := ready
  · dsimp only at h hstep
    split at h
    next => contradiction
    next hnone =>
      obtain ⟨hpc, hsteps, houtput⟩ := Machine.unmoved_of_not_executed hnone
      rw [hstep, settle_eq]
      generalize t.machine.step = stepped at hnone hpc hsteps houtput ⊢
      obtain ⟨m, r | f | _ | _⟩ := stepped
      · exact absurd rfl (hnone r)
      all_goals
        exact ⟨id, htold, rfl, hpc.trans hattended.pc, hsteps.trans hattended.steps,
          houtput.trans hattended.output⟩
  · rw [hstep]
    exact ⟨id, htold, rfl, hattended.pc, hattended.steps, hattended.output⟩

theorem isSome_made_iff (s : Session) : s.made.isSome ↔ s.step.2.Succeeds := by
  cases h : s.made with
  | none => simpa using (step_of_not_made h).1
  | some r =>
    obtain ⟨i, e, -, -, -, hstep⟩ := step_of_made h
    rw [hstep]
    simpa using witness_succeeds _ r

section Observers

theorem tracer_of_run {c : Debugger.Command} {m : Machine} {answer : Debugger.Answer}
    (h : c.run m none = .ok (some answer)) : answer.tracer = none := by
  cases c with
  | trace => contradiction
  | quit => cases h
  | reg | mem =>
    rw [Debugger.Command.run] at h
    split at h
    · cases h
      rfl
    · contradiction
  | help | regs | stack =>
    cases h
    rfl

theorem observer_trace (line : Option TraceLine) : (s.trace line).observer = s.observer := by
  cases line with
  | none => rfl
  | some line =>
    unfold trace
    dsimp only
    split <;> rfl

theorem observer_print (lines : List String) : (s.print lines).observer = s.observer := by
  unfold print
  split <;> rfl

theorem observer_ask : s.ask.observer = s.observer := by
  unfold ask
  dsimp only
  split <;> rfl

theorem observer_refuse (command : String) (r : Debugger.Refusal) :
    (s.refuse command r).1.observer = s.observer := by
  unfold refuse
  split
  · rfl
  · rw [observer_print]
    split <;> rfl

theorem observer_execute (h : s.observer.tracer? = none) (command : String) :
    (s.execute command).1.observer = s.observer := by
  unfold execute
  rw [h]
  split
  next => exact observer_refuse _ _
  next c _ =>
    split
    next => exact observer_refuse _ _
    next => rfl
    next answer hrun =>
      rw [observer_print, observer_trace, tracer_of_run hrun]
      rfl

theorem observer_readPast (lines : List String) (h : s.observer.tracer? = none) :
    (s.readPast lines).1.observer = s.observer := by
  induction lines generalizing s with
  | nil => exact observer_ask
  | cons line rest ih =>
    have hask : ({ s.ask with lines := rest } : Session).observer = s.observer := observer_ask
    rw [readPast]
    dsimp only
    split
    next command _ =>
      have hexecute := observer_execute (hask ▸ h) (String.ofList command)
      rw [hask] at hexecute
      split
      next t ht =>
        rw [ht] at hexecute
        rw [ih (hexecute ▸ h), hexecute]
      next t why ht =>
        rw [ht] at hexecute
        exact hexecute
    next => exact hask

theorem observer_readLine (h : s.observer.tracer? = none) :
    s.readLine.1.observer = s.observer := by
  unfold readLine
  split
  · rfl
  · split <;> exact observer_ask
  · exact observer_readPast s.lines h

theorem observer_ready (h : s.observer.tracer? = none) : s.ready.1.observer = s.observer := by
  have hread := observer_readLine h
  unfold ready
  split
  · unfold supply
    generalize s.readLine = read at hread ⊢
    obtain ⟨t, why | line⟩ := read
    · exact hread
    · exact hread
  · rfl

theorem observer_witness (r : TraceRecord) :
    (s.witness r).1.observer = (s.observer.see r).1 := by
  have hwatch : (s.watch r).observer = (s.observer.see r).1 := observer_trace _
  unfold witness
  dsimp only
  split <;> exact hwatch

end Observers

def gathered {α : Type} (f : Session → Option α) (s : Session) : Nat → List α
  | 0 => []
  | n + 1 => (f s).toList ++ gathered f s.step.1 n

def recorded (s : Session) (n : Nat) : List TraceRecord := s.gathered made n

theorem recorded_succ (s : Session) (n : Nat) :
    s.recorded (n + 1) = s.made.toList ++ s.step.1.recorded n := rfl

theorem observer_after {seen : Array TraceRecord} (h : s.observer = .recorder seen) (n : Nat) :
    (s.after n).observer = .recorder (seen ++ (s.recorded n).toArray) := by
  induction n generalizing s seen with
  | zero => simpa [after, recorded, gathered] using h
  | succ n ih =>
    have hnone : s.observer.tracer? = none := by rw [h]; rfl
    have hready : s.ready.1.observer = .recorder seen := (observer_ready hnone).trans h
    cases hmade : s.made with
    | none =>
      have hstep : s.step.1.observer = .recorder seen :=
        (step_of_not_made hmade).2.2.1.trans hready
      rw [after, ih hstep, recorded_succ, hmade]
      rfl
    | some r =>
      obtain ⟨i, e, -, -, -, hstep⟩ := step_of_made hmade
      have hpush : s.step.1.observer = .recorder (seen.push r) := by
        rw [hstep, observer_witness]
        exact congrArg (fun o => (Observer.see r o).1) hready
      rw [after, ih hpush, recorded_succ, hmade]
      simp

/-- How many steps a run takes, at most so many. -/
def runLength (s : Session) : Nat → Nat
  | 0 => 0
  | n + 1 =>
    match s.machine.stop with
    | some _ => 0
    | none =>
      match s.step with
      | (t, .running) => t.runLength n + 1
      | _ => 1

/-- Letting a machine run is letting it take some number of steps. -/
theorem run_eq_after (s : Session) (n : Nat) : (s.run n).1 = s.after (s.runLength n) := by
  induction n generalizing s with
  | zero =>
    unfold run
    split <;> rfl
  | succ n ih =>
    cases hstop : s.machine.stop with
    | some reason => simp only [run, runLength, hstop, after]
    | none =>
      rw [run_succ s n hstop]
      cases hstep : s.step with
      | mk t event =>
        cases event with
        | running => simp only [runLength, hstop, hstep, after, ih]
        | _ => simp only [runLength, hstop, hstep, after]

theorem after_add (s : Session) (k n : Nat) : s.after (k + n) = (s.after k).after n := by
  induction k generalizing s with
  | zero => rw [Nat.zero_add, after]
  | succ k ih => rw [Nat.succ_add, after, ih, after]

end Session

def Action.Executes : Action → Prop
  | .step | .run _ => True
  | _ => False

theorem Session.performAll_eq_after (s : Session) (history : List Action)
    (h : ∀ action ∈ history, action.Executes) : ∃ n, s.performAll history = s.after n := by
  induction history generalizing s with
  | nil => exact ⟨0, rfl⟩
  | cons action rest ih =>
    have hone : ∃ k, s.perform action = s.after k := by
      cases action with
      | step => exact ⟨1, rfl⟩
      | run fuel => exact ⟨_, run_eq_after s fuel⟩
      | _ => exact (h _ List.mem_cons_self).elim
    obtain ⟨k, hk⟩ := hone
    obtain ⟨n, hn⟩ := ih (s.perform action) fun a ha => h a (List.mem_cons_of_mem _ ha)
    refine ⟨k + n, ?_⟩
    rw [after_add, ← hk]
    exact hn

end WordMachine
