import WordMachine.Proofs.DebuggerTransparency
import WordMachine.Proofs.Recorded
import WordMachine.Proofs.SessionLog

/-!
How a machine stops. It stays at the instruction that has stopped it, and nothing that can be done
with it moves it away from there but a reset. So a machine that has stopped would stop again, for
the same reason, if it took another step, although nothing keeps it from taking one.
-/
namespace WordMachine

def StopReason.instruction : StopReason → Instruction
  | .halt => .halt
  | .ret => .ret

namespace Machine

structure AtStop (m : Machine) (reason : StopReason) : Prop where
  decodes : Instruction.decode m.memory m.pc = .ok reason.instruction
  bottom : reason = .ret → m.stack = []

/-- If the machine has stopped, it is where it would stop again. -/
def Settled (m : Machine) : Prop := ∀ reason, m.stop = some reason → m.AtStop reason

variable {m n : Machine} {reason : StopReason} {i : Instruction} {e : Effect}

theorem AtStop.step (h : m.AtStop reason) :
    m.step = ({ m with stop := some reason, steps := m.steps + 1 },
      .executed (reason.instruction.record m.pc [])) := by
  rw [step_eq_carryOut h.decodes, carryOut]
  cases reason with
  | halt => rfl
  | ret =>
    have hplan : Instruction.ret.plan m =
        .ok (some { Effect.goto m m.pc [] with stop := some .ret }) := by
      rw [Instruction.plan, h.bottom rfl]
      rfl
    rw [StopReason.instruction, hplan]
    rfl

theorem AtStop.read (h : m.AtStop reason) :
    m.memory.read m.pc = .ok reason.instruction.opcode.code := by
  have hinside := inside_of_decode h.decodes
  obtain ⟨op, hcode, -, hstands⟩ := (Instruction.decode_ok_iff hinside).mp h.decodes
  rw [m.memory.read_cell hinside, hcode, hstands, Instruction.opcode_standing]

theorem AtStop.congr (h : m.AtStop reason) (hmemory : n.memory = m.memory) (hpc : n.pc = m.pc)
    (hstack : n.stack = m.stack) : n.AtStop reason :=
  ⟨by rw [hmemory, hpc, h.decodes], fun hreason => hstack.trans (h.bottom hreason)⟩

theorem Settled.congr (h : m.Settled) (hmemory : n.memory = m.memory) (hpc : n.pc = m.pc)
    (hstack : n.stack = m.stack) (hstop : n.stop = m.stop) : n.Settled :=
  fun reason hreason => (h reason (hstop ▸ hreason)).congr hmemory hpc hstack

theorem settled_of_running (h : m.stop = none) : m.Settled := by
  intro reason hreason
  rw [h] at hreason
  contradiction

theorem Settled.of_muted (h : m.Settled) (hmuted : n.muted = m.muted) : n.Settled :=
  h.congr (congrArg (·.memory) hmuted) (congrArg (·.pc) hmuted) (congrArg (·.stack) hmuted)
    (congrArg (·.stop) hmuted)

end Machine

open Machine

/-- An instruction either stops the machine and moves nothing, or leaves open whether it has
stopped. -/
theorem Instruction.Plans.stop_cases {m : Machine} {i : Instruction} {e : Effect}
    (h : i.Plans m e) :
    e.stop = m.stop ∨ ∃ reason : StopReason, i = reason.instruction ∧
      (reason = .ret → m.stack = []) := by
  cases h with
  | halt => exact .inr ⟨.halt, rfl, nofun⟩
  | bottom hstack => exact .inr ⟨.ret, rfl, fun _ => hstack⟩
  | _ => exact .inl rfl

namespace Machine

variable {m n : Machine} {reason : StopReason}

theorem stop_step_cases (m : Machine) : (∃ reason, m.AtStop reason) ∨ m.step.1.stop = m.stop := by
  rw [step_eq]
  cases hdecode : Instruction.decode m.memory m.pc with
  | error c => exact .inr rfl
  | ok i =>
    dsimp only
    unfold carryOut
    split
    · cases i <;> exact .inr rfl
    · exact .inr rfl
    next e he =>
      obtain hkept | ⟨reason, rfl, hbottom⟩ := (Instruction.plans_of_plan he).stop_cases
      · exact .inr hkept
      · exact .inl ⟨reason, hdecode, hbottom⟩

theorem Settled.step (h : m.Settled) : m.step.1.Settled := by
  obtain ⟨reason, hat⟩ | hstop := stop_step_cases m
  · rw [hat.step]
    intro reason' hreason
    obtain rfl := Option.some.inj hreason
    exact hat.congr rfl rfl rfl
  · intro reason hreason
    have hat := h reason (hstop ▸ hreason)
    rw [hat.step]
    exact hat.congr rfl rfl rfl

end Machine

def Action.SparesMemory : Action → Prop
  | .store .. | .load .. => False
  | _ => True

instance : DecidablePred Action.SparesMemory := fun action => by
  cases action <;> unfold Action.SparesMemory <;> infer_instance

namespace Session

variable {s : Session} {reason : StopReason}

theorem settled_of_attended {m n : Machine} (hsettled : m.Settled) (h : m.Attended n) :
    n.Settled :=
  hsettled.congr h.memory h.pc h.stack h.stop

theorem settled_ready (h : s.machine.Settled) : s.ready.1.machine.Settled :=
  (settled_of_attended h (attended_ready s).1).congr rfl rfl rfl rfl

theorem settled_step (h : s.machine.Settled) : s.step.1.machine.Settled := by
  have hready := settled_ready h
  cases hwait : s.ready.2 with
  | some why =>
    rw [step_of_ready_some hwait]
    exact hready
  | none =>
    rw [step_of_ready_none hwait]
    exact hready.step.of_muted (settle_muted _).1

theorem settled_after (h : s.machine.Settled) (n : Nat) : (s.after n).machine.Settled :=
  after_keeps (P := (·.machine.Settled)) settled_step h n

theorem settled_perform (h : s.machine.Settled) {action : Action} (hspares : action.SparesMemory) :
    (s.perform action).machine.Settled := by
  cases action with
  | step => exact settled_step h
  | run fuel =>
    rw [perform, run_eq_after]
    exact settled_after h _
  | feed line => exact h.congr rfl rfl rfl rfl
  | setRegister index v =>
    cases hset : s.machine.setRegister index v with
    | error c =>
      rw [perform, hset]
      exact h
    | ok m =>
      rw [perform, hset]
      exact settled_of_attended h (attended_of_setRegister hset)
  | store | load => exact hspares.elim
  | reset => exact settled_of_running rfl
  | command text => exact settled_of_attended h (Attended.execute s text).machine

/-- Whatever has been done with a machine, it has stopped only where it would stop again. -/
theorem settled_performAll (h : s.machine.Settled) {history : List Action}
    (hspares : ∀ action ∈ history, action.SparesMemory) :
    (s.performAll history).machine.Settled := by
  induction history generalizing s with
  | nil => exact h
  | cons action rest ih =>
    exact ih (settled_perform h (hspares _ List.mem_cons_self))
      fun a ha => hspares a (List.mem_cons_of_mem _ ha)

/-- The machine has only counted so many steps more. More may have been logged and traced, also to
a sink that the trace goes to. -/
def Lingers (s t : Session) (k : Nat) : Prop :=
  ∃ m observer journal, t = { s with machine := m, observer, journal } ∧
    m.muted = { s.machine with steps := s.machine.steps + k }.muted ∧
      (s.traceTime = none → m = { s.machine with steps := s.machine.steps + k })

theorem Lingers.refl (s : Session) : s.Lingers s 0 :=
  ⟨s.machine, s.observer, s.journal, rfl, rfl, fun _ => rfl⟩

theorem Lingers.trans {t u : Session} {k l : Nat} (h : s.Lingers t k) (h' : t.Lingers u l) :
    s.Lingers u (k + l) := by
  obtain ⟨m, observer, journal, rfl, hmuted, hsame⟩ := h
  obtain ⟨m', observer', journal', rfl, hmuted', hsame'⟩ := h'
  refine ⟨m', observer', journal', rfl, ?_, fun htime => ?_⟩
  · rw [hmuted']
    have hsteps := congrArg (fun n : Machine => { n with steps := n.steps + l }) hmuted
    simpa [Machine.muted, Nat.add_assoc] using hsteps
  · rw [hsame' htime, hsame htime, Nat.add_assoc]

theorem Lingers.stop_eq {t : Session} {k : Nat} (h : s.Lingers t k) :
    t.machine.stop = s.machine.stop := by
  obtain ⟨m, observer, journal, rfl, hmuted, -⟩ := h
  have hstop := congrArg Machine.stop hmuted
  exact hstop

theorem Lingers.step (hat : s.machine.AtStop reason) (hstop : s.machine.stop = some reason) :
    s.Lingers s.step.1 1 ∧ s.step.2 = .stopped reason := by
  have hstep := hat.step
  rw [← hstop] at hstep
  rw [step_of_not_starved (by rw [hstep]; exact Outcome.noConfusion), settle_eq, hstep, conclude]
  obtain ⟨m, observer, journal, heq, hmuted, hsame⟩ := witness_fields
    { s with machine := { s.machine with steps := s.machine.steps + 1 } }
    (reason.instruction.record s.machine.pc [])
  obtain ⟨-, -, hevent⟩ := witness_eq
    { s with machine := { s.machine with steps := s.machine.steps + 1 } }
    (reason.instruction.record s.machine.pc [])
  rw [heq] at hevent
  rw [heq]
  refine ⟨⟨m, observer, journal, rfl, hmuted, hsame⟩, hevent.trans ?_⟩
  rw [stop_of_muted hmuted, hstop]
  rfl

/-- However many steps a machine that has stopped takes, it only counts them. -/
theorem Lingers.after (hsettled : s.machine.Settled) (hstop : s.machine.stop = some reason)
    (k : Nat) : s.Lingers (s.after k) k ∧ (s.after k).step.2 = .stopped reason := by
  have hnext {k : Nat} (h : s.Lingers (s.after k) k) :
      (s.after k).Lingers (s.after k).step.1 1 ∧ (s.after k).step.2 = .stopped reason := by
    have hstop' := h.stop_eq.trans hstop
    exact Lingers.step (settled_after hsettled k reason hstop') hstop'
  have hlingers : s.Lingers (s.after k) k := by
    induction k with
    | zero => exact .refl s
    | succ k ih =>
      rw [after_succ]
      exact ih.trans (hnext ih).1
  exact ⟨hlingers, (hnext hlingers).2⟩

section Runs

variable {t : Session} {event : Event}

theorem event_of_succeeds (hok : s.step.2.Succeeds) :
    s.step.2 = .ofStop s.step.1.machine.stop := by
  obtain ⟨r, hr⟩ := Option.isSome_iff_exists.mp ((isSome_made_iff s).mpr hok)
  obtain ⟨i, e, -, -, -, hstep⟩ := step_of_made hr
  rw [hstep]
  exact (witness_eq _ r).2.2

theorem stop_of_running (h : s.step.2 = .running) : s.step.1.machine.stop = none := by
  have hevent := event_of_succeeds (s := s) (by rw [h]; trivial)
  rw [h] at hevent
  generalize s.step.1.machine.stop = stop at hevent ⊢
  cases stop with
  | none => rfl
  | some reason => contradiction

/-- A run is so many steps that go on and one that does not. -/
theorem run_ends_iff (hstop : s.machine.stop = none) :
    (∃ fuel, s.run fuel = (t, some event)) ↔
      ∃ n, (∀ k < n, (s.after k).step.2 = .running) ∧ (s.after n).step = (t, event) ∧
        event ≠ .running := by
  constructor
  · rintro ⟨fuel, hrun⟩
    induction fuel generalizing s with
    | zero =>
      simp only [run, hstop] at hrun
      cases hrun
    | succ fuel ih =>
      rw [run_succ s fuel hstop] at hrun
      split at hrun
      next u hu =>
        have hgoes : s.step.2 = .running := by rw [hu]
        have hnone := stop_of_running hgoes
        rw [hu] at hnone
        obtain ⟨n, hgo, hends⟩ := ih hnone hrun
        refine ⟨n + 1, fun k hk => ?_, ?_⟩
        · cases k with
          | zero => exact hgoes
          | succ k =>
            rw [after, hu]
            exact hgo k (by omega)
        · rw [after, hu]
          exact hends
      next u e hne hu =>
        obtain ⟨rfl, rfl⟩ : u = t ∧ e = event := by simpa using hrun
        exact ⟨0, fun k hk => absurd hk (Nat.not_lt_zero k), hu, hne⟩
  · rintro ⟨n, hgo, hends, hne⟩
    refine ⟨n + 1, ?_⟩
    induction n generalizing s with
    | zero =>
      rw [run_succ s 0 hstop]
      rw [after] at hends
      rw [hends]
      cases event <;> first | rfl | contradiction
    | succ n ih =>
      have hgoes := hgo 0 (by omega)
      have hpair : s.step = (s.step.1, .running) := Prod.ext rfl hgoes
      rw [run_succ s (n + 1) hstop, hpair]
      exact ih (stop_of_running hgoes) (fun k hk => hgo (k + 1) (by omega)) hends

end Runs

/-- The session with a new machine over the memory of this one, and with nothing kept account
of. -/
def renewed (s : Session) : Session :=
  { s with
    machine :=
      { memory := s.machine.memory
        console := { sink := s.machine.console.sink } }
    asked := 0
    printed := ""
    journal := #[] }

theorem perform_reset (s : Session) : s.perform .reset = s.renewed.continuing s := by
  simp [perform, renewed, continuing, Machine.reset, CharConsole.reset]

/-- What it is to stop, to run and to be reset. A machine that has only been used through its
session has stopped at a halt, or at a return with nothing on the stack. There a run is at its end,
and a step stops again and is only counted. A run from elsewhere stops exactly if so many steps go
on and the next one stops. A reset gives a new machine over the same memory, and whatever is done
then is as with such a machine. -/
theorem stops_runs_and_resets (s : Session) (memory : Memory) (sink : Option Sink)
    (history : List Action) (hspares : ∀ action ∈ history, action.SparesMemory) :
    let t := { s with machine := { memory, console := { sink } } }.performAll history
    (∀ reason, t.machine.stop = some reason →
      (t.machine.memory.read t.machine.pc = .ok 0 ∧ reason = .halt ∨
        t.machine.memory.read t.machine.pc = .ok 18 ∧ t.machine.stack = [] ∧ reason = .ret) ∧
      (∀ fuel, t.run fuel = (t, some (.stopped reason))) ∧
      ∀ k, t.Lingers (t.after k) k ∧ (t.after k).step.2 = .stopped reason) ∧
    (t.machine.stop = none → ∀ reason u,
      (∃ fuel, t.run fuel = (u, some (.stopped reason))) ↔
        ∃ n, (∀ k < n, (t.after k).step.2 = .running) ∧
          (t.after n).step = (u, .stopped reason)) ∧
    t.perform .reset = t.renewed.continuing t ∧
    ∀ more,
      (t.perform .reset).performAll more = (t.renewed.performAll more).continuing t ∧
      ((t.perform .reset).performAll more).step.2 = (t.renewed.performAll more).step.2 ∧
      ∀ fuel, (((t.perform .reset).performAll more).run fuel).2 =
        ((t.renewed.performAll more).run fuel).2 := by
  intro t
  have hsettled : t.machine.Settled := settled_performAll (settled_of_running rfl) hspares
  refine ⟨fun reason hstop => ⟨?_, run_of_stopped hstop, Lingers.after hsettled hstop⟩,
    fun hstop reason u => ?_, perform_reset t, fun more => ?_⟩
  · have hat := hsettled reason hstop
    cases reason with
    | halt => exact .inl ⟨hat.read, rfl⟩
    | ret => exact .inr ⟨hat.read, hat.bottom rfl, rfl⟩
  · rw [run_ends_iff hstop]
    simp
  · rw [perform_reset, performAll_continuing, step_continuing]
    exact ⟨rfl, rfl, fun fuel => by rw [run_continuing]⟩

def returning : Session where
  machine := { memory := (Memory.empty.setCell 0 21).setCell 1 18 }

def returningHistory : List Action := [.step, .setRegister 0 5, .feed "a", .run 3]

theorem returning_stops :
    (∀ action ∈ returningHistory, action.SparesMemory) ∧
    ((returning.performAll returningHistory).machine.stop = some .ret ∧
      (returning.performAll returningHistory).machine.memory.read 1 = .ok 18 ∧
      ((returning.performAll returningHistory).after 2).step.2 = .stopped .ret) ∧
    (∃ fuel, returning.run fuel = (returning.after 2, some (.stopped .ret))) ∧
    (returning.performAll returningHistory).perform .reset =
      (returning.performAll returningHistory).renewed.continuing
        (returning.performAll returningHistory) := by
  have hspares : ∀ action ∈ returningHistory, action.SparesMemory := by decide
  obtain ⟨hstops, -, hreset, -⟩ := stops_runs_and_resets returning
    ((Memory.empty.setCell 0 21).setCell 1 18) none returningHistory hspares
  obtain ⟨-, hruns, -, -⟩ := stops_runs_and_resets returning
    ((Memory.empty.setCell 0 21).setCell 1 18) none [] (by decide)
  have hstop : (returning.performAll returningHistory).machine.stop = some .ret := by
    decide +kernel
  have hpc : (returning.performAll returningHistory).machine.pc = 1 := by decide +kernel
  obtain ⟨hat, -, hlingers⟩ := hstops .ret hstop
  refine ⟨hspares, ⟨hstop, ?_, (hlingers 2).2⟩, (hruns rfl .ret _).mpr ⟨1, ?_, ?_⟩, hreset⟩
  · obtain ⟨-, hreason⟩ | ⟨hread, -⟩ := hat
    · contradiction
    · exact hpc ▸ hread
  · intro k hk
    obtain rfl : k = 0 := by omega
    decide +kernel
  · exact Prod.ext rfl (by decide +kernel)

end Session

end WordMachine
