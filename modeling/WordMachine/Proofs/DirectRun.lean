import WordMachine.Proofs.Halting
import WordMachine.Proofs.TraceAccount

/-!
Programs that read their lines directly, without a debugger. Whoever watches such a program makes no
difference to it, its sink shows what it has written, nothing of what is logged is an error, and a
run that ends has stopped, has failed at a known place or has come to the end of the lines.
-/
namespace WordMachine

namespace CharConsole

variable {c : CharConsole}

/-- The sink shows what has been written, and nothing else. -/
def Shows (c : CharConsole) : Prop := c.sink.map (·.text) = some c.text

theorem Shows.emit (h : c.Shows) (code : Int) : (c.emit code).Shows := by
  obtain ⟨output, queue, _ | sink⟩ := c
  · contradiction
  · have htext : sink.text = Text.latin1 output.toList := Option.some.inj h
    simp [Shows, CharConsole.emit, Sink.put, text, htext, Text.latin1]

end CharConsole

namespace Machine

variable {m : Machine}

theorem shows_step (h : m.console.Shows) : m.step.1.console.Shows := by
  rw [step_eq]
  cases Instruction.decode m.memory m.pc with
  | error c => exact h
  | ok i =>
    dsimp only
    unfold carryOut
    split
    · cases i with
      | input a =>
        rw [afterFailure, take_snd]
        exact h
      | _ => exact h
    · exact h
    next e _ =>
      have hqueue : ({ m.console with queue := e.queue } : CharConsole).Shows := h
      rw [perform_console]
      cases e.written with
      | none => exact hqueue
      | some v => exact hqueue.emit v

theorem memory_afterFailure (m : Machine) (i : Instruction) :
    (m.afterFailure i).memory = m.memory ∧ (m.afterFailure i).pc = m.pc := by
  cases i <;> exact ⟨rfl, rfl⟩

theorem opcode?_congr {n : Machine} (hmemory : n.memory = m.memory) (hpc : n.pc = m.pc) :
    n.opcode? = m.opcode? := by
  rw [opcode?, opcode?, fetchOpcode, fetchOpcode, hmemory, hpc]

theorem opcode?_of_decode {i : Instruction} (h : Instruction.decode m.memory m.pc = .ok i) :
    m.opcode? = some i.opcode := by
  have hinside := inside_of_decode h
  obtain ⟨op, hcode, -, rfl⟩ := (Instruction.decode_ok_iff hinside).mp h
  rw [opcode?, fetchOpcode, m.memory.read_cell hinside, hcode, Instruction.opcode_standing]
  dsimp only [bind, Except.bind]
  rw [Opcode.ofWord, Opcode.ofWord?_code]
  rfl

theorem failure_eq_failed {name : Option String} {c : Cause} {f : Fault}
    (h : m.failure name c = .failed f) : f.pc = some m.pc ∧ f.opcode = name := by
  unfold failure at h
  split at h
  next g hg =>
    obtain ⟨-, rfl⟩ := Cause.report?_eq_some_iff.mp hg
    cases h
    exact ⟨rfl, rfl⟩
  next => contradiction

theorem place_of_failed {f : Fault} (h : m.step.2 = .failed f) :
    f.pc = some m.step.1.pc ∧ f.opcode = m.step.1.opcode?.map Opcode.mnemonic := by
  rw [step_eq] at h ⊢
  cases hdecode : Instruction.decode m.memory m.pc with
  | error c =>
    rw [hdecode] at h
    exact failure_eq_failed h
  | ok i =>
    rw [hdecode] at h
    dsimp only at h ⊢
    unfold carryOut at h ⊢
    split at h
    · obtain ⟨hpc, hopcode⟩ := failure_eq_failed h
      obtain ⟨hmemory, hkept⟩ := memory_afterFailure m i
      dsimp only
      rw [hkept, opcode?_congr hmemory hkept, opcode?_of_decode hdecode]
      exact ⟨hpc, hopcode⟩
    · contradiction
    · contradiction

end Machine

namespace Session

variable {s u t : Session}

section Ready

variable {line : String} {rest : List String}

theorem ask_of_direct (h : s.front = .direct) : s.ask = { s with asked := s.asked + 1 } := by
  unfold ask
  dsimp only
  rw [h]

theorem ready_of_not_starved (h : s.machine.step.2 ≠ .starved) : s.ready = (s, none) := by
  rw [ready, if_neg h]

theorem ready_of_nil (h : s.front = .direct) (hstarved : s.machine.step.2 = .starved)
    (hlines : s.lines = []) : s.ready = ({ s with asked := s.asked + 1 }, some s.ending) := by
  rw [ready, if_pos hstarved, supply_of_error (readLine_of_nil h hlines), ask_of_direct h]

theorem ready_of_cons (h : s.front = .direct) (hstarved : s.machine.step.2 = .starved)
    (hlines : s.lines = line :: rest) :
    s.ready =
      (({ s with asked := s.asked + 1, lines := rest } : Session).handed line, none) := by
  rw [ready, if_pos hstarved, supply_of_ok (readLine_of_cons h hlines), ask_of_direct h]

end Ready

/-- The rest of a step changes nothing but the machine, the observer and the journal. -/
theorem settle_fields (s : Session) :
    ∃ m observer journal, s.settle.1 = { s with machine := m, observer, journal } ∧
      m.muted = s.machine.step.1.muted ∧ (s.traceTime = none → m = s.machine.step.1) := by
  rw [settle_eq]
  rcases s.machine.step with ⟨m, r | f | _ | _⟩
  · exact witness_fields { s with machine := m } r
  all_goals exact ⟨m, s.observer, s.journal, rfl, rfl, fun _ => rfl⟩

/-- Sessions without a debugger that differ at most in who watches them and what has been kept
account of. -/
structure Alike (s u : Session) : Prop where
  direct : s.front = .direct
  direct' : u.front = .direct
  machine : s.machine.muted = u.machine.muted
  lines : s.lines = u.lines
  ending : s.ending = u.ending

namespace Alike

theorem ready (h : s.Alike u) : s.ready.1.Alike u.ready.1 ∧ s.ready.2 = u.ready.2 := by
  have houtcome := (Machine.step_congr h.machine).2
  by_cases hstarved : s.machine.step.2 = .starved
  · have hstarved' := houtcome.symm.trans hstarved
    cases hlines : s.lines with
    | nil =>
      rw [ready_of_nil h.direct hstarved hlines,
        ready_of_nil h.direct' hstarved' (h.lines.symm.trans hlines)]
      exact ⟨⟨h.direct, h.direct', h.machine, h.lines, h.ending⟩, congrArg some h.ending⟩
    | cons line rest =>
      rw [ready_of_cons h.direct hstarved hlines,
        ready_of_cons h.direct' hstarved' (h.lines.symm.trans hlines)]
      refine ⟨⟨h.direct, h.direct', ?_, rfl, h.ending⟩, rfl⟩
      rw [(handed_eq _ line).1, (handed_eq _ line).1]
      exact Machine.muted_feed h.machine line
  · rw [ready_of_not_starved hstarved, ready_of_not_starved (houtcome ▸ hstarved)]
    exact ⟨h, rfl⟩

theorem settle (h : s.Alike u) : s.settle.1.Alike u.settle.1 ∧ s.settle.2 = u.settle.2 := by
  obtain ⟨hmachine, houtcome⟩ := Machine.step_congr h.machine
  obtain ⟨hs, hevent⟩ := settle_muted s
  obtain ⟨hu, hevent'⟩ := settle_muted u
  have hsource := sameSource_settle s
  have hsource' := sameSource_settle u
  refine ⟨⟨hsource.front.trans h.direct, hsource'.front.trans h.direct', ?_, ?_, ?_⟩, ?_⟩
  · rw [hs, hu, hmachine]
  · rw [hsource.lines, hsource'.lines, h.lines]
  · rw [hsource.ending, hsource'.ending, h.ending]
  · rw [hevent, hevent', houtcome, Machine.stop_of_muted hmachine]

theorem step (h : s.Alike u) : s.step.1.Alike u.step.1 ∧ s.step.2 = u.step.2 := by
  obtain ⟨hready, hwhy⟩ := h.ready
  cases hnone : s.ready.2 with
  | some why =>
    rw [step_of_ready_some hnone, step_of_ready_some (hwhy.symm.trans hnone)]
    exact ⟨hready, rfl⟩
  | none =>
    rw [step_of_ready_none hnone, step_of_ready_none (hwhy.symm.trans hnone)]
    exact hready.settle

theorem run (h : s.Alike u) (fuel : Nat) :
    (s.run fuel).1.Alike (u.run fuel).1 ∧ (s.run fuel).2 = (u.run fuel).2 :=
  run_related id (fun h => Machine.stop_of_muted h.machine)
    (fun h => ⟨h.step.2, h.step.1, fun _ => h.step.1⟩) h fuel

end Alike

def Calm (s : Session) : Prop := ∀ r, .logged r ∈ s.journal → r.level < Log.Level.error

namespace Calm

theorem note (h : s.Calm) {r : Log.Record} (hlevel : r.level < Log.Level.error) :
    (s.note r).Calm := by
  intro r' hr
  obtain hr | hr := Array.mem_push.mp hr
  · exact h r' hr
  · cases hr
    exact hlevel

theorem feedAll (h : s.Calm) (lines : List String) : (s.feedAll lines).Calm := by
  intro r hr
  rw [← Array.mem_toList_iff] at hr
  have hmem : .logged r ∈ s.journal ∨ ∃ line ∈ lines, queuedRecord line = r := by
    simpa [Session.feedAll] using hr
  obtain hr | ⟨line, -, rfl⟩ := hmem
  · exact h r hr
  · have hdebug : Log.Level.debug < Log.Level.error := by decide
    exact hdebug

theorem feed (h : s.Calm) (line : String) : (s.feed line).Calm := h.feedAll [line]

theorem trace (h : s.Calm) (line : Option TraceLine) : (s.trace line).Calm := by
  cases line with
  | none => exact h
  | some line =>
    have hpush : ∀ r, .logged r ∈ s.journal.push (.traced line) → r.level < Log.Level.error := by
      intro r hr
      obtain hr | hr := Array.mem_push.mp hr
      · exact h r hr
      · contradiction
    unfold Session.trace
    dsimp only
    split <;> exact hpush

theorem settle (h : s.Calm) : s.settle.1.Calm := by
  rw [settle_eq]
  rcases s.machine.step with ⟨m, r | f | _ | _⟩
  · have hwatch : ({ s with machine := m }.watch r).Calm :=
      trace (s := { s with machine := m, observer := (s.observer.see r).1 }) h _
    unfold conclude witness
    dsimp only
    split
    · exact hwatch
    · exact hwatch.note Log.Level.info_lt_error
  all_goals exact h

end Calm

/-- A session whose program reads its lines directly and whose sink shows what the program has
written. -/
structure Open (s : Session) : Prop where
  direct : s.front = .direct
  apart : s.traceTime = none
  shows : s.machine.console.Shows
  calm : s.Calm

namespace Open

theorem ready (h : s.Open) : s.ready.1.Open := by
  by_cases hstarved : s.machine.step.2 = .starved
  · cases hlines : s.lines with
    | nil =>
      rw [ready_of_nil h.direct hstarved hlines]
      exact ⟨h.direct, h.apart, h.shows, h.calm⟩
    | cons line rest =>
      rw [ready_of_cons h.direct hstarved hlines]
      refine ⟨h.direct, h.apart, ?_, ?_⟩
      · rw [(handed_eq _ line).1]
        exact h.shows
      · have hasked : ({ s with asked := s.asked + 1, lines := rest } : Session).Calm := h.calm
        exact (hasked.note Log.Level.debug_lt_error).feed line
  · rw [ready_of_not_starved hstarved]
    exact h

theorem settle (h : s.Open) : s.settle.1.Open := by
  obtain ⟨m, observer, journal, heq, -, hsame⟩ := settle_fields s
  have hcalm := h.calm.settle
  rw [heq] at hcalm ⊢
  obtain rfl := hsame h.apart
  exact ⟨h.direct, h.apart, Machine.shows_step h.shows, hcalm⟩

theorem step (h : s.Open) : s.step.1.Open := by
  cases hnone : s.ready.2 with
  | some why =>
    rw [step_of_ready_some hnone]
    exact h.ready
  | none =>
    rw [step_of_ready_none hnone]
    exact h.ready.settle

theorem run (h : s.Open) (fuel : Nat) : (s.run fuel).1.Open := by
  rw [run_eq_after]
  exact after_keeps step h _

end Open

inductive Finishes (t : Session) : Event → Prop where
  | stopped {reason : StopReason} : t.machine.stop = some reason → Finishes t (.stopped reason)
  | failed {f : Fault} : f.pc = some t.machine.pc →
      f.opcode = t.machine.opcode?.map Opcode.mnemonic → Finishes t (.failed f)
  | noInput : t.lines = [] → Finishes t (.noInput t.ending)

theorem ending_step (h : s.front = .direct) : s.step.1.ending = s.ending := by
  by_cases hstarved : s.machine.step.2 = .starved
  · cases hlines : s.lines with
    | nil =>
      have hready := ready_of_nil h hstarved hlines
      rw [step_of_ready_some (congrArg Prod.snd hready), hready]
    | cons line rest =>
      have hready := ready_of_cons h hstarved hlines
      rw [step_of_ready_none (congrArg Prod.snd hready), (sameSource_settle _).ending, hready]
      rfl
  · rw [step_of_not_starved hstarved, (sameSource_settle s).ending]

theorem failed_of_step {f : Fault} (h : s.step.2 = .failed f) : s.step.1.Finishes (.failed f) := by
  cases hnone : s.ready.2 with
  | some why =>
    rw [step_of_ready_some hnone] at h
    contradiction
  | none =>
    rw [step_of_ready_none hnone, settle_eq] at h ⊢
    generalize hstepped : s.ready.1.machine.step = stepped at h ⊢
    obtain ⟨m, r | g | _ | _⟩ := stepped
    · have hsucceeds := witness_succeeds { s.ready.1 with machine := m } r
      rw [conclude] at h
      rw [h] at hsucceeds
      contradiction
    · cases h
      obtain ⟨hpc, hopcode⟩ := Machine.place_of_failed (congrArg Prod.snd hstepped)
      rw [hstepped] at hpc hopcode
      exact .failed hpc hopcode
    all_goals contradiction

/-- A step that does not go on is the end. -/
theorem finishes_of_step (hw : s.machine.WellFormed) (h : s.front = .direct)
    (hgoes : s.step.2 ≠ .running) : s.step.1.Finishes s.step.2 := by
  cases hevent : s.step.2 with
  | running => contradiction
  | stopped reason =>
    have hstop := event_of_succeeds (s := s) (by rw [hevent]; trivial)
    rw [hevent] at hstop
    refine .stopped ?_
    generalize s.step.1.machine.stop = stop at hstop ⊢
    cases stop with
    | none => contradiction
    | some reason' => exact congrArg some (Event.stopped.inj hstop).symm
  | failed f => exact failed_of_step hevent
  | unreported => exact absurd hevent (step_ne_unreported hw)
  | noInput why =>
    obtain ⟨-, -, hlack, -, hstock, -⟩ := of_noInput (.inr h) hevent
    have hdirect := (front_step s).trans h
    simp only [stock, hdirect] at hstock
    simp only [lack, h] at hlack
    rw [← hlack, ← ending_step h]
    exact .noInput hstock

theorem ending_after (h : s.front = .direct) (n : Nat) : (s.after n).ending = s.ending := by
  have hkept := after_keeps (P := fun t => t.front = .direct ∧ t.ending = s.ending)
    (fun ⟨hfront, hending⟩ => ⟨(front_step _).trans hfront, (ending_step hfront).trans hending⟩)
    ⟨h, rfl⟩ n
  exact hkept.2

theorem finishes_of_run (hw : s.machine.WellFormed) (h : s.front = .direct) {fuel : Nat}
    {event : Event} (hrun : s.run fuel = (t, some event)) :
    t.Finishes event ∧ t.ending = s.ending := by
  cases hstop : s.machine.stop with
  | some reason =>
    rw [run_of_stopped hstop] at hrun
    cases hrun
    exact ⟨.stopped hstop, rfl⟩
  | none =>
    obtain ⟨n, -, hlast, hends⟩ := (run_ends_iff hstop).mp ⟨fuel, hrun⟩
    have hfront := (front_after s n).trans h
    have hgoes : (s.after n).step.2 ≠ .running := by rwa [hlast]
    have hfinishes := finishes_of_step (wellFormed_after hw n) hfront hgoes
    have hkept := ending_step hfront
    rw [hlast] at hfinishes hkept
    exact ⟨hfinishes, hkept.trans (ending_after h n)⟩

end Session

end WordMachine
