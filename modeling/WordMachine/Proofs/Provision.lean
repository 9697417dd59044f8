import WordMachine.Proofs.WellFormed
import WordMachine.Session

/-!
What happens to a session while a line is asked for. A debugger may set registers and write where
the program writes, but it leaves the rest of the machine alone, and no instruction is executed
meanwhile. Once there is a line the step that has been waiting for it is taken.
-/
namespace WordMachine

/-- A machine that differs from another one at most in its registers and in what its sink shows. -/
structure Machine.Attended (m n : Machine) : Prop where
  memory : n.memory = m.memory
  stack : n.stack = m.stack
  output : n.console.output = m.console.output
  queue : n.console.queue = m.console.queue
  pc : n.pc = m.pc
  stop : n.stop = m.stop
  steps : n.steps = m.steps
  registers : (∀ i, IsWord (m.registers.get i)) → ∀ i, IsWord (n.registers.get i)

namespace Machine.Attended

variable {m n k : Machine}

theorem refl (m : Machine) : m.Attended m := by
  constructor <;> first | rfl | exact id

theorem trans (h : m.Attended n) (h' : n.Attended k) : m.Attended k where
  memory := h'.memory.trans h.memory
  stack := h'.stack.trans h.stack
  output := h'.output.trans h.output
  queue := h'.queue.trans h.queue
  pc := h'.pc.trans h.pc
  stop := h'.stop.trans h.stop
  steps := h'.steps.trans h.steps
  registers := fun hm => h'.registers (h.registers hm)

theorem wellFormed (h : m.Attended n) (hw : m.WellFormed) : n.WellFormed :=
  ⟨h.registers hw.registers, h.stack ▸ hw.stack, h.pc ▸ hw.pc⟩

theorem share (m : Machine) (text : String) : m.Attended (Session.share m text) := by
  constructor <;> first | rfl | exact id

end Machine.Attended

theorem Machine.attended_of_setRegister {m n : Machine} {index v : Int}
    (h : m.setRegister index v = .ok n) : m.Attended n := by
  obtain ⟨hi, hv, rfl⟩ := Machine.setRegister_ok_iff.mp h
  have hmemory : (m.keep (32768 + index) v).memory = m.memory := by
    rw [Machine.keep_eq, if_neg (by omega)]
  exact
    { memory := hmemory
      stack := Machine.keep_stack _ _
      output := by rw [Machine.keep_console]
      queue := by rw [Machine.keep_console]
      pc := Machine.keep_pc _ _
      stop := Machine.keep_stop _ _
      steps := Machine.keep_steps _ _
      registers := fun hm => Machine.isWord_get_keep hm hv }

/-- The records that an observer has kept, and how many it has written. -/
def Observer.tally : Observer → List TraceRecord × Nat
  | none => ([], 0)
  | recorder seen => (seen.toList, 0)
  | tracer t => ([], t.records)

def Entry.executed? : Entry → Option TraceRecord
  | traced (.executed r) => some r
  | _ => none

theorem Tracer.records_start (t : Tracer) :
    t.start.1.records = t.records ∧ ∀ r, t.start.2 ≠ some (.executed r) := by
  unfold Tracer.start
  split <;> simp

theorem Tracer.records_stop (t : Tracer) :
    t.stop.1.records = t.records ∧ ∀ r, t.stop.2 ≠ some (.executed r) := by
  unfold Tracer.stop
  split <;> simp

theorem Debugger.Command.attended_of_run {c : Debugger.Command} {m : Machine}
    {tracer : Option Tracer} {answer : Debugger.Answer}
    (h : c.run m tracer = .ok (some answer)) :
    m.Attended answer.machine ∧ answer.tracer.map (·.records) = tracer.map (·.records) ∧
      ∀ r, answer.stamp ≠ some (.executed r) := by
  cases c with
  | help | regs | stack =>
    cases h
    exact ⟨.refl m, rfl, by simp⟩
  | quit => cases h
  | reg index value =>
    simp only [Debugger.Command.run] at h
    split at h
    next n hn =>
      cases h
      exact ⟨Machine.attended_of_setRegister hn, rfl, by simp⟩
    next => contradiction
  | mem start count =>
    simp only [Debugger.Command.run] at h
    split at h
    next =>
      cases h
      exact ⟨.refl m, rfl, by simp⟩
    next => contradiction
  | trace arguments =>
    simp only [Debugger.Command.run] at h
    split at h
    next => contradiction
    next t =>
      split at h
      next t' stamp hswitched =>
        cases h
        have hrecords : t'.records = t.records ∧ ∀ r, stamp ≠ some (.executed r) := by
          split at hswitched
          · cases hswitched
            exact ⟨rfl, by simp⟩
          · have := t.records_start
            simp_all
          · have := t.records_stop
            simp_all
          · contradiction
        exact ⟨.refl m, by simp [hrecords.1], hrecords.2⟩
      next => contradiction

namespace Session

def told (s : Session) : (List TraceRecord × Nat) × List TraceRecord :=
  (s.observer.tally, s.journal.toList.filterMap Entry.executed?)

/-- A session that differs from another one in nothing that matters to the program but registers. -/
structure Attended (s t : Session) : Prop where
  machine : s.machine.Attended t.machine
  told : t.told = s.told
  traceTime : t.traceTime = s.traceTime

namespace Attended

theorem refl (s : Session) : s.Attended s := ⟨.refl _, rfl, rfl⟩

theorem trans {s t u : Session} (h : s.Attended t) (h' : t.Attended u) : s.Attended u :=
  ⟨h.machine.trans h'.machine, h'.told.trans h.told, h'.traceTime.trans h.traceTime⟩

theorem note (s : Session) (r : Log.Record) : s.Attended (s.note r) := by
  refine ⟨.refl _, ?_, rfl⟩
  simp [Session.told, Session.note, Entry.executed?]

theorem trace (s : Session) {line : Option TraceLine} (h : ∀ r, line ≠ some (.executed r)) :
    s.Attended (s.trace line) := by
  cases line with
  | none => exact refl s
  | some line =>
    have hline : Entry.executed? (.traced line) = Option.none := by
      cases line with
      | executed r => exact absurd rfl (h r)
      | started | stopped => rfl
    have htold (t : Session) (ho : t.observer = s.observer)
        (hj : t.journal = s.journal.push (.traced line)) : t.told = s.told := by
      simp [Session.told, ho, hj, hline]
    unfold Session.trace
    split
    next => contradiction
    next l hl =>
      cases hl
      dsimp only
      split
      · exact ⟨.share _ _, htold _ rfl rfl, rfl⟩
      · exact ⟨.refl _, htold _ rfl rfl, rfl⟩

theorem print (s : Session) (lines : List String) : s.Attended (s.print lines) := by
  unfold Session.print
  split
  · exact ⟨.share _ _, rfl, rfl⟩
  · exact ⟨.refl _, rfl, rfl⟩

theorem ask (s : Session) : s.Attended s.ask := by
  unfold Session.ask
  dsimp only
  split
  · exact ⟨.share _ _, rfl, rfl⟩
  · exact ⟨.refl _, rfl, rfl⟩

theorem refuse (s : Session) (command : String) (r : Debugger.Refusal) :
    s.Attended (s.refuse command r).1 := by
  unfold Session.refuse
  split
  next => exact refl s
  next text _ =>
    split
    · exact print s _
    · exact (note s _).trans (print _ _)

theorem tally_withTracer {o : Observer} {t : Option Tracer}
    (h : t.map (·.records) = o.tracer?.map (·.records)) : (o.withTracer t).tally = o.tally := by
  cases o with
  | none => cases t <;> simp_all [Observer.tracer?, Observer.withTracer]
  | recorder seen => cases t <;> simp_all [Observer.tracer?, Observer.withTracer]
  | tracer u => cases t <;> simp_all [Observer.tracer?, Observer.withTracer, Observer.tally]

theorem execute (s : Session) (command : String) : s.Attended (s.execute command).1 := by
  unfold Session.execute
  split
  next => exact refuse s command _
  next c hc =>
    split
    next => exact refuse s command _
    next => exact refl s
    next answer hrun =>
      obtain ⟨hmachine, hrecords, hstamp⟩ := Debugger.Command.attended_of_run hrun
      have hs : s.Attended { s with
          machine := answer.machine
          observer := s.observer.withTracer answer.tracer } := by
        refine ⟨hmachine, ?_, rfl⟩
        simp only [Session.told, tally_withTracer hrecords]
      exact hs.trans ((trace _ hstamp).trans (print _ _))

theorem readPast (lines : List String) (s : Session) : s.Attended (s.readPast lines).1 := by
  induction lines generalizing s with
  | nil =>
    rw [Session.readPast]
    have := ask s
    exact ⟨this.machine, this.told, this.traceTime⟩
  | cons line rest ih =>
    have hask : s.Attended { s.ask with lines := rest } := by
      have := ask s
      exact ⟨this.machine, this.told, this.traceTime⟩
    rw [Session.readPast]
    dsimp only
    split
    next command _ =>
      have hexecute := execute { s.ask with lines := rest } (String.ofList command)
      split
      next t ht =>
        rw [ht] at hexecute
        exact hask.trans (hexecute.trans (ih t))
      next t why ht =>
        rw [ht] at hexecute
        exact hask.trans hexecute
    next => exact hask

theorem readLine (s : Session) : s.Attended s.readLine.1 := by
  unfold Session.readLine
  split
  · exact refl s
  · split
    · exact ask s
    · have := ask s
      exact ⟨this.machine, this.told, this.traceTime⟩
  · exact readPast s.lines s

end Attended

end Session

end WordMachine
