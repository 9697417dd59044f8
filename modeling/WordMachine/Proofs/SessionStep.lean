import WordMachine.Proofs.Provision

/-!
A step of a session: first the line that the instruction waits for, if it waits for one, then the
step of the machine. A step that fails has changed nothing but what the instruction had taken from
the stack or the queue.
-/
namespace WordMachine

namespace Machine

open Objection

variable {m : Machine}

instance (m : Machine) (op : Opcode) : Decidable (m.Fetches op) :=
  decidable_of_iff (0 ≤ m.pc ∧ m.wordAt 0 = op.code ∧ m.pc + op.arity ≤ 32767)
    ⟨fun h => ⟨h.1, h.2.1, h.2.2⟩, fun h => ⟨h.inside, h.code, h.whole⟩⟩

instance (m : Machine) : Decidable m.Awaits :=
  inferInstanceAs (Decidable (m.Fetches .in ∧ m.console.queue = []))

/-- The instruction takes an entry from the stack that it has no use for. -/
def LosesEntry (m : Machine) : Prop :=
  (m.Fetches .pop ∧ m.stack ≠ [] ∧ 32775 < m.wordAt 1) ∨
    (m.Fetches .ret ∧ 32767 < m.stack.headD 0)

def LosesCode (m : Machine) : Prop := m.Fetches .in ∧ 32775 < m.wordAt 1

instance (m : Machine) : Decidable m.LosesEntry := by
  unfold LosesEntry
  infer_instance

instance (m : Machine) : Decidable m.LosesCode := by
  unfold LosesCode
  infer_instance

def afterLoss (m : Machine) : Machine :=
  { m with
    stack := if m.LosesEntry then m.stack.tail else m.stack
    console := { m.console with
      queue := if m.LosesCode then m.console.queue.tail else m.console.queue } }

theorem afterLoss_of_not_fetches (h : ∀ op, ¬m.Fetches op) : m.afterLoss = m := by
  have hentry : ¬m.LosesEntry := fun hl => hl.elim (fun hl => h _ hl.1) (fun hl => h _ hl.1)
  have hcode : ¬m.LosesCode := fun hl => h _ hl.1
  simp only [afterLoss, if_neg hentry, if_neg hcode]

theorem Fetches.fails_iff {op : Opcode} (h : m.Fetches op) {o : Option Opcode} {f : Fault} :
    m.Fails o f ↔ o = some op ∧ m.objection op = some f := by
  have hpc := h.whole
  have hcode := h.code
  have hle := op.code_le
  constructor
  · intro hf
    cases hf with
    | outside hend => omega
    | noOpcode _ hgt => omega
    | @cutOff p _ hp hcut =>
      obtain rfl : op = p := Opcode.code_injective (by omega)
      omega
    | refused hp hobj =>
      obtain rfl := h.unique hp
      exact ⟨rfl, hobj⟩
  · rintro ⟨rfl, hobj⟩
    exact .refused h hobj

theorem refused_eq_afterLoss {op : Opcode} (h : m.Fetches op) {f : Fault}
    (hf : m.objection op = some f) : m.refused op = m.afterLoss := by
  have hfetches (o : Opcode) : m.Fetches o ↔ op = o := ⟨fun h' => h.unique h', fun e => e ▸ h⟩
  unfold afterLoss LosesEntry LosesCode
  simp only [hfetches]
  cases op with
  | pop =>
    by_cases hs : m.stack = []
    · simp [refused, hs]
    · have hplace : 32775 < m.wordAt 1 := by
        apply Decidable.byContradiction
        intro hle
        simp [objection, checks, first, entry, place, objectIf, hs, hle] at hf
      simp [refused, hs, hplace]
  | ret =>
    cases hs : m.stack with
    | nil => simp [objection, checks, hs] at hf
    | cons v rest =>
      have htarget : 32767 < v := by
        apply Decidable.byContradiction
        intro hle
        simp [objection, checks, first, target, objectIf, hs, hle] at hf
      simp [refused, hs, htarget]
  | «in» =>
    have hplace : 32775 < m.wordAt 1 := by
      apply Decidable.byContradiction
      intro hle
      simp [objection, checks, first, place, objectIf, hle] at hf
    simp [refused, hplace]
  | _ => simp [refused]

theorem step_of_fails (hw : m.WellFormed) (hwait : ¬m.Awaits) {op : Option Opcode} {f : Fault}
    (h : m.Fails op f) :
    m.step = (m.afterLoss, .failed (f.annotate (some m.pc) (op.map Opcode.mnemonic))) := by
  have h0 := hw.pc.1
  cases h with
  | outside hend =>
    rw [step_of_outside hend, afterLoss_of_not_fetches]
    · rfl
    · intro op hop
      have := hop.whole
      omega
  | noOpcode hpc hgt =>
    rw [step_of_noOpcode h0 hpc hgt, afterLoss_of_not_fetches]
    · rfl
    · intro op hop
      have := hop.code
      have := op.code_le
      omega
  | @cutOff op hpc hcode hcut =>
    rw [step_of_cutOff h0 hpc hcode hcut, afterLoss_of_not_fetches]
    · rfl
    · intro p hp
      have hp' := hp.code
      obtain rfl : p = op := Opcode.code_injective (by omega)
      have := hp.whole
      omega
  | @refused op f hop hobj =>
    have hready : op = .in → m.console.queue ≠ [] := by
      rintro rfl hq
      exact hwait ⟨hop, hq⟩
    rw [step_of_fetches hw hop hready, hobj, ← refused_eq_afterLoss hop hobj]
    rfl

theorem step_of_passes (hw : m.WellFormed) (hwait : ¬m.Awaits) {op : Opcode} (h : m.Fetches op)
    (hobj : m.objection op = none) : m.step = (m.executed op, .executed (m.recordOf op)) := by
  have hready : op = .in → m.console.queue ≠ [] := by
    rintro rfl hq
    exact hwait ⟨h, hq⟩
  rw [step_of_fetches hw h hready, hobj]

theorem fails_or_passes (hw : m.WellFormed) :
    (∃ op f, m.Fails op f) ∨ ∃ op, m.Fetches op ∧ m.objection op = none := by
  obtain hend | ⟨hpc, hcode⟩ | ⟨op, hpc, hcode, hcut⟩ | ⟨op, hop⟩ := cases_of_wellFormed hw
  · exact .inl ⟨_, _, .outside hend⟩
  · exact .inl ⟨_, _, .noOpcode hpc hcode⟩
  · exact .inl ⟨_, _, .cutOff hpc hcode hcut⟩
  · cases hobj : m.objection op with
    | some f => exact .inl ⟨_, _, .refused hop hobj⟩
    | none => exact .inr ⟨op, hop, hobj⟩

theorem not_starved (hw : m.WellFormed) (hwait : ¬m.Awaits) : m.step.2 ≠ .starved := by
  obtain ⟨op, f, hf⟩ | ⟨op, hop, hobj⟩ := fails_or_passes hw
  · rw [step_of_fails hw hwait hf]
    exact Outcome.noConfusion
  · rw [step_of_passes hw hwait hop hobj]
    exact Outcome.noConfusion

theorem Attended.fetches_iff {n : Machine} (h : m.Attended n) {op : Opcode} :
    n.Fetches op ↔ m.Fetches op := by
  have hword (k : Int) : n.wordAt k = m.wordAt k := by
    simp only [wordAt, h.memory, h.pc]
  constructor
  · intro hn
    exact ⟨h.pc ▸ hn.inside, hword 0 ▸ hn.code, h.pc ▸ hn.whole⟩
  · intro hm
    exact ⟨h.pc ▸ hm.inside, hword 0 ▸ hm.code, h.pc ▸ hm.whole⟩

def muted (m : Machine) : Machine := { m with console := { m.console with sink := none } }

def withQueue (m : Machine) (queue : List UInt8) : Machine :=
  { m with console := { m.console with queue } }

end Machine

namespace Session

def Event.Succeeds : Event → Prop
  | .running | .stopped _ => True
  | .failed _ | .unreported | .noInput _ => False

instance : DecidablePred Event.Succeeds := fun e => by
  cases e <;> unfold Event.Succeeds <;> infer_instance

def Event.ofStop : Option StopReason → Event
  | none => .running
  | some reason => .stopped reason

theorem Event.succeeds_ofStop (stop : Option StopReason) : (ofStop stop).Succeeds := by
  cases stop <;> trivial

/-- The machine that an instruction is carried out on: as it is or, if it waits for input, with a
line queued that has been handed out. -/
inductive Serves (s : Session) : Machine → Prop where
  | ready : ¬s.machine.Awaits → s.Serves s.machine
  | line {t : Session} {line : String} : s.machine.Awaits → s.readLine = (t, .ok line) →
      s.Serves { t.machine with console := t.machine.console.feed line }

/-- The rest of a step when its instruction need not wait any more. -/
def settle (s : Session) : Session × Event :=
  match s.advance with
  | (s, .executed r) => s.witness r
  | (s, .failed f) => (s, .failed f)
  | (s, .unreported) => (s, .unreported)
  | (s, .starved) => (s, .noInput .unattached)

def handed (s : Session) (line : String) : Session :=
  (s.note (receivedRecord line)).feed line

theorem supply_of_error {s t : Session} {why : NoInput} (h : s.readLine = (t, .error why)) :
    s.supply = (t, some why) := by
  rw [supply, h]

theorem supply_of_ok {s t : Session} {line : String} (h : s.readLine = (t, .ok line)) :
    s.supply = (t.handed line, none) := by
  rw [supply, h]
  rfl

theorem step_of_not_awaits {s : Session} (hw : s.machine.WellFormed) (h : ¬s.machine.Awaits) :
    s.step = s.settle := by
  have hstarved := Machine.not_starved hw h
  unfold step settle
  rw [advance_eq]
  cases ho : s.machine.step.2 with
  | starved => exact absurd ho hstarved
  | executed r | failed f | unreported => rfl

theorem step_of_awaits {s : Session} (h : s.machine.Awaits) :
    s.step = match s.readLine with
      | (t, .error why) => (t, .noInput why)
      | (t, .ok line) => (t.handed line).settle := by
  have hadvance : s.advance = (s, .starved) := by
    rw [advance_eq, Machine.step_of_awaits h]
  unfold step supply
  rw [hadvance]
  dsimp only
  rcases s.readLine with ⟨t, why | line⟩ <;> rfl

theorem settle_of_fails {s : Session} (hw : s.machine.WellFormed) (hwait : ¬s.machine.Awaits)
    {op : Option Opcode} {f : Fault} (h : s.machine.Fails op f) :
    s.settle = ({ s with machine := s.machine.afterLoss },
      .failed (f.annotate (some s.machine.pc) (op.map Opcode.mnemonic))) := by
  unfold settle
  rw [advance_eq, Machine.step_of_fails hw hwait h]

theorem settle_of_passes {s : Session} (hw : s.machine.WellFormed) (hwait : ¬s.machine.Awaits)
    {op : Opcode} (h : s.machine.Fetches op) (hobj : s.machine.objection op = none) :
    s.settle =
      ({ s with machine := s.machine.executed op }.witness (s.machine.recordOf op)) := by
  unfold settle
  rw [advance_eq, Machine.step_of_passes hw hwait h hobj]

namespace Serves

variable {s : Session} {m : Machine}

theorem attended (h : s.Serves m) :
    s.machine.Attended (m.withQueue s.machine.console.queue) := by
  cases h with
  | ready hwait => exact .refl s.machine
  | @line t line hwait hread =>
    have ht : s.machine.Attended t.machine := by
      have := Attended.readLine s
      rw [hread] at this
      exact this.machine
    exact
      { memory := ht.memory
        stack := ht.stack
        output := ht.output
        queue := rfl
        pc := ht.pc
        stop := ht.stop
        steps := ht.steps
        registers := ht.registers }

theorem wellFormed (h : s.Serves m) (hw : s.machine.WellFormed) : m.WellFormed := by
  have := h.attended.wellFormed hw
  exact ⟨this.registers, this.stack, this.pc⟩

theorem wordAt_eq (h : s.Serves m) (k : Int) : m.wordAt k = s.machine.wordAt k := by
  have hmemory : m.memory = s.machine.memory := h.attended.memory
  have hpc : m.pc = s.machine.pc := h.attended.pc
  simp only [Machine.wordAt, hmemory, hpc]

theorem fetches_iff (h : s.Serves m) {op : Opcode} : m.Fetches op ↔ s.machine.Fetches op := by
  rw [← h.attended.fetches_iff]
  exact ⟨fun hm => ⟨hm.inside, hm.code, hm.whole⟩, fun hm => ⟨hm.inside, hm.code, hm.whole⟩⟩

theorem not_awaits (h : s.Serves m) : ¬m.Awaits := by
  cases h with
  | ready hwait => exact hwait
  | line =>
    intro hm
    have hqueue := hm.2
    simp [CharConsole.feed, lineBytes] at hqueue

theorem fails_iff (h : s.Serves m) {op : Option Opcode} {f : Fault} :
    m.Fails op f ↔ s.machine.Fails op f := by
  have hfetches := @h.fetches_iff
  have hword := h.wordAt_eq
  cases h with
  | ready => exact Iff.rfl
  | @line t line hwait hread =>
    rw [hwait.1.fails_iff, (hfetches.mpr hwait.1).fails_iff]
    simp only [Machine.objection, Machine.checks, hword]

end Serves

theorem handed_eq (t : Session) (line : String) :
    (t.handed line).machine = { t.machine with console := t.machine.console.feed line } ∧
      (t.handed line).told = t.told ∧ (t.handed line).traceTime = t.traceTime := by
  refine ⟨?_, ?_, rfl⟩
  · change { t.machine with console := t.machine.console.feedAll [line] } = _
    rw [CharConsole.feedAll_cons, CharConsole.feedAll_nil]
  · simp [handed, note, feed, feedAll, told, Entry.executed?]

/-- A step either ends for want of a line or is the step of a machine that need not wait. -/
theorem step_cases {s : Session} (hw : s.machine.WellFormed) :
    (∃ t why, s.machine.Awaits ∧ s.readLine = (t, .error why) ∧ s.step = (t, .noInput why)) ∨
      ∃ t : Session, s.Serves t.machine ∧ t.told = s.told ∧ t.traceTime = s.traceTime ∧
        s.step = t.settle := by
  by_cases hwait : s.machine.Awaits
  · have hstep := step_of_awaits hwait
    have hread := Attended.readLine s
    rcases hr : s.readLine with ⟨t, why | line⟩
    · simp only [hr] at hstep
      exact .inl ⟨t, why, hwait, rfl, hstep⟩
    · simp only [hr] at hstep hread
      obtain ⟨hmachine, htold, htime⟩ := handed_eq t line
      refine .inr ⟨t.handed line, ?_, htold.trans hread.told, htime.trans hread.traceTime, hstep⟩
      rw [hmachine]
      exact .line hwait hr
  · exact .inr ⟨s, .ready hwait, rfl, rfl, step_of_not_awaits hw hwait⟩

theorem trace_machine (s : Session) (line : Option TraceLine) :
    (s.trace line).machine.muted = s.machine.muted ∧
      (s.traceTime = none → (s.trace line).machine = s.machine) := by
  cases line with
  | none => exact ⟨rfl, fun _ => rfl⟩
  | some line =>
    unfold trace
    dsimp only
    split
    next time ht =>
      refine ⟨rfl, fun h => ?_⟩
      rw [h] at ht
      contradiction
    next => exact ⟨rfl, fun _ => rfl⟩

theorem watch_machine (s : Session) (r : TraceRecord) :
    (s.watch r).machine.muted = s.machine.muted ∧
      (s.traceTime = none → (s.watch r).machine = s.machine) :=
  trace_machine { s with observer := (s.observer.see r).1 } (s.observer.see r).2

theorem witness_eq (s : Session) (r : TraceRecord) :
    (s.witness r).1.machine.muted = s.machine.muted ∧
      (s.traceTime = none → (s.witness r).1.machine = s.machine) ∧
      (s.witness r).2 = .ofStop (s.witness r).1.machine.stop := by
  obtain ⟨hmuted, hsame⟩ := watch_machine s r
  unfold witness
  dsimp only
  split
  next hstop => exact ⟨hmuted, hsame, by rw [hstop]; rfl⟩
  next reason hstop => exact ⟨hmuted, hsame, by simp only [note, hstop]; rfl⟩

theorem witness_fields (s : Session) (r : TraceRecord) :
    ∃ m observer journal, (s.witness r).1 = { s with machine := m, observer, journal } ∧
      m.muted = s.machine.muted ∧ (s.traceTime = none → m = s.machine) := by
  have hwatch : ∃ m observer journal,
      s.watch r = { s with machine := m, observer, journal } := by
    unfold watch trace
    dsimp only
    split
    · exact ⟨_, _, _, rfl⟩
    · split <;> exact ⟨_, _, _, rfl⟩
  obtain ⟨hmuted, hsame⟩ := watch_machine s r
  obtain ⟨m, observer, journal, heq⟩ := hwatch
  rw [heq] at hmuted hsame
  unfold witness
  rw [heq]
  dsimp only
  split
  · exact ⟨m, observer, journal, rfl, hmuted, hsame⟩
  · exact ⟨m, observer, _, rfl, hmuted, hsame⟩

theorem run_of_stopped {s : Session} {reason : StopReason} (hstop : s.machine.stop = some reason)
    (fuel : Nat) : s.run fuel = (s, some (.stopped reason)) := by
  unfold run
  rw [hstop]

/-- Sessions that steps keep related for as long as they go on come to the same end. What is known
of them there may be less than what a further step would need. -/
theorem run_related {R E : Session → Session → Prop} (hended : ∀ {s u : Session}, R s u → E s u)
    (hstop : ∀ {s u : Session}, R s u → s.machine.stop = u.machine.stop)
    (hstep : ∀ {s u : Session}, R s u → s.step.2 = u.step.2 ∧ E s.step.1 u.step.1 ∧
      (s.step.2 = .running → R s.step.1 u.step.1))
    {s u : Session} (h : R s u) (fuel : Nat) :
    E (s.run fuel).1 (u.run fuel).1 ∧ (s.run fuel).2 = (u.run fuel).2 := by
  induction fuel generalizing s u with
  | zero =>
    unfold run
    rw [hstop h]
    cases u.machine.stop <;> exact ⟨hended h, rfl⟩
  | succ n ih =>
    cases hrunning : u.machine.stop with
    | some reason =>
      rw [run_of_stopped ((hstop h).trans hrunning), run_of_stopped hrunning]
      exact ⟨hended h, rfl⟩
    | none =>
      rw [run_succ s n ((hstop h).trans hrunning), run_succ u n hrunning]
      obtain ⟨hevent, hend, hlater⟩ := hstep h
      generalize s.step = a at hevent hend hlater ⊢
      generalize u.step = b at hevent hend hlater ⊢
      obtain ⟨a, e⟩ := a
      obtain ⟨b, e'⟩ := b
      obtain rfl : e = e' := hevent
      cases e with
      | running => exact ih (hlater rfl)
      | _ => exact ⟨hend, rfl⟩

end Session

end WordMachine
