import WordMachine.Proofs.Footprint
import WordMachine.Proofs.Recorded

/-!
A cell that nobody looks at has no influence. Two sessions that differ in one cell take the same
step unless it looks there, and the difference goes no further than this cell.
-/
namespace WordMachine

open Debugger Script

namespace Session

variable {x : Address} {s t : Session}

/-- Sessions that differ at most in one cell and, where a debugger shows cells, in what has been
shown. -/
structure ApartFrom (x : Address) (s t : Session) : Prop where
  machine : s.machine.ApartFrom x t.machine
  rest : t = { s with machine := t.machine, printed := t.printed }
  shown : s.IsPlain →
    t.machine.console.sink = s.machine.console.sink ∧ t.printed = s.printed

theorem apartFrom_withCell (s : Session) (x : Address) (w : Word) :
    s.ApartFrom x { s with machine := s.machine.withCell x w } :=
  ⟨Machine.apartFrom_iff.mpr ⟨w, rfl⟩, rfl, fun _ => ⟨rfl, rfl⟩⟩

theorem HasDebugger.not_plain (h : s.HasDebugger) : ¬s.IsPlain := by
  obtain ⟨prompt, shared, hfront⟩ := h
  rw [IsPlain, hfront]
  rintro (h | h) <;> contradiction

theorem HasDebugger.of_front (h : s.HasDebugger) (hfront : t.front = s.front) :
    t.HasDebugger := by
  obtain ⟨prompt, shared, hs⟩ := h
  exact ⟨prompt, shared, hfront.trans hs⟩

namespace ApartFrom

theorem share {m n : Machine} (h : m.ApartFrom x n) (text shown : String) :
    (share m text).ApartFrom x (share n shown) :=
  ⟨h.memory, h.registers, h.stack, h.output, h.queue, h.pc, h.stop, h.steps⟩

theorem exists_eq (h : s.ApartFrom x t) : ∃ n text, t = { s with machine := n, printed := text } ∧
    s.machine.ApartFrom x n ∧
    (s.IsPlain → n.console.sink = s.machine.console.sink ∧ text = s.printed) :=
  ⟨t.machine, t.printed, h.rest, h.machine, h.shown⟩

theorem note (h : s.ApartFrom x t) (r : Log.Record) : (s.note r).ApartFrom x (t.note r) :=
  ⟨h.machine, congrArg (·.note r) h.rest, h.shown⟩

theorem withLines (h : s.ApartFrom x t) (lines : List String) :
    ApartFrom x { s with lines } { t with lines } :=
  ⟨h.machine, congrArg (fun u : Session => { u with lines }) h.rest, h.shown⟩

theorem ask (h : s.ApartFrom x t) : s.ask.ApartFrom x t.ask := by
  obtain ⟨n, text, rfl, hmachine, hshown⟩ := h.exists_eq
  unfold Session.ask
  dsimp only
  split
  next hfront =>
    refine ⟨share hmachine _ _, rfl, fun hplain => ?_⟩
    exact absurd hplain (HasDebugger.not_plain ⟨_, _, hfront⟩)
  next => exact ⟨hmachine, rfl, hshown⟩

theorem trace (h : s.ApartFrom x t) (line : Option TraceLine) :
    (s.trace line).ApartFrom x (t.trace line) := by
  cases line with
  | none => exact h
  | some line =>
    obtain ⟨n, text, rfl, hmachine, hshown⟩ := h.exists_eq
    unfold Session.trace
    dsimp only
    split
    next time _ =>
      refine ⟨share hmachine _ _, rfl, fun hplain => ⟨?_, (hshown hplain).2⟩⟩
      exact congrArg (Option.map fun k : Sink => { k with text := k.text ++ line.text time })
        (hshown hplain).1
    next => exact ⟨hmachine, rfl, hshown⟩

theorem print (h : s.ApartFrom x t) (hd : s.HasDebugger) (lines shown : List String) :
    (s.print lines).ApartFrom x (t.print shown) := by
  obtain ⟨n, text, rfl, hmachine, -⟩ := h.exists_eq
  unfold Session.print
  dsimp only
  split
  next hfront =>
    refine ⟨share hmachine _ _, rfl, fun hplain => ?_⟩
    exact absurd hplain (HasDebugger.not_plain ⟨_, _, hfront⟩)
  next => exact ⟨hmachine, rfl, fun hplain => absurd hplain hd.not_plain⟩

theorem refuse (h : s.ApartFrom x t) (hd : s.HasDebugger) (command : String) (r : Refusal) :
    (s.refuse command r).1.ApartFrom x (t.refuse command r).1 := by
  unfold Session.refuse
  split
  next => exact h
  next text _ =>
    split
    · exact h.print hd _ _
    · exact (h.note _).print hd _ _

theorem setRegister {m n m' : Machine} (h : m.ApartFrom x n) {index v : Int}
    (hm : m.setRegister index v = .ok m') :
    ∃ n', n.setRegister index v = .ok n' ∧ m'.ApartFrom x n' := by
  obtain ⟨hindex, hv, rfl⟩ := Machine.setRegister_ok_iff.mp hm
  refine ⟨_, Machine.setRegister_ok_iff.mpr ⟨hindex, hv, rfl⟩, ?_⟩
  obtain ⟨w, hw⟩ := Machine.apartFrom_iff.mp h
  apply Machine.apartFrom_iff.mpr
  refine ⟨w, ?_⟩
  rw [Machine.keep_eq, Machine.keep_eq, if_neg (by omega), if_neg (by omega)]
  exact congrArg (fun k : Machine =>
    { k with registers := k.registers.setNamed (32768 + index) v }) hw

theorem run_cases {m n : Machine} (h : m.ApartFrom x n) (c : Command) (tracer : Option Tracer) :
    (∃ r, c.run m tracer = .error r ∧ c.run n tracer = .error r) ∨
      (c.run m tracer = .ok none ∧ c.run n tracer = .ok none) ∨
      ∃ answer n' shown, c.run m tracer = .ok (some answer) ∧
        c.run n tracer = .ok (some { answer with machine := n', lines := shown }) ∧
        answer.machine.ApartFrom x n' := by
  cases c with
  | help | regs | stack => exact .inr (.inr ⟨_, _, _, rfl, rfl, h⟩)
  | quit => exact .inr (.inl ⟨rfl, rfl⟩)
  | reg index value =>
    simp only [Command.run]
    obtain ⟨m', hm, -⟩ | ⟨c, hm, hcause⟩ := setRegister_cases m index value
    · obtain ⟨n', hn, hsame⟩ := setRegister h hm
      rw [hm, hn]
      exact .inr (.inr ⟨_, _, _, rfl, rfl, hsame⟩)
    · obtain ⟨n', -, hnone⟩ | ⟨c', hn, hcause'⟩ := setRegister_cases n index value
      · cases hcause.symm.trans hnone
      · cases hcause.symm.trans hcause'
        rw [hm, hn]
        exact .inl ⟨_, rfl, rfl⟩
  | mem start count =>
    simp only [Command.run]
    obtain ⟨dump, hm, hnone⟩ | ⟨c, hm, hcause⟩ := hexDump_cases m.memory start count <;>
      obtain ⟨dump', hn, hnone'⟩ | ⟨c', hn, hcause'⟩ := hexDump_cases n.memory start count
    · rw [hm, hn]
      exact .inr (.inr ⟨_, _, _, rfl, rfl, h⟩)
    · cases hnone.symm.trans hcause'
    · cases hcause.symm.trans hnone'
    · cases hcause.symm.trans hcause'
      rw [hm, hn]
      exact .inl ⟨_, rfl, rfl⟩
  | trace arguments =>
    cases tracer with
    | none => exact .inl ⟨_, rfl, rfl⟩
    | some tracer =>
      simp only [Command.run]
      split
      · exact .inr (.inr ⟨_, _, _, rfl, rfl, h⟩)
      · exact .inl ⟨_, rfl, rfl⟩

theorem execute (h : s.ApartFrom x t) (hd : s.HasDebugger) (command : String) :
    (s.execute command).1.ApartFrom x (t.execute command).1 := by
  have htracer : t.observer = s.observer := by rw [h.rest]
  unfold Session.execute
  rw [htracer]
  cases Command.ofLine command with
  | error r => exact h.refuse hd command r
  | ok c =>
    dsimp only
    obtain ⟨r, hs, ht⟩ | ⟨hs, ht⟩ | ⟨answer, n', shown, hs, ht, hsame⟩ :=
      run_cases h.machine c s.observer.tracer?
    · rw [hs, ht]
      exact h.refuse hd command r
    · rw [hs, ht]
      exact h
    · rw [hs, ht]
      have hanswered : ApartFrom x
          { s with machine := answer.machine, observer := s.observer.withTracer answer.tracer }
          { t with machine := n', observer := s.observer.withTracer answer.tracer } := by
        refine ⟨hsame, ?_, fun hplain => absurd hplain hd.not_plain⟩
        exact congrArg (fun u : Session => { u with
          machine := n', observer := s.observer.withTracer answer.tracer }) h.rest
      have hfront := (OnlyWrites.trace
        { s with machine := answer.machine, observer := s.observer.withTracer answer.tracer }
        answer.stamp).front
      exact (hanswered.trace answer.stamp).print (hd.of_front hfront) _ _

theorem readPast (h : s.ApartFrom x t) (hd : s.HasDebugger) (lines : List String) :
    (s.readPast lines).1.ApartFrom x (t.readPast lines).1 ∧
      (t.readPast lines).2 = (s.readPast lines).2 := by
  induction lines generalizing s t with
  | nil =>
    refine ⟨h.ask.withLines [], ?_⟩
    change Except.error t.ending = Except.error s.ending
    rw [h.rest]
  | cons line rest ih =>
    have hask := h.ask.withLines rest
    have hasker : HasDebugger { s.ask with lines := rest } :=
      hd.of_front (Undisturbed.ask s).front
    cases hcommand : command? line with
    | none =>
      rw [readPast_of_plain hcommand, readPast_of_plain hcommand]
      exact ⟨hask, rfl⟩
    | some command =>
      have hexecute := hask.execute hasker command
      have hfront := (sameSource_execute { s.ask with lines := rest } command).front
      have hs := execute_ending { s.ask with lines := rest } command
      have ht := execute_ending { t.ask with lines := rest } command
      rw [readPast_of_command hcommand, readPast_of_command hcommand]
      generalize { s.ask with lines := rest }.execute command = a at hexecute hfront hs ⊢
      generalize { t.ask with lines := rest }.execute command = b at hexecute ht ⊢
      obtain ⟨a, why⟩ := a
      obtain ⟨b, why'⟩ := b
      obtain rfl : why' = why := ht.trans hs.symm
      cases why' with
      | none => exact ih hexecute (hasker.of_front hfront)
      | some why => exact ⟨hexecute, rfl⟩

theorem readLine (h : s.ApartFrom x t) :
    s.readLine.1.ApartFrom x t.readLine.1 ∧ t.readLine.2 = s.readLine.2 := by
  have hfront : t.front = s.front := by rw [h.rest]
  have hlines : t.lines = s.lines := by rw [h.rest]
  have hending : t.ending = s.ending := by rw [h.rest]
  unfold Session.readLine
  rw [hfront, hlines, hending]
  split
  · exact ⟨h, rfl⟩
  · split
    · exact ⟨h.ask, rfl⟩
    · exact ⟨h.ask.withLines _, rfl⟩
  next prompt shared hdebugger => exact h.readPast ⟨prompt, shared, hdebugger⟩ s.lines

theorem handed (h : s.ApartFrom x t) (line : String) :
    (s.handed line).ApartFrom x (t.handed line) := by
  refine ⟨?_, congrArg (·.handed line) h.rest, fun hplain => ?_⟩
  · obtain ⟨w, hw⟩ := Machine.apartFrom_iff.mp h.machine
    exact Machine.apartFrom_iff.mpr ⟨w, congrArg (fun k : Machine =>
      { k with console := k.console.feedAll [line] }) hw⟩
  · exact h.shown hplain

theorem ready (h : s.ApartFrom x t) (hstarved : t.machine.step.2 = s.machine.step.2) :
    s.ready.1.ApartFrom x t.ready.1 ∧ t.ready.2 = s.ready.2 := by
  obtain ⟨hread, hresult⟩ := h.readLine
  unfold Session.ready Session.supply
  rw [hstarved]
  split
  · generalize s.readLine = a at hread hresult ⊢
    generalize t.readLine = b at hread hresult ⊢
    obtain ⟨a, result⟩ := a
    obtain ⟨b, result'⟩ := b
    obtain rfl : result' = result := hresult
    cases result' with
    | error why => exact ⟨hread, rfl⟩
    | ok line => exact ⟨hread.handed line, rfl⟩
  · exact ⟨h, rfl⟩

theorem witness (h : s.ApartFrom x t) (r : TraceRecord) :
    (s.witness r).1.ApartFrom x (t.witness r).1 := by
  have hobserver : t.observer = s.observer := by rw [h.rest]
  have hseen : ApartFrom x { s with observer := (s.observer.see r).1 }
      { t with observer := (s.observer.see r).1 } :=
    ⟨h.machine, congrArg (fun u : Session => { u with observer := (s.observer.see r).1 }) h.rest,
      h.shown⟩
  have hwatch : (s.watch r).ApartFrom x (t.watch r) := by
    have ht : t.watch r = Session.trace { t with observer := (s.observer.see r).1 }
        (s.observer.see r).2 := by
      rw [← hobserver]
      rfl
    rw [ht]
    exact hseen.trace (s.observer.see r).2
  unfold Session.witness
  dsimp only
  rw [hwatch.machine.stop, hwatch.machine.pc, hwatch.machine.steps]
  split
  · exact hwatch
  · exact hwatch.note _

theorem settle (h : s.ApartFrom x t) (hlook : ¬s.machine.LooksAt x) :
    s.settle.1.ApartFrom x t.settle.1 ∧ t.settle.2 = s.settle.2 := by
  obtain ⟨hmachine, houtcome, -, hsink⟩ := h.machine.step hlook
  have hstepped : ApartFrom x { s with machine := s.machine.step.1 }
      { t with machine := t.machine.step.1 } := by
    refine ⟨hmachine, ?_, fun hplain => ?_⟩
    · exact congrArg (fun u : Session => { u with machine := t.machine.step.1 }) h.rest
    · obtain ⟨hsame, hprinted⟩ := h.shown hplain
      exact ⟨hsink hsame, hprinted⟩
  constructor
  · rw [settle_eq, settle_eq]
    unfold conclude
    generalize s.machine.step = a at houtcome hstepped ⊢
    generalize t.machine.step = b at houtcome hstepped ⊢
    obtain ⟨a, outcome⟩ := a
    obtain ⟨b, outcome'⟩ := b
    obtain rfl : outcome' = outcome := houtcome
    cases outcome' with
    | executed r => exact hstepped.witness r
    | failed | unreported | starved => exact hstepped
  · rw [(settle_muted s).2, (settle_muted t).2, hmachine.stop, houtcome]

end ApartFrom

def StoresInto (s : Session) (x : Address) : Prop :=
  ∃ i, s.Decodes i ∧ i.target? s.machine = some (x.val : Int) ∧ s.step.2.Succeeds

theorem looksAt_of_ready (h : s.ready.1.machine.LooksAt x) : s.machine.LooksAt x := by
  by_cases hstarved : s.machine.step.2 = .starved
  · have hattended := (attended_ready s).1
    have hmemory : s.ready.1.machine.memory = s.machine.memory := hattended.memory
    have hpc : s.ready.1.machine.pc = s.machine.pc := hattended.pc
    obtain ⟨-, -, a, hinput⟩ := Machine.starved_cases hstarved
    cases h with
    | fetch hlow hhigh =>
      have hcount : s.ready.1.machine.operandCount = s.machine.operandCount := by
        unfold Machine.operandCount Machine.opcode? Machine.fetchOpcode
        rw [hmemory, hpc]
      rw [hpc] at hlow hhigh
      exact .fetch hlow (hcount ▸ hhigh)
    | load hload _ =>
      rw [decode_ready, hinput] at hload
      cases hload
  · rwa [ready, if_neg hstarved] at h

theorem StoresInto.ready (h : s.StoresInto x) :
    s.ready.2 = none ∧ s.ready.1.machine.StoresInto x := by
  obtain ⟨i, hdecode, htarget, hok⟩ := h
  obtain ⟨r, hmade⟩ := Option.isSome_iff_exists.mp ((isSome_made_iff s).mpr hok)
  obtain ⟨hready, hexecuted⟩ := made_eq_some_iff.mp hmade
  refine ⟨hready, i, r, (decode_ready s).trans hdecode, ?_, hexecuted⟩
  · by_cases hstarved : s.machine.step.2 = .starved
    · obtain ⟨-, -, a, hinput⟩ := Machine.starved_cases hstarved
      cases Except.ok.inj (hinput.symm.trans hdecode)
      exact htarget
    · rwa [Session.ready, if_neg hstarved]

theorem memory_settle (s : Session) : s.settle.1.machine.memory = s.machine.step.1.memory := by
  have hmemory := congrArg Machine.memory (settle_muted s).1
  exact hmemory

theorem ApartFrom.step (h : s.ApartFrom x t) (hlook : ¬s.machine.LooksAt x) :
    t.step.2 = s.step.2 ∧ t.made = s.made ∧ s.step.1.ApartFrom x t.step.1 ∧
      (s.StoresInto x → t.step.1.machine.memory = s.step.1.machine.memory) := by
  obtain ⟨hready, hwhy⟩ := h.ready (h.machine.step hlook).2.1
  have hunseen : ¬s.ready.1.machine.LooksAt x := fun hseen => hlook (looksAt_of_ready hseen)
  have hstores := @StoresInto.ready x s
  rw [step_eq_ready, step_eq_ready]
  unfold made
  generalize s.ready = a at hready hwhy hunseen hstores ⊢
  generalize t.ready = b at hready hwhy ⊢
  obtain ⟨a, why⟩ := a
  obtain ⟨b, why'⟩ := b
  obtain rfl : why' = why := hwhy
  cases why' with
  | some why =>
    refine ⟨rfl, rfl, hready, fun hs => ?_⟩
    cases (hstores hs).1
  | none =>
    obtain ⟨-, houtcome, hmemory, -⟩ := hready.machine.step hunseen
    obtain ⟨hsettled, hevent⟩ := hready.settle hunseen
    refine ⟨hevent, ?_, hsettled, fun hs => ?_⟩
    · dsimp only
      rw [houtcome]
    · calc b.settle.1.machine.memory = b.machine.step.1.memory := memory_settle b
        _ = a.machine.step.1.memory := hmemory (hstores hs).2
        _ = a.settle.1.machine.memory := (memory_settle a).symm

theorem ApartFrom.after (h : s.ApartFrom x t) {n : Nat}
    (hlook : ∀ k < n, ¬(s.after k).machine.LooksAt x) :
    t.recorded n = s.recorded n ∧ (s.after n).ApartFrom x (t.after n) := by
  induction n generalizing s t with
  | zero => exact ⟨rfl, h⟩
  | succ n ih =>
    obtain ⟨-, hmade, hstep, -⟩ := h.step (hlook 0 (by omega))
    obtain ⟨hrecorded, hafter⟩ := ih hstep fun k hk => hlook (k + 1) (by omega)
    exact ⟨by rw [recorded_succ, recorded_succ, hmade, hrecorded], hafter⟩

theorem ApartFrom.run (h : s.ApartFrom x t) {n : Nat}
    (hlook : ∀ k < n, (s.run k).2 = none → ¬(s.run k).1.machine.LooksAt x) :
    (t.run n).2 = (s.run n).2 ∧ (s.run n).1.ApartFrom x (t.run n).1 := by
  induction n generalizing s t with
  | zero =>
    unfold Session.run
    rw [h.machine.stop]
    cases s.machine.stop <;> exact ⟨rfl, h⟩
  | succ n ih =>
    cases hstop : s.machine.stop with
    | some reason =>
      unfold Session.run
      rw [h.machine.stop, hstop]
      exact ⟨rfl, h⟩
    | none =>
      have hnow : s.run 0 = (s, none) := by rw [Session.run, hstop]
      have hunseen := hlook 0 (by omega)
      rw [hnow] at hunseen
      obtain ⟨hevent, -, hstep, -⟩ := h.step (hunseen rfl)
      have hlater (k : Nat) := run_succ s k hstop
      rw [run_succ s n hstop, run_succ t n (h.machine.stop.trans hstop)]
      generalize s.step = a at hevent hstep hlater ⊢
      generalize t.step = b at hevent hstep ⊢
      obtain ⟨a, e⟩ := a
      obtain ⟨b, e'⟩ := b
      obtain rfl : e' = e := hevent
      cases e' with
      | running =>
        apply ih hstep
        intro k hk
        have hk := hlook (k + 1) (by omega)
        rw [hlater] at hk
        exact hk
      | _ => exact ⟨rfl, hstep⟩

/-- A cell that is not looked at has no influence. Two sessions that differ in one cell take steps
of the same outcome, which make the same records, until a step looks at this cell, and they do not
differ any more once a step has stored into it. -/
theorem unseen_cell_irrelevant (x : Address) :
    (∀ s t : Session, s.ApartFrom x t → ¬s.machine.LooksAt x →
      t.step.2 = s.step.2 ∧ t.made = s.made ∧ s.step.1.ApartFrom x t.step.1 ∧
        (s.StoresInto x → t.step.1.machine.memory = s.step.1.machine.memory)) ∧
    (∀ (s t : Session) (n : Nat), s.ApartFrom x t →
      (∀ k < n, ¬(s.after k).machine.LooksAt x) →
        t.recorded n = s.recorded n ∧ (s.after n).ApartFrom x (t.after n)) ∧
    (∀ (s t : Session) (n : Nat), s.ApartFrom x t →
      (∀ k < n, (s.run k).2 = none → ¬(s.run k).1.machine.LooksAt x) →
        (t.run n).2 = (s.run n).2 ∧ (s.run n).1.ApartFrom x (t.run n).1) :=
  ⟨fun _ _ h hlook => h.step hlook, fun _ _ _ h hlook => h.after hlook,
    fun _ _ _ h hlook => h.run hlook⟩

def storingElsewhere (x : Address) : Session :=
  { storingAhead with machine := storingAhead.machine.withCell x 9 }

theorem storingAhead_unseen :
    (storingAhead.ApartFrom 100 (storingElsewhere 100) ∧ storingAhead.StoresInto 100 ∧
      ∀ k < 2, ¬(storingAhead.after k).machine.LooksAt 100) ∧
    ((storingElsewhere 100).step.2 = storingAhead.step.2 ∧
      (storingElsewhere 100).step.1.machine.memory = storingAhead.step.1.machine.memory) ∧
    (storingElsewhere 100).recorded 2 = storingAhead.recorded 2 ∧
    (((storingElsewhere 100).run 2).2 = none ∧
      (storingAhead.run 2).1.ApartFrom 100 ((storingElsewhere 100).run 2).1) := by
  obtain ⟨hsteps, hrecords, hruns⟩ := unseen_cell_irrelevant 100
  obtain ⟨hfirst, hsecond⟩ := storingAhead_decodes
  have hapart : storingAhead.ApartFrom 100 (storingElsewhere 100) := apartFrom_withCell _ _ _
  have hstores : storingAhead.StoresInto 100 := ⟨_, hfirst, rfl, by decide +kernel⟩
  have hunseen : ∀ k < 2, ¬(storingAhead.after k).machine.LooksAt 100 := by
    intro k hk
    obtain rfl | rfl : k = 0 ∨ k = 1 := by omega
    · change ¬storingAhead.machine.LooksAt 100
      rw [Machine.looksAt_iff_of_decode hfirst nofun]
      decide +kernel
    · rw [Machine.looksAt_iff_of_decode hsecond nofun]
      decide +kernel
  have hone : (storingAhead.run 1).1 = storingAhead.after 1 := by
    have hstep : storingAhead.step = (storingAhead.after 1, .running) :=
      Prod.ext rfl (by decide +kernel)
    rw [run_succ _ _ rfl, hstep]
    dsimp only
    unfold run
    split <;> rfl
  obtain ⟨hevent, -, -, hmemory⟩ := hsteps _ _ hapart (hunseen 0 (by decide))
  obtain ⟨hend, hsame⟩ := hruns _ _ 2 hapart fun k hk _ => by
    obtain rfl | rfl : k = 0 ∨ k = 1 := by omega
    · exact hunseen 0 hk
    · rw [hone]
      exact hunseen 1 hk
  exact ⟨⟨hapart, hstores, hunseen⟩, ⟨hevent, hmemory hstores⟩, (hrecords _ _ 2 hapart hunseen).1,
    hend.trans (by decide +kernel), hsame⟩

end Session

end WordMachine
