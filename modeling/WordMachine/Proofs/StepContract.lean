import WordMachine.Proofs.SessionStep

/-!
What a step promises. If it succeeds, the machine is the one of the instruction table. If it fails,
the report says what stopped it, and the machine is what it was but for a stack entry or a code that
the instruction had taken already.
-/
namespace WordMachine

namespace Objection

structure Bare (f : Fault) : Prop where
  pc : f.pc = none
  opcode : f.opcode = none
  kind : f.kind ≠ .valueOverflow ∧ f.kind ≠ .oversizedImage

theorem bare_of_kind {kind : FaultKind} {message : String} {operand : Option Int}
    (h : kind ≠ .valueOverflow ∧ kind ≠ .oversizedImage) : Bare { kind, message, operand } :=
  ⟨rfl, rfl, h⟩

theorem bare_noCell (x : Int) : Bare (noCell x) := bare_of_kind (by decide)

theorem bare_unknownOpcode (word : Int) : Bare (unknownOpcode word) := bare_of_kind (by decide)

theorem bare_of_objectIf {p : Prop} [Decidable p] {f g : Fault} (hf : Bare f)
    (h : objectIf p f = some g) : Bare g := by
  unfold objectIf at h
  split at h
  · cases h
    exact hf
  · contradiction

theorem mem_of_first {checks : List (Option Fault)} {f : Fault} (h : first checks = some f) :
    some f ∈ checks := by
  obtain ⟨c, hc, hf⟩ := List.exists_of_findSome?_eq_some h
  exact hf ▸ hc

theorem bare_of_mem_checks {m : Machine} {a b c : Int} {op : Opcode} {f : Fault}
    (h : some f ∈ m.checks a b c op) : Bare f := by
  have ofValue {w : Int} (hf : some f = value w) : Bare f :=
    bare_of_objectIf (bare_of_kind (by decide)) hf.symm
  have ofSource {x : Int} (hf : some f = source x) : Bare f :=
    bare_of_objectIf (bare_of_kind (by decide)) hf.symm
  have ofPlace {x : Int} (hf : some f = place x) : Bare f :=
    bare_of_objectIf (bare_of_kind (by decide)) hf.symm
  have ofTarget {x : Int} (hf : some f = target x) : Bare f :=
    bare_of_objectIf (bare_noCell x) hf.symm
  have ofRegister {x : Int} (hf : some f = register x) : Bare f :=
    bare_of_objectIf (bare_of_kind (by decide)) hf.symm
  have ofEntry {stack : List Int} {x : Int} (hf : some f = entry stack x) : Bare f :=
    bare_of_objectIf (bare_of_kind (by decide)) hf.symm
  have ofDivisor {x y : Int} (hf : some f = divisor x y) : Bare f :=
    bare_of_objectIf (bare_of_kind (by decide)) hf.symm
  cases op with
  | halt | noop => cases h
  | ret =>
    simp only [Machine.checks, Option.mem_toList, Option.map_eq_some_iff] at h
    obtain ⟨v, -, hf⟩ := h
    exact ofTarget hf.symm
  | jt | jf =>
    simp only [Machine.checks] at h
    split at h <;> simp only [List.mem_cons, List.not_mem_nil, or_false] at h <;> grind
  | _ =>
    simp only [Machine.checks, List.mem_cons, List.not_mem_nil, or_false] at h
    grind

end Objection

namespace Machine

open Objection

variable {m : Machine}

theorem Fails.bare {op : Option Opcode} {f : Fault} (h : m.Fails op f) : Bare f := by
  cases h with
  | outside | cutOff => exact bare_noCell _
  | noOpcode => exact bare_unknownOpcode _
  | refused _ hobj => exact bare_of_mem_checks (mem_of_first hobj)

theorem Fails.annotate {op : Option Opcode} {f : Fault} (h : m.Fails op f) (pc : Option Int)
    (opcode : Option String) : f.annotate pc opcode = { f with pc, opcode } := by
  obtain ⟨hpc, hopcode, -⟩ := h.bare
  simp only [Fault.annotate, hpc, hopcode]
  rfl

theorem fetches_withConsole {console : CharConsole} {op : Opcode} :
    { m with console }.Fetches op ↔ m.Fetches op :=
  ⟨fun h => ⟨h.inside, h.code, h.whole⟩, fun h => ⟨h.inside, h.code, h.whole⟩⟩

theorem afterLoss_withConsole (m : Machine) (console : CharConsole) :
    { m with console }.afterLoss =
      { m with
        stack := if m.LosesEntry then m.stack.tail else m.stack
        console := { console with
          queue := if m.LosesCode then console.queue.tail else console.queue } } := by
  have hentry : { m with console }.LosesEntry ↔ m.LosesEntry := by
    simp only [LosesEntry, fetches_withConsole]
    exact Iff.rfl
  have hcode : { m with console }.LosesCode ↔ m.LosesCode := by
    simp only [LosesCode, fetches_withConsole]
    exact Iff.rfl
  simp only [afterLoss, hentry, hcode]

theorem eq_of_muted {n : Machine} (h : n.muted = m.muted) :
    n = { m with console := { m.console with sink := n.console.sink } } := by
  obtain ⟨_, _, _, ⟨_, _, _⟩, _, _, _⟩ := m
  obtain ⟨_, _, _, ⟨_, _, _⟩, _, _, _⟩ := n
  simpa [muted] using h

theorem Awaits.losesCode (h : m.Awaits) {op : Option Opcode} {f : Fault} (hf : m.Fails op f) :
    m.LosesCode := by
  refine ⟨h.1, Decidable.byContradiction fun hle => ?_⟩
  have hobj := (h.1.fails_iff.mp hf).2
  simp [objection, checks, first, place, objectIf, hle] at hobj

theorem Awaits.not_losesEntry (h : m.Awaits) : ¬m.LosesEntry := by
  rintro (⟨hpop, -⟩ | ⟨hret, -⟩)
  · exact Opcode.noConfusion (h.1.unique hpop)
  · exact Opcode.noConfusion (h.1.unique hret)

end Machine

namespace Session

/-- Whoever is asked for a line leaves the machine alone meanwhile, up to prompts in its sink. -/
def AsksPlainly (s : Session) : Prop := s.readLine.1.machine.muted = s.machine.muted

theorem asksPlainly_of_direct {s : Session} (h : s.front = .absent ∨ s.front = .direct) :
    s.AsksPlainly := by
  unfold AsksPlainly readLine ask
  obtain h | h := h <;> rw [h]
  cases s.lines <;> rfl

/-- The console that an instruction finds: as it is or, if the instruction has to wait for it, with
the codes of the line that has been handed out. -/
def consoleFound (s : Session) : CharConsole :=
  if s.machine.Awaits then
    { s.machine.console with
      queue := match s.readLine.2 with
        | .ok line => lineBytes line
        | .error _ => []
      sink := s.readLine.1.machine.console.sink }
  else s.machine.console

theorem Serves.eq_withConsole {s : Session} {m : Machine} (h : s.Serves m)
    (hplain : s.AsksPlainly) : m = { s.machine with console := s.consoleFound } := by
  unfold consoleFound
  cases h with
  | ready hwait => rw [if_neg hwait]
  | @line t line hwait hread =>
    rw [AsksPlainly, hread] at hplain
    rw [if_pos hwait, hread, Machine.eq_of_muted hplain]
    simp [CharConsole.feed, hwait.2]

theorem exists_serves_iff (s : Session) :
    (∃ m, s.Serves m) ↔ (s.machine.Awaits → ∃ line, s.readLine.2 = .ok line) := by
  constructor
  · rintro ⟨m, hm⟩ hwait
    cases hm with
    | ready hready => exact absurd hwait hready
    | @line t line _ hread => exact ⟨line, by rw [hread]⟩
  · intro h
    by_cases hwait : s.machine.Awaits
    · obtain ⟨line, hline⟩ := h hwait
      exact ⟨_, .line (t := s.readLine.1) hwait (by rw [← hline])⟩
    · exact ⟨_, .ready hwait⟩

theorem witness_succeeds (s : Session) (r : TraceRecord) : (s.witness r).2.Succeeds := by
  rw [(witness_eq s r).2.2]
  exact Event.succeeds_ofStop _

theorem step_of_fails {s t : Session} (hw : s.machine.WellFormed) (ht : s.Serves t.machine)
    (hstep : s.step = t.settle) {op : Option Opcode} {f : Fault} (hf : s.machine.Fails op f) :
    s.step = ({ t with machine := t.machine.afterLoss },
      .failed { f with pc := some s.machine.pc, opcode := op.map Opcode.mnemonic }) := by
  have hpc : t.machine.pc = s.machine.pc := ht.attended.pc
  rw [hstep, settle_of_fails (ht.wellFormed hw) ht.not_awaits (ht.fails_iff.mpr hf), hf.annotate,
    hpc]

/-- A step finds no line, or something stops it, or its instruction is carried out. -/
theorem step_outcome {s : Session} (hw : s.machine.WellFormed) :
    (∃ t why, s.machine.Awaits ∧ s.readLine = (t, .error why) ∧ s.step = (t, .noInput why)) ∨
      (∃ (t : Session) (op : Option Opcode) (f : Fault), s.Serves t.machine ∧ t.told = s.told ∧
        s.machine.Fails op f ∧ s.step = ({ t with machine := t.machine.afterLoss },
          .failed { f with pc := some s.machine.pc, opcode := op.map Opcode.mnemonic })) ∨
      ∃ (t : Session) (op : Opcode), s.Serves t.machine ∧ t.traceTime = s.traceTime ∧
        s.machine.Fetches op ∧ s.step.2.Succeeds ∧
        s.step = { t with machine := t.machine.executed op }.witness (t.machine.recordOf op) := by
  obtain hnone | ⟨t, ht, htold, htime, hstep⟩ := step_cases hw
  · exact .inl hnone
  have hwt := ht.wellFormed hw
  obtain ⟨op, f, hf⟩ | ⟨op, hop, hobj⟩ := Machine.fails_or_passes hwt
  · have hfails := ht.fails_iff.mp hf
    exact .inr (.inl ⟨t, op, f, ht, htold, hfails, step_of_fails hw ht hstep hfails⟩)
  · rw [settle_of_passes hwt ht.not_awaits hop hobj] at hstep
    have hok : s.step.2.Succeeds := hstep ▸ witness_succeeds _ _
    exact .inr (.inr ⟨t, op, ht, htime, ht.fetches_iff.mp hop, hok, hstep⟩)

/-- A step that succeeds does what the instruction table says, and nothing else. An instruction that
has to ask for a line is carried out on the machine with this line; if what is traced goes where the
program writes, the sink shows the trace as well. -/
theorem step_follows_table (s : Session) (hw : s.machine.WellFormed) (hok : s.step.2.Succeeds) :
    ∃ op m, s.machine.Fetches op ∧ s.Serves m ∧
      s.step.1.machine.muted = (m.execute op (s.machine.wordAt 1) (s.machine.wordAt 2)
        (s.machine.wordAt 3)).muted ∧
      (s.traceTime = none → s.step.1.machine = m.execute op (s.machine.wordAt 1)
        (s.machine.wordAt 2) (s.machine.wordAt 3)) ∧
      s.step.2 = .ofStop s.step.1.machine.stop := by
  obtain ⟨t, why, -, -, hstep⟩ | ⟨t, op, f, -, -, -, hstep⟩ | ⟨t, op, ht, htime, hop, -, hstep⟩ :=
    step_outcome hw
  · rw [hstep] at hok
    exact hok.elim
  · rw [hstep] at hok
    exact hok.elim
  · obtain ⟨hmuted, hsame, hevent⟩ :=
      witness_eq { t with machine := t.machine.executed op } (t.machine.recordOf op)
    rw [hstep]
    simp only [← ht.wordAt_eq, ← htime]
    exact ⟨op, t.machine, hop, ht, hmuted, hsame, hevent⟩

/-- One instruction, which stores 7 under the number in the first register: the second register. -/
def storing : Session where
  machine :=
    { memory := ((Memory.empty.setCell 0 16).setCell 1 32768).setCell 2 7
      registers := Registers.zero.setNamed 32768 32769 }

theorem storing_follows_table :
    storing.machine.WellFormed ∧ storing.step.2.Succeeds ∧
      ∃ op m, storing.machine.Fetches op ∧ storing.Serves m ∧
        storing.step.1.machine = m.execute op 32768 7 0 := by
  have hw : storing.machine.WellFormed := ⟨by decide +kernel, by decide, by decide⟩
  have hok : storing.step.2.Succeeds := by decide +kernel
  obtain ⟨op, m, hop, hm, -, hsame, -⟩ := step_follows_table storing hw hok
  have ha : storing.machine.wordAt 1 = 32768 := by decide +kernel
  have hb : storing.machine.wordAt 2 = 7 := by decide +kernel
  have hc : storing.machine.wordAt 3 = 0 := by decide +kernel
  rw [ha, hb, hc] at hsame
  exact ⟨hw, hok, op, m, hop, hm, hsame rfl⟩

theorem step_eq_failed_iff {s : Session} (hw : s.machine.WellFormed) {f : Fault} :
    s.step.2 = .failed f ↔ ∃ op g, s.machine.Fails op g ∧
      (s.machine.Awaits → ∃ line, s.readLine.2 = .ok line) ∧
      f = { g with pc := some s.machine.pc, opcode := op.map Opcode.mnemonic } := by
  constructor
  · intro h
    obtain ⟨t, why, -, -, hstep⟩ | ⟨t, op, g, ht, -, hg, hstep⟩ | ⟨-, -, -, -, -, hok, -⟩ :=
      step_outcome hw
    · rw [hstep] at h
      contradiction
    · rw [hstep] at h
      cases h
      exact ⟨op, g, hg, (exists_serves_iff s).mp ⟨_, ht⟩, rfl⟩
    · rw [h] at hok
      exact hok.elim
  · rintro ⟨op, g, hg, hline, rfl⟩
    obtain ⟨t, why, hwait, hread, -⟩ | ⟨t, ht, -, -, hstep⟩ := step_cases hw
    · obtain ⟨line, hline⟩ := hline hwait
      rw [hread] at hline
      contradiction
    · rw [step_of_fails hw ht hstep hg]

theorem step_eq_noInput_iff {s : Session} (hw : s.machine.WellFormed) {why : NoInput} :
    s.step.2 = .noInput why ↔ s.machine.Awaits ∧ s.readLine.2 = .error why := by
  constructor
  · intro h
    obtain ⟨t, why, hwait, hread, hstep⟩ | ⟨t, op, g, -, -, -, hstep⟩ | ⟨-, -, -, -, -, hok, -⟩ :=
      step_outcome hw
    · rw [hstep] at h
      cases h
      exact ⟨hwait, by rw [hread]⟩
    · rw [hstep] at h
      contradiction
    · rw [h] at hok
      exact hok.elim
  · rintro ⟨hwait, hread⟩
    have hread' : s.readLine = (s.readLine.1, .error why) := by rw [← hread]
    rw [step_of_awaits hwait, hread']

theorem step_ne_unreported {s : Session} (hw : s.machine.WellFormed) : s.step.2 ≠ .unreported := by
  obtain ⟨t, why, -, -, hstep⟩ | ⟨t, op, g, -, -, -, hstep⟩ | ⟨-, -, -, -, -, hok, -⟩ :=
    step_outcome hw
  · rw [hstep]
    exact Event.noConfusion
  · rw [hstep]
    exact Event.noConfusion
  · intro h
    rw [h] at hok
    exact hok.elim

/-- What stops a step is reported with the place of execution, unless the step has found no line
already. There is no other failure. -/
theorem step_failed_iff (s : Session) (hw : s.machine.WellFormed) :
    (∀ f, s.step.2 = .failed f ↔ ∃ op g, s.machine.Fails op g ∧
      (s.machine.Awaits → ∃ line, s.readLine.2 = .ok line) ∧
      f = { g with pc := some s.machine.pc, opcode := op.map Opcode.mnemonic }) ∧
    (∀ f, s.step.2 = .failed f → f.kind ≠ .valueOverflow ∧ f.kind ≠ .oversizedImage) ∧
    (∀ why, s.step.2 = .noInput why ↔ s.machine.Awaits ∧ s.readLine.2 = .error why) ∧
    s.step.2 ≠ .unreported := by
  refine ⟨fun f => step_eq_failed_iff hw, fun f hf => ?_, fun why => step_eq_noInput_iff hw,
    step_ne_unreported hw⟩
  obtain ⟨op, g, hg, -, rfl⟩ := (step_eq_failed_iff hw).mp hf
  exact hg.bare.kind

def missetting : Session where
  machine := { memory := ((Memory.empty.setCell 0 1).setCell 1 5).setCell 2 65535 }

theorem missetting_fails :
    missetting.machine.WellFormed ∧
      missetting.step.2 = .failed
        { kind := .invalidRegisterTarget
          message := "Invalid register target in set (5)"
          operand := some 5
          pc := some 0
          opcode := some "set" } := by
  have hw : missetting.machine.WellFormed := ⟨by decide +kernel, by decide, by decide⟩
  have hop : missetting.machine.Fetches .set := by decide +kernel
  have hobj : missetting.machine.objection .set = some
      { kind := .invalidRegisterTarget
        message := "Invalid register target in set (5)"
        operand := some 5 } := by decide +kernel
  have hready : ¬missetting.machine.Awaits := by decide +kernel
  exact ⟨hw, ((step_failed_iff missetting hw).1 _).mpr
    ⟨some .set, _, .refused hop hobj, fun hwait => absurd hwait hready, rfl⟩⟩

/-- A step that fails has changed nothing but the stack and the queue, from which only three
instructions take something that they then have no use for. If there was no line, nothing has
changed. -/
theorem failed_step_keeps_machine (s : Session) (hw : s.machine.WellFormed)
    (hplain : s.AsksPlainly) (hfail : ¬s.step.2.Succeeds) :
    s.step.1.machine = { s.machine with
      stack := if s.machine.LosesEntry then s.machine.stack.tail else s.machine.stack
      console := { s.machine.console with
        queue := if s.machine.LosesCode then s.consoleFound.queue.tail else s.machine.console.queue
        sink := s.consoleFound.sink } } ∧
    s.step.1.told = s.told ∧
    (∀ why, s.step.2 = .noInput why → s.step.1.machine.muted = s.machine.muted) := by
  obtain ⟨t, why, hwait, hread, hstep⟩ | ⟨t, op, g, ht, htold, hg, hstep⟩ |
    ⟨-, -, -, -, -, hok, -⟩ := step_outcome hw
  · have hattended := Attended.readLine s
    rw [hread] at hattended
    rw [AsksPlainly, hread] at hplain
    rw [hstep]
    refine ⟨?_, hattended.told, fun _ _ => hplain⟩
    rw [if_neg hwait.not_losesEntry, Machine.eq_of_muted hplain]
    simp [consoleFound, hwait, hwait.2, hread]
  · rw [hstep]
    refine ⟨?_, htold, fun why h => by contradiction⟩
    rw [ht.eq_withConsole hplain, Machine.afterLoss_withConsole]
    by_cases hwait : s.machine.Awaits
    · simp [consoleFound, hwait, hwait.losesCode hg]
    · simp [consoleFound, hwait]
  · exact absurd hok hfail

def misreading : Session where
  machine := { memory := (Memory.empty.setCell 0 20).setCell 1 65535 }
  front := .direct
  lines := ["A"]

theorem misreading_keeps_machine :
    misreading.machine.WellFormed ∧ misreading.AsksPlainly ∧ ¬misreading.step.2.Succeeds ∧
      misreading.step.1.machine = misreading.machine.withQueue [10] := by
  have hw : misreading.machine.WellFormed := ⟨by decide +kernel, by decide, by decide⟩
  have hplain : misreading.AsksPlainly := asksPlainly_of_direct (.inr rfl)
  have hfail : ¬misreading.step.2.Succeeds := by decide +kernel
  have hentry : ¬misreading.machine.LosesEntry := by decide +kernel
  have hcode : misreading.machine.LosesCode := by decide +kernel
  have hfound : misreading.consoleFound = { queue := [65, 10] } := by decide +kernel
  have hmachine := (failed_step_keeps_machine misreading hw hplain hfail).1
  rw [if_neg hentry, if_pos hcode, hfound] at hmachine
  exact ⟨hw, hplain, hfail, hmachine⟩

end Session

end WordMachine
