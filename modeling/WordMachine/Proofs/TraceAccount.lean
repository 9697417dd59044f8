import WordMachine.Proofs.Recorded

/-!
What a trace tells of a run. Each record says where the machine goes on, so the records of a run
form a chain from the first program counter to the last one. The bytes that have been written and
the codes that have been read can be told from the records as well.
-/
namespace WordMachine

namespace TraceRecord

def opcode? (r : TraceRecord) : Option Opcode := Opcode.ofMnemonic? r.mnemonic

/-- Where a record says that the machine goes on: jumps show it as their last value, a return that
has nowhere to go and a halt stay where they are, and all others go on behind themselves. -/
def next? (r : TraceRecord) : Option Int :=
  match r.opcode? with
  | none => none
  | some .jmp | some .jt | some .jf | some .call => r.values.getLast?
  | some .ret => some (r.values.getLastD r.pc)
  | some .halt => some r.pc
  | some _ => some (r.pc + 1 + r.operands.length)

def Halts (r : TraceRecord) : Prop :=
  r.opcode? = some .halt ∨ r.opcode? = some .ret ∧ r.values = []

/-- The byte that a record says has been written. -/
def written? (r : TraceRecord) : Option UInt8 :=
  if r.opcode? = some .out then r.values.head?.map fun code => .ofNat (code % 256).toNat else none

/-- The codes that a record says have been read. -/
def codes (r : TraceRecord) : List Int := if r.opcode? = some .in then r.values else []

/-- Records that lead from one program counter to another, each to where the next one begins. -/
inductive Chain : Int → List TraceRecord → Int → Prop where
  | nil {pc : Int} : Chain pc [] pc
  | cons {r : TraceRecord} {next last : Int} {rest : List TraceRecord} : r.next? = some next →
      Chain next rest last → Chain r.pc (r :: rest) last

theorem Chain.append {a b c : Int} {rs ts : List TraceRecord} (h : Chain a rs b)
    (h' : Chain b ts c) : Chain a (rs ++ ts) c := by
  induction h with
  | nil => exact h'
  | cons hnext _ ih => exact .cons hnext (ih h')

end TraceRecord

namespace Instruction

variable {m : Machine} {i : Instruction} {e : Effect}

theorem opcode?_record (i : Instruction) (pc : Int) (values : List Int) :
    (i.record pc values).opcode? = some i.opcode :=
  Opcode.ofMnemonic?_mnemonic i.opcode

theorem Plans.next (h : i.Plans m e) : (i.record m.pc e.values).next? = some e.pc := by
  rw [TraceRecord.next?, opcode?_record]
  cases h with
  | keeps hkeeps =>
    have hsize : (i.size : Int) = 1 + i.operands.length := by
      rw [length_operands, size, Opcode.size]
      omega
    have hbehind : some (m.pc + 1 + (i.operands.length : Int)) = some (m.pc + i.size) := by
      rw [hsize, Int.add_assoc]
    cases hkeeps with
    | @binary op => cases op <;> exact hbehind
    | _ => exact hbehind
  | @branch onZero => cases onZero <;> rfl
  | push | pop | out | input =>
    have hbehind : m.pc + 1 + 1 = m.pc + 2 := Int.add_assoc m.pc 1 1
    exact congrArg some hbehind
  | noop => exact congrArg some (Int.add_zero (m.pc + 1))
  | halt | jump | call | bottom | ret => rfl

theorem Plans.halts (h : i.Plans m e) (hr : (i.record m.pc e.values).Halts) :
    e.stop.isSome = true := by
  rw [TraceRecord.Halts, opcode?_record] at hr
  cases h with
  | halt | bottom => rfl
  | keeps hkeeps =>
    cases hkeeps with
    | @binary op => cases op <;> simp [opcode, BinaryOp.opcode] at hr
    | _ => simp [opcode] at hr
  | @branch onZero => cases onZero <;> simp [opcode] at hr
  | _ => simp [opcode, record, Effect.goto] at hr

theorem Plans.written (h : i.Plans m e) :
    (i.record m.pc e.values).written? = e.written.map CharConsole.lowByte := by
  rw [TraceRecord.written?, opcode?_record]
  cases h with
  | keeps hkeeps =>
    cases hkeeps with
    | @binary op => cases op <;> rfl
    | _ => rfl
  | @branch onZero => cases onZero <;> rfl
  | _ => rfl

theorem Plans.codes_of_not_input (h : i.Plans m e) (hi : ∀ a, i ≠ .input a) :
    (i.record m.pc e.values).codes = [] := by
  rw [TraceRecord.codes, opcode?_record]
  cases h with
  | keeps hkeeps =>
    cases hkeeps with
    | @binary op => cases op <;> rfl
    | _ => rfl
  | @branch onZero => cases onZero <;> rfl
  | @input a => exact absurd rfl (hi a)
  | _ => rfl

end Instruction

namespace Machine

variable {m n : Machine} {e : Effect}

theorem putAll_console (m : Machine) (d : Option (Place × Word)) :
    (m.putAll d).console = m.console := by
  rcases d with _ | ⟨_ | _, _⟩ <;> rfl

theorem putAll_steps (m : Machine) (d : Option (Place × Word)) :
    (m.putAll d).steps = m.steps := by
  rcases d with _ | ⟨_ | _, _⟩ <;> rfl

theorem perform_steps (m : Machine) (e : Effect) : (m.perform e).steps = m.steps + 1 :=
  congrArg (· + 1) (m.putAll_steps e.store)

theorem perform_console (m : Machine) (e : Effect) :
    (m.perform e).console = writeOut { m.console with queue := e.queue } e.written :=
  congrArg (fun c : CharConsole => writeOut { c with queue := e.queue } e.written)
    (m.putAll_console e.store)

theorem perform_queue (m : Machine) (e : Effect) : (m.perform e).console.queue = e.queue := by
  rw [perform_console]
  cases e.written <;> rfl

theorem perform_output (m : Machine) (e : Effect) :
    (m.perform e).console.output.toList =
      m.console.output.toList ++ (e.written.map CharConsole.lowByte).toList := by
  rw [perform_console]
  cases e.written with
  | none => simp [writeOut]
  | some v => simp [writeOut, CharConsole.emit]

theorem held_keep {x v : Int} (hx : 0 ≤ x ∧ x ≤ 32775) (hv : IsWord v) :
    (m.keep x v).held x = v := by
  rw [held, keep]
  by_cases hcell : x ≤ 32767
  · rw [if_pos hcell, Memory.cell_ofCells ⟨hx.1, by omega⟩ (by rwa [if_pos rfl]), if_pos rfl]
  · rw [if_neg hcell, Registers.named_ofNamed ⟨by omega, hx.2⟩, if_pos rfl]

theorem held_perform {x v : Int} {d : Place × Word} (hv : IsWord v)
    (hd : destination x v = .ok d) (he : e.store = some d) : (m.perform e).held x = v := by
  have hx : 0 ≤ x ∧ x ≤ 32775 := by
    refine Decidable.byContradiction fun hx => ?_
    rw [destination_of_not_place hx] at hd
    contradiction
  obtain ⟨d', hd', hput⟩ := destination_eq (m := m) hx.1 hx.2 hv
  obtain rfl := Except.ok.inj (hd.symm.trans hd')
  calc (m.perform e).held x = (m.putAll e.store).held x := rfl
    _ = (m.keep x v).held x := by rw [he, hput]
    _ = v := held_keep hx hv

end Machine

namespace Session

variable {s : Session} {r : TraceRecord}

/-- The code that a step stores, as it stands afterwards where it has been put. Only an input
instruction that succeeds stores one. -/
def storedCode? (s : Session) : Option Int :=
  match Instruction.decode s.machine.memory s.machine.pc with
  | .ok (.input a) => if s.step.2.Succeeds then some (s.step.1.machine.held a) else none
  | _ => none

theorem storedCode?_of_not_succeeds (h : ¬s.step.2.Succeeds) : s.storedCode? = none := by
  unfold storedCode?
  split
  · rw [if_neg h]
  · rfl

theorem codes_record {m : Machine} {i : Instruction} {e : Effect} (hdecode : s.Decodes i)
    (hplans : i.Plans m e) (hok : s.step.2.Succeeds)
    (hmuted : s.step.1.machine.muted = (m.perform e).muted) :
    (i.record m.pc e.values).codes = s.storedCode?.toList := by
  by_cases hinput : ∃ a, i = .input a
  · obtain ⟨a, rfl⟩ := hinput
    cases hplans with
    | keeps hkeeps => cases hkeeps
    | @input _ code _ d _ hd =>
      have hcode : IsWord code.toNat := by
        have := code.toNat_lt
        omega
      have hheld : s.step.1.machine.held a = code.toNat :=
        (congrArg (Machine.held · a) hmuted).trans (Machine.held_perform hcode hd rfl)
      unfold storedCode?
      rw [hdecode]
      simp only [if_pos hok, hheld]
      rfl
  · have hnot : ∀ a, i ≠ .input a := fun a ha => hinput ⟨a, ha⟩
    rw [hplans.codes_of_not_input hnot, storedCode?, hdecode]
    cases i with
    | input a => exact absurd rfl (hnot a)
    | _ => rfl

/-- A record that tells the truth about a step. -/
structure Accounts (s : Session) (r : TraceRecord) : Prop where
  /-- The step shows the record, and no other one, to whoever observes the session. -/
  shown : ∃ t : Session, t.told = s.told ∧ s.step = t.witness r
  pc : r.pc = s.machine.pc
  decoded : ∃ i, s.Decodes i ∧ r.mnemonic = i.mnemonic ∧ r.operands = i.operands
  next : r.next? = some s.step.1.machine.pc
  halts : r.Halts → s.step.1.machine.halted = true
  steps : s.step.1.machine.steps = s.machine.steps + 1
  output : s.step.1.machine.console.output.toList =
    s.machine.console.output.toList ++ r.written?.toList
  codes : r.codes = s.storedCode?.toList

theorem accounts_of_made (h : s.made = some r) : s.Accounts r := by
  have hok : s.step.2.Succeeds := (isSome_made_iff s).mp (by rw [h]; rfl)
  obtain ⟨hattended, htold⟩ := attended_ready s
  obtain ⟨i, e, hdecode, hplans, rfl, hstep⟩ := step_of_made h
  generalize s.ready.1 = t at hattended htold hplans hstep
  have hpc : t.machine.pc = s.machine.pc := hattended.pc
  have hmuted : s.step.1.machine.muted = (t.machine.perform e).muted := by
    rw [hstep]
    exact (witness_eq _ _).1
  rw [← hpc] at hstep ⊢
  exact
    { shown := ⟨{ t with machine := t.machine.perform e }, htold, hstep⟩
      pc := hpc
      decoded := ⟨i, hdecode, rfl, rfl⟩
      next := hplans.next.trans (congrArg some (congrArg Machine.pc hmuted).symm)
      halts := fun hr => (congrArg Machine.halted hmuted).trans (hplans.halts hr)
      steps := by
        have hsteps := congrArg Machine.steps hmuted
        have hsame : t.machine.steps = s.machine.steps := hattended.steps
        rw [← hsame, ← Machine.perform_steps t.machine e]
        exact hsteps
      output := by
        have houtput := congrArg (fun m : Machine => m.console.output.toList) hmuted
        have hsame : t.machine.console.output = s.machine.console.output := hattended.output
        rw [← hsame, hplans.written, ← Machine.perform_output]
        exact houtput
      codes := codes_record hdecode hplans hok hmuted }

/-- Records that tell how one session has become another one, and which codes have been stored
meanwhile. -/
structure Tells (s t : Session) (rs : List TraceRecord) (codes : List Int) : Prop where
  steps : t.machine.steps = s.machine.steps + rs.length
  chain : TraceRecord.Chain s.machine.pc rs t.machine.pc
  output : t.machine.console.output.toList =
    s.machine.console.output.toList ++ rs.filterMap TraceRecord.written?
  codes : rs.flatMap TraceRecord.codes = codes

namespace Tells

theorem refl (s : Session) : s.Tells s [] [] := ⟨rfl, .nil, by simp, rfl⟩

theorem trans {t u : Session} {rs ts : List TraceRecord} {cs ds : List Int}
    (h : s.Tells t rs cs) (h' : t.Tells u ts ds) : s.Tells u (rs ++ ts) (cs ++ ds) where
  steps := by rw [h'.steps, h.steps, List.length_append, Nat.add_assoc]
  chain := h.chain.append h'.chain
  output := by rw [h'.output, h.output, List.filterMap_append, List.append_assoc]
  codes := by rw [List.flatMap_append, h.codes, h'.codes]

/-- A step is told by the record that it makes, if it makes one. -/
theorem step (s : Session) : s.Tells s.step.1 s.made.toList s.storedCode?.toList := by
  cases hmade : s.made with
  | none =>
    obtain ⟨hfails, -, -, hpc, hsteps, houtput⟩ := step_of_not_made hmade
    rw [storedCode?_of_not_succeeds hfails]
    refine ⟨hsteps, ?_, by simp [houtput], rfl⟩
    rw [hpc]
    exact .nil
  | some r =>
    have h := accounts_of_made hmade
    refine ⟨h.steps, ?_, ?_, ?_⟩
    · rw [← h.pc]
      exact .cons h.next .nil
    · rw [h.output]
      cases hr : r.written? <;> simp [hr]
    · simpa using h.codes

theorem after (s : Session) (n : Nat) :
    s.Tells (s.after n) (s.recorded n) (s.gathered storedCode? n) := by
  induction n generalizing s with
  | zero => exact refl s
  | succ n ih => exact (step s).trans (ih s.step.1)

end Tells

/-- The trace is a faithful account of what has been executed. Each step that succeeds makes one
record, which tells the truth about it, and no other step makes any; a recorder keeps these records
in order, and they tell where the machine is after all the steps and what has been written and
read. -/
theorem trace_accounts_for_run :
    (∀ (s : Session) (history : List Action), (∀ action ∈ history, action.Executes) →
      ∃ n, s.performAll history = s.after n) ∧
    ∀ (s : Session) (n : Nat),
      (∀ k < n,
        ((s.after k).made.isSome ↔ (s.after k).step.2.Succeeds) ∧
        (∀ r, (s.after k).made = some r → (s.after k).Accounts r) ∧
        ((s.after k).made = none → (s.after k).step.1.told = (s.after k).told)) ∧
      (∀ seen, s.observer = .recorder seen →
        (s.after n).observer = .recorder (seen ++ (s.recorded n).toArray)) ∧
      s.Tells (s.after n) (s.recorded n) (s.gathered storedCode? n) := by
  refine ⟨performAll_eq_after, fun s n => ⟨fun k _ => ?_, fun seen hseen => ?_, .after s n⟩⟩
  · refine ⟨isSome_made_iff _, fun r => accounts_of_made, fun hnone => ?_⟩
    exact (step_of_not_made hnone).2.1
  · exact observer_after hseen n

def echoing : Session where
  machine :=
    { memory := ((((Memory.empty.setCell 0 20).setCell 1 32768).setCell 2 19).setCell 3
        32768).setCell 4 0 }
  front := .direct
  lines := ["A"]
  observer := .recorder #[]

theorem echoing_accounted_for :
    (∃ n, echoing.performAll [.step, .run 5] = echoing.after n) ∧
    echoing.recorded 3 =
      [⟨0, "in", [32768], [65]⟩, ⟨2, "out", [32768], [65]⟩, ⟨4, "halt", [], []⟩] ∧
    echoing.Accounts ⟨0, "in", [32768], [65]⟩ ∧
    (echoing.after 3).observer = .recorder (#[] ++ (echoing.recorded 3).toArray) ∧
    echoing.Tells (echoing.after 3) (echoing.recorded 3) [65] := by
  obtain ⟨hhistory, hruns⟩ := trace_accounts_for_run
  obtain ⟨hsteps, hrecorder, htells⟩ := hruns echoing 3
  have hmade : echoing.made = some ⟨0, "in", [32768], [65]⟩ := by decide +kernel
  have hcodes : echoing.gathered storedCode? 3 = [65] := by decide +kernel
  refine ⟨hhistory _ _ (by simp [Action.Executes]), by decide +kernel, ?_, hrecorder _ rfl, ?_⟩
  · exact (hsteps 0 (by decide)).2.1 _ hmade
  · rw [← hcodes]
    exact htells

end Session

end WordMachine
