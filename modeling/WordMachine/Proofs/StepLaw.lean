import WordMachine.Proofs.Operands

/-!
The law of a step: it goes through the checks of the instruction at the program counter and, if none
of them objects, does what the instruction table says.
-/
namespace WordMachine

namespace Instruction

def make (a b c : Int) : Opcode → Instruction
  | .halt => .halt
  | .set => .set a b
  | .push => .push a
  | .pop => .pop a
  | .eq => .binary .eq a b c
  | .gt => .binary .gt a b c
  | .jmp => .jump a
  | .jt => .branch false a b
  | .jf => .branch true a b
  | .add => .binary .add a b c
  | .mult => .binary .mult a b c
  | .mod => .binary .mod a b c
  | .and => .binary .and a b c
  | .or => .binary .or a b c
  | .not => .not a b
  | .rmem => .rmem a b
  | .wmem => .wmem a b
  | .call => .call a
  | .ret => .ret
  | .out => .out a
  | .in => .input a
  | .noop => .noop

theorem opcode_make (a b c : Int) (op : Opcode) : (make a b c op).opcode = op := by
  cases op <;> rfl

theorem operands_make (a b c : Int) (op : Opcode) :
    (make a b c op).operands = [a, b, c].take op.arity := by
  cases op <;> rfl

theorem ofOperands_ofFn (op : Opcode) (f : Nat → Int) :
    ofOperands op (.ofFn fun k => f k) = make (f 0) (f 1) (f 2) op := by
  cases op <;> rfl

section Reading

variable {m : Memory} {pc : Int}

theorem readOperands_whole (h0 : 0 ≤ pc) (op : Opcode) (h : pc + op.arity ≤ 32767) :
    readOperands m pc op =
      .ok (make (m.cell (pc + 1)) (m.cell (pc + 2)) (m.cell (pc + 3)) op) := by
  have hmake := ofOperands_ofFn op fun k => m.cell (pc + 1 + k)
  simp only [Int.add_assoc] at hmake
  rw [readOperands, m.readRun_cells (by omega) (by omega)]
  simp only [Int.add_assoc]
  exact congrArg Except.ok hmake

theorem readOperands_cutOff (h0 : 0 ≤ pc) (hpc : pc ≤ 32767) (op : Opcode)
    (h : 32767 < pc + op.arity) : readOperands m pc op = .error (.noSuchCell 32768) := by
  rw [readOperands, m.readRun_cutOff (by omega) (by omega) (by omega)]
  rfl

end Reading

end Instruction

theorem CharConsole.emit_eq (c : CharConsole) (code : Int) :
    c.emit code = c.extended (code % 256) := by
  unfold emit extended Sink.put
  simp only [toNat_lowByte, lowByte_eq_ten]
  rfl

namespace Machine

open Objection

/-- A plan fits some checks: it fails with the report of the first that objects, and if none does it
leads to a given machine and shows given numbers. -/
def Fits (m : Machine) (plan : Except Cause (Option Effect)) (checks : List (Option Fault))
    (after : Machine) (shown : List Int) : Prop :=
  match first checks with
  | some f => ∃ c, plan = .error c ∧ c.report? = some f
  | none => ∃ e, plan = .ok (some e) ∧ m.perform e = after ∧ e.values = shown

namespace Fits

variable {m after : Machine} {rest : List (Option Fault)} {shown : List Int}

theorem done {e : Effect} (hn : m.perform e = after) (hs : e.values = shown) :
    m.Fits (pure (some e)) [] after shown :=
  ⟨e, rfl, hn, hs⟩

theorem refuse {c : Cause} (hc : ∀ x ∈ c.shown, IsWord x) :
    m.Fits (.error c) (some c.fault :: rest) after shown :=
  ⟨c, rfl, Cause.report?_of_shown hc⟩

theorem failed {plan : Except Cause (Option Effect)} {checks : List (Option Fault)} {f : Fault}
    (h : m.Fits plan checks after shown) (hf : first checks = some f) :
    ∃ c, plan = .error c ∧ c.report? = some f := by
  simpa only [Fits, hf] using h

theorem carriedOut {plan : Except Cause (Option Effect)} {checks : List (Option Fault)}
    (h : m.Fits plan checks after shown) (hf : first checks = none) :
    ∃ e, plan = .ok (some e) ∧ m.perform e = after ∧ e.values = shown := by
  simpa only [Fits, hf] using h

theorem pass {plan : Except Cause (Option Effect)} (h : m.Fits plan rest after shown) :
    m.Fits plan (none :: rest) after shown :=
  h

theorem value {x : Int} {k : Int → Except Cause (Option Effect)} (hx : IsWord x)
    (h : x ≤ 32775 → m.Fits (k (m.val x)) rest after shown) :
    m.Fits (m.valueOf x >>= k) (Objection.value x :: rest) after shown := by
  unfold Objection.value objectIf
  split
  next hgt =>
    rw [valueOf_of_gt hgt]
    exact refuse (c := .notANumber x) (by simpa [Cause.shown] using hx)
  next hle =>
    rw [valueOf_eq hx.1 (by omega)]
    exact pass (h (by omega))

theorem source {x : Int} {k : Int → Except Cause (Option Effect)} (hx : IsWord x)
    (h : x ≤ 32775 → m.Fits (k (m.held x)) rest after shown) :
    m.Fits (m.load x >>= k) (Objection.source x :: rest) after shown := by
  unfold Objection.source objectIf
  split
  next hgt =>
    rw [load_of_gt hgt]
    exact refuse (c := .unreadable x) (by simpa [Cause.shown] using hx)
  next hle =>
    rw [load_eq hx.1 (by omega)]
    exact pass (h (by omega))

theorem place {x v : Int} {k : Place × Word → Except Cause (Option Effect)} (hx : IsWord x)
    (hv : IsWord v)
    (h : ∀ d, m.putAll (some d) = m.keep x v → m.Fits (k d) rest after shown) :
    m.Fits (Machine.destination x v >>= k) (Objection.place x :: rest) after shown := by
  unfold Objection.place objectIf
  split
  next hgt =>
    rw [destination_of_not_place (by omega)]
    exact refuse (c := .unwritable x) (by simpa [Cause.shown] using hx)
  next hle =>
    obtain ⟨d, hd, hput⟩ := destination_eq (m := m) hx.1 (by omega) hv
    rw [hd]
    exact pass (h d hput)

theorem target {x : Int} {k : Address → Except Cause (Option Effect)} (hx : IsWord x)
    (h : ∀ i, m.Fits (k i) rest after shown) :
    m.Fits (checkAddress x >>= k) (Objection.target x :: rest) after shown := by
  unfold Objection.target objectIf
  split
  next hgt =>
    rw [checkAddress_of_gt hgt]
    exact refuse (c := .noSuchCell x) (by simpa [Cause.shown] using hx)
  next hle =>
    obtain ⟨i, hi⟩ := checkAddress_eq hx.1 (by omega)
    rw [hi]
    exact pass (h i)

theorem jump (hw : m.WellFormed) {x : Int} {k : Int → Except Cause (Option Effect)}
    (hx : IsWord x) (h : m.Fits (k (m.val x)) rest after shown) :
    m.Fits (m.jumpTarget x >>= k) (Objection.value x :: Objection.target (m.val x) :: rest) after
      shown := by
  rw [jumpTarget_eq, bind_assoc]
  refine value hx fun _ => ?_
  rw [bind_assoc]
  exact target (hw.val hx.1) fun _ => h

end Fits

theorem perform_store {m : Machine} {x v pc : Int} {values : List Int} {d : Place × Word}
    (h : m.putAll (some d) = m.keep x v) :
    m.perform { Effect.goto m pc values with store := some d } =
      { m.keep x v with pc, steps := m.steps + 1 } := by
  unfold perform
  simp only [Effect.goto, h, writeOut, keep_steps]
  rw [keep]

theorem perform_written {m : Machine} {pc : Int} {values : List Int} (v : Int) :
    m.perform { Effect.goto m pc values with written := some v } =
      { m with console := m.console.extended (v % 256), pc, steps := m.steps + 1 } := by
  rw [← CharConsole.emit_eq]
  rfl

theorem fits_set {m : Machine} (hw : m.WellFormed) {a b : Int} (ha : IsWord a) (hb : IsWord b) :
    m.Fits ((Instruction.set a b).plan m) [register a, value b]
      { m.keep a (m.val b) with pc := m.pc + 3, steps := m.steps + 1 } [m.val b] := by
  rw [Instruction.plan]
  unfold Objection.register objectIf
  by_cases hr : IsRegister a
  · rw [if_pos hr, if_neg (fun h => h hr)]
    refine .pass (.value hb fun _ => ?_)
    obtain ⟨d, hd, hput⟩ := destination_eq (m := m) ha.1 (by omega) (hw.val hb.1)
    rw [hd]
    exact .done (perform_store hput) rfl
  · rw [if_neg hr, if_pos hr]
    exact .refuse (c := .setTarget a) (by simpa [Cause.shown] using ha)

theorem fits_pop {m : Machine} (hw : m.WellFormed) {a b c : Int} (ha : IsWord a) :
    m.Fits ((Instruction.pop a).plan m) [entry m.stack a, place a] (m.execute .pop a b c)
      m.stack.head?.toList := by
  rw [Instruction.plan]
  unfold Objection.entry objectIf
  cases hs : m.stack with
  | nil => exact .refuse (c := .emptyStack a) (by simp [Cause.shown])
  | cons v rest =>
    have hv : IsWord v := hw.stack v (hs ▸ List.mem_cons_self)
    refine .pass (.place ha hv fun d hd => .done ?_ rfl)
    simp [perform, execute, effect, next, Effect.goto, hs, hd, writeOut, Opcode.size, Opcode.arity]

theorem fits_binary {m : Machine} {op : BinaryOp} {a b c z : Int} (ha : IsWord a) (hb : IsWord b)
    (hc : IsWord c) (happly : op.apply (m.val b) (m.val c) = .ok z) (hz : IsWord z) :
    m.Fits ((Instruction.binary op a b c).plan m) [value b, value c, place a]
      { m.keep a z with pc := m.pc + 4, steps := m.steps + 1 } [m.val b, m.val c] := by
  rw [Instruction.plan]
  refine .value hb fun _ => .value hc fun _ => ?_
  rw [happly]
  exact .place ha hz fun d hd => .done (perform_store hd) rfl

theorem fits_mod {m : Machine} (hw : m.WellFormed) {a b c : Int} (ha : IsWord a) (hb : IsWord b)
    (hc : IsWord c) :
    m.Fits ((Instruction.binary .mod a b c).plan m)
      [value b, value c, divisor (m.val b) (m.val c), place a]
      { m.keep a (m.val b % m.val c) with pc := m.pc + 4, steps := m.steps + 1 }
      [m.val b, m.val c] := by
  rw [Instruction.plan]
  refine .value hb fun _ => .value hc fun _ => ?_
  unfold Objection.divisor objectIf
  split
  next hzero =>
    rw [BinaryOp.apply, if_pos hzero]
    exact .refuse (c := .zeroDivisor (m.val b)) (by simpa [Cause.shown] using hw.val hb.1)
  next hzero =>
    obtain ⟨happly, hz⟩ := BinaryOp.apply_mod (x := m.val b) (hw.val hc.1) hzero
    rw [happly]
    exact .pass (.place ha hz fun d hd => .done (perform_store hd) rfl)

theorem fits_branch {m : Machine} (hw : m.WellFormed) {onZero : Bool} {a b : Int}
    (ha : IsWord a) (hb : IsWord b) {taken : Prop} [Decidable taken]
    (htaken : (m.val a == 0) = onZero ↔ taken) :
    m.Fits ((Instruction.branch onZero a b).plan m)
      (value a :: if taken then [value b, target (m.val b)] else [])
      { m with pc := if taken then m.val b else m.pc + 3, steps := m.steps + 1 }
      [m.val a, if taken then m.val b else m.pc + 3] := by
  rw [Instruction.plan]
  refine .value ha fun _ => ?_
  simp only [htaken]
  split
  · exact .jump hw hb (.done rfl rfl)
  · exact .done rfl rfl

theorem fits_ret {m : Machine} (hw : m.WellFormed) {a b c : Int} :
    m.Fits (Instruction.ret.plan m) (m.stack.head?.map target).toList (m.execute .ret a b c)
      m.stack.head?.toList := by
  rw [Instruction.plan]
  cases hs : m.stack with
  | nil =>
    refine .done ?_ rfl
    simp [perform, execute, effect, next, Effect.goto, hs, putAll, writeOut]
  | cons v rest =>
    have hv : IsWord v := hw.stack v (hs ▸ List.mem_cons_self)
    refine .target hv fun _ => .done ?_ rfl
    simp [perform, execute, effect, next, Effect.goto, hs, putAll, writeOut]

theorem fits_input {m : Machine} {a b c : Int} (ha : IsWord a) (hq : m.console.queue ≠ []) :
    m.Fits ((Instruction.input a).plan m) [place a] (m.execute .in a b c)
      (m.console.queue.head?.toList.map fun code => (code.toNat : Int)) := by
  rw [Instruction.plan]
  cases hs : m.console.queue with
  | nil => exact absurd hs hq
  | cons code rest =>
    have hv : IsWord code.toNat := by
      have := code.toNat_lt
      omega
    refine .place ha hv fun d hd => .done ?_ rfl
    simp [perform, execute, effect, next, Effect.goto, hs, hd, writeOut, Opcode.size, Opcode.arity]

/-- Every instruction goes through its checks and does what the table says, unless it has to wait
for input. -/
theorem fits_make {m : Machine} (hw : m.WellFormed) {a b c : Int} (ha : IsWord a) (hb : IsWord b)
    (hc : IsWord c) (op : Opcode) (hwait : op = .in → m.console.queue ≠ []) :
    m.Fits ((Instruction.make a b c op).plan m) (m.checks a b c op) (m.execute op a b c)
      (m.shown a b c op) := by
  cases op with
  | halt => exact .done rfl rfl
  | set => exact fits_set hw ha hb
  | push => exact .value ha fun _ => .done rfl rfl
  | pop => exact fits_pop hw ha
  | eq => exact fits_binary ha hb hc rfl (BinaryOp.isWord_truth _)
  | gt => exact fits_binary ha hb hc rfl (BinaryOp.isWord_truth _)
  | jmp => exact .jump hw ha (.done rfl rfl)
  | jt => exact fits_branch hw ha hb (by simp)
  | jf => exact fits_branch hw ha hb (by simp)
  | add => exact fits_binary ha hb hc rfl (BinaryOp.isWord_reduced _)
  | mult => exact fits_binary ha hb hc rfl (BinaryOp.isWord_reduced _)
  | mod => exact fits_mod hw ha hb hc
  | and =>
    obtain ⟨happly, hz⟩ := BinaryOp.apply_and (hw.val hb.1) (hw.val hc.1)
    exact fits_binary ha hb hc happly hz
  | or =>
    obtain ⟨happly, hz⟩ := BinaryOp.apply_or (hw.val hb.1) (hw.val hc.1)
    exact fits_binary ha hb hc happly hz
  | not =>
    obtain ⟨hnot, hz⟩ := complement_eq (hw.val hb.1)
    refine .value hb fun _ => ?_
    rw [hnot]
    exact .place ha hz fun d hd => .done (perform_store hd) rfl
  | rmem =>
    refine .value hb fun _ => .source (hw.val hb.1) fun _ => ?_
    exact .place ha (hw.held _) fun d hd => .done (perform_store hd) rfl
  | wmem =>
    refine .value ha fun _ => .value hb fun _ => ?_
    exact .place (hw.val ha.1) (hw.val hb.1) fun d hd => .done (perform_store hd) rfl
  | call => exact .jump hw ha (.done rfl rfl)
  | ret => exact fits_ret hw
  | out => exact .value ha fun _ => .done (perform_written _) rfl
  | «in» => exact fits_input ha (hwait rfl)
  | noop => exact .done rfl rfl

/-- The instruction at the program counter asks for a code when none is waiting. -/
def Awaits (m : Machine) : Prop := m.Fetches .in ∧ m.console.queue = []

/-- A machine after an instruction with the operands that stand behind it. -/
def executed (m : Machine) (op : Opcode) : Machine :=
  m.execute op (m.wordAt 1) (m.wordAt 2) (m.wordAt 3)

def recordOf (m : Machine) (op : Opcode) : TraceRecord :=
  { pc := m.pc
    mnemonic := op.mnemonic
    operands := [m.wordAt 1, m.wordAt 2, m.wordAt 3].take op.arity
    values := m.shown (m.wordAt 1) (m.wordAt 2) (m.wordAt 3) op }

/-- What an instruction has taken before something is said against it stays taken. -/
def refused (m : Machine) : Opcode → Machine
  | .pop | .ret => { m with stack := m.stack.tail }
  | .in => { m with console := { m.console with queue := m.console.queue.tail } }
  | _ => m

section Step

variable {m : Machine}

theorem isWord_wordAt (m : Machine) (k : Int) : IsWord (m.wordAt k) :=
  m.memory.isWord_cell _

theorem Fetches.unique {op op' : Opcode} (h : m.Fetches op) (h' : m.Fetches op') : op = op' := by
  apply Opcode.code_injective
  have := h.code
  have := h'.code
  omega

theorem fetchOpcode_eq (h0 : 0 ≤ m.pc) (hpc : m.pc ≤ 32767) :
    m.fetchOpcode = Opcode.ofWord (m.wordAt 0) := by
  have hread : m.memory.read m.pc = .ok (m.memory.cell m.pc) := m.memory.read_cell ⟨h0, by omega⟩
  unfold fetchOpcode wordAt
  rw [hread, Int.add_zero]
  rfl

theorem failure_eq {c : Cause} {f : Fault} (h : c.report? = some f) (mnemonic : Option String) :
    m.failure mnemonic c = .failed (f.annotate (some m.pc) mnemonic) := by
  simp only [failure, h]

theorem step_of_outside (h : m.pc = 32768) :
    m.step = (m, .failed ((noCell m.pc).annotate (some m.pc) none)) := by
  have hread : m.memory.read m.pc = .error (.noSuchCell m.pc) := m.memory.read_outside (by omega)
  have hreport : (Cause.noSuchCell m.pc).report? = some (noCell m.pc) :=
    Cause.report?_of_shown (by simp [Cause.shown, h, IsWord])
  unfold step fetchOpcode
  rw [hread, ← failure_eq hreport]
  rfl

theorem step_of_noOpcode (h0 : 0 ≤ m.pc) (hpc : m.pc ≤ 32767) (h : 21 < m.wordAt 0) :
    m.step = (m, .failed ((unknownOpcode (m.wordAt 0)).annotate (some m.pc) none)) := by
  have hreport : (Cause.unknownOpcode (m.wordAt 0)).report? = some (unknownOpcode (m.wordAt 0)) :=
    Cause.report?_of_shown (by simpa [Cause.shown] using m.isWord_wordAt 0)
  unfold step
  rw [fetchOpcode_eq h0 hpc, Opcode.ofWord, Opcode.ofWord?_of_gt h, ← failure_eq hreport]

theorem step_of_code {op : Opcode} (h0 : 0 ≤ m.pc) (hpc : m.pc ≤ 32767)
    (h : m.wordAt 0 = op.code) : m.fetchOpcode = .ok op := by
  rw [fetchOpcode_eq h0 hpc, h, Opcode.ofWord, Opcode.ofWord?_code]

theorem step_of_cutOff {op : Opcode} (h0 : 0 ≤ m.pc) (hpc : m.pc ≤ 32767)
    (h : m.wordAt 0 = op.code) (hcut : 32767 < m.pc + op.arity) :
    m.step = (m, .failed ((noCell 32768).annotate (some m.pc) (some op.mnemonic))) := by
  have hreport : (Cause.noSuchCell 32768).report? = some (noCell 32768) :=
    Cause.report?_of_shown (by simp [Cause.shown, IsWord])
  unfold step
  rw [step_of_code h0 hpc h]
  simp only [Instruction.readOperands_cutOff h0 hpc op hcut, failure_eq hreport]

theorem take_snd (c : CharConsole) : c.take.2 = { c with queue := c.queue.tail } := by
  obtain ⟨output, queue, sink⟩ := c
  cases queue <;> rfl

theorem afterFailure_make (a b c : Int) (op : Opcode) :
    m.afterFailure (.make a b c op) = m.refused op := by
  cases op
  case «in» =>
    change { m with console := m.console.take.2 } = _
    rw [take_snd]
    rfl
  all_goals rfl

theorem step_of_fetches (hw : m.WellFormed) {op : Opcode} (h : m.Fetches op)
    (hwait : op = .in → m.console.queue ≠ []) :
    m.step = match m.objection op with
      | some f => (m.refused op, .failed (f.annotate (some m.pc) (some op.mnemonic)))
      | none => (m.executed op, .executed (m.recordOf op)) := by
  have hpc : m.pc ≤ 32767 := by have := h.whole; omega
  have hfits := fits_make hw (m.isWord_wordAt 1) (m.isWord_wordAt 2) (m.isWord_wordAt 3) op hwait
  have hread : Instruction.readOperands m.memory m.pc op =
      .ok (.make (m.wordAt 1) (m.wordAt 2) (m.wordAt 3) op) :=
    Instruction.readOperands_whole h.inside op h.whole
  cases hf : m.objection op with
  | some f =>
    obtain ⟨c, hplan, hreport⟩ := hfits.failed hf
    simp only [step, step_of_code h.inside hpc h.code, hread, hplan, afterFailure_make,
      Instruction.mnemonic, Instruction.opcode_make, failure_eq hreport]
  | none =>
    obtain ⟨e, hplan, hafter, hshown⟩ := hfits.carriedOut hf
    simp only [step, step_of_code h.inside hpc h.code, hread, hplan, hafter, hshown,
      Instruction.mnemonic, Instruction.opcode_make, Instruction.operands_make]
    rfl

theorem step_of_awaits (h : m.Awaits) : m.step = (m, .starved) := by
  obtain ⟨hf, hq⟩ := h
  have hpc : m.pc ≤ 32767 := by have := hf.whole; omega
  unfold step
  rw [step_of_code hf.inside hpc hf.code]
  simp only [Instruction.readOperands_whole hf.inside .in hf.whole, Instruction.make,
    Instruction.plan, hq]
  rfl

theorem cases_of_wellFormed (hw : m.WellFormed) :
    m.pc = 32768 ∨ (m.pc ≤ 32767 ∧ 21 < m.wordAt 0) ∨
      (∃ op : Opcode, m.pc ≤ 32767 ∧ m.wordAt 0 = op.code ∧ 32767 < m.pc + op.arity) ∨
      ∃ op, m.Fetches op := by
  obtain ⟨h0, hpc⟩ := hw.pc
  by_cases hend : m.pc = 32768
  · exact .inl hend
  by_cases hcode : 21 < m.wordAt 0
  · exact .inr (.inl ⟨by omega, hcode⟩)
  obtain ⟨op, -, hop⟩ := Opcode.ofWord?_of_le (m.isWord_wordAt 0).1 (by omega)
  by_cases hwhole : m.pc + op.arity ≤ 32767
  · exact .inr (.inr (.inr ⟨op, h0, hop, hwhole⟩))
  · exact .inr (.inr (.inl ⟨op, by omega, hop, by omega⟩))

end Step

end Machine

end WordMachine
