import WordMachine.Proofs.LongNumeral
import WordMachine.Proofs.Script
import WordMachine.Proofs.StraightLine

/-!
A debugger is transparent to the program. As long as no command sets a register, a session with a
debugger goes through the same states as the session that reads only the lines which the debugger
passes on.
-/
namespace WordMachine

namespace Machine

variable {m n : Machine}

section Muted

theorem plan_muted (m : Machine) (i : Instruction) : i.plan m.muted = i.plan m := by
  cases i <;> rfl

theorem perform_muted (m : Machine) (e : Effect) :
    m.muted.perform e = (m.perform e).muted := by
  unfold perform muted
  cases e.store with
  | none => cases e.written <;> rfl
  | some d =>
    obtain ⟨_ | _, _⟩ := d <;> cases e.written <;> rfl

theorem afterFailure_muted (m : Machine) (i : Instruction) :
    m.muted.afterFailure i = (m.afterFailure i).muted := by
  cases i with
  | input =>
    simp only [afterFailure, take_snd]
    rfl
  | _ => rfl

theorem carryOut_muted (m : Machine) (i : Instruction) :
    m.muted.carryOut i = ((m.carryOut i).1.muted, (m.carryOut i).2) := by
  unfold carryOut
  rw [plan_muted]
  rcases i.plan m with c | _ | e
  · simp only [afterFailure_muted]
    rfl
  · rfl
  · simp only [perform_muted]
    rfl

theorem step_muted (m : Machine) : m.muted.step = (m.step.1.muted, m.step.2) := by
  have hdecode : Instruction.decode m.muted.memory m.muted.pc = Instruction.decode m.memory m.pc :=
    rfl
  rw [m.muted.step_eq, step_eq, hdecode]
  cases Instruction.decode m.memory m.pc with
  | error c => rfl
  | ok i => exact carryOut_muted m i

theorem step_congr (h : n.muted = m.muted) :
    n.step.1.muted = m.step.1.muted ∧ n.step.2 = m.step.2 := by
  have hsteps := n.step_muted
  rw [h, step_muted] at hsteps
  obtain ⟨hmachine, houtcome⟩ := Prod.mk.inj hsteps
  exact ⟨hmachine.symm, houtcome.symm⟩

theorem stop_of_muted (h : n.muted = m.muted) : n.stop = m.stop := by
  have hstop := congrArg stop h
  exact hstop

theorem muted_feed (h : n.muted = m.muted) (line : String) :
    { n with console := n.console.feed line }.muted =
      { m with console := m.console.feed line }.muted := by
  have hfeed := congrArg (fun k : Machine => { k with console := k.console.feed line }) h
  exact hfeed

end Muted

end Machine

open Debugger Script

namespace Session

variable {s u : Session}

/-- The session without a debugger, which reads what the debugger of this one passes on. -/
def undebugged (s : Session) : Session :=
  { s with front := .direct, lines := passed s.lines, ending := closing s.ending s.lines }

def HasDebugger (s : Session) : Prop := ∃ prompt shared, s.front = .debugger prompt shared

/-- A session with a debugger that sets no registers, and one that reads what this debugger passes
on. -/
structure Shadows (s u : Session) : Prop where
  debugger : s.HasDebugger
  quiet : Quiet s.lines
  machine : u.machine.muted = s.machine.muted
  front : u.front = .direct
  lines : u.lines = passed s.lines
  ending : u.ending = closing s.ending s.lines

theorem shadows_undebugged (h : s.HasDebugger) (hquiet : Quiet s.lines) :
    s.Shadows s.undebugged :=
  ⟨h, hquiet, rfl, rfl, rfl, rfl⟩

theorem HasDebugger.readLine_eq (h : s.HasDebugger) : s.readLine = s.readPast s.lines := by
  obtain ⟨prompt, shared, hfront⟩ := h
  rw [readLine, hfront]

/-- The event of a step whose machine has come to an outcome. -/
def eventOf (stop : Option StopReason) : Machine.Outcome → Event
  | .executed _ => .ofStop stop
  | .failed f => .failed f
  | .unreported => .unreported
  | .starved => .noInput .unattached

theorem settle_muted (s : Session) :
    s.settle.1.machine.muted = s.machine.step.1.muted ∧
      s.settle.2 = eventOf s.machine.step.1.stop s.machine.step.2 := by
  rw [settle_eq]
  rcases s.machine.step with ⟨m, r | f | _ | _⟩
  · obtain ⟨hmuted, -, hevent⟩ := witness_eq { s with machine := m } r
    refine ⟨hmuted, hevent.trans ?_⟩
    exact congrArg Event.ofStop (Machine.stop_of_muted hmuted)
  all_goals exact ⟨rfl, rfl⟩

theorem Shadows.of_machine {t v : Session} (h : s.Shadows u) (hs : s.SameSource t)
    (hu : u.SameSource v) (hmachine : v.machine.muted = t.machine.muted) : t.Shadows v where
  debugger := by
    obtain ⟨prompt, shared, hfront⟩ := h.debugger
    exact ⟨prompt, shared, hs.front.trans hfront⟩
  quiet := hs.lines ▸ h.quiet
  machine := hmachine
  front := hu.front.trans h.front
  lines := by rw [hu.lines, hs.lines, h.lines]
  ending := by rw [hu.ending, hs.ending, hs.lines, h.ending]

theorem Shadows.settle (h : s.Shadows u) :
    s.settle.1.Shadows u.settle.1 ∧ u.settle.2 = s.settle.2 := by
  obtain ⟨hmachine, houtcome⟩ := Machine.step_congr h.machine
  obtain ⟨hs, hsevent⟩ := settle_muted s
  obtain ⟨hu, huevent⟩ := settle_muted u
  have hsame : u.settle.1.machine.muted = s.settle.1.machine.muted := by
    rw [hu, hs, hmachine]
  refine ⟨h.of_machine (sameSource_settle s) (sameSource_settle u) hsame, ?_⟩
  rw [hsevent, huevent, houtcome, Machine.stop_of_muted hmachine]

section Supply

variable {t : Session} {why : NoInput} {line : String} {rest : List String}

theorem readLine_of_nil (hfront : u.front = .direct) (hlines : u.lines = []) :
    u.readLine = (u.ask, .error u.ending) := by
  rw [readLine, hfront]
  dsimp only
  rw [hlines]

theorem readLine_of_cons (hfront : u.front = .direct) (hlines : u.lines = line :: rest) :
    u.readLine = ({ u.ask with lines := rest }, .ok line) := by
  rw [readLine, hfront]
  dsimp only
  rw [hlines]

theorem Shadows.handed (h : s.Shadows u) (line : String) :
    (s.handed line).Shadows (u.handed line) := by
  refine h.of_machine ⟨rfl, rfl, rfl⟩ ⟨rfl, rfl, rfl⟩ ?_
  rw [(handed_eq s line).1, (handed_eq u line).1]
  exact Machine.muted_feed h.machine line

end Supply

theorem Shadows.supply (h : s.Shadows u) :
    (∃ why, s.supply.2 = some why ∧ u.supply.2 = some why ∧
        u.supply.1.machine.muted = s.supply.1.machine.muted) ∨
      (s.supply.2 = none ∧ u.supply.2 = none ∧ s.supply.1.Shadows u.supply.1) := by
  have hask : u.ask.machine.muted = s.machine.muted :=
    (Undisturbed.ask u).machine.trans h.machine
  have hread := h.debugger.readLine_eq
  have hkept := front_readPast s s.lines
  obtain ⟨hnone, hends⟩ | ⟨line, rest, hline, hpasses⟩ := readPast_cases (s := s) h.quiet
  · generalize s.readPast s.lines = read at hread hends
    obtain ⟨t, result⟩ := read
    obtain rfl : result = .error (closing s.ending s.lines) := hends.result
    rw [supply_of_error hread, supply_of_error (readLine_of_nil h.front (h.lines.trans hnone))]
    exact .inl ⟨_, rfl, congrArg some h.ending, hask.trans hends.machine.symm⟩
  · generalize s.readPast s.lines = read at hread hkept hpasses
    obtain ⟨t, result⟩ := read
    obtain rfl : result = .ok line := hpasses.result
    rw [supply_of_ok hread, supply_of_ok (readLine_of_cons h.front (h.lines.trans hline))]
    have hlater : t.Shadows { u.ask with lines := rest } :=
      { debugger := by
          obtain ⟨prompt, shared, hfront⟩ := h.debugger
          exact ⟨prompt, shared, hkept.trans hfront⟩
        quiet := hpasses.quiet
        machine := hask.trans hpasses.machine.symm
        front := (Undisturbed.ask u).front.trans h.front
        lines := hpasses.later.symm
        ending := by
          rw [hpasses.ending, ← h.ending]
          exact (Undisturbed.ask u).ending }
    exact .inr ⟨rfl, rfl, hlater.handed line⟩

/-- A step comes to the same in both sessions, which go on side by side unless the input has
ended. -/
theorem Shadows.step (h : s.Shadows u) :
    u.step.2 = s.step.2 ∧ u.step.1.machine.muted = s.step.1.machine.muted ∧
      ((∀ why, s.step.2 ≠ .noInput why) → s.step.1.Shadows u.step.1) := by
  have houtcome := (Machine.step_congr h.machine).2
  by_cases hstarved : s.machine.step.2 = .starved
  · have hustarved := houtcome.trans hstarved
    obtain ⟨why, hs, hu, hmachine⟩ | ⟨hs, hu, hlater⟩ := h.supply
    · rw [step_of_supply_some hstarved hs, step_of_supply_some hustarved hu]
      exact ⟨rfl, hmachine, fun hinput => absurd rfl (hinput why)⟩
    · rw [step_of_supply_none hstarved hs, step_of_supply_none hustarved hu]
      obtain ⟨hshadows, hevent⟩ := hlater.settle
      exact ⟨hevent, hshadows.machine, fun _ => hshadows⟩
  · rw [step_of_not_starved hstarved, step_of_not_starved (houtcome ▸ hstarved)]
    obtain ⟨hshadows, hevent⟩ := h.settle
    exact ⟨hevent, hshadows.machine, fun _ => hshadows⟩

theorem Shadows.run (h : s.Shadows u) (n : Nat) :
    (u.run n).1.machine.muted = (s.run n).1.machine.muted ∧ (u.run n).2 = (s.run n).2 := by
  have hstep {u s : Session} (h : s.Shadows u) :
      u.step.2 = s.step.2 ∧ u.step.1.machine.muted = s.step.1.machine.muted ∧
        (u.step.2 = .running → s.step.1.Shadows u.step.1) := by
    obtain ⟨hevent, hmachine, hlater⟩ := h.step
    refine ⟨hevent, hmachine, fun hgoes => hlater fun why hwhy => ?_⟩
    rw [← hevent, hgoes] at hwhy
    contradiction
  exact run_related (R := fun u s => s.Shadows u) (fun h => h.machine)
    (fun h => Machine.stop_of_muted h.machine) hstep h n

section Front

theorem front_readLine (s : Session) : s.readLine.1.front = s.front := by
  unfold readLine
  split
  · rfl
  · split <;> exact (Undisturbed.ask s).front
  · exact front_readPast s s.lines

theorem front_supply (s : Session) : s.supply.1.front = s.front := by
  have hread := front_readLine s
  unfold supply
  generalize s.readLine = read at hread ⊢
  obtain ⟨t, why | line⟩ := read <;> exact hread

theorem front_step (s : Session) : s.step.1.front = s.front := by
  by_cases hstarved : s.machine.step.2 = .starved
  · cases hsupply : s.supply.2 with
    | some why =>
      rw [step_of_supply_some hstarved hsupply]
      exact front_supply s
    | none =>
      rw [step_of_supply_none hstarved hsupply, (sameSource_settle _).front]
      exact front_supply s
  · rw [step_of_not_starved hstarved]
    exact (sameSource_settle s).front

theorem front_after (s : Session) (n : Nat) : (s.after n).front = s.front :=
  after_keeps (P := (·.front = s.front)) (fun h => (front_step _).trans h) rfl n

theorem HasDebugger.after (h : s.HasDebugger) (n : Nat) : (s.after n).HasDebugger := by
  obtain ⟨prompt, shared, hfront⟩ := h
  exact ⟨prompt, shared, (front_after s n).trans hfront⟩

theorem HasDebugger.plain_of_readLine (h : s.HasDebugger) {line : String}
    (hread : s.readLine.2 = .ok line) : line.toList.head? ≠ some '!' := by
  rw [h.readLine_eq] at hread
  exact command?_eq_none_iff.mp (plain_of_readPast hread)

end Front

/-- A debugger is transparent. While no register is set through it, the program goes through the
same states as with the lines alone that are passed on, and ends in the same way. A command is never
passed on, and the input ends at a command only if it leaves the debugger or is refused for a number
that is too long to be written. -/
theorem debugger_transparent (s : Session) (h : s.HasDebugger) :
    (Quiet s.lines → ∀ n,
      (s.run n).1.machine.muted = (s.undebugged.run n).1.machine.muted ∧
        (s.run n).2 = (s.undebugged.run n).2) ∧
    (∀ n t line, (s.after n).readLine = (t, .ok line) → line.toList.head? ≠ some '!') ∧
    ∀ line why, ending? line = some why →
      ∃ command c, command? line = some command ∧ Command.ofLine command = .ok c ∧
        ((c = .quit ∧ why = .quit) ∨
          ∃ cause, c.cause? = some cause ∧ ¬cause.IsReportable ∧ why = .unreported) := by
  refine ⟨fun hquiet n => ?_, fun n t line hread => ?_, fun line why => ending?_eq_some⟩
  · obtain ⟨hmachine, hevent⟩ := (shadows_undebugged h hquiet).run n
    exact ⟨hmachine.symm, hevent.symm⟩
  · exact (h.after n).plain_of_readLine (congrArg Prod.snd hread)

/-- A program that reads a code and halts, with a debugger that is asked for help and left. -/
def attended : Session where
  machine := { memory := (Memory.empty.setCell 0 20).setCell 1 32768 }
  front := .debugger "> " true
  lines := ["!", "A", "!quit", "B"]

theorem ofLine_blank : Command.ofLine (String.ofList []) = .ok .help := by
  unfold Command.ofLine
  rw [String.toList_ofList, Text.words_nil]

theorem ofLine_quit : Command.ofLine (String.ofList "quit".toList) = .ok .quit := by
  have hwords : Text.words "quit".toList = ["quit".toList] :=
    Text.words_eq_singleton (by decide) (by simp [Text.isBlank])
  unfold Command.ofLine
  rw [String.toList_ofList, hwords]
  decide +kernel

theorem ending?_of_ofLine {line command : String} {c : Command}
    (hcommand : command? line = some command) (hc : Command.ofLine command = .ok c) :
    ending? line = c.ending? := by
  rw [ending?, hcommand, Option.bind_some, endingOf?, hc]

theorem attended_heard :
    heard attended.lines = ["!", "A"] ∧ passed attended.lines = ["A"] ∧
      closing attended.ending attended.lines = .quit := by
  have hcommand : command? "!" = some (String.ofList []) := rfl
  have hplain : command? "A" = none := rfl
  have hhelp : ending? "!" = none := ending?_of_ofLine hcommand ofLine_blank
  have hopen : ending? "A" = none := ending?_of_plain hplain
  have hquit : ending? "!quit" = some .quit := ending?_of_ofLine rfl ofLine_quit
  unfold attended
  refine ⟨?_, ?_, ?_⟩
  · rw [heard_cons hhelp, heard_cons hopen, heard_of_ending hquit]
  · rw [passed_cons hcommand hhelp, passed_of_plain hplain, passed_of_ending hquit]
  · rw [closing_cons hhelp, closing_cons hopen, closing_of_ending hquit]

theorem attended_quiet : Quiet attended.lines := by
  intro line hline hsets
  rw [attended_heard.1] at hline
  obtain ⟨command, c, hcommand, hc, hsets⟩ := hsets
  obtain rfl | hline := List.mem_cons.mp hline
  · cases hcommand
    cases ofLine_blank.symm.trans hc
    exact hsets
  · cases List.mem_singleton.mp hline
    cases hcommand

theorem attended_transparent :
    (attended.HasDebugger ∧ Quiet attended.lines ∧
      attended.undebugged =
        { attended with front := .direct, lines := ["A"], ending := .quit } ∧
      ∀ n, (attended.run n).1.machine.muted = (attended.undebugged.run n).1.machine.muted ∧
        (attended.run n).2 = (attended.undebugged.run n).2) ∧
    (∃ t, attended.readLine = (t, .ok "A") ∧ "A".toList.head? ≠ some '!') ∧
    ∃ command c, command? "!quit" = some command ∧ Command.ofLine command = .ok c ∧ c = .quit := by
  have hdebugger : attended.HasDebugger := ⟨"> ", true, rfl⟩
  obtain ⟨hruns, hplain, hends⟩ := debugger_transparent attended hdebugger
  obtain ⟨-, hpassed, hclosing⟩ := attended_heard
  have hundebugged : attended.undebugged =
      { attended with front := .direct, lines := ["A"], ending := .quit } := by
    rw [undebugged, hpassed, hclosing]
  have hread : ∃ t, attended.readLine = (t, .ok "A") := by
    rw [hdebugger.readLine_eq]
    obtain ⟨hnone, -⟩ | ⟨line, rest, hline, hpasses⟩ :=
      readPast_cases (s := attended) attended_quiet
    · cases hpassed.symm.trans hnone
    · cases hpassed.symm.trans hline
      exact ⟨_, Prod.ext rfl hpasses.result⟩
  obtain ⟨t, ht⟩ := hread
  obtain ⟨command, c, hcommand, hc, ⟨hquit, -⟩ | ⟨cause, -, -, hwhy⟩⟩ :=
    hends "!quit" .quit (ending?_of_ofLine rfl ofLine_quit)
  · exact ⟨⟨hdebugger, attended_quiet, hundebugged, hruns attended_quiet⟩,
      ⟨t, ht, hplain 0 t "A" ht⟩, command, c, hcommand, hc, hquit⟩
  · cases hwhy

/-- A command that asks for a cell whose address is a hexadecimal one with so many zeros. -/
def lookUp (zeros : Nat) : String :=
  String.ofList ('!' :: ("mem".toList ++ ' ' :: Text.hexPower zeros))

theorem ending?_lookUp {zeros : Nat} (h : 3690 ≤ zeros) :
    ending? (lookUp zeros) = some .unreported := by
  have hlong : ¬Text.IsWritable ((16 ^ zeros : Nat) : Int) :=
    Text.not_isWritable_hexPower (n := 615) (by decide) h
  have hcommand : command? (lookUp zeros) =
      some (String.ofList ("mem".toList ++ ' ' :: Text.hexPower zeros)) :=
    command?_of_cons String.toList_ofList
  rw [ending?_of_ofLine hcommand (ofLine_mem_hexPower zeros)]
  generalize ((16 ^ zeros : Nat) : Int) = address at hlong
  have houtside : ¬IsAddress address := fun h => hlong (Text.isWritable_of_natAbs_lt (by omega))
  have hcause : (Command.mem address 64).cause? = some (.noSuchCell address) := if_neg houtside
  rw [ending?_of_cause Command.noConfusion hcause, Refusal.ending?_cause, if_neg]
  exact fun h => hlong (h address (by simp [Cause.shown]))

def unanswering : Session := { attended with lines := [lookUp 3690, "A"] }

/-- Although the command is only refused and the debugger has not been left, the input is at its
end, and the line behind the command is not read. -/
theorem unanswerable_ends_input :
    unanswering.step.2 = .noInput .unreported ∧
      { attended with front := .direct, lines := ["A"] }.step.2 = .running := by
  have hend := ending?_lookUp (Nat.le_refl 3690)
  have hdebugger : unanswering.HasDebugger := ⟨"> ", true, rfl⟩
  have hquiet : Quiet unanswering.lines := by
    intro line hline
    unfold unanswering at hline
    rw [heard_of_ending hend] at hline
    exact absurd hline List.not_mem_nil
  have hundebugged : unanswering.undebugged =
      { attended with front := .direct, lines := [], ending := .unreported } := by
    rw [undebugged, unanswering, passed_of_ending hend, closing_of_ending hend]
  have hstep := (shadows_undebugged hdebugger hquiet).step.1
  rw [hundebugged] at hstep
  exact ⟨hstep.symm.trans (by decide +kernel), by decide +kernel⟩

end Session

end WordMachine
