import WordMachine.Proofs.History
import WordMachine.Proofs.InputSchedule

/-!
What a session keeps account of makes no difference to what it does. How often a line has been asked
for, what a debugger has written apart from the program, and what has been logged and traced are
only added to. A session with such a past therefore goes on as it would without one.
-/
namespace WordMachine.Session

def continuing (s past : Session) : Session :=
  { s with
    asked := past.asked + s.asked
    printed := past.printed ++ s.printed
    journal := past.journal ++ s.journal }

variable (s past : Session)

theorem note_continuing (r : Log.Record) :
    (s.continuing past).note r = (s.note r).continuing past := by
  simp [note, continuing]

theorem feedAll_continuing (lines : List String) :
    (s.continuing past).feedAll lines = (s.feedAll lines).continuing past := by
  have hassoc (queued : List Entry) :
      past.journal ++ s.journal ++ queued = past.journal ++ (s.journal ++ queued) :=
    Array.ext' (by simp)
  simp only [feedAll, continuing, hassoc]

theorem trace_continuing (line : Option TraceLine) :
    (s.continuing past).trace line = (s.trace line).continuing past := by
  cases line with
  | none => rfl
  | some line =>
    obtain ⟨machine, front, lines, ending, asked, observer, _ | time, printed, journal⟩ := s
    · simp [trace, continuing]
    · simp [trace, continuing]

theorem print_continuing (lines : List String) :
    (s.continuing past).print lines = (s.print lines).continuing past := by
  obtain ⟨machine, _ | _ | ⟨prompt, _ | _⟩, lines, ending, asked, observer, traceTime, printed,
    journal⟩ := s
  all_goals simp [print, continuing, String.append_assoc]

theorem ask_continuing : (s.continuing past).ask = s.ask.continuing past := by
  obtain ⟨machine, _ | _ | ⟨prompt, _ | _⟩, lines, ending, asked, observer, traceTime, printed,
    journal⟩ := s
  all_goals simp [ask, continuing, Nat.add_assoc]

theorem refuse_continuing (command : String) (r : Debugger.Refusal) :
    (s.continuing past).refuse command r =
      ((s.refuse command r).1.continuing past, (s.refuse command r).2) := by
  unfold refuse
  split
  · rfl
  · cases r <;> simp only [note_continuing, print_continuing]

theorem execute_continuing (command : String) :
    (s.continuing past).execute command =
      ((s.execute command).1.continuing past, (s.execute command).2) := by
  unfold execute
  cases Debugger.Command.ofLine command with
  | error r => exact refuse_continuing s past command r
  | ok c =>
    have hrun : c.run (s.continuing past).machine (s.continuing past).observer.tracer? =
        c.run s.machine s.observer.tracer? := rfl
    dsimp only
    rw [hrun]
    rcases c.run s.machine s.observer.tracer? with r | _ | answer
    · exact refuse_continuing s past command r
    · rfl
    · dsimp only
      rw [← print_continuing, ← trace_continuing]
      rfl

theorem readPast_continuing (lines : List String) :
    (s.continuing past).readPast lines =
      ((s.readPast lines).1.continuing past, (s.readPast lines).2) := by
  induction lines generalizing s with
  | nil => simp only [readPast, ask_continuing]; rfl
  | cons line rest ih =>
    have hask : ({ (s.continuing past).ask with lines := rest } : Session) =
        ({ s.ask with lines := rest } : Session).continuing past := by
      rw [ask_continuing]
      rfl
    simp only [readPast, hask]
    split
    next command _ =>
      rw [execute_continuing]
      rcases ({ s.ask with lines := rest } : Session).execute (String.ofList command)
        with ⟨t, _ | why⟩
      · exact ih t
      · rfl
    next => rfl

theorem readLine_continuing :
    (s.continuing past).readLine = (s.readLine.1.continuing past, s.readLine.2) := by
  unfold readLine
  have hfront : (s.continuing past).front = s.front := rfl
  have hlines : (s.continuing past).lines = s.lines := rfl
  rw [hfront, hlines]
  split
  · rfl
  · rw [ask_continuing]
    split <;> rfl
  · exact readPast_continuing s past s.lines

theorem watch_continuing (r : TraceRecord) :
    (s.continuing past).watch r = (s.watch r).continuing past :=
  trace_continuing { s with observer := (s.observer.see r).1 } past (s.observer.see r).2

theorem witness_continuing (r : TraceRecord) :
    (s.continuing past).witness r = ((s.witness r).1.continuing past, (s.witness r).2) := by
  unfold witness
  rw [watch_continuing]
  have hmachine : ((s.watch r).continuing past).machine = (s.watch r).machine := rfl
  dsimp only
  rw [hmachine]
  split
  · rfl
  · rw [note_continuing]

theorem settle_continuing :
    (s.continuing past).settle = (s.settle.1.continuing past, s.settle.2) := by
  unfold settle
  have hadvance : (s.continuing past).advance = (s.advance.1.continuing past, s.advance.2) := rfl
  rw [hadvance]
  rcases s.advance with ⟨t, r | f | _ | _⟩
  · exact witness_continuing t past r
  all_goals rfl

theorem supply_continuing :
    (s.continuing past).supply = (s.supply.1.continuing past, s.supply.2) := by
  unfold supply
  rw [readLine_continuing]
  rcases s.readLine with ⟨t, why | line⟩
  · rfl
  · dsimp only
    rw [note_continuing]
    exact congrArg (·, none) (feedAll_continuing _ past [line])

theorem step_continuing : (s.continuing past).step = (s.step.1.continuing past, s.step.2) := by
  by_cases hstarved : s.machine.step.2 = .starved
  · have hstep := (Machine.starved_cases hstarved).1
    rw [step_of_starved hstep, step_of_starved (s := s.continuing past) hstep, supply_continuing]
    rcases s.supply with ⟨t, _ | why⟩
    · exact settle_continuing t past
    · rfl
  · rw [step_of_not_starved hstarved, step_of_not_starved (s := s.continuing past) hstarved,
      settle_continuing]

theorem run_continuing (fuel : Nat) :
    (s.continuing past).run fuel = ((s.run fuel).1.continuing past, (s.run fuel).2) := by
  let Continues (t u : Session) : Prop := t = u.continuing past
  have hstep {t u : Session} (h : Continues t u) :
      t.step.2 = u.step.2 ∧ Continues t.step.1 u.step.1 ∧
        (t.step.2 = .running → Continues t.step.1 u.step.1) := by
    rw [h, step_continuing]
    exact ⟨rfl, rfl, fun _ => rfl⟩
  have hstop {t u : Session} (h : Continues t u) : t.machine.stop = u.machine.stop := by
    rw [h]
    rfl
  obtain ⟨hstate, hevent⟩ := run_related id hstop hstep (show Continues _ s from rfl) fuel
  exact Prod.ext hstate hevent

theorem perform_continuing (action : Action) :
    (s.continuing past).perform action = (s.perform action).continuing past := by
  have hattempt (result : Except Cause Machine) :
      (s.continuing past).attempt result = (s.attempt result).continuing past := by
    cases result <;> rfl
  cases action with
  | step => exact congrArg Prod.fst (step_continuing s past)
  | run fuel => exact congrArg Prod.fst (run_continuing s past fuel)
  | feed line => exact feedAll_continuing s past [line]
  | setRegister | store | load => exact hattempt _
  | reset => rfl
  | command text => exact congrArg Prod.fst (execute_continuing s past text)

/-- Whatever is done with a session, it goes through the same states as without its past. -/
theorem performAll_continuing (history : List Action) :
    (s.continuing past).performAll history = (s.performAll history).continuing past := by
  induction history generalizing s with
  | nil => rfl
  | cons action rest ih =>
    have hfirst := perform_continuing s past action
    change ((s.continuing past).perform action).performAll rest = _
    rw [hfirst, ih]
    rfl

end WordMachine.Session
