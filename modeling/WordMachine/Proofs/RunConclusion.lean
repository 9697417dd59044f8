import WordMachine.Proofs.DirectRun
import WordMachine.Proofs.InputConservation

/-!
How a run with or without a debugger is concluded. Lines are only ever taken away, and nothing that
is logged meanwhile is an error. A run that ends has stopped, has failed, or has come to the end of
its input, which is where the lines end or at a command that ends them.
-/
namespace WordMachine.Session

open Script

variable {s t u : Session} {why : NoInput} {lines rest : List String}

namespace Calm

theorem print (h : s.Calm) (lines : List String) : (s.print lines).Calm := by
  unfold Session.print
  dsimp only
  split <;> exact h

theorem ask (h : s.Calm) : s.ask.Calm := by
  unfold Session.ask
  dsimp only
  split <;> exact h

theorem refuse (h : s.Calm) (command : String) (r : Debugger.Refusal) :
    (s.refuse command r).1.Calm := by
  unfold Session.refuse
  split
  · exact h
  · split
    · exact h.print _
    · exact (h.note Log.Level.debug_lt_error).print _

theorem execute (h : s.Calm) (command : String) : (s.execute command).1.Calm := by
  unfold Session.execute
  split
  · exact h.refuse command _
  · split
    · exact h.refuse command _
    · exact h
    next answer _ =>
      have hanswered : Session.Calm { s with
          machine := answer.machine
          observer := s.observer.withTracer answer.tracer } := h
      exact (hanswered.trace _).print _

end Calm

structure Heeds (s t : Session) : Prop where
  front : t.front = s.front
  lines : t.lines ⊆ s.lines
  ending : t.ending = s.ending
  calm : s.Calm → t.Calm

namespace Heeds

theorem refl (s : Session) : s.Heeds s := ⟨rfl, List.Subset.refl _, rfl, id⟩

theorem trans (h : s.Heeds t) (h' : t.Heeds u) : s.Heeds u where
  front := h'.front.trans h.front
  lines := List.Subset.trans h'.lines h.lines
  ending := h'.ending.trans h.ending
  calm := fun hs => h'.calm (h.calm hs)

theorem of_sameSource (h : s.SameSource t) (hcalm : s.Calm → t.Calm) : s.Heeds t :=
  ⟨h.front, h.lines ▸ List.Subset.refl _, h.ending, hcalm⟩

theorem ask (s : Session) : s.Heeds s.ask :=
  .of_sameSource (Undisturbed.ask s).toSameSource Calm.ask

theorem take (h : rest ⊆ s.lines) : s.Heeds { s.ask with lines := rest } :=
  ⟨(ask s).front, h, (ask s).ending, (ask s).calm⟩

theorem execute (s : Session) (command : String) : s.Heeds (s.execute command).1 :=
  .of_sameSource (sameSource_execute s command) fun hs => hs.execute command

theorem readPast (h : s.lines = lines) : s.Heeds (s.readPast lines).1 := by
  induction lines generalizing s with
  | nil => exact take (List.nil_subset _)
  | cons line rest ih =>
    have hrest : rest ⊆ s.lines := h ▸ List.subset_cons_self line rest
    cases hcommand : command? line with
    | none =>
      rw [readPast_of_plain hcommand]
      exact take hrest
    | some command =>
      have hexecuted := (take hrest).trans (execute { s.ask with lines := rest } command)
      have hlines := (sameSource_execute { s.ask with lines := rest } command).lines
      rw [readPast_of_command hcommand]
      generalize { s.ask with lines := rest }.execute command = executed at hexecuted hlines ⊢
      obtain ⟨t, _ | why⟩ := executed
      · exact hexecuted.trans (ih hlines)
      · exact hexecuted

theorem readLine (s : Session) : s.Heeds s.readLine.1 := by
  unfold Session.readLine
  split
  · exact refl s
  · split
    · exact ask s
    next line rest hlines => exact take (hlines ▸ List.subset_cons_self line rest)
  · exact readPast rfl

theorem handed (s : Session) (line : String) : s.Heeds (s.handed line) :=
  .of_sameSource ⟨rfl, rfl, rfl⟩ fun hs => (hs.note Log.Level.debug_lt_error).feed line

theorem ready (s : Session) : s.Heeds s.ready.1 := by
  have hread := readLine s
  obtain ⟨-, hready⟩ | ⟨t, why, -, hline, hready⟩ | ⟨t, line, -, hline, hready⟩ := ready_cases s
  · rw [hready]
    exact refl s
  · rw [hline] at hread
    rw [hready]
    exact hread
  · rw [hline] at hread
    rw [hready]
    exact hread.trans (handed t line)

theorem settle (s : Session) : s.Heeds s.settle.1 :=
  .of_sameSource (sameSource_settle s) Calm.settle

theorem step (s : Session) : s.Heeds s.step.1 := by
  cases hnone : s.ready.2 with
  | some why =>
    rw [step_of_ready_some hnone]
    exact ready s
  | none =>
    rw [step_of_ready_none hnone]
    exact (ready s).trans (settle _)

theorem after (s : Session) (n : Nat) : s.Heeds (s.after n) :=
  after_keeps (P := s.Heeds) (fun h => h.trans (step _)) (refl s) n

theorem run (s : Session) (fuel : Nat) : s.Heeds (s.run fuel).1 := by
  rw [run_eq_after]
  exact after s _

end Heeds

def Closes (s : Session) (why : NoInput) : Prop :=
  why = s.ending ∨ s.HasDebugger ∧ ∃ line ∈ s.lines, ending? line = some why

theorem Closes.of_heeds (h : s.Heeds t) (hclose : t.Closes why) : s.Closes why := by
  obtain hlack | ⟨⟨prompt, shared, hfront⟩, line, hline, hends⟩ := hclose
  · exact .inl (hlack.trans h.ending)
  · exact .inr ⟨⟨prompt, shared, h.front.symm.trans hfront⟩, line, h.lines hline, hends⟩

theorem closes_readPast (hdebugger : s.HasDebugger) (hlines : s.lines = lines)
    (h : (s.readPast lines).2 = .error why) : s.Closes why := by
  induction lines generalizing s with
  | nil =>
    cases h
    exact .inl rfl
  | cons line rest ih =>
    have hrest : rest ⊆ s.lines := hlines ▸ List.subset_cons_self line rest
    cases hcommand : command? line with
    | none =>
      rw [readPast_of_plain hcommand] at h
      cases h
    | some command =>
      have hends : ending? line = endingOf? command := by
        rw [ending?, hcommand]
        rfl
      have hending := execute_ending { s.ask with lines := rest } command
      have hasked := Heeds.take hrest
      have hexecuted := Heeds.execute { s.ask with lines := rest } command
      have hkept := (sameSource_execute { s.ask with lines := rest } command).lines
      rw [readPast_of_command hcommand] at h
      generalize { s.ask with lines := rest }.execute command = executed
        at h hending hexecuted hkept
      obtain ⟨t, _ | why'⟩ := executed
      · obtain ⟨prompt, shared, hfront⟩ := hdebugger
        have hheeds := hasked.trans hexecuted
        exact .of_heeds hheeds (ih ⟨prompt, shared, hheeds.front.trans hfront⟩ hkept h)
      · cases h
        exact .inr ⟨hdebugger, line, hlines ▸ List.mem_cons_self, hends.trans hending.symm⟩

theorem closes_readLine (hfront : s.front ≠ .absent) (h : s.readLine.2 = .error why) :
    s.Closes why := by
  cases hkind : s.front with
  | absent => exact absurd hkind hfront
  | direct =>
    rw [readLine, hkind] at h
    dsimp only at h
    split at h
    · cases h
      exact .inl rfl
    · cases h
  | debugger prompt shared =>
    have hdebugger : s.HasDebugger := ⟨prompt, shared, hkind⟩
    rw [hdebugger.readLine_eq] at h
    exact closes_readPast hdebugger rfl h

theorem closes_step (hfront : s.front ≠ .absent) (h : s.step.2 = .noInput why) :
    s.Closes why := by
  cases hnone : s.ready.2 with
  | some why' =>
    rw [step_of_ready_some hnone] at h
    cases h
    exact closes_readLine hfront (awaits_of_ready hnone).2
  | none =>
    obtain ⟨hwait, hready⟩ | ⟨t, why', -, -, hready⟩ | ⟨t, line, hwait, hline, -⟩ := ready_cases s
    · rw [step_eq_ready, hready] at h
      exact absurd h (settle_ne_noInput (fun hs => hwait (Machine.awaits_iff_starved.mpr hs)) why)
    · rw [hready] at hnone
      cases hnone
    · exact absurd h ((taken_of_line hwait (congrArg Prod.snd hline)).2 why)

inductive Concludes (s : Session) : Event → Prop where
  | stopped {reason : StopReason} : Concludes s (.stopped reason)
  | failed {f : Fault} : Concludes s (.failed f)
  | closed {why : NoInput} : s.Closes why → Concludes s (.noInput why)

theorem concludes_of_run (hw : s.machine.WellFormed) (hfront : s.front ≠ .absent) {fuel : Nat}
    {event : Event} (hrun : s.run fuel = (t, some event)) : s.Concludes event := by
  cases hstop : s.machine.stop with
  | some reason =>
    rw [run_of_stopped hstop] at hrun
    cases hrun
    exact .stopped
  | none =>
    obtain ⟨n, -, hlast, hends⟩ := (run_ends_iff hstop).mp ⟨fuel, hrun⟩
    have hevent : (s.after n).step.2 = event := congrArg Prod.snd hlast
    have hheeds := Heeds.after s n
    cases event with
    | running => exact absurd rfl hends
    | stopped => exact .stopped
    | failed => exact .failed
    | unreported => exact absurd hevent (step_ne_unreported (wellFormed_after hw n))
    | noInput why =>
      exact .closed (.of_heeds hheeds (closes_step (hheeds.front ▸ hfront) hevent))

end WordMachine.Session
