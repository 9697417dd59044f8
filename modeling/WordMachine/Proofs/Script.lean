import WordMachine.Proofs.InputSchedule

/-!
Scripts: the lines that a debugger reads. How a line bears on the input can be told from its text
alone. Lines that are no commands are passed on; `quit` ends the input, and so does a command that
is refused for a number which is too long to be written. Apart from `reg`, no command changes
anything that matters to the program.
-/
namespace WordMachine

namespace Debugger

def Command.cause? : Command → Option Cause
  | .reg index value =>
    if 0 ≤ index ∧ index < 8 then if IsWord value then none else some (.tooWide value)
    else some (.noSuchRegister index)
  | .mem start _ => if IsAddress start then none else some (.noSuchCell start)
  | _ => none

def Refusal.ending? (r : Refusal) : Option NoInput :=
  if r.text? = none then some .unreported else none

theorem Refusal.ending?_cause (c : Cause) :
    Refusal.ending? (.cause c) = if c.IsReportable then none else some .unreported := by
  have htext : (Refusal.cause c).text? = c.report?.map Fault.text := rfl
  rw [Refusal.ending?, htext, Cause.report?]
  by_cases h : c.IsReportable
  · rw [if_pos h, if_pos h]
    rfl
  · rw [if_neg h, if_neg h]
    rfl

def Command.ending? (c : Command) : Option NoInput :=
  if c = .quit then some .quit else c.cause?.bind fun cause => Refusal.ending? (.cause cause)

def Command.Sets : Command → Prop
  | .reg index value => (Command.reg index value).cause? = none
  | _ => False

def Worded {α : Type} (x : Except Refusal α) : Prop := ∀ r, x = .error r → r.text? ≠ none

namespace Worded

variable {α β : Type}

theorem ok (v : α) : Worded (.ok v) := nofun

theorem error {r : Refusal} (h : r.text? ≠ none) : Worded (.error r : Except Refusal α) := by
  rintro _ ⟨⟩
  exact h

theorem bind {x : Except Refusal α} {k : α → Except Refusal β} (hx : Worded x)
    (hk : ∀ v, Worded (k v)) : Worded (x >>= k) := by
  cases x with
  | error r => exact error (hx r rfl)
  | ok v => exact hk v

theorem number (text : List Char) : Worded (number text) := by
  unfold Debugger.number
  dsimp only
  cases Text.integer _ text with
  | error => exact error (Option.some_ne_none _)
  | ok v => exact ok v

theorem ofWords (name : List Char) (arguments : List (List Char)) :
    Worded (Command.ofWords name arguments) := by
  unfold Command.ofWords
  dsimp only
  split
  · exact ok _
  split
  · exact ok _
  split
  · split
    · exact (number _).bind fun _ => (number _).bind fun _ => ok _
    · exact error (Option.some_ne_none _)
  split
  · exact ok _
  split
  · split
    · exact (number _).bind fun _ => ok _
    · exact (number _).bind fun _ => (number _).bind fun _ => ok _
    · exact error (Option.some_ne_none _)
  split
  · exact ok _
  split
  · exact ok _
  · exact error (Option.some_ne_none _)

theorem ofLine (line : String) : Worded (Command.ofLine line) := by
  unfold Command.ofLine
  split
  · exact ok _
  · exact ofWords _ _

end Worded

section Running

variable {c : Command} {m : Machine} {tracer : Option Tracer}

theorem ending?_of_cause {cause : Cause} (hne : c ≠ .quit) (h : c.cause? = some cause) :
    c.ending? = Refusal.ending? (.cause cause) := by
  rw [Command.ending?, if_neg hne, h]
  rfl

theorem ending?_of_no_cause (hne : c ≠ .quit) (h : c.cause? = none) : c.ending? = none := by
  rw [Command.ending?, if_neg hne, h]
  rfl

theorem ending?_of_sets (h : c.Sets) : c.ending? = none := by
  cases c with
  | reg => exact ending?_of_no_cause Command.noConfusion h
  | _ => exact h.elim

theorem setRegister_cases (m : Machine) (index value : Int) :
    (∃ n, m.setRegister index value = .ok n ∧ (Command.reg index value).cause? = none) ∨
      ∃ c, m.setRegister index value = .error c ∧ (Command.reg index value).cause? = some c := by
  unfold Machine.setRegister
  rw [Command.cause?]
  by_cases hindex : 0 ≤ index ∧ index < 8
  · rw [if_pos hindex, if_pos hindex]
    by_cases hvalue : IsWord value
    · exact .inl ⟨_, Machine.store_ok_iff.mpr ⟨by omega, hvalue, rfl⟩, if_pos hvalue⟩
    · rw [Machine.store, Machine.destination_of_not_word (by omega) hvalue]
      exact .inr ⟨_, rfl, if_neg hvalue⟩
  · rw [if_neg hindex, if_neg hindex]
    exact .inr ⟨_, rfl, rfl⟩

theorem hexDump_cases (m : Memory) (start count : Int) :
    (∃ dump, m.hexDump start count = .ok dump ∧ (Command.mem start count).cause? = none) ∨
      ∃ c, m.hexDump start count = .error c ∧ (Command.mem start count).cause? = some c := by
  unfold Memory.hexDump checkAddress
  rw [Command.cause?]
  by_cases hstart : IsAddress start
  · rw [dif_pos hstart]
    exact .inl ⟨_, rfl, if_pos hstart⟩
  · rw [dif_neg hstart]
    exact .inr ⟨_, rfl, if_neg hstart⟩

theorem run_cases (c : Command) (m : Machine) (tracer : Option Tracer) :
    (c.run m tracer = .ok none ∧ c.ending? = some .quit) ∨
      (∃ r, c.run m tracer = .error r ∧ c.ending? = r.ending?) ∨
      ∃ answer, c.run m tracer = .ok (some answer) ∧ c.ending? = none ∧
        (¬c.Sets → answer.machine = m) := by
  cases c with
  | help | regs | stack => exact .inr (.inr ⟨_, rfl, rfl, fun _ => rfl⟩)
  | quit => exact .inl ⟨rfl, rfl⟩
  | reg index value =>
    have hne : Command.reg index value ≠ .quit := Command.noConfusion
    rw [Command.run]
    obtain ⟨n, hset, hcause⟩ | ⟨cause, hset, hcause⟩ := setRegister_cases m index value
    · rw [hset]
      exact .inr (.inr ⟨_, rfl, ending?_of_no_cause hne hcause, fun hsets => absurd hcause hsets⟩)
    · rw [hset]
      exact .inr (.inl ⟨_, rfl, ending?_of_cause hne hcause⟩)
  | mem start count =>
    have hne : Command.mem start count ≠ .quit := Command.noConfusion
    rw [Command.run]
    obtain ⟨dump, hdump, hcause⟩ | ⟨cause, hdump, hcause⟩ := hexDump_cases m.memory start count
    · rw [hdump]
      exact .inr (.inr ⟨_, rfl, ending?_of_no_cause hne hcause, fun _ => rfl⟩)
    · rw [hdump]
      exact .inr (.inl ⟨_, rfl, ending?_of_cause hne hcause⟩)
  | trace arguments =>
    cases tracer with
    | none => exact .inr (.inl ⟨.noTracer, rfl, rfl⟩)
    | some t =>
      simp only [Command.run]
      split
      · exact .inr (.inr ⟨_, rfl, rfl, fun _ => rfl⟩)
      · exact .inr (.inl ⟨_, rfl, rfl⟩)

end Running

end Debugger

open Debugger

namespace Script

def command? (line : String) : Option String :=
  match line.toList with
  | '!' :: command => some (String.ofList command)
  | _ => none

def endingOf? (command : String) : Option NoInput :=
  match Command.ofLine command with
  | .ok c => c.ending?
  | .error r => r.ending?

def ending? (line : String) : Option NoInput := (command? line).bind endingOf?

def Sets (line : String) : Prop :=
  ∃ command c, command? line = some command ∧ Command.ofLine command = .ok c ∧ c.Sets

/-- The lines before the first one that ends the input. -/
def heard (lines : List String) : List String :=
  lines.takeWhile fun line => (ending? line).isNone

/-- The lines that are passed on to the program. -/
def passed (lines : List String) : List String :=
  (heard lines).filter fun line => (command? line).isNone

/-- How the input ends, which may be for want of lines. -/
def closing (lack : NoInput) (lines : List String) : NoInput :=
  (lines.findSome? ending?).getD lack

/-- No register is set before the input ends. -/
def Quiet (lines : List String) : Prop := ∀ line ∈ heard lines, ¬Sets line

section Equations

variable {line : String} {rest : List String} {lack : NoInput}

theorem command?_of_cons {text : List Char} (h : line.toList = '!' :: text) :
    command? line = some (String.ofList text) := by
  rw [command?, h]
  rfl

theorem command?_eq_none_iff : command? line = none ↔ line.toList.head? ≠ some '!' := by
  refine ⟨fun hnone hhead => ?_, fun hhead => ?_⟩
  · obtain ⟨text, hline⟩ := List.head?_eq_some_iff.mp hhead
    cases (command?_of_cons hline).symm.trans hnone
  · unfold command?
    split
    next text hline =>
      rw [hline] at hhead
      exact absurd rfl hhead
    next => rfl

theorem exists_of_command? {command : String} (h : command? line = some command) :
    ∃ text, line.toList = '!' :: text ∧ command = String.ofList text := by
  have hhead : line.toList.head? = some '!' := by
    refine Decidable.byContradiction fun hhead => ?_
    cases (command?_eq_none_iff.mpr hhead).symm.trans h
  obtain ⟨text, hline⟩ := List.head?_eq_some_iff.mp hhead
  exact ⟨text, hline, Option.some.inj (h.symm.trans (command?_of_cons hline))⟩

theorem heard_cons (h : ending? line = none) : heard (line :: rest) = line :: heard rest := by
  rw [heard, List.takeWhile_cons_of_pos (by rw [h]; rfl)]
  rfl

theorem heard_of_ending {why : NoInput} (h : ending? line = some why) :
    heard (line :: rest) = [] := by
  rw [heard, List.takeWhile_cons_of_neg (by rw [h]; exact Bool.false_ne_true)]

theorem closing_cons (h : ending? line = none) :
    closing lack (line :: rest) = closing lack rest := by
  rw [closing, List.findSome?_cons_of_isNone (by rw [h]; rfl)]
  rfl

theorem closing_of_ending {why : NoInput} (h : ending? line = some why) :
    closing lack (line :: rest) = why := by
  rw [closing, List.findSome?_cons_of_isSome (by rw [h]; rfl), h]
  rfl

theorem passed_cons {command : String} (hcommand : command? line = some command)
    (h : ending? line = none) : passed (line :: rest) = passed rest := by
  rw [passed, heard_cons h, List.filter_cons_of_neg (by rw [hcommand]; exact Bool.false_ne_true)]
  rfl

theorem passed_of_ending {why : NoInput} (h : ending? line = some why) :
    passed (line :: rest) = [] := by
  rw [passed, heard_of_ending h, List.filter_nil]

theorem ending?_of_plain (h : command? line = none) : ending? line = none := by
  rw [ending?, h]
  rfl

theorem passed_of_plain (h : command? line = none) :
    passed (line :: rest) = line :: passed rest := by
  rw [passed, heard_cons (ending?_of_plain h), List.filter_cons_of_pos (by rw [h]; rfl)]
  rfl

theorem Quiet.tail (hq : Quiet (line :: rest)) (h : ending? line = none) : Quiet rest := by
  rw [Quiet, heard_cons h] at hq
  exact fun l hl => hq l (List.mem_cons_of_mem _ hl)

theorem Quiet.head (hq : Quiet (line :: rest)) : ¬Sets line := by
  cases h : ending? line with
  | none =>
    rw [Quiet, heard_cons h] at hq
    exact hq line List.mem_cons_self
  | some why =>
    -- A command that ends the input is refused or leaves the debugger.
    rintro ⟨command, c, hcommand, hc, hsets⟩
    rw [ending?, hcommand, Option.bind_some, endingOf?, hc] at h
    cases (ending?_of_sets hsets).symm.trans h

end Equations

/-- A command that ends the input leaves the debugger, or is refused for a number which is too long
to be written. -/
theorem endingOf?_eq_some {command : String} {why : NoInput} (h : endingOf? command = some why) :
    ∃ c, Command.ofLine command = .ok c ∧
      ((c = .quit ∧ why = .quit) ∨
        ∃ cause, c.cause? = some cause ∧ ¬cause.IsReportable ∧ why = .unreported) := by
  unfold endingOf? at h
  cases hc : Command.ofLine command with
  | error r =>
    rw [hc] at h
    have hnone : r.ending? = none := if_neg (Worded.ofLine command r hc)
    cases hnone.symm.trans h
  | ok c =>
    rw [hc] at h
    change c.ending? = some why at h
    refine ⟨c, rfl, ?_⟩
    by_cases hquit : c = .quit
    · subst hquit
      cases h
      exact .inl ⟨rfl, rfl⟩
    · cases hcause : c.cause? with
      | none => cases (ending?_of_no_cause hquit hcause).symm.trans h
      | some cause =>
        rw [ending?_of_cause hquit hcause, Refusal.ending?_cause] at h
        split at h
        · contradiction
        next hreportable => exact .inr ⟨cause, rfl, hreportable, (Option.some.inj h).symm⟩

theorem ending?_eq_some {line : String} {why : NoInput} (h : ending? line = some why) :
    ∃ command c, command? line = some command ∧ Command.ofLine command = .ok c ∧
      ((c = .quit ∧ why = .quit) ∨
        ∃ cause, c.cause? = some cause ∧ ¬cause.IsReportable ∧ why = .unreported) := by
  obtain ⟨command, hcommand, hend⟩ := Option.bind_eq_some_iff.mp h
  obtain ⟨c, hc, hwhy⟩ := endingOf?_eq_some hend
  exact ⟨command, c, hcommand, hc, hwhy⟩

end Script

namespace Session

variable {s t u : Session}

theorem share_empty (m : Machine) : share m "" = m := by
  rcases m with ⟨_, _, _, ⟨_, _, _ | sink⟩, _, _, _⟩
  · rfl
  · simp [share]

theorem share_share (m : Machine) (text more : String) :
    share (share m text) more = share m (text ++ more) := by
  rcases m with ⟨_, _, _, ⟨_, _, _ | sink⟩, _, _, _⟩
  · rfl
  · simp [share, String.append_assoc]

/-- Nothing has been done but to write something. -/
structure OnlyWrites (s t : Session) : Prop extends s.SameSource t where
  machine : ∃ text, t.machine = share s.machine text
  observer : t.observer = s.observer

namespace OnlyWrites

theorem refl (s : Session) : s.OnlyWrites s := ⟨⟨rfl, rfl, rfl⟩, ⟨"", (share_empty _).symm⟩, rfl⟩

theorem trans (h : s.OnlyWrites t) (h' : t.OnlyWrites u) : s.OnlyWrites u where
  front := h'.front.trans h.front
  lines := h'.lines.trans h.lines
  ending := h'.ending.trans h.ending
  machine := by
    obtain ⟨text, ht⟩ := h.machine
    obtain ⟨more, hu⟩ := h'.machine
    exact ⟨text ++ more, by rw [hu, ht, share_share]⟩
  observer := h'.observer.trans h.observer

theorem note (s : Session) (r : Log.Record) : s.OnlyWrites (s.note r) :=
  ⟨⟨rfl, rfl, rfl⟩, (refl s).machine, rfl⟩

theorem trace (s : Session) (line : Option TraceLine) : s.OnlyWrites (s.trace line) := by
  cases line with
  | none => exact refl s
  | some line =>
    unfold Session.trace
    dsimp only
    split
    · exact ⟨⟨rfl, rfl, rfl⟩, ⟨_, rfl⟩, rfl⟩
    · exact ⟨⟨rfl, rfl, rfl⟩, (refl s).machine, rfl⟩

theorem print (s : Session) (lines : List String) : s.OnlyWrites (s.print lines) := by
  unfold Session.print
  split
  · exact ⟨⟨rfl, rfl, rfl⟩, ⟨_, rfl⟩, rfl⟩
  · exact ⟨⟨rfl, rfl, rfl⟩, (refl s).machine, rfl⟩

theorem ask (s : Session) : s.OnlyWrites s.ask := by
  unfold Session.ask
  dsimp only
  split
  · exact ⟨⟨rfl, rfl, rfl⟩, ⟨_, rfl⟩, rfl⟩
  · exact ⟨⟨rfl, rfl, rfl⟩, (refl s).machine, rfl⟩

theorem refuse (s : Session) (command : String) (r : Refusal) :
    s.OnlyWrites (s.refuse command r).1 := by
  unfold Session.refuse
  split
  · exact refl s
  · split
    · exact print s _
    · exact (note s _).trans (print _ _)

theorem execute_cases (s : Session) (command : String) :
    s.OnlyWrites (s.execute command).1 ∨
      ∃ c answer, Command.ofLine command = .ok c ∧
        c.run s.machine s.observer.tracer? = .ok (some answer) ∧
        OnlyWrites
          { s with machine := answer.machine, observer := s.observer.withTracer answer.tracer }
          (s.execute command).1 := by
  unfold Session.execute
  cases hc : Command.ofLine command with
  | error r => exact .inl (refuse s command r)
  | ok c =>
    dsimp only
    split
    · exact .inl (refuse s command _)
    · exact .inl (refl s)
    next answer hrun => exact .inr ⟨c, answer, rfl, hrun, (trace _ _).trans (print _ _)⟩

end OnlyWrites

structure Undisturbed (s t : Session) : Prop extends s.SameSource t where
  machine : t.machine.muted = s.machine.muted

theorem OnlyWrites.undisturbed (h : s.OnlyWrites t) : s.Undisturbed t := by
  refine ⟨h.toSameSource, ?_⟩
  obtain ⟨text, ht⟩ := h.machine
  rw [ht]
  rfl

namespace Undisturbed

theorem trans (h : s.Undisturbed t) (h' : t.Undisturbed u) : s.Undisturbed u where
  front := h'.front.trans h.front
  lines := h'.lines.trans h.lines
  ending := h'.ending.trans h.ending
  machine := h'.machine.trans h.machine

theorem ask (s : Session) : s.Undisturbed s.ask := (OnlyWrites.ask s).undisturbed

theorem execute (s : Session) (command : String)
    (h : ∀ c, Command.ofLine command = .ok c → ¬c.Sets) :
    s.Undisturbed (s.execute command).1 := by
  obtain hsame | ⟨c, answer, hc, hanswer, hafter⟩ := OnlyWrites.execute_cases s command
  · exact hsame.undisturbed
  · have hmachine : answer.machine = s.machine := by
      obtain ⟨hrun, -⟩ | ⟨r, hrun, -⟩ | ⟨answer', hrun, -, hsame⟩ :=
        run_cases c s.machine s.observer.tracer?
      all_goals cases hrun.symm.trans hanswer
      exact hsame (h c hc)
    have hanswered : s.Undisturbed { s with
        machine := answer.machine
        observer := s.observer.withTracer answer.tracer } :=
      ⟨⟨rfl, rfl, rfl⟩, congrArg Machine.muted hmachine⟩
    exact hanswered.trans hafter.undisturbed

end Undisturbed

theorem sameSource_execute (s : Session) (command : String) :
    s.SameSource (s.execute command).1 := by
  obtain h | ⟨_, _, -, -, h⟩ := OnlyWrites.execute_cases s command
  · exact h.toSameSource
  · exact ⟨h.front, h.lines, h.ending⟩

theorem refuse_ending (s : Session) (command : String) (r : Refusal) :
    (s.refuse command r).2 = r.ending? := by
  unfold refuse Refusal.ending?
  cases r.text? <;> rfl

theorem execute_ending (s : Session) (command : String) :
    (s.execute command).2 = Script.endingOf? command := by
  unfold execute Script.endingOf?
  cases Command.ofLine command with
  | error r => exact refuse_ending s command r
  | ok c =>
    dsimp only
    obtain ⟨hrun, hend⟩ | ⟨r, hrun, hend⟩ | ⟨answer, hrun, hend, -⟩ :=
      run_cases c s.machine s.observer.tracer?
    · rw [hrun, hend]
    · rw [hrun, hend]
      exact refuse_ending s command r
    · rw [hrun, hend]

section Reading

open Script

variable {line : String} {rest lines : List String}

theorem readPast_of_plain (h : command? line = none) :
    s.readPast (line :: rest) = ({ s.ask with lines := rest }, .ok line) := by
  rw [readPast]
  dsimp only
  split
  next text hline => cases (command?_of_cons hline).symm.trans h
  next => rfl

theorem readPast_of_command {command : String} (h : command? line = some command) :
    s.readPast (line :: rest) = match { s.ask with lines := rest }.execute command with
      | (t, none) => t.readPast rest
      | (t, some why) => (t, .error why) := by
  obtain ⟨text, hline, rfl⟩ := exists_of_command? h
  rw [readPast]
  generalize line.toList = chars at hline
  subst hline
  rfl

theorem plain_of_readPast (h : (s.readPast lines).2 = .ok line) : command? line = none := by
  induction lines generalizing s with
  | nil => cases h
  | cons first later ih =>
    cases hcommand : command? first with
    | none =>
      rw [readPast_of_plain hcommand] at h
      cases h
      exact hcommand
    | some command =>
      rw [readPast_of_command hcommand] at h
      split at h
      · exact ih h
      · cases h

theorem front_readPast (s : Session) (lines : List String) :
    (s.readPast lines).1.front = s.front := by
  induction lines generalizing s with
  | nil => exact (Undisturbed.ask s).front
  | cons first later ih =>
    have hask : s.ask.front = s.front := (Undisturbed.ask s).front
    cases hcommand : command? first with
    | none =>
      rw [readPast_of_plain hcommand]
      exact hask
    | some command =>
      have hexecute := (sameSource_execute { s.ask with lines := later } command).front
      rw [readPast_of_command hcommand]
      generalize { s.ask with lines := later }.execute command = executed at hexecute ⊢
      obtain ⟨t, _ | why⟩ := executed
      · exact (ih t).trans (hexecute.trans hask)
      · exact hexecute.trans hask

structure Ends (s : Session) (lines : List String) (read : Session × Except NoInput String) :
    Prop where
  result : read.2 = .error (closing s.ending lines)
  machine : read.1.machine.muted = s.machine.muted

structure Passes (s : Session) (lines : List String) (line : String) (rest : List String)
    (read : Session × Except NoInput String) : Prop where
  result : read.2 = .ok line
  machine : read.1.machine.muted = s.machine.muted
  later : passed read.1.lines = rest
  ending : closing read.1.ending read.1.lines = closing s.ending lines
  quiet : Quiet read.1.lines

/-- A debugger hands out the lines that a script passes on, and nothing else. -/
theorem readPast_cases (hquiet : Quiet lines) :
    (passed lines = [] ∧ s.Ends lines (s.readPast lines)) ∨
      ∃ line rest, passed lines = line :: rest ∧ s.Passes lines line rest (s.readPast lines) := by
  induction lines generalizing s with
  | nil => exact .inl ⟨rfl, rfl, (Undisturbed.ask s).machine⟩
  | cons line later ih =>
    have hask : s.ask.machine.muted = s.machine.muted := (Undisturbed.ask s).machine
    have hending : s.ask.ending = s.ending := (Undisturbed.ask s).ending
    cases hcommand : command? line with
    | none =>
      have hopen := ending?_of_plain hcommand
      rw [readPast_of_plain hcommand]
      refine .inr ⟨line, passed later, passed_of_plain hcommand, ?_⟩
      refine ⟨rfl, hask, rfl, ?_, hquiet.tail hopen⟩
      rw [closing_cons hopen, hending]
    | some command =>
      have hline : ending? line = endingOf? command := by
        rw [ending?, hcommand]
        rfl
      have hend := execute_ending { s.ask with lines := later } command
      have hexecute := Undisturbed.execute { s.ask with lines := later } command
        fun c hc hsets => hquiet.head ⟨command, c, hcommand, hc, hsets⟩
      rw [readPast_of_command hcommand]
      rw [← hline] at hend
      generalize { s.ask with lines := later }.execute command = executed at hend hexecute ⊢
      obtain ⟨t, result⟩ := executed
      obtain rfl : result = ending? line := hend
      have hmachine : t.machine.muted = s.machine.muted := hexecute.machine.trans hask
      have htending : t.ending = s.ending := hexecute.ending.trans hending
      cases hclosed : ending? line with
      | some why =>
        refine .inl ⟨passed_of_ending hclosed, ?_, hmachine⟩
        rw [closing_of_ending hclosed]
      | none =>
        rw [passed_cons hcommand hclosed]
        obtain ⟨hnone, hends⟩ | ⟨next, rest, hnext, hpasses⟩ := ih (s := t) (hquiet.tail hclosed)
        · refine .inl ⟨hnone, ?_, hends.machine.trans hmachine⟩
          rw [closing_cons hclosed, ← htending]
          exact hends.result
        · refine .inr ⟨next, rest, hnext, hpasses.result, hpasses.machine.trans hmachine,
            hpasses.later, ?_, hpasses.quiet⟩
          rw [closing_cons hclosed, ← htending]
          exact hpasses.ending

end Reading

end Session

end WordMachine
