import WordMachine.Proofs.DebuggerTransparency
import WordMachine.Proofs.TraceAccount

/-!
No code of the input is lost, read twice or read out of turn. What arrives is queued, and only an
input instruction takes a code from the queue, the one in front. A line is asked for by an input
instruction that finds no code waiting, and by nothing else.
-/
namespace WordMachine

theorem Instruction.Plans.queue {m : Machine} {i : Instruction} {e : Effect} (h : i.Plans m e) :
    e.queue = if i.opcode = .in then m.console.queue.tail else m.console.queue := by
  cases h with
  | keeps hkeeps =>
    cases hkeeps with
    | @binary op => cases op <;> rfl
    | _ => rfl
  | @branch onZero => cases onZero <;> rfl
  | input hqueue =>
    rw [hqueue]
    rfl
  | _ => rfl

namespace Machine

variable {m : Machine}

theorem queue_afterFailure (m : Machine) (i : Instruction) :
    (m.afterFailure i).console.queue =
      if i.opcode = .in then m.console.queue.tail else m.console.queue := by
  cases i with
  | input a => rw [afterFailure, take_snd]; rfl
  | binary op => cases op <;> rfl
  | branch onZero => cases onZero <;> rfl
  | _ => rfl

theorem queue_step (m : Machine) :
    m.step.1.console.queue =
      if m.Fetches .in then m.console.queue.tail else m.console.queue := by
  rw [step_eq]
  cases hdecode : Instruction.decode m.memory m.pc with
  | error c =>
    have hnot : ¬m.Fetches .in := by
      intro hin
      cases hdecode.symm.trans hin.decode
    rw [if_neg hnot]
  | ok i =>
    simp only [fetches_iff_of_decode hdecode, carryOut]
    rcases hplan : i.plan m with c | _ | e
    · exact queue_afterFailure m i
    · have hqueue : m.console.queue = [] :=
        (starved_cases (by rw [step_eq_carryOut hdecode, carryOut_starved_iff, hplan])).2.1
      simp [hqueue]
    · rw [perform_queue, (Instruction.plans_of_plan hplan).queue]

end Machine

namespace Session

variable {s t : Session}

def arrival? (s : Session) : Option String :=
  if s.machine.Awaits then s.readLine.2.toOption else none

/-- The code that a step takes from the queue, whether or not it can be stored. -/
def taken? (s : Session) : Option UInt8 :=
  if s.machine.Fetches .in then s.ready.1.machine.console.queue.head? else none

def asking? (s : Session) : Option Int :=
  if s.machine.Awaits then some s.machine.pc else none

theorem queue_ready (s : Session) :
    s.ready.1.machine.console.queue =
      s.machine.console.queue ++ s.arrival?.toList.flatMap lineBytes := by
  unfold arrival?
  have hread := (Attended.readLine s).machine.queue
  obtain ⟨hwait, hready⟩ | ⟨t, why, hwait, hline, hready⟩ | ⟨t, line, hwait, hline, hready⟩ :=
    ready_cases s
  · simp [hready, hwait]
  · rw [hline] at hread
    simpa [hready, hwait, hline, Except.toOption] using hread
  · rw [hline] at hread
    simpa [hready, hwait, hline, Except.toOption, handed_eq, CharConsole.feed] using hread

theorem queue_settle (s : Session) :
    s.settle.1.machine.console.queue =
      if s.machine.Fetches .in then s.machine.console.queue.tail else s.machine.console.queue := by
  rw [← Machine.queue_step]
  have hqueue := congrArg (fun m : Machine => m.console.queue) (settle_muted s).1
  exact hqueue

theorem queue_of_step (s : Session) :
    s.step.1.machine.console.queue =
      if s.machine.Fetches .in then s.ready.1.machine.console.queue.tail
      else s.ready.1.machine.console.queue := by
  have hqueue := queue_ready s
  cases hready : s.ready.2 with
  | some why =>
    obtain ⟨hwait, hread⟩ := awaits_of_ready hready
    have hempty : s.ready.1.machine.console.queue = [] := by
      simp [hqueue, arrival?, hwait, hread, hwait.2, Except.toOption]
    simp [step_of_ready_some hready, hempty]
  | none =>
    rw [step_of_ready_none hready, queue_settle]
    simp only [fetches_ready]

section Asked

theorem asked_trace (line : Option TraceLine) : (s.trace line).asked = s.asked := by
  cases line with
  | none => rfl
  | some line =>
    unfold trace
    dsimp only
    split <;> rfl

theorem asked_print (lines : List String) : (s.print lines).asked = s.asked := by
  unfold print
  split <;> rfl

theorem asked_refuse (command : String) (r : Debugger.Refusal) :
    (s.refuse command r).1.asked = s.asked := by
  unfold refuse
  split
  · rfl
  · rw [asked_print]
    split <;> rfl

theorem asked_execute (s : Session) (command : String) :
    (s.execute command).1.asked = s.asked := by
  unfold execute
  split
  · exact asked_refuse _ _
  · split
    · exact asked_refuse _ _
    · rfl
    · rw [asked_print, asked_trace]

theorem asked_settle (s : Session) : s.settle.1.asked = s.asked := by
  rw [settle_eq]
  rcases s.machine.step with ⟨m, r | f | _ | _⟩
  · have hwatch : ({ s with machine := m }.watch r).asked = s.asked := asked_trace _
    simp only [conclude, witness]
    split <;> exact hwatch
  all_goals rfl

theorem readLine_of_direct (h : s.front = .direct) :
    s.readLine.1.asked = s.asked + 1 ∧ s.readLine.1.lines = s.lines.tail ∧
      s.readLine.2.toOption = s.lines.head? := by
  have hask : s.ask.asked = s.asked + 1 ∧ s.ask.lines = s.lines := by
    unfold ask
    dsimp only
    rw [h]
    exact ⟨rfl, rfl⟩
  unfold readLine
  rw [h]
  dsimp only
  split
  next hlines =>
    rw [hlines] at hask ⊢
    exact ⟨hask.1, hask.2, rfl⟩
  next hlines =>
    rw [hlines]
    exact ⟨hask.1, rfl, rfl⟩

end Asked

/-- Input that goes into a session while it becomes another one: the lines that arrive, the codes
that are taken and where lines are asked for. -/
structure Consumes (s t : Session) (arrived : List String) (taken : List UInt8)
    (askers : List Int) : Prop where
  conserved : taken ++ t.machine.console.queue =
    s.machine.console.queue ++ arrived.flatMap lineBytes
  front : t.front = s.front
  asked : s.front = .direct → t.asked = s.asked + askers.length

namespace Consumes

theorem refl (s : Session) : s.Consumes s [] [] [] := ⟨by simp, rfl, by simp⟩

theorem of_eq (hqueue : t.machine.console.queue = s.machine.console.queue)
    (hfront : t.front = s.front) (hasked : t.asked = s.asked) : s.Consumes t [] [] [] :=
  ⟨by simp [hqueue], hfront, by simp [hasked]⟩

theorem trans {u : Session} {arrived more : List String} {taken rest : List UInt8}
    {askers later : List Int} (h : s.Consumes t arrived taken askers)
    (h' : t.Consumes u more rest later) :
    s.Consumes u (arrived ++ more) (taken ++ rest) (askers ++ later) where
  conserved := by
    rw [List.append_assoc, h'.conserved, ← List.append_assoc, h.conserved, List.flatMap_append,
      List.append_assoc]
  front := h'.front.trans h.front
  asked := by
    intro hdirect
    rw [h'.asked (h.front.trans hdirect), h.asked hdirect, List.length_append, Nat.add_assoc]

/-- A step takes the code in front once the line that it waits for is queued. -/
theorem step (s : Session) :
    s.Consumes s.step.1 s.arrival?.toList s.taken?.toList s.asking?.toList where
  conserved := by
    rw [queue_of_step, ← queue_ready, taken?]
    split
    · cases s.ready.1.machine.console.queue <;> rfl
    · rfl
  front := front_step s
  asked := by
    intro hdirect
    have hstep := step_eq_ready s
    have hread := (readLine_of_direct hdirect).1
    unfold asking?
    obtain ⟨hwait, hready⟩ | ⟨t, why, hwait, hline, hready⟩ | ⟨t, line, hwait, hline, hready⟩ :=
      ready_cases s
    · rw [hstep, hready, if_neg hwait]
      exact asked_settle s
    · rw [hline] at hread
      rw [hstep, hready, if_pos hwait]
      exact hread
    · rw [hline] at hread
      rw [hstep, hready, if_pos hwait]
      exact (asked_settle (t.handed line)).trans hread

theorem after (s : Session) (n : Nat) :
    s.Consumes (s.after n) (s.gathered arrival? n) (s.gathered taken? n)
      (s.gathered asking? n) := by
  induction n generalizing s with
  | zero => exact refl s
  | succ n ih => exact (step s).trans (ih s.step.1)

theorem feed (s : Session) (line : String) : s.Consumes (s.feed line) [line] [] [] where
  conserved := rfl
  front := rfl
  asked := fun _ => rfl

end Consumes

/-- What can be done with a session and with whoever hands out its lines. -/
inductive Turn where
  /-- There are these lines to be handed out from now on. -/
  | provide (lines : List String) (ending : NoInput)
  | act (action : Action)

def turn (s : Session) : Turn → Session
  | .provide lines ending => { s with lines, ending }
  | .act action => s.perform action

def stepsIn (s : Session) : Turn → Nat
  | .act .step => 1
  | .act (.run fuel) => s.runLength fuel
  | _ => 0

def arrivals (s : Session) : Turn → List String
  | .act (.feed line) => [line]
  | t => s.gathered arrival? (s.stepsIn t)

def takings (s : Session) (t : Turn) : List UInt8 := s.gathered taken? (s.stepsIn t)

def askings (s : Session) (t : Turn) : List Int := s.gathered asking? (s.stepsIn t)

theorem Consumes.attempt (s : Session) {result : Except Cause Machine}
    (h : ∀ m, result = .ok m → m.console.queue = s.machine.console.queue) :
    s.Consumes (s.attempt result) [] [] [] := by
  cases result with
  | ok m => exact .of_eq (h m rfl) rfl rfl
  | error c => exact refl s

theorem Consumes.turn (s : Session) {t : Turn} (ht : t ≠ .act .reset) :
    s.Consumes (s.turn t) (s.arrivals t) (s.takings t) (s.askings t) := by
  cases t with
  | provide lines ending => exact .of_eq rfl rfl rfl
  | act action =>
    cases action with
    | step => exact .after s 1
    | run fuel =>
      rw [Session.turn, perform, run_eq_after]
      exact .after s _
    | feed line => exact .feed s line
    | setRegister index v =>
      apply attempt
      intro m hm
      exact (Machine.attended_of_setRegister hm).queue
    | store x v =>
      apply attempt
      intro m hm
      obtain ⟨-, -, rfl⟩ := Machine.store_ok_iff.mp hm
      rw [Machine.keep_console]
    | load image base =>
      apply attempt
      intro m hm
      obtain ⟨memory, -, hm⟩ := exists_of_bind_ok hm
      cases hm
      rfl
    | reset => exact absurd rfl ht
    | command text =>
      have hsource := sameSource_execute s text
      exact .of_eq (Attended.execute s text).machine.queue hsource.front (asked_execute s text)

/-- What the turns of a history give, in order. -/
def throughout {α : Type} (f : Session → Turn → List α) (s : Session) : List Turn → List α
  | [] => []
  | t :: rest => f s t ++ throughout f (s.turn t) rest

def turns (s : Session) (history : List Turn) : Session := history.foldl turn s

theorem Consumes.turns (s : Session) {history : List Turn} (h : .act .reset ∉ history) :
    s.Consumes (s.turns history) (s.throughout arrivals history) (s.throughout takings history)
      (s.throughout askings history) := by
  induction history generalizing s with
  | nil => exact refl s
  | cons t rest ih =>
    rw [List.mem_cons, not_or] at h
    exact (turn s (Ne.symm h.1)).trans (ih (s.turn t) h.2)

theorem taken_of_line (hwait : s.machine.Awaits) {line : String}
    (hread : s.readLine.2 = .ok line) :
    (∃ code, s.taken? = some code) ∧ ∀ why, s.step.2 ≠ .noInput why := by
  have hstep := step_eq_ready s
  have hqueue : s.ready.1.machine.console.queue = lineBytes line := by
    rw [queue_ready, arrival?, if_pos hwait, hread, hwait.2]
    simp [Except.toOption]
  have hne : s.ready.1.machine.console.queue ≠ [] := by simp [hqueue, lineBytes]
  constructor
  · rw [taken?, if_pos hwait.1]
    exact ⟨_, List.head?_eq_some_head hne⟩
  · obtain ⟨hnot, -⟩ | ⟨t, why, -, hline, -⟩ | ⟨t, line, -, -, hready⟩ := ready_cases s
    · exact absurd hwait hnot
    · rw [hline] at hread
      cases hread
    · rw [hready] at hstep hne
      rw [hstep]
      exact settle_ne_noInput (Machine.step_ne_starved hne)

theorem stored_of_taken (hin : s.machine.Fetches .in) (hok : s.step.2.Succeeds) :
    ∃ code, s.taken? = some code ∧ s.storedCode? = some (code.toNat : Int) := by
  obtain ⟨r, hmade⟩ := Option.isSome_iff_exists.mp ((isSome_made_iff s).mpr hok)
  obtain ⟨i, e, hdecode, hplans, -, hstep⟩ := step_of_made hmade
  obtain rfl := Except.ok.inj (hin.decode.symm.trans hdecode)
  have hmuted : s.step.1.machine.muted = (s.ready.1.machine.perform e).muted := by
    rw [hstep]
    exact (witness_eq _ _).1
  have hcodes := codes_record hdecode hplans hok hmuted
  cases hplans with
  | keeps hkeeps => cases hkeeps
  | @input _ code _ _ hqueue _ =>
    refine ⟨code, by rw [taken?, if_pos hin, hqueue]; rfl, ?_⟩
    cases hstored : s.storedCode? with
    | none =>
      rw [hstored] at hcodes
      cases hcodes
    | some v =>
      rw [hstored] at hcodes
      cases hcodes
      rfl

theorem lines_step (h : s.front = .direct) : s.arrival?.toList ++ s.step.1.lines = s.lines := by
  have hstep := step_eq_ready s
  obtain ⟨-, hlines, hhead⟩ := readLine_of_direct h
  have hparts : s.lines.head?.toList ++ s.lines.tail = s.lines := by cases s.lines <;> rfl
  obtain ⟨hwait, hready⟩ | ⟨t, why, hwait, hline, hready⟩ | ⟨t, line, hwait, hline, hready⟩ :=
    ready_cases s
  · rw [hstep, hready, arrival?, if_neg hwait]
    exact (sameSource_settle s).lines
  · rw [hline] at hlines
    rw [hstep, hready, arrival?, if_pos hwait, hhead, hlines]
    exact hparts
  · rw [hline] at hlines
    have hsettle : (t.handed line).settle.1.lines = t.lines := (sameSource_settle _).lines
    rw [hstep, hready, arrival?, if_pos hwait, hhead, hsettle, hlines]
    exact hparts

/-- No code of the input is lost, read twice or read out of turn. Since no code was waiting, as none
is after a reset, the codes that have been taken, together with those that are waiting, are those of
the lines that have arrived. Lines are asked for by the input instructions that find no code
waiting, once by each, and such an instruction has a code to store if it is given a line. -/
theorem input_conserved :
    (∀ (s : Session) (history : List Turn), s.machine.console.queue = [] →
      .act .reset ∉ history →
        s.throughout takings history ++ (s.turns history).machine.console.queue =
            (s.throughout arrivals history).flatMap lineBytes ∧
          (s.front = .direct →
            (s.turns history).asked = s.asked + (s.throughout askings history).length)) ∧
    (∀ s : Session, (s.perform .reset).machine.console.queue = []) ∧
    (∀ s : Session, s.front = .direct →
      s.arrival?.toList ++ s.step.1.lines = s.lines ∧
        s.step.1.asked = s.asked + if s.machine.Awaits then 1 else 0) ∧
    (∀ (s : Session) (line : String), s.machine.Awaits → s.readLine.2 = .ok line →
      (∃ code, s.taken? = some code) ∧ ∀ why, s.step.2 ≠ .noInput why) ∧
    (∀ s : Session, s.machine.Fetches .in → s.step.2.Succeeds →
      ∃ code, s.taken? = some code ∧ s.storedCode? = some (code.toNat : Int)) := by
  refine ⟨fun s history hempty h => ?_, fun s => rfl, fun s h => ⟨lines_step h, ?_⟩, ?_,
    fun s => stored_of_taken⟩
  · have hconsumes := Consumes.turns s h
    have hconserved := hconsumes.conserved
    rw [hempty, List.nil_append] at hconserved
    exact ⟨hconserved, hconsumes.asked⟩
  · rw [(Consumes.step s).asked h, asking?]
    split <;> rfl
  · intro s line hwait hread
    exact taken_of_line hwait hread

def brokenOff : List Turn :=
  [.act .step, .act (.feed ""), .provide [] .interrupted, .act (.run 9)]

theorem reading_conserved :
    (.act .reset ∉ brokenOff ∧ reading.front = .direct ∧
      [65, 10, 10] ++ ((reading.perform .reset).turns brokenOff).machine.console.queue =
        ["A", ""].flatMap lineBytes ∧
      ((reading.perform .reset).turns brokenOff).asked = reading.asked + [(0 : Int), 0].length) ∧
    (reading.machine.Awaits ∧ reading.readLine.2 = .ok "A" ∧ ∃ code, reading.taken? = some code) ∧
    (reading.machine.Fetches .in ∧ reading.step.2.Succeeds ∧
      ∃ code, reading.taken? = some code ∧ reading.storedCode? = some (code.toNat : Int)) := by
  obtain ⟨hhistory, hreset, -, hlines, hstored⟩ := input_conserved
  have hkept : .act .reset ∉ brokenOff := by simp [brokenOff]
  have hwait : reading.machine.Awaits := by decide +kernel
  have hok : reading.step.2.Succeeds := by decide +kernel
  have htaken : (reading.perform .reset).throughout takings brokenOff = [65, 10, 10] := by
    decide +kernel
  have harrived : (reading.perform .reset).throughout arrivals brokenOff = ["A", ""] := by
    decide +kernel
  have hasked : (reading.perform .reset).throughout askings brokenOff = [0, 0] := by
    decide +kernel
  obtain ⟨hqueue, hcount⟩ := hhistory _ brokenOff (hreset reading) hkept
  rw [htaken, harrived] at hqueue
  rw [hasked] at hcount
  exact ⟨⟨hkept, rfl, hqueue, hcount rfl⟩, ⟨hwait, rfl, (hlines reading "A" hwait rfl).1⟩,
    hwait.1, hok, hstored reading hwait.1 hok⟩

end Session

end WordMachine
