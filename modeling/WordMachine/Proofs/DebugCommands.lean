import Mathlib.Data.List.Basic
import WordMachine.Proofs.LetterCase
import WordMachine.Proofs.Script

/-!
What the commands of a debugger may do, for every session and every text. The words of a command
are read by a small grammar, or rejected for their name, their number or a numeral among them. Of
the commands that can be read, `reg` sets a register and `trace` starts or stops a tracer; all
others, and all that are refused, do nothing but write.
-/
namespace WordMachine

namespace Debugger

abbrev Names (word : List Char) (name : String) : Prop := Text.lower (String.ofList word) = name

def names : List String := ["help", "regs", "reg", "stack", "mem", "trace", "quit"]

/-- The words of a command that can be read. -/
inductive Reads : List (List Char) → Command → Prop where
  | blank : Reads [] .help
  | help {word arguments} (hname : Names word "help") : Reads (word :: arguments) .help
  | regs {word arguments} (hname : Names word "regs") : Reads (word :: arguments) .regs
  | reg {word n x index value} (hname : Names word "reg") (hn : number n = .ok index)
      (hx : number x = .ok value) : Reads [word, n, x] (.reg index value)
  | stack {word arguments} (hname : Names word "stack") : Reads (word :: arguments) .stack
  | mem {word a start} (hname : Names word "mem") (ha : number a = .ok start) :
      Reads [word, a] (.mem start 64)
  | memCount {word a n start count} (hname : Names word "mem") (ha : number a = .ok start)
      (hn : number n = .ok count) : Reads [word, a, n] (.mem start count)
  | trace {word arguments} (hname : Names word "trace") :
      Reads (word :: arguments) (.trace (arguments.map String.ofList))
  | quit {word arguments} (hname : Names word "quit") : Reads (word :: arguments) .quit

inductive Unreadable : List (List Char) → Prop where
  | unknown {word arguments} (hname : ∀ name ∈ names, ¬Names word name) :
      Unreadable (word :: arguments)
  | regCount {word arguments} (hname : Names word "reg") (hcount : arguments.length ≠ 2) :
      Unreadable (word :: arguments)
  | memCount {word arguments} (hname : Names word "mem")
      (hcount : ¬(1 ≤ arguments.length ∧ arguments.length ≤ 2)) : Unreadable (word :: arguments)
  | numeral {word arguments text} (hname : Names word "reg" ∨ Names word "mem")
      (hmem : text ∈ arguments) (htext : ∀ x, number text ≠ .ok x) : Unreadable (word :: arguments)

/-- A command that is read fails for its register, its value, its address or its switch, or for want
of a tracer. -/
def Command.Fails (tracer : Option Tracer) : Command → Prop
  | .reg index value => ¬((0 ≤ index ∧ index ≤ 7) ∧ IsWord value)
  | .mem start _ => ¬IsAddress start
  | .trace arguments => tracer = none ∨ arguments ∉ [[], ["on"], ["off"]]
  | _ => False

inductive Rejected (tracer : Option Tracer) (words : List (List Char)) : Prop where
  | unreadable (h : Unreadable words)
  | failing {c} (h : Reads words c) (hfails : c.Fails tracer)

def switchWord (on : Bool) : String := if on then "on" else "off"

section Reading

variable {word : List Char} {arguments : List (List Char)}

theorem exists_error_of_not_number {text : List Char} (h : ∀ x, number text ≠ .ok x) :
    ∃ r, number text = .error r := by
  cases hnumber : number text with
  | ok x => exact absurd hnumber (h x)
  | error r => exact ⟨r, rfl⟩

theorem ofWords_reg (hname : Names word "reg") :
    Command.ofWords word arguments = match arguments with
      | [n, x] => do return .reg (← number n) (← number x)
      | _ => .error (.usage "reg N VALUE") := by
  simp only [Command.ofWords, hname]
  rfl

theorem ofWords_mem (hname : Names word "mem") :
    Command.ofWords word arguments = match arguments with
      | [a] => do return .mem (← number a) 64
      | [a, n] => do return .mem (← number a) (← number n)
      | _ => .error (.usage "mem ADDR [COUNT]") := by
  simp only [Command.ofWords, hname]
  rfl

theorem ofWords_of_reads {c : Command} (h : Reads (word :: arguments) c) :
    Command.ofWords word arguments = .ok c := by
  cases h with
  | help hname | regs hname | stack hname | trace hname | quit hname =>
    simp [Command.ofWords, hname]
  | reg hname hn hx =>
    rw [ofWords_reg hname]
    dsimp only
    rw [hn, hx]
    rfl
  | mem hname ha =>
    rw [ofWords_mem hname]
    dsimp only
    rw [ha]
    rfl
  | memCount hname ha hn =>
    rw [ofWords_mem hname]
    dsimp only
    rw [ha, hn]
    rfl

theorem exists_error_of_pair {n x text : List Char} {k : Int → Int → Command}
    (hmem : text ∈ [n, x]) (htext : ∀ v, number text ≠ .ok v) :
    ∃ r, (do return k (← number n) (← number x) : Except Refusal Command) = .error r := by
  obtain ⟨r, hr⟩ := exists_error_of_not_number htext
  cases hn : number n with
  | error r => exact ⟨r, rfl⟩
  | ok index =>
    have hx : text = x := by
      obtain rfl | hx := List.mem_cons.mp hmem
      · exact absurd hn (htext index)
      · exact List.mem_singleton.mp hx
    rw [← hx, hr]
    exact ⟨r, rfl⟩

theorem exists_error_of_unreadable (h : Unreadable (word :: arguments)) :
    ∃ r, Command.ofWords word arguments = .error r := by
  cases h with
  | unknown hname =>
    have hnames : ∀ name ∈ names, Text.lower (String.ofList word) ≠ name := hname
    simp only [names, List.forall_mem_cons] at hnames
    simp [Command.ofWords, hnames]
  | regCount hname hcount =>
    rw [ofWords_reg hname]
    split
    · exact absurd rfl hcount
    · exact ⟨_, rfl⟩
  | memCount hname hcount =>
    rw [ofWords_mem hname]
    split
    · exact absurd ⟨Nat.le_refl 1, Nat.le_succ 1⟩ hcount
    · exact absurd ⟨Nat.le_succ 1, Nat.le_refl 2⟩ hcount
    · exact ⟨_, rfl⟩
  | numeral hname hmem htext =>
    obtain hname | hname := hname
    · rw [ofWords_reg hname]
      split
      · exact exists_error_of_pair hmem htext
      · exact ⟨_, rfl⟩
    · rw [ofWords_mem hname]
      split
      · obtain rfl := List.mem_singleton.mp hmem
        obtain ⟨r, hr⟩ := exists_error_of_not_number htext
        rw [hr]
        exact ⟨r, rfl⟩
      · exact exists_error_of_pair hmem htext
      · exact ⟨_, rfl⟩

theorem exists_reads_of_reg (hname : Names word "reg")
    (hall : ∀ text ∈ arguments, ∃ x, number text = .ok x) (hcount : arguments.length = 2) :
    ∃ c, Reads (word :: arguments) c := by
  obtain ⟨n, x, rfl⟩ := List.length_eq_two.mp hcount
  obtain ⟨index, hn⟩ := hall n (by simp)
  obtain ⟨value, hx⟩ := hall x (by simp)
  exact ⟨_, .reg hname hn hx⟩

theorem exists_reads_of_mem (hname : Names word "mem")
    (hall : ∀ text ∈ arguments, ∃ x, number text = .ok x)
    (hcount : 1 ≤ arguments.length ∧ arguments.length ≤ 2) :
    ∃ c, Reads (word :: arguments) c := by
  obtain hone | htwo : arguments.length = 1 ∨ arguments.length = 2 := by omega
  · obtain ⟨a, rfl⟩ := List.length_eq_one_iff.mp hone
    obtain ⟨start, ha⟩ := hall a (by simp)
    exact ⟨_, .mem hname ha⟩
  · obtain ⟨a, n, rfl⟩ := List.length_eq_two.mp htwo
    obtain ⟨start, ha⟩ := hall a (by simp)
    obtain ⟨count, hn⟩ := hall n (by simp)
    exact ⟨_, .memCount hname ha hn⟩

theorem reads_or_unreadable_of_numerals {takes : Prop}
    (hname : Names word "reg" ∨ Names word "mem")
    (hread : (∀ text ∈ arguments, ∃ x, number text = .ok x) → takes →
      ∃ c, Reads (word :: arguments) c)
    (hcount : ¬takes → Unreadable (word :: arguments)) :
    (∃ c, Reads (word :: arguments) c) ∨ Unreadable (word :: arguments) := by
  by_cases htakes : takes
  · by_cases hall : ∀ text ∈ arguments, ∃ x, number text = .ok x
    · exact .inl (hread hall htakes)
    · push Not at hall
      obtain ⟨text, hmem, htext⟩ := hall
      exact .inr (.numeral hname hmem htext)
  · exact .inr (hcount htakes)

theorem reads_or_unreadable (words : List (List Char)) :
    (∃ c, Reads words c) ∨ Unreadable words := by
  cases words with
  | nil => exact .inl ⟨_, .blank⟩
  | cons word arguments =>
    by_cases hknown : ∃ name ∈ names, Names word name
    · obtain ⟨name, hmem, hname⟩ := hknown
      simp only [names, List.mem_cons, List.not_mem_nil, or_false] at hmem
      obtain rfl | rfl | rfl | rfl | rfl | rfl | rfl := hmem
      · exact .inl ⟨_, .help hname⟩
      · exact .inl ⟨_, .regs hname⟩
      · exact reads_or_unreadable_of_numerals (.inl hname) (exists_reads_of_reg hname)
          (.regCount hname)
      · exact .inl ⟨_, .stack hname⟩
      · exact reads_or_unreadable_of_numerals (.inr hname) (exists_reads_of_mem hname)
          (.memCount hname)
      · exact .inl ⟨_, .trace hname⟩
      · exact .inl ⟨_, .quit hname⟩
    · exact .inr (.unknown fun name hmem hname => hknown ⟨name, hmem, hname⟩)

theorem ofLine_eq {line : String} (h : Text.words line.toList = word :: arguments) :
    Command.ofLine line = Command.ofWords word arguments := by
  rw [Command.ofLine, h]

theorem ofLine_of_reads {line : String} {c : Command} (h : Reads (Text.words line.toList) c) :
    Command.ofLine line = .ok c := by
  cases hwords : Text.words line.toList with
  | nil =>
    rw [hwords] at h
    cases h
    rw [Command.ofLine, hwords]
  | cons word arguments =>
    rw [ofLine_eq hwords]
    exact ofWords_of_reads (hwords ▸ h)

theorem exists_error_of_unreadable_line {line : String} (h : Unreadable (Text.words line.toList)) :
    ∃ r, Command.ofLine line = .error r := by
  cases hwords : Text.words line.toList with
  | nil =>
    rw [hwords] at h
    cases h
  | cons word arguments =>
    rw [ofLine_eq hwords]
    exact exists_error_of_unreadable (hwords ▸ h)

theorem ofLine_ok_iff {line : String} {c : Command} :
    Command.ofLine line = .ok c ↔ Reads (Text.words line.toList) c := by
  refine ⟨fun h => ?_, ofLine_of_reads⟩
  obtain ⟨c', hreads⟩ | hunreadable := reads_or_unreadable (Text.words line.toList)
  · rw [ofLine_of_reads hreads] at h
    exact Except.ok.inj h ▸ hreads
  · obtain ⟨r, hr⟩ := exists_error_of_unreadable_line hunreadable
    cases hr.symm.trans h

end Reading

section Running

variable {line : String} {c : Command} {m : Machine} {tracer : Option Tracer}

/-- What a command comes to: it is refused, it is answered, or it leaves the debugger. -/
def outcome (line : String) (m : Machine) (tracer : Option Tracer) :
    Except Refusal (Option Answer) := do
  let c ← Command.ofLine line
  c.run m tracer

theorem outcome_of_reads (h : Reads (Text.words line.toList) c) :
    outcome line m tracer = c.run m tracer := by
  rw [outcome, ofLine_of_reads h]
  rfl

theorem run_of_bad_switch (m : Machine) (t : Tracer) {arguments : List String}
    (h : arguments ∉ [[], ["on"], ["off"]]) :
    (Command.trace arguments).run m (some t) = .error (.usage "trace on|off") := by
  unfold Command.run
  dsimp only
  split
  next hswitch =>
    split at hswitch
    · exact absurd (by simp) h
    · exact absurd (by simp) h
    · exact absurd (by simp) h
    · cases hswitch
  next => rfl

theorem run_error_iff : (∃ r, c.run m tracer = .error r) ↔ c.Fails tracer := by
  cases c with
  | help | regs | stack | quit =>
    refine iff_of_false ?_ id
    rintro ⟨r, ⟨⟩⟩
  | reg index value =>
    cases hset : m.setRegister index value with
    | ok n =>
      obtain ⟨hindex, hvalue, -⟩ := Machine.setRegister_ok_iff.mp hset
      refine iff_of_false ?_ (not_not.mpr ⟨by omega, hvalue⟩)
      simp [Command.run, hset]
    | error cause =>
      refine iff_of_true ⟨_, by rw [Command.run, hset]⟩ ?_
      rintro ⟨hindex, hvalue⟩
      have hbelow : 0 ≤ index ∧ index < 8 := by omega
      cases hset.symm.trans (Machine.setRegister_ok_iff.mpr ⟨hbelow, hvalue, rfl⟩)
  | mem start count =>
    by_cases hstart : IsAddress start
    · obtain ⟨dump, hdump⟩ : ∃ dump, m.memory.hexDump start count = .ok dump := by
        rw [Memory.hexDump, checkAddress, dif_pos hstart]
        exact ⟨_, rfl⟩
      refine iff_of_false ?_ (not_not.mpr hstart)
      simp [Command.run, hdump]
    · have hdump : m.memory.hexDump start count = .error (.noSuchCell start) := by
        rw [Memory.hexDump, checkAddress, dif_neg hstart]
        rfl
      exact iff_of_true ⟨_, by rw [Command.run, hdump]⟩ hstart
  | trace arguments =>
    cases tracer with
    | none => exact iff_of_true ⟨_, rfl⟩ (.inl rfl)
    | some t =>
      by_cases harguments : arguments ∈ [[], ["on"], ["off"]]
      · refine iff_of_false ?_ (by simp [Command.Fails, harguments])
        simp only [List.mem_cons, List.not_mem_nil, or_false] at harguments
        obtain rfl | rfl | rfl := harguments <;> rintro ⟨r, ⟨⟩⟩
      · exact iff_of_true ⟨_, run_of_bad_switch m t harguments⟩ (.inr harguments)

theorem rejected_iff :
    Rejected tracer (Text.words line.toList) ↔ ∃ r, outcome line m tracer = .error r := by
  constructor
  · intro h
    cases h with
    | unreadable h =>
      obtain ⟨r, hr⟩ := exists_error_of_unreadable_line h
      rw [outcome, hr]
      exact ⟨r, rfl⟩
    | failing h hfails =>
      rw [outcome_of_reads h]
      exact run_error_iff.mpr hfails
  · intro hrefused
    obtain ⟨c, h⟩ | h := reads_or_unreadable (Text.words line.toList)
    · rw [outcome_of_reads h] at hrefused
      exact .failing h (run_error_iff.mp hrefused)
    · exact .unreadable h

theorem run_reg (m : Machine) (tracer : Option Tracer) (i : RegisterIndex) {v : Int}
    (hv : IsWord v) : ∃ lines, (Command.reg i.val v).run m tracer =
      .ok (some { machine := { m with registers := m.registers.set i v }, tracer, lines }) := by
  have hindex : (0 : Int) ≤ i.val ∧ (i.val : Int) < 8 := by omega
  have hkeep : m.keep (32768 + i.val) v = { m with registers := m.registers.set i v } := by
    have hregister : IsRegister (32768 + i.val) := by omega
    rw [Machine.keep_eq, if_neg (by omega), Registers.setNamed, dif_pos hregister]
    congr 3
    omega
  rw [Command.run, Machine.setRegister_ok_iff.mpr ⟨hindex, hv, hkeep.symm⟩]
  exact ⟨_, rfl⟩

theorem run_switch (m : Machine) (t : Tracer) (on : Bool) :
    ∃ lines stamp, (Command.trace [switchWord on]).run m (some t) =
      .ok (some { machine := m, tracer := some { t with running := on }, lines, stamp }) := by
  obtain ⟨running, records⟩ := t
  cases on <;> cases running <;> exact ⟨_, _, rfl⟩

theorem run_other {answer : Answer} (h : c.run m tracer = .ok (some answer))
    (hreg : ∀ i : RegisterIndex, ∀ v, IsWord v → c ≠ .reg i.val v)
    (htrace : ∀ on, c = .trace [switchWord on] → tracer = none) :
    answer.machine = m ∧ answer.tracer = tracer := by
  have hsound : ¬c.Fails tracer := by
    intro hfails
    obtain ⟨r, hr⟩ := run_error_iff.mpr hfails
    cases hr.symm.trans h
  cases c with
  | help | regs | stack =>
    cases h
    exact ⟨rfl, rfl⟩
  | quit => cases h
  | reg index value =>
    obtain ⟨hindex, hvalue⟩ := not_not.mp hsound
    refine absurd ?_ (hreg ⟨index.toNat, by omega⟩ value hvalue)
    rw [Int.toNat_of_nonneg hindex.1]
  | mem start count =>
    rw [Command.run] at h
    split at h <;> cases h
    exact ⟨rfl, rfl⟩
  | trace arguments =>
    obtain ⟨htracer, harguments⟩ := not_or.mp hsound
    obtain ⟨t, rfl⟩ := Option.ne_none_iff_exists'.mp htracer
    simp only [List.mem_cons, List.not_mem_nil, or_false, not_not] at harguments
    obtain rfl | rfl | rfl := harguments
    · cases h
      exact ⟨rfl, rfl⟩
    · cases htrace true rfl
    · cases htrace false rfl

end Running

end Debugger

open Debugger

theorem Observer.withTracer_tracer? (o : Observer) : o.withTracer o.tracer? = o := by
  cases o <;> rfl

namespace Session

variable {s t : Session} {command : String}

theorem execute_eq (s : Session) (command : String) :
    s.execute command = match outcome command s.machine s.observer.tracer? with
      | .error r => s.refuse command r
      | .ok none => (s, some .quit)
      | .ok (some answer) =>
        let t := { s with
          machine := answer.machine, observer := s.observer.withTracer answer.tracer }
        ((t.trace answer.stamp).print answer.lines, none) := by
  rw [execute, outcome]
  cases Command.ofLine command <;> rfl

/-- What a command may do to a session. -/
structure Obeys (s : Session) (words : List (List Char)) (t : Session) (result : Option NoInput) :
    Prop where
  /-- It ends the input if it is `quit`, in any letter case. -/
  quits : result = some .quit ↔
    ∃ word arguments, words = word :: arguments ∧ word.map Char.toLower = "quit".toList
  /-- Nothing else ends the input but a number that is too long to be written. -/
  unwritable : ∀ why, result = some why → why ≠ .quit →
    why = .unreported ∧ ∃ text ∈ words, ∃ x, number text = .ok x ∧ ¬Text.IsWritable x
  /-- Of the machine, nothing changes but registers and what is shown where the program writes. -/
  machine : ∃ text, t.machine = share { s.machine with registers := t.machine.registers } text
  /-- It sets one register, if it is `reg` with the numerals of a register and of a word. -/
  sets : ∀ (i : RegisterIndex) (v : Int), Reads words (.reg i.val v) → IsWord v →
    ∀ j, t.machine.registers.get j = if j = i then v else s.machine.registers.get j
  /-- Otherwise it sets none. -/
  keeps : (∀ (i : RegisterIndex) (v : Int), Reads words (.reg i.val v) → ¬IsWord v) →
    t.machine.registers = s.machine.registers
  /-- It starts or stops a tracer, if it is `trace on` or `trace off`. -/
  switches : ∀ tracer on, s.observer = .tracer tracer → Reads words (.trace [switchWord on]) →
    t.observer = .tracer { tracer with running := on }
  /-- Otherwise no tracer changes. -/
  observes : (∀ on, Reads words (.trace [switchWord on]) → s.observer.tracer? = none) →
    t.observer = s.observer
  /-- A rejected command does nothing but write. -/
  rejected : Rejected s.observer.tracer? words → s.OnlyWrites t

theorem OnlyWrites.registers (h : s.OnlyWrites t) :
    t.machine.registers = s.machine.registers := by
  obtain ⟨text, ht⟩ := h.machine
  rw [ht]
  rfl

theorem OnlyWrites.execute_of_error {r : Refusal}
    (h : outcome command s.machine s.observer.tracer? = .error r) :
    s.OnlyWrites (s.execute command).1 := by
  rw [execute_eq, h]
  exact refuse s command r

theorem OnlyWrites.execute_of_answer {answer : Debugger.Answer}
    (h : outcome command s.machine s.observer.tracer? = .ok (some answer)) :
    OnlyWrites
      { s with machine := answer.machine, observer := s.observer.withTracer answer.tracer }
      (s.execute command).1 := by
  rw [execute_eq, h]
  exact (trace _ _).trans (print _ _)

theorem onlyWrites_of_rejected
    (h : Rejected s.observer.tracer? (Text.words command.toList)) :
    s.OnlyWrites (s.execute command).1 := by
  obtain ⟨r, hr⟩ := (rejected_iff (m := s.machine)).mp h
  exact .execute_of_error hr

theorem onlyWrites_of_sets {i : RegisterIndex} {v : Int}
    (h : Reads (Text.words command.toList) (.reg i.val v)) (hv : IsWord v) :
    OnlyWrites
      { s with machine := { s.machine with registers := s.machine.registers.set i v } }
      (s.execute command).1 := by
  obtain ⟨lines, hrun⟩ := run_reg s.machine s.observer.tracer? i hv
  have hexecute := OnlyWrites.execute_of_answer ((outcome_of_reads h).trans hrun)
  rwa [Observer.withTracer_tracer?] at hexecute

theorem onlyWrites_of_switches {tracer : Tracer} {on : Bool} (htracer : s.observer = .tracer tracer)
    (h : Reads (Text.words command.toList) (.trace [switchWord on])) :
    OnlyWrites { s with observer := .tracer { tracer with running := on } }
      (s.execute command).1 := by
  have hobserver : s.observer.tracer? = some tracer := by rw [htracer]; rfl
  obtain ⟨lines, stamp, hrun⟩ := run_switch s.machine tracer on
  rw [← hobserver] at hrun
  exact .execute_of_answer ((outcome_of_reads h).trans hrun)

theorem onlyWrites_of_other
    (hreg : ∀ (i : RegisterIndex) (v : Int),
      Reads (Text.words command.toList) (.reg i.val v) → ¬IsWord v)
    (htrace : ∀ on, Reads (Text.words command.toList) (.trace [switchWord on]) →
      s.observer.tracer? = none) :
    s.OnlyWrites (s.execute command).1 := by
  cases houtcome : outcome command s.machine s.observer.tracer? with
  | error r => exact .execute_of_error houtcome
  | ok answer =>
    cases answer with
    | none =>
      rw [execute_eq, houtcome]
      exact .refl s
    | some answer =>
      obtain ⟨c, hc, hrun⟩ := exists_of_bind_ok houtcome
      have hreads := ofLine_ok_iff.mp hc
      obtain ⟨hmachine, hobserver⟩ := run_other hrun
        (fun i v hv heq => hreg i v (heq ▸ hreads) hv) (fun on heq => htrace on (heq ▸ hreads))
      have hexecute := OnlyWrites.execute_of_answer houtcome
      rwa [hmachine, hobserver, Observer.withTracer_tracer?] at hexecute

/-- Besides writing, a command sets a register, or it switches a tracer, or it does nothing. -/
theorem execute_changes (s : Session) (command : String) :
    (∃ (i : RegisterIndex) (v : Int),
      Reads (Text.words command.toList) (.reg i.val v) ∧ IsWord v ∧ OnlyWrites
        { s with machine := { s.machine with registers := s.machine.registers.set i v } }
        (s.execute command).1) ∨
    (∃ tracer on, s.observer = .tracer tracer ∧
      Reads (Text.words command.toList) (.trace [switchWord on]) ∧ OnlyWrites
        { s with observer := .tracer { tracer with running := on } } (s.execute command).1) ∨
    s.OnlyWrites (s.execute command).1 := by
  by_cases hsets : ∃ (i : RegisterIndex) (v : Int),
      Reads (Text.words command.toList) (.reg i.val v) ∧ IsWord v
  · obtain ⟨i, v, hreads, hv⟩ := hsets
    exact .inl ⟨i, v, hreads, hv, onlyWrites_of_sets hreads hv⟩
  by_cases hswitches : ∃ tracer on, s.observer = .tracer tracer ∧
      Reads (Text.words command.toList) (.trace [switchWord on])
  · obtain ⟨tracer, on, htracer, hreads⟩ := hswitches
    exact .inr (.inl ⟨tracer, on, htracer, hreads, onlyWrites_of_switches htracer hreads⟩)
  refine .inr (.inr (onlyWrites_of_other ?_ ?_))
  · exact fun i v hreads hv => hsets ⟨i, v, hreads, hv⟩
  · intro on hreads
    cases hobserver : s.observer with
    | none | recorder => rfl
    | tracer tracer => exact absurd ⟨tracer, on, hobserver, hreads⟩ hswitches

theorem exists_number_of_shown {words : List (List Char)} {c : Command} {cause : Cause}
    (h : Reads words c) (hcause : c.cause? = some cause) {x : Int} (hx : x ∈ cause.shown) :
    ∃ text ∈ words, number text = .ok x := by
  cases h with
  | reg hname hn hvalue =>
    rw [Command.cause?] at hcause
    split at hcause
    · split at hcause
      · cases hcause
      · cases hcause
        obtain rfl := List.mem_singleton.mp hx
        exact ⟨_, by simp, hvalue⟩
    · cases hcause
      obtain rfl := List.mem_singleton.mp hx
      exact ⟨_, by simp, hn⟩
  | mem hname ha | memCount hname ha =>
    rw [Command.cause?] at hcause
    split at hcause
    · cases hcause
    · cases hcause
      obtain rfl := List.mem_singleton.mp hx
      exact ⟨_, by simp, ha⟩
  | _ => cases hcause

theorem reads_quit_iff {words : List (List Char)} : Reads words .quit ↔
    ∃ word arguments, words = word :: arguments ∧ word.map Char.toLower = "quit".toList := by
  have hsmall : ∀ c ∈ "quit".toList, Text.IsPlainSmall c := by
    simp [Text.IsPlainSmall]
  have hnames (word : List Char) : Names word "quit" ↔ word.map Char.toLower = "quit".toList :=
    Text.lower_eq_iff hsmall
  constructor
  · intro h
    cases h with
    | quit hname => exact ⟨_, _, rfl, (hnames _).mp hname⟩
  · rintro ⟨word, arguments, rfl, hname⟩
    exact .quit ((hnames word).mpr hname)

theorem execute_quits_iff : (s.execute command).2 = some .quit ↔
    Reads (Text.words command.toList) .quit := by
  rw [execute_ending]
  constructor
  · intro h
    obtain ⟨c, hc, ⟨rfl, -⟩ | ⟨_, -, -, hwhy⟩⟩ := Script.endingOf?_eq_some h
    · exact ofLine_ok_iff.mp hc
    · cases hwhy
  · intro h
    rw [Script.endingOf?, ofLine_of_reads h]
    rfl

theorem exists_unwritable_of_ending {why : NoInput} (h : (s.execute command).2 = some why)
    (hwhy : why ≠ .quit) : why = .unreported ∧
      ∃ text ∈ Text.words command.toList, ∃ x, number text = .ok x ∧ ¬Text.IsWritable x := by
  rw [execute_ending] at h
  obtain ⟨c, hc, ⟨-, hquit⟩ | ⟨cause, hcause, hreportable, rfl⟩⟩ := Script.endingOf?_eq_some h
  · exact absurd hquit hwhy
  · simp only [Cause.IsReportable, Classical.not_forall] at hreportable
    obtain ⟨x, hx, hunwritable⟩ := hreportable
    obtain ⟨text, hmem, hnumber⟩ := exists_number_of_shown (ofLine_ok_iff.mp hc) hcause hx
    exact ⟨rfl, text, hmem, x, hnumber, hunwritable⟩

/-- Every command obeys, whatever its text and whatever the session. -/
theorem execute_obeys (s : Session) (command : String) :
    s.Obeys (Text.words command.toList) (s.execute command).1 (s.execute command).2 where
  quits := execute_quits_iff.trans reads_quit_iff
  unwritable _ := exists_unwritable_of_ending
  machine := by
    obtain ⟨i, v, -, -, hwrites⟩ | ⟨tracer, on, -, -, hwrites⟩ | hwrites :=
      execute_changes s command
    all_goals rw [hwrites.registers]; exact hwrites.machine
  sets i v hreads hv j := by
    rw [(onlyWrites_of_sets hreads hv).registers, Registers.get_set]
    simp only [eq_comm]
  keeps hkeeps := by
    obtain ⟨i, v, hreads, hv, -⟩ | ⟨tracer, on, -, -, hwrites⟩ | hwrites :=
      execute_changes s command
    · exact absurd hv (hkeeps i v hreads)
    · exact hwrites.registers
    · exact hwrites.registers
  switches tracer on htracer hreads := (onlyWrites_of_switches htracer hreads).observer
  observes hobserves := by
    obtain ⟨i, v, -, -, hwrites⟩ | ⟨tracer, on, htracer, hreads, -⟩ | hwrites :=
      execute_changes s command
    · exact hwrites.observer
    · have hnone := hobserves on hreads
      rw [htracer] at hnone
      cases hnone
    · exact hwrites.observer
  rejected := onlyWrites_of_rejected

def attendedBlank : Session where
  machine := {}
  front := .debugger "> " false
  observer := .tracer {}

theorem attendedBlank_obeys :
    (∀ j, (attendedBlank.execute "REG 3 0x10").1.machine.registers.get j =
      if j = 3 then 16 else 0) ∧
      (attendedBlank.execute "trace on").1.observer = .tracer { running := true } ∧
      attendedBlank.OnlyWrites (attendedBlank.execute "reg 8 1").1 ∧
      (attendedBlank.execute "QuIt now").2 = some .quit := by
  have hreg : Text.words "REG 3 0x10".toList = ["REG".toList, ['3'], "0x10".toList] := by
    simp [Text.words, Text.isBlank]
  have htrace : Text.words "trace on".toList = ["trace".toList, "on".toList] := by
    simp [Text.words, Text.isBlank]
  have hwrong : Text.words "reg 8 1".toList = ["reg".toList, ['8'], ['1']] := by
    simp [Text.words, Text.isBlank]
  have hquit : Text.words "QuIt now".toList = ["QuIt".toList, "now".toList] := by
    simp [Text.words, Text.isBlank]
  refine ⟨?_, ?_, ?_, ?_⟩
  · intro j
    refine ((execute_obeys attendedBlank "REG 3 0x10").sets 3 16 ?_ (by decide) j).trans ?_
    · rw [hreg]
      exact .reg (by decide +kernel) rfl rfl
    · rw [attendedBlank, Registers.get_zero]
  · refine (execute_obeys attendedBlank "trace on").switches {} true rfl ?_
    rw [htrace]
    exact .trace (by decide +kernel)
  · refine (execute_obeys attendedBlank "reg 8 1").rejected ?_
    rw [hwrong]
    have hreads : Reads ["reg".toList, ['8'], ['1']] (.reg 8 1) :=
      .reg (by decide +kernel) rfl rfl
    exact .failing hreads fun hfits => absurd hfits (by decide)
  · refine (execute_obeys attendedBlank "QuIt now").quits.mpr ?_
    rw [hquit]
    exact ⟨_, _, rfl, by decide⟩

end Session

end WordMachine
