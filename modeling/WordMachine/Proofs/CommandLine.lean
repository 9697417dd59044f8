import WordMachine.Cli.Arguments

/-!
Command lines that are read as they look. A name that does not begin with a hyphen is an argument,
and an option by its full name is that option, so a command line that spells out what it asks for
asks for just that.
-/
namespace WordMachine.Cli

/-- An argument that cannot be taken for an option. -/
def IsPlainName (argument : String) : Prop := argument.toList.head? ≠ some '-'

instance : DecidablePred IsPlainName := fun _ => inferInstanceAs (Decidable (_ ≠ _))

@[simp] theorem mapError_ok {α ε δ : Type} (f : ε → δ) (a : α) :
    (Except.ok a : Except ε α).mapError f = .ok a := rfl

namespace Grammar

variable {σ : Type} (g : Grammar σ) {argument name value : String} {rule : OptionRule σ}
  {rest : List String}

theorem mark_plain (h : IsPlainName argument) : g.mark argument = .ok .argument := by
  unfold mark
  dsimp only
  split
  next hargument => simp [IsPlainName, hargument] at h
  next => rfl

theorem mark_rule {c : Char} {text : List Char} (hname : name.toList = '-' :: c :: text)
    (h : g.rule? name = some rule) :
    g.mark name = .ok (.option { rule, name, attached := none }) := by
  rw [mark, hname]
  dsimp only
  rw [h]
  rfl

theorem markAll_cons {mark : Mark σ} (hne : argument ≠ "--") (h : g.mark argument = .ok mark) :
    g.markAll (argument :: rest) = (g.markAll rest).map ((mark, argument) :: ·) := by
  rw [markAll, if_neg hne, h]
  dsimp only [bind, Except.bind]
  cases g.markAll rest <;> rfl

theorem markAll_plain (h : IsPlainName argument) :
    g.markAll (argument :: rest) = (g.markAll rest).map ((.argument, argument) :: ·) := by
  refine g.markAll_cons ?_ (g.mark_plain h)
  rintro rfl
  exact h rfl

variable (p : Progress σ) {settings : σ} {marks : List (Mark σ × String)}

theorem work_flag {set : σ → σ} (h : rule.action = .flag set) :
    g.work p ((.option { rule, name, attached := none }, argument) :: marks) =
      g.work { p with settings := set p.settings, met := rule.title :: p.met } marks := by
  rw [work]
  simp [clusterOf, Cluster.bare, OptionRule.takesValue, h, applyAll, apply, pure, Except.pure,
    bind, Except.bind]

theorem work_value {set : Option String → σ → Except String σ} (h : rule.action = .value set)
    (hvalue : value ≠ "--") (hset : set (some value) p.settings = .ok settings) :
    g.work p ((.option { rule, name, attached := none }, argument) :: (.argument, value) :: marks) =
      g.work { p with settings, met := rule.title :: p.met } marks := by
  rw [work]
  simp [clusterOf, Cluster.bare, OptionRule.takesValue, h, applyAll, apply, pure, Except.pure,
    bind, Except.bind, hvalue, hset, mapError_ok, Option.filter]

theorem work_positional (hmet : p.positionalMet = false) (hgreedy : g.positional.greedy = false)
    (hset : g.positional.set [value] p.settings = .ok settings)
    (hnext : ∀ text, marks.head? ≠ some (.separator, text)) :
    g.work p ((.argument, value) :: marks) =
      g.work { p with settings, positionalMet := true } marks := by
  rw [work]
  simp only [hmet, hgreedy, setPositional, hset, mapError_ok, bind, Except.bind, pure,
    Except.pure, Bool.false_eq_true, if_false]
  split
  next text rest => exact absurd rfl (hnext text)
  next => rfl

theorem work_greedy (hmet : p.positionalMet = false) (hgreedy : g.positional.greedy = true)
    (hset : g.positional.set (value :: marks.map (·.2)) p.settings = .ok settings) :
    g.work p ((.argument, value) :: marks) = .ok { p with settings, positionalMet := true } := by
  rw [work]
  simp only [hmet, hgreedy, setPositional, hset, mapError_ok, bind, Except.bind, pure,
    Except.pure, Bool.false_eq_true, if_false, if_true]

end Grammar

theorem readArguments_of_read {arguments rest : List String} {name : String} {verbosity : Nat}
    {logFile : Option String} {command : Command}
    (hmain : mainGrammar.read {} arguments =
      .ok ({ verbosity, logFile, command := some (name, rest) }, []))
    (hcommand : readCommand name rest = .ok (command, [])) :
    readArguments arguments = .ok { verbosity, logFile, command := some command } := by
  rw [readArguments, hmain]
  dsimp only [bind, Except.bind]
  rw [hcommand]
  rfl

/-- Settings of a command by the full names of its options. The program itself does not know these
options, and passes them on as they are. -/
structure Spelling {σ : Type} (g : Grammar σ) (τ : Type) where
  name : τ → String
  value? : τ → Option String
  apply : τ → σ → σ
  name_eq (s : τ) : ∃ c text, (name s).toList = '-' :: c :: text
  name_ne_separator (s : τ) : name s ≠ "--"
  mark_main (s : τ) : mainGrammar.mark (name s) = .ok .unknownOption
  /-- The grammar has a rule for the setting that does what it asks for. -/
  rule_eq (s : τ) : ∃ rule, g.rule? (name s) = some rule ∧
    match value? s with
    | none => rule.action = .flag (apply s)
    | some value => ∃ set, rule.action = .value set ∧ ∀ a, set (some value) a = .ok (apply s a)

namespace Spelling

variable {σ τ : Type} {g : Grammar σ} (sp : Spelling g τ) {settings : List τ} {start fresh : σ}
  {image : String}

def words (s : τ) : List String := sp.name s :: (sp.value? s).toList

theorem markAll_main (hplain : ∀ s ∈ settings, ∀ value ∈ sp.value? s, IsPlainName value) :
    ∃ marks, mainGrammar.markAll (settings.flatMap sp.words) = .ok marks ∧
      marks.map (·.2) = settings.flatMap sp.words := by
  induction settings with
  | nil => exact ⟨[], rfl, rfl⟩
  | cons s settings ih =>
    obtain ⟨marks, hmarks, htexts⟩ := ih fun t ht => hplain t (List.mem_cons_of_mem _ ht)
    have hvalue := hplain s List.mem_cons_self
    rw [List.flatMap_cons, words, List.cons_append,
      mainGrammar.markAll_cons (sp.name_ne_separator s) (sp.mark_main s)]
    cases hs : sp.value? s with
    | none => exact ⟨_, by rw [Option.toList_none, List.nil_append, hmarks]; rfl, by simp [htexts]⟩
    | some value =>
      rw [Option.toList_some, List.singleton_append,
        mainGrammar.markAll_plain (hvalue value hs), hmarks]
      exact ⟨_, rfl, by simp [htexts]⟩

/-- The settings of a command are read one after the other. -/
theorem work_settings (hplain : ∀ s ∈ settings, ∀ value ∈ sp.value? s, IsPlainName value)
    (p : Grammar.Progress σ) :
    ∃ marks met, g.markAll (settings.flatMap sp.words) = .ok marks ∧
      (∀ text, marks.head? ≠ some (.separator, text)) ∧
      g.work p marks =
        .ok { p with settings := settings.foldl (fun a s => sp.apply s a) p.settings, met } := by
  induction settings generalizing p with
  | nil => exact ⟨[], p.met, rfl, nofun, rfl⟩
  | cons s settings ih =>
    obtain ⟨rule, hrule, hdoes⟩ := sp.rule_eq s
    obtain ⟨c, text, hname⟩ := sp.name_eq s
    obtain ⟨marks, met, hmarks, -, hwork⟩ := ih (fun t ht => hplain t (List.mem_cons_of_mem _ ht))
      { p with settings := sp.apply s p.settings, met := rule.title :: p.met }
    have hvalue := hplain s List.mem_cons_self
    rw [List.flatMap_cons, words, List.cons_append,
      g.markAll_cons (sp.name_ne_separator s) (g.mark_rule hname hrule)]
    cases hs : sp.value? s with
    | none =>
      rw [hs] at hdoes
      rw [Option.toList_none, List.nil_append, hmarks]
      refine ⟨_, met, rfl, nofun, ?_⟩
      rw [g.work_flag p hdoes, hwork]
      rfl
    | some value =>
      rw [hs] at hdoes
      obtain ⟨set, hset, hgives⟩ := hdoes
      have hne : value ≠ "--" := by
        rintro rfl
        exact hvalue _ hs rfl
      rw [Option.toList_some, List.singleton_append, g.markAll_plain (hvalue value hs), hmarks]
      refine ⟨_, met, rfl, nofun, ?_⟩
      rw [g.work_value p hset hne (hgives p.settings), hwork]
      rfl

theorem read_main {command : String} (hcommand : IsPlainName command)
    (hknown : command ∈ commandNames) (himage : IsPlainName image)
    (hplain : ∀ s ∈ settings, ∀ value ∈ sp.value? s, IsPlainName value) :
    mainGrammar.read {} (command :: image :: settings.flatMap sp.words) =
      .ok ({ command := some (command, image :: settings.flatMap sp.words) }, []) := by
  obtain ⟨marks, hmarks, htexts⟩ := sp.markAll_main hplain
  have hset : mainGrammar.positional.set
      (command :: image :: settings.flatMap sp.words) {} =
      .ok { command := some (command, image :: settings.flatMap sp.words) } := if_pos hknown
  rw [Grammar.read, mainGrammar.markAll_plain hcommand, mainGrammar.markAll_plain himage, hmarks]
  rw [← htexts] at hset ⊢
  dsimp only [Except.map, bind, Except.bind]
  rw [mainGrammar.work_greedy _ rfl rfl hset]
  rfl

theorem read_settings (hgreedy : g.positional.greedy = false)
    (hoptional : ∀ rule ∈ g.options, rule.required = false)
    (hset : g.positional.set [image] fresh = .ok start) (himage : IsPlainName image)
    (hplain : ∀ s ∈ settings, ∀ value ∈ sp.value? s, IsPlainName value) :
    g.read fresh (image :: settings.flatMap sp.words) =
      .ok (settings.foldl (fun a s => sp.apply s a) start, []) := by
  obtain ⟨marks, met, hmarks, hnext, hwork⟩ := sp.work_settings hplain
    { settings := start, positionalMet := true }
  have hmissing (settings : σ) :
      g.missing { settings, met, positionalMet := true, aside := [] } = [] := by
    have hnone : (g.options.filter fun r => r.required && !met.contains r.title) = [] :=
      List.filter_eq_nil_iff.mpr fun rule hrule => by simp [hoptional rule hrule]
    rw [Grammar.missing, hnone]
    simp
  rw [Grammar.read, g.markAll_plain himage, hmarks]
  dsimp only [Except.map, bind, Except.bind]
  rw [g.work_positional _ rfl hgreedy hset hnext, hwork]
  dsimp only
  rw [hmissing]
  rfl

end Spelling

inductive RunSetting where
  | trace
  | traceFile (file : String)
  | input (file : String)
  | direct

namespace RunSetting

def name : RunSetting → String
  | trace => "--trace"
  | traceFile _ => "--trace-file"
  | input _ => "--input"
  | direct => "--no-debug-console"

def value? : RunSetting → Option String
  | traceFile file | input file => some file
  | _ => none

def words (s : RunSetting) : List String := s.name :: s.value?.toList

def apply : RunSetting → RunArguments → RunArguments
  | trace, a => { a with trace := true }
  | traceFile file, a => { a with traceFile := some file }
  | input file, a => { a with input := some file }
  | direct, a => { a with direct := true }

theorem name_eq (s : RunSetting) : ∃ c text, s.name.toList = '-' :: c :: text := by
  cases s <;> simp [name]

theorem rule_eq (s : RunSetting) :
    ∃ rule, runGrammar.rule? s.name = some rule ∧
      match s.value? with
      | none => rule.action = .flag s.apply
      | some value =>
        ∃ set, rule.action = .value set ∧ ∀ a, set (some value) a = .ok (s.apply a) := by
  cases s with
  | trace | direct => exact ⟨_, rfl, rfl⟩
  | traceFile | input => exact ⟨_, rfl, _, rfl, fun a => rfl⟩

variable {settings : List RunSetting}

theorem mark_main (s : RunSetting) : mainGrammar.mark s.name = .ok .unknownOption := by
  cases s <;> simp only [name] <;> rfl

theorem name_ne_separator (s : RunSetting) : s.name ≠ "--" := by
  cases s <;> simp only [name] <;> decide

def spelling : Spelling runGrammar RunSetting where
  name := name
  value? := value?
  apply := apply
  name_eq := name_eq
  name_ne_separator := name_ne_separator
  mark_main := mark_main
  rule_eq := rule_eq

end RunSetting

/-- The command line that asks for a run with these settings. -/
def runLine (image : String) (settings : List RunSetting) : List String :=
  "run" :: image :: settings.flatMap RunSetting.words

theorem readArguments_runLine {image : String} {settings : List RunSetting}
    (himage : IsPlainName image)
    (hplain : ∀ s ∈ settings, ∀ value ∈ s.value?, IsPlainName value) :
    readArguments (runLine image settings) =
      .ok { command := some (.run (settings.foldl (fun a s => s.apply a) { image })) } := by
  have hmain : mainGrammar.read {} (runLine image settings) =
      .ok ({ command := some ("run", image :: settings.flatMap RunSetting.words) }, []) :=
    RunSetting.spelling.read_main (by decide) (by decide) himage hplain
  have hsettings : runGrammar.read {} (image :: settings.flatMap RunSetting.words) =
      .ok (settings.foldl (fun a s => s.apply a) { image }, []) :=
    RunSetting.spelling.read_settings rfl (by decide) rfl himage hplain
  refine readArguments_of_read hmain ?_
  rw [readCommand, if_pos rfl, hsettings]
  rfl

/-- What a listing can be asked for besides its image. A range is written as it is read. -/
inductive DisasmSetting where
  | range (text : String) {first last : Int} (h : parseRange text = .ok (first, last))
  | output (file : String)

namespace DisasmSetting

def name : DisasmSetting → String
  | range .. => "--range"
  | output _ => "-o"

def value? : DisasmSetting → Option String
  | range text _ => some text
  | output file => some file

def words (s : DisasmSetting) : List String := s.name :: s.value?.toList

def apply : DisasmSetting → DisasmArguments → DisasmArguments
  | @range _ first last _, a => { a with range := .between first last }
  | output file, a => { a with output := some file }

theorem rule_eq (s : DisasmSetting) :
    ∃ rule, disasmGrammar.rule? s.name = some rule ∧
      match s.value? with
      | none => rule.action = .flag s.apply
      | some value =>
        ∃ set, rule.action = .value set ∧ ∀ a, set (some value) a = .ok (s.apply a) := by
  cases s with
  | range text h =>
    refine ⟨_, rfl, _, rfl, fun a => ?_⟩
    dsimp only
    rw [h]
    rfl
  | output file => exact ⟨_, rfl, _, rfl, fun a => rfl⟩

def spelling : Spelling disasmGrammar DisasmSetting where
  name := name
  value? := value?
  apply := apply
  name_eq s := by cases s <;> simp [name]
  name_ne_separator s := by cases s <;> simp only [name] <;> decide
  mark_main s := by cases s <;> simp only [name] <;> rfl
  rule_eq := rule_eq

end DisasmSetting

/-- The command line that asks for a listing with these settings. -/
def disasmLine (image : String) (settings : List DisasmSetting) : List String :=
  "disasm" :: image :: settings.flatMap DisasmSetting.words

theorem readArguments_disasmLine {image : String} {settings : List DisasmSetting}
    (himage : IsPlainName image)
    (hplain : ∀ s ∈ settings, ∀ value ∈ s.value?, IsPlainName value) :
    readArguments (disasmLine image settings) =
      .ok { command := some (.disasm (settings.foldl (fun a s => s.apply a) { image })) } := by
  have hmain : mainGrammar.read {} (disasmLine image settings) =
      .ok ({ command := some ("disasm", image :: settings.flatMap DisasmSetting.words) }, []) :=
    DisasmSetting.spelling.read_main (by decide) (by decide) himage hplain
  have hsettings : disasmGrammar.read {} (image :: settings.flatMap DisasmSetting.words) =
      .ok (settings.foldl (fun a s => s.apply a) { image }, []) :=
    DisasmSetting.spelling.read_settings rfl (by decide) rfl himage hplain
  refine readArguments_of_read hmain ?_
  rw [readCommand, if_neg (by decide), if_pos rfl, hsettings]
  rfl

/-- The command line that asks for an image to be made from a listing. -/
def asmLine (input output : String) : List String := ["asm", input, "-o", output]

section AsmLine

variable {input output file : String}

theorem markAll_asmLine (hinput : IsPlainName input) (houtput : IsPlainName output) :
    mainGrammar.markAll (asmLine input output) = .ok
      [(.argument, "asm"), (.argument, input), (.unknownOption, "-o"), (.argument, output)] := by
  have hoption : mainGrammar.mark "-o" = .ok .unknownOption := rfl
  rw [asmLine, mainGrammar.markAll_plain (by decide), mainGrammar.markAll_plain hinput,
    mainGrammar.markAll_cons (by decide) hoption, mainGrammar.markAll_plain houtput]
  rfl

theorem readCommand_asmLine (hinput : IsPlainName input) (houtput : IsPlainName output) :
    readCommand "asm" [input, "-o", output] = .ok (.asm { input, output := some output }, []) := by
  have hne : output ≠ "--" := by
    rintro rfl
    exact houtput rfl
  have hpositional : asmGrammar.positional.set [input] {} = .ok { input } := rfl
  rw [readCommand, if_neg (by decide), if_neg (by decide), Grammar.read,
    asmGrammar.markAll_plain hinput,
    asmGrammar.markAll_cons (by decide) (asmGrammar.mark_rule rfl rfl),
    asmGrammar.markAll_plain houtput]
  dsimp only [Except.map, Grammar.markAll, bind, Except.bind]
  rw [asmGrammar.work_positional _ rfl rfl hpositional (fun _ h => by cases h),
    asmGrammar.work_value _ rfl hne rfl]
  rfl

theorem readArguments_asmLine (hinput : IsPlainName input) (houtput : IsPlainName output) :
    readArguments (asmLine input output) =
      .ok { command := some (.asm { input, output := some output }) } := by
  have hmain : mainGrammar.read {} (asmLine input output) =
      .ok ({ command := some ("asm", [input, "-o", output]) }, []) := by
    rw [Grammar.read, markAll_asmLine hinput houtput]
    rfl
  exact readArguments_of_read hmain (readCommand_asmLine hinput houtput)

theorem readArguments_asmLine_logged (hfile : IsPlainName file) (hinput : IsPlainName input)
    (houtput : IsPlainName output) :
    readArguments ("--log-file" :: file :: asmLine input output) =
      .ok { logFile := some file, command := some (.asm { input, output := some output }) } := by
  have hne : file ≠ "--" := by
    rintro rfl
    exact hfile rfl
  have hmain : mainGrammar.read {} ("--log-file" :: file :: asmLine input output) =
      .ok ({ logFile := some file, command := some ("asm", [input, "-o", output]) }, []) := by
    rw [Grammar.read, mainGrammar.markAll_cons (by decide) (mainGrammar.mark_rule rfl rfl),
      mainGrammar.markAll_plain hfile, markAll_asmLine hinput houtput]
    dsimp only [Except.map, bind, Except.bind]
    rw [mainGrammar.work_value _ rfl hne rfl]
    rfl
  exact readArguments_of_read hmain (readCommand_asmLine hinput houtput)

end AsmLine

end WordMachine.Cli
