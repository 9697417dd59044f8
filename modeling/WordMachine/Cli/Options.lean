import WordMachine.Text.Digit
import WordMachine.Text.Quoted

/-!
Command-line options. Long options may be shortened as far as they stay unambiguous, short ones may
be run together, values may be attached, and after `--` everything is a positional argument. What is
not understood is set aside until all else has been read.
-/
namespace WordMachine.Cli

/-- What an option does to the settings gathered so far. A value of two hyphens alone is none. -/
inductive Action (σ : Type) where
  | flag (set : σ → σ)
  | value (set : Option String → σ → Except String σ)
  | help
  | version

structure OptionRule (σ : Type) where
  names : List String
  action : Action σ
  required : Bool := false

def OptionRule.title {σ : Type} (r : OptionRule σ) : String := "/".intercalate r.names

def OptionRule.takesValue {σ : Type} (r : OptionRule σ) : Bool :=
  match r.action with
  | .value _ => true
  | _ => false

/-- The one positional argument of a program. A greedy one takes all that follows it as well. -/
structure PositionalRule (σ : Type) where
  title : String
  greedy : Bool
  required : Bool
  set : List String → σ → Except String σ

structure Grammar (σ : Type) where
  program : String
  version : String
  usage : String
  details : String
  positional : PositionalRule σ
  options : List (OptionRule σ)

inductive EarlyEnd where
  | shown (text : String)
  | misuse (usage program message : String)
  deriving DecidableEq, Repr

def EarlyEnd.text : EarlyEnd → String
  | shown text => text
  | misuse usage program message => usage ++ program ++ ": error: " ++ message ++ "\n"

/-- An option as it is found in an argument, with the text attached to it. -/
structure Found (σ : Type) where
  rule : OptionRule σ
  name : String
  attached : Option (List Char)

inductive Mark (σ : Type) where
  | option (found : Found σ)
  | unknownOption
  | argument
  | separator

namespace Grammar

variable {σ : Type} (g : Grammar σ)

def names : List (String × OptionRule σ) := g.options.flatMap fun r => r.names.map (·, r)

def rule? (name : String) : Option (OptionRule σ) := (g.names.find? (·.1 == name)).map (·.2)

def misuse (message : String) : EarlyEnd := .misuse g.usage g.program message

def mistake (title message : String) : EarlyEnd := g.misuse s!"argument {title}: {message}"

def cutAtSign (text : List Char) : List Char × Option (List Char) :=
  match text.span (· != '=') with
  | (before, _ :: after) => (before, some after)
  | (before, []) => (before, none)

def candidates (text : List Char) : List (Found σ) :=
  match text with
  | '-' :: '-' :: _ =>
    let (name, value) := cutAtSign text
    (g.names.filter fun (full, _) => name.isPrefixOf full.toList).map fun (full, rule) =>
      { rule, name := full, attached := value }
  | _ =>
    g.names.filterMap fun (full, rule) =>
      if full.toList = text.take 2 then
        some { rule, name := full, attached := some (text.drop 2) }
      else if text.isPrefixOf full.toList then some { rule, name := full, attached := none }
      else none

def isNegativeNumber (text : List Char) : Bool :=
  let isDigit := fun c => (Text.decimalValue? c).isSome
  match text with
  | '-' :: rest =>
    let rest := if rest.getLast? = some '\n' then rest.dropLast else rest
    match rest.dropWhile isDigit with
    | [] => !rest.isEmpty
    | '.' :: fraction => !fraction.isEmpty && fraction.all isDigit
    | _ => false
  | _ => false

/-- An argument that begins with a minus sign is an option, unless it is nothing else, looks like a
negative number or contains a space without being known. -/
def mark (argument : String) : Except EarlyEnd (Mark σ) :=
  let text := argument.toList
  match text with
  | '-' :: _ :: _ =>
    match g.rule? argument with
    | some rule => .ok (.option { rule, name := argument, attached := none })
    | none =>
      let (name, value) := cutAtSign text
      match value, g.rule? (String.ofList name) with
      | some value, some rule =>
        .ok (.option { rule, name := String.ofList name, attached := some value })
      | _, _ =>
        match g.candidates text with
        | [found] => .ok (.option found)
        | [] =>
          if isNegativeNumber text ∨ ' ' ∈ text then .ok .argument else .ok .unknownOption
        | several =>
          let names := ", ".intercalate (several.map (·.name))
          .error (g.misuse s!"ambiguous option: {argument} could match {names}")
  | _ => .ok .argument

/-- Marks all arguments; after a separator every one is positional. -/
def markAll : List String → Except EarlyEnd (List (Mark σ × String))
  | [] => .ok []
  | argument :: rest =>
    if argument = "--" then .ok ((.separator, argument) :: rest.map (.argument, ·))
    else do
      let mark ← g.mark argument
      return (mark, argument) :: (← markAll rest)

/-- What is read out of one argument with options: those that are complete, and perhaps one that
still needs its value from the next argument. -/
structure Cluster (σ : Type) where
  complete : List (OptionRule σ × Option String) := []
  open? : Option (OptionRule σ) := none

def Cluster.cons (rule : OptionRule σ) (c : Cluster σ) : Cluster σ :=
  { c with complete := (rule, none) :: c.complete }

def Cluster.bare (rule : OptionRule σ) : Cluster σ :=
  if rule.takesValue then { open? := some rule } else { complete := [(rule, none)] }

/-- Reads an option and the text attached to it. What is attached to a short option without a value
begins with the letter of the next short option. -/
def cluster (rule : OptionRule σ) (long : Bool) (text : List Char) : Except EarlyEnd (Cluster σ) :=
  if rule.takesValue then .ok { complete := [(rule, some (String.ofList text))] }
  else
    let ignored :=
      g.mistake rule.title s!"ignored explicit argument {Text.quoted (String.ofList text)}"
    match text with
    | [] => .error ignored
    | c :: rest =>
      if long then .error ignored
      else match g.rule? (String.ofList ['-', c]) with
        | none => .error ignored
        | some next =>
          match rest with
          | [] => .ok (.cons rule (.bare next))
          | d :: more => return .cons rule (← cluster next false (d :: more))

def clusterOf (f : Found σ) : Except EarlyEnd (Cluster σ) :=
  match f.attached with
  | some text => g.cluster f.rule (f.name.toList.take 2 = ['-', '-']) text
  | none => .ok (.bare f.rule)

/-- The settings so far, the options met, whether the positional argument was met, and what has been
set aside. -/
structure Progress (σ : Type) where
  settings : σ
  met : List String := []
  positionalMet : Bool := false
  aside : List String := []

def apply (p : Progress σ) (rule : OptionRule σ) (value : Option String) :
    Except EarlyEnd (Progress σ) := do
  let settings ← match rule.action with
    | .flag set => pure (set p.settings)
    | .value set => (set (value.filter (· ≠ "--")) p.settings).mapError (g.mistake rule.title)
    | .help => throw (.shown (g.usage ++ "\n" ++ g.details))
    | .version => throw (.shown (g.version ++ "\n"))
  return { p with settings, met := rule.title :: p.met }

def applyAll (p : Progress σ) (cluster : List (OptionRule σ × Option String)) :
    Except EarlyEnd (Progress σ) :=
  cluster.foldlM (fun p (rule, value) => g.apply p rule value) p

def setPositional (p : Progress σ) (values : List String) : Except EarlyEnd (Progress σ) := do
  let settings ← (g.positional.set values p.settings).mapError (g.mistake g.positional.title)
  return { p with settings, positionalMet := true }

def setAside (p : Progress σ) (argument : String) : Progress σ :=
  { p with aside := p.aside ++ [argument] }

def work (p : Progress σ) : List (Mark σ × String) → Except EarlyEnd (Progress σ)
  | [] => .ok p
  | (.unknownOption, text) :: rest => work (setAside p text) rest
  | (.option found, _) :: rest => do
    let c ← g.clusterOf found
    match c.open? with
    | none => work (← g.applyAll p c.complete) rest
    | some rule =>
      match rest with
      | (.argument, value) :: rest =>
        work (← g.applyAll p (c.complete ++ [(rule, some value)])) rest
      | _ => throw (g.mistake rule.title "expected one argument")
  | (.argument, text) :: rest =>
    if p.positionalMet then work (setAside p text) rest
    else if g.positional.greedy then g.setPositional p (text :: rest.map (·.2))
    else do
      let p ← g.setPositional p [text]
      match rest with
      | (.separator, _) :: rest => work p rest
      | rest => work p rest
  | (.separator, text) :: rest =>
    match p.positionalMet, rest with
    | false, (.argument, value) :: rest' =>
      if g.positional.greedy then g.setPositional p (text :: value :: rest'.map (·.2))
      else do
        let p ← g.setPositional p [value]
        work p rest'
    | _, rest => work (setAside p text) rest

def missing (p : Progress σ) : List String :=
  (if g.positional.required && !p.positionalMet then [g.positional.title] else [])
    ++ (g.options.filter fun r => r.required && !p.met.contains r.title).map (·.title)

/-- Reads all arguments: the settings, and what was not understood. -/
def read (settings : σ) (arguments : List String) : Except EarlyEnd (σ × List String) := do
  let p ← g.work { settings } (← g.markAll arguments)
  match g.missing p with
  | [] => return (p.settings, p.aside)
  | titles =>
    let names := ", ".intercalate titles
    throw (g.misuse s!"the following arguments are required: {names}")

end Grammar

end WordMachine.Cli
