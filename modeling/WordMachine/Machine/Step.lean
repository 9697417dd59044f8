import WordMachine.Machine

/-!
One step of the machine. An instruction is first planned against the state: its operands are
resolved and everything that can go wrong is found. Only then is it carried out, so that a plan that
fails leaves the state alone, except for the stack entry or input code it was about to use.
-/
namespace WordMachine

/-- One executed instruction, with its raw operands and the values they had. -/
structure TraceRecord where
  pc : Int
  mnemonic : String
  operands : List Int
  values : List Int := []
  deriving DecidableEq, Repr

def TraceRecord.labels (r : TraceRecord) : List String := r.operands.map registerName

structure Effect where
  pc : Int
  values : List Int := []
  store : Option (Place × Word) := none
  stack : List Int
  queue : List UInt8
  written : Option Int := none
  stop : Option StopReason

def Effect.goto (m : Machine) (pc : Int) (values : List Int) : Effect :=
  { pc, values, stack := m.stack, queue := m.console.queue, stop := m.stop }

/-- What the instruction does in a state, or the reason why it cannot. Only an input instruction
that finds no code waiting has no effect yet. -/
def Instruction.plan (m : Machine) : Instruction → Except Cause (Option Effect)
  | .halt => return some { Effect.goto m m.pc [] with stop := some .halt }
  | .set a b =>
    if IsRegister a then do
      let v ← m.valueOf b
      let d ← Machine.destination a v
      return some { Effect.goto m (m.pc + 3) [v] with store := some d }
    else throw (.setTarget a)
  | .push a => do
    let v ← m.valueOf a
    return some { Effect.goto m (m.pc + 2) [v] with stack := v :: m.stack }
  | .pop a =>
    match m.stack with
    | [] => throw (.emptyStack a)
    | v :: rest => do
      let d ← Machine.destination a v
      return some { Effect.goto m (m.pc + 2) [v] with store := some d, stack := rest }
  | .binary op a b c => do
    let x ← m.valueOf b
    let y ← m.valueOf c
    let d ← Machine.destination a (← op.apply x y)
    return some { Effect.goto m (m.pc + 4) [x, y] with store := some d }
  | .jump a => do
    let target ← m.jumpTarget a
    return some (Effect.goto m target [target])
  | .branch onZero a b => do
    let v ← m.valueOf a
    let next ← if (v == 0) = onZero then m.jumpTarget b else pure (m.pc + 3)
    return some (Effect.goto m next [v, next])
  | .not a b => do
    let v ← m.valueOf b
    let d ← Machine.destination a (complement v)
    return some { Effect.goto m (m.pc + 3) [v] with store := some d }
  | .rmem a b => do
    let address ← m.valueOf b
    let v ← m.load address
    let d ← Machine.destination a v
    return some { Effect.goto m (m.pc + 3) [address, v] with store := some d }
  | .wmem a b => do
    let address ← m.valueOf a
    let v ← m.valueOf b
    let d ← Machine.destination address v
    return some { Effect.goto m (m.pc + 3) [address, v] with store := some d }
  | .call a => do
    let target ← m.jumpTarget a
    return some { Effect.goto m target [target] with stack := (m.pc + 2) :: m.stack }
  | .ret =>
    match m.stack with
    | [] => return some { Effect.goto m m.pc [] with stop := some .ret }
    | v :: rest => do
      let _ ← checkAddress v
      return some { Effect.goto m v [v] with stack := rest }
  | .out a => do
    let v ← m.valueOf a
    return some { Effect.goto m (m.pc + 2) [v] with written := some v }
  | .input a =>
    match m.console.queue with
    | [] => return none
    | code :: rest => do
      let v : Int := code.toNat
      let d ← Machine.destination a v
      return some { Effect.goto m (m.pc + 2) [v] with store := some d, queue := rest }
  | .noop => return some (Effect.goto m (m.pc + 1) [])

namespace Machine

def putAll (m : Machine) : Option (Place × Word) → Machine
  | some (p, w) => m.put p w
  | none => m

def writeOut (c : CharConsole) : Option Int → CharConsole
  | some code => c.emit code
  | none => c

def perform (m : Machine) (e : Effect) : Machine :=
  let m := m.putAll e.store
  { m with
    stack := e.stack
    console := writeOut { m.console with queue := e.queue } e.written
    pc := e.pc
    stop := e.stop
    steps := m.steps + 1 }

/-- The state after an instruction has failed: an entry or a code that was taken stays taken. -/
def afterFailure (m : Machine) : Instruction → Machine
  | .pop _ | .ret => { m with stack := m.stack.tail }
  | .input _ => { m with console := m.console.take.2 }
  | _ => m

inductive Outcome where
  | executed (record : TraceRecord)
  | failed (fault : Fault)
  /-- A failure that has no report. -/
  | unreported
  /-- An input instruction finds no code waiting. -/
  | starved
  deriving DecidableEq, Repr

def fetchOpcode (m : Machine) : Except Cause Opcode := do
  Opcode.ofWord (← m.memory.read m.pc)

def failure (m : Machine) (mnemonic : Option String) (c : Cause) : Outcome :=
  match c.report? with
  | some f => .failed (f.annotate (some m.pc) mnemonic)
  | none => .unreported

/-- Carries out the instruction at the program counter, also on a machine that has stopped. -/
def step (m : Machine) : Machine × Outcome :=
  match m.fetchOpcode with
  | .error c => (m, m.failure none c)
  | .ok op =>
    match Instruction.readOperands m.memory m.pc op with
    | .error c => (m, m.failure (some op.mnemonic) c)
    | .ok i =>
      match i.plan m with
      | .error c => (m.afterFailure i, m.failure (some i.mnemonic) c)
      | .ok none => (m, .starved)
      | .ok (some e) =>
        let record :=
          { pc := m.pc, mnemonic := i.mnemonic, operands := i.operands, values := e.values }
        (m.perform e, .executed record)

end Machine

end WordMachine
