import WordMachine.Proofs.Decoding

/-!
When input is queued does not matter. A step finds the same codes whether a line has been queued
beforehand or is handed out when an instruction asks for it, so a session goes through the same
states as the one in which all of its lines are queued already. A run that has ended for want of a
line can therefore be taken up again by queuing one.
-/
namespace WordMachine

def Effect.enqueue (e : Effect) (codes : List UInt8) : Effect :=
  { e with queue := e.queue ++ codes }

namespace Machine

variable {m : Machine}

def enqueue (m : Machine) (codes : List UInt8) : Machine :=
  { m with console := { m.console with queue := m.console.queue ++ codes } }

@[simp] theorem enqueue_nil (m : Machine) : m.enqueue [] = m := by
  simp [enqueue]

section Operands

variable (codes : List UInt8)

theorem valueOf_enqueue (x : Int) : (m.enqueue codes).valueOf x = m.valueOf x := rfl

theorem load_enqueue (x : Int) : (m.enqueue codes).load x = m.load x := rfl

theorem jumpTarget_enqueue (x : Int) : (m.enqueue codes).jumpTarget x = m.jumpTarget x := rfl

theorem stack_enqueue : (m.enqueue codes).stack = m.stack := rfl

theorem queue_enqueue : (m.enqueue codes).console.queue = m.console.queue ++ codes := rfl

end Operands

theorem plan_enqueue (codes : List UInt8) {i : Instruction} (h : i.plan m ≠ .ok none) :
    i.plan (m.enqueue codes) = Option.map (·.enqueue codes) <$> i.plan m := by
  cases i with
  | halt | noop => rfl
  | set a b =>
    simp only [Instruction.plan, valueOf_enqueue]
    split
    · simp only [map_bind, map_pure]
      rfl
    · rfl
  | push | out | not | wmem | binary | jump | call | rmem =>
    simp only [Instruction.plan, valueOf_enqueue, jumpTarget_enqueue, load_enqueue, map_bind,
      map_pure]
    rfl
  | branch onZero a b =>
    simp only [Instruction.plan, valueOf_enqueue, jumpTarget_enqueue, map_bind]
    refine bind_congr fun v => ?_
    split
    · simp only [map_bind, map_pure]
      rfl
    · rfl
  | pop | ret =>
    simp only [Instruction.plan, stack_enqueue]
    split
    · rfl
    · simp only [map_bind, map_pure]
      rfl
  | input a =>
    simp only [Instruction.plan, queue_enqueue] at h ⊢
    cases hq : m.console.queue with
    | nil =>
      rw [hq] at h
      exact absurd rfl h
    | cons code rest =>
      simp only [List.cons_append, map_bind, map_pure]
      rfl

theorem perform_enqueue (codes : List UInt8) (e : Effect) :
    (m.enqueue codes).perform (e.enqueue codes) = (m.perform e).enqueue codes := by
  unfold perform enqueue Effect.enqueue
  cases e.store with
  | none => cases e.written <;> rfl
  | some d =>
    obtain ⟨_ | _, _⟩ := d <;> cases e.written <;> rfl

theorem queue_of_plan_error {a : Int} {c : Cause} (h : (Instruction.input a).plan m = .error c) :
    m.console.queue ≠ [] := by
  intro hq
  rw [Instruction.plan, hq] at h
  contradiction

theorem afterFailure_enqueue (codes : List UInt8) {i : Instruction} {c : Cause}
    (h : i.plan m = .error c) :
    (m.enqueue codes).afterFailure i = (m.afterFailure i).enqueue codes := by
  cases i with
  | input a =>
    have hq := queue_of_plan_error h
    obtain ⟨code, rest, hq⟩ := List.exists_cons_of_ne_nil hq
    simp only [afterFailure, enqueue, CharConsole.take, hq, List.cons_append]
  | _ => rfl

theorem carryOut_enqueue (codes : List UInt8) {i : Instruction}
    (h : (m.carryOut i).2 ≠ .starved) :
    (m.enqueue codes).carryOut i = ((m.carryOut i).1.enqueue codes, (m.carryOut i).2) := by
  have hready : i.plan m ≠ .ok none := fun hn => h (carryOut_starved_iff.mpr hn)
  unfold carryOut
  rw [plan_enqueue codes hready]
  rcases hplan : i.plan m with c | _ | e
  · simp only [Functor.map, Except.map, afterFailure_enqueue codes hplan]
    rfl
  · exact absurd hplan hready
  · simp only [Functor.map, Except.map, Option.map_some, perform_enqueue]
    rfl

theorem step_enqueue (codes : List UInt8) (h : m.step.2 ≠ .starved) :
    (m.enqueue codes).step = (m.step.1.enqueue codes, m.step.2) := by
  have hstep := m.step_eq
  have hmore := (m.enqueue codes).step_eq
  have hmemory : (m.enqueue codes).memory = m.memory := rfl
  have hpc : (m.enqueue codes).pc = m.pc := rfl
  rw [hmemory, hpc] at hmore
  rw [hstep] at h
  rw [hmore, hstep]
  cases hd : Instruction.decode m.memory m.pc with
  | error c => rfl
  | ok i =>
    rw [hd] at h
    exact carryOut_enqueue codes h

theorem bind_ne_none {α : Type} {x : Except Cause α} {k : α → Except Cause (Option Effect)}
    (h : ∀ v, k v ≠ .ok none) : (x >>= k) ≠ .ok none := by
  cases x with
  | error c => exact nofun
  | ok v => exact h v

theorem plan_ne_none {i : Instruction} (hq : ∀ a, i = .input a → m.console.queue ≠ []) :
    i.plan m ≠ .ok none := by
  have ready (e : Effect) : (pure (some e) : Except Cause (Option Effect)) ≠ .ok none := by
    intro h
    cases h
  have refused (c : Cause) : (throw c : Except Cause (Option Effect)) ≠ .ok none := by
    intro h
    cases h
  cases i with
  | halt | noop => exact ready _
  | push | jump | call | out => exact bind_ne_none fun _ => ready _
  | not => exact bind_ne_none fun _ => bind_ne_none fun _ => ready _
  | rmem | wmem => exact bind_ne_none fun _ => bind_ne_none fun _ => bind_ne_none fun _ => ready _
  | binary =>
    exact bind_ne_none fun _ => bind_ne_none fun _ => bind_ne_none fun _ => bind_ne_none fun _ =>
      ready _
  | set =>
    rw [Instruction.plan]
    split
    · exact bind_ne_none fun _ => bind_ne_none fun _ => ready _
    · exact refused _
  | branch =>
    refine bind_ne_none fun _ => ?_
    split
    · exact bind_ne_none fun _ => ready _
    · exact ready _
  | pop =>
    rw [Instruction.plan]
    split
    · exact refused _
    · exact bind_ne_none fun _ => ready _
  | ret =>
    rw [Instruction.plan]
    split
    · exact ready _
    · exact bind_ne_none fun _ => ready _
  | input a =>
    rw [Instruction.plan]
    split
    next hnil => exact absurd hnil (hq a rfl)
    next => exact bind_ne_none fun _ => ready _

theorem starved_cases (h : m.step.2 = .starved) :
    m.step = (m, .starved) ∧ m.console.queue = [] ∧
      ∃ a, Instruction.decode m.memory m.pc = .ok (.input a) := by
  rw [step_eq] at h ⊢
  cases hd : Instruction.decode m.memory m.pc with
  | error c =>
    rw [hd] at h
    exact absurd h (failure_ne_starved _ c)
  | ok i =>
    rw [hd] at h
    have hinput : ∃ a, i = .input a ∧ m.console.queue = [] := by
      apply Classical.byContradiction
      intro hnot
      exact plan_ne_none (fun a ha hq => hnot ⟨a, ha, hq⟩) (carryOut_starved_iff.mp h)
    obtain ⟨a, rfl, hq⟩ := hinput
    exact ⟨carryOut_of_starved h, hq, a, rfl⟩

theorem step_ne_starved (hq : m.console.queue ≠ []) : m.step.2 ≠ .starved :=
  fun h => hq (starved_cases h).2.1

end Machine

namespace Session

def IsPlain (s : Session) : Prop := s.front = .absent ∨ s.front = .direct

/-- The lines that are still to be handed out. -/
def stock (s : Session) : List String :=
  match s.front with
  | .absent => []
  | _ => s.lines

def lack (s : Session) : NoInput :=
  match s.front with
  | .absent => .unattached
  | _ => s.ending

/-- All the codes that the program can read: those that are waiting, and those of the lines that are
still to be handed out. -/
def pending (s : Session) : List UInt8 := s.machine.console.queue ++ s.stock.flatMap lineBytes

/-- The session that has these codes queued besides and no lines to come. What it has been asked and
what it has logged is forgotten. -/
def fed (s : Session) (codes : List UInt8) (lack : NoInput) : Session where
  machine := s.machine.enqueue codes
  front := .direct
  ending := lack
  observer := s.observer
  traceTime := s.traceTime

/-- The session in which all lines have been queued beforehand. -/
def provided (s : Session) : Session := s.fed (s.stock.flatMap lineBytes) s.lack

variable {s t : Session}

theorem share_enqueue (m : Machine) (codes : List UInt8) (text : String) :
    share (m.enqueue codes) text = (share m text).enqueue codes := rfl

theorem watch_fed (s : Session) (codes : List UInt8) (lack : NoInput) (r : TraceRecord) :
    ((s.fed codes lack).watch r).provided = (s.watch r).fed codes lack := by
  obtain ⟨machine, front, lines, ending, asked, observer, traceTime, printed, journal⟩ := s
  simp only [watch, fed]
  rcases observer.see r with ⟨o, _ | line⟩
  · simp [trace, provided, stock, fed, Session.lack]
  · cases traceTime <;> simp [trace, provided, stock, fed, Session.lack, share_enqueue]

theorem stop_watch_fed (s : Session) (codes : List UInt8) (lack : NoInput) (r : TraceRecord) :
    ((s.fed codes lack).watch r).machine.stop = (s.watch r).machine.stop :=
  congrArg (·.machine.stop) (watch_fed s codes lack r)

theorem witness_fed (s : Session) (codes : List UInt8) (lack : NoInput) (r : TraceRecord) :
    ((s.fed codes lack).witness r).1.provided = (s.witness r).1.fed codes lack ∧
      ((s.fed codes lack).witness r).2 = (s.witness r).2 := by
  have hwatch := watch_fed s codes lack r
  have hstop := stop_watch_fed s codes lack r
  unfold witness
  dsimp only
  rw [hstop]
  cases (s.watch r).machine.stop with
  | none => exact ⟨hwatch, rfl⟩
  | some reason => exact ⟨hwatch, rfl⟩

theorem provided_fed (s : Session) (codes : List UInt8) (lack : NoInput) :
    (s.fed codes lack).provided = s.fed codes lack := by
  simp [provided, fed, stock, Session.lack]

theorem settle_fed (codes : List UInt8) (lack : NoInput) (h : s.machine.step.2 ≠ .starved) :
    (s.fed codes lack).settle.1.provided = s.settle.1.fed codes lack ∧
      (s.fed codes lack).settle.2 = s.settle.2 := by
  have hstep : (s.fed codes lack).machine.step =
      (s.machine.step.1.enqueue codes, s.machine.step.2) := Machine.step_enqueue codes h
  rw [settle_eq, settle_eq, hstep]
  generalize s.machine.step = stepped at h ⊢
  obtain ⟨m, r | f | _ | _⟩ := stepped
  case starved => exact absurd rfl h
  · exact witness_fed { s with machine := m } codes lack r
  · exact ⟨provided_fed { s with machine := m } codes lack, rfl⟩
  · exact ⟨provided_fed { s with machine := m } codes lack, rfl⟩

structure SameSource (s t : Session) : Prop where
  front : t.front = s.front
  lines : t.lines = s.lines
  ending : t.ending = s.ending

theorem sameSource_watch (s : Session) (r : TraceRecord) : s.SameSource (s.watch r) := by
  unfold watch
  dsimp only
  rcases s.observer.see r with ⟨o, _ | line⟩
  · exact ⟨rfl, rfl, rfl⟩
  · unfold trace
    dsimp only
    split <;> exact ⟨rfl, rfl, rfl⟩

theorem sameSource_settle (s : Session) : s.SameSource s.settle.1 := by
  rw [settle_eq]
  rcases s.machine.step with ⟨m, r | f | _ | _⟩
  · have hwatch := sameSource_watch { s with machine := m } r
    simp only [conclude, witness]
    split <;> exact ⟨hwatch.front, hwatch.lines, hwatch.ending⟩
  all_goals exact ⟨rfl, rfl, rfl⟩

theorem SameSource.provided_eq (h : s.SameSource t) :
    t.provided = t.fed (s.stock.flatMap lineBytes) s.lack := by
  simp only [provided, stock, lack, h.front, h.lines, h.ending]

theorem supply_of_stock_nil (hp : s.IsPlain) (h : s.stock = []) :
    s.supply.2 = some s.lack ∧ s.supply.1.IsPlain ∧ s.supply.1.stock = [] ∧
      s.supply.1.provided = s.provided := by
  obtain ⟨machine, front, lines, ending, asked, observer, traceTime, printed, journal⟩ := s
  obtain hf | hf := hp <;> simp only at hf <;> subst hf
  · exact ⟨rfl, .inl rfl, rfl, rfl⟩
  · simp only [stock] at h
    subst h
    exact ⟨rfl, .inr rfl, rfl, rfl⟩

theorem supply_of_stock_cons (hp : s.IsPlain) {line : String} {rest : List String}
    (h : s.stock = line :: rest) :
    s.supply.2 = none ∧ s.supply.1.IsPlain ∧ s.supply.1.machine.console.queue ≠ [] ∧
      s.supply.1.provided = s.provided := by
  obtain ⟨machine, front, lines, ending, asked, observer, traceTime, printed, journal⟩ := s
  obtain hf | hf := hp <;> simp only at hf <;> subst hf
  · simp [stock] at h
  · simp only [stock] at h
    subst h
    refine ⟨rfl, .inr rfl, ?_, ?_⟩
    · simp [supply, readLine, ask, note, feed, feedAll, CharConsole.feedAll, lineBytes]
    · simp [supply, readLine, ask, note, feed, feedAll, CharConsole.feedAll, provided, fed, stock,
        lack, Machine.enqueue]

theorem step_of_supply_some (hstarved : s.machine.step.2 = .starved) {why : NoInput}
    (h : s.supply.2 = some why) : s.step = (s.supply.1, .noInput why) := by
  rw [step_of_starved (Machine.starved_cases hstarved).1]
  generalize s.supply = supplied at h ⊢
  obtain ⟨t, w⟩ := supplied
  subst h
  rfl

theorem step_of_supply_none (hstarved : s.machine.step.2 = .starved) (h : s.supply.2 = none) :
    s.step = s.supply.1.settle := by
  rw [step_of_starved (Machine.starved_cases hstarved).1]
  generalize s.supply = supplied at h ⊢
  obtain ⟨t, w⟩ := supplied
  subst h
  rfl

theorem isPlain_provided (s : Session) : s.provided.IsPlain := .inr rfl

theorem provided_provided (s : Session) : s.provided.provided = s.provided :=
  provided_fed s _ _

theorem step_provided_of_ready (hp : s.IsPlain) (h : s.machine.step.2 ≠ .starved) :
    s.step.1.IsPlain ∧ s.step.1.provided = s.provided.step.1.provided ∧
      s.step.2 = s.provided.step.2 := by
  have hmore : s.provided.machine.step.2 ≠ .starved := by
    change (s.machine.enqueue (s.stock.flatMap lineBytes)).step.2 ≠ .starved
    rw [Machine.step_enqueue _ h]
    exact h
  have hsource := sameSource_settle s
  obtain ⟨hstate, hevent⟩ := settle_fed (s.stock.flatMap lineBytes) s.lack h
  rw [step_of_not_starved h, step_of_not_starved hmore]
  refine ⟨?_, hsource.provided_eq.trans hstate.symm, hevent.symm⟩
  rw [IsPlain, hsource.front]
  exact hp

/-- A step finds the same codes when all lines have been queued beforehand. -/
theorem step_provided (hp : s.IsPlain) :
    s.step.1.IsPlain ∧ s.step.1.provided = s.provided.step.1.provided ∧
      s.step.2 = s.provided.step.2 := by
  by_cases hstarved : s.machine.step.2 = .starved
  · cases hstock : s.stock with
    | nil =>
      obtain ⟨hwhy, hplain, -, hsame⟩ := supply_of_stock_nil hp hstock
      have hmachine : s.provided.machine = s.machine := by
        simp [provided, fed, hstock]
      obtain ⟨hwhy', -, -, hsame'⟩ := supply_of_stock_nil (isPlain_provided s) rfl
      rw [step_of_supply_some hstarved hwhy, step_of_supply_some (hmachine ▸ hstarved) hwhy']
      exact ⟨hplain, hsame.trans (hsame'.trans (provided_provided s)).symm, rfl⟩
    | cons line rest =>
      -- The provided session has the codes of the line already, so the two meet once it is read.
      obtain ⟨hwhy, hplain, hqueue, hsame⟩ := supply_of_stock_cons hp hstock
      have hready := Machine.step_ne_starved hqueue
      rw [step_of_supply_none hstarved hwhy, ← step_of_not_starved hready, ← hsame]
      exact step_provided_of_ready hplain hready
  · exact step_provided_of_ready hp hstarved

/-- Sessions that have the same codes to come go through the same states and end alike. -/
theorem run_congr (hs : s.IsPlain) (ht : t.IsPlain) (h : s.provided = t.provided) (n : Nat) :
    (s.run n).1.provided = (t.run n).1.provided ∧ (s.run n).2 = (t.run n).2 := by
  -- What the steps keep equal is not the sessions but what they are with all lines queued.
  let Schedules (s t : Session) : Prop := s.IsPlain ∧ t.IsPlain ∧ s.provided = t.provided
  have hstep {s t : Session} (h : Schedules s t) :
      s.step.2 = t.step.2 ∧ s.step.1.provided = t.step.1.provided ∧
        (s.step.2 = .running → Schedules s.step.1 t.step.1) := by
    obtain ⟨hs, ht, h⟩ := h
    obtain ⟨hps, hstate, hevent⟩ := step_provided hs
    obtain ⟨hpt, hstate', hevent'⟩ := step_provided ht
    rw [h, ← hstate'] at hstate
    rw [h, ← hevent'] at hevent
    exact ⟨hevent, hstate, fun _ => ⟨hps, hpt, hstate⟩⟩
  exact run_related (R := Schedules) (fun h => h.2.2) (fun h => congrArg (·.machine.stop) h.2.2)
    hstep ⟨hs, ht, h⟩ n

theorem settle_ne_noInput (h : s.machine.step.2 ≠ .starved) (why : NoInput) :
    s.settle.2 ≠ .noInput why := by
  rw [settle_eq]
  generalize s.machine.step = stepped at h ⊢
  obtain ⟨m, r | f | _ | _⟩ := stepped
  case starved => exact absurd rfl h
  · simp only [conclude, (witness_eq _ r).2.2]
    cases ({ s with machine := m }.witness r).1.machine.stop <;> exact Event.noConfusion
  all_goals exact Event.noConfusion

theorem of_noInput (hp : s.IsPlain) {why : NoInput} (h : s.step.2 = .noInput why) :
    s.machine.step.2 = .starved ∧ s.stock = [] ∧ s.lack = why ∧ s.step.1.IsPlain ∧
      s.step.1.stock = [] ∧ s.step.1.provided = s.provided := by
  by_cases hstarved : s.machine.step.2 = .starved
  · cases hstock : s.stock with
    | nil =>
      obtain ⟨hwhy, hrest⟩ := supply_of_stock_nil hp hstock
      rw [step_of_supply_some hstarved hwhy] at h ⊢
      exact ⟨hstarved, rfl, Event.noInput.inj h, hrest⟩
    | cons line rest =>
      obtain ⟨hwhy, -, hqueue, -⟩ := supply_of_stock_cons hp hstock
      rw [step_of_supply_none hstarved hwhy] at h
      exact absurd h (settle_ne_noInput (Machine.step_ne_starved hqueue) why)
  · rw [step_of_not_starved hstarved] at h
    exact absurd h (settle_ne_noInput hstarved why)

def withLine (s : Session) (line : String) (why : NoInput) : Session :=
  { s with front := .direct, lines := s.stock ++ [line], ending := why }

theorem provided_withLine (s : Session) (line : String) (why : NoInput) :
    (s.withLine line why).provided = s.provided.fed (lineBytes line) why := by
  simp [withLine, provided, fed, stock, lack, Machine.enqueue]

theorem provided_feed {line : String} (h : s.stock = []) :
    (s.feed line).provided = s.provided.fed (lineBytes line) s.lack := by
  have hstock : (s.feed line).stock = [] := h
  have hlack : (s.feed line).lack = s.lack := rfl
  rw [provided, provided, hstock, hlack, h]
  simp [fed, feed, feedAll, CharConsole.feedAll, Machine.enqueue]

theorem fed_provided {codes : List UInt8} {why : NoInput} (h : s.stock = []) :
    s.provided.fed codes why = s.fed codes why := by
  simp [provided, h, fed]

theorem step_withLine (hp : s.IsPlain) (h : ∀ why, s.step.2 ≠ .noInput why) (line : String)
    (why : NoInput) :
    (s.withLine line why).step.1.provided = (s.step.1.withLine line why).provided ∧
      (s.withLine line why).step.2 = s.step.2 := by
  obtain ⟨-, hstate, hevent⟩ := step_provided hp
  have hready : s.provided.machine.step.2 ≠ .starved := by
    intro hstarved
    obtain ⟨hwhy, -⟩ := supply_of_stock_nil (isPlain_provided s) rfl
    rw [hevent, step_of_supply_some hstarved hwhy] at h
    exact h _ rfl
  have hmore : (s.provided.fed (lineBytes line) why).machine.step.2 ≠ .starved := by
    change (s.provided.machine.enqueue (lineBytes line)).step.2 ≠ .starved
    rw [Machine.step_enqueue _ hready]
    exact hready
  have hsource := sameSource_settle s.provided
  have hempty : s.provided.settle.1.stock = [] := by
    simp only [stock, hsource.front, hsource.lines]
    rfl
  obtain ⟨hfed, hfedEvent⟩ := settle_fed (lineBytes line) why hready
  obtain ⟨-, hline, hlineEvent⟩ := step_provided (s := s.withLine line why) (.inr rfl)
  rw [provided_withLine, step_of_not_starved hmore] at hline hlineEvent
  rw [step_of_not_starved hready] at hstate hevent
  refine ⟨?_, hlineEvent.trans (hfedEvent.trans hevent.symm)⟩
  rw [hline, hfed, provided_withLine, hstate, fed_provided hempty]

/-- A run that has ended for want of a line goes on, once a line is queued, as the run that is
handed this line instead. -/
theorem run_resumed (hp : s.IsPlain) {n : Nat} {why : NoInput}
    (h : s.run n = (t, some (.noInput why))) (line : String) :
    t.IsPlain ∧ ∃ j ≤ n, ∀ k,
      ((t.feed line).run k).1.provided = ((s.withLine line why).run (j + k)).1.provided ∧
        ((t.feed line).run k).2 = ((s.withLine line why).run (j + k)).2 := by
  -- `j` counts the steps before the one that found no line.
  induction n generalizing s with
  | zero =>
    unfold run at h
    split at h <;> simp at h
  | succ n ih =>
    cases hstop : s.machine.stop with
    | some reason =>
      simp [run, hstop] at h
    | none =>
      rw [run_succ s n hstop] at h
      have hrunning : (s.withLine line why).machine.stop = none := hstop
      have hnow := @of_noInput s hp
      have hlater := @step_withLine s hp
      obtain ⟨hplain, -⟩ := step_provided hp
      generalize s.step = stepped at h hnow hlater hplain
      obtain ⟨u, e⟩ := stepped
      cases e with
      | running =>
        obtain ⟨htp, j, hj, hrest⟩ := ih hplain h
        obtain ⟨hstate, hevent⟩ := hlater (fun _ => Event.noConfusion) line why
        have hmore := step_provided (s := s.withLine line why) (.inr rfl)
        refine ⟨htp, j + 1, by omega, fun k => ?_⟩
        have hk : j + 1 + k = (j + k) + 1 := by omega
        rw [hk, run_succ _ _ hrunning]
        generalize (s.withLine line why).step = lined at hstate hevent hmore ⊢
        obtain ⟨v, e⟩ := lined
        simp only at hstate hevent hmore
        subst hevent
        obtain ⟨hsame, hsameEvent⟩ := run_congr hmore.1 (.inr rfl) hstate (j + k)
        obtain ⟨hrun, hrunEvent⟩ := hrest k
        exact ⟨hrun.trans hsame.symm, hrunEvent.trans hsameEvent.symm⟩
      | noInput why' =>
        cases h
        obtain ⟨-, -, rfl, htp, hempty, hsame⟩ := hnow rfl
        refine ⟨htp, 0, Nat.zero_le _, fun k => ?_⟩
        rw [Nat.zero_add]
        refine run_congr (s := t.feed line) (t := s.withLine line s.lack) htp (.inr rfl) ?_ k
        have hlack : t.lack = s.lack := congrArg (·.ending) hsame
        rw [provided_feed hempty, provided_withLine, hsame, hlack]
      | _ => simp at h

theorem provided_foldl_feed (hf : s.front = .direct) (early : List String) :
    (early.foldl feed s).IsPlain ∧
      (early.foldl feed s).provided = { s with lines := early ++ s.lines }.provided := by
  induction early generalizing s with
  | nil => exact ⟨.inr hf, rfl⟩
  | cons line rest ih =>
    obtain ⟨hplain, hsame⟩ := ih (s := s.feed line) hf
    refine ⟨hplain, hsame.trans ?_⟩
    simp [provided, stock, lack, hf, feed, feedAll, fed, Machine.enqueue, CharConsole.feedAll]

/-- Two sessions are at the same place: nothing of their machines differs but how many of the codes
to come have been queued. -/
structure Abreast (s t : Session) : Prop where
  pc : s.machine.pc = t.machine.pc
  registers : s.machine.registers = t.machine.registers
  memory : s.machine.memory = t.machine.memory
  stack : s.machine.stack = t.machine.stack
  output : s.machine.console.output = t.machine.console.output
  sink : s.machine.console.sink = t.machine.console.sink
  steps : s.machine.steps = t.machine.steps
  stop : s.machine.stop = t.machine.stop
  observer : s.observer = t.observer
  pending : s.pending = t.pending

theorem abreast_of_provided (h : s.provided = t.provided) : s.Abreast t where
  pc := congrArg (·.machine.pc) h
  registers := congrArg (·.machine.registers) h
  memory := congrArg (·.machine.memory) h
  stack := congrArg (·.machine.stack) h
  output := congrArg (·.machine.console.output) h
  sink := congrArg (·.machine.console.sink) h
  steps := congrArg (·.machine.steps) h
  stop := congrArg (·.machine.stop) h
  observer := congrArg (·.observer) h
  pending := congrArg (·.machine.console.queue) h

/-- However many of the lines are queued beforehand, a run goes through the same states and ends
alike. If it has ended for want of a line, it can be taken up again by queuing one. -/
theorem input_schedule_irrelevant :
    (∀ (s : Session) (early late : List String) (n : Nat), s.front = .direct →
      ((early.foldl feed { s with lines := late }).run n).1.Abreast
          ({ s with lines := early ++ late }.run n).1 ∧
        ((early.foldl feed { s with lines := late }).run n).2 =
          ({ s with lines := early ++ late }.run n).2) ∧
    (∀ (s t : Session) (n : Nat) (why : NoInput), s.IsPlain →
      s.run n = (t, some (.noInput why)) → ∀ line, ∃ j ≤ n, ∀ k,
        ((t.feed line).run k).1.Abreast ((s.withLine line why).run (j + k)).1 ∧
          ((t.feed line).run k).2 = ((s.withLine line why).run (j + k)).2) := by
  refine ⟨fun s early late n hf => ?_, fun s t n why hp h line => ?_⟩
  · obtain ⟨hplain, hsame⟩ := provided_foldl_feed (s := { s with lines := late }) hf early
    obtain ⟨hrun, hevent⟩ :=
      run_congr (t := { s with lines := early ++ late }) hplain (.inr hf) hsame n
    exact ⟨abreast_of_provided hrun, hevent⟩
  · obtain ⟨-, j, hj, hrest⟩ := run_resumed hp h line
    exact ⟨j, hj, fun k => ⟨abreast_of_provided (hrest k).1, (hrest k).2⟩⟩

def reading : Session where
  machine := { memory := (((Memory.empty.setCell 0 20).setCell 1 32768).setCell 2 6).setCell 3 0 }
  front := .direct
  lines := ["A"]

theorem reading_irrelevant :
    reading.front = .direct ∧
      (∀ n, ((["A"].foldl feed { reading with lines := ["B"] }).run n).1.Abreast
        ({ reading with lines := ["A", "B"] }.run n).1) ∧
      (reading.run 5).2 = some (.noInput .exhausted) ∧
      ∃ j ≤ 5, ∀ k, (((reading.run 5).1.feed "B").run k).1.Abreast
        ((reading.withLine "B" .exhausted).run (j + k)).1 := by
  obtain ⟨hearly, hlater⟩ := input_schedule_irrelevant
  have hend : (reading.run 5).2 = some (.noInput .exhausted) := by decide +kernel
  have hrun : reading.run 5 = ((reading.run 5).1, some (.noInput .exhausted)) := by rw [← hend]
  obtain ⟨j, hj, hrest⟩ := hlater reading _ 5 _ (.inr rfl) hrun "B"
  exact ⟨rfl, fun n => (hearly reading ["A"] ["B"] n rfl).1, hend, j, hj, fun k => (hrest k).1⟩

end Session

end WordMachine
