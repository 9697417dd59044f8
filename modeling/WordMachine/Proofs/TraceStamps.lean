import WordMachine.Proofs.Serving
import WordMachine.Proofs.TextFile
import WordMachine.Proofs.Tracing

/-!
The stamps of a tracer. However often it is started and stopped, it stamps its starts and its stops
by turns, and between a start and the next stop it writes what it is shown. Only a record with a
number that is too long to be written is refused there, and then it is as if it had not been shown.
-/
namespace WordMachine

namespace TraceLine

variable {lines : List TraceLine} {line : TraceLine}

def record? : TraceLine → Option TraceRecord
  | .executed r => some r
  | _ => none

def stamps (lines : List TraceLine) : List TraceLine := lines.filter (·.record?.isNone)

def recordsOf (lines : List TraceLine) : List TraceRecord := lines.filterMap record?

/-- The stamps that there are when a tracer is started and stopped by turns. -/
def stampAt (n : Nat) : TraceLine := if n % 2 = 0 then .started else .stopped

def Alternates (stamps : List TraceLine) : Prop :=
  stamps = (List.range stamps.length).map stampAt

/-- Every record comes after a start, and no stop has come in between. -/
def Brackets (lines : List TraceLine) : Prop :=
  ∀ before r after, lines = before ++ .executed r :: after →
    (stamps before).getLast? = some .started

theorem stamps_append (lines more : List TraceLine) :
    stamps (lines ++ more) = stamps lines ++ stamps more :=
  List.filter_append ..

theorem recordsOf_append (lines more : List TraceLine) :
    recordsOf (lines ++ more) = recordsOf lines ++ recordsOf more :=
  List.filterMap_append

theorem stamps_concat_of_stamp (lines : List TraceLine) (h : line.record? = none) :
    stamps (lines ++ [line]) = stamps lines ++ [line] := by
  rw [stamps_append]
  simp [stamps, h]

@[simp] theorem stamps_concat_executed (lines : List TraceLine) (r : TraceRecord) :
    stamps (lines ++ [.executed r]) = stamps lines := by
  rw [stamps_append]
  exact List.append_nil _

@[simp] theorem recordsOf_cons (line : TraceLine) (lines : List TraceLine) :
    recordsOf (line :: lines) = line.record?.toList ++ recordsOf lines := by
  cases line <;> rfl

@[simp] theorem recordsOf_concat (lines : List TraceLine) (line : TraceLine) :
    recordsOf (lines ++ [line]) = recordsOf lines ++ line.record?.toList := by
  rw [recordsOf_append, recordsOf_cons]
  exact congrArg _ (List.append_nil _)

theorem Alternates.concat (h : Alternates lines) (hline : line = stampAt lines.length) :
    Alternates (lines ++ [line]) := by
  rw [Alternates, List.length_append, List.length_singleton, List.range_succ, List.map_append,
    List.map_singleton, ← hline, ← h]

theorem Alternates.getLast? (h : Alternates lines) :
    lines.getLast? = some .started ↔ lines.length % 2 = 1 := by
  rw [h]
  cases lines.length with
  | zero => simp
  | succ n =>
    simp only [List.range_succ, List.map_append, List.map_singleton, List.getLast?_concat,
      List.length_append, List.length_map, List.length_range, List.length_singleton, stampAt]
    split
    next heven => simp; omega
    next hodd => simp; omega

theorem Brackets.concat (h : Brackets lines)
    (hline : ∀ r, line = .executed r → (stamps lines).getLast? = some .started) :
    Brackets (lines ++ [line]) := by
  intro before r after heq
  cases after using List.reverseRecOn with
  | nil =>
    obtain ⟨rfl, hlast⟩ := List.append_inj' heq rfl
    exact hline r (List.singleton_inj.mp hlast)
  | append_singleton after last =>
    rw [← List.cons_append, ← List.append_assoc] at heq
    exact h before r after (List.append_inj' heq rfl).1

theorem exists_text {time : String} (line : TraceLine) (htime : '\n' ∉ time.toList)
    (hline : ∀ r, line = .executed r → Text.IsInline r.mnemonic) :
    ∃ shown, '\n' ∉ shown ∧ (line.text time).toList = shown ++ ['\n'] := by
  cases line with
  | started =>
    refine ⟨time.toList ++ " - Logging started".toList, ?_, ?_⟩
    · simpa using htime
    · simp [text]
  | stopped =>
    refine ⟨time.toList ++ " - Logging stopped".toList, ?_, ?_⟩
    · simpa using htime
    · simp [text]
  | executed r =>
    refine ⟨r.line.toList, TraceRecord.newline_not_mem_line (hline r rfl), ?_⟩
    simp [text]

theorem streamLines_text {stamped : List (String × TraceLine)}
    (htime : ∀ p ∈ stamped, '\n' ∉ p.1.toList)
    (hline : ∀ p ∈ stamped, ∀ r, p.2 = .executed r → Text.IsInline r.mnemonic) :
    Text.streamLines (String.join (stamped.map fun p => p.2.text p.1)).toList =
      stamped.map fun p => (p.2.text p.1).toList.dropLast := by
  have hends : ∀ p ∈ stamped, '\n' ∉ (p.2.text p.1).toList.dropLast ∧
      (p.2.text p.1).toList = (p.2.text p.1).toList.dropLast ++ ['\n'] := by
    intro p hp
    obtain ⟨shown, hshown, htext⟩ := exists_text p.2 (htime p hp) (hline p hp)
    rw [htext, List.dropLast_concat]
    exact ⟨hshown, rfl⟩
  have hjoin : (String.join (stamped.map fun p => p.2.text p.1)).toList =
      (stamped.map fun p => (p.2.text p.1).toList.dropLast).flatMap (· ++ ['\n']) := by
    rw [String.toList_join, List.flatMap_map, List.flatMap_map]
    exact List.flatMap_congr fun p hp => (hends p hp).2
  rw [hjoin, Text.streamLines_flatMap]
  intro line hline
  obtain ⟨p, hp, rfl⟩ := List.mem_map.mp hline
  exact (hends p hp).1

end TraceLine

namespace Tracer

open TraceLine

inductive Call where
  | start
  | stop
  | close
  | record (r : TraceRecord)
  deriving DecidableEq, Repr

/-- Whether a call wants the tracer to run, if it cares. -/
def Call.running? : Call → Option Bool
  | .start => some true
  | .stop | .close => some false
  | .record _ => none

/-- The answer to a call is the line that it writes, if it writes one, or why it is refused. -/
def serve (t : Tracer) : Call → Tracer × Except String (Option TraceLine)
  | .start => (t.start.1, .ok t.start.2)
  | .stop => (t.stop.1, .ok t.stop.2)
  | .close => (t.close.1, .ok t.close.2)
  | .record r => t.record r

/-- The lines that go with some answers; a call that is refused has written nothing. -/
def linesOf (answers : List (Except String (Option TraceLine))) : List TraceLine :=
  answers.filterMap fun answer => answer.toOption.join

def after (calls : List Call) : Tracer := (serveAll serve {} calls).1

def answers (calls : List Call) : List (Except String (Option TraceLine)) :=
  (serveAll serve {} calls).2

def written (calls : List Call) : List TraceLine := linesOf (answers calls)

/-- The records that a tracer is shown while it is running. -/
def heard (t : Tracer) : List Call → List TraceRecord
  | [] => []
  | .record r :: rest => (if t.running then [r] else []) ++ (t.serve (.record r)).1.heard rest
  | call :: rest => (t.serve call).1.heard rest

@[simp] theorem linesOf_nil : linesOf [] = [] := rfl

@[simp] theorem linesOf_ok (line : Option TraceLine)
    (rest : List (Except String (Option TraceLine))) :
    linesOf (.ok line :: rest) = line.toList ++ linesOf rest := by
  cases line <;> rfl

@[simp] theorem linesOf_error (message : String)
    (rest : List (Except String (Option TraceLine))) :
    linesOf (.error message :: rest) = linesOf rest := rfl

theorem linesOf_append (answers more : List (Except String (Option TraceLine))) :
    linesOf (answers ++ more) = linesOf answers ++ linesOf more :=
  List.filterMap_append

section Serve

variable (t : Tracer) (call : Call)

/-- What a call can do: nothing, a start, a stop, or a record that is written or refused. -/
theorem serve_cases :
    (t.serve call = (t, .ok none) ∧ ∀ b, call.running? = some b → b = t.running) ∨
    (t.serve call = ({ t with running := true }, .ok (some .started)) ∧ t.running = false ∧
      call.running? = some true) ∨
    (t.serve call = ({ t with running := false }, .ok (some .stopped)) ∧ t.running = true ∧
      call.running? = some false) ∨
    (∃ r, call = .record r ∧ t.running = true ∧ r.IsWritable ∧
      t.serve call = ({ t with records := t.records + 1 }, .ok (some (.executed r)))) ∨
    ∃ r, call = .record r ∧ t.running = true ∧ ¬r.IsWritable ∧
      t.serve call = (t, .error Text.tooLongToWrite) := by
  cases call with
  | record r =>
    by_cases hr : r.IsWritable <;> cases hrunning : t.running <;>
      simp [serve, record, Call.running?, hrunning, hr]
  | _ =>
    cases hrunning : t.running <;> simp [serve, start, stop, close, Call.running?, hrunning]

theorem running_serve : (t.serve call).1.running = call.running?.getD t.running := by
  obtain ⟨hserve, hsame⟩ | ⟨hserve, -, hcall⟩ | ⟨hserve, -, hcall⟩ | ⟨r, rfl, -, -, hserve⟩ |
    ⟨r, rfl, -, -, hserve⟩ := t.serve_cases call
  · rw [hserve]
    cases hcall : call.running? with
    | none => rfl
    | some b => exact (hsame b hcall).symm
  · simp [hserve, hcall]
  · simp [hserve, hcall]
  · simp [hserve, Call.running?]
  · simp [hserve, Call.running?]

theorem serve_of_stopped (h : t.running = false) (hcall : call ≠ .start) :
    t.serve call = (t, .ok none) := by
  cases call <;> simp_all [serve, stop, close, record]

theorem serve_eq_error_iff {message : String} :
    (t.serve call).2 = .error message ↔
      message = Text.tooLongToWrite ∧ t.running = true ∧
        ∃ r, call = .record r ∧ ¬r.IsWritable := by
  cases call with
  | record r =>
    by_cases hr : r.IsWritable <;> cases hrunning : t.running <;>
      simp [serve, record, hrunning, hr, eq_comm]
  | _ => simp [serve]

theorem serve_of_refused {message : String} (h : (t.serve call).2 = .error message) :
    (t.serve call).1 = t := by
  obtain ⟨-, hrunning, r, rfl, hr⟩ := (t.serve_eq_error_iff call).mp h
  simp [serve, record, hrunning, hr]

/-- The flag, the count and the lines that have been written belong together. -/
structure InStep (t : Tracer) (lines : List TraceLine) : Prop where
  alternates : Alternates (stamps lines)
  brackets : Brackets lines
  running_iff : t.running = true ↔ (stamps lines).getLast? = some .started
  counts : t.records = (recordsOf lines).length

variable {t} {lines : List TraceLine}

theorem InStep.running_iff_odd (h : InStep t lines) :
    t.running = true ↔ (stamps lines).length % 2 = 1 :=
  h.running_iff.trans h.alternates.getLast?

theorem InStep.stamp {line : TraceLine} {running : Bool} (h : InStep t lines)
    (hstamp : line.record? = none) (hturn : line = stampAt (stamps lines).length)
    (hrunning : running = true ↔ line = .started) :
    InStep { t with running } (lines ++ [line]) := by
  have hstamps := stamps_concat_of_stamp lines hstamp
  constructor
  · rw [hstamps]
    exact h.alternates.concat hturn
  · apply h.brackets.concat
    rintro r rfl
    contradiction
  · simpa [hstamps] using hrunning
  · simpa [hstamp] using h.counts

theorem InStep.serve (h : InStep t lines) :
    InStep (t.serve call).1 (lines ++ linesOf [(t.serve call).2]) := by
  have hodd := h.running_iff_odd
  obtain ⟨hserve, -⟩ | ⟨hserve, hrunning, -⟩ | ⟨hserve, hrunning, -⟩ | ⟨r, -, hrunning, -, hserve⟩ |
    ⟨r, -, -, -, hserve⟩ := t.serve_cases call
  · simpa [hserve] using h
  · rw [hserve]
    rw [hrunning] at hodd
    exact h.stamp rfl (by simpa [stampAt] using hodd) (by simp)
  · rw [hserve]
    rw [hrunning] at hodd
    exact h.stamp rfl (by simpa [stampAt] using hodd) (by simp)
  · rw [hserve]
    constructor
    · simpa using h.alternates
    · exact h.brackets.concat fun _ _ => h.running_iff.mp hrunning
    · simpa using h.running_iff
    · simpa [record?] using h.counts
  · simpa [hserve] using h

end Serve

theorem inStep (calls : List Call) : InStep (after calls) (written calls) := by
  refine serveAll_induction
    (motive := fun _ (t : Tracer) answers => InStep t (linesOf answers)) ?_ ?_ calls
  · exact ⟨rfl, fun before r after h => by simp at h, by simp [stamps], rfl⟩
  · intro calls t answers call h
    rw [linesOf_append]
    exact h.serve call

theorem running_after (calls : List Call) :
    (after calls).running = (calls.filterMap Call.running?).getLast?.getD false := by
  refine serveAll_induction
    (motive := fun calls (t : Tracer) _ =>
      t.running = (calls.filterMap Call.running?).getLast?.getD false) rfl ?_ calls
  intro calls t answers call h
  rw [running_serve, h, List.filterMap_append]
  cases hcall : call.running? <;> simp [hcall]

/-- The records that are written are those that have been shown to a running tracer, but for the
refused ones. -/
theorem recordsOf_serveAll (t : Tracer) (calls : List Call) :
    recordsOf (linesOf (serveAll serve t calls).2) =
      (t.heard calls).filter (·.IsWritable) := by
  induction calls generalizing t with
  | nil => rfl
  | cons call rest ih =>
    rw [serveAll_cons]
    cases call with
    | record r =>
      by_cases hr : r.IsWritable <;> cases hrunning : t.running <;>
        simp [heard, serve, record, record?, hrunning, hr, ih]
    | _ =>
      cases hrunning : t.running <;>
        simp [heard, serve, start, stop, close, record?, hrunning, ih]

theorem isWritable_of_heard {t : Tracer} {calls : List Call}
    (h : ∀ answer ∈ (serveAll serve t calls).2, ∃ line, answer = .ok line) {r : TraceRecord}
    (hr : r ∈ t.heard calls) : r.IsWritable := by
  induction calls generalizing t with
  | nil => contradiction
  | cons call rest ih =>
    rw [serveAll_cons] at h
    obtain ⟨⟨line, hfirst⟩, hrest⟩ := List.forall_mem_cons.mp h
    cases call with
    | record shown =>
      obtain hshown | hlater := List.mem_append.mp hr
      · by_contra hlong
        cases hrunning : t.running <;> simp_all [serve, record]
      · exact ih hrest hlater
    | _ => exact ih hrest hr

theorem serveAll_of_stopped {t : Tracer} (h : t.running = false) {calls : List Call}
    (hcalls : .start ∉ calls) : linesOf (serveAll serve t calls).2 = [] := by
  induction calls with
  | nil => rfl
  | cons call rest ih =>
    have hcall : call ≠ .start := fun heq => hcalls (heq ▸ List.mem_cons_self)
    rw [serveAll_cons, serve_of_stopped t call h hcall, linesOf_ok]
    exact ih fun hmem => hcalls (List.mem_cons_of_mem _ hmem)

theorem written_append (calls later : List Call) : written (calls ++ later) =
    written calls ++ linesOf (serveAll serve (after calls) later).2 := by
  rw [written, answers, serveAll_append, linesOf_append]
  rfl

theorem after_concat (calls : List Call) (call : Call) :
    after (calls ++ [call]) = ((after calls).serve call).1 :=
  congrArg Prod.fst (serveAll_concat _ _ _)

theorem written_concat (calls : List Call) (call : Call) :
    written (calls ++ [call]) = written calls ++ linesOf [((after calls).serve call).2] :=
  written_append calls [call]

theorem written_of_closed {calls later : List Call} (h : .start ∉ later) :
    written (calls ++ .close :: later) = written (calls ++ [.close]) := by
  have hclosed : (after (calls ++ [.close])).running = false := by
    simp [running_after, Call.running?]
  have happend : calls ++ .close :: later = (calls ++ [.close]) ++ later := by simp
  rw [happend, written_append, serveAll_of_stopped hclosed h, List.append_nil]

theorem mem_of_mem_heard {t : Tracer} {calls : List Call} {r : TraceRecord}
    (h : r ∈ t.heard calls) : .record r ∈ calls := by
  induction calls generalizing t with
  | nil => contradiction
  | cons call rest ih =>
    cases call with
    | record shown =>
      obtain hr | hr := List.mem_append.mp h
      · cases hrunning : t.running <;> simp_all
      · exact List.mem_cons_of_mem _ (ih hr)
    | _ => exact List.mem_cons_of_mem _ (ih h)

/-- An addition is shown to a tracer before and after each of its stops, and once a record is that
is too long. -/
def restarted : List Call :=
  let adding : TraceRecord := ⟨12, "add", [32768, 4, 4], [4, 4]⟩
  [.record adding, .start, .start, .record adding, .record ⟨Text.unwritable, "noop", [], []⟩, .stop,
    .record adding, .start, .close, .stop, .record adding]

end Tracer

end WordMachine
