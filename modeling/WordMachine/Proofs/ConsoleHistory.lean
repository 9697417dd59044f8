import Mathlib.Data.List.DropRight
import Mathlib.Data.List.ReduceOption
import WordMachine.CharConsole
import WordMachine.Proofs.Serving
import WordMachine.Proofs.StepLaw

/-!
The history of a console with a stream. What the stream has received is made of all codes that have
been emitted, what the console holds of those since the last reset, and what is read back of the
lines that have been fed since then, in their order.
-/
namespace WordMachine.CharConsole

inductive Call where
  | emit (code : Int)
  | feed (line : String)
  | next
  | reset
  deriving DecidableEq, Repr

def serve (c : CharConsole) : Call → CharConsole × Option (Option UInt8)
  | .emit code => (c.emit code, none)
  | .feed line => (c.feed line, none)
  | .next => (c.take.2, some c.take.1)
  | .reset => (c.reset, none)

def Call.code? : Call → Option Int
  | .emit code => some code
  | _ => none

/-- What is fed is the text of a line and the line feed that ends it. -/
def Call.bytes : Call → List UInt8
  | .feed line => line.toList.flatMap String.utf8EncodeChar ++ [10]
  | _ => []

/-- The codes that are emitted, and the bytes that are fed. -/
def codes (calls : List Call) : List Int := calls.filterMap Call.code?

def fed (calls : List Call) : List UInt8 := calls.flatMap Call.bytes

/-- The calls since the last reset, and those up to it. -/
def lately (calls : List Call) : List Call := calls.rtakeWhile (· ≠ .reset)

def formerly (calls : List Call) : List Call := calls.rdropWhile (· ≠ .reset)

def charOf (code : Int) : Char := Char.ofNat (code % 256).toNat

def codePoints (text : String) : List Int := text.toList.map fun c => (c.toNat : Int)

/-- What a console becomes that has nothing but a stream that has received nothing. -/
def after (calls : List Call) : CharConsole := (serveAll serve { sink := some {} } calls).1

def answers (calls : List Call) : List (Option UInt8) :=
  (serveAll serve { sink := some {} } calls).2.reduceOption

/-- The bytes that it has given since the last reset. -/
def returned (calls : List Call) : List UInt8 :=
  (serveAll serve (after (formerly calls)) (lately calls)).2.reduceOption.reduceOption

theorem codes_append (calls later : List Call) :
    codes (calls ++ later) = codes calls ++ codes later :=
  List.filterMap_append

@[simp] theorem codes_nil : codes [] = [] := rfl

@[simp] theorem codes_cons (call : Call) (calls : List Call) :
    codes (call :: calls) = call.code?.toList ++ codes calls := by
  cases call <;> rfl

@[simp] theorem fed_cons (call : Call) (calls : List Call) :
    fed (call :: calls) = call.bytes ++ fed calls := rfl

theorem take_fst (c : CharConsole) : c.take.1 = c.queue.head? := by
  unfold take
  split
  next h => rw [h]; rfl
  next h => rw [h]; rfl

theorem toNat_charOf (code : Int) : ((charOf code).toNat : Int) = code % 256 := by
  have hvalid : (code % 256).toNat.isValidChar := .inl (by omega)
  have hchar : charOf code = Char.ofNatAux (code % 256).toNat hvalid := dif_pos hvalid
  have hvalue : (Char.ofNatAux (code % 256).toNat hvalid).toNat = (code % 256).toNat := rfl
  rw [hchar, hvalue]
  omega

theorem codePoints_of_charOf {text : String} {codes : List Int}
    (h : text.toList = codes.map charOf) : codePoints text = codes.map (· % 256) := by
  simp [codePoints, h, toNat_charOf]

section Sink

structure Received (codes : List Int) (s : Sink) : Prop where
  text : s.text.toList = codes.map charOf
  flushes : s.flushes = codes.countP (· % 256 = 10)

theorem Received.put {codes : List Int} {s : Sink} (h : Received codes s) (code : Int) :
    Received (codes ++ [code]) (s.put (lowByte code)) := by
  constructor
  · simp [Sink.put, h.text, charOf, toNat_lowByte]
  · simp only [Sink.put, lowByte_eq_ten, h.flushes, List.countP_append, List.countP_singleton,
      decide_eq_true_eq]
    split <;> rfl

theorem exists_received (calls : List Call) :
    ∃ s, (after calls).sink = some s ∧ Received (codes calls) s := by
  refine serveAll_induction (motive := fun calls (c : CharConsole) _ =>
    ∃ s, c.sink = some s ∧ Received (codes calls) s) ?_ ?_ calls
  · exact ⟨{}, rfl, rfl, rfl⟩
  · rintro calls c - call ⟨s, hsink, hs⟩
    rw [codes_append]
    cases call with
    | emit code => exact ⟨s.put (lowByte code), by simp [serve, emit, hsink], hs.put code⟩
    | feed line => exact ⟨s, hsink, by simpa [Call.code?] using hs⟩
    | next =>
      exact ⟨s, by simpa [serve, Machine.take_snd] using hsink, by simpa [Call.code?] using hs⟩
    | reset => exact ⟨s, hsink, by simpa [Call.code?] using hs⟩

end Sink

section Recent

variable {calls : List Call} {c : CharConsole}

theorem output_serve (c : CharConsole) {call : Call} (h : call ≠ .reset) :
    (c.serve call).1.output.toList = c.output.toList ++ call.code?.toList.map lowByte := by
  cases call <;> simp_all [serve, emit, feed, Call.code?, Machine.take_snd]

theorem queue_serve (c : CharConsole) {call : Call} (h : call ≠ .reset) :
    (c.serve call).2.join.toList ++ (c.serve call).1.queue = c.queue ++ call.bytes := by
  cases call with
  | next => cases hqueue : c.queue <;> simp [serve, Call.bytes, take_fst, Machine.take_snd, hqueue]
  | _ => simp_all [serve, emit, feed, lineBytes, Text.utf8Encode, Call.bytes]

theorem output_serveAll (h : .reset ∉ calls) : (serveAll serve c calls).1.output.toList =
    c.output.toList ++ (codes calls).map lowByte := by
  induction calls generalizing c with
  | nil => simp [serveAll, codes]
  | cons call rest ih =>
    rw [List.mem_cons, not_or] at h
    rw [serveAll_cons, ih h.2, output_serve c (Ne.symm h.1)]
    simp

theorem reduceOption_cons_join {α : Type} (answer : Option (Option α))
    (rest : List (Option (Option α))) : (answer :: rest).reduceOption.reduceOption =
      answer.join.toList ++ rest.reduceOption.reduceOption := by
  rcases answer with _ | _ | a <;> rfl

/-- No byte is lost: what is given and what is still queued is what was queued and what is fed. -/
theorem queue_serveAll (h : .reset ∉ calls) :
    (serveAll serve c calls).2.reduceOption.reduceOption ++ (serveAll serve c calls).1.queue =
      c.queue ++ fed calls := by
  induction calls generalizing c with
  | nil => simp [serveAll, List.reduceOption, fed]
  | cons call rest ih =>
    rw [List.mem_cons, not_or] at h
    rw [serveAll_cons, reduceOption_cons_join, List.append_assoc, ih h.2, ← List.append_assoc,
      queue_serve c (Ne.symm h.1), List.append_assoc, fed_cons]

theorem formerly_append_lately (calls : List Call) : formerly calls ++ lately calls = calls :=
  List.rdropWhile_append_rtakeWhile ..

theorem reset_not_mem_lately (calls : List Call) : .reset ∉ lately calls := by
  intro h
  simpa using List.mem_rtakeWhile_imp h

theorem cleared (calls : List Call) : (after (formerly calls)).output = #[] ∧
    (after (formerly calls)).queue = [] := by
  induction calls using List.reverseRecOn with
  | nil => exact ⟨rfl, rfl⟩
  | append_singleton calls call ih =>
    by_cases hcall : call = .reset
    · have hformerly : formerly (calls ++ [call]) = calls ++ [call] :=
        List.rdropWhile_concat_neg _ _ _ (by simp [hcall])
      rw [hformerly, after, serveAll_concat, hcall]
      exact ⟨rfl, rfl⟩
    · have hformerly : formerly (calls ++ [call]) = formerly calls :=
        List.rdropWhile_concat_pos _ _ _ (by simp [hcall])
      rw [hformerly]
      exact ih

theorem after_eq (calls : List Call) :
    after calls = (serveAll serve (after (formerly calls)) (lately calls)).1 := by
  conv_lhs => rw [← formerly_append_lately calls, after, serveAll_append]
  rfl

theorem output_after (calls : List Call) :
    (after calls).output.toList = (codes (lately calls)).map lowByte := by
  rw [after_eq, output_serveAll (reset_not_mem_lately calls), (cleared calls).1]
  rfl

theorem queue_after (calls : List Call) :
    returned calls ++ (after calls).queue = fed (lately calls) := by
  rw [after_eq, returned, queue_serveAll (reset_not_mem_lately calls), (cleared calls).2]
  rfl

end Recent

theorem answers_of_silent {c d : CharConsole} (h : c.queue = d.queue) (calls : List Call) :
    (serveAll serve c calls).2.reduceOption =
      (serveAll serve d (calls.filter (·.code?.isNone))).2.reduceOption := by
  induction calls generalizing c d with
  | nil => rfl
  | cons call rest ih =>
    cases call with
    | emit code =>
      rw [List.filter_cons_of_neg (by simp [Call.code?])]
      exact ih h
    | feed line =>
      rw [List.filter_cons_of_pos rfl]
      apply ih
      simp [feed, h]
    | next =>
      have hrest := ih (c := c.take.2) (d := d.take.2) (by simp [Machine.take_snd, h])
      rw [List.filter_cons_of_pos rfl, serveAll_cons, serveAll_cons]
      simp only [serve, take_fst, h, List.reduceOption_cons_of_some, hrest]
    | reset =>
      rw [List.filter_cons_of_pos rfl]
      exact ih rfl

theorem text_after (calls : List Call) :
    (after calls).text.toList = (codes (lately calls)).map charOf := by
  simp [CharConsole.text, Text.latin1, output_after, charOf, toNat_lowByte]

/-- What a console and its stream hold, whatever has been asked of them: the stream a character for
every code, the console the last of them, and of what has been fed it gives one byte after the
other. -/
theorem stream_in_step (calls : List Call) :
    (∃ s, (after calls).sink = some s ∧
      codePoints s.text = (codes calls).map (· % 256) ∧
      s.flushes = (codes calls).countP (· % 256 = 10) ∧
      (after calls).text.toList <:+ s.text.toList) ∧
    (after calls).output.toList.map (fun b => (b.toNat : Int)) =
      (codes (lately calls)).map (· % 256) ∧
    codePoints (after calls).text = (codes (lately calls)).map (· % 256) ∧
    returned calls <+: fed (lately calls) ∧
    ((after calls).serve .next).2 = some (fed (lately calls))[(returned calls).length]? ∧
    answers calls = answers (calls.filter (·.code?.isNone)) := by
  have hqueue := queue_after calls
  have hoffered : (after calls).queue = (fed (lately calls)).drop (returned calls).length := by
    rw [← hqueue, List.drop_left]
  refine ⟨?_, ?_, codePoints_of_charOf (text_after calls), ⟨_, hqueue⟩, ?_,
    answers_of_silent rfl calls⟩
  · obtain ⟨s, hsink, htext, hflushes⟩ := exists_received calls
    refine ⟨s, hsink, codePoints_of_charOf htext, hflushes, ?_⟩
    have hsuffix : codes (lately calls) <:+ codes calls :=
      ⟨codes (formerly calls), by rw [← codes_append, formerly_append_lately]⟩
    rw [text_after, htext]
    exact hsuffix.map charOf
  · rw [output_after, List.map_map]
    apply List.map_congr_left
    intro code _
    simp only [Function.comp_apply, toNat_lowByte]
    omega
  · rw [serve, take_fst, hoffered, List.head?_drop]

example : (after [.emit 321, .feed "a", .reset, .emit (-246), .feed "b", .next]).sink =
    some { text := "A\n", flushes := 1 } := by rfl

end WordMachine.CharConsole
