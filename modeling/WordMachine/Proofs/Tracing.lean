import WordMachine.Proofs.DirectRun
import WordMachine.Proofs.InlineText

/-!
What a running tracer writes. Without a debugger nothing stops it, so it writes one line for each
instruction that is executed, in order, since the numbers of a well-formed machine are all short.
Such a line is a line indeed: nothing in it ends it early.
-/
namespace WordMachine

namespace Text

variable {pieces : List Piece}

theorem mem_of_mem_dropReversed {n : Nat} {p : Piece} {c : Char}
    (hp : p ∈ dropReversed n pieces) (hc : c ∈ p.text) : ∃ q ∈ pieces, c ∈ q.text := by
  induction pieces generalizing n with
  | nil => contradiction
  | cons q rest ih =>
    rw [dropReversed] at hp
    split at hp
    · exact ⟨p, hp, hc⟩
    · split at hp
      · obtain rfl | hp := List.mem_cons.mp hp
        · exact ⟨q, List.mem_cons_self, List.mem_of_mem_take hc⟩
        · exact ⟨p, List.mem_cons_of_mem _ hp, hc⟩
      · obtain ⟨q', hq', hc'⟩ := ih hp
        exact ⟨q', List.mem_cons_of_mem _ hq', hc'⟩

theorem newline_not_mem_render {p : Piece} (h : '\n' ∉ p.text) : '\n' ∉ p.render.toList := by
  unfold Piece.render
  split
  · exact List.not_mem_nil
  · split
    · rwa [String.toList_ofList]
    next style _ =>
      have hcode : '\n' ∉ style.code.toList := by cases style <;> decide
      simp [hcode, h]

theorem newline_not_mem_display {width : Nat}
    (h : ∀ p ∈ pieces, ∃ style s, p = .ofText style s ∧ IsInline s) :
    '\n' ∉ (display width pieces).toList := by
  have hchars : ∀ p ∈ pieces, ∀ c ∈ p.text, c ≠ '\n' ∧ c ≠ '\t' := by
    intro p hp c hc
    obtain ⟨style, s, rfl, hs⟩ := h p hp
    exact hs c (List.mem_of_mem_filter hc)
  rw [display, linesOf_eq_singleton fun p hp c hc => (hchars p hp c hc).1, List.map_singleton,
    expandTabs_eq_self (fun p hp c hc => (hchars p hp c hc).2) 0, String.intercalate_singleton,
    String.toList_join, List.flatMap_map, List.mem_flatMap]
  rintro ⟨p, hp, hmem⟩
  refine newline_not_mem_render (fun hline => ?_) hmem
  obtain ⟨q, hq, hc⟩ := mem_of_mem_dropReversed (List.mem_reverse.mp hp) hline
  exact (hchars q (List.mem_reverse.mp hq) _ hc).1 rfl

end Text

open Text

theorem TraceRecord.newline_not_mem_line {r : TraceRecord} (h : IsInline r.mnemonic) :
    '\n' ∉ r.line.toList := by
  have hcomma : IsInline ", " := by decide
  have hdashes : IsInline " -- " := by decide
  have hpc : IsInline ("PC: " ++ padLeft 5 (toString r.pc) ++ " -- ") :=
    (IsInline.append (by decide) ((IsInline.ofInt r.pc).padLeft 5)).append hdashes
  have hmnemonic : IsInline (padLeft 4 r.mnemonic ++ " ") := (h.padLeft 4).append (by decide)
  have hlabels : IsInline (", ".intercalate r.labels) := by
    refine hcomma.intercalate fun s hs => ?_
    obtain ⟨x, -, rfl⟩ := List.mem_map.mp hs
    exact .registerName x
  have hvalues : IsInline (", ".intercalate (r.values.map toString)) := by
    refine hcomma.intercalate fun s hs => ?_
    obtain ⟨x, -, rfl⟩ := List.mem_map.mp hs
    exact .ofInt x
  refine newline_not_mem_display fun p hp => ?_
  unfold pieces at hp
  obtain hp | hp := List.mem_append.mp hp
  · simp only [List.mem_cons, List.not_mem_nil, or_false] at hp
    obtain rfl | rfl | rfl := hp
    · exact ⟨_, _, rfl, hpc⟩
    · exact ⟨_, _, rfl, hmnemonic⟩
    · exact ⟨_, _, rfl, hlabels⟩
  · split at hp
    · contradiction
    · simp only [List.mem_cons, List.not_mem_nil, or_false] at hp
      obtain rfl | rfl := hp
      · exact ⟨_, _, rfl, hdashes⟩
      · exact ⟨_, _, rfl, hvalues⟩

namespace Machine

variable {m : Machine} {op : Opcode} {r : TraceRecord}

theorem isWord_shown (hw : m.WellFormed) (hpc : m.pc ≤ 32767) {a b c : Int} (ha : IsWord a)
    (hb : IsWord b) (hc : IsWord c) : ∀ v ∈ m.shown a b c op, IsWord v := by
  have hva := hw.val ha.1
  have hvb := hw.val hb.1
  have hvc := hw.val hc.1
  have hheld := hw.held (m.val b)
  have hbehind : IsWord (m.pc + 3) := ⟨by have := hw.pc; omega, by omega⟩
  intro v hv
  cases op with
  | halt | noop => simp [shown] at hv
  | pop | ret => exact hw.stack v (List.mem_of_mem_head? (by simpa [shown] using hv))
  | «in» =>
    obtain ⟨code, -, rfl⟩ : ∃ code, _ ∧ _ := by simpa [shown] using hv
    have := code.toNat_lt
    exact ⟨by omega, by omega⟩
  | jt | jf =>
    simp only [shown, next, List.mem_cons, List.not_mem_nil, or_false] at hv
    obtain rfl | rfl := hv
    · exact hva
    · split <;> assumption
  | set | not | push | out | jmp | call =>
    obtain rfl := List.mem_singleton.mp hv
    assumption
  | _ =>
    obtain rfl | rfl := List.mem_pair.mp hv <;> assumption

theorem isWord_recordOf (hw : m.WellFormed) (h : m.Fetches op) :
    ∀ v ∈ (m.recordOf op).pc :: ((m.recordOf op).operands ++ (m.recordOf op).values),
      IsWord v := by
  have hwhole := h.whole
  have hpc : m.pc ≤ 32767 := by omega
  intro v hv
  obtain rfl | hv := List.mem_cons.mp hv
  · exact ⟨h.inside, show m.pc ≤ 65535 by omega⟩
  obtain hv | hv := List.mem_append.mp hv
  · have hwords := List.mem_of_mem_take hv
    simp only [List.mem_cons, List.not_mem_nil, or_false] at hwords
    obtain rfl | rfl | rfl := hwords <;> exact m.isWord_wordAt _
  · exact isWord_shown hw hpc (m.isWord_wordAt 1) (m.isWord_wordAt 2) (m.isWord_wordAt 3) v hv

/-- What a well-formed machine executes has a record that can be written. -/
theorem isWritable_of_executed (hw : m.WellFormed) (h : m.step.2 = .executed r) :
    r.IsWritable := by
  obtain hend | ⟨hpc, hcode⟩ | ⟨op, hpc, hcode, hcut⟩ | ⟨op, hop⟩ := cases_of_wellFormed hw
  · rw [step_of_outside hend] at h
    contradiction
  · rw [step_of_noOpcode hw.pc.1 hpc hcode] at h
    contradiction
  · rw [step_of_cutOff hw.pc.1 hpc hcode hcut] at h
    contradiction
  · have hready : op = .in → m.console.queue ≠ [] := by
      rintro rfl hempty
      rw [step_of_awaits ⟨hop, hempty⟩] at h
      contradiction
    rw [step_of_fetches hw hop hready] at h
    split at h
    · contradiction
    · obtain rfl : m.recordOf op = r := by simpa using h
      intro v hv
      have := isWord_recordOf hw hop v hv
      exact isWritable_of_natAbs_lt (by omega)

end Machine

namespace Session

variable {s : Session}

def traced (s : Session) : List TraceLine := s.journal.toList.filterMap Entry.trace?

def IsTracing (s : Session) : Prop := ∃ t, s.observer = .tracer t ∧ t.running = true

theorem traced_note (r : Log.Record) : (s.note r).traced = s.traced := by
  simp [traced, note, Entry.trace?]

theorem traced_feedAll (lines : List String) : (s.feedAll lines).traced = s.traced := by
  simp [traced, feedAll, List.filterMap_map, Function.comp_def, Entry.trace?]

theorem traced_trace (line : TraceLine) : (s.trace (some line)).traced = s.traced ++ [line] := by
  unfold trace
  dsimp only
  split <;> simp [traced, Entry.trace?]

theorem wellFormed_ready (hw : s.machine.WellFormed) : s.ready.1.machine.WellFormed :=
  have hready := (attended_ready s).1.wellFormed hw
  ⟨hready.registers, hready.stack, hready.pc⟩

theorem tracing_ready (h : s.front = .direct) (ht : s.IsTracing) :
    s.ready.1.IsTracing ∧ s.ready.1.traced = s.traced := by
  by_cases hstarved : s.machine.step.2 = .starved
  · cases hlines : s.lines with
    | nil =>
      rw [ready_of_nil h hstarved hlines]
      exact ⟨ht, rfl⟩
    | cons line rest =>
      rw [ready_of_cons h hstarved hlines]
      exact ⟨ht, (traced_feedAll [line]).trans (traced_note ..)⟩
  · rw [ready_of_not_starved hstarved]
    exact ⟨ht, rfl⟩

theorem tracing_witness (ht : s.IsTracing) {r : TraceRecord} (hr : r.IsWritable) :
    (s.witness r).1.IsTracing ∧ (s.witness r).1.traced = s.traced ++ [.executed r] := by
  obtain ⟨t, hobserver, hrunning⟩ := ht
  have hsees : s.observer.see r =
      (.tracer { t with records := t.records + 1 }, some (.executed r)) := by
    simp [hobserver, Observer.see, Tracer.record, hrunning, hr, Except.toOption]
  have hwatch : (s.watch r).IsTracing ∧ (s.watch r).traced = s.traced ++ [.executed r] := by
    unfold watch
    dsimp only
    rw [hsees]
    exact ⟨⟨_, observer_trace _, hrunning⟩, traced_trace _⟩
  unfold witness
  dsimp only
  split
  · exact hwatch
  · exact ⟨hwatch.1, (traced_note ..).trans hwatch.2⟩

/-- A step traces the instruction that it executes, if it executes one. -/
theorem tracing_step (hw : s.machine.WellFormed) (h : s.front = .direct) (ht : s.IsTracing) :
    s.step.1.IsTracing ∧ s.step.1.traced = s.traced ++ s.made.toList.map .executed := by
  obtain ⟨hready, hsame⟩ := tracing_ready h ht
  have hready' := wellFormed_ready hw
  rw [← hsame, step_eq_ready, made]
  generalize s.ready = ready at hready hready'
  obtain ⟨t, _ | why⟩ := ready
  · dsimp only at hready hready' ⊢
    have hwritable := fun r => Machine.isWritable_of_executed (r := r) hready'
    rw [settle_eq]
    generalize t.machine.step = stepped at hwritable ⊢
    obtain ⟨m, r | f | _ | _⟩ := stepped
    · exact tracing_witness (s := { t with machine := m }) hready (hwritable r rfl)
    all_goals exact ⟨hready, (List.append_nil _).symm⟩
  · exact ⟨hready, (List.append_nil _).symm⟩

theorem tracing_after (hw : s.machine.WellFormed) (h : s.front = .direct) (ht : s.IsTracing)
    (n : Nat) :
    (s.after n).IsTracing ∧ (s.after n).traced = s.traced ++ (s.recorded n).map .executed := by
  induction n generalizing s with
  | zero => exact ⟨ht, by simp [after, recorded, gathered]⟩
  | succ n ih =>
    obtain ⟨hstep, htraced⟩ := tracing_step hw h ht
    obtain ⟨hlater, hrest⟩ := ih (wellFormed_step hw) ((front_step s).trans h) hstep
    rw [after, recorded_succ, List.map_append, ← List.append_assoc, ← htraced]
    exact ⟨hlater, hrest⟩

theorem mnemonic_of_made {r : TraceRecord} (h : s.made = some r) :
    ∃ op : Opcode, r.mnemonic = op.mnemonic := by
  obtain ⟨i, e, -, -, rfl, -⟩ := step_of_made h
  exact ⟨i.opcode, rfl⟩

theorem newline_not_mem_recorded {n : Nat} {r : TraceRecord} (h : r ∈ s.recorded n) :
    '\n' ∉ r.line.toList := by
  induction n generalizing s with
  | zero => contradiction
  | succ n ih =>
    rw [recorded_succ, List.mem_append] at h
    obtain h | h := h
    · obtain ⟨op, hop⟩ := mnemonic_of_made (Option.mem_toList.mp h)
      exact TraceRecord.newline_not_mem_line (hop ▸ op.isInline_mnemonic)
    · exact ih h

namespace Alike

variable {u : Session}

theorem made (h : s.Alike u) : s.made = u.made := by
  obtain ⟨hready, hwhy⟩ := h.ready
  unfold Session.made
  generalize s.ready = ready at hready hwhy ⊢
  generalize u.ready = ready' at hready hwhy ⊢
  obtain ⟨t, w⟩ := ready
  obtain ⟨v, w'⟩ := ready'
  obtain rfl : w = w' := hwhy
  cases w with
  | some why => rfl
  | none =>
    dsimp only
    rw [(Machine.step_congr hready.machine).2]

theorem recorded (h : s.Alike u) (n : Nat) : s.recorded n = u.recorded n := by
  induction n generalizing s u with
  | zero => rfl
  | succ n ih => rw [recorded_succ, recorded_succ, h.made, ih h.step.1]

theorem runLength (h : s.Alike u) (n : Nat) : s.runLength n = u.runLength n := by
  induction n generalizing s u with
  | zero => rfl
  | succ n ih =>
    obtain ⟨hstep, hevent⟩ := h.step
    unfold Session.runLength
    rw [Machine.stop_of_muted h.machine]
    generalize s.step = a at hstep hevent ⊢
    generalize u.step = b at hstep hevent ⊢
    obtain ⟨a, e⟩ := a
    obtain ⟨b, e'⟩ := b
    obtain rfl : e = e' := hevent
    cases e with
    | running =>
      dsimp only
      rw [ih hstep]
    | _ => rfl

theorem feedAll (h : s.Alike u) (lines : List String) :
    (s.feedAll lines).Alike (u.feedAll lines) := by
  have hfed := congrArg (fun m : Machine => { m with console := m.console.feedAll lines }) h.machine
  exact ⟨h.direct, h.direct', hfed, h.lines, h.ending⟩

end Alike

end Session

end WordMachine
