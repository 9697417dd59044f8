import WordMachine.Proofs.Narrow
import WordMachine.Proofs.UnseenCell

/-!
Where values of more than fifteen bits come from. As long as no wide word is loaded from memory and
no call is made from the last place where one can stand, the registers, the stack and all that is
stored stay narrow.
-/
namespace WordMachine

namespace Session

variable {s : Session} {i : Instruction}

theorem loadsWide_of_ready (h : s.ready.1.machine.LoadsWide) : s.machine.LoadsWide := by
  obtain ⟨a, b, x, hdecode, hx⟩ := h
  rw [decode_ready] at hdecode
  rw [ready_of_decodes hdecode Opcode.noConfusion] at hx
  exact ⟨a, b, x, hdecode, hx⟩

theorem callsLast_of_ready (h : s.ready.1.machine.CallsLast) : s.machine.CallsLast := by
  obtain ⟨a, hdecode, hpc⟩ := h
  rw [decode_ready] at hdecode
  rw [ready_of_decodes hdecode Opcode.noConfusion] at hpc
  exact ⟨a, hdecode, hpc⟩

theorem narrow_ready (hn : s.machine.Narrow) (hplain : s.AsksPlainly) :
    s.ready.1.machine.Narrow := by
  have hread := Machine.Narrow.of_muted hplain hn
  obtain ⟨-, hready⟩ | ⟨t, why, -, hline, hready⟩ | ⟨t, line, -, hline, hready⟩ := ready_cases s
  · rw [hready]
    exact hn
  · rw [hline] at hread
    rw [hready]
    exact hread
  · rw [hline] at hread
    rw [hready]
    exact ⟨hread.registers, hread.stack⟩

theorem succeeds_of_executed {r : TraceRecord} (hready : s.ready.2 = none)
    (h : s.ready.1.machine.step.2 = .executed r) : s.step.2.Succeeds := by
  rw [← isSome_made_iff, made_eq_some_iff.mpr ⟨hready, h⟩]
  rfl

/-- Wide values come from nowhere but two kinds of instructions. -/
theorem narrow_step (hn : s.machine.Narrow) (hplain : s.AsksPlainly)
    (h : s.step.2.Succeeds → ¬s.machine.LoadsWide ∧ ¬s.machine.CallsLast) :
    s.step.1.machine.Narrow ∧
      ∀ x, s.StoresInto x → (s.step.1.machine.memory.get x).toNat ≤ 32767 := by
  have hnarrow := narrow_ready hn hplain
  cases hready : s.ready.2 with
  | some why =>
    rw [step_of_ready_some hready]
    refine ⟨hnarrow, ?_⟩
    intro x hx
    cases hready.symm.trans hx.ready.1
  | none =>
    obtain ⟨hstep, hstored⟩ := hnarrow.step fun r hr => by
      obtain ⟨hload, hcall⟩ := h (succeeds_of_executed hready hr)
      exact ⟨fun hwide => hload (loadsWide_of_ready hwide),
        fun hlast => hcall (callsLast_of_ready hlast)⟩
    rw [step_of_ready_none hready]
    refine ⟨.of_muted (settle_muted _).1 hstep, ?_⟩
    intro x hx
    rw [memory_settle]
    exact hstored x hx.ready.2

theorem narrow_after (hn : s.machine.Narrow) {n : Nat}
    (h : ∀ k < n, (s.after k).AsksPlainly ∧
      ((s.after k).step.2.Succeeds →
        ¬(s.after k).machine.LoadsWide ∧ ¬(s.after k).machine.CallsLast)) :
    (s.after n).machine.Narrow := by
  induction n with
  | zero => exact hn
  | succ n ih =>
    rw [after_succ]
    obtain ⟨hplain, hevents⟩ := h n (Nat.lt_succ_self n)
    exact (narrow_step (ih fun k hk => h k (Nat.lt_succ_of_lt hk)) hplain hevents).1

theorem refused_of_step (hw : s.machine.WellFormed) (hn : s.machine.Narrow)
    (hplain : s.AsksPlainly) (hi : s.Decodes i) :
    s.step.2.Succeeds ∨ (∃ why, s.step.2 = .noInput why) ∨
      ∃ c, i.Refused c ∧ s.step.2 = .failed { c.fault with
        pc := some s.machine.pc
        opcode := some i.mnemonic } := by
  have hreport := step_ne_unreported hw
  cases hready : s.ready.2 with
  | some why =>
    rw [step_of_ready_some hready]
    exact .inr (.inl ⟨why, rfl⟩)
  | none =>
    have hrefuses := (narrow_ready hn hplain).onlyRefuses i
    have hpc : s.ready.1.machine.pc = s.machine.pc := (attended_ready s).1.pc
    rw [step_of_ready_none hready, (settle_muted _).2,
      Machine.step_eq_carryOut ((decode_ready s).trans hi), Machine.carryOut] at hreport ⊢
    rcases hplan : i.plan s.ready.1.machine with c | _ | e
    · rw [hplan] at hreport
      refine .inr (.inr ⟨c, hrefuses c hplan, ?_⟩)
      dsimp only [Machine.failure] at hreport ⊢
      cases hc : c.report? with
      | none =>
        rw [hc] at hreport
        exact absurd rfl hreport
      | some f =>
        obtain ⟨-, rfl⟩ := Cause.report?_eq_some_iff.mp hc
        rw [← hpc]
        rfl
    · exact .inr (.inl ⟨_, rfl⟩)
    · exact .inl (Event.succeeds_ofStop _)

theorem executed_of_decodes (hi : s.Decodes i) (hne : i.opcode ≠ .in) (hok : s.step.2.Succeeds) :
    ∃ r, s.machine.step.2 = .executed r ∧ s.step.1.machine.muted = s.machine.step.1.muted := by
  obtain ⟨r, hmade⟩ := Option.isSome_iff_exists.mp ((isSome_made_iff s).mpr hok)
  obtain ⟨hready, hexecuted⟩ := made_eq_some_iff.mp hmade
  have hstep := step_of_ready_none hready
  rw [ready_of_decodes hi hne] at hexecuted hstep
  refine ⟨r, hexecuted, ?_⟩
  rw [hstep]
  exact (settle_muted s).1

theorem asksPlainly_after (h : s.IsPlain) (n : Nat) : (s.after n).AsksPlainly := by
  apply asksPlainly_of_direct
  rw [front_after]
  exact h

/-- Values of more than fifteen bits come from nowhere but an `rmem` that loads one or a call whose
return address lies behind the last cell; only a debugger could bring in others. While all values
are narrow, they are addresses: no range check fails for an address that an operand has been
resolved to, and `rmem` and `wmem` go to memory. -/
theorem narrow_values_preserved :
    (∀ s : Session, s.machine.WellFormed → s.machine.Narrow → s.AsksPlainly →
      ((s.step.2.Succeeds → ¬s.machine.LoadsWide ∧ ¬s.machine.CallsLast) →
        s.step.1.machine.Narrow ∧
          ∀ x, s.StoresInto x → (s.step.1.machine.memory.get x).toNat ≤ 32767) ∧
      (∀ i, s.Decodes i → s.step.2.Succeeds ∨ (∃ why, s.step.2 = .noInput why) ∨
        ∃ c : Cause, s.step.2 = .failed { c.fault with
            pc := some s.machine.pc
            opcode := some i.mnemonic } ∧
          c.kind ≠ .outOfRangeAddress ∧ (∀ a b, i = .wmem a b → c.kind = .invalidNumber) ∧
          ∀ a b, i = .rmem a b → c.kind = .invalidNumber ∨ c = .unwritable a ∧ ¬IsAddress a) ∧
      (∀ a b, s.Decodes (.rmem a b) → s.step.2.Succeeds →
        ∃ x : Address, s.machine.valueOf b = .ok x.val ∧
          s.step.1.machine.held a = (s.machine.memory.get x).toNat) ∧
      ∀ a b, s.Decodes (.wmem a b) → s.step.2.Succeeds →
        ∃ (x : Address) (w : Word), s.machine.valueOf a = .ok x.val ∧
          s.machine.valueOf b = .ok w.toNat ∧
          s.step.1.machine.memory = s.machine.memory.set x w ∧
          s.step.1.machine.registers = s.machine.registers) ∧
    (∀ (s : Session) (n : Nat), s.machine.Narrow →
      (∀ k < n, (s.after k).AsksPlainly ∧ ((s.after k).step.2.Succeeds →
        ¬(s.after k).machine.LoadsWide ∧ ¬(s.after k).machine.CallsLast)) →
      ∀ k ≤ n, (s.after k).machine.Narrow) ∧
    ∀ s : Session, s.IsPlain → ∀ n, (s.after n).AsksPlainly := by
  refine ⟨fun s hw hn hplain => ⟨narrow_step hn hplain, fun i hi => ?_, fun a b hi hok => ?_,
    fun a b hi hok => ?_⟩, fun s n hn h k hk => ?_, fun s => asksPlainly_after⟩
  · obtain hok | hnone | ⟨c, hc, hstep⟩ := refused_of_step hw hn hplain hi
    · exact .inl hok
    · exact .inr (.inl hnone)
    · exact .inr (.inr ⟨c, hstep, hc.spares⟩)
  · obtain ⟨r, hexecuted, hmuted⟩ := executed_of_decodes hi Opcode.noConfusion hok
    obtain ⟨x, hx, hheld⟩ := hn.loads_from_cell hi hexecuted
    exact ⟨x, hx, (congrArg (Machine.held · a) hmuted).trans hheld⟩
  · obtain ⟨r, hexecuted, hmuted⟩ := executed_of_decodes hi Opcode.noConfusion hok
    obtain ⟨x, w, hx, hword, hmemory, hregisters⟩ := hn.stores_into_cell hi hexecuted
    have hsame : s.step.1.machine.memory = s.machine.step.1.memory :=
      congrArg (·.memory) hmuted
    have hkept : s.step.1.machine.registers = s.machine.step.1.registers :=
      congrArg (·.registers) hmuted
    exact ⟨x, w, hx, hword, hsame.trans hmemory, hkept.trans hregisters⟩
  · exact narrow_after hn fun j hj => h j (Nat.lt_of_lt_of_le hj hk)

def storingAndLoading : Session where
  machine :=
    { memory := (((((Memory.empty.setCell 0 16).setCell 1 100).setCell 2 7).setCell 3
        15).setCell 4 32768).setCell 5 100 }

theorem storingAndLoading_narrow :
    (storingAndLoading.machine.WellFormed ∧ storingAndLoading.machine.Narrow ∧
      storingAndLoading.AsksPlainly ∧ storingAndLoading.StoresInto 100 ∧
      (storingAndLoading.step.1.machine.memory.get 100).toNat ≤ 32767) ∧
    (storingAndLoading.Decodes (.wmem 100 7) ∧
      ∃ (x : Address) (w : Word), storingAndLoading.machine.valueOf 100 = .ok x.val ∧
        storingAndLoading.step.1.machine.memory = storingAndLoading.machine.memory.set x w) ∧
    ((storingAndLoading.after 1).Decodes (.rmem 32768 100) ∧
      ∃ x : Address, (storingAndLoading.after 1).machine.valueOf 100 = .ok x.val ∧
        (storingAndLoading.after 2).machine.held 32768 =
          ((storingAndLoading.after 1).machine.memory.get x).toNat) ∧
    (storingAndLoading.IsPlain ∧ (storingAndLoading.after 2).machine.Narrow) := by
  obtain ⟨hsteps, hruns, hplain⟩ := narrow_values_preserved
  have hfetches : storingAndLoading.machine.Fetches .wmem := by decide +kernel
  have hfetches' : (storingAndLoading.after 1).machine.Fetches .rmem := by decide +kernel
  have hi : storingAndLoading.Decodes (.wmem 100 7) :=
    decodes_of_fetches hfetches (by decide +kernel)
  have hi' : (storingAndLoading.after 1).Decodes (.rmem 32768 100) :=
    decodes_of_fetches hfetches' (by decide +kernel)
  have hok : storingAndLoading.step.2.Succeeds := by decide +kernel
  have hok' : (storingAndLoading.after 1).step.2.Succeeds := by decide +kernel
  have hwell : storingAndLoading.machine.WellFormed := ⟨by decide +kernel, by decide, by decide⟩
  have hnarrow : storingAndLoading.machine.Narrow :=
    hwell.narrow (by decide +kernel) (by decide)
  have hasks := hplain storingAndLoading (.inl rfl)
  have hstores : storingAndLoading.StoresInto 100 := ⟨_, hi, rfl, hok⟩
  have hloaded : ((storingAndLoading.after 1).machine.memory.get 100).toNat = 7 := by
    decide +kernel
  have hevents : ∀ k < 2, (storingAndLoading.after k).AsksPlainly ∧
      ((storingAndLoading.after k).step.2.Succeeds →
        ¬(storingAndLoading.after k).machine.LoadsWide ∧
          ¬(storingAndLoading.after k).machine.CallsLast) := by
    intro k hk
    refine ⟨hasks k, fun _ => ?_⟩
    obtain rfl | rfl : k = 0 ∨ k = 1 := by omega
    · constructor
      · rintro ⟨a, b, x, hload, -⟩
        cases hi.symm.trans hload
      · rintro ⟨a, hcall, -⟩
        cases hi.symm.trans hcall
    · constructor
      · rintro ⟨a, b, x, hload, hx, hwide⟩
        cases hi'.symm.trans hload
        have hvalue : (storingAndLoading.after 1).machine.valueOf 100 = .ok 100 := rfl
        have hval := Except.ok.inj (hvalue.symm.trans hx)
        obtain rfl : x = 100 := Fin.ext (by omega)
        omega
      · rintro ⟨a, hcall, -⟩
        cases hi'.symm.trans hcall
  have hlater := hruns storingAndLoading 2 hnarrow hevents
  obtain ⟨hkept, -, -, hwmem⟩ := hsteps _ hwell hnarrow (hasks 0)
  obtain ⟨-, -, hrmem, -⟩ := hsteps _ (wellFormed_step hwell) (hlater 1 (by decide)) (hasks 1)
  obtain ⟨x, w, hx, -, hmemory, -⟩ := hwmem _ _ hi hok
  exact ⟨⟨hwell, hnarrow, hasks 0, hstores, (hkept (hevents 0 (by decide)).2).2 100 hstores⟩,
    ⟨hi, x, w, hx, hmemory⟩, ⟨hi', hrmem _ _ hi' hok'⟩, .inl rfl, hlater 2 (Nat.le_refl 2)⟩

end Session

end WordMachine
