import WordMachine.Proofs.Recorded

/-!
Calls and returns match. A step takes at most one entry from the stack or puts one on it, so while
the stack does not become lower than a call has left it, the return address and all that is below it
stay where they are, whatever is called, pushed and popped above them.
-/
namespace WordMachine

theorem Instruction.Plans.stack {m : Machine} {i : Instruction} {e : Effect} (h : i.Plans m e) :
    e.stack = m.stack ∨ (∃ v, e.stack = v :: m.stack) ∨ ∃ v, m.stack = v :: e.stack := by
  cases h with
  | push | call => exact .inr (.inl ⟨_, rfl⟩)
  | pop hstack | ret hstack => exact .inr (.inr ⟨_, hstack⟩)
  | _ => exact .inl rfl

theorem Instruction.Plans.stack_of_call {m : Machine} {a : Int} {e : Effect}
    (h : (Instruction.call a).Plans m e) : e.stack = (m.pc + 2) :: m.stack := by
  cases h with
  | keeps hkeeps => cases hkeeps
  | call => rfl

/-- What lies at the bottom of the stack stays there unless the stack becomes too low for it. -/
theorem suffix_of_stack {below before after : List Int} (h : below <:+ before)
    (hheight : below.length ≤ after.length)
    (hstack : after = before ∨ (∃ v, after = v :: before) ∨ ∃ v, before = v :: after) :
    below <:+ after := by
  obtain rfl | ⟨v, rfl⟩ | ⟨v, rfl⟩ := hstack
  · exact h
  · exact h.trans (List.suffix_cons v before)
  · obtain rfl | hafter := List.suffix_cons_iff.mp h
    · rw [List.length_cons] at hheight
      omega
    · exact hafter

namespace Session

variable {s t : Session}

/-- Sessions that come out of one another by steps that succeed and by what is done from outside
without touching the stack, with so many entries on the stack all the time. -/
inductive Follows (height : Nat) (s : Session) : Session → Prop where
  | start : Follows height s s
  | step {t : Session} : Follows height s t → t.step.2.Succeeds →
      height ≤ t.step.1.machine.stack.length → Follows height s t.step.1
  | outside {t u : Session} : Follows height s t → u.machine.stack = t.machine.stack →
      Follows height s u

theorem plans_of_succeeds (hok : s.step.2.Succeeds) :
    ∃ i m e, s.Decodes i ∧ i.Plans m e ∧ m.stack = s.machine.stack ∧ m.pc = s.machine.pc ∧
      s.step.1.machine.stack = e.stack := by
  have hattended := (attended_ready s).1
  obtain ⟨r, hr⟩ := Option.isSome_iff_exists.mp ((isSome_made_iff s).mpr hok)
  obtain ⟨i, e, hdecode, hplans, -, hstep⟩ := step_of_made hr
  refine ⟨i, s.ready.1.machine, e, hdecode, hplans, hattended.stack, hattended.pc, ?_⟩
  rw [hstep]
  exact congrArg Machine.stack (witness_eq _ r).1

theorem suffix_step {below : List Int} (h : below <:+ s.machine.stack) (hok : s.step.2.Succeeds)
    (hheight : below.length ≤ s.step.1.machine.stack.length) :
    below <:+ s.step.1.machine.stack := by
  obtain ⟨i, m, e, -, hplans, hstack, -, hafter⟩ := plans_of_succeeds hok
  have hmoves := hplans.stack
  rw [hstack, ← hafter] at hmoves
  exact suffix_of_stack h hheight hmoves

theorem Follows.suffix {below : List Int} (hrun : s.Follows below.length t)
    (h : below <:+ s.machine.stack) : below <:+ t.machine.stack := by
  induction hrun with
  | start => exact h
  | step _ hok hheight ih => exact suffix_step ih hok hheight
  | outside _ hsame ih => rwa [hsame]

theorem stack_of_call {a : Int} (hcall : s.Decodes (.call a)) (hok : s.step.2.Succeeds) :
    s.step.1.machine.stack = (s.machine.pc + 2) :: s.machine.stack := by
  obtain ⟨i, m, e, hdecode, hplans, hstack, hpc, hafter⟩ := plans_of_succeeds hok
  obtain rfl := Except.ok.inj (hdecode.symm.trans hcall)
  rw [hafter, hplans.stack_of_call, hstack, hpc]

theorem step_of_plan {i : Instruction} {e : Effect} (hdecode : s.Decodes i)
    (hplan : i.plan s.machine = .ok (some e)) :
    s.step.2.Succeeds ∧ s.step.1.machine.muted = (s.machine.perform e).muted := by
  have hstep : s.step = { s with machine := s.machine.perform e }.witness
      (i.record s.machine.pc e.values) := by
    rw [step_eq_carryOut hdecode, carryOut, Machine.carryOut, hplan]
    rfl
  rw [hstep]
  exact ⟨witness_succeeds _ _, (witness_eq _ _).1⟩

theorem step_of_ret {v : Int} {rest : List Int} (hret : s.Decodes .ret)
    (hstack : s.machine.stack = v :: rest) (hv : IsAddress v) :
    s.step.2.Succeeds ∧ s.step.1.machine.pc = v ∧ s.step.1.machine.stack = rest := by
  have hplan : Instruction.ret.plan s.machine =
      .ok (some { Effect.goto s.machine v [v] with stack := rest }) := by
    rw [Instruction.plan, hstack]
    dsimp only
    rw [checkAddress, dif_pos hv]
    rfl
  obtain ⟨hok, hmuted⟩ := step_of_plan hret hplan
  exact ⟨hok, congrArg Machine.pc hmuted, congrArg Machine.stack hmuted⟩

theorem step_of_ret_outside {v : Int} {rest : List Int} (hret : s.Decodes .ret)
    (hstack : s.machine.stack = v :: rest) (hv : ¬IsAddress v) (hw : IsWord v) :
    ∃ f, s.step.2 = .failed f ∧ f.kind = .outOfRangeAddress ∧ f.operand = some v := by
  have hplan : Instruction.ret.plan s.machine = .error (.noSuchCell v) := by
    rw [Instruction.plan, hstack]
    dsimp only
    rw [checkAddress, dif_neg hv]
    rfl
  have hreport : (Cause.noSuchCell v).report? = some (Cause.noSuchCell v).fault :=
    Cause.report?_of_shown (by simpa [Cause.shown] using hw)
  have hstep : s.step.2 = .failed ((Cause.noSuchCell v).fault.annotate (some s.machine.pc)
      (some Instruction.ret.mnemonic)) := by
    rw [step_eq_carryOut hret, carryOut, Machine.carryOut, hplan]
    dsimp only
    rw [Machine.failure_eq hreport]
    rfl
  exact ⟨_, hstep, rfl, rfl⟩

theorem step_of_call {a : Int} (hcall : s.Decodes (.call a)) (ha : IsAddress a) :
    s.step.2.Succeeds ∧ s.step.1.machine.pc = a ∧ s.step.1.machine.memory = s.machine.memory := by
  have hplan : (Instruction.call a).plan s.machine = .ok (some
      { Effect.goto s.machine a [a] with stack := (s.machine.pc + 2) :: s.machine.stack }) := by
    have hval : s.machine.val a = a := if_pos (by omega)
    rw [Instruction.plan, Machine.jumpTarget_eq, Machine.valueOf_eq ha.1 (by omega), hval]
    dsimp only [bind, Except.bind]
    rw [checkAddress, dif_pos ha]
    rfl
  obtain ⟨hok, hmuted⟩ := step_of_plan hcall hplan
  have hmemory := congrArg Machine.memory hmuted
  exact ⟨hok, congrArg Machine.pc hmuted, hmemory⟩

/-- Calls and returns match. While the steps after a call succeed and leave the stack as high as the
call has left it, the return address stays on top of the entries that were there before. A return
at that height goes back behind the call with the stack as it was, and fails behind a call that ends
in the last cell. -/
theorem calls_match_returns (s : Session) (a : Int) (hcall : s.Decodes (.call a))
    (hok : s.step.2.Succeeds) :
    s.machine.pc ≤ 32766 ∧
    ∀ t, s.step.1.Follows (s.machine.stack.length + 1) t →
      (s.machine.pc + 2) :: s.machine.stack <:+ t.machine.stack ∧
      (t.Decodes .ret → t.machine.stack.length = s.machine.stack.length + 1 →
        (s.machine.pc ≤ 32765 → t.step.2.Succeeds ∧ t.step.1.machine.pc = s.machine.pc + 2 ∧
          t.step.1.machine.stack = s.machine.stack) ∧
        (s.machine.pc = 32766 → ∃ f, t.step.2 = .failed f ∧ f.kind = .outOfRangeAddress ∧
          f.operand = some 32768)) := by
  have hinside := Decodes.inside hcall
  have hcut : s.machine.pc ≤ 32766 := by
    obtain ⟨op, -, hwhole, hop⟩ := (Instruction.decode_ok_iff hinside).mp hcall
    have hopcode := congrArg Instruction.opcode hop
    rw [Instruction.opcode_standing] at hopcode
    subst hopcode
    have harity : Opcode.call.arity = 1 := rfl
    simp only [Instruction.opcode, harity] at hwhole
    omega
  refine ⟨hcut, fun t hrun => ?_⟩
  have hsuffix : (s.machine.pc + 2) :: s.machine.stack <:+ t.machine.stack := by
    have hpushed := stack_of_call hcall hok
    exact Follows.suffix hrun (hpushed ▸ List.suffix_refl _)
  refine ⟨hsuffix, fun hret hheight => ?_⟩
  have hstack : t.machine.stack = (s.machine.pc + 2) :: s.machine.stack :=
    (hsuffix.eq_of_length hheight.symm).symm
  refine ⟨fun hpc => step_of_ret hret hstack ⟨by omega, by omega⟩, fun hpc => ?_⟩
  rw [hpc] at hstack
  exact step_of_ret_outside hret hstack (by decide) (by decide)

def calling : Session where
  machine :=
    { memory := ((((((Memory.empty.setCell 0 17).setCell 1 5).setCell 5 2).setCell 6 7).setCell 7
        3).setCell 8 32768).setCell 9 18
      stack := [3] }

@[irreducible] def callingLast : Session where
  machine :=
    { memory := ((Memory.empty.setCell 9 18).setCell 32766 17).setCell 32767 9
      pc := 32766 }

theorem calling_runs :
    calling.Decodes (.call 5) ∧ calling.step.2.Succeeds ∧
      calling.step.1.Follows 2 (calling.after 3) ∧ (calling.after 3).Decodes .ret ∧
      (calling.after 3).machine.stack.length = 2 := by
  have hcall : calling.machine.Fetches .call := by decide +kernel
  have hret : (calling.after 3).machine.Fetches .ret := by decide +kernel
  have hrun : calling.step.1.Follows 2 (calling.after 3) :=
    (Follows.start.step (by decide +kernel) (by decide +kernel)).step (by decide +kernel)
      (by decide +kernel)
  exact ⟨decodes_of_fetches hcall (by decide +kernel), by decide +kernel, hrun,
    decodes_of_fetches hret rfl, by decide +kernel⟩

theorem cell_callingLast (x : Int) : callingLast.machine.memory.cell x =
    if x = 32767 then 9 else if x = 32766 then 17 else (Memory.empty.setCell 9 18).cell x := by
  have hlast : IsAddress 32767 := by decide
  have hbefore : IsAddress 32766 := by decide
  have hcall : IsWord 17 := by decide
  have htarget : IsWord 9 := by decide
  unfold callingLast
  rw [Memory.cell_setCell _ hlast htarget, Memory.cell_setCell _ hbefore hcall]

theorem pc_callingLast : callingLast.machine.pc = 32766 := by
  unfold callingLast
  rfl

theorem callingLast_decodes : callingLast.Decodes (.call 9) := by
  have hcode : callingLast.machine.memory.cell 32766 = 17 := cell_callingLast 32766
  have htarget : callingLast.machine.memory.cell 32767 = 9 := cell_callingLast 32767
  unfold Decodes
  rw [pc_callingLast]
  refine (Instruction.decode_ok_iff (by decide)).mpr ⟨.call, hcode, by decide, ?_⟩
  exact congrArg Instruction.call htarget.symm

theorem callingLast_after : callingLast.step.2.Succeeds ∧ callingLast.step.1.Decodes .ret ∧
    callingLast.step.1.machine.stack.length = callingLast.machine.stack.length + 1 := by
  obtain ⟨hok, hpc, hmemory⟩ := step_of_call callingLast_decodes (by decide)
  have hcode : callingLast.machine.memory.cell 9 = 18 :=
    (cell_callingLast 9).trans (by decide +kernel)
  refine ⟨hok, ?_, ?_⟩
  · unfold Decodes
    rw [hmemory, hpc]
    exact (Instruction.decode_ok_iff (by decide)).mpr ⟨.ret, hcode, by decide, rfl⟩
  · rw [stack_of_call callingLast_decodes hok, List.length_cons]

theorem calling_returns :
    ((calling.after 3).step.2.Succeeds ∧
      (calling.after 3).step.1.machine.pc = calling.machine.pc + 2 ∧
      (calling.after 3).step.1.machine.stack = calling.machine.stack) ∧
    ∃ f, callingLast.step.1.step.2 = .failed f ∧ f.kind = .outOfRangeAddress ∧
      f.operand = some 32768 := by
  obtain ⟨hcall, hok, hrun, hret, hheight⟩ := calling_runs
  obtain ⟨hlastOk, hlastRet, hlastHeight⟩ := callingLast_after
  have hreturns := (calls_match_returns calling 5 hcall hok).2 _ hrun
  have hfails := (calls_match_returns callingLast 9 callingLast_decodes hlastOk).2 _ .start
  have hpc : calling.machine.pc ≤ 32765 := by decide
  exact ⟨(hreturns.2 hret hheight).1 hpc, (hfails.2 hlastRet hlastHeight).2 pc_callingLast⟩

end Session

end WordMachine
