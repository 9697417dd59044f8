import WordMachine.Proofs.Objection

/-!
What the machine does with numbers that fit a cell: how it reads and checks them, where it puts
them, and that its arithmetic makes such numbers of them again.
-/
namespace WordMachine

theorem checkAddress_of_inside {a : Int} (h : IsAddress a) :
    checkAddress a = .ok (addressOf a h) :=
  dif_pos h

theorem checkAddress_of_outside {a : Int} (h : ¬IsAddress a) :
    checkAddress a = .error (.noSuchCell a) :=
  dif_neg h

theorem checkWord_of_isWord {v : Int} (h : IsWord v) : checkWord v = .ok (.ofNat v.toNat) := by
  rw [checkWord, word?, if_pos h]

theorem checkWord_of_not_isWord {v : Int} (h : ¬IsWord v) : checkWord v = .error (.tooWide v) := by
  rw [checkWord, word?, if_neg h]

namespace Memory

theorem read_cell (m : Memory) {x : Int} (hx : IsAddress x) : m.read x = .ok (m.cell x) := by
  unfold read checkAddress cell
  rw [dif_pos hx, dif_pos hx]
  rfl

theorem read_outside (m : Memory) {x : Int} (hx : ¬IsAddress x) :
    m.read x = .error (.noSuchCell x) := by
  rw [read, checkAddress_of_outside hx]
  rfl

theorem readRun_cells (m : Memory) {a : Int} (h0 : 0 ≤ a) {n : Nat} (h : a + n ≤ 32768) :
    m.readRun a n = .ok (.ofFn fun k : Fin n => m.cell (a + k)) := by
  induction n with
  | zero => simp [readRun]
  | succ n ih =>
    rw [readRun, ih (by omega), m.read_cell ⟨by omega, by omega⟩, Vector.ofFn_succ]
    rfl

theorem readRun_cutOff (m : Memory) {a : Int} (h0 : 0 ≤ a) (ha : a ≤ 32768) {n : Nat}
    (h : 32768 < a + n) : m.readRun a n = .error (.noSuchCell 32768) := by
  induction n with
  | zero => omega
  | succ n ih =>
    rw [readRun]
    by_cases hend : a + n = 32768
    · rw [m.readRun_cells h0 (by omega), hend, m.read_outside (by decide)]
      rfl
    · rw [ih (by omega)]
      rfl

end Memory

theorem Cause.report?_of_shown {c : Cause} (h : ∀ x ∈ c.shown, IsWord x) :
    c.report? = some c.fault := by
  refine report?_eq_some_iff.mpr ⟨fun x hx => ?_, rfl⟩
  have := h x hx
  exact Text.isWritable_of_natAbs_lt (by omega)

theorem Opcode.ofWord?_of_le {w : Int} (h0 : 0 ≤ w) (h : w ≤ 21) :
    ∃ op, Opcode.ofWord? w = some op ∧ w = op.code := by
  obtain ⟨n, rfl⟩ := Int.eq_ofNat_of_zero_le h0
  have hn : n < Opcode.all.length := by
    simp only [Opcode.all, List.length_cons, List.length_nil]
    omega
  have hop : Opcode.ofWord? n = some Opcode.all[n] := by
    simp [Opcode.ofWord?, List.getElem?_eq_getElem hn]
  exact ⟨_, hop, (Opcode.code_of_ofWord? hop).symm⟩

theorem Opcode.ofWord?_of_gt {w : Int} (h : 21 < w) : Opcode.ofWord? w = none := by
  unfold Opcode.ofWord?
  split
  · apply List.getElem?_eq_none
    simp only [Opcode.all, List.length_cons, List.length_nil]
    omega
  · rfl

theorem Opcode.code_le (op : Opcode) : op.code ≤ 21 := by
  cases op <;> decide

theorem Opcode.code_injective {o p : Opcode} (h : o.code = p.code) : o = p := by
  have := Opcode.ofWord?_code o
  rw [h, Opcode.ofWord?_code] at this
  exact (Option.some.inj this).symm

namespace Machine

variable {m : Machine}

@[simp] theorem keep_stack (x v : Int) : (m.keep x v).stack = m.stack := by rw [keep]

@[simp] theorem keep_console (x v : Int) : (m.keep x v).console = m.console := by rw [keep]

@[simp] theorem keep_pc (x v : Int) : (m.keep x v).pc = m.pc := by rw [keep]

@[simp] theorem keep_stop (x v : Int) : (m.keep x v).stop = m.stop := by rw [keep]

@[simp] theorem keep_steps (x v : Int) : (m.keep x v).steps = m.steps := by rw [keep]

theorem valueOf_eq {x : Int} (h0 : 0 ≤ x) (h : x ≤ 32775) : m.valueOf x = .ok (m.val x) := by
  unfold valueOf val Place.ofNumber? Registers.named
  by_cases hx : x ≤ 32767
  · rw [dif_pos ⟨h0, by omega⟩, if_pos hx]
  · have hr : IsRegister x := ⟨by omega, h⟩
    rw [dif_neg (by omega), dif_pos hr, if_neg hx, dif_pos hr]

theorem valueOf_of_gt {x : Int} (h : x > 32775) : m.valueOf x = .error (.notANumber x) := by
  have hp : Place.ofNumber? x = none := Place.ofNumber?_eq_none_iff.mpr (by omega)
  simp only [valueOf, hp]

theorem load_eq {x : Int} (h0 : 0 ≤ x) (h : x ≤ 32775) : m.load x = .ok (m.held x) := by
  unfold load held Place.ofNumber? Memory.cell Registers.named
  by_cases hx : x ≤ 32767
  · have ha : IsAddress x := ⟨h0, by omega⟩
    rw [dif_pos ha, if_pos hx, dif_pos ha]
  · have hr : IsRegister x := ⟨by omega, h⟩
    rw [dif_neg (by omega), dif_pos hr, if_neg hx, dif_pos hr]

theorem load_of_gt {x : Int} (h : x > 32775) : m.load x = .error (.unreadable x) := by
  have hp : Place.ofNumber? x = none := Place.ofNumber?_eq_none_iff.mpr (by omega)
  simp only [load, hp]

theorem destination_eq {x v : Int} (h0 : 0 ≤ x) (h : x ≤ 32775) (hv : IsWord v) :
    ∃ d, destination x v = .ok d ∧ m.putAll (some d) = m.keep x v := by
  have hw := checkWord_of_isWord hv
  unfold destination Place.ofNumber?
  by_cases hx : x ≤ 32767
  · have ha : IsAddress x := ⟨h0, by omega⟩
    refine ⟨(.cell (addressOf x ha), UInt16.ofNat v.toNat), ?_, ?_⟩
    · simp only [dif_pos ha, hw, bind, Except.bind, pure, Except.pure]
    · simp only [putAll, put, keep_eq, if_pos hx, Memory.setCell, dif_pos ha]
  · have hr : IsRegister x := ⟨by omega, h⟩
    have hn : ((UInt16.ofNat v.toNat).toNat : Int) = v := by
      simp only [UInt16.toNat_ofNat']
      omega
    refine ⟨(.register ⟨(x - 32768).toNat, by omega⟩, UInt16.ofNat v.toNat), ?_, ?_⟩
    · simp only [dif_neg (show ¬IsAddress x by omega), dif_pos hr, hw, bind, Except.bind, pure,
        Except.pure]
    · simp only [putAll, put, keep_eq, if_neg hx, Registers.setNamed, dif_pos hr, hn]

theorem destination_of_not_place {x v : Int} (h : ¬(0 ≤ x ∧ x ≤ 32775)) :
    destination x v = .error (.unwritable x) := by
  simp only [destination, Place.ofNumber?_eq_none_iff.mpr h]

theorem destination_of_not_word {x v : Int} (hx : 0 ≤ x ∧ x ≤ 32775) (hv : ¬IsWord v) :
    destination x v = .error (.tooWide v) := by
  unfold destination
  cases hp : Place.ofNumber? x with
  | none => exact absurd hx (Place.ofNumber?_eq_none_iff.mp hp)
  | some p =>
    dsimp only
    rw [checkWord_of_not_isWord hv]
    rfl

theorem store_ok_iff {n : Machine} {x v : Int} :
    m.store x v = .ok n ↔ (0 ≤ x ∧ x ≤ 32775) ∧ IsWord v ∧ n = m.keep x v := by
  unfold store
  by_cases hx : 0 ≤ x ∧ x ≤ 32775
  · by_cases hv : IsWord v
    · obtain ⟨⟨p, w⟩, hd, hput⟩ := destination_eq (m := m) hx.1 hx.2 hv
      rw [hd, ← hput]
      constructor
      · intro h
        cases h
        exact ⟨hx, hv, rfl⟩
      · rintro ⟨-, -, rfl⟩
        rfl
    · rw [destination_of_not_word hx hv]
      refine iff_of_false (fun h => ?_) (fun h => hv h.2.1)
      contradiction
  · rw [destination_of_not_place hx]
    refine iff_of_false (fun h => ?_) (fun h => hx h.1)
    contradiction

theorem setRegister_ok_iff {n : Machine} {i v : Int} :
    m.setRegister i v = .ok n ↔ (0 ≤ i ∧ i < 8) ∧ IsWord v ∧ n = m.keep (32768 + i) v := by
  unfold setRegister
  split
  next hi =>
    have hx : 0 ≤ 32768 + i ∧ 32768 + i ≤ 32775 := by omega
    simp only [store_ok_iff, hi, hx, and_self, true_and]
  next hi => simp [hi]

theorem jumpTarget_eq (x : Int) :
    m.jumpTarget x = m.valueOf x >>= fun v => checkAddress v >>= fun _ => pure v := rfl

theorem checkAddress_eq {x : Int} (h0 : 0 ≤ x) (h : x ≤ 32767) :
    ∃ i, checkAddress x = .ok i :=
  ⟨_, dif_pos ⟨h0, by omega⟩⟩

theorem checkAddress_of_gt {x : Int} (h : x > 32767) : checkAddress x = .error (.noSuchCell x) :=
  dif_neg (by omega)

end Machine

/-! Arithmetic on words. -/

namespace BinaryOp

variable {x y : Int}

theorem isWord_truth (p : Prop) [Decidable p] : IsWord (if p then 1 else 0) := by
  split <;> decide

theorem isWord_reduced (z : Int) : IsWord (z % 32768) := by
  omega

theorem apply_mod (hy : IsWord y) (h : y ≠ 0) :
    BinaryOp.mod.apply x y = .ok (x % y) ∧ IsWord (x % y) := by
  have h0 : 0 ≤ x % y := Int.emod_nonneg x h
  have hlt : x % y < y := Int.emod_lt_of_pos x (by omega)
  refine ⟨?_, h0, by omega⟩
  simp only [apply, if_neg h, Int.fmod_eq_emod_of_nonneg x hy.1]

theorem isWord_natCast {n : Nat} (h : n < 65536) : IsWord (n : Int) := by
  omega

theorem toNat_lt (hx : IsWord x) : x.toNat < 65536 := by
  omega

theorem apply_and (hx : IsWord x) (hy : IsWord y) :
    BinaryOp.and.apply x y = .ok (x.toNat &&& y.toNat : Nat) ∧
      IsWord (x.toNat &&& y.toNat : Nat) := by
  obtain ⟨m, rfl⟩ := Int.eq_ofNat_of_zero_le hx.1
  obtain ⟨n, rfl⟩ := Int.eq_ofNat_of_zero_le hy.1
  exact ⟨rfl, isWord_natCast (Nat.and_lt_two_pow (n := 16) _ (toNat_lt hy))⟩

theorem apply_or (hx : IsWord x) (hy : IsWord y) :
    BinaryOp.or.apply x y = .ok (x.toNat ||| y.toNat : Nat) ∧
      IsWord (x.toNat ||| y.toNat : Nat) := by
  obtain ⟨m, rfl⟩ := Int.eq_ofNat_of_zero_le hx.1
  obtain ⟨n, rfl⟩ := Int.eq_ofNat_of_zero_le hy.1
  exact ⟨rfl, isWord_natCast (Nat.or_lt_two_pow (n := 16) (toNat_lt hx) (toNat_lt hy))⟩

end BinaryOp

theorem complement_eq {x : Int} (hx : IsWord x) :
    complement x = (32767 ^^^ x.toNat : Nat) ∧ IsWord (32767 ^^^ x.toNat : Nat) := by
  obtain ⟨m, rfl⟩ := Int.eq_ofNat_of_zero_le hx.1
  refine ⟨?_, BinaryOp.isWord_natCast
    (Nat.xor_lt_two_pow (n := 16) (by decide) (BinaryOp.toNat_lt hx))⟩
  rw [Nat.xor_comm]
  rfl

end WordMachine
