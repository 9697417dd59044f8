import WordMachine.Proofs.MemoryTable

/-!
Images with a byte left over. The byte becomes the low half of the cell behind the pairs, and the
high half of that cell stays as it was, so the cell holds just the byte if there was nothing in its
high half before. All cells that the image does not reach are left alone.
-/
namespace WordMachine.Memory

variable {m n : Memory} {image : List UInt8} {base a : Int} {k : Nat}

theorem cell_of_load_last (h : m.load image base = .ok n) {last : UInt8}
    (hlast : image[2 * k]? = some last) (hodd : image.length = 2 * k + 1) :
    n.cell (base + k) = last.toNat + 256 * (m.cell (base + k) / 256) := by
  obtain ⟨hbase, hfits, rfl⟩ := eq_of_load h
  obtain ⟨b, rfl⟩ := Int.eq_ofNat_of_zero_le hbase.1
  have hinside : b + k < 32768 := by omega
  have hoffset : b + k - b = k := by omega
  have hnone : image[2 * k + 1]? = none := List.getElem?_eq_none (by omega)
  have hold : m.cell (b + k) = _ := cell_of_nat (k := b + k) hinside
  have hnew : cell ⟨overwrite m.cells (b : Int).toNat image⟩ (b + k) = _ :=
    cell_of_nat (k := b + k) hinside
  rw [hnew, hold, Int.toNat_natCast, getElem_loaded _ _ _ hinside, if_pos (by omega), hoffset,
    Word.spliced, Word.toNat_ofBytes, hlast, hnone, Option.getD_some, Option.getD_none,
    Word.toNat_high]
  omega

theorem read_of_load_outside (h : m.load image base = .ok n)
    (ha : a < base ∨ 2 * base + image.length ≤ 2 * a) : n.read a = m.read a := by
  by_cases hinside : IsAddress a
  · have hserve : m.serve (.load image base) = (n, .ok .done) := by rw [serve, h, adopt]
    have hapart : ¬(Access.load image base).Touches (addressOf a hinside) := by
      rintro ⟨hle, hlt⟩
      rw [val_addressOf] at hle hlt
      omega
    have hkept := m.serve_of_not_touches hapart
    rw [hserve] at hkept
    rw [read, read, checkAddress_of_inside hinside]
    exact congrArg (fun w : Word => Except.ok (w.toNat : Int)) hkept
  · rw [read_outside _ hinside, read_outside _ hinside]

/-- An image with a byte left over fits wherever there is room for it. Its pairs make the words of
the first cells, and in the cell behind them the byte replaces the low half. So that cell holds the
byte itself exactly if there was nothing in its high half, as in fresh memory. -/
theorem leftover_byte_keeps_high_half (m : Memory) {image : List UInt8} {pairs : Nat} {base : Int}
    (hodd : image.length = 2 * pairs + 1) (hbase : IsAddress base)
    (hfits : 2 * base + image.length ≤ 65536) :
    ∃ n last, m.load image base = .ok n ∧ image.getLast? = some last ∧
      (∀ (k : Nat) low high, image[2 * k]? = some low → image[2 * k + 1]? = some high →
        n.read (base + k) = .ok (low.toNat + 256 * high.toNat)) ∧
      n.read (base + pairs) = .ok (last.toNat + 256 * (m.cell (base + pairs) / 256)) ∧
      (n.read (base + pairs) = .ok last.toNat ↔ m.cell (base + pairs) < 256) ∧
      (m = empty → n.read (base + pairs) = .ok last.toNat) ∧
      ∀ a, a < base ∨ base + pairs < a → n.read a = m.read a := by
  have hload := m.load_of_inside image hbase
  rw [if_pos hfits] at hload
  obtain ⟨last, hlast⟩ : ∃ last, image[2 * pairs]? = some last :=
    ⟨_, List.getElem?_eq_getElem (by omega)⟩
  have hend : image.getLast? = some last := by
    rw [List.getLast?_eq_getElem?, hodd, Nat.add_sub_cancel, hlast]
  have haddress : IsAddress (base + pairs) := by omega
  have hcell := cell_of_load_last hload hlast hodd
  have hbounds := m.isWord_cell (base + pairs)
  have hiff : cell ⟨overwrite m.cells base.toNat image⟩ (base + pairs) = last.toNat ↔
      m.cell (base + pairs) < 256 := by
    have hbyte := last.toNat_lt
    omega
  refine ⟨_, _, hload, hend, fun k low high => read_of_load hload, ?_, ?_, ?_, fun a ha =>
    read_of_load_outside hload (by omega)⟩
  all_goals rw [read_cell _ haddress]
  · rw [hcell]
  · rw [Except.ok.injEq, hiff]
  · rintro rfl
    have hempty : empty.cell (base + pairs) = 0 := by
      rw [cell, dif_pos haddress, get_empty]
      rfl
    rw [hiff.mpr (by omega)]

def filled : Memory := empty.setCell 1 65535

theorem cell_filled : filled.cell 1 = 65535 :=
  cell_setCell empty (by decide) (by decide) 1

theorem filled_keeps_high_half :
    [7, 1, 2].length = 2 * 1 + 1 ∧
      ∃ n, filled.load [7, 1, 2] 0 = .ok n ∧ n.read 0 = .ok 263 ∧ n.read 1 = .ok 65282 ∧
        n.read 2 = filled.read 2 := by
  have hlength : ([7, 1, 2] : List UInt8).length = 2 * 1 + 1 := rfl
  have hbase : IsAddress 0 := by decide
  obtain ⟨n, last, hload, hlast, hpairs, hcell, -, -, houtside⟩ :=
    leftover_byte_keeps_high_half filled hlength hbase (by decide)
  obtain rfl := Option.some.inj hlast
  have haddress : (0 : Int) + (1 : Nat) = 1 := rfl
  rw [haddress, cell_filled] at hcell
  exact ⟨rfl, n, hload, hpairs 0 7 1 rfl rfl, hcell, houtside 2 (.inr (by decide))⟩

/-- Where there was a wide word before, the cell does not hold just the byte. -/
theorem leftover_byte_not_alone :
    ∃ n, filled.load [7, 1, 2] 0 = .ok n ∧ n.read 1 = .ok 65282 ∧ n.read 1 ≠ .ok 2 := by
  have hload := load_of_inside filled [7, 1, 2] (a := 0) (by decide)
  rw [if_pos (by decide)] at hload
  have hlast : ([7, 1, 2] : List UInt8)[2]? = some 2 := rfl
  have hcell := cell_of_load_last (k := 1) hload hlast rfl
  have haddress : (0 : Int) + (1 : Nat) = 1 := rfl
  rw [haddress, cell_filled] at hcell
  refine ⟨_, hload, ?_⟩
  rw [read_cell _ (by decide), hcell]
  exact ⟨rfl, fun h => absurd (Except.ok.inj h) (by decide)⟩

end WordMachine.Memory
