import WordMachine.Proofs.CellRuns
import WordMachine.Proofs.Decoding

/-!
The walk of a listing. Its lines follow each other without gap or overlap, so their words, one line
after the other, are a run of cells.
-/
namespace WordMachine.Listing

variable {m : Memory} {a b last : Int} {lines : List Line}

/-- Lines that lead from one address to another, each with what stands at its address. -/
inductive Walk (m : Memory) : Int → List Line → Int → Prop where
  | nil {a : Int} : Walk m a [] a
  | cons {a b : Int} {item : Item} {lines : List Line} : IsAddress a → itemAt m a = .ok item →
      Walk m (a + item.length) lines b → Walk m a (⟨a, item⟩ :: lines) b

theorem words_of_itemAt {item : Item} (ha : IsAddress a) (h : itemAt m a = .ok item) :
    item.words = m.cellRun a item.length ∧ a + item.length ≤ 32768 := by
  obtain ⟨item', hitem, hstands⟩ := Instruction.stands_at (m := m) ha
  obtain rfl := Except.ok.inj (h.symm.trans hitem)
  have hdata : (Item.data (m.cell a)).words = m.cellRun a (Item.data (m.cell a)).length ∧
      a + (Item.data (m.cell a)).length ≤ 32768 := by
    have hlength : (Item.data (m.cell a)).length = 1 := rfl
    rw [hlength]
    exact ⟨by simp [Item.words, Memory.cellRun], by omega⟩
  generalize Instruction.decode m a = decoded at hstands
  cases hstands with
  | noOpcode | cutOff => exact hdata
  | @whole op hcode hwhole =>
    have hsize : (Item.instruction (.standing m a op)).length = 1 + op.arity := by
      rw [Instruction.length_item, Instruction.size, Instruction.opcode_standing]
      rfl
    refine ⟨?_, by omega⟩
    rw [hsize, Item.words, Instruction.opcode_standing, ← hcode, Instruction.standing,
      Instruction.operands_make]
    cases op <;> simp [Memory.cellRun, List.range_succ, Opcode.arity]

theorem Item.operands_subset_words (item : Item) : item.operands ⊆ item.words := by
  cases item with
  | instruction i => exact List.subset_cons_self _ _
  | data word => exact List.Subset.refl _

namespace Walk

theorem address_of_mem (h : Walk m a lines b) {line : Line} (hline : line ∈ lines) :
    IsAddress line.address ∧ itemAt m line.address = .ok line.item := by
  induction h with
  | nil => contradiction
  | cons ha hitem _ ih =>
    rcases List.mem_cons.mp hline with rfl | hline
    · exact ⟨ha, hitem⟩
    · exact ih hline

theorem isWord_of_mem (h : Walk m a lines b) {line : Line} (hline : line ∈ lines) :
    ∀ w ∈ line.item.words, IsWord w := by
  intro w hw
  obtain ⟨ha, hitem⟩ := h.address_of_mem hline
  rw [(words_of_itemAt ha hitem).1] at hw
  exact Memory.isWord_of_mem_cellRun hw

theorem words_eq (h : Walk m a lines b) :
    ∃ n : Nat, b = a + n ∧ lines.flatMap (·.item.words) = m.cellRun a n := by
  induction h with
  | @nil a => exact ⟨0, by omega, rfl⟩
  | @cons a b item lines ha hitem _ ih =>
    obtain ⟨n, hb, hwords⟩ := ih
    refine ⟨item.length + n, by omega, ?_⟩
    rw [List.flatMap_cons, hwords, Memory.cellRun_add, (words_of_itemAt ha hitem).1]

theorem end_le (h : Walk m a lines b) (ha : a ≤ 32768) : b ≤ 32768 := by
  induction h with
  | nil => exact ha
  | cons hcell hitem _ ih => exact ih (words_of_itemAt hcell hitem).2

theorem exists_last (h : Walk m a lines b) (hne : lines ≠ []) :
    ∃ line, lines.getLast? = some line ∧ b = line.address + line.item.length := by
  induction h with
  | nil => contradiction
  | @cons a b item lines _ _ hwalk ih =>
    cases lines with
    | nil =>
      cases hwalk
      exact ⟨⟨a, item⟩, rfl, rfl⟩
    | cons next lines =>
      obtain ⟨line, hline, hb⟩ := ih (List.cons_ne_nil _ _)
      exact ⟨line, by rw [List.getLast?_cons_cons, hline], hb⟩

end Walk

/-- Within memory a listing fails nowhere and goes past its last address. -/
theorem disassemble_walk (ha : 0 ≤ a) (hlast : last ≤ 32767) :
    ∃ lines b, disassemble m a last = (lines, none) ∧ Walk m a lines b ∧ last < b := by
  fun_induction disassemble m a last with
  | case1 a h => exact ⟨[], a, rfl, .nil, h⟩
  | case2 a h c hc =>
    obtain ⟨item, hitem, -⟩ := Instruction.stands_at (m := m) (a := a) ⟨ha, by omega⟩
    rw [hc] at hitem
    contradiction
  | case3 a h item hitem rest failure heq ih =>
    obtain ⟨lines, b, hrest, hwalk, hb⟩ := ih (by omega)
    obtain ⟨rfl, rfl⟩ := Prod.mk.inj (heq.symm.trans hrest)
    exact ⟨_, b, rfl, .cons ⟨ha, by omega⟩ hitem hwalk, hb⟩

section Laid

theorem itemAt_of_cellRun {i : Instruction} (ha : 0 ≤ a)
    (hrun : m.cellRun a i.size = (Item.instruction i).words) (hend : a + i.size ≤ 32768) :
    itemAt m a = .ok (.instruction i) := by
  have hsize : i.size = 1 + i.opcode.arity := rfl
  have hcell {k : Nat} (hk : k < i.size) :
      m.cell (a + k) = (Item.instruction i).words.getD k 0 := by
    rw [← hrun, List.getD, List.getElem?_eq_getElem (by rwa [Memory.length_cellRun]),
      Memory.getElem_cellRun, Option.getD_some]
  have hcode : m.cell a = i.opcode.code := by
    have := hcell (k := 0) (by omega)
    rwa [Int.natCast_zero, Int.add_zero] at this
  refine Instruction.itemAt_of_decode ⟨ha, by omega⟩
    ((Instruction.decode_ok_iff ⟨ha, by omega⟩).mpr ⟨i.opcode, hcode, by omega, ?_⟩)
  calc i
    _ = .make (i.operands.getD 0 0) (i.operands.getD 1 0) (i.operands.getD 2 0) i.opcode :=
        i.eq_make
    _ = .standing m a i.opcode :=
        Instruction.make_congr (fun _ => (hcell (k := 1) (by omega)).symm)
          (fun _ => (hcell (k := 2) (by omega)).symm) fun _ => (hcell (k := 3) (by omega)).symm

def layOut (a : Int) : List Instruction → List Line
  | [] => []
  | i :: rest => ⟨a, .instruction i⟩ :: layOut (a + i.size) rest

theorem disassemble_layOut (is : List Instruction) {n : Nat} (ha : 0 ≤ a)
    (hrun : m.cellRun a n = is.flatMap fun i => (Item.instruction i).words)
    (hend : a + n ≤ 32768) : disassemble m a (a + n - 1) = (layOut a is, none) := by
  induction is generalizing a n with
  | nil =>
    have hn : n = 0 := by
      rw [← Memory.length_cellRun (m := m) (a := a) (n := n), hrun]
      rfl
    exact disassemble_of_lt (by omega)
  | cons i rest ih =>
    have hlength := congrArg List.length hrun
    have hi : (Item.instruction i).words.length = i.size := Instruction.length_item i
    rw [List.flatMap_cons, List.length_append, Memory.length_cellRun, hi] at hlength
    -- The run is cut behind the first instruction, which may be where memory ends.
    obtain ⟨k, rfl⟩ := Nat.exists_eq_add_of_le (show i.size ≤ n by omega)
    rw [List.flatMap_cons, Memory.cellRun_add] at hrun
    obtain ⟨hfirst, hrest⟩ := List.append_inj hrun (by rw [Memory.length_cellRun, hi])
    have hitem := itemAt_of_cellRun ha hfirst (by omega)
    have hpos : 0 < i.size := by rw [← hi]; exact Item.length_pos _
    have hlast : a + (i.size + k : Nat) - 1 = a + i.size + k - 1 := by omega
    rw [disassemble_of_le (by omega) hitem, Instruction.length_item, hlast,
      ih (by omega) hrest (by omega)]
    rfl

end Laid

end WordMachine.Listing
