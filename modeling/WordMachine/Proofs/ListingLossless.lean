import WordMachine.Proofs.ListingPartition
import WordMachine.Proofs.Reassembly

/-!
Nothing is lost in a listing. The text of a line tells what it lists, since names of operands can be
read back, a character in quotes is no name, and no two characters are shown alike. Where two
memories have listings of the same text they therefore hold the same words.
-/
namespace WordMachine

theorem Opcode.mnemonic_injective {o p : Opcode} (h : o.mnemonic = p.mnemonic) : o = p := by
  have ho := ofMnemonic?_mnemonic o
  rw [h, ofMnemonic?_mnemonic] at ho
  exact (Option.some.inj ho).symm

theorem Instruction.eq_of_operands {i j : Instruction} (hop : i.opcode = j.opcode)
    (hoperands : i.operands = j.operands) : i = j := by
  rw [i.eq_make, j.eq_make, hop, hoperands]

namespace Listing

section Names

variable {x y : Int}

theorem registerName_injective (hx : IsWord x) (hy : IsWord y)
    (h : (registerName x).toList = (registerName y).toList) : x = y := by
  have hread := operand_ok_iff.mpr (denotes_registerName hx)
  rw [h, operand_ok_iff.mpr (denotes_registerName hy)] at hread
  exact (Except.ok.inj hread).symm

theorem names_injective {xs ys : List Int} (hxs : ∀ w ∈ xs, IsWord w) (hys : ∀ w ∈ ys, IsWord w)
    (h : xs.map (fun w => (registerName w).toList) = ys.map fun w => (registerName w).toList) :
    xs = ys := by
  induction xs generalizing ys with
  | nil => exact (List.map_eq_nil_iff.mp h.symm).symm
  | cons x xs ih =>
    cases ys with
    | nil => cases h
    | cons y ys =>
      obtain ⟨hname, hrest⟩ := List.cons.inj h
      rw [registerName_injective (hxs x List.mem_cons_self) (hys y List.mem_cons_self) hname,
        ih (fun w hw => hxs w (List.mem_cons_of_mem _ hw))
          (fun w hw => hys w (List.mem_cons_of_mem _ hw)) hrest]

theorem registerName_ne_quote (hx : IsWord x) {quote : Char} (hquote : quote = '\'' ∨ quote = '"')
    (rest : List Char) : (registerName x).toList ≠ quote :: rest := by
  intro h
  have hdenotes := denotes_registerName hx
  rw [h] at hdenotes
  exact not_denotes_quote hquote rest x hdenotes

end Names

section Characters

def shownNumber : List Char → Int
  | [_, '\\', 'n', _] => 10
  | [_, '\\', c, _] => c.toNat
  | [_, c, _] => c.toNat
  | _ => 0

theorem shown_read_back : ∀ a : Fin 127, a.val = 10 ∨ 32 ≤ a.val →
    let text := (Item.instruction (.out a.val)).operandText.toList
    shownNumber text = a.val ∧ Text.trimRight text = text := by
  decide +kernel

namespace Item

variable {a b : Item}

theorem exists_of_shows (h : a.ShowsCharacter) :
    ∃ n : Fin 127, (n.val = 10 ∨ 32 ≤ n.val) ∧ a = .instruction (.out n.val) := by
  unfold ShowsCharacter at h
  split at h
  next x =>
    have hx : (x.toNat : Int) = x := Int.toNat_of_nonneg (by omega)
    have hshown : x.toNat = 10 ∨ 32 ≤ x.toNat := by omega
    exact ⟨⟨x.toNat, by omega⟩, hshown, by rw [hx]⟩
  next => contradiction

theorem eq_of_shows (ha : a.ShowsCharacter) (hb : b.ShowsCharacter)
    (h : a.operandText = b.operandText) : a = b := by
  obtain ⟨n, hn, rfl⟩ := exists_of_shows ha
  obtain ⟨k, hk, rfl⟩ := exists_of_shows hb
  have hnumber : (n.val : Int) = k.val := by
    rw [← (shown_read_back n hn).1, ← (shown_read_back k hk).1, h]
  rw [hnumber]

theorem trimRight_operandText (h : a.ShowsCharacter) :
    Text.trimRight a.operandText.toList = a.operandText.toList := by
  obtain ⟨n, hn, rfl⟩ := exists_of_shows h
  exact (shown_read_back n hn).2

theorem words_ne_of_shows (ha : a.ShowsCharacter) (hb : ¬b.ShowsCharacter)
    (hword : ∀ w ∈ b.operands, IsWord w) :
    Text.words a.operandText.toList ≠ Text.words b.operandText.toList := by
  obtain ⟨quote, rest, hquote, htext⟩ := operandText_of_shows ha
  have hblank : Text.isBlank quote = false := by rcases hquote with rfl | rfl <;> decide
  rw [htext, Text.words_cons hblank, words_operandText hb fun w hw => (hword w hw).1]
  intro h
  have hmem : quote :: rest.takeWhile (!Text.isBlank ·) ∈
      b.operands.map fun w => (registerName w).toList := h ▸ List.mem_cons_self
  obtain ⟨w, hw, hname⟩ := List.mem_map.mp hmem
  exact registerName_ne_quote (hword w hw) hquote _ hname

theorem eq_of_operands (hname : a.mnemonic = b.mnemonic) (hoperands : a.operands = b.operands) :
    a = b := by
  have hop (op : Opcode) : op.mnemonic ≠ ".word" := by cases op <;> decide
  cases a with
  | instruction i =>
    cases b with
    | instruction j =>
      exact congrArg _ (Instruction.eq_of_operands (Opcode.mnemonic_injective hname) hoperands)
    | data w => exact absurd hname (hop i.opcode)
  | data v =>
    cases b with
    | instruction j => exact absurd hname.symm (hop j.opcode)
    | data w => exact congrArg _ (List.singleton_inj.mp hoperands)

end Item

end Characters

namespace Line

variable {line next : Line}

theorem body_of_shows (h : 0 ≤ line.address) (hshows : line.item.ShowsCharacter) :
    line.body = line.item.lead ++ line.item.operandText.toList := by
  obtain ⟨quote, rest, hquote, htext⟩ := Item.operandText_of_shows hshows
  have hblank : Text.isBlank quote = false := by rcases hquote with rfl | rfl <;> decide
  have htrim := Item.trimRight_operandText hshows
  rw [htext] at htrim
  have hrest : quote :: Text.trimRight rest = quote :: rest :=
    (Text.trimRight_append hblank [] rest).symm.trans htrim
  rw [body_eq h, htext, Text.trimRight_append hblank, hrest]

theorem item_eq_of_text (h : 0 ≤ line.address) (h' : 0 ≤ next.address)
    (hword : ∀ w ∈ line.item.operands, IsWord w) (hword' : ∀ w ∈ next.item.operands, IsWord w)
    (htext : line.text = next.text) : line.item = next.item := by
  have hbody : line.body = next.body := by rw [body, body, htext]
  have hwords := words_body h
  rw [hbody, words_body h'] at hwords
  obtain ⟨hname, htail⟩ := List.cons.inj hwords
  replace hname : line.item.mnemonic = next.item.mnemonic := (String.toList_inj.mp hname).symm
  by_cases hshows : line.item.ShowsCharacter
  · by_cases hshows' : next.item.ShowsCharacter
    · have hlead : line.item.lead = next.item.lead := by rw [Item.lead, Item.lead, hname]
      rw [body_of_shows h hshows, body_of_shows h' hshows', hlead] at hbody
      exact Item.eq_of_shows hshows hshows' (String.toList_inj.mp (List.append_cancel_left hbody))
    · exact absurd htail.symm (Item.words_ne_of_shows hshows hshows' hword')
  · by_cases hshows' : next.item.ShowsCharacter
    · exact absurd htail (Item.words_ne_of_shows hshows' hshows hword)
    · rw [Item.words_operandText hshows' fun w hw => (hword' w hw).1,
        Item.words_operandText hshows fun w hw => (hword w hw).1] at htail
      exact Item.eq_of_operands hname (names_injective hword hword' htail.symm)

end Line

variable {m n : Memory} {a b c start last : Int} {lines lines' : List Line}

/-- Two walks whose lines have the same texts go through the same lines. -/
theorem Walk.eq_of_texts (h : Walk m a lines b) (h' : Walk n a lines' c)
    (htexts : lines.map Line.text = lines'.map Line.text) : lines = lines' := by
  induction h generalizing lines' with
  | nil => exact (List.map_eq_nil_iff.mp htexts.symm).symm
  | @cons a b item lines ha hitem hwalk ih =>
    have hword {m : Memory} {item : Item} (hitem : itemAt m a = .ok item) :
        ∀ w ∈ item.operands, IsWord w := by
      intro w hw
      apply Memory.isWord_of_mem_cellRun (m := m) (a := a) (n := item.length)
      rw [← (words_of_itemAt ha hitem).1]
      exact item.operands_subset_words hw
    cases h' with
    | nil => cases htexts
    | cons _ hitem' hwalk' =>
      obtain ⟨htext, hrest⟩ := List.cons.inj htexts
      obtain rfl := Line.item_eq_of_text ha.1 ha.1 (hword hitem) (hword hitem') htext
      rw [ih hwalk' hrest]

theorem Walk.cell_eq (h : Walk m start lines b) (h' : Walk n start lines c) (hstart : start ≤ a)
    (hb : a < b) : m.cell a = n.cell a := by
  obtain ⟨k, hk, hwords⟩ := h.words_eq
  obtain ⟨k', -, hwords'⟩ := h'.words_eq
  have hrun : m.cellRun start k = n.cellRun start k' := hwords.symm.trans hwords'
  have hlength : k = k' := by
    rw [← Memory.length_cellRun (m := m) (a := start) (n := k), hrun, Memory.length_cellRun]
  subst hlength
  obtain ⟨i, rfl⟩ := Int.le.dest hstart
  have hi : i < k := by omega
  have hget (m : Memory) : (m.cellRun start k)[i]? = some (m.cell (start + i)) := by
    rw [List.getElem?_eq_getElem (by simpa), Memory.getElem_cellRun]
  exact Option.some.inj (by rw [← hget m, hrun, hget n])

/-- Memories whose listings have the same texts hold the same words in all cells that are listed. -/
theorem listing_lossless (m n : Memory) (h0 : 0 ≤ start) (hle : start ≤ last)
    (hlast : last ≤ 32767)
    (htexts : (disassemble m start last).1.map Line.text =
      (disassemble n start last).1.map Line.text) :
    ∃ lines final, disassemble m start last = (lines, none) ∧
      disassemble n start last = (lines, none) ∧ lines.getLast? = some final ∧
        ∀ a, start ≤ a → a < final.behind → ∃ w, m.read a = .ok w ∧ n.read a = .ok w := by
  obtain ⟨lines, b, hlisting, hwalk, hb⟩ := disassemble_walk (m := m) h0 hlast
  obtain ⟨lines', c, hlisting', hwalk', -⟩ := disassemble_walk (m := n) h0 hlast
  rw [hlisting, hlisting'] at htexts
  obtain rfl := hwalk.eq_of_texts hwalk' htexts
  have hne : lines ≠ [] := by
    rintro rfl
    cases hwalk
    omega
  obtain ⟨final, hfinal, hend⟩ := hwalk.exists_last hne
  refine ⟨lines, final, hlisting, hlisting', hfinal, fun a hstart hbehind => ?_⟩
  have hab : a < b := by rwa [hend]
  have hbound := hwalk.end_le (by omega)
  have hinside : IsAddress a := ⟨by omega, by omega⟩
  have hcell : m.cell a = n.cell a := hwalk.cell_eq hwalk' hstart hab
  exact ⟨m.cell a, m.read_cell hinside, by rw [n.read_cell hinside, hcell]⟩

/-- A quote to be written and a halt, with a number behind them. -/
def quoting (behind : Int) : Memory :=
  ((Memory.empty.setCell 0 19).setCell 1 39).setCell 3 behind

theorem quoting_listing :
    0 ≤ 2 ∧ 2 ≤ 32767 ∧
    ∃ lines final, disassemble (quoting 4) 0 2 = (lines, none) ∧
      disassemble (quoting 5) 0 2 = (lines, none) ∧ lines.getLast? = some final ∧
        ∀ a, 0 ≤ a → a < final.behind →
          ∃ w, (quoting 4).read a = .ok w ∧ (quoting 5).read a = .ok w := by
  have hlisting {m : Memory} (hout : itemAt m 0 = .ok (.instruction (.out 39)))
      (hhalt : itemAt m 2 = .ok (.instruction .halt)) :
      (disassemble m 0 2).1 = [⟨0, .instruction (.out 39)⟩, ⟨2, .instruction .halt⟩] := by
    have hrest : disassemble m 2 2 = ([⟨2, .instruction .halt⟩], none) := by
      rw [disassemble_of_le (by decide) hhalt, disassemble_of_lt (by decide)]
    rw [disassemble_of_le (by decide) hout]
    exact congrArg (⟨0, .instruction (.out 39)⟩ :: ·.1) hrest
  have h4 := hlisting (m := quoting 4) (by decide +kernel) (by decide +kernel)
  have h5 := hlisting (m := quoting 5) (by decide +kernel) (by decide +kernel)
  exact ⟨by decide, by decide, listing_lossless (quoting 4) (quoting 5) (by decide) (by decide)
    (by decide) (by rw [h4, h5])⟩

end Listing

end WordMachine
