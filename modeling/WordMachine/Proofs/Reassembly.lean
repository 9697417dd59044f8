import WordMachine.Proofs.ListingText

/-!
Assembling a listing again. The names of the operands mean the words they were made from, so a
listing without its addresses is a source of the words it was made from. A line of data names no
mnemonic, and a character in quotes is no operand: a source with such lines is refused.
-/
namespace WordMachine.Listing

section Lines

variable {line : Line} {ws : List Int}

theorem denotes_registerName {x : Int} (hx : IsWord x) : Denotes (registerName x).toList x := by
  have hwritable (n : Nat) (h : n < 65536) : Text.IsWritable n :=
    Text.isWritable_of_natAbs_lt (by omega)
  rw [toList_registerName hx.1]
  split
  next hr =>
    have hindex : 32768 + ((registerIndex x).toNat : Int) = x := by
      simp only [registerIndex]
      omega
    have hread := Text.integer_toDigits .ten (by decide)
      (hwritable (registerIndex x).toNat (by omega))
    have hvalue := Denotes.register (.inl rfl) hread (by omega) (by omega)
    rwa [hindex] at hvalue
  next =>
    have hread := Text.integer_toDigits .marked (by decide)
      (hwritable x.toNat (by omega))
    rw [Int.toNat_of_nonneg hx.1] at hread
    have hhead {c : Char} (hc : c.isDigit = false) : (Nat.toDigits 10 x.toNat).head? ≠ some c := by
      intro h
      have hdigit : c.isDigit = true := Text.isDigit_of_mem (List.mem_of_head? h)
      exact Bool.false_ne_true (hc.symm.trans hdigit)
    exact .literal (hhead (by decide)) (hhead (by decide)) hread

theorem not_denotes_quote {quote : Char} (hquote : quote = '\'' ∨ quote = '"') (rest : List Char)
    (value : Int) : ¬Denotes (quote :: rest) value := by
  intro h
  cases h with
  | register hletter =>
    rcases hquote with rfl | rfl <;> revert hletter <;> decide
  | literal _ _ hvalue =>
    rw [Text.integer_of_quote hquote] at hvalue
    contradiction

theorem lowerAscii_mnemonic (i : Instruction) :
    String.ofList (lowerAscii i.mnemonic.toList) = i.mnemonic := by
  have hop (op : Opcode) : String.ofList (lowerAscii op.mnemonic.toList) = op.mnemonic := by
    cases op <;> rfl
  exact hop i.opcode

theorem says_body {i : Instruction} (h : 0 ≤ line.address) (hitem : line.item = .instruction i)
    (hshows : ¬line.item.ShowsCharacter) (hword : ∀ w ∈ i.operands, IsWord w) :
    Says line.body i := by
  have hwords := Line.words_body h
  rw [Item.words_operandText hshows (by rw [hitem]; exact fun w hw => (hword w hw).1)] at hwords
  rw [hitem] at hwords
  refine .intro hwords (lowerAscii_mnemonic i) (List.forall₂_map_left_iff.mpr ?_)
  exact List.forall₂_same.mpr fun w hw => denotes_registerName (hword w hw)

/-- A character in quotes is refused as an operand, whatever is left of it in the first
statement. -/
theorem not_shows_of_ok (h : 0 ≤ line.address) (hok : assemble line.body = .ok ws) :
    ¬line.item.ShowsCharacter := by
  intro hshows
  -- A semicolon or a space cuts the quoted text in two, but the first quote is always left.
  obtain ⟨quote, rest, more, hquote, hstatements⟩ := Line.statements_body_of_shows h hshows
  have hblank : Text.isBlank quote = false := by rcases hquote with rfl | rfl <;> decide
  have hwords := Item.words_lead line.item (quote :: rest)
  obtain ⟨blocks, hblocks, -⟩ := assemble_ok_iff.mp hok
  rw [hstatements, List.forall₂_cons_left_iff] at hblocks
  obtain ⟨block, -, hblock, -, -⟩ := hblocks
  obtain ⟨i, hsays, -⟩ := exists_said hblock (by rw [hwords]; exact List.cons_ne_nil _ _)
  cases hsays with
  | intro hsaid _ hoperands =>
    obtain ⟨rfl, rfl⟩ := List.cons.inj (hwords.symm.trans hsaid)
    rw [Text.words_cons hblank, List.forall₂_cons_left_iff] at hoperands
    obtain ⟨value, -, hvalue, -, -⟩ := hoperands
    exact not_denotes_quote hquote _ _ hvalue

theorem isData_of_ok (h : 0 ≤ line.address) (hok : statementWords line.body = .ok ws) :
    line.item.isData = false := by
  have hwords := Line.words_body h
  obtain ⟨i, hsays, -⟩ := exists_said hok (by rw [hwords]; exact List.cons_ne_nil _ _)
  cases hitem : line.item with
  | instruction _ => rfl
  | data word =>
    cases hsays with
    | intro hsaid hname _ =>
      obtain ⟨rfl, -⟩ := List.cons.inj (hwords.symm.trans hsaid)
      rw [hitem] at hname
      have hop (op : Opcode) : String.ofList (lowerAscii ".word".toList) ≠ op.mnemonic := by
        cases op <;> decide
      exact absurd hname (hop i.opcode)

theorem assemble_body_ok_iff (h : 0 ≤ line.address) (hword : ∀ w ∈ line.item.words, IsWord w) :
    assemble line.body = .ok ws ↔
      (line.item.isData = false ∧ ¬line.item.ShowsCharacter) ∧ line.item.words = ws := by
  have hoperands : ∀ w ∈ line.item.operands, IsWord w := fun w hw =>
    hword w (line.item.operands_subset_words hw)
  have hplain (hshows : ¬line.item.ShowsCharacter) :
      assemble line.body = statementWords line.body :=
    assemble_eq_statementWords (Line.statements_body h hshows fun w hw => (hoperands w hw).1)
  have hlisted (hdata : line.item.isData = false) (hshows : ¬line.item.ShowsCharacter) :
      statementWords line.body = .ok line.item.words := by
    obtain ⟨i, hitem⟩ : ∃ i, line.item = .instruction i := by
      cases hitem : line.item with
      | instruction i => exact ⟨i, rfl⟩
      | data word =>
        rw [hitem] at hdata
        contradiction
    rw [hitem] at hoperands
    rw [(says_body h hitem hshows hoperands).statementWords_eq, hitem]
  constructor
  · intro hok
    have hshows := not_shows_of_ok h hok
    rw [hplain hshows] at hok
    have hdata := isData_of_ok h hok
    exact ⟨⟨hdata, hshows⟩, Except.ok.inj ((hlisted hdata hshows).symm.trans hok)⟩
  · rintro ⟨⟨hdata, hshows⟩, rfl⟩
    rw [hplain hshows, hlisted hdata hshows]

end Lines

section Sources

variable {m : Memory} {lines : List Line} {ws : List Int} {start last : Int}

def source (lines : List Line) : List Char := ['\n'].intercalate (lines.map Line.body)

theorem assemble_bodies_iff
    (h : ∀ line ∈ lines, 0 ≤ line.address ∧ ∀ w ∈ line.item.words, IsWord w)
    (blocks : List (List Int)) :
    lines.Forall₂ (fun line block => assemble line.body = .ok block) blocks ↔
      (∀ line ∈ lines, line.item.isData = false ∧ ¬line.item.ShowsCharacter) ∧
        lines.map (·.item.words) = blocks := by
  induction lines generalizing blocks with
  | nil =>
    rw [List.forall₂_nil_left_iff]
    exact ⟨fun hnil => ⟨fun _ hl => absurd hl List.not_mem_nil, hnil.symm⟩, fun h => h.2.symm⟩
  | cons line lines ih =>
    obtain ⟨haddress, hword⟩ := h line List.mem_cons_self
    have hrest := ih fun l hl => h l (List.mem_cons_of_mem _ hl)
    simp only [List.forall₂_cons_left_iff, assemble_body_ok_iff haddress hword, hrest,
      List.forall_mem_cons, List.map_cons]
    constructor
    · rintro ⟨_, _, ⟨hline, rfl⟩, ⟨hlines, rfl⟩, rfl⟩
      exact ⟨⟨hline, hlines⟩, rfl⟩
    · rintro ⟨⟨hline, hlines⟩, rfl⟩
      exact ⟨_, _, ⟨hline, rfl⟩, ⟨hlines, rfl⟩, rfl⟩

theorem assemble_source_ok_iff
    (h : ∀ line ∈ lines, 0 ≤ line.address ∧ ∀ w ∈ line.item.words, IsWord w) :
    assemble (source lines) = .ok ws ↔
      (∀ line ∈ lines, line.item.isData = false ∧ ¬line.item.ShowsCharacter) ∧
        lines.flatMap (·.item.words) = ws := by
  have hsep : isSeparator '\n' = true := by decide
  simp only [source, assemble_intercalate_ok_iff hsep, List.forall₂_map_left_iff,
    assemble_bodies_iff h]
  constructor
  · rintro ⟨_, ⟨hlines, rfl⟩, rfl⟩
    exact ⟨hlines, rfl⟩
  · rintro ⟨hlines, rfl⟩
    exact ⟨_, ⟨hlines, rfl⟩, rfl⟩

/-- A listing without its addresses is a source exactly if it lists no data and shows no character,
and then it is a source of the words from its first cell to its last. -/
theorem listing_reassembled (m : Memory) (h0 : 0 ≤ start) (hle : start ≤ last)
    (hlast : last ≤ 32767) : ∃ lines, disassemble m start last = (lines, none) ∧
      ((∃ ws, assemble (source lines) = .ok ws) ↔
        ∀ line ∈ lines, line.item.isData = false ∧ ¬line.item.ShowsCharacter) ∧
      ∀ ws, assemble (source lines) = .ok ws → ∃ final, lines.getLast? = some final ∧
        m.snapshot start (final.address + final.item.length - 1) = .ok ws := by
  obtain ⟨lines, b, hlisting, hwalk, hb⟩ := disassemble_walk (m := m) h0 hlast
  have hne : lines ≠ [] := by
    rintro rfl
    cases hwalk
    omega
  obtain ⟨final, hfinal, hend⟩ := hwalk.exists_last hne
  obtain ⟨n, hn, hwords⟩ := hwalk.words_eq
  have hinside := hwalk.end_le (by omega)
  have hlines : ∀ line ∈ lines, 0 ≤ line.address ∧ ∀ w ∈ line.item.words, IsWord w :=
    fun line hline => ⟨(hwalk.address_of_mem hline).1.1, hwalk.isWord_of_mem hline⟩
  refine ⟨lines, hlisting, ?_, fun ws hws => ⟨final, hfinal, ?_⟩⟩
  · simp only [assemble_source_ok_iff hlines, exists_and_left, exists_eq', and_true]
  · obtain ⟨-, rfl⟩ := (assemble_source_ok_iff hlines).mp hws
    rw [hwords, ← hend, hn]
    exact Memory.snapshot_eq h0 (by omega) (by omega)

def holding (us : List Word) : Memory :=
  ⟨Memory.overwrite Memory.empty.cells 0 (us.flatMap Word.bytes)⟩

theorem adding_reassembled_semicolon_refused :
    (((0 : Int) ≤ 0 ∧ (0 : Int) ≤ 6 ∧ (6 : Int) ≤ 32767) ∧
      ∃ lines, disassemble (holding [9, 32768, 4, 4, 19, 32768, 0]) 0 6 = (lines, none) ∧
        assemble (source lines) = .ok [9, 32768, 4, 4, 19, 32768, 0]) ∧
    ((0 : Int) ≤ 0 ∧ (0 : Int) ≤ 2 ∧ (2 : Int) ≤ 32767) ∧
      ∃ lines, disassemble (holding [19, 59, 0]) 0 2 = (lines, none) ∧
        ¬∃ ws, assemble (source lines) = .ok ws := by
  constructor
  · have hrun : (holding [9, 32768, 4, 4, 19, 32768, 0]).cellRun 0 7 =
        [9, 32768, 4, 4, 19, 32768, 0] := Memory.cellRun_overwrite _ 0 _ (by decide)
    have hlaid := disassemble_layOut [.binary .add 32768 4 4, .out 32768, .halt]
      (Int.le_refl 0) hrun (by decide)
    obtain ⟨lines, hlisting, haccepted, hwords⟩ :=
      listing_reassembled (holding [9, 32768, 4, 4, 19, 32768, 0]) (Int.le_refl 0)
        (show (0 : Int) ≤ 6 by decide) (by decide)
    obtain rfl := (Prod.mk.inj (hlaid.symm.trans hlisting)).1
    obtain ⟨ws, hws⟩ := haccepted.mpr (by simp [layOut, Item.isData, Item.ShowsCharacter])
    obtain ⟨final, hfinal, hsnapshot⟩ := hwords ws hws
    obtain rfl : ⟨6, .instruction .halt⟩ = final := Option.some.inj hfinal
    have hcopied : (holding [9, 32768, 4, 4, 19, 32768, 0]).snapshot 0 6 =
        .ok [9, 32768, 4, 4, 19, 32768, 0] :=
      (Memory.snapshot_eq (n := 7) (by decide) (by decide) (by decide)).trans (congrArg _ hrun)
    refine ⟨by decide, _, hlisting, ?_⟩
    rw [hws, ← Except.ok.inj (hcopied.symm.trans hsnapshot)]
  · have hrun : (holding [19, 59, 0]).cellRun 0 3 = [19, 59, 0] :=
      Memory.cellRun_overwrite _ 0 _ (by decide)
    have hlaid := disassemble_layOut [.out 59, .halt] (Int.le_refl 0) hrun (by decide)
    obtain ⟨lines, hlisting, haccepted, -⟩ :=
      listing_reassembled (holding [19, 59, 0]) (Int.le_refl 0) (show (0 : Int) ≤ 2 by decide)
        (by decide)
    obtain rfl := (Prod.mk.inj (hlaid.symm.trans hlisting)).1
    refine ⟨by decide, _, hlisting, fun hok => ?_⟩
    have hshows : (Item.instruction (.out 59)).ShowsCharacter := .inr ⟨by decide, by decide⟩
    exact (haccepted.mp hok ⟨0, .instruction (.out 59)⟩ List.mem_cons_self).2 hshows

end Sources

end WordMachine.Listing
