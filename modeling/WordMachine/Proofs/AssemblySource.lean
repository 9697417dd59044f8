import Mathlib.Data.List.Forall2
import WordMachine.Listing.Assembly
import WordMachine.Listing.Disassembly
import WordMachine.Proofs.StepLaw
import WordMachine.Proofs.TextWords

/-!
What an assembly source says. A separator cuts a source in two that are assembled apart, and each
statement that is not blank says one instruction: its first word the mnemonic, the others the
operands.
-/
namespace WordMachine

namespace Instruction

theorem exists_of_operands {op : Opcode} {operands : List Int} (h : operands.length = op.arity) :
    ∃ i : Instruction, i.opcode = op ∧ i.operands = operands := by
  refine ⟨make (operands.getD 0 0) (operands.getD 1 0) (operands.getD 2 0) op, opcode_make _ _ _ _,
    ?_⟩
  rw [operands_make, ← h]
  have hle := op.arity_le
  rcases operands with _ | ⟨a, _ | ⟨b, _ | ⟨c, _ | ⟨d, rest⟩⟩⟩⟩
  case cons.cons.cons.cons =>
    simp only [List.length_cons] at h
    omega
  all_goals rfl

end Instruction

namespace Listing

variable {source text statement : List Char} {ws : List Int}

section Statements

variable {sep : Char}

theorem statementsFrom_append (hsep : isSeparator sep = true) (before a b : List Char) :
    statementsFrom before (a ++ sep :: b) = statementsFrom before a ++ statements b := by
  induction a generalizing before with
  | nil =>
    simp only [List.nil_append, statementsFrom, hsep, if_true]
    rfl
  | cons c a ih =>
    rw [List.cons_append]
    cases hc : isSeparator c with
    | true => simp only [statementsFrom, hc, if_true, ih, List.cons_append]
    | false => simp only [statementsFrom, hc, Bool.false_eq_true, if_false, ih]

theorem statements_append (hsep : isSeparator sep = true) (a b : List Char) :
    statements (a ++ sep :: b) = statements a ++ statements b :=
  statementsFrom_append hsep [] a b

theorem statementsFrom_eq_cons (before text : List Char) :
    ∃ rest, statementsFrom before text =
      (before.reverse ++ text.takeWhile (!isSeparator ·)) :: rest := by
  induction text generalizing before with
  | nil => exact ⟨[], by rw [statementsFrom, List.takeWhile_nil, List.append_nil]⟩
  | cons c text ih =>
    cases hc : isSeparator c with
    | true =>
      refine ⟨statementsFrom [] text, ?_⟩
      simp only [statementsFrom, hc, if_true, List.takeWhile_cons, Bool.not_true,
        Bool.false_eq_true, if_false, List.append_nil]
    | false =>
      obtain ⟨rest, hrest⟩ := ih (c :: before)
      refine ⟨rest, ?_⟩
      simp only [statementsFrom, hc, Bool.false_eq_true, if_false, hrest, List.takeWhile_cons,
        Bool.not_false, if_true, List.reverse_cons, List.append_assoc, List.singleton_append]

theorem statements_eq_cons (text : List Char) :
    ∃ rest, statements text = text.takeWhile (!isSeparator ·) :: rest :=
  statementsFrom_eq_cons [] text

theorem statementsFrom_eq_singleton (before : List Char)
    (h : ∀ c ∈ text, isSeparator c = false) :
    statementsFrom before text = [before.reverse ++ text] := by
  induction text generalizing before with
  | nil => rw [statementsFrom, List.append_nil]
  | cons c text ih =>
    have hc := h c List.mem_cons_self
    simp only [statementsFrom, hc, Bool.false_eq_true, if_false,
      ih (c :: before) fun d hd => h d (List.mem_cons_of_mem _ hd), List.reverse_cons,
      List.append_assoc, List.singleton_append]

theorem statements_eq_singleton (h : ∀ c ∈ text, isSeparator c = false) :
    statements text = [text] :=
  statementsFrom_eq_singleton [] h

end Statements

section Blocks

theorem mapM_ok_iff {α β ε : Type} {f : α → Except ε β} {xs : List α} {ys : List β} :
    xs.mapM f = .ok ys ↔ List.Forall₂ (fun x y => f x = .ok y) xs ys := by
  induction xs generalizing ys with
  | nil => simp [pure, Except.pure, eq_comm]
  | cons x xs ih =>
    rw [List.mapM_cons, List.forall₂_cons_left_iff]
    cases hx : f x with
    | error e =>
      refine iff_of_false (fun h => ?_) (fun ⟨y, zs, h, _⟩ => ?_) <;> contradiction
    | ok y =>
      cases hxs : xs.mapM f with
      | error e =>
        refine iff_of_false (fun h => ?_) (fun ⟨_, zs, _, hzs, _⟩ => ?_)
        · contradiction
        · rw [ih.mpr hzs] at hxs
          contradiction
      | ok zs =>
        simp only [bind, Except.bind, pure, Except.pure, Except.ok.injEq]
        constructor
        · rintro rfl
          exact ⟨y, zs, rfl, ih.mp hxs, rfl⟩
        · rintro ⟨y', zs', rfl, hzs, rfl⟩
          rw [Except.ok.inj (hxs.symm.trans (ih.mpr hzs))]

theorem mapM_flatten_ok_iff {α β ε : Type} {f : α → Except ε (List β)} {xs : List α} {ys : List β} :
    (do return (← xs.mapM f).flatten) = Except.ok ys ↔
      ∃ blocks, xs.Forall₂ (fun x block => f x = .ok block) blocks ∧ blocks.flatten = ys := by
  simp only [← mapM_ok_iff]
  cases xs.mapM f with
  | error e => simp [bind, Except.bind]
  | ok blocks => simp [bind, Except.bind, pure, Except.pure]

/-- A source has a block of words for each of its statements. -/
theorem assemble_ok_iff : assemble source = .ok ws ↔
    ∃ blocks, (statements source).Forall₂ (fun statement block =>
      statementWords statement = .ok block) blocks ∧ blocks.flatten = ws :=
  mapM_flatten_ok_iff

theorem assemble_eq_statementWords (h : statements text = [text]) :
    assemble text = statementWords text := by
  simp only [assemble, h, List.mapM_cons, List.mapM_nil, bind_assoc, pure_bind, List.flatten_cons,
    List.flatten_nil, List.append_nil, bind_pure]

theorem assemble_append {sep : Char} (hsep : isSeparator sep = true) (a b : List Char) :
    assemble (a ++ sep :: b) = do
      let u ← assemble a
      let v ← assemble b
      return u ++ v := by
  simp only [assemble, statements_append hsep, List.mapM_append, bind_assoc, pure_bind,
    List.flatten_append]

theorem assemble_nil : assemble [] = .ok [] := by
  have hblank : statementWords [] = .ok [] := by
    rw [statementWords, Text.words_nil]
  rw [assemble_eq_statementWords rfl, hblank]

theorem assemble_intercalate {sep : Char} (hsep : isSeparator sep = true)
    (texts : List (List Char)) :
    assemble ([sep].intercalate texts) = do return (← texts.mapM assemble).flatten := by
  induction texts with
  | nil => exact assemble_nil
  | cons text rest ih =>
    cases rest with
    | nil =>
      simp only [List.intercalate_singleton, List.mapM_cons, List.mapM_nil, bind_assoc, pure_bind,
        List.flatten_cons, List.flatten_nil, List.append_nil, bind_pure]
    | cons next rest =>
      rw [List.intercalate_cons_cons, List.append_assoc, List.singleton_append,
        assemble_append hsep, ih, List.mapM_cons (a := text)]
      simp only [bind_assoc, pure_bind, List.flatten_cons]

theorem assemble_intercalate_ok_iff {sep : Char} (hsep : isSeparator sep = true)
    {texts : List (List Char)} : assemble ([sep].intercalate texts) = .ok ws ↔
      ∃ blocks, texts.Forall₂ (fun text block => assemble text = .ok block) blocks ∧
        blocks.flatten = ws := by
  rw [assemble_intercalate hsep]
  exact mapM_flatten_ok_iff

end Blocks

section Instructions

/-- What an operand means: the number of a register, or the value of a numeral. -/
inductive Denotes : List Char → Int → Prop where
  | register {letter : Char} {digits : List Char} {index : Int} : letter = 'R' ∨ letter = 'r' →
      Text.integer .ten digits = .ok index → 0 ≤ index → index < 8 →
      Denotes (letter :: digits) (32768 + index)
  | literal {text : List Char} {value : Int} : text.head? ≠ some 'R' → text.head? ≠ some 'r' →
      Text.integer .marked text = .ok value → Denotes text value

theorem numeral_ok_iff {radix : Text.Radix} {value : Int} :
    numeral radix text = .ok value ↔ Text.integer radix text = .ok value := by
  unfold numeral
  cases Text.integer radix text <;> simp [Except.mapError]

theorem operand_of_letter {letter : Char} (h : letter = 'R' ∨ letter = 'r') (digits : List Char) :
    operand (letter :: digits) = numeral .ten digits >>= fun index =>
      if 0 ≤ index ∧ index < 8 then .ok (32768 + index)
      else .error (.unknownRegister (String.ofList (letter :: digits))) := by
  rcases h with rfl | rfl <;> rfl

theorem operand_of_not_letter (hR : text.head? ≠ some 'R') (hr : text.head? ≠ some 'r') :
    operand text = numeral .marked text := by
  unfold operand
  split
  · simp at hR
  · simp at hr
  · rfl

theorem operand_ok_iff {value : Int} : operand text = .ok value ↔ Denotes text value := by
  constructor
  · intro h
    by_cases hletter : ∃ letter digits, text = letter :: digits ∧ (letter = 'R' ∨ letter = 'r')
    · obtain ⟨letter, digits, rfl, hletter⟩ := hletter
      rw [operand_of_letter hletter] at h
      cases hindex : numeral .ten digits with
      | error e =>
        rw [hindex] at h
        contradiction
      | ok index =>
        rw [hindex] at h
        dsimp only [bind, Except.bind] at h
        split at h
        next hbound =>
          cases h
          exact .register hletter (numeral_ok_iff.mp hindex) hbound.1 hbound.2
        next => contradiction
    · have hhead {letter : Char} (hl : letter = 'R' ∨ letter = 'r') : text.head? ≠ some letter :=
        fun h => by
          obtain ⟨digits, rfl⟩ := List.head?_eq_some_iff.mp h
          exact hletter ⟨letter, digits, rfl, hl⟩
      have hR := hhead (.inl rfl)
      have hr := hhead (.inr rfl)
      rw [operand_of_not_letter hR hr] at h
      exact .literal hR hr (numeral_ok_iff.mp h)
  · intro h
    cases h with
    | register hletter hindex h0 h8 =>
      rw [operand_of_letter hletter, numeral_ok_iff.mpr hindex]
      dsimp only [bind, Except.bind]
      rw [if_pos ⟨h0, h8⟩]
    | literal hR hr hvalue =>
      rw [operand_of_not_letter hR hr]
      exact numeral_ok_iff.mpr hvalue

/-- A statement says an instruction, its mnemonic in letters of either case. -/
inductive Says (statement : List Char) : Instruction → Prop where
  | intro {name : List Char} {operands : List (List Char)} {i : Instruction} :
      Text.words statement = name :: operands →
      String.ofList (lowerAscii name) = i.mnemonic → operands.Forall₂ Denotes i.operands →
      Says statement i

theorem Says.words {i : Instruction} (h : Says statement i) : Text.words statement ≠ [] := by
  cases h with
  | intro hwords => rw [hwords]; exact List.cons_ne_nil _ _

theorem statementWords_of_blank (h : Text.words statement = []) :
    statementWords statement = .ok [] := by
  rw [statementWords, h]

theorem Says.statementWords_eq {i : Instruction} (h : Says statement i) :
    statementWords statement = .ok (Item.instruction i).words := by
  cases h with
  | @intro name operands _ hwords hname hoperands =>
    have hop : Opcode.ofMnemonic? (String.ofList (lowerAscii name)) = some i.opcode := by
      rw [hname]
      exact Opcode.ofMnemonic?_mnemonic i.opcode
    have hcount : operands.length = i.opcode.arity :=
      hoperands.length_eq.trans i.length_operands
    have hvalues : operands.mapM operand = .ok i.operands := by
      rw [mapM_ok_iff]
      exact hoperands.imp fun _ _ => operand_ok_iff.mpr
    simp only [statementWords, hwords, hop, hcount, hvalues]
    rfl

theorem exists_said (h : statementWords statement = .ok ws) (hne : Text.words statement ≠ []) :
    ∃ i, Says statement i ∧ ws = (Item.instruction i).words := by
  obtain ⟨name, operands, hwords⟩ := List.exists_cons_of_ne_nil hne
  simp only [statementWords, hwords] at h
  cases hop : Opcode.ofMnemonic? (String.ofList (lowerAscii name)) with
  | none =>
    rw [hop] at h
    contradiction
  | some op =>
    have hname : op.mnemonic = String.ofList (lowerAscii name) := by
      simpa using List.find?_some hop
    by_cases hcount : operands.length = op.arity
    · cases hvalues : operands.mapM operand with
      | error e =>
        simp only [hop, hcount, hvalues] at h
        contradiction
      | ok values =>
        have hdenote : operands.Forall₂ Denotes values :=
          (mapM_ok_iff.mp hvalues).imp fun _ _ => operand_ok_iff.mp
        obtain ⟨i, rfl, rfl⟩ :=
          Instruction.exists_of_operands (hdenote.length_eq.symm.trans hcount)
        simp only [hop, hcount, hvalues] at h
        cases h
        exact ⟨i, .intro hwords hname.symm hdenote, rfl⟩
    · simp only [hop, hcount] at h
      contradiction

theorem exists_instructions {texts : List (List Char)} {blocks : List (List Int)}
    (h : texts.Forall₂ (fun statement block => statementWords statement = .ok block) blocks) :
    ∃ is, (texts.filter fun statement => Text.words statement ≠ []).Forall₂ Says is ∧
      (is.flatMap fun i => (Item.instruction i).words) = blocks.flatten := by
  induction h with
  | nil => exact ⟨[], .nil, rfl⟩
  | @cons statement block texts blocks hblock _ ih =>
    obtain ⟨is, hsays, hwords⟩ := ih
    by_cases hblank : Text.words statement = []
    · rw [statementWords_of_blank hblank] at hblock
      cases hblock
      refine ⟨is, ?_, hwords⟩
      rwa [List.filter_cons_of_neg (by simp [hblank])]
    · obtain ⟨i, hi, rfl⟩ := exists_said hblock hblank
      refine ⟨i :: is, ?_, ?_⟩
      · rw [List.filter_cons_of_pos (by simp [hblank])]
        exact .cons hi hsays
      · rw [List.flatMap_cons, hwords, List.flatten_cons]

end Instructions

end Listing

end WordMachine
