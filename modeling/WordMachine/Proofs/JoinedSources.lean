import WordMachine.Proofs.SourceLayout

/-!
Joined sources. What is assembled is assembled statement by statement, so a source that is put
together from two gives the words of the one and those of the other, or the first error, and the
words of a source are one block for each statement that is not blank. How a statement is spelled
makes no difference.
-/
namespace WordMachine.Listing

open Text

variable {a b s t statement : List Char} {block : List Int}

theorem assemble_joined {sep : Char} {us vs : List Int} (hsep : isSeparator sep = true)
    (ha : assemble a = .ok us) (hb : assemble b = .ok vs) :
    assemble (a ++ sep :: b) = .ok (us ++ vs) := by
  rw [assemble_append hsep, ha, hb]
  rfl

theorem assemble_joined_error {sep : Char} {e : AssemblyError} (hsep : isSeparator sep = true)
    (ha : assemble a = .error e) (b : List Char) : assemble (a ++ sep :: b) = .error e := by
  rw [assemble_append hsep, ha]
  rfl

theorem assemble_joined_later_error {sep : Char} {us : List Int} {e : AssemblyError}
    (hsep : isSeparator sep = true) (ha : assemble a = .ok us) (hb : assemble b = .error e) :
    assemble (a ++ sep :: b) = .error e := by
  rw [assemble_append hsep, ha, hb]
  rfl

/-- Sources that are spelled differently, in as many places as one likes, give the same words if one
of them is accepted. -/
theorem toOption_assemble_congr (h : Relation.EqvGen Respells s t) :
    (assemble s).toOption = (assemble t).toOption := by
  induction h with
  | rel s t hspelling => rw [toOption_assemble, toOption_assemble, hspelling.layout_eq]
  | refl s => rfl
  | symm s t _ ih => exact ih.symm
  | trans s t u _ _ ih ih' => exact ih.trans ih'

/-- The words of a statement: the number of its opcode and, as many as the opcode takes, what the
operands mean. -/
inductive IsBlock (statement : List Char) : List Int → Prop where
  | intro {name : List Char} {operands : List (List Char)} {op : Opcode} {values : List Int} :
      words statement = name :: operands → String.ofList (lowerAscii name) = op.mnemonic →
      values.length = op.arity → operands.Forall₂ Denotes values →
      IsBlock statement (op.code :: values)

theorem Says.isBlock {i : Instruction} (h : Says statement i) :
    IsBlock statement (Item.instruction i).words := by
  cases h with
  | intro hwords hname hoperands =>
    exact .intro hwords hname i.length_operands hoperands

theorem exists_blocks {ws : List Int} (h : assemble s = .ok ws) : ∃ blocks,
    ((statements s).filter fun statement => words statement ≠ []).Forall₂ IsBlock blocks ∧
      blocks.flatten = ws := by
  obtain ⟨given, hgiven, rfl⟩ := assemble_ok_iff.mp h
  obtain ⟨is, hgives, hwords⟩ := exists_instructions hgiven
  refine ⟨is.map fun i => (Item.instruction i).words, ?_, ?_⟩
  · exact List.forall₂_map_right_iff.mpr (hgives.imp fun _ _ => Says.isBlock)
  · rw [← hwords, List.flatMap_def]

theorem IsBlock.shape (h : IsBlock statement block) : ∃ (op : Opcode) (values : List Int),
    block = (op.code : Int) :: values ∧ op.code ≤ 21 ∧ Opcode.ofWord? op.code = some op ∧
      values.length = op.arity := by
  cases h with
  | @intro _ _ op values _ _ hlength _ =>
    exact ⟨op, values, rfl, op.code_le, op.ofWord?_code, hlength⟩

theorem denotes_register_iff {letter : Char} (hletter : letter = 'R' ∨ letter = 'r') {k : Nat}
    (hk : k < 8) {value : Int} :
    Denotes (letter :: Nat.toDigits 10 k) value ↔ value = 32768 + k := by
  have hindex : integer .ten (Nat.toDigits 10 k) = .ok (k : Int) :=
    integer_toDigits .ten (by decide) (isWritable_of_natAbs_lt (by omega))
  constructor
  · intro h
    cases h with
    | register _ hread =>
      rw [hindex] at hread
      rw [Except.ok.inj hread]
    | literal hR hr => exact (hletter.elim (fun h => hR (h ▸ rfl)) fun h => hr (h ▸ rfl)).elim
  · rintro rfl
    exact .register hletter hindex (by omega) (by omega)

/-- Assembling goes statement by statement. Joined at a separator, two accepted sources give the
words of the first and then those of the second; otherwise the error of the first is reported, or
that of the second if there is none in the first. Spelling is neither a reason for an error nor of
consequence for the words. What an accepted source gives consists of blocks, one for each statement
that is not blank: an opcode of the table and as many words as it takes operands, registers by their
numbers. -/
theorem assembling_composes (source : List Char) :
    (∀ other sep, sep = ';' ∨ sep = '\n' →
      (∀ us vs, assemble source = .ok us → assemble other = .ok vs →
        assemble (source ++ sep :: other) = .ok (us ++ vs)) ∧
      (∀ e, assemble source = .error e → assemble (source ++ sep :: other) = .error e) ∧
      ∀ us e, assemble source = .ok us → assemble other = .error e →
        assemble (source ++ sep :: other) = .error e) ∧
    (∀ other, Relation.EqvGen Respells source other →
      (assemble source).toOption = (assemble other).toOption) ∧
    (∀ ws, assemble source = .ok ws → ∃ blocks,
      ((statements source).filter fun statement => words statement ≠ []).Forall₂ IsBlock blocks ∧
        blocks.flatten = ws) ∧
    (∀ statement block, IsBlock statement block → ∃ (op : Opcode) (values : List Int),
      block = (op.code : Int) :: values ∧ op.code ≤ 21 ∧ Opcode.ofWord? op.code = some op ∧
        values.length = op.arity) ∧
    ∀ letter, letter = 'R' ∨ letter = 'r' → ∀ k < 8, ∀ value,
      Denotes (letter :: Nat.toDigits 10 k) value ↔ value = 32768 + k := by
  refine ⟨fun other sep hsep => ?_, fun other => toOption_assemble_congr, fun ws => exists_blocks,
    fun statement block => IsBlock.shape, fun letter hletter k hk value =>
      denotes_register_iff hletter hk⟩
  have hseparates : isSeparator sep = true := by
    rcases hsep with rfl | rfl <;> rfl
  exact ⟨fun us vs => assemble_joined hseparates,
    fun e herror => assemble_joined_error hseparates herror other,
    fun us e => assemble_joined_later_error hseparates⟩

def pushing : List Char := ['p', 'u', 's', 'h', ' ', 'r', '1']

def pushingLoud : List Char := ['\t', '\n', 'P', 'U', 'S', 'H', ' ', ' ', 'R', '1']

theorem pushing_respelled : Relation.EqvGen Respells pushing pushingLoud := by
  have hloud : Respells pushing ['P', 'U', 'S', 'H', ' ', 'r', '1'] :=
    @Respells.mnemonic [] [' ', 'r', '1'] [] ['p', 'u', 's', 'h'] ['P', 'U', 'S', 'H'] nofun nofun
      (by simp [isBreak, isBlank, isSeparator]) (by decide)
  have hletter : Respells ['P', 'U', 'S', 'H', ' ', 'R', '1'] ['P', 'U', 'S', 'H', ' ', 'r', '1'] :=
    .letter (a := ['P', 'U', 'S', 'H', ' ']) (b := ['1']) fun c hc => by cases hc; rfl
  have hspaced : Respells ['P', 'U', 'S', 'H', ' ', 'R', '1']
      ['P', 'U', 'S', 'H', ' ', ' ', 'R', '1'] :=
    @Respells.spacing ['P', 'U', 'S', 'H', ' '] ['R', '1'] [' ']
      (.inl fun c hc => by cases hc; rfl) (by simp [IsSpacing, isBlank])
  have hbehind : Respells ['P', 'U', 'S', 'H', ' ', ' ', 'R', '1'] pushingLoud :=
    @Respells.statementBefore [] ['P', 'U', 'S', 'H', ' ', ' ', 'R', '1'] ['\t'] '\n' nofun
      (by simp [IsSpacing, isBlank]) rfl
  exact (((Relation.EqvGen.rel _ _ hloud).trans _ _ _ (.symm _ _ (.rel _ _ hletter))).trans _ _ _
    (.rel _ _ hspaced)).trans _ _ _ (.rel _ _ hbehind)

theorem pushing_composes :
    assemble (pushing ++ ';' :: ['r', 'e', 't']) = .ok [2, 32769, 18] ∧
      assemble (pushing ++ '\n' :: ['i', 'n']) = .error (.operandCount .in 0) ∧
      assemble (['i', 'n'] ++ '\n' :: pushing) = .error (.operandCount .in 0) ∧
      assemble pushingLoud = .ok [2, 32769] ∧
      (∃ blocks, [pushing].Forall₂ IsBlock blocks ∧ blocks.flatten = [2, 32769]) ∧
      Denotes ['r', '1'] 32769 := by
  have hpush : assemble pushing = .ok [2, 32769] := by decide +kernel
  have hret : assemble ['r', 'e', 't'] = .ok [18] := by decide +kernel
  have hin : assemble ['i', 'n'] = .error (.operandCount .in 0) := by decide +kernel
  have hstatements :
      (statements pushing).filter (fun statement => words statement ≠ []) = [pushing] := by
    decide +kernel
  obtain ⟨hjoins, hrespells, hblocks, -, hregister⟩ := assembling_composes pushing
  obtain ⟨hrejects, -, -, -, -⟩ := assembling_composes ['i', 'n']
  have hlater := (hjoins ['i', 'n'] '\n' (.inr rfl)).2.2 _ _ hpush hin
  have hloud := hrespells pushingLoud pushing_respelled
  rw [hpush] at hloud
  have hgiven := hblocks _ hpush
  rw [hstatements] at hgiven
  refine ⟨(hjoins ['r', 'e', 't'] ';' (.inl rfl)).1 _ _ hpush hret, hlater,
    (hrejects pushing '\n' (.inr rfl)).2.1 _ hin, ?_, hgiven,
    (hregister 'r' (.inr rfl) 1 (by decide) _).mpr rfl⟩
  cases hread : assemble pushingLoud with
  | error e =>
    rw [hread] at hloud
    cases hloud
  | ok ws =>
    rw [hread] at hloud
    cases hloud
    rfl

end WordMachine.Listing
