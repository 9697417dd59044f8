import WordMachine.Proofs.AssemblySource
import WordMachine.Proofs.ListingWalk
import WordMachine.Proofs.NumeralText
import WordMachine.Proofs.TextWords

/-!
The text of a listing. Behind its address a line has the mnemonic and then the names of the operands
as words of their own, except where it shows a character instead.
-/
namespace WordMachine

section Names

variable {c : Char} {x : Int}

theorem Text.isBlank_of_visible (h : 0x20 < c.toNat) (h' : c.toNat < 0x7F) :
    isBlank c = false := by
  simp only [isBlank, Bool.or_eq_false_iff, Bool.and_eq_false_iff, decide_eq_false_iff_not,
    beq_eq_false_iff_ne]
  omega

def IsNameChar (c : Char) : Prop :=
  Text.isBlank c = false ∧ Listing.isSeparator c = false

theorem isNameChar_of_isDigit (h : c.isDigit = true) : IsNameChar c := by
  have hc := Text.digit_bounds h
  refine ⟨Text.isBlank_of_visible (by omega) (by omega), ?_⟩
  have hsemicolon : c ≠ ';' := Text.ne_of_isDigit h (by decide)
  have hline : c ≠ '\n' := Text.ne_of_isDigit h (by decide)
  simp [Listing.isSeparator, hsemicolon, hline]

theorem toList_toString (h : 0 ≤ x) : (toString x).toList = Nat.toDigits 10 x.toNat := by
  obtain ⟨n, rfl⟩ := Int.eq_ofNat_of_zero_le h
  have hn : toString (n : Int) = toString n := rfl
  rw [hn, Nat.toString_eq_ofList_toDigits, String.toList_ofList, Int.toNat_natCast]

theorem toList_registerName (h : 0 ≤ x) : (registerName x).toList =
    if IsRegister x then 'R' :: Nat.toDigits 10 (registerIndex x).toNat
    else Nat.toDigits 10 x.toNat := by
  unfold registerName
  split
  next hr =>
    rw [String.toList_append, toList_toString (by simp only [registerIndex]; omega)]
    rfl
  next => exact toList_toString h

theorem registerName_chars (h : 0 ≤ x) :
    (registerName x).toList ≠ [] ∧ ∀ c ∈ (registerName x).toList, IsNameChar c := by
  rw [toList_registerName h]
  split
  · refine ⟨List.cons_ne_nil _ _, fun c hc => ?_⟩
    rcases List.mem_cons.mp hc with rfl | hc
    · exact ⟨by decide, by decide⟩
    · exact isNameChar_of_isDigit (Text.isDigit_of_mem hc)
  · exact ⟨Nat.toDigits_ne_nil, fun c hc => isNameChar_of_isDigit (Text.isDigit_of_mem hc)⟩

end Names

namespace Listing

namespace Item

variable {item : Item}

theorem mnemonic_chars (item : Item) :
    item.mnemonic.toList ≠ [] ∧ ∀ c ∈ item.mnemonic.toList, IsNameChar c := by
  have hchars (text : String) (h : text.toList ≠ [] ∧
      text.toList.all (fun c => !Text.isBlank c && !isSeparator c) = true) :
      text.toList ≠ [] ∧ ∀ c ∈ text.toList, IsNameChar c := by
    refine ⟨h.1, fun c hc => ?_⟩
    simpa [IsNameChar] using List.all_eq_true.mp h.2 c hc
  have hop (op : Opcode) : op.mnemonic.toList ≠ [] ∧
      op.mnemonic.toList.all (fun c => !Text.isBlank c && !isSeparator c) = true := by
    cases op <;> decide
  cases item with
  | instruction i => exact hchars _ (hop i.opcode)
  | data word => exact hchars ".word" (by decide)

/-- An output whose operand is the number of a visible character or of a line feed. -/
def ShowsCharacter : Item → Prop
  | instruction (.out a) => a = 10 ∨ 32 ≤ a ∧ a ≤ 126
  | _ => False

theorem operandText_of_not_shows (h : ¬item.ShowsCharacter) : item.operandText.toList =
    [' '].intercalate (item.operands.map fun w => (registerName w).toList) := by
  unfold operandText
  split
  next a =>
    simp only [ShowsCharacter, not_or, not_and] at h
    rw [if_neg (by omega), if_neg h.1]
    exact List.intercalate_singleton.symm
  next => rw [String.toList_intercalate, List.map_map]; rfl

theorem operandText_of_shows (h : item.ShowsCharacter) :
    ∃ quote rest, (quote = '\'' ∨ quote = '"') ∧ item.operandText.toList = quote :: rest := by
  obtain ⟨a, rfl, ha⟩ : ∃ a, item = .instruction (.out a) ∧ (a = 10 ∨ 32 ≤ a ∧ a ≤ 126) := by
    unfold ShowsCharacter at h
    split at h
    · exact ⟨_, rfl, h⟩
    · contradiction
  by_cases hvisible : 0x20 ≤ a ∧ a < 0x7F
  · have hquoted : (instruction (.out a)).operandText =
        Text.quoted (Char.ofNat a.toNat).toString := if_pos hvisible
    rw [hquoted, Text.quoted, String.toList_append, String.toList_append, Char.toString,
      String.toList_singleton]
    refine ⟨_, _, ?_, rfl⟩
    unfold Text.quoteFor
    split
    · exact .inr rfl
    · exact .inl rfl
  · obtain rfl : a = 10 := by omega
    exact ⟨'\'', ['\\', 'n', '\''], .inl rfl, rfl⟩

def lead (item : Item) : List Char := ' ' :: (Text.padRight 5 item.mnemonic).toList ++ [' ']

theorem mem_blanks {n : Nat} {c : Char} (h : c ∈ (Text.blanks n).toList) : c = ' ' := by
  rw [Text.blanks, String.toList_ofList] at h
  exact List.eq_of_mem_replicate h

theorem words_lead (item : Item) (tail : List Char) :
    Text.words (item.lead ++ tail) = item.mnemonic.toList :: Text.words tail := by
  have hspace : Text.isBlank ' ' = true := by decide
  obtain ⟨hne, hchars⟩ := item.mnemonic_chars
  have hpadded : Text.words (Text.padRight 5 item.mnemonic).toList = [item.mnemonic.toList] := by
    have hblanks (n : Nat) : ∀ c ∈ (Text.blanks n).toList, Text.isBlank c = true := by
      intro c hc
      rw [mem_blanks hc, hspace]
    rw [Text.padRight, String.toList_append, Text.words_append_blanks (hblanks _)]
    exact Text.words_eq_singleton hne fun c hc => (hchars c hc).1
  rw [lead, List.append_assoc, List.cons_append, Text.words_cons_blank hspace,
    List.singleton_append, Text.words_append_blank hspace, hpadded, List.singleton_append]

theorem not_separator_of_mem_lead {c : Char} (h : c ∈ item.lead) : isSeparator c = false := by
  have hspace : isSeparator ' ' = false := by decide
  simp only [lead, Text.padRight, String.toList_append, List.cons_append, List.mem_cons,
    List.mem_append, List.not_mem_nil, or_false] at h
  rcases h with rfl | (h | h) | rfl
  · exact hspace
  · exact (item.mnemonic_chars.2 c h).2
  · rw [mem_blanks h, hspace]
  · exact hspace

theorem words_operandText (h : ¬item.ShowsCharacter) (hnat : ∀ w ∈ item.operands, 0 ≤ w) :
    Text.words item.operandText.toList = item.operands.map fun w => (registerName w).toList := by
  rw [operandText_of_not_shows h]
  apply Text.words_intercalate (by decide)
  intro piece hpiece
  obtain ⟨w, hw, rfl⟩ := List.mem_map.mp hpiece
  obtain ⟨hne, hchars⟩ := registerName_chars (hnat w hw)
  exact ⟨hne, fun c hc => (hchars c hc).1⟩

theorem not_separator_of_mem_operandText (h : ¬item.ShowsCharacter)
    (hnat : ∀ w ∈ item.operands, 0 ≤ w) {c : Char} (hc : c ∈ item.operandText.toList) :
    isSeparator c = false := by
  rw [operandText_of_not_shows h] at hc
  rcases Text.mem_of_mem_intercalate hc with rfl | ⟨piece, hpiece, hc⟩
  · decide
  · obtain ⟨w, hw, rfl⟩ := List.mem_map.mp hpiece
    exact ((registerName_chars (hnat w hw)).2 c hc).2

end Item

namespace Line

variable {line : Line}

def body (line : Line) : List Char := (line.text.toList.dropWhile (· ≠ ':')).tail

theorem body_eq (h : 0 ≤ line.address) :
    line.body = Text.trimRight (line.item.lead ++ line.item.operandText.toList) := by
  have haddress : ∀ c ∈ (Text.padLeft 5 (toString line.address)).toList,
      decide (c ≠ ':') = true := by
    intro c hc
    rw [Text.padLeft, String.toList_append, toList_toString h] at hc
    rcases List.mem_append.mp hc with hc | hc
    · rw [Item.mem_blanks hc]
      decide
    · exact decide_eq_true (Text.ne_of_isDigit (Text.isDigit_of_mem hc) (by decide))
  have htext : line.text.toList = (Text.padLeft 5 (toString line.address)).toList ++
      ':' :: Text.trimRight (line.item.lead ++ line.item.operandText.toList) := by
    rw [← Text.trimRight_append (by decide), text, String.toList_ofList]
    simp only [String.toList_append, Item.lead, List.append_assoc, List.cons_append]
    rfl
  rw [body, htext, Text.dropWhile_append_of_neg (by decide), List.dropWhile_eq_nil_iff.mpr haddress]
  rfl

theorem words_body (h : 0 ≤ line.address) : Text.words line.body =
    line.item.mnemonic.toList :: Text.words line.item.operandText.toList := by
  rw [body_eq h, Text.words_trimRight, Item.words_lead]

theorem statements_body (h : 0 ≤ line.address) (hshows : ¬line.item.ShowsCharacter)
    (hnat : ∀ w ∈ line.item.operands, 0 ≤ w) : statements line.body = [line.body] := by
  apply statements_eq_singleton
  intro c hc
  rw [body_eq h] at hc
  rcases List.mem_append.mp ((List.rdropWhile_prefix _ _).subset hc) with hc | hc
  · exact Item.not_separator_of_mem_lead hc
  · exact Item.not_separator_of_mem_operandText hshows hnat hc

theorem statements_body_of_shows (h : 0 ≤ line.address) (hshows : line.item.ShowsCharacter) :
    ∃ quote rest more, (quote = '\'' ∨ quote = '"') ∧
      statements line.body = (line.item.lead ++ quote :: rest) :: more := by
  obtain ⟨quote, rest, hquote, htext⟩ := Item.operandText_of_shows hshows
  have hplain : Text.isBlank quote = false ∧ isSeparator quote = false := by
    rcases hquote with rfl | rfl <;> decide
  obtain ⟨more, hmore⟩ := statements_eq_cons line.body
  refine ⟨quote, (Text.trimRight rest).takeWhile (!isSeparator ·), more, hquote, ?_⟩
  have hlead : ∀ c ∈ line.item.lead, (!isSeparator c) = true := fun c hc => by
    rw [Item.not_separator_of_mem_lead hc, Bool.not_false]
  rw [hmore, body_eq h, htext, Text.trimRight_append hplain.1,
    List.takeWhile_append_of_pos hlead, List.takeWhile_cons, hplain.2]
  rfl

end Line

end Listing

end WordMachine
