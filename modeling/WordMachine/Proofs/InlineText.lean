import WordMachine.Listing.Disassembly
import WordMachine.Proofs.NumeralText

/-!
Texts that stay on their line. Numbers do, names of registers do, and a listing is written so that
each of its lines does, whatever characters its program puts out.
-/
namespace WordMachine

namespace Text

variable {s t : String}

/-- A text that stays on its line and is shown as it is. -/
def IsInline (s : String) : Prop := ∀ c ∈ s.toList, c ≠ '\n' ∧ c ≠ '\t'

instance : DecidablePred IsInline := fun s =>
  List.decidableBAll (fun c => c ≠ '\n' ∧ c ≠ '\t') s.toList

namespace IsInline

theorem append (h : IsInline s) (h' : IsInline t) : IsInline (s ++ t) := by
  intro c hc
  rw [String.toList_append, List.mem_append] at hc
  exact hc.elim (h c) (h' c)

theorem intercalate {sep : String} {texts : List String} (hsep : IsInline sep)
    (h : ∀ s ∈ texts, IsInline s) : IsInline (sep.intercalate texts) := by
  induction texts with
  | nil =>
    have hempty : IsInline "" := by decide
    exact hempty
  | cons s rest ih =>
    have hs := h s List.mem_cons_self
    have hrest := ih fun t ht => h t (List.mem_cons_of_mem _ ht)
    cases rest with
    | nil => simpa using hs
    | cons t rest =>
      rw [String.intercalate_cons_cons]
      exact (hs.append hsep).append hrest

theorem ofBlanks (n : Nat) : IsInline (blanks n) := by
  intro c hc
  rw [blanks, String.toList_ofList] at hc
  obtain rfl := List.eq_of_mem_replicate hc
  exact ⟨by decide, by decide⟩

theorem padLeft (h : IsInline s) (width : Nat) : IsInline (padLeft width s) :=
  (ofBlanks _).append h

theorem padRight (h : IsInline s) (width : Nat) : IsInline (padRight width s) :=
  h.append (ofBlanks _)

theorem ofNat (n : Nat) : IsInline (toString n) := by
  intro c hc
  rw [Nat.toString_eq_ofList_toDigits, String.toList_ofList] at hc
  have hdigit := isDigit_of_mem hc
  exact ⟨ne_of_isDigit hdigit (by decide), ne_of_isDigit hdigit (by decide)⟩

theorem ofInt (x : Int) : IsInline (toString x) := by
  have hminus : IsInline "-" := by decide
  cases x with
  | ofNat n => exact ofNat n
  | negSucc n => exact hminus.append (ofNat n.succ)

theorem registerName (x : Int) : IsInline (registerName x) := by
  have hletter : IsInline "R" := by decide
  unfold WordMachine.registerName
  split
  · exact hletter.append (ofInt _)
  · exact ofInt x

end IsInline

end Text

theorem Opcode.isInline_mnemonic (op : Opcode) : Text.IsInline op.mnemonic := by
  cases op <;> decide

namespace Listing

open Text

theorem isInline_quoted : ∀ n : Fin 127, 32 ≤ n.val →
    IsInline (quoted (Char.ofNat n.val).toString) := by
  decide +kernel

namespace Item

theorem isInline_mnemonic (item : Item) : IsInline item.mnemonic := by
  have hdata : IsInline ".word" := by decide
  cases item with
  | instruction i => exact i.opcode.isInline_mnemonic
  | data word => exact hdata

theorem isInline_operandText (item : Item) : IsInline item.operandText := by
  unfold operandText
  split
  next a =>
    split
    next hvisible =>
      have hn : a.toNat < 127 := by omega
      exact isInline_quoted ⟨a.toNat, hn⟩ (by dsimp only; omega)
    next =>
      split
      · decide
      · exact .registerName a
  next =>
    have hspace : IsInline " " := by decide
    refine hspace.intercalate fun s hs => ?_
    obtain ⟨x, -, rfl⟩ := List.mem_map.mp hs
    exact .registerName x

end Item

/-- A line of a listing is a line: nothing in it ends it early. -/
theorem Line.isInline_text (line : Line) : IsInline line.text := by
  have hspace : IsInline " " := by decide
  have hcolon : IsInline ": " := by decide
  have hfull := (((((IsInline.ofInt line.address).padLeft 5).append hcolon).append
    (line.item.isInline_mnemonic.padRight 5)).append hspace).append line.item.isInline_operandText
  intro c hc
  rw [Line.text, String.toList_ofList, trimRight, List.mem_reverse] at hc
  exact hfull c (List.mem_reverse.mp ((List.dropWhile_sublist _).mem hc))

end Listing

end WordMachine
