import Mathlib.Data.List.TakeDrop
import WordMachine.Cli.Range
import WordMachine.Proofs.NumeralForm

/-!
Ranges as texts. The first hyphen of a text cuts it in two, and the text is a range if both parts
are read as numbers; since there is no hyphen in the first part, a range begins at a natural number.
Any other text is refused, and for what reason depends on whether it has a hyphen.
-/
namespace WordMachine.Cli

variable {text : String} {before after : List Char} {first last : Int} {n : Nat}

theorem parseRange_of_cut (htext : text.toList = before ++ '-' :: after) (hbefore : '-' ∉ before) :
    parseRange text = match Text.integer .marked before, Text.integer .marked after with
      | .ok first, .ok last => .ok (first, last)
      | _, _ => .error (.badNumber text) := by
  have hall : ∀ c ∈ before, (c != '-') = true := fun c hc => by
    simpa using ne_of_mem_of_not_mem hc hbefore
  have hcut : text.toList.span (· != '-') = (before, '-' :: after) := by
    rw [List.span_eq_takeWhile_dropWhile, htext, Text.takeWhile_append_of_neg (by decide),
      Text.dropWhile_append_of_neg (by decide), List.takeWhile_eq_self_iff.mpr hall,
      List.dropWhile_eq_nil_iff.mpr hall, List.nil_append]
  unfold parseRange
  generalize text.toList.span (· != '-') = cut at hcut ⊢
  subst hcut
  rfl

theorem parseRange_of_no_hyphen (h : '-' ∉ text.toList) :
    parseRange text = .error (.noHyphen text) := by
  have hall : ∀ c ∈ text.toList, (c != '-') = true := fun c hc => by
    simpa using ne_of_mem_of_not_mem hc h
  rw [parseRange, List.span_eq_takeWhile_dropWhile, List.dropWhile_eq_nil_iff.mpr hall]

/-- A range is two numerals with a hyphen between them, and the first numeral has none. -/
theorem parseRange_ok_iff : parseRange text = .ok (first, last) ↔ ∃ before after,
    text.toList = before ++ '-' :: after ∧ '-' ∉ before ∧
      Text.integer .marked before = .ok first ∧ Text.integer .marked after = .ok last := by
  constructor
  · intro h
    by_cases hhyphen : '-' ∈ text.toList
    · obtain ⟨before, after, htext, hbefore⟩ := List.eq_append_cons_of_mem hhyphen
      rw [parseRange_of_cut htext hbefore] at h
      split at h
      next hfirst hlast =>
        cases h
        exact ⟨before, after, htext, hbefore, hfirst, hlast⟩
      next => cases h
    · rw [parseRange_of_no_hyphen hhyphen] at h
      cases h
  · rintro ⟨before, after, htext, hbefore, hfirst, hlast⟩
    rw [parseRange_of_cut htext hbefore, hfirst, hlast]

/-- The two parts of a text at its first hyphen spell these numbers. -/
def Spans (text : String) (first last : Int) : Prop :=
  ∃ before after, text.toList = before ++ '-' :: after ∧ '-' ∉ before ∧
    Text.Spells before first ∧ Text.Spells after last

theorem parseRange_ok_iff_spans : parseRange text = .ok (first, last) ↔ Spans text first last := by
  simp only [parseRange_ok_iff, Text.integer_marked_ok_iff, Spans]

theorem Spans.nonneg (h : Spans text first last) : 0 ≤ first := by
  obtain ⟨before, after, -, hbefore, hfirst, -⟩ := h
  exact hfirst.nonneg hbefore

theorem parseRange_nonneg (h : parseRange text = .ok (first, last)) : 0 ≤ first :=
  (parseRange_ok_iff_spans.mp h).nonneg

theorem parseRange_of_hyphen (hhyphen : '-' ∈ text.toList)
    (h : ¬∃ first last, Spans text first last) : parseRange text = .error (.badNumber text) := by
  obtain ⟨before, after, htext, hbefore⟩ := List.eq_append_cons_of_mem hhyphen
  cases hresult : parseRange text with
  | ok range => exact absurd ⟨_, _, parseRange_ok_iff_spans.mp hresult⟩ h
  | error e =>
    rw [parseRange_of_cut htext hbefore] at hresult
    split at hresult
    · cases hresult
    · exact hresult.symm

theorem parseRange_of_numerals {core core' : List Char} {s e : Nat} (hfirst : Text.Numeral core s)
    (hlast : Text.Numeral core' e) (hbefore : Text.Surrounds before core)
    (hafter : Text.Surrounds after core') (htext : text.toList = before ++ '-' :: after) :
    parseRange text = .ok ((s : Int), (e : Int)) :=
  parseRange_ok_iff_spans.mpr ⟨before, after, htext, hbefore.not_mem_hyphen hfirst,
    ⟨core, hbefore, .bare hfirst⟩, ⟨core', hafter, .bare hlast⟩⟩

def written (s e : Nat) : String := String.ofList (Nat.toDigits 10 s ++ '-' :: Nat.toDigits 10 e)

theorem parseRange_written (s e : Nat) : parseRange (written s e) =
    match Text.integer .marked (Nat.toDigits 10 s), Text.integer .marked (Nat.toDigits 10 e) with
      | .ok first, .ok last => .ok (first, last)
      | _, _ => .error (.badNumber (written s e)) :=
  parseRange_of_cut String.toList_ofList fun hmem =>
    Bool.noConfusion (Text.isDigit_of_mem hmem)

theorem parseRange_written_iff {s e : Nat} : parseRange (written s e) = .ok ((s : Int), (e : Int)) ↔
    Text.IsWritable s ∧ Text.IsWritable e := by
  constructor
  · intro h
    rw [parseRange_written] at h
    constructor
    · by_contra hs
      rw [Text.integer_toDigits_of_long hs] at h
      cases h
    · by_contra he
      rw [Text.integer_toDigits_of_long he] at h
      cases hfirst : Text.integer .marked (Nat.toDigits 10 s) <;> rw [hfirst] at h <;> cases h
  · rintro ⟨hs, he⟩
    exact parseRange_of_numerals (Text.numeral_toDigits hs) (Text.numeral_toDigits he) (.refl _)
      (.refl _) String.toList_ofList

/-- Two numerals with white space around them are read as a range when a hyphen stands between them,
and numbers have numerals, decimal ones unless they are too long. A text is read as a range only if
the numbers stand before and behind its first hyphen, and then the first one is natural. Any other
text is refused. -/
theorem ranges_read_or_refused (text : String) :
    (∀ (s e : Nat) (first last before after : List Char), Text.Numeral first s →
      Text.Numeral last e → Text.Surrounds before first → Text.Surrounds after last →
      text.toList = before ++ '-' :: after → parseRange text = .ok ((s : Int), (e : Int))) ∧
    (∀ s e, parseRange text = .ok (s, e) ↔ Spans text s e) ∧
    (∀ s e, parseRange text = .ok (s, e) → 0 ≤ s) ∧
    ((∀ s e, parseRange text ≠ .ok (s, e)) → ∃ r, parseRange text = .error r ∧
      r.message = (if '-' ∈ text.toList then "bad range " else "expected START-END, got ") ++
        Text.quoted text) ∧
    (∀ n : Nat, Text.IsWritable n → Text.Numeral (Nat.toDigits 10 n) n) ∧
    (∀ mark base n, Text.markedBase? mark = some base →
      Text.Numeral ('0' :: mark :: Nat.toDigits base n) n) ∧
    (∀ s e : Nat, parseRange (written s e) = .ok ((s : Int), (e : Int)) ↔
      Text.IsWritable s ∧ Text.IsWritable e) := by
  refine ⟨fun s e first last before after => parseRange_of_numerals,
    fun s e => parseRange_ok_iff_spans, fun s e => parseRange_nonneg, fun hnone => ?_,
    fun n => Text.numeral_toDigits, fun mark base n hmark => Text.numeral_marked_toDigits hmark n,
    fun s e => parseRange_written_iff⟩
  have hspans : ¬∃ s e, Spans text s e := fun ⟨s, e, h⟩ =>
    hnone s e (parseRange_ok_iff_spans.mpr h)
  by_cases hhyphen : '-' ∈ text.toList
  · exact ⟨_, parseRange_of_hyphen hhyphen hspans, by rw [if_pos hhyphen]; rfl⟩
  · exact ⟨_, parseRange_of_no_hyphen hhyphen, by rw [if_neg hhyphen]; rfl⟩

theorem wide_range_read : Text.Numeral ['٠', 'X', '_', 'f', 'F'] 255 ∧
    Text.Numeral ['1', '_', '0'] 10 ∧ parseRange "\u2003٠X_fF\t-\n1_0" = .ok (255, 10) := by
  have hfigures : Text.Digits 16 ['f', 'F'] [15, 15] :=
    .next rfl (by decide) (.last rfl (by decide))
  have htens : Text.Digits 10 ['1', '_', '0'] [1, 0] :=
    .spaced rfl (by decide) (.last rfl (by decide))
  have hfirst : Text.Numeral ['٠', 'X', '_', 'f', 'F'] 255 := .spaced rfl rfl hfigures
  have hlast : Text.Numeral ['1', '_', '0'] 10 := .decimal htens (by decide) (by decide)
  have hspaced : Text.Surrounds ['\u2003', '٠', 'X', '_', 'f', 'F', '\t']
      ['٠', 'X', '_', 'f', 'F'] :=
    ⟨['\u2003'], ['\t'], rfl, List.forall_mem_singleton.mpr rfl, List.forall_mem_singleton.mpr rfl⟩
  have hlined : Text.Surrounds ['\n', '1', '_', '0'] ['1', '_', '0'] :=
    ⟨['\n'], [], rfl, List.forall_mem_singleton.mpr rfl, nofun⟩
  exact ⟨hfirst, hlast, (ranges_read_or_refused _).1 255 10 _ _ _ _ hfirst hlast hspaced hlined rfl⟩

/-- A separator control is white space, yet may not stand around a numeral, and a decimal may be too
long. -/
theorem control_and_long_decimal_refused :
    (Text.isBlank '\x1c' = true ∧ parseRange "\x1c5-6" = .error (.badNumber "\x1c5-6")) ∧
      parseRange (written Text.unwritable 0) = .error (.badNumber (written Text.unwritable 0)) := by
  refine ⟨⟨by decide, by decide +kernel⟩, ?_⟩
  rw [parseRange_written, Text.integer_toDigits_of_long Text.not_isWritable_unwritable]

end WordMachine.Cli
