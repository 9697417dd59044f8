import WordMachine.Memory.HexDump
import WordMachine.Proofs.CellRuns
import WordMachine.Proofs.InlineText
import WordMachine.Proofs.ListingPartition
import WordMachine.Proofs.MemoryTable
import WordMachine.Proofs.TextFile

/-!
Hex dumps are read back. Every row has its columns where they are in all rows, whatever stands in
the cells and however few of them are left for the last row, and the words that are read in the rows
are those of the cells that have been asked for.
-/
namespace WordMachine

namespace Text

section Hex

def hexChar (k : Nat) : Char := k.digitChar.toUpper

def isHexCapital (c : Char) : Bool := c.isDigit || (65 ≤ c.toNat && c.toNat ≤ 70)

/-- The number that is written in exactly four hexadecimal digits, in capitals. -/
def fourDigits? (word : List Char) : Option Int :=
  if word.length = 4 ∧ word.all isHexCapital then (digits? 16 word).map fun n => (n : Int) else none

/-- The digits of a number, filled up with zeros. -/
def hexField (width n : Nat) : List Char :=
  List.replicate (width - (hexDigits n).length) '0' ++ hexDigits n

theorem hexChar_cases {k : Nat} (h : k < 16) :
    isHexCapital (hexChar k) = true ∧ digitValue? 16 (hexChar k) = some k ∧ hexChar k ≠ '_' ∧
      isBlank (hexChar k) = false := by
  have hall : ∀ k ∈ List.range 16, isHexCapital (hexChar k) = true ∧
      digitValue? 16 (hexChar k) = some k ∧ hexChar k ≠ '_' ∧ isBlank (hexChar k) = false := by
    decide
  exact hall k (List.mem_range.mpr h)

theorem moreDigits_hexChar {k : Nat} (h : k < 16) (value : Nat) (rest : List Char) :
    moreDigits 16 value (hexChar k :: rest) = moreDigits 16 (value * 16 + k) rest := by
  obtain ⟨-, hvalue, hne, -⟩ := hexChar_cases h
  rw [moreDigits.eq_3 _ _ _ _ fun _ _ heq => absurd heq hne, hvalue]
  rfl

theorem hexDigits_of_lt {n : Nat} (h : n < 16) : hexDigits n = [hexChar n] := by
  rw [hexDigits, Nat.toDigits_of_lt_base h]
  rfl

theorem hexDigits_of_le {n : Nat} (h : 16 ≤ n) :
    hexDigits n = hexDigits (n / 16) ++ [hexChar (n % 16)] := by
  rw [hexDigits, Nat.toDigits_of_base_le (by decide) h, List.map_append]
  rfl

theorem hexField_one {n : Nat} (h : n < 16) : hexField 1 n = [hexChar n] := by
  simp [hexField, hexDigits_of_lt h]

theorem hexField_succ {width : Nat} (hwidth : 0 < width) (n : Nat) :
    hexField (width + 1) n = hexField width (n / 16) ++ [hexChar (n % 16)] := by
  by_cases hn : n < 16
  · have hrest : n / 16 = 0 := by omega
    have hzero : hexChar 0 = '0' := by decide
    obtain ⟨width, rfl⟩ := Nat.exists_eq_succ_of_ne_zero hwidth.ne'
    rw [hrest, Nat.mod_eq_of_lt hn, hexField, hexField, hexDigits_of_lt hn,
      hexDigits_of_lt (by decide), hzero]
    simp [List.replicate_succ']
  · simp [hexField, hexDigits_of_le (Nat.le_of_not_lt hn)]

theorem hexField_four {n : Nat} (h : n < 65536) : hexField 4 n =
    [hexChar (n / 4096), hexChar (n / 256 % 16), hexChar (n / 16 % 16), hexChar (n % 16)] := by
  rw [hexField_succ (by decide), hexField_succ (by decide), hexField_succ (by decide),
    hexField_one (by omega)]
  simp [Nat.div_div_eq_div_mul]

theorem length_hexField_four {n : Nat} (h : n < 65536) : (hexField 4 n).length = 4 := by
  simp [hexField_four h]

theorem exists_hexChar {n : Nat} (h : n < 65536) {c : Char} (hc : c ∈ hexField 4 n) :
    ∃ k < 16, c = hexChar k := by
  rw [hexField_four h] at hc
  simp only [List.mem_cons, List.not_mem_nil, or_false] at hc
  obtain rfl | rfl | rfl | rfl := hc
  all_goals exact ⟨_, by omega, rfl⟩

theorem not_blank_of_mem_hexField {n : Nat} (h : n < 65536) :
    ∀ c ∈ hexField 4 n, isBlank c = false := by
  intro c hc
  obtain ⟨k, hk, rfl⟩ := exists_hexChar h hc
  exact (hexChar_cases hk).2.2.2

theorem toList_hex4 (n : Nat) : (hex4 n).toList = hexField 4 n := by
  have hsign : ¬(n : Int) < 0 := by omega
  simp [hex4, hsign, hexField]

theorem fourDigits?_hexField {n : Nat} (h : n < 65536) :
    fourDigits? (hexField 4 n) = some (n : Int) := by
  have hfirst : n / 4096 < 16 := by omega
  have hmod (k : Nat) : k % 16 < 16 := by omega
  have hread : digits? 16 (hexField 4 n) = some n := by
    rw [hexField_four h, digits?, (hexChar_cases hfirst).2.1, Option.bind_eq_bind,
      Option.bind_some, moreDigits_hexChar (hmod _), moreDigits_hexChar (hmod _),
      moreDigits_hexChar (hmod _), moreDigits]
    congr 1
    omega
  have hcapitals : (hexField 4 n).all isHexCapital = true := by
    apply List.all_eq_true.mpr
    intro c hc
    obtain ⟨k, hk, rfl⟩ := exists_hexChar h hc
    exact (hexChar_cases hk).1
  rw [fourDigits?, if_pos ⟨length_hexField_four h, hcapitals⟩, hread]
  rfl

end Hex

theorem length_intercalate {c : Char} {n : Nat} {pieces : List (List Char)}
    (h : ∀ piece ∈ pieces, piece.length = n) :
    ([c].intercalate pieces).length = (n + 1) * pieces.length - 1 := by
  induction pieces with
  | nil => rfl
  | cons piece rest ih =>
    have hpiece := h piece List.mem_cons_self
    have hrest := ih fun other hother => h other (List.mem_cons_of_mem _ hother)
    cases rest with
    | nil => simp [hpiece]
    | cons next rest =>
      rw [List.intercalate_cons_cons, List.length_append, List.length_append, hrest, hpiece]
      simp only [List.length_cons, List.length_nil, Nat.mul_add]
      omega

end Text

namespace Memory

open Text

section Columns

def addressColumn (row : List Char) : List Char := row.take 5

def hexColumn (row : List Char) : List Char := (row.drop 7).take 39

def textColumn (row : List Char) : List Char := row.drop 48

def hexWords (row : List Char) : List (Option Int) := (words (hexColumn row)).map fourDigits?

def shownChar (w : Int) : Char := if 0x20 ≤ w ∧ w ≤ 0x7E then Char.ofNat w.toNat else '.'

structure IsRow (row : List Char) (address : Int) (ws : List Int) : Prop where
  columns : row = addressColumn row ++ [' ', ' '] ++ hexColumn row ++ [' ', ' '] ++ textColumn row
  address : addressColumn row = (padLeft 5 (toString address)).toList
  address_length : (addressColumn row).length = 5
  hex : hexWords row = ws.map some
  hex_length : (hexColumn row).length = 39
  text : textColumn row = ws.map shownChar

structure Dumps (m : Memory) (start : Int) (n : Nat) (rows : List (List Char)) : Prop where
  length : rows.length = (n + 7) / 8
  row : ∀ k (h : k < rows.length),
    IsRow rows[k] (start + 8 * k) (m.cellRun (start + 8 * k) (min 8 (n - 8 * k)))
  words : rows.flatMap hexWords = (m.cellRun start n).map some

theorem charOf_eq (w : Word) : charOf w = shownChar w.toNat := by
  have hbounds : (0x20 ≤ w ∧ w < 0x7F) ↔ (0x20 ≤ (w.toNat : Int) ∧ (w.toNat : Int) ≤ 0x7E) := by
    rw [UInt16.le_iff_toNat_le, UInt16.lt_iff_toNat_lt]
    simp only [UInt16.reduceToNat]
    omega
  simp only [charOf, shownChar, hbounds, Int.toNat_natCast]

theorem isRow_of_columns {row first second third : List Char} {a : Int} {ws : List Int}
    (hrow : row = first ++ [' ', ' '] ++ second ++ [' ', ' '] ++ third)
    (hfirst : first = (padLeft 5 (toString a)).toList) (hlength : first.length = 5)
    (hsecond : (words second).map fourDigits? = ws.map some) (hlength' : second.length = 39)
    (hthird : third = ws.map shownChar) : IsRow row a ws := by
  have haddress : addressColumn row = first := by simp [addressColumn, hrow, ← hlength]
  have hhex : hexColumn row = second := by
    simp [hexColumn, hrow, List.drop_append, List.take_append, hlength, hlength']
  have htext : textColumn row = third := by
    have hfront : (first ++ [' ', ' '] ++ second ++ [' ', ' ']).length = 48 := by
      simp [hlength, hlength']
    rw [textColumn, hrow, List.drop_append, List.drop_of_length_le (by omega), hfront]
    rfl
  constructor
  · rw [haddress, hhex, htext]
    exact hrow
  · rw [haddress, hfirst]
  · rw [haddress, hlength]
  · rw [hexWords, hhex, hsecond]
  · rw [hhex, hlength']
  · rw [htext, hthird]

def hexText (ws : List Word) : List Char :=
  (padRight 39 (" ".intercalate (ws.map fun w => hex4 w.toNat))).toList

theorem toList_hexes (ws : List Word) :
    (" ".intercalate (ws.map fun w => hex4 w.toNat)).toList =
      [' '].intercalate (ws.map fun w => hexField 4 w.toNat) := by
  rw [String.toList_intercalate, List.map_map]
  exact congrArg _ (List.map_congr_left fun w _ => toList_hex4 w.toNat)

theorem words_hexText (ws : List Word) :
    (words (hexText ws)).map fourDigits? = ws.map fun w => some (w.toNat : Int) := by
  have hblanks (n : Nat) : ∀ c ∈ (blanks n).toList, isBlank c = true := by
    intro c hc
    rw [blanks, String.toList_ofList] at hc
    rw [List.eq_of_mem_replicate hc]
    rfl
  have hpieces : ∀ piece ∈ ws.map fun w => hexField 4 w.toNat,
      piece ≠ [] ∧ ∀ c ∈ piece, isBlank c = false := by
    intro piece hpiece
    obtain ⟨w, -, rfl⟩ := List.mem_map.mp hpiece
    refine ⟨fun hnil => ?_, not_blank_of_mem_hexField w.toNat_lt⟩
    simpa [hnil] using length_hexField_four w.toNat_lt
  rw [hexText, padRight, String.toList_append, words_append_blanks (hblanks _), toList_hexes,
    words_intercalate rfl hpieces, List.map_map]
  apply List.map_congr_left
  intro w _
  exact fourDigits?_hexField w.toNat_lt

theorem length_hexText {ws : List Word} (hws : ws.length ≤ 8) : (hexText ws).length = 39 := by
  have hpieces : ∀ piece ∈ ws.map fun w => hexField 4 w.toNat, piece.length = 4 := by
    intro piece hpiece
    obtain ⟨w, -, rfl⟩ := List.mem_map.mp hpiece
    exact length_hexField_four w.toNat_lt
  have hwidth : (" ".intercalate (ws.map fun w => hex4 w.toNat)).length ≤ 39 := by
    rw [← String.length_toList, toList_hexes, length_intercalate hpieces, List.length_map]
    omega
  rw [hexText, String.length_toList, length_padRight]
  omega

theorem isRow_dumpLine {address : Nat} (ha : address < 32768) {ws : List Word}
    (hws : ws.length ≤ 8) :
    IsRow (dumpLine address ws).toList address (ws.map fun w => (w.toNat : Int)) := by
  have hdigits : (toString address).length ≤ 5 := by
    rw [← String.length_toList, Nat.toString_eq_ofList_toDigits, String.toList_ofList]
    exact (Nat.length_toDigits_le_iff (by decide) (by decide)).mpr (by omega)
  have hcolumns : (dumpLine address ws).toList = (padLeft 5 (toString address)).toList ++
      [' ', ' '] ++ hexText ws ++ [' ', ' '] ++ ws.map charOf := by
    simp [dumpLine, hexText]
  refine isRow_of_columns hcolumns rfl ?_ ?_ (length_hexText hws) ?_
  · rw [String.length_toList, length_padLeft]
    omega
  · rw [words_hexText, List.map_map]
    rfl
  · rw [List.map_map]
    exact List.map_congr_left fun w _ => charOf_eq w

theorem isInline_dumpLine (address : Nat) (ws : List Word) : IsInline (dumpLine address ws) := by
  have hgap : IsInline "  " := by decide
  have hhexes : IsInline (" ".intercalate (ws.map fun w => hex4 w.toNat)) := by
    refine IsInline.intercalate (by decide) fun s hs c hc => ?_
    obtain ⟨w, -, rfl⟩ := List.mem_map.mp hs
    rw [toList_hex4] at hc
    have hblank := not_blank_of_mem_hexField w.toNat_lt c hc
    constructor <;> rintro rfl <;> simp [isBlank] at hblank
  have hchars : IsInline (String.ofList (ws.map charOf)) := by
    intro c hc
    rw [String.toList_ofList] at hc
    obtain ⟨w, -, rfl⟩ := List.mem_map.mp hc
    rw [charOf]
    split
    next hw =>
      have hlow : 0x20 ≤ w.toNat := UInt16.le_iff_toNat_le.mp hw.1
      have hvalue := toNat_ofNat_cases w.toNat
      have hfeed : '\n'.toNat = 10 := rfl
      have htab : '\t'.toNat = 9 := rfl
      constructor <;> intro heq <;> rw [heq] at hvalue <;> omega
    next => decide
  exact ((((IsInline.ofNat address).padLeft 5).append hgap).append (hhexes.padRight 39)).append
    hgap |>.append hchars

end Columns

section Rows

theorem flatMap_chunks {α : Type} (l : List α) (n q : Nat) :
    (List.range q).flatMap (fun k => (l.drop (n * k)).take n) = l.take (n * q) := by
  induction q with
  | zero => rfl
  | succ q ih =>
    rw [List.range_succ, List.flatMap_append, ih, List.flatMap_singleton, Nat.mul_succ,
      List.take_add]

theorem take_drop_cellRun (m : Memory) (a : Int) (n j k : Nat) :
    ((m.cellRun a n).drop j).take k = m.cellRun (a + j) (min k (n - j)) := by
  apply List.ext_getElem
  · simp
  · intro i hi hi'
    simp [getElem_cellRun, Int.add_assoc]

theorem dumpLines_eq (address : Nat) (ws : List Word) :
    dumpLines address ws = (List.range ((ws.length + 7) / 8)).map fun k =>
      dumpLine (address + 8 * k) ((ws.drop (8 * k)).take 8) := by
  fun_induction dumpLines address ws with
  | case1 => rfl
  | case2 address w ws ih =>
    have hcount : ((w :: ws).length + 7) / 8 = (((w :: ws).drop 8).length + 7) / 8 + 1 := by
      simp only [List.length_drop, List.length_cons]
      omega
    rw [ih, hcount, List.range_succ_eq_map, List.map_cons, List.map_map, Nat.mul_zero, Nat.add_zero,
      List.drop_zero]
    refine congrArg _ (List.map_congr_left fun k _ => ?_)
    simp only [Function.comp_apply, List.drop_drop, Nat.mul_succ, Nat.add_assoc, Nat.add_comm 8]

variable {m : Memory} {i n : Nat}

theorem dumps_dumpLines (h : i + n ≤ 32768) :
    Dumps m i n ((dumpLines i (m.window i (i + n))).map String.toList) := by
  have hrun := map_window (m := m) h
  have hlength : (m.window i (i + n)).length = n := by
    rw [← List.length_map, hrun, length_cellRun]
  have hchunk (k : Nat) :
      (((m.window i (i + n)).drop (8 * k)).take 8).map (fun w => (w.toNat : Int)) =
        m.cellRun (i + 8 * k) (min 8 (n - 8 * k)) := by
    rw [List.map_take, List.map_drop, hrun, take_drop_cellRun]
    rfl
  have hrow (k : Nat) (hk : 8 * k < n) : IsRow
      (dumpLine (i + 8 * k) (((m.window i (i + n)).drop (8 * k)).take 8)).toList
      (i + 8 * k) (m.cellRun (i + 8 * k) (min 8 (n - 8 * k))) := by
    rw [← hchunk]
    exact isRow_dumpLine (by omega) (List.length_take_le ..)
  rw [dumpLines_eq, hlength, List.map_map]
  constructor
  · simp
  · intro k hk
    rw [List.length_map, List.length_range] at hk
    simp only [List.getElem_map, List.getElem_range, Function.comp_apply]
    exact hrow k (by omega)
  · rw [List.flatMap_map]
    have hall : m.cellRun i n = (m.cellRun i n).take (8 * ((n + 7) / 8)) :=
      (List.take_of_length_le (by rw [length_cellRun]; omega)).symm
    rw [hall, ← flatMap_chunks, List.map_flatMap]
    apply List.flatMap_congr
    intro k hk
    rw [List.mem_range] at hk
    rw [take_drop_cellRun]
    exact (hrow k (by omega)).hex

theorem window_of_le {last : Nat} (h : last ≤ i) : m.window i last = [] := by
  simp [window]
  omega

theorem streamLines_dumpLines (address : Nat) (ws : List Word) :
    streamLines ("\n".intercalate (dumpLines address ws)).toList =
      (dumpLines address ws).map String.toList := by
  rw [String.toList_intercalate]
  apply streamLines_intercalate
  intro row hrow
  obtain ⟨line, hline, rfl⟩ := List.mem_map.mp hrow
  rw [dumpLines_eq] at hline
  obtain ⟨k, -, rfl⟩ := List.mem_map.mp hline
  exact ⟨by simp [dumpLine], fun hmem => (isInline_dumpLine _ _ _ hmem).1 rfl⟩

theorem hexDump_of_isAddress {start : Int} (h : IsAddress start) (count : Int) :
    ∃ dump, m.hexDump start count = .ok dump ∧
      Dumps m start (min (start + count) 32768 - start).toNat (streamLines dump.toList) ∧
      (min (start + count) 32768 ≤ start → dump = "") := by
  obtain ⟨i, rfl⟩ := Int.eq_ofNat_of_zero_le h.1
  have hi : i < 32768 := by omega
  have hcheck : checkAddress i = .ok ⟨i, hi⟩ := checkAddress_ok_iff.mpr rfl
  have hdump : m.hexDump i count =
      .ok ("\n".intercalate (dumpLines i (m.window i (min (i + count) 32768).toNat))) := by
    rw [hexDump, hcheck]
    rfl
  have hend : min (i + count) 32768 ≤ 32768 := Int.min_le_right ..
  generalize min ((i : Int) + count) 32768 = last at hdump hend ⊢
  refine ⟨_, hdump, ?_, fun hle => ?_⟩
  · have hwindow : m.window i last.toNat = m.window i (i + (last - i).toNat) := by
      by_cases hle : last ≤ i
      · rw [window_of_le (by omega), window_of_le (by omega)]
      · have hend' : last.toNat = i + (last - i).toNat := by omega
        rw [hend']
    rw [streamLines_dumpLines, hwindow]
    exact dumps_dumpLines (by omega)
  · rw [window_of_le (by omega), dumpLines]
    rfl

/-- What a hex dump gives: from an address on rows that show the cells asked for, as far as there
are any, and from an address that does not exist a failure, which is reported if the address can be
written. -/
theorem hexDump_reads_back (m : Memory) (start count : Int) :
    (IsAddress start → ∃ dump, m.hexDump start count = .ok dump ∧
      Dumps m start (min (start + count) 32768 - start).toNat (streamLines dump.toList) ∧
      (min (start + count) 32768 ≤ start → dump = "")) ∧
    (¬IsAddress start → m.hexDump start count = .error (.noSuchCell start)) ∧
    (¬IsAddress start → IsWritable start → ∃ f, (Cause.noSuchCell start).report? = some f ∧
      f.kind = .outOfRangeAddress ∧ f.operand = some start) := by
  refine ⟨fun h => hexDump_of_isAddress h count, fun h => ?_, fun _ hwritable => ?_⟩
  · rw [hexDump, checkAddress_error_iff.mpr ⟨h, rfl⟩]
    rfl
  · exact ⟨_, Listing.report_noSuchCell hwritable, rfl, rfl⟩

def lastLetter : Memory := empty.setCell 32767 72

theorem lastLetter_reads_back :
    (∃ dump row, lastLetter.hexDump 32767 1000000000000 = .ok dump ∧
      streamLines dump.toList = [row] ∧ hexWords row = [some 72] ∧ textColumn row = ['H']) ∧
    lastLetter.hexDump 40 (-5) = .ok "" ∧
    lastLetter.hexDump 32768 1 = .error (.noSuchCell 32768) ∧
    ∃ f, (Cause.noSuchCell 32768).report? = some f ∧ f.kind = .outOfRangeAddress ∧
      f.operand = some 32768 := by
  have hcells : lastLetter.cellRun 32767 1 = [72] :=
    congrArg (fun w => [w]) (cell_setCell empty (by decide) (by decide) 32767)
  obtain ⟨hwithin, -, -⟩ := hexDump_reads_back lastLetter 32767 1000000000000
  obtain ⟨hnone, -, -⟩ := hexDump_reads_back lastLetter 40 (-5)
  obtain ⟨-, houtside, hreported⟩ := hexDump_reads_back lastLetter 32768 1
  have hwritable : IsWritable 32768 := isWritable_of_natAbs_lt (by decide)
  obtain ⟨dump, hdump, hdumps, -⟩ := hwithin (by decide)
  obtain ⟨row, hrow⟩ := List.length_eq_one_iff.mp hdumps.length
  obtain ⟨empty, hempty, -, hnothing⟩ := hnone (by decide)
  have hfirst : IsRow row 32767 [72] := by
    have h0 := hdumps.row 0 (by simp [hrow])
    simp only [hrow, List.getElem_cons_zero] at h0
    exact hcells ▸ h0
  refine ⟨⟨dump, row, hdump, hrow, hfirst.hex, hfirst.text⟩, ?_, houtside (by decide),
    hreported (by decide) hwritable⟩
  rw [hempty, hnothing (by decide)]

/-- From an address that is too long to be written a dump fails without a report, and there is a
command that asks for it. -/
theorem long_dump_unreported :
    ¬IsAddress (longAddress 3690) ∧
    (∃ c, empty.hexDump (longAddress 3690) 64 = .error c ∧ c.report? = none) ∧
    ∃ line, Debugger.Command.ofLine line = .ok (.mem (longAddress 3690) 64) := by
  have hlong : ¬IsWritable (longAddress 3690) := not_isWritable_longAddress (Nat.le_refl 3690)
  have houtside : ¬IsAddress (longAddress 3690) := fun h =>
    hlong (isWritable_of_natAbs_lt (by omega))
  refine ⟨houtside, ⟨.noSuchCell (longAddress 3690), ?_, ?_⟩, _, Debugger.ofLine_mem_hexPower 3690⟩
  · rw [hexDump, checkAddress_error_iff.mpr ⟨houtside, rfl⟩]
    rfl
  · rw [Cause.report?, if_neg]
    exact fun h => hlong (Listing.isReportable_noSuchCell.mp h)

end Rows

end Memory

end WordMachine
