import WordMachine.CharConsole
import WordMachine.Text.Line

/-!
Text files. A file is a text exactly if its bytes are the UTF-8 of one. Cut at its line ends, a text
without carriage returns has the lines that a stream has whose line ends are all line feeds, and to
a program the lines of a stream are the text with a line feed at its very end.
-/
namespace WordMachine.Text

section Utf8

variable {bytes : List UInt8} {text : String}

theorem utf8Decode_ok_iff : utf8Decode bytes = .ok text ↔ bytes = utf8Encode text := by
  have hbytes : (⟨(utf8Encode text).toArray⟩ : ByteArray) = text.toByteArray := by
    rw [← String.utf8Encode_toList]
    exact ByteArray.ext List.data_toByteArray.symm
  unfold utf8Decode
  constructor
  · intro h
    split at h
    next read hread =>
      obtain rfl : read = text := Except.ok.inj h
      unfold String.fromUTF8? at hread
      split at hread
      next hvalid =>
        have hsame : read.toByteArray = ⟨bytes.toArray⟩ :=
          congrArg String.toByteArray (Option.some.inj hread).symm
        rw [← hbytes] at hsame
        exact (List.toArray_inj (ByteArray.mk.inj hsame)).symm
      next => contradiction
    next => contradiction
  · rintro rfl
    rw [hbytes, String.fromUTF8?, dif_pos text.isValidUTF8]
    rfl

theorem utf8Encode_append (s t : String) :
    utf8Encode (s ++ t) = utf8Encode s ++ utf8Encode t := by
  rw [utf8Encode, String.toList_append, List.flatMap_append]
  rfl

theorem utf8Encode_injective {s t : String} (h : utf8Encode s = utf8Encode t) : s = t := by
  have hs := utf8Decode_ok_iff.mpr h
  have ht := utf8Decode_ok_iff.mpr (rfl : utf8Encode s = utf8Encode s)
  exact Except.ok.inj (ht.symm.trans hs)

theorem utf8Encode_ofList (text : List Char) :
    utf8Encode (String.ofList text) = text.flatMap String.utf8EncodeChar := by
  rw [utf8Encode, String.toList_ofList]

end Utf8

section Lines

variable {text line : List Char}

def feedEnds (text : List Char) : List Char := text.map fun c => if isLineEnd c then '\n' else c

def closed (text : List Char) : List Char :=
  if text = [] ∨ text.getLast? = some '\n' then text else text ++ ['\n']

theorem unifyLineEnds_eq_self (h : '\r' ∉ text) : unifyLineEnds text = text := by
  induction text with
  | nil => rfl
  | cons c rest ih =>
    have hc : c ≠ '\r' := fun heq => h (heq ▸ List.mem_cons_self)
    rw [unifyLineEnds.eq_3 c rest (fun _ heq => absurd heq hc) hc,
      ih fun hmem => h (List.mem_cons_of_mem _ hmem)]

theorem feedEnds_eq_self (h : ∀ c ∈ text, isLineEnd c → c = '\n') : feedEnds text = text := by
  refine (List.map_congr_left fun c hc => ?_).trans (List.map_id _)
  split
  next hend => exact (h c hc hend).symm
  next => rfl

theorem linesFrom_eq_streamFrom (h : '\r' ∉ text) :
    linesFrom line text = streamFrom line (feedEnds text) := by
  induction text generalizing line with
  | nil => rfl
  | cons c rest ih =>
    have hc : c ≠ '\r' := fun heq => h (heq ▸ List.mem_cons_self)
    have hrest : '\r' ∉ rest := fun hmem => h (List.mem_cons_of_mem _ hmem)
    rw [linesFrom.eq_3 line c rest (fun _ heq => absurd heq hc), feedEnds, List.map_cons,
      streamFrom, ih hrest, ih hrest]
    by_cases hend : isLineEnd c = true
    · rw [if_pos hend, if_pos hend, if_pos rfl]
      rfl
    · have hfeed : c ≠ '\n' := fun heq => hend (heq ▸ rfl)
      rw [if_neg hend, if_neg hend, if_neg hfeed]
      rfl

/-- Cut at all its line ends, a text has the lines of a stream with line feeds in their places. -/
theorem splitLines_eq_streamLines (h : '\r' ∉ text) :
    splitLines text = streamLines (feedEnds text) :=
  linesFrom_eq_streamFrom h

theorem closed_append_feed (line text : List Char) :
    closed (line ++ '\n' :: text) = line ++ '\n' :: closed text := by
  have hne : line ++ '\n' :: text ≠ [] :=
    List.append_ne_nil_of_right_ne_nil _ (List.cons_ne_nil _ _)
  cases text with
  | nil => simp [closed]
  | cons c rest =>
    have hlast : (line ++ '\n' :: c :: rest).getLast? = (c :: rest).getLast? := by
      rw [List.getLast?_append, List.getLast?_cons_cons, List.getLast?_cons]
      rfl
    simp only [closed, hlast, hne, List.cons_ne_nil, false_or]
    split
    · rfl
    · rw [List.append_assoc, List.cons_append]

theorem flatMap_streamFrom (hline : '\n' ∉ line) :
    (streamFrom line text).flatMap (· ++ ['\n']) = closed (line.reverse ++ text) := by
  induction text generalizing line with
  | nil =>
    rw [streamFrom, List.append_nil]
    cases line with
    | nil => rfl
    | cons c rest =>
      have hc : c ≠ '\n' := fun heq => hline (heq ▸ List.mem_cons_self)
      simp [closed, hc]
  | cons c rest ih =>
    rw [streamFrom]
    split
    next hc =>
      rw [hc, List.flatMap_cons, ih List.not_mem_nil, closed_append_feed]
      simp
    next hc =>
      have hmore : '\n' ∉ c :: line := fun hmem =>
        (List.mem_cons.mp hmem).elim (fun heq => hc heq.symm) hline
      rw [ih hmore, List.reverse_cons, List.append_assoc]
      rfl

theorem lineBytes_streamLines (text : List Char) :
    ((streamLines text).map String.ofList).flatMap lineBytes =
      utf8Encode (String.ofList (closed text)) := by
  have hline (line : List Char) :
      lineBytes (String.ofList line) = (line ++ ['\n']).flatMap String.utf8EncodeChar := by
    rw [lineBytes, utf8Encode_ofList, List.flatMap_append]
    rfl
  have hclosed : (streamLines text).flatMap (· ++ ['\n']) = closed text :=
    flatMap_streamFrom List.not_mem_nil
  rw [utf8Encode_ofList, ← hclosed, List.flatMap_map, List.flatMap_assoc]
  simp only [hline]

theorem streamFrom_append_feed (hline : '\n' ∉ line) (before text : List Char) :
    streamFrom before (line ++ '\n' :: text) = (before.reverse ++ line) :: streamLines text := by
  induction line generalizing before with
  | nil =>
    rw [List.nil_append, streamFrom, if_pos rfl, List.append_nil]
    rfl
  | cons c rest ih =>
    have hc : c ≠ '\n' := fun heq => hline (heq ▸ List.mem_cons_self)
    rw [List.cons_append, streamFrom, if_neg hc,
      ih fun hmem => hline (List.mem_cons_of_mem _ hmem)]
    simp

theorem streamFrom_of_no_feed (hline : '\n' ∉ line) (before : List Char) :
    streamFrom before line =
      if before.reverse ++ line = [] then [] else [before.reverse ++ line] := by
  induction line generalizing before with
  | nil => simp [streamFrom]
  | cons c rest ih =>
    have hc : c ≠ '\n' := fun heq => hline (heq ▸ List.mem_cons_self)
    rw [streamFrom, if_neg hc, ih fun hmem => hline (List.mem_cons_of_mem _ hmem)]
    simp

theorem streamLines_flatMap {lines : List (List Char)} (h : ∀ line ∈ lines, '\n' ∉ line) :
    streamLines (lines.flatMap (· ++ ['\n'])) = lines := by
  induction lines with
  | nil => rfl
  | cons line rest ih =>
    have hrest := ih fun other hother => h other (List.mem_cons_of_mem _ hother)
    rw [List.flatMap_cons, List.append_assoc, List.singleton_append, streamLines,
      streamFrom_append_feed (h line List.mem_cons_self), hrest]
    rfl

theorem streamLines_intercalate {lines : List (List Char)}
    (h : ∀ line ∈ lines, line ≠ [] ∧ '\n' ∉ line) :
    streamLines (['\n'].intercalate lines) = lines := by
  induction lines with
  | nil => rfl
  | cons line rest ih =>
    obtain ⟨hne, hline⟩ := h line List.mem_cons_self
    cases rest with
    | nil => simp [streamLines, streamFrom_of_no_feed hline, hne]
    | cons next rest =>
      have hrest := ih fun other hother => h other (List.mem_cons_of_mem _ hother)
      rw [List.intercalate_cons_cons, List.append_assoc, List.singleton_append, streamLines,
        streamFrom_append_feed hline, hrest]
      rfl

end Lines

end WordMachine.Text
