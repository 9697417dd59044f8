import WordMachine.Proofs.CommandLine
import WordMachine.Proofs.InlineText
import WordMachine.Proofs.Invocation
import WordMachine.Proofs.ListingPartition
import WordMachine.Proofs.LongNumeral
import WordMachine.Proofs.RunCommand
import WordMachine.Proofs.SettingsInvariant
import WordMachine.Proofs.ShellFiles

/-!
The command that lists an image. It writes one line for each instruction of the walk, to the file
that is named or else to standard output, and if the walk fails after however many lines, it writes
nothing at all.
-/
namespace WordMachine

namespace Cli

open Shell Listing

def linesText (listed : List Line) : String := String.join (listed.map (·.text ++ "\n"))

theorem listingText_eq {listed : List Line} (h : listed ≠ []) :
    listingText listed = linesText listed := by
  induction listed with
  | nil => contradiction
  | cons line rest ih =>
    cases rest with
    | nil => simp [listingText, linesText]
    | cons next rest =>
      have hlines : linesText (line :: next :: rest) =
          line.text ++ "\n" ++ linesText (next :: rest) := by simp [linesText]
      rw [hlines, ← ih (List.cons_ne_nil _ _), listingText, listingText, List.map_cons,
        List.map_cons, String.intercalate_cons_cons]
      simp only [String.append_assoc]

theorem listingText_ne (listed : List Line) : listingText listed ≠ "" := by
  simp [listingText]

/-- The file that a listing goes to, if it goes to one. -/
def DisasmArguments.target (a : DisasmArguments) : Option String := a.output.filter (· ≠ "")

/-- A text has been written to the file that is named, or else to standard output, and nothing else
has been written except to the log. -/
structure Puts (sh done : Shell) (target : Option String) (text : String) : Prop where
  alarms : done.alarms = sh.alarms
  output : done.output = sh.output ++ if target.isNone then text else ""
  file : ∀ name ∈ target, ∃ added,
    done.files.read (.ofText name) = .ok (Text.utf8Encode (text ++ added)) ∧
      (sh.LogsApart (.ofText name) → added = "")
  others {p : Path} {bytes : List UInt8} : sh.LogsApart p →
    (∀ name ∈ target, sh.files.place? p ≠ sh.files.place? (.ofText name)) →
    (done.files.read p = .ok bytes ↔ sh.files.read p = .ok bytes)

variable {sh mid done : Shell} {a : DisasmArguments} {image : List UInt8} {memory : Memory}
  {first last : Int} {listed : List Line} {text : String} {target : Option String}

theorem Puts.after (h' : Puts mid done target text) (h : sh.OnlyLogs mid)
    (halarms : mid.alarms = sh.alarms) : Puts sh done target text where
  alarms := h'.alarms.trans halarms
  output := by rw [h'.output, h.output]
  file name hname := by
    obtain ⟨added, hread, hapart⟩ := h'.file name hname
    exact ⟨added, hread, fun hlog => hapart (h.logsApart hlog)⟩
  others hp hplace := by
    refine (h'.others (h.logsApart hp) fun name hname => ?_).trans (h.files hp)
    rw [h.place?_eq, h.place?_eq]
    exact hplace name hname

theorem read_note (sh : Shell) {name : String}
    (h : sh.files.contents (.ofText name) = Text.utf8Encode text) (hne : text ≠ "")
    (r : Log.Record) :
    ∃ added, (sh.note r).files.read (.ofText name) = .ok (Text.utf8Encode (text ++ added)) ∧
      (sh.LogsApart (.ofText name) → added = "") := by
  obtain ⟨added, hadded, hapart⟩ : ∃ added,
      Appends (.ofText name) sh (sh.note r) added ∧
        (sh.LogsApart (.ofText name) → added = "") := by
    by_cases hlog : sh.LogsApart (.ofText name)
    · exact ⟨"", hlog.note r, fun _ => rfl⟩
    · obtain ⟨added, hadded⟩ := Appends.exists_note (.ofText name) sh r
      exact ⟨added, hadded, fun hlog' => absurd hlog' hlog⟩
  refine ⟨added, ?_, hapart⟩
  have hcontents := hadded.contents
  rw [h, ← Text.utf8Encode_append] at hcontents
  have hnonempty : Text.utf8Encode (text ++ added) ≠ [] := fun hnil => by
    have hnone : Text.utf8Encode "" = [] := by simp [Text.utf8Encode]
    have hempty := Text.utf8Encode_injective (hnil.trans hnone.symm)
    exact hne (String.append_eq_empty_iff.mp hempty).1
  rw [FileTree.read_of_contents (by rwa [hcontents]), hcontents]

theorem exists_puts (sh : Shell) (hwritable : ∀ name ∈ a.target, sh.files.Writable (.ofText name))
    (listed : List Line) :
    ∃ done, writeListing sh a.output listed = (done, .status 0) ∧
      Puts sh done a.target (listingText listed) := by
  unfold writeListing
  split
  next hnone =>
    have htarget : a.target = none := hnone
    refine ⟨_, rfl, rfl, ?_, ?_, fun _ _ => Iff.rfl⟩
    · rw [htarget]
      rfl
    · rw [htarget]
      nofun
  next name hsome =>
    have htarget : a.target = some name := hsome
    obtain ⟨files, hfiles⟩ : ∃ files, sh.files.write (.ofText name)
        (Text.utf8Encode (listingText listed)) = .ok files :=
      FileTree.exists_update_iff.mpr (hwritable name htarget)
    have hdirectories := FileTree.sameDirectories_of_update hfiles
    have hcontents := FileTree.contents_of_update hfiles (.ofText name)
    rw [if_pos rfl] at hcontents
    rw [hfiles, htarget]
    dsimp only
    refine ⟨_, rfl, alarms_note_of_lt _ Log.Level.info_lt_error, ?_, ?_, fun hp hplace => ?_⟩
    · rw [output_note]
      exact (String.append_empty).symm
    · rintro name' hname'
      obtain rfl := Option.some.inj hname'
      obtain ⟨added, hread, hapart⟩ := read_note { sh with files } hcontents
        (listingText_ne listed) (.mk ⟨.info, .commandLine, "cmd_disasm", 144,
          s!"Wrote {listed.length} lines to {name}"⟩)
      exact ⟨added, hread, fun hlog => hapart (hlog.congr rfl hdirectories)⟩
    · have hapart : LogsApart _ { sh with files } := hp.congr rfl hdirectories
      refine ((OnlyLogs.note _ _).files hapart).trans ?_
      exact FileTree.read_ok_iff_of_update hfiles (hplace name rfl)

theorem disasm_of_walk (hread : sh.files.read (.ofText a.image) = .ok image)
    (hmemory : Memory.ofImage image = .ok memory)
    (hrange : listedRange a image = .ok (first, last))
    (hlisting : disassemble memory first last = (listed, none))
    (hwritable : ∀ name ∈ a.target, sh.files.Writable (.ofText name)) :
    ∃ done, disasm sh a = (done, .status 0) ∧ Puts sh done a.target (listingText listed) := by
  have hloaded : sh.OnlyLogs (noteLoaded sh image) := .note ..
  have halarms : (noteLoaded sh image).alarms = sh.alarms :=
    alarms_note_of_lt sh Log.Level.debug_lt_error
  obtain ⟨done, hdone, hputs⟩ := exists_puts (noteLoaded sh image)
    (fun name hname => (hwritable name hname).congr hloaded.directories) listed
  refine ⟨done, ?_, hputs.after hloaded halarms⟩
  unfold disasm
  simp only [hread, hmemory, hrange, hlisting, hdone]

theorem disasm_of_failure {c : Cause} (hlog : sh.HearsErrors)
    (hread : sh.files.read (.ofText a.image) = .ok image)
    (hmemory : Memory.ofImage image = .ok memory)
    (hrange : listedRange a image = .ok (first, last))
    (hlisting : disassemble memory first last = (listed, some c)) :
    ∃ done ending, disasm sh a = (done, ending) ∧ sh.OnlyLogs done ∧
      (c.IsReportable → ending = .status 1 ∧
        ∃ r, r.level = Log.Level.error ∧ done.alarms = sh.alarms ++ [r]) ∧
      (¬c.IsReportable → ending = .escape .unreported) := by
  have hloaded : sh.OnlyLogs (noteLoaded sh image) := .note ..
  have hquiet : sh.Reports (noteLoaded sh image) [] := .note sh Log.Level.debug_lt_error
  have hdisasm : disasm sh a = (noteLoaded sh image).failWith c := by
    unfold disasm
    simp only [hread, hmemory, hrange, hlisting]
  rw [hdisasm]
  by_cases hreportable : c.IsReportable
  · rw [failWith_of_reportable _ hreportable]
    have herror := Reports.error (r := errorRecord "main" 187 c.fault.text)
      (hquiet.hearsErrors hlog) rfl
    refine ⟨_, _, rfl, hloaded.trans (.note ..), fun _ => ?_, fun hlong => absurd hreportable hlong⟩
    exact ⟨rfl, _, rfl, (herror.after hquiet).alarms⟩
  · rw [failWith_of_not_reportable _ hreportable]
    exact ⟨_, _, rfl, hloaded, fun hshort => absurd hshort hreportable, fun _ => rfl⟩

theorem listedRange_everything (hrange : a.range = .everything) (hlength : image.length ≤ 65536) :
    listedRange a image = .ok (0, (Memory.imageCells image : Int) - 1) := by
  have hcells : (Memory.imageCells image : Int) - 1 ≤ 32767 := by
    unfold Memory.imageCells
    omega
  rw [listedRange, hrange]
  dsimp only
  rw [Int.min_eq_left hcells]

theorem listedRange_between (hrange : a.range = .between first last) :
    listedRange a image = .ok (first, last) := by
  rw [listedRange, hrange]

/-- From a natural number to behind the end of memory no walk comes to its end. The failure is
reported if its number can be written, and only where the walk begins can it be one that cannot. -/
theorem disassemble_fails (memory : Memory) (h0 : 0 ≤ first) (hle : first ≤ last)
    (hpast : 32767 < last) :
    ∃ listed c, disassemble memory first last = (listed, some c) ∧
      (c.IsReportable ↔ Text.IsWritable first) := by
  by_cases hfirst : IsAddress first
  · have hwritable : Text.IsWritable first := Text.isWritable_of_natAbs_lt (by omega)
    have hbehind : Text.IsWritable 32768 := Text.isWritable_of_natAbs_lt (by decide)
    refine ⟨_, _, disassemble_past_end h0 (by omega) hpast, ?_⟩
    exact iff_of_true (isReportable_noSuchCell.mpr hbehind) hwritable
  · exact ⟨_, _, disassemble_outside hfirst hle, isReportable_noSuchCell⟩

/-- Listing an image is all or nothing. A command line that spells this out is read as it looks.
Without a range there is one line for each instruction of a walk from the first word to the last
byte. With a range there is one for each instruction of the walk between its ends, which is no more
than a line end if these are in the wrong order. If that walk would leave memory, nothing is written
anywhere and one error is reported, unless the first address is too long to be written. -/
theorem listing_whole_or_nothing (fuel : Nat) (sh : Shell) :
    (∀ image settings, IsPlainName image →
      (∀ s ∈ settings, ∀ value ∈ DisasmSetting.value? s, IsPlainName value) →
      readArguments (disasmLine image settings) =
        .ok { command := some (.disasm (settings.foldl (fun a s => s.apply a) { image })) }) ∧
    ∀ (ready : Shell) (arguments : List String) (i : Invocation) (a : DisasmArguments)
      (image : List UInt8),
      readArguments arguments = .ok i → i.command = some (.disasm a) →
      sh.setUpLog (logLevel i.verbosity) i.logFile = (ready, none) →
      ready.files.read (.ofText a.image) = .ok image →
      1 ≤ image.length → image.length ≤ 65536 →
      (∀ name ∈ a.target, ready.files.Writable (.ofText name)) →
      ∃ memory, Memory.ofImage image = .ok memory ∧
        (a.range = .everything → ∃ done listed final,
          program fuel sh arguments = (done, .status 0) ∧
          Puts ready done a.target (linesText listed) ∧
          disassemble memory 0 ((Memory.imageCells image : Int) - 1) = (listed, none) ∧
          Partition memory 0 ((Memory.imageCells image : Int) - 1) listed ∧
          (∀ line ∈ listed, Text.IsInline line.text) ∧ listed.getLast? = some final ∧
          2 * final.address < image.length ∧ image.length ≤ 2 * final.behind) ∧
        ∀ first last, a.range = .between first last →
          (last < first → ∃ done, program fuel sh arguments = (done, .status 0) ∧
            Puts ready done a.target "\n") ∧
          (first ≤ last → last ≤ 32767 → ∃ done listed,
            program fuel sh arguments = (done, .status 0) ∧
            disassemble memory first last = (listed, none) ∧
            Puts ready done a.target (linesText listed)) ∧
          (first ≤ last → 32767 < last → ∃ done ending,
            program fuel sh arguments = (done, ending) ∧ ready.OnlyLogs done ∧
            (Text.IsWritable first → ending = .status 1 ∧
              ∃ r, r.level = Log.Level.error ∧ done.alarms = ready.alarms ++ [r]) ∧
            (¬Text.IsWritable first → ending = .escape .unreported)) := by
  refine ⟨fun image settings => readArguments_disasmLine, fun ready arguments i a image
    harguments hcommand hready hread hpos hlength hwritable => ?_⟩
  obtain ⟨hlog, -, -⟩ := ready_of_setUpLog (logLevel_le i.verbosity) hready
  obtain ⟨memory, hmemory⟩ : ∃ memory, Memory.ofImage image = .ok memory :=
    ⟨_, ofImage_of_le hlength⟩
  have hprogram := program_ready fuel harguments hcommand hready
  have hnatural := startsNatural_of_readArguments harguments hcommand
  rw [hprogram]
  refine ⟨memory, hmemory, fun hrange => ?_, fun first last hrange => ⟨fun hreversed => ?_,
    fun hle hinside => ?_, fun hle hpast => ?_⟩⟩
  · have hcells : 1 ≤ Memory.imageCells image ∧ Memory.imageCells image ≤ 32768 ∧
        2 * Memory.imageCells image ≤ image.length + 1 ∧
        image.length ≤ 2 * Memory.imageCells image := by
      unfold Memory.imageCells
      omega
    have hstart : 0 ≤ (Memory.imageCells image : Int) - 1 := by omega
    obtain ⟨listed, hlisting, hpartition⟩ :=
      disassemble_partition memory (Int.le_refl 0) hstart (by omega)
    obtain ⟨done, hdone, hputs⟩ := disasm_of_walk hread hmemory
      (listedRange_everything hrange hlength) hlisting hwritable
    rw [listingText_eq hpartition.ne_nil] at hputs
    obtain ⟨final, hfinal, hinside, hend, -⟩ := hpartition.final
    exact ⟨done, listed, final, hdone, hputs, hlisting, hpartition,
      fun line _ => line.isInline_text, hfinal, by omega, by omega⟩
  · exact disasm_of_walk hread hmemory (listedRange_between hrange) (disassemble_of_lt hreversed)
      hwritable
  · obtain ⟨listed, hlisting, hpartition⟩ :=
      disassemble_partition memory (hnatural first last hrange) hle hinside
    obtain ⟨done, hdone, hputs⟩ := disasm_of_walk hread hmemory (listedRange_between hrange)
      hlisting hwritable
    rw [listingText_eq hpartition.ne_nil] at hputs
    exact ⟨done, listed, hdone, hlisting, hputs⟩
  · obtain ⟨listed, c, hlisting, hreportable⟩ :=
      disassemble_fails memory (hnatural first last hrange) hle hpast
    rw [← hreportable]
    exact disasm_of_failure hlog hread hmemory (listedRange_between hrange) hlisting

def shelf : Shell where
  files := { entries := [(["p.bin"], .file [21, 0, 21, 0, 9, 0, 0, 128, 1, 0, 2, 0, 0]),
    (["old.txt"], .file [7])] }

theorem parseRange_inside : parseRange "2-6" = .ok (2, 6) := by decide +kernel

theorem parseRange_past : parseRange "0-0x8000" = .ok (0, 32768) := by decide +kernel

theorem shelf_listed :
    (∃ done listed, program 0 shelf (disasmLine "p.bin" [.range "2-6" parseRange_inside]) =
        (done, .status 0) ∧ done.output = linesText listed) ∧
      ∃ done, program 0 shelf (disasmLine "p.bin"
          [.output "old.txt", .range "0-0x8000" parseRange_past]) = (done, .status 1) ∧
        done.output = "" ∧ done.files.read (.ofText "old.txt") = .ok [7] := by
  obtain ⟨hlines, hlistings⟩ := listing_whole_or_nothing 0 shelf
  have hread : shelf.files.read (.ofText "p.bin") =
      .ok [21, 0, 21, 0, 9, 0, 0, 128, 1, 0, 2, 0, 0] := by decide +kernel
  have hold : shelf.files.read (.ofText "old.txt") = .ok [7] := by decide +kernel
  have hwritable : shelf.files.Writable (.ofText "old.txt") :=
    ⟨["old.txt"], by decide +kernel, by decide +kernel⟩
  have hready : shelf.setUpLog (logLevel 0) none =
      ({ shelf with logger := shelf.logger.configure (logLevel 0) none }, none) := rfl
  constructor
  · have hline := hlines "p.bin" [.range "2-6" parseRange_inside] (by decide)
      (by simp [DisasmSetting.value?, IsPlainName])
    obtain ⟨memory, -, -, hranges⟩ := hlistings _ _ _ _ _ hline rfl hready hread
      (by decide) (by decide) (fun name hname => by cases hname)
    obtain ⟨done, listed, hdone, -, hputs⟩ := (hranges 2 6 rfl).2.1 (by decide) (by decide)
    exact ⟨done, listed, hdone, hputs.output⟩
  · have hline := hlines "p.bin" [.output "old.txt", .range "0-0x8000" parseRange_past]
      (by decide) (by simp [DisasmSetting.value?, IsPlainName])
    obtain ⟨memory, -, -, hranges⟩ := hlistings _ _ _ _ _ hline rfl hready hread
      (by decide) (by decide) (fun name hname => by
        obtain rfl : "old.txt" = name := Option.some.inj hname
        exact hwritable)
    obtain ⟨done, ending, hdone, honly, hstatus, -⟩ := (hranges 0 32768 rfl).2.2 (by decide)
      (by decide)
    obtain ⟨rfl, -⟩ := hstatus (Text.isWritable_of_natAbs_lt (by decide))
    have hapart := (logsToError_configure shelf 0).logsApart (.ofText "old.txt")
    exact ⟨done, hdone, honly.output, (honly.files hapart).mpr hold⟩

def longRange (zeros : Nat) : String :=
  String.ofList (Text.hexPower zeros ++ '-' :: Text.hexPower zeros)

theorem parseRange_longRange (zeros : Nat) : parseRange (longRange zeros) =
    .ok (((16 ^ zeros : Nat) : Int), ((16 ^ zeros : Nat) : Int)) := by
  have hread := Text.integer_hexPower zeros (show Text.Radix.marked ≠ .ten by decide)
  have hhyphen : ∀ c ∈ Text.hexPower zeros, c ≠ '-' :=
    Text.of_mem_hexPower (by decide) (by decide) (by decide)
  exact parseRange_ok_iff.mpr
    ⟨_, _, String.toList_ofList, fun hmem => hhyphen _ hmem rfl, hread, hread⟩

theorem isPlainName_longRange (zeros : Nat) : IsPlainName (longRange zeros) := by
  simp [IsPlainName, longRange, Text.hexPower]

theorem program_shelf_of_unwritable {text : String} (h : parseRange text = .ok (first, last))
    (hplain : IsPlainName text) (hle : first ≤ last) (hlong : ¬Text.IsWritable first) :
    ∃ done, program 0 shelf (disasmLine "p.bin" [.range text h]) =
      (done, .escape .unreported) := by
  have hline : readArguments (disasmLine "p.bin" [.range text h]) =
      .ok { command := some (.disasm { image := "p.bin", range := .between first last }) } :=
    readArguments_disasmLine (by decide) (by simpa [DisasmSetting.value?] using hplain)
  have hread : shelf.files.read (.ofText "p.bin") =
      .ok [21, 0, 21, 0, 9, 0, 0, 128, 1, 0, 2, 0, 0] := by decide +kernel
  have hfirst : ¬IsAddress first := fun haddress =>
    hlong (Text.isWritable_of_natAbs_lt (by omega))
  obtain ⟨memory, hmemory⟩ : ∃ memory,
      Memory.ofImage [21, 0, 21, 0, 9, 0, 0, 128, 1, 0, 2, 0, 0] = .ok memory :=
    ⟨_, ofImage_of_le (by decide)⟩
  have hlog := logsToError_configure shelf 0
  obtain ⟨done, ending, hdone, -, -, hescape⟩ := disasm_of_failure
    (a := { image := "p.bin", range := .between first last }) hlog.hearsErrors hread hmemory
    (listedRange_between rfl) (disassemble_outside hfirst hle)
  obtain rfl := hescape (mt isReportable_noSuchCell.mp hlong)
  exact ⟨done, (program_unlogged 0 shelf hline).trans hdone⟩

theorem long_range_escapes :
    ∃ done, program 0 shelf (disasmLine "p.bin" [.range _ (parseRange_longRange 3690)]) =
      (done, .escape .unreported) := by
  have hlong : ¬Text.IsWritable ((16 ^ 3690 : Nat) : Int) :=
    Text.not_isWritable_hexPower (n := 615) (by decide) (Nat.le_refl 3690)
  exact program_shelf_of_unwritable _ (isPlainName_longRange 3690) (Int.le_refl _) hlong

end Cli

end WordMachine
