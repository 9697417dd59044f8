import WordMachine.Proofs.AssemblySource
import WordMachine.Proofs.CommandOutcome
import WordMachine.Proofs.ListingCommand

/-!
What becomes of an image that has been made from a listing. It can have any length, and its length
decides: an image that fits memory can be listed and run, and any other is refused by the command
that reads it, with one error and nothing done.
-/
namespace WordMachine.Cli

open Shell Session Listing

theorem length_flatMap_littleEndian (ws : List Int) :
    (ws.flatMap littleEndian).length = 2 * ws.length := by
  simp [List.length_flatMap, littleEndian, Nat.mul_comm]

theorem exists_ofImage_iff {image : List UInt8} :
    (∃ memory, Memory.ofImage image = .ok memory) ↔ image.length ≤ 65536 := by
  constructor
  · rintro ⟨memory, hmemory⟩
    by_contra hlength
    cases (ofImage_of_lt (Nat.lt_of_not_le hlength)).symm.trans hmemory
  · exact fun hlength => ⟨_, ofImage_of_le hlength⟩

/-- An image has been refused for its length. Nothing has been written except to the log, and the
log has one error. -/
structure Refuses (sh done : Shell) (image : List UInt8) : Prop where
  onlyLogs : sh.OnlyLogs done
  alarms : done.alarms = sh.alarms ++
    [errorRecord "main" 187 (Cause.imageTooLong image.length 0).fault.text]

variable {sh ready done : Shell} {image : List UInt8} {memory : Memory} {fuel : Nat}

section Listing

variable {a : DisasmArguments}

theorem disasm_of_fitting (hread : sh.files.read (.ofText a.image) = .ok image)
    (hlength : image.length ≤ 65536) (hrange : a.range = .everything)
    (hwritable : ∀ name ∈ a.target, sh.files.Writable (.ofText name)) :
    ∃ done, disasm sh a = (done, .status 0) := by
  obtain ⟨memory, hmemory⟩ := exists_ofImage_iff.mpr hlength
  have hlast : (Memory.imageCells image : Int) - 1 ≤ 32767 := by
    unfold Memory.imageCells
    omega
  obtain ⟨listed, b, hlisting, -⟩ := disassemble_walk (m := memory) (Int.le_refl 0) hlast
  obtain ⟨done, hdone, -⟩ := disasm_of_walk hread hmemory (listedRange_everything hrange hlength)
    hlisting hwritable
  exact ⟨done, hdone⟩

theorem disasm_refuses (hlog : sh.HearsErrors)
    (hread : sh.files.read (.ofText a.image) = .ok image) (hlength : 65536 < image.length) :
    ∃ done, disasm sh a = (done, .status 1) ∧ Refuses sh done image := by
  have hreportable : (Cause.imageTooLong image.length 0).IsReportable := by
    simp [Cause.IsReportable, Cause.shown]
  refine ⟨_, ?_, .note .., (Reports.error hlog rfl).alarms⟩
  unfold disasm
  simp only [hread, ofImage_of_lt hlength, failWith_of_reportable sh hreportable]
  rfl

end Listing

section Running

variable {a : RunArguments}

theorem runSession_ending (sh : Shell) (s : Session) :
    (runSession fuel sh a s).2 = endingOf (s.run fuel).2 := by
  unfold runSession
  generalize s.run fuel = result
  obtain ⟨t, _ | event⟩ := result
  · rfl
  · cases event with
    | noInput why => cases why <;> rfl
    | _ => rfl

theorem run_of_fitting (hread : sh.files.read (.ofText a.image) = .ok image)
    (hmemory : Memory.ofImage image = .ok memory) :
    (∃ s, Runs sh a s ∧ s.machine.memory = memory ∧
      (run fuel sh a).2 = endingOf (s.run fuel).2) ∨
    (∃ f, openTrace (imageLoaded sh a image) a = .error f) ∨
    ∃ opened e, openTrace (imageLoaded sh a image) a = .ok opened ∧
      queuedLines opened.1 a = .error e := by
  rw [run_of_loaded fuel hread hmemory]
  cases hopens : openTrace (imageLoaded sh a image) a with
  | error f => exact .inr (.inl ⟨f, rfl⟩)
  | ok opened =>
    obtain ⟨ready, tracer⟩ := opened
    dsimp only
    cases hqueued : queuedLines ready a with
    | error e => exact .inr (.inr ⟨_, e, rfl, hqueued⟩)
    | ok queued =>
      exact .inl ⟨_, .of_files hread hmemory hopens hqueued, rfl, runSession_ending _ _⟩

theorem run_refuses (hlog : sh.HearsErrors)
    (hread : sh.files.read (.ofText a.image) = .ok image) (hlength : 65536 < image.length) :
    ∃ done, run fuel sh a = (done, .status 1) ∧ Refuses sh done image := by
  have hloading : sh.Reports (noteLoading sh a.image image) [] := .note sh Log.Level.info_lt_error
  have herror := Reports.error
    (r := errorRecord "main" 187 (Cause.imageTooLong image.length 0).fault.text)
    (hloading.hearsErrors hlog) rfl
  exact ⟨_, run_of_too_long fuel hread hlength, (OnlyLogs.note ..).trans (.note ..),
    (herror.after hloading).alarms⟩

end Running

theorem asm_writes {a : AsmArguments} (hlog : sh.HearsErrors)
    (hapart : ∀ output ∈ a.output, sh.LogsApart (.ofText output))
    (h : asm sh a = (done, .status 0)) :
    ∃ source ws output, sh.readText a.input = .ok source ∧ assemble source = .ok ws ∧
      a.output = some output ∧
      done.files.read (.ofText output) = .ok (ws.flatMap littleEndian) := by
  have hcomes : ComesTo 0 sh (.asm a) (asm sh a) := asm_comesTo hlog a
  rw [h] at hcomes
  cases hcomes with
  | done _ hsound _ =>
    obtain ⟨source, ws, output, htext, hws, hwords, houtput, hwritable⟩ := hsound
    refine ⟨source, ws, output, htext, hws, houtput, ?_⟩
    obtain ⟨files, hfiles⟩ : ∃ files, sh.files.write (.ofText output)
        (ws.flatMap littleEndian) = .ok files := FileTree.exists_update_iff.mpr hwritable
    have hwritten : LogsApart (.ofText output) { sh with files } :=
      (hapart output houtput).congr rfl (FileTree.sameDirectories_of_update hfiles)
    unfold asm at h
    simp only [htext, hws, houtput, packImage_of_words hwords, hfiles] at h
    cases h
    exact ((OnlyLogs.note _ _).files hwritten).mpr (FileTree.read_of_update hfiles)

/-- An image that the assembler has made can be loaded exactly if it is no longer than the memory.
Then it is listed without an error, and a run of it is the run of its machine, unless the trace or
the input of the run cannot be opened. If it is longer, it can be neither listed nor run: one error
says that it does not fit, and nothing else happens. -/
theorem assembled_image_taken_iff_fits {sh ready done : Shell} {arguments : List String}
    {i : Invocation} {a : AsmArguments} {fuel : Nat} (harguments : readArguments arguments = .ok i)
    (hcommand : i.command = some (.asm a))
    (hready : sh.setUpLog (logLevel i.verbosity) i.logFile = (ready, none))
    (hapart : ∀ output ∈ a.output, ready.LogsApart (.ofText output))
    (hdone : program fuel sh arguments = (done, .status 0)) :
    ∃ source ws output image, ready.readText a.input = .ok source ∧ assemble source = .ok ws ∧
      a.output = some output ∧ image = ws.flatMap littleEndian ∧
      done.files.read (.ofText output) = .ok image ∧
      ((∃ memory, Memory.ofImage image = .ok memory) ↔ ws.length ≤ 32768) ∧
      ∀ (next : Shell) (arguments : List String) (i : Invocation) (ready : Shell) (fuel : Nat),
        readArguments arguments = .ok i →
        next.setUpLog (logLevel i.verbosity) i.logFile = (ready, none) →
        (∀ a, i.command = some (.disasm a) → ready.files.read (.ofText a.image) = .ok image →
          a.range = .everything → (∀ name ∈ a.target, ready.files.Writable (.ofText name)) →
          (ws.length ≤ 32768 → ∃ done, program fuel next arguments = (done, .status 0)) ∧
          (32768 < ws.length → ∃ done, program fuel next arguments = (done, .status 1) ∧
            Refuses ready done image)) ∧
        ∀ a, i.command = some (.run a) → ready.files.read (.ofText a.image) = .ok image →
          (ws.length ≤ 32768 →
            (∃ s, Runs ready a s ∧ Memory.ofImage image = .ok s.machine.memory ∧
              (program fuel next arguments).2 = endingOf (s.run fuel).2) ∨
            (∃ f, openTrace (imageLoaded ready a image) a = .error f) ∨
            ∃ opened e, openTrace (imageLoaded ready a image) a = .ok opened ∧
              queuedLines opened.1 a = .error e) ∧
          (32768 < ws.length → ∃ done, program fuel next arguments = (done, .status 1) ∧
            Refuses ready done image) := by
  obtain ⟨hlog, -, -⟩ := ready_of_setUpLog (logLevel_le i.verbosity) hready
  rw [program_ready fuel harguments hcommand hready] at hdone
  obtain ⟨source, ws, output, htext, hws, houtput, hread⟩ := asm_writes hlog hapart hdone
  have hlength := length_flatMap_littleEndian ws
  generalize hbytes : ws.flatMap littleEndian = image at hread hlength
  refine ⟨source, ws, output, image, htext, hws, houtput, hbytes.symm, hread, ?_, ?_⟩
  · rw [exists_ofImage_iff, hlength]
    omega
  intro next arguments i ready fuel harguments hready
  obtain ⟨hlog, -, -⟩ := ready_of_setUpLog (logLevel_le i.verbosity) hready
  refine ⟨fun a hcommand hread hrange hwritable => ?_, fun a hcommand hread => ?_⟩
  all_goals rw [program_ready fuel harguments hcommand hready]
  · exact ⟨fun hfits => disasm_of_fitting hread (by omega) hrange hwritable,
      fun hlong => disasm_refuses hlog hread (by omega)⟩
  · refine ⟨fun hfits => ?_, fun hlong => run_refuses hlog hread (by omega)⟩
    obtain ⟨memory, hmemory⟩ := exists_ofImage_iff.mpr (show image.length ≤ 65536 by omega)
    obtain ⟨s, hruns, rfl, hends⟩ | hstopped := run_of_fitting hread hmemory
    · exact .inl ⟨s, hruns, hmemory, hends⟩
    · exact .inr hstopped

def manyStatements (n : Nat) : List Char :=
  [';'].intercalate (List.replicate n "or 0 0 0".toList)

theorem assemble_manyStatements (n : Nat) :
    assemble (Text.unifyLineEnds (manyStatements n)) =
      .ok (List.replicate n [13, 0, 0, 0]).flatten := by
  have hreturn : '\r' ∉ manyStatements n := by
    intro hmem
    rcases Text.mem_of_mem_intercalate hmem with hsep | ⟨piece, hpiece, hc⟩
    · cases hsep
    · rw [List.eq_of_mem_replicate hpiece] at hc
      exact absurd hc (by decide)
  have hone : assemble "or 0 0 0".toList = .ok [13, 0, 0, 0] := by decide +kernel
  have hall : (List.replicate n "or 0 0 0".toList).Forall₂
      (fun text block => assemble text = .ok block) (List.replicate n [13, 0, 0, 0]) := by
    clear hreturn
    induction n with
    | zero => exact .nil
    | succ n ih => exact .cons hone ih
  rw [Text.unifyLineEnds_eq_self hreturn]
  exact (assemble_intercalate_ok_iff (by decide)).mpr ⟨_, hall, rfl⟩

def mill (n : Nat) : Shell where
  files := { entries := [(["short.lst"], .file (Text.utf8Encode "halt")),
    (["long.lst"], .file (Text.utf8Encode (String.ofList (manyStatements n))))] }

theorem mill_files (n : Nat) :
    (mill n).files.read (.ofText "short.lst") = .ok (Text.utf8Encode "halt") ∧
      (mill n).files.read (.ofText "long.lst") =
        .ok (Text.utf8Encode (String.ofList (manyStatements n))) ∧
      (mill n).files.Writable (.ofText "p.bin") := by
  have hshort := locate_name (mill n).files "short.lst" (by decide) (by decide) (by decide)
  have hlong := locate_name (mill n).files "long.lst" (by decide) (by decide) (by decide)
  have himage := locate_name (mill n).files "p.bin" (by decide) (by decide) (by decide)
  refine ⟨?_, ?_, ["p.bin"], FileTree.place?_eq_some_iff.mpr himage, ?_⟩
  · rw [FileTree.read, show Path.ofText "short.lst" = ⟨"", ["short.lst"]⟩ by decide, hshort]
    rfl
  · rw [FileTree.read, show Path.ofText "long.lst" = ⟨"", ["long.lst"]⟩ by decide, hlong]
    rfl
  · intro hentry
    cases hentry

theorem mill_assembles {n : Nat} {input text : String} {ws : List Int}
    (hinput : IsPlainName input)
    (hread : (mill n).files.read (.ofText input) = .ok (Text.utf8Encode text))
    (hws : assemble (Text.unifyLineEnds text.toList) = .ok ws) (hwords : ∀ v ∈ ws, IsWord v) :
    ∃ done, program 0 (mill n) (asmLine input "p.bin") = (done, .status 0) ∧
      done.files.read (.ofText "p.bin") = .ok (ws.flatMap littleEndian) := by
  obtain ⟨-, -, hwritable⟩ := mill_files n
  have htext : readText
      { mill n with logger := (mill n).logger.configure (logLevel 0) none } input =
      .ok (Text.unifyLineEnds text.toList) := readText_of_utf8 hread
  obtain ⟨done, hdone, hfiles, -⟩ := asm_of_words (logsToError_configure (mill n) 0) htext hws
    hwords hwritable
  rw [program_unlogged 0 (mill n) (readArguments_asmLine hinput (by decide))]
  exact ⟨done, hdone, FileTree.read_of_update hfiles⟩

theorem setUpLog_next (done : Shell) :
    Shell.setUpLog { files := done.files } (logLevel 0) none =
      ({ files := done.files, logger := ({} : Shell).logger.configure (logLevel 0) none }, none) :=
  rfl

theorem short_image_taken :
    ∃ done, program 0 (mill 0) (asmLine "short.lst" "p.bin") = (done, .status 0) ∧
      (∃ after, program 0 { files := done.files } (disasmLine "p.bin" []) = (after, .status 0)) ∧
      ∃ s : Session, Memory.ofImage [0, 0] = .ok s.machine.memory ∧
        (program 9 { files := done.files } (runLine "p.bin" [.direct])).2 =
          endingOf (s.run 9).2 := by
  obtain ⟨hread, -, -⟩ := mill_files 0
  have hhalt : assemble (Text.unifyLineEnds "halt".toList) = .ok [0] := by decide +kernel
  have hshort : IsPlainName "short.lst" := by decide
  have hname : IsPlainName "p.bin" := by decide
  obtain ⟨done, hdone, himage⟩ := mill_assembles hshort hread hhalt (by decide)
  have hready : (mill 0).setUpLog (logLevel 0) none =
      ({ mill 0 with logger := (mill 0).logger.configure (logLevel 0) none }, none) := rfl
  obtain ⟨source, ws, output, image, htext, hws, houtput, rfl, -, -, htaken⟩ :=
    assembled_image_taken_iff_fits (readArguments_asmLine hshort hname) rfl hready
      (fun _ _ => (logsToError_configure (mill 0) 0).logsApart _) hdone
  obtain rfl := Except.ok.inj (htext.symm.trans (readText_of_utf8 hread))
  obtain rfl := Except.ok.inj (hws.symm.trans hhalt)
  refine ⟨done, hdone, ?_, ?_⟩
  · obtain ⟨hlists, -⟩ := htaken { files := done.files } _ _ _ 0
      (readArguments_disasmLine hname (List.forall_mem_nil _)) (setUpLog_next done)
    exact (hlists _ rfl himage rfl (fun _ hname => by cases hname)).1 (by decide)
  · have hplain : ∀ s ∈ [RunSetting.direct], ∀ value ∈ s.value?, IsPlainName value := by
      simp [RunSetting.value?]
    obtain ⟨-, hruns⟩ := htaken { files := done.files } _ _ _ 9
      (readArguments_runLine hname hplain) (setUpLog_next done)
    obtain ⟨s, -, hmemory, hends⟩ | ⟨f, hopens⟩ | ⟨opened, e, hopens, hqueued⟩ :=
      (hruns _ rfl himage).1 (by decide)
    · exact ⟨s, hmemory, hends⟩
    · cases hopens
    · cases hopens
      cases hqueued

theorem program_mill_long {n : Nat} (h : 8193 ≤ n) :
    ∃ done after, program 0 (mill n) (asmLine "long.lst" "p.bin") = (done, .status 0) ∧
      program 0 { files := done.files } (disasmLine "p.bin" []) = (after, .status 1) := by
  obtain ⟨-, hread, -⟩ := mill_files n
  have hws : assemble (Text.unifyLineEnds (String.ofList (manyStatements n)).toList) =
      .ok (List.replicate n [13, 0, 0, 0]).flatten := by
    rw [String.toList_ofList]
    exact assemble_manyStatements n
  have hwords : ∀ v ∈ (List.replicate n [13, 0, 0, 0]).flatten, IsWord v := by
    have hone : ∀ v ∈ ([13, 0, 0, 0] : List Int), IsWord v := by decide
    intro v hv
    obtain ⟨block, hblock, hv⟩ := List.mem_flatten.mp hv
    rw [List.eq_of_mem_replicate hblock] at hv
    exact hone v hv
  obtain ⟨done, hdone, himage⟩ := mill_assembles (by decide) hread hws hwords
  have hlong : 65536 < ((List.replicate n [13, 0, 0, 0]).flatten.flatMap littleEndian).length := by
    rw [length_flatMap_littleEndian]
    simp
    omega
  have hname : IsPlainName "p.bin" := by decide
  obtain ⟨after, hafter, -⟩ := disasm_refuses (a := { image := "p.bin" })
    (logsToError_configure { files := done.files } 0).hearsErrors himage hlong
  refine ⟨done, after, hdone, ?_⟩
  rw [program_unlogged 0 _ (readArguments_disasmLine hname (List.forall_mem_nil _))]
  exact hafter

/-- A listing can be assembled without complaint to an image that cannot be listed. -/
theorem long_image_refused :
    ∃ done after, program 0 (mill 8193) (asmLine "long.lst" "p.bin") = (done, .status 0) ∧
      program 0 { files := done.files } (disasmLine "p.bin" []) = (after, .status 1) :=
  program_mill_long (Nat.le_refl 8193)

end WordMachine.Cli
