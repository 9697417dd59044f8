import WordMachine.Proofs.CommandLine
import WordMachine.Proofs.DirectRun
import WordMachine.Proofs.Invocation
import WordMachine.Proofs.MemoryBytes

/-!
Running an image without a debugger comes to what its machine comes to. What the program writes goes
to standard output as it is, the status tells how the run has ended, and there is an error in the
log exactly if the machine has failed.
-/
namespace WordMachine.Cli

open Shell Session

theorem feedAll_nil (s : Session) : s.feedAll [] = s := by
  simp [feedAll, CharConsole.feedAll_nil]

/-- The session in which the program reads standard input and nobody watches. -/
def plainSession (sh : Shell) (memory : Memory) : Session where
  machine := { memory }
  front := .direct
  lines := sh.input
  ending := sh.ending

/-- The status that a run comes to when it has ended in some way, and the errors in the log. -/
inductive Answers : Event → Nat → List Log.Record → Prop where
  | stopped {reason : StopReason} : Answers (.stopped reason) 0 []
  | failed {f : Fault} : Answers (.failed f) 1 [errorRecord "cmd_run" 114 f.text]
  | exhausted : Answers (.noInput .exhausted) 0 []
  | interrupted : Answers (.noInput .interrupted) 130 []

variable {sh : Shell} {a : RunArguments} {path : String} {s t : Session} {event : Event}
  {code fuel : Nat} {errors : List Log.Record} {memory : Memory}

def imageLoaded (sh : Shell) (a : RunArguments) (image : List UInt8) : Shell :=
  noteLoaded (noteLoading sh a.image image) image

theorem imageLoaded_reports (sh : Shell) (a : RunArguments) (image : List UInt8) :
    sh.Reports (imageLoaded sh a image) [] :=
  (Reports.note _ Log.Level.debug_lt_error).after (.note _ Log.Level.info_lt_error)

theorem Shell.LogsToError.files_imageLoaded (hlog : sh.LogsToError) (a : RunArguments)
    (image : List UInt8) : (imageLoaded sh a image).files = sh.files := by
  have hloading : sh.Reports (noteLoading sh a.image image) [] := .note _ Log.Level.info_lt_error
  exact ((hloading.logsToError hlog).files_note _).trans (hlog.files_note _)

theorem ofImage_of_le {image : List UInt8} (h : image.length ≤ 65536) :
    Memory.ofImage image = .ok ⟨Memory.overwrite Memory.empty.cells 0 image⟩ := by
  rw [Memory.ofImage, Memory.load_of_inside _ _ (by decide), if_pos (by omega)]
  rfl

theorem ofImage_of_lt {image : List UInt8} (h : 65536 < image.length) :
    Memory.ofImage image = .error (.imageTooLong image.length 0) := by
  rw [Memory.ofImage, Memory.load_of_inside _ _ (by decide), if_neg (by omega)]

section Opening

variable {image : List UInt8} (fuel : Nat)

theorem run_of_unread {e : FileError} (hread : sh.files.read (.ofText a.image) = .error e) :
    run fuel sh a = sh.refuse (.file e) := by
  rw [run, hread]

theorem run_of_too_long (hread : sh.files.read (.ofText a.image) = .ok image)
    (hlength : 65536 < image.length) :
    run fuel sh a = (noteLoading sh a.image image).fail "main" 187
      (Cause.imageTooLong image.length 0).fault.text := by
  have hreportable : (Cause.imageTooLong image.length 0).IsReportable := by
    simp [Cause.IsReportable, Cause.shown]
  rw [run, hread]
  dsimp only
  rw [ofImage_of_lt hlength]
  dsimp only
  rw [failWith_of_reportable _ hreportable]

theorem run_of_loaded (hread : sh.files.read (.ofText a.image) = .ok image)
    (hmemory : Memory.ofImage image = .ok memory) :
    run fuel sh a = match openTrace (imageLoaded sh a image) a with
      | .error e => (imageLoaded sh a image).refuse (.file e)
      | .ok (ready, tracer) =>
        match queuedLines ready a with
        | .error e => ready.refuse e
        | .ok queued =>
          runSession fuel ready a ((sessionOf ready a memory tracer).feedAll queued) := by
  rw [run, hread]
  dsimp only
  rw [hmemory]
  rfl

end Opening

theorem openTrace_reports (hdirect : a.direct = true) (hfile : a.traceFile = some path)
    (hwritable : a.trace = true → ∃ files, sh.files.append (.ofText path) [] = .ok files) :
    ∃ done tracer, openTrace sh a = .ok (done, tracer) ∧ sh.Reports done [] := by
  unfold openTrace
  cases htrace : a.trace with
  | false =>
    simp only [hdirect]
    exact ⟨sh, none, rfl, .refl sh⟩
  | true =>
    obtain ⟨files, hopens⟩ := hwritable htrace
    simp only [hfile, hopens, bind, Except.bind]
    exact ⟨_, _, rfl, (Reports.writeTrace _ path _).after
      ((Reports.note _ Log.Level.info_lt_error).after (.files sh files))⟩

theorem closeTrace_reports (sh : Shell) (hfile : a.traceFile = some path) (s : Session) :
    sh.Reports (closeTrace sh a s) [] := by
  unfold closeTrace
  split
  · rw [hfile]
    exact .writeTrace sh path _
  · exact .refl sh

def endingOf : Option Event → Ending
  | some (.stopped _) | some (.noInput .exhausted) => .status 0
  | some (.noInput .quit) | some (.noInput .unattached) => .status 0
  | some (.failed _) => .status 1
  | some (.noInput .interrupted) => .status 130
  | some .unreported | some (.noInput .unreported) => .escape .unreported
  | some .running | none => .unfinished

theorem output_takeOver (sh : Shell) (a : RunArguments) (s : Session) :
    (takeOver sh a s).output =
      sh.output ++ (s.machine.console.sink.map (·.text)).getD "" := by
  rw [takeOver, publish]
  obtain ⟨files, heq⟩ := extendAll_eq
    { sh with reported := sh.reported ++ (sh.reportedOf s.journal.toList).toArray } _
  rw [heq]

theorem concludeRun_ends (hfile : a.traceFile = some path) (sh : Shell) (s : Session)
    (event : Event) :
    (concludeRun sh a s event).2 = endingOf (some event) ∧
      (concludeRun sh a s event).1.output = sh.output := by
  have hclosed (sh : Shell) : (closeTrace sh a s).output = sh.output :=
    (closeTrace_reports sh hfile s).output
  cases event with
  | running | unreported => exact ⟨rfl, hclosed _⟩
  | stopped => exact ⟨rfl, (output_note ..).trans (hclosed _)⟩
  | failed =>
    exact ⟨rfl, (hclosed _).trans ((output_note ..).trans (output_note ..))⟩
  | noInput why =>
    cases why with
    | unreported => exact ⟨rfl, hclosed _⟩
    | _ => exact ⟨rfl, (hclosed _).trans (output_note ..)⟩

theorem runSession_ends (hfile : a.traceFile = some path) (fuel : Nat) (sh : Shell)
    (s : Session) :
    (runSession fuel sh a s).2 = endingOf (s.run fuel).2 ∧
      (runSession fuel sh a s).1.output =
        sh.output ++ ((s.run fuel).1.machine.console.sink.map (·.text)).getD "" := by
  unfold runSession
  generalize s.run fuel = result
  obtain ⟨t, _ | event⟩ := result
  · exact ⟨rfl, (closeTrace_reports _ hfile t).output.trans (output_takeOver sh a t)⟩
  · obtain ⟨hending, houtput⟩ := concludeRun_ends hfile (takeOver sh a t) t event
    exact ⟨hending, houtput.trans (output_takeOver sh a t)⟩

theorem concludeRun_answers (hlog : sh.HearsErrors) (hfile : a.traceFile = some path)
    (h : Answers event code errors) :
    ∃ done, concludeRun sh a s event = (done, .status code) ∧ sh.Reports done errors := by
  cases h with
  | stopped =>
    have hclosed := closeTrace_reports sh hfile s
    exact ⟨_, rfl, (Reports.note _ Log.Level.info_lt_error).after hclosed⟩
  | @failed f =>
    have herror := Reports.error (r := errorRecord "cmd_run" 114 f.text) hlog rfl
    have hnote := Reports.note (sh.note (errorRecord "cmd_run" 114 f.text))
      (r := .mk ⟨.debug, .commandLine, "cmd_run", 115, s!"Machine state: {s.machine.display}"⟩)
      Log.Level.debug_lt_error
    exact ⟨_, rfl, (herror.before hnote).before (closeTrace_reports _ hfile s)⟩
  | exhausted =>
    exact ⟨_, rfl, (closeTrace_reports _ hfile s).after (.note _ Log.Level.info_lt_error)⟩
  | interrupted =>
    exact ⟨_, rfl, (closeTrace_reports _ hfile s).after (.note _ Log.Level.warning_lt_error)⟩

theorem runSession_answers (hlog : sh.HearsErrors) (hfile : a.traceFile = some path)
    (hopen : s.Open) (hrun : s.run fuel = (t, some event)) (h : Answers event code errors) :
    ∃ done, runSession fuel sh a s = (done, .status code) ∧
      done.output = sh.output ++ t.machine.console.text ∧ done.alarms = sh.alarms ++ errors := by
  have hlast : t.Open := by
    have := hopen.run fuel
    rwa [hrun] at this
  have hpublished := Reports.publish sh a.traceFile t.journal.toList
    fun r hr => hlast.calm r (Array.mem_toList_iff.mp hr)
  have houtput : (takeOver sh a t).output = sh.output ++ t.machine.console.text := by
    rw [takeOver, hlast.shows, Option.getD_some]
    exact congrArg (· ++ _) hpublished.output
  have hlogs : (takeOver sh a t).HearsErrors := hpublished.hearsErrors hlog
  obtain ⟨done, hends, hreports⟩ := concludeRun_answers (s := t) hlogs hfile h
  refine ⟨done, ?_, hreports.output.trans houtput, hreports.alarms.trans ?_⟩
  · rw [runSession, hrun]
    exact hends
  · have halarms : (takeOver sh a t).alarms = sh.alarms ++ [] := hpublished.alarms
    rw [halarms, List.append_nil]

theorem open_sessionOf (hdirect : a.direct = true) (hfile : a.traceFile = some path)
    (memory : Memory) (tracer : Option Tracer) : (sessionOf sh a memory tracer).Open where
  direct := by simp [sessionOf, hdirect]
  apart := by simp [sessionOf, hfile]
  shows := rfl
  calm := by simp [Calm, sessionOf]

theorem alike_sessionOf {done : Shell} (hdirect : a.direct = true) (h : sh.Reports done [])
    (memory : Memory) (tracer : Option Tracer) :
    (sessionOf done a memory tracer).Alike (plainSession sh memory) where
  direct := by simp [sessionOf, hdirect]
  direct' := rfl
  machine := rfl
  lines := h.input
  ending := h.ending

/-- What a run that ends comes to. -/
theorem run_answers {image : List UInt8} (hlog : sh.LogsToError) (hdirect : a.direct = true)
    (hinput : a.input = none) (hfile : a.traceFile = some path)
    (hread : sh.files.read (.ofText a.image) = .ok image)
    (hmemory : Memory.ofImage image = .ok memory)
    (hwritable : a.trace = true → ∃ files, sh.files.append (.ofText path) [] = .ok files)
    (hrun : (plainSession sh memory).run fuel = (t, some event)) (h : Answers event code errors) :
    ∃ done, run fuel sh a = (done, .status code) ∧
      done.output = sh.output ++ t.machine.console.text ∧ done.alarms = sh.alarms ++ errors := by
  have hloaded := imageLoaded_reports sh a image
  obtain ⟨traced, tracer, hopens, htracing⟩ := openTrace_reports hdirect hfile
    (hlog.files_imageLoaded a image ▸ hwritable)
  have hready := htracing.after hloaded
  have hqueued : queuedLines traced a = .ok [] := by rw [queuedLines, hinput]; rfl
  rw [run_of_loaded fuel hread hmemory, hopens]
  dsimp only
  rw [hqueued]
  dsimp only
  rw [feedAll_nil]
  obtain ⟨halike, hevent⟩ := (alike_sessionOf hdirect hready memory tracer).run fuel
  rw [hrun] at halike hevent
  obtain ⟨done, hends, houtput, halarms⟩ := runSession_answers
    (hready.logsToError hlog).hearsErrors hfile
    (open_sessionOf hdirect hfile memory tracer) (Prod.ext rfl hevent) h
  refine ⟨done, hends, ?_, ?_⟩
  · have htext := congrArg (fun m : Machine => m.console.text) halike.machine
    rw [houtput, hready.output]
    exact congrArg (sh.output ++ ·) htext
  · rw [halarms, hready.alarms, List.append_nil]

theorem run_too_long {image : List UInt8} (hlog : sh.LogsToError)
    (hread : sh.files.read (.ofText a.image) = .ok image) (hlength : 65536 < image.length)
    (fuel : Nat) :
    ∃ done, run fuel sh a = (done, .status 1) ∧ done.output = sh.output ∧
      done.files = sh.files := by
  have hloading : sh.Reports (noteLoading sh a.image image) [] := .note _ Log.Level.info_lt_error
  have hlog' := hloading.logsToError hlog
  refine ⟨_, run_of_too_long fuel hread hlength, ?_, ?_⟩
  · exact (Reports.error hlog'.hearsErrors rfl).output.trans hloading.output
  · exact (hlog'.files_note _).trans (hlog.files_note _)

theorem program_run {arguments : List String} {verbosity : Nat} (fuel : Nat)
    (h : readArguments arguments = .ok { verbosity, command := some (.run a) }) :
    program fuel sh arguments =
      run fuel { sh with logger := sh.logger.configure (logLevel verbosity) none } a := by
  rw [program_unlogged fuel sh h]
  rfl

theorem exists_answers (h : t.Finishes event)
    (hending : t.ending = .exhausted ∨ t.ending = .interrupted) :
    ∃ code errors, Answers event code errors := by
  cases h with
  | stopped => exact ⟨_, _, .stopped⟩
  | failed => exact ⟨_, _, .failed⟩
  | noInput =>
    obtain heof | hinterrupted := hending
    · exact ⟨_, _, by rw [heof]; exact .exhausted⟩
    · exact ⟨_, _, by rw [hinterrupted]; exact .interrupted⟩

/-- Running an image without a debugger refines the run of its machine. A command line that spells
this out is read as it looks. If the run of the machine ends, what it has written is what standard
output receives, and the status and the errors in the log answer the way it has ended; a failure is
reported with its place. An image that does not fit is refused with nothing written and no file
touched. -/
theorem run_command_refines :
    (∀ name settings, IsPlainName name →
      (∀ s ∈ settings, ∀ value ∈ s.value?, IsPlainName value) →
      readArguments (runLine name settings) =
        .ok { command := some (.run (settings.foldl (fun a s => s.apply a) { image := name })) }) ∧
    ∀ (sh : Shell) (arguments : List String) (verbosity : Nat) (a : RunArguments) (path : String)
      (image : List UInt8),
      readArguments arguments = .ok { verbosity, command := some (.run a) } →
      a.direct = true → a.input = none → a.traceFile = some path →
      sh.files.read (.ofText a.image) = .ok image →
      sh.ending = .exhausted ∨ sh.ending = .interrupted →
      (image.length ≤ 65536 →
        (a.trace = true → ∃ files, sh.files.append (.ofText path) [] = .ok files) →
        ∃ memory, Memory.ofImage image = .ok memory ∧
          ∀ fuel t event, (plainSession sh memory).run fuel = (t, some event) →
            ∃ done code errors, program fuel sh arguments = (done, .status code) ∧
              done.output = sh.output ++ Text.latin1 t.machine.console.output.toList ∧
              Answers event code errors ∧ done.alarms = sh.alarms ++ errors ∧
              ∀ f, event = .failed f → f.pc = some t.machine.pc ∧
                f.opcode = t.machine.opcode?.map Opcode.mnemonic) ∧
      (65536 < image.length → ∀ fuel, ∃ done, program fuel sh arguments = (done, .status 1) ∧
        done.output = sh.output ∧ done.files = sh.files) := by
  refine ⟨fun name settings => readArguments_runLine, fun sh arguments verbosity a path image
    harguments hdirect hinput hfile hread hending => ⟨fun hlength hwritable => ?_,
      fun hlength fuel => ?_⟩⟩
  · have hmemory := Memory.load_of_inside .empty image (a := 0) (by decide)
    rw [if_pos (by omega)] at hmemory
    refine ⟨_, hmemory, fun fuel t event hrun => ?_⟩
    obtain ⟨hfinishes, hsame⟩ := finishes_of_run (Machine.wellFormed_fresh _ _) rfl hrun
    obtain ⟨code, errors, hanswers⟩ := exists_answers hfinishes (hsame ▸ hending)
    obtain ⟨done, hends, houtput, halarms⟩ := run_answers (logsToError_configure sh verbosity)
      hdirect hinput hfile hread hmemory hwritable hrun hanswers
    refine ⟨done, code, errors, (program_run fuel harguments).trans hends, houtput, hanswers,
      halarms, ?_⟩
    rintro f rfl
    cases hfinishes with
    | failed hpc hopcode => exact ⟨hpc, hopcode⟩
  · rw [program_run fuel harguments]
    exact run_too_long (logsToError_configure sh verbosity) hread hlength fuel

def misleading : List UInt8 := [19, 0, 65, 0, 6, 0, 255, 255]

/-- One byte more than the memory holds; nothing that evaluates should write it out. -/
@[irreducible] def oversized : List UInt8 := List.replicate 65537 0

theorem length_oversized : 65536 < oversized.length := by
  rw [oversized, List.length_replicate]
  decide

def misled : Shell where
  files := { entries := [(["p.bin"], .file misleading), (["long.bin"], .file oversized)] }

theorem locate_name (t : FileTree) (name : String) (hnull : '\x00' ∉ name.toList)
    (hlength : name.utf8ByteSize ≤ FileTree.nameLimit) (hup : name ≠ "..") :
    t.locate ⟨"", [name]⟩ = .ok [name] := by
  have htext : Path.text ⟨"", [name]⟩ = name := by
    simp only [Path.text, reduceCtorEq, and_false, if_false]
    exact String.empty_append
  have hlimit : ¬FileTree.pathLimit < name.utf8ByteSize := by
    simp only [FileTree.nameLimit, FileTree.pathLimit] at hlength ⊢
    omega
  simp [FileTree.locate, htext, hnull, hlimit, FileTree.follow, FileTree.entryAt,
    FileTree.isFixed, Nat.not_lt.2 hlength, FileTree.descend, hup]

theorem misled_files :
    misled.files.read (.ofText "p.bin") = .ok misleading ∧
      misled.files.read (.ofText "long.bin") = .ok oversized ∧
      ∃ files, misled.files.append (.ofText "t.log") [] = .ok files := by
  have hfirst := locate_name misled.files "p.bin" (by decide) (by decide) (by decide)
  have hsecond := locate_name misled.files "long.bin" (by decide) (by decide) (by decide)
  have htrace := locate_name misled.files "t.log" (by decide) (by decide) (by decide)
  refine ⟨?_, ?_, misled.files.put ["t.log"] (.file []), ?_⟩
  · rw [FileTree.read, show Path.ofText "p.bin" = ⟨"", ["p.bin"]⟩ by decide, hfirst]
    rfl
  · rw [FileTree.read, show Path.ofText "long.bin" = ⟨"", ["long.bin"]⟩ by decide, hsecond]
    rfl
  · rw [FileTree.append, FileTree.update, show Path.ofText "t.log" = ⟨"", ["t.log"]⟩ by decide,
      htrace]
    rfl

def misledLine (image : String) : List String :=
  runLine image [.direct, .trace, .traceFile "t.log"]

def misledSession : Session :=
  plainSession misled ⟨Memory.overwrite Memory.empty.cells 0 misleading⟩

theorem misledSession_run :
    (misledSession.run 9).2 =
        some (.failed ⟨.invalidNumber, "Invalid number (65535)", some 65535, some 2, some "jmp"⟩) ∧
      (misledSession.run 9).1.machine.console.output.toList = [65] := by
  decide +kernel

theorem misled_refines :
    (∃ done, program 9 misled (misledLine "p.bin") = (done, .status 1) ∧ done.output = "A" ∧
      done.alarms = [errorRecord "cmd_run" 114 "Invalid number (65535) [pc=2 op=jmp]"]) ∧
    ∃ done, program 9 misled (misledLine "long.bin") = (done, .status 1) ∧ done.output = "" ∧
      done.files = misled.files := by
  obtain ⟨hreads, hruns⟩ := run_command_refines
  obtain ⟨hread, hread', hwritable⟩ := misled_files
  have hplain : ∀ s ∈ [RunSetting.direct, .trace, .traceFile "t.log"], ∀ value ∈ s.value?,
      IsPlainName value := by
    simp [RunSetting.value?, IsPlainName]
  have hline (name : String) (hname : IsPlainName name) := hreads name _ hname hplain
  constructor
  · obtain ⟨memory, hmemory, hends⟩ := (hruns misled _ _ _ "t.log" misleading
      (hline "p.bin" (by decide)) rfl rfl rfl hread (.inl rfl)).1 (by decide) fun _ => hwritable
    obtain rfl : (⟨Memory.overwrite Memory.empty.cells 0 misleading⟩ : Memory) = memory :=
      Except.ok.inj hmemory
    obtain ⟨hevent, hshown⟩ := misledSession_run
    rw [misledSession] at hevent hshown
    generalize hrun : (plainSession misled _).run 9 = result at hevent hshown
    obtain ⟨t, event⟩ := result
    obtain rfl : event = _ := hevent
    obtain ⟨done, code, errors, hprogram, houtput, hanswers, halarms, -⟩ := hends 9 t _ hrun
    cases hanswers
    refine ⟨done, hprogram, ?_, halarms⟩
    rw [houtput, hshown]
    decide
  · obtain ⟨done, hends, houtput, hfiles⟩ := (hruns misled _ _ _ "t.log" oversized
      (hline "long.bin" (by decide)) rfl rfl rfl hread' (.inl rfl)).2 length_oversized 9
    exact ⟨done, hends, houtput, hfiles⟩

end WordMachine.Cli
