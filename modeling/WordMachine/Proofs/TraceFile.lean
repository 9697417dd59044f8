import WordMachine.Proofs.RunCommand
import WordMachine.Proofs.ShellFiles
import WordMachine.Proofs.Tracing

/-!
The file of a trace. From the moment it has been opened it receives a stamp, a line for each
instruction that is executed and, however the run ends, another stamp. But the lines of input are
read after it has been opened, and if they cannot be read nobody stamps the end.
-/
namespace WordMachine

theorem TraceLine.textOf_append (time : String) (lines more : List TraceLine) :
    textOf time (lines ++ more) = textOf time lines ++ textOf time more := by
  rw [textOf, List.map_append, String.join_append]
  rfl

namespace Cli

open Shell Session

variable {sh ready mid : Shell} {a : RunArguments} {path : String} {s : Session}
  {image : List UInt8}

theorem appends_closeTrace (hfile : a.traceFile = some path)
    (hq : sh.files.Writable (.ofText path)) (htracing : s.IsTracing) :
    Appends (.ofText path) sh (closeTrace sh a s) (TraceLine.textOf sh.stampTime [.stopped]) := by
  obtain ⟨t, hobserver, hrunning⟩ := htracing
  have hstamp : t.close.2 = some .stopped := by simp [Tracer.close, Tracer.stop, hrunning]
  rw [closeTrace, hobserver]
  dsimp only [Observer.tracer?]
  rw [hstamp, hfile]
  exact appends_writeTrace hq _

theorem appends_concludeRun (hfile : a.traceFile = some path)
    (hq : sh.files.Writable (.ofText path)) (hapart : sh.LogsApart (.ofText path))
    (htracing : s.IsTracing) (event : Event) :
    Appends (.ofText path) sh (concludeRun sh a s event).1
      (TraceLine.textOf sh.stampTime [.stopped]) := by
  have hclose {mid : Shell} (h : Appends (.ofText path) sh mid "") :
      Appends (.ofText path) sh (closeTrace mid a s)
        (TraceLine.textOf sh.stampTime [.stopped]) := by
    rw [← h.stampTime]
    exact (appends_closeTrace hfile (hq.congr h.directories) htracing).after h
  have hnote := hapart.note
  cases event with
  | running | unreported => exact hclose (.refl sh)
  | stopped =>
    have hclosed := hclose (.refl sh)
    exact hclosed.before ((hapart.of_appends hclosed).note _)
  | failed f =>
    have herror := hnote (errorRecord "cmd_run" 114 f.text)
    exact hclose (herror.before ((hapart.of_appends herror).note _))
  | noInput why =>
    cases why with
    | unreported => exact hclose (.refl sh)
    | _ => exact hclose (hnote _)

theorem appends_takeOver (hfile : a.traceFile = some path)
    (hq : sh.files.Writable (.ofText path)) (hapart : sh.LogsApart (.ofText path)) :
    Appends (.ofText path) sh (takeOver sh a s) (TraceLine.textOf sh.stampTime s.traced) := by
  rw [takeOver, hfile]
  exact (appends_publish hq hapart s.journal.toList).before (.of_files rfl rfl rfl)

/-- A run adds to its trace the lines of the instructions that it executes, and a stamp. -/
theorem appends_runSession (hfile : a.traceFile = some path)
    (hq : sh.files.Writable (.ofText path)) (hapart : sh.LogsApart (.ofText path))
    (hw : s.machine.WellFormed) (hdirect : s.front = .direct) (htracing : s.IsTracing)
    (fuel : Nat) :
    Appends (.ofText path) sh (runSession fuel sh a s).1 (TraceLine.textOf sh.stampTime
      (s.traced ++ (s.recorded (s.runLength fuel)).map .executed ++ [.stopped])) := by
  obtain ⟨hlast, htraced⟩ := tracing_after hw hdirect htracing (s.runLength fuel)
  rw [← run_eq_after] at hlast htraced
  rw [← htraced, TraceLine.textOf_append, runSession]
  generalize s.run fuel = result at hlast ⊢
  obtain ⟨t, event⟩ := result
  have htaken : Appends (.ofText path) sh (takeOver sh a t) _ := appends_takeOver hfile hq hapart
  have hq' := hq.congr htaken.directories
  have htime := htaken.stampTime
  cases event with
  | none => exact htaken.trans (htime ▸ appends_closeTrace hfile hq' hlast)
  | some event =>
    exact htaken.trans (htime ▸
      appends_concludeRun hfile hq' (hapart.of_appends htaken) hlast event)

theorem exists_openTrace (htrace : a.trace = true) (hfile : a.traceFile = some path)
    (hq : sh.files.Writable (.ofText path)) (hapart : sh.LogsApart (.ofText path)) :
    ∃ traced, openTrace sh a = .ok (traced, some { running := true }) ∧
      sh.Reports traced [] ∧
      Appends (.ofText path) sh traced (TraceLine.textOf sh.stampTime [.started]) := by
  obtain ⟨files, hopens⟩ : ∃ files, sh.files.append (.ofText path) [] = .ok files :=
    FileTree.exists_update_iff.mpr hq
  have hempty : Appends (.ofText path) sh { sh with files } "" := .opened _ hopens
  have hnoted := hempty.trans ((hapart.of_appends hempty).note
    (.mk ⟨.info, .tracer, "__init__", 34, s!"Tracing to file '{(Path.ofText path).text}'"⟩))
  have hstamped := appends_writeTrace (hq.congr hnoted.directories) [.started]
  rw [hnoted.stampTime] at hstamped
  refine ⟨_, ?_, ?_, hstamped.after hnoted⟩
  · rw [openTrace, htrace, hfile]
    simp only [Bool.not_true, Bool.false_and, Bool.false_eq_true, if_false, hopens, bind,
      Except.bind]
    rfl
  · exact (Reports.writeTrace _ path _).after
      ((Reports.note _ Log.Level.info_lt_error).after (.files sh files))

theorem tracing_sessionOf (hdirect : a.direct = true) (sh : Shell) (memory : Memory)
    (lines : List String) :
    let s := (sessionOf sh a memory (some { running := true })).feedAll lines
    s.machine.WellFormed ∧ s.front = .direct ∧ s.IsTracing ∧ s.traced = [] := by
  refine ⟨Machine.wellFormed_fresh _ _, ?_, ⟨_, rfl, rfl⟩, (traced_feedAll lines).trans rfl⟩
  simp [feedAll, sessionOf, hdirect]

theorem appends_imageLoaded (hapart : sh.LogsApart (.ofText path)) (a : RunArguments)
    (image : List UInt8) :
    Appends (.ofText path) sh (imageLoaded sh a image) "" := by
  have hfound : Appends (.ofText path) sh (noteLoading sh a.image image) "" := hapart.note _
  exact hfound.trans ((hapart.of_appends hfound).note _)

theorem appends_refuse (hapart : sh.LogsApart (.ofText path)) (e : Escape) :
    Appends (.ofText path) sh (sh.refuse e).1 "" := by
  unfold Shell.refuse
  split
  · exact hapart.note _
  · exact .refl sh

theorem contents_run (htrace : a.trace = true) (hdirect : a.direct = true)
    (hfile : a.traceFile = some path) (hread : sh.files.read (.ofText a.image) = .ok image)
    (hlength : image.length ≤ 65536) (hq : sh.files.Writable (.ofText path))
    (hapart : sh.LogsApart (.ofText path)) :
    ∃ memory traced tracer, Memory.ofImage image = .ok memory ∧
      openTrace (imageLoaded sh a image) a = .ok (traced, tracer) ∧
      (∀ e, queuedLines traced a = .error e → ∀ fuel,
        (run fuel sh a).1.files.contents (.ofText path) = sh.files.contents (.ofText path) ++
            Text.utf8Encode (TraceLine.textOf sh.stampTime [.started]) ∧
          (run fuel sh a).2 = (traced.refuse e).2) ∧
      ∀ lines, queuedLines traced a = .ok lines → ∀ fuel,
        let s := (plainSession sh memory).feedAll lines
        (run fuel sh a).1.files.contents (.ofText path) = sh.files.contents (.ofText path) ++
          Text.utf8Encode (TraceLine.textOf sh.stampTime
            (.started :: (s.recorded (s.runLength fuel)).map .executed ++ [.stopped])) ∧
        (run fuel sh a).2 = endingOf (s.run fuel).2 := by
  have hmemory := ofImage_of_le hlength
  have hloaded := appends_imageLoaded hapart a image
  obtain ⟨traced, hopens, hreports, hstarted⟩ := exists_openTrace htrace hfile
    (hq.congr hloaded.directories) (hapart.of_appends hloaded)
  rw [hloaded.stampTime] at hstarted
  have hbegun := hstarted.after hloaded
  have hapart' := hapart.of_appends hbegun
  have hready := hreports.after (imageLoaded_reports sh a image)
  refine ⟨_, traced, _, hmemory, hopens, fun e hqueued fuel => ?_, fun lines hqueued fuel => ?_⟩
  all_goals
    rw [run_of_loaded fuel hread hmemory, hopens]
    dsimp only
    rw [hqueued]
  · exact ⟨(hbegun.before (appends_refuse hapart' e)).contents, rfl⟩
  · obtain ⟨hw, hfront, htracing, hnothing⟩ := tracing_sessionOf hdirect traced
      ⟨Memory.overwrite Memory.empty.cells 0 image⟩ lines
    have halike := (alike_sessionOf hdirect hready
      ⟨Memory.overwrite Memory.empty.cells 0 image⟩ (some { running := true })).feedAll lines
    have hran := appends_runSession hfile (hq.congr hbegun.directories) hapart' hw hfront htracing
      fuel
    rw [hbegun.stampTime, hnothing, halike.runLength, halike.recorded] at hran
    refine ⟨?_, ?_⟩
    · have hadded := (hbegun.trans hran).contents
      rw [← TraceLine.textOf_append] at hadded
      exact hadded
    · rw [(runSession_ends hfile fuel traced _).1, (halike.run fuel).2]

/-- The file of a trace tells a whole run. Once the file has been opened and the program has come to
an end, whatever that is, the file has its earlier contents, a stamp, one line for each executed
instruction in the order of execution and another stamp. Only if the lines of input cannot be read,
which is before the run, it has the first stamp alone. -/
theorem trace_file_tells_run {ready : Shell} {arguments : List String} {i : Invocation}
    (harguments : readArguments arguments = .ok i) (hcommand : i.command = some (.run a))
    (htrace : a.trace = true) (hdirect : a.direct = true) (hfile : a.traceFile = some path)
    (hready : sh.setUpLog (logLevel i.verbosity) i.logFile = (ready, none))
    (hread : ready.files.read (.ofText a.image) = .ok image) (hlength : image.length ≤ 65536)
    (hq : ready.files.Writable (.ofText path)) (hapart : ready.LogsApart (.ofText path)) :
    ∃ memory traced tracer, Memory.ofImage image = .ok memory ∧
      openTrace (imageLoaded ready a image) a = .ok (traced, tracer) ∧
      ∀ fuel done ending, program fuel sh arguments = (done, ending) → ending ≠ .unfinished →
        (∀ lines, queuedLines traced a = .ok lines →
          let s := (plainSession ready memory).feedAll lines
          (∃ event, s.run fuel = (s.after (s.runLength fuel), some event)) ∧
          done.files.contents (.ofText path) = ready.files.contents (.ofText path) ++
            Text.utf8Encode (TraceLine.textOf ready.stampTime
              (.started :: (s.recorded (s.runLength fuel)).map .executed ++ [.stopped])) ∧
          ∀ r ∈ s.recorded (s.runLength fuel), '\n' ∉ r.line.toList) ∧
        ∀ e, queuedLines traced a = .error e →
          done.files.contents (.ofText path) = ready.files.contents (.ofText path) ++
            Text.utf8Encode (TraceLine.textOf ready.stampTime [.started]) := by
  obtain ⟨memory, traced, tracer, hmemory, hopens, hunread, hruns⟩ := contents_run htrace
    hdirect hfile hread hlength hq hapart
  refine ⟨memory, traced, tracer, hmemory, hopens, fun fuel done ending hprogram hends => ?_⟩
  have hrun : run fuel ready a = (done, ending) :=
    (program_ready fuel harguments hcommand hready).symm.trans hprogram
  refine ⟨fun lines hqueued => ?_, fun e hqueued => ?_⟩
  · obtain ⟨hcontents, hending⟩ := hruns lines hqueued fuel
    rw [hrun] at hcontents hending
    refine ⟨?_, hcontents, fun r => newline_not_mem_recorded⟩
    have hlast := run_eq_after ((plainSession ready memory).feedAll lines) fuel
    generalize ((plainSession ready memory).feedAll lines).run fuel = result at hending hlast ⊢
    obtain ⟨t, _ | event⟩ := result
    · exact absurd hending hends
    · exact ⟨event, Prod.ext hlast rfl⟩
  · have hcontents := (hunread e hqueued fuel).1
    rwa [hrun] at hcontents

def letter : List UInt8 := [19, 0, 65, 0, 0, 0]

/-- The program, and a file with an older trace. -/
def tracing : Shell where
  files := { entries := [(["p.bin"], .file letter), (["t.log"], .file (Text.utf8Encode "old\n"))] }
  stampTime := "now"

def tracingReady : Shell := { tracing with logger := tracing.logger.configure .warning none }

theorem tracingReady_files :
    tracingReady.files.read (.ofText "p.bin") = .ok letter ∧
      tracingReady.files.Writable (.ofText "t.log") ∧ tracingReady.LogsApart (.ofText "t.log") :=
  ⟨by decide +kernel, ⟨["t.log"], by decide +kernel, by decide +kernel⟩,
    (logsToError_configure tracing 0).logsApart _⟩

def letterArguments : RunArguments :=
  { image := "p.bin", traceFile := some "t.log", trace := true, direct := true }

theorem letter_run :
    let s := (plainSession tracingReady ⟨Memory.overwrite Memory.empty.cells 0 letter⟩).feedAll []
    (s.run 5).2 = some (.stopped .halt) ∧
      s.recorded (s.runLength 5) = [⟨0, "out", [65], [65]⟩, ⟨2, "halt", [], []⟩] := by
  decide +kernel

theorem letter_traced :
    let result := program 5 tracing (runLine "p.bin" [.traceFile "t.log", .trace, .direct])
    result.2 = .status 0 ∧ result.1.files.contents (.ofText "t.log") = Text.utf8Encode
      ("old\n" ++ TraceLine.textOf "now" [.started, .executed ⟨0, "out", [65], [65]⟩,
        .executed ⟨2, "halt", [], []⟩, .stopped]) := by
  have hline : readArguments (runLine "p.bin" [.traceFile "t.log", .trace, .direct]) =
      .ok { command := some (.run letterArguments) } :=
    readArguments_runLine (by decide) (by simp [RunSetting.value?, IsPlainName])
  obtain ⟨hread, hwritable, hapart⟩ := tracingReady_files
  have hearlier : tracingReady.files.contents (.ofText "t.log") = Text.utf8Encode "old\n" := by
    decide +kernel
  have hready : tracing.setUpLog .warning none = (tracingReady, none) := rfl
  obtain ⟨memory, traced, tracer, hmemory, hopens, htells⟩ := trace_file_tells_run hline rfl rfl rfl
    rfl hready hread (by decide) hwritable hapart
  obtain rfl := Except.ok.inj (hmemory.symm.trans (ofImage_of_le (by decide)))
  obtain ⟨hevent, hrecorded⟩ := letter_run
  have hqueued (sh : Shell) : queuedLines sh letterArguments = .ok [] := rfl
  generalize hprogram : program 5 tracing _ = result
  obtain ⟨done, ending⟩ := result
  obtain rfl : ending = .status 0 := by
    obtain ⟨memory, _, _, hmemory, -, -, hends⟩ := contents_run (a := letterArguments) rfl rfl rfl
      hread (by decide) hwritable hapart
    obtain rfl := Except.ok.inj (hmemory.symm.trans (ofImage_of_le (by decide)))
    have hending := (hends [] (hqueued _) 5).2
    rw [program_run 5 hline] at hprogram
    rw [hevent] at hending
    exact (congrArg Prod.snd hprogram).symm.trans hending
  obtain ⟨-, hcontents, -⟩ := (htells 5 done _ hprogram Ending.noConfusion).1 [] (hqueued traced)
  rw [hrecorded, hearlier] at hcontents
  refine ⟨rfl, hcontents.trans ?_⟩
  rw [Text.utf8Encode_append]
  rfl

def unreadArguments : RunArguments := { letterArguments with input := some "missing.txt" }

/-- If the lines of input cannot be read, nobody stamps the end of the trace. -/
theorem unread_input_leaves_trace_open :
    let result := program 5 tracing
      (runLine "p.bin" [.traceFile "t.log", .input "missing.txt", .trace, .direct])
    result.2 = .status 1 ∧ result.1.files.contents (.ofText "t.log") =
      Text.utf8Encode "old\nnow - Logging started\n" := by
  have hreads : readArguments
      (runLine "p.bin" [.traceFile "t.log", .input "missing.txt", .trace, .direct]) =
      .ok { command := some (.run unreadArguments) } :=
    readArguments_runLine (by decide) (by simp [RunSetting.value?, IsPlainName])
  obtain ⟨hread, hwritable, hapart⟩ := tracingReady_files
  obtain ⟨memory, traced, tracer, hmemory, hopens, hunread, -⟩ := contents_run
    (a := unreadArguments) rfl rfl rfl hread (by decide) hwritable hapart
  have hqueued : (openTrace (imageLoaded tracingReady unreadArguments letter)
      unreadArguments).toOption.map (fun opened => queuedLines opened.1 unreadArguments) =
      some (.error (.file (.refused .notFound "missing.txt"))) := by
    decide +kernel
  rw [hopens] at hqueued
  have hearlier : tracingReady.files.contents (.ofText "t.log") = Text.utf8Encode "old\n" := by
    decide +kernel
  rw [program_run 5 hreads]
  obtain ⟨hcontents, hending⟩ := hunread _ (Option.some.inj hqueued) 5
  refine ⟨hending, hcontents.trans ?_⟩
  rw [hearlier, ← Text.utf8Encode_append]
  rfl

end Cli

end WordMachine
