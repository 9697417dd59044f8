import WordMachine.Proofs.RunCommand
import WordMachine.Proofs.ShellFiles

/-!
Input from a file and from a stream. The lines of a file are queued before a run and those of a
stream are handed out in its course, which makes no difference to what is written and to how the run
ends. But a file is cut at every kind of line end and a stream only at its line feeds. A run with a
file goes as the run with the stream that has line feeds in place of all other line ends.
-/
namespace WordMachine

namespace Session

variable {s : Session}

theorem provided_feedAll (h : s.front = .direct) (lines : List String) :
    (s.feedAll lines).provided = { s with lines := lines ++ s.lines }.provided := by
  simp [provided, stock, lack, h, feedAll, fed, Machine.enqueue, CharConsole.feedAll]

end Session

namespace Cli

open Shell Session Text

variable {sh sh' : Shell} {a a' : RunArguments} {path file : String} {s s' : Session}
  {memory : Memory} {fuel : Nat}

/-- Both end in the same way and have written the same to standard output. -/
def SameOutcome (x y : Shell × Ending) : Prop := x.2 = y.2 ∧ x.1.output = y.1.output

theorem refuse_congr (houtput : sh.output = sh'.output) (e : Escape) :
    SameOutcome (sh.refuse e) (sh'.refuse e) := by
  unfold Shell.refuse
  split
  · exact ⟨rfl, (output_note ..).trans (houtput.trans (output_note ..).symm)⟩
  · exact ⟨rfl, houtput⟩

/-- The shell whose standard input has these lines and then ends. -/
def Shell.streaming (sh : Shell) (lines : List String) : Shell :=
  { sh with input := lines, ending := .exhausted }

theorem openTrace_of_direct (hdirect : a.direct = true) (htrace : a.trace = false) (sh : Shell) :
    openTrace sh a = .ok (sh, none) := by
  rw [openTrace, hdirect, htrace]
  rfl

theorem queuedLines_of_text (hinput : a.input = some file) (hname : file ≠ "") {text : List Char}
    (htext : sh.readText file = .ok text) :
    queuedLines sh a = .ok ((splitLines text).map String.ofList) := by
  have hnamed : (some file).filter (fun name => decide (name ≠ "")) = some file := by
    simp [Option.filter, hname]
  rw [queuedLines, hinput, hnamed]
  dsimp only
  rw [htext]
  rfl

/-- Queued or handed out, the same lines make a run write the same and end in the same way. -/
theorem runSession_filed (hdirect : a.direct = true) (hfile : a.traceFile = some path)
    {lines : List String} (hinput : sh.input = []) (hinput' : sh'.input = lines)
    (hending : sh.ending = sh'.ending) (houtput : sh.output = sh'.output)
    (hdirect' : a'.direct = true) (hfile' : a'.traceFile = some path) :
    SameOutcome (runSession fuel sh a ((sessionOf sh a memory none).feedAll lines))
      (runSession fuel sh' a' ((sessionOf sh' a' memory none).feedAll [])) := by
  have hsame : ((sessionOf sh a memory none).feedAll lines).provided =
      ((sessionOf sh' a' memory none).feedAll []).provided := by
    have hfront : (sessionOf sh a memory none).front = .direct := by simp [sessionOf, hdirect]
    rw [provided_feedAll hfront, feedAll_nil]
    simp [sessionOf, hdirect, hdirect', hfile, hfile', hinput, hinput', hending]
  have hplain : ((sessionOf sh a memory none).feedAll lines).IsPlain :=
    .inr (by simp [sessionOf, feedAll, hdirect])
  have hplain' : ((sessionOf sh' a' memory none).feedAll []).IsPlain :=
    .inr (by simp [sessionOf, feedAll, hdirect'])
  obtain ⟨hstate, hevent⟩ := run_congr hplain hplain' hsame fuel
  obtain ⟨hends, hwrites⟩ := runSession_ends hfile fuel sh
    ((sessionOf sh a memory none).feedAll lines)
  obtain ⟨hends', hwrites'⟩ := runSession_ends hfile' fuel sh'
    ((sessionOf sh' a' memory none).feedAll [])
  refine ⟨hends.trans ((congrArg endingOf hevent).trans hends'.symm), ?_⟩
  rw [hwrites, hwrites', (abreast_of_provided hstate).sink, houtput]

theorem run_filed (hlog : sh.LogsToError) (hdirect : a.direct = true) (htrace : a.trace = false)
    (hfile : a.traceFile = some path) (hinput : a.input = some file) (hname : file ≠ "")
    {text : List Char} (htext : sh.readText file = .ok text) (fuel : Nat) :
    SameOutcome (run fuel (sh.streaming []) a)
      (run fuel (sh.streaming ((splitLines text).map String.ofList)) { a with input := none }) := by
  generalize hlines : (splitLines text).map String.ofList = lines
  generalize hplain : { a with input := none } = b
  have himage : b.image = a.image := hplain ▸ rfl
  have hdirect' : b.direct = true := hplain ▸ hdirect
  have htrace' : b.trace = false := hplain ▸ htrace
  have hfile' : b.traceFile = some path := hplain ▸ hfile
  have hinput' : b.input = none := hplain ▸ rfl
  cases hread : sh.files.read (.ofText a.image) with
  | error e =>
    have hfiled : (sh.streaming []).files.read (.ofText a.image) = .error e := hread
    have hstreamed : (sh.streaming lines).files.read (.ofText b.image) = .error e := himage ▸ hread
    have houtput : (sh.streaming []).output = (sh.streaming lines).output := rfl
    rw [run_of_unread fuel hfiled, run_of_unread fuel hstreamed]
    exact refuse_congr houtput _
  | ok image =>
    have hfiled : (sh.streaming []).files.read (.ofText a.image) = .ok image := hread
    have hstreamed : (sh.streaming lines).files.read (.ofText b.image) = .ok image :=
      himage ▸ hread
    by_cases hlength : image.length ≤ 65536
    · have hmemory := ofImage_of_le hlength
      have hloaded := imageLoaded_reports (sh.streaming []) a image
      have hloaded' := imageLoaded_reports (sh.streaming lines) b image
      have hlog' : (sh.streaming []).LogsToError := hlog
      have hqueued : queuedLines (imageLoaded (sh.streaming []) a image) a = .ok lines := by
        have hfiles : (imageLoaded (sh.streaming []) a image).files = sh.files :=
          hlog'.files_imageLoaded a image
        rw [← hlines]
        refine queuedLines_of_text hinput hname ?_
        rw [readText, hfiles]
        exact htext
      have hunqueued : queuedLines (imageLoaded (sh.streaming lines) b image) b = .ok [] := by
        rw [queuedLines, hinput']
        rfl
      rw [run_of_loaded fuel hfiled hmemory, run_of_loaded fuel hstreamed hmemory,
        openTrace_of_direct hdirect htrace, openTrace_of_direct hdirect' htrace']
      dsimp only
      rw [hqueued, hunqueued]
      exact runSession_filed hdirect hfile hloaded.input hloaded'.input
        (hloaded.ending.trans hloaded'.ending.symm) (hloaded.output.trans hloaded'.output.symm)
        hdirect' hfile'
    · have htoo : 65536 < image.length := Nat.lt_of_not_le hlength
      rw [run_of_too_long fuel hfiled htoo, run_of_too_long fuel hstreamed htoo]
      exact ⟨rfl, by simp only [fail, noteLoading, output_note]; rfl⟩

/-- Input from a file against input from a stream. If a text without carriage returns is in the
file, the run writes and ends as the run whose standard input is this text with line feeds for all
its line ends, and so as the run with the text itself if it has no others. The codes for the program
are those of the text on standard input, with a line feed at its end. -/
theorem input_file_goes_as_stream {arguments arguments' : List String} {verbosity : Nat}
    {text : String}
    (harguments : readArguments arguments = .ok { verbosity, command := some (.run a) })
    (harguments' : readArguments arguments' =
      .ok { verbosity, command := some (.run { a with input := none }) })
    (hdirect : a.direct = true) (htrace : a.trace = false) (hfile : a.traceFile = some path)
    (hinput : a.input = some file) (hname : file ≠ "")
    (hread : sh.files.read (.ofText file) = .ok (utf8Encode text)) (hreturn : '\r' ∉ text.toList) :
    let streamed (fuel : Nat) (text : List Char) :=
      program fuel (sh.streaming ((streamLines text).map String.ofList)) arguments'
    (∀ fuel, SameOutcome (program fuel (sh.streaming []) arguments)
      (streamed fuel (feedEnds text.toList))) ∧
    ((∀ c ∈ text.toList, isLineEnd c → c = '\n') → ∀ fuel,
      SameOutcome (program fuel (sh.streaming []) arguments) (streamed fuel text.toList)) ∧
    (∃ lines, queuedLines sh a = .ok lines ∧
      lines.flatMap lineBytes = utf8Encode (String.ofList (closed (feedEnds text.toList)))) ∧
    ((streamLines text.toList).map String.ofList).flatMap lineBytes =
      utf8Encode (String.ofList (closed text.toList)) := by
  have htext : sh.readText file = .ok text.toList := by
    rw [readText_of_utf8 hread, unifyLineEnds_eq_self hreturn]
  have hqueued := queuedLines_of_text hinput hname htext
  have hsame (fuel : Nat) := run_filed (logsToError_configure sh verbosity) hdirect htrace hfile
    hinput hname htext fuel
  rw [splitLines_eq_streamLines hreturn] at hqueued hsame
  intro streamed
  have houtcome (fuel : Nat) : SameOutcome (program fuel (sh.streaming []) arguments)
      (streamed fuel (feedEnds text.toList)) := by
    simp only [streamed, program_unlogged fuel _ harguments, program_unlogged fuel _ harguments']
    exact hsame fuel
  refine ⟨houtcome, fun hfeeds fuel => ?_, ⟨_, hqueued, lineBytes_streamLines _⟩,
    lineBytes_streamLines _⟩
  rw [← feedEnds_eq_self hfeeds]
  exact houtcome fuel

def echo : List UInt8 := [20, 0, 0, 128, 19, 0, 0, 128, 6, 0, 0, 0]

def echoing : Shell where
  files := { entries :=
    [(["p.bin"], .file echo), (["tab.txt"], .file (utf8Encode "a\x0bb")),
      (["plain.txt"], .file (utf8Encode "hé"))] }

theorem echoing_agrees :
    SameOutcome (program 20 (echoing.streaming []) (runLine "p.bin" [.input "plain.txt", .direct]))
        (program 20 (echoing.streaming ["hé"]) (runLine "p.bin" [.direct])) ∧
      SameOutcome (program 20 (echoing.streaming []) (runLine "p.bin" [.input "tab.txt", .direct]))
        (program 20 (echoing.streaming ["a", "b"]) (runLine "p.bin" [.direct])) := by
  have hfiled (file : String) (hfile : IsPlainName file) :
      readArguments (runLine "p.bin" [.input file, .direct]) =
        .ok { command := some (.run { image := "p.bin", input := some file, direct := true }) } :=
    readArguments_runLine (by decide) (by simpa [RunSetting.value?] using hfile)
  have hstreamed : readArguments (runLine "p.bin" [.direct]) =
      .ok { command := some (.run { image := "p.bin", direct := true }) } :=
    readArguments_runLine (by decide) (by simp [RunSetting.value?])
  have hplain : echoing.files.read (.ofText "plain.txt") = .ok (utf8Encode "hé") := by
    decide +kernel
  have htab : echoing.files.read (.ofText "tab.txt") = .ok (utf8Encode "a\x0bb") := by
    decide +kernel
  have hfeeds : ∀ c ∈ "hé".toList, isLineEnd c → c = '\n' := by simp [isLineEnd]
  constructor
  · exact (input_file_goes_as_stream (hfiled "plain.txt" (by decide)) hstreamed rfl rfl rfl rfl
      (by decide) hplain (by decide)).2.1 hfeeds 20
  · exact (input_file_goes_as_stream (hfiled "tab.txt" (by decide)) hstreamed rfl rfl rfl rfl
      (by decide) htab (by decide)).1 20

theorem echo_streamed (lines : List String) (h : lines ∈ [["a", "b"], ["a\x0bb"]]) :
    (program 20 (echoing.streaming lines) (runLine "p.bin" [.direct])).1.output =
      latin1 (lines.flatMap lineBytes) := by
  have hechoes : ∀ lines ∈ [["a", "b"], ["a\x0bb"]],
      let result := (plainSession (echoing.streaming lines)
        ⟨Memory.overwrite Memory.empty.cells 0 echo⟩).run 20
      result.2 = some (.noInput .exhausted) ∧
        result.1.machine.console.output.toList = lines.flatMap lineBytes := by
    decide +kernel
  obtain ⟨hevent, hwritten⟩ := hechoes lines h
  generalize hrun : (plainSession (echoing.streaming lines) _).run 20 = result at hevent hwritten
  obtain ⟨t, event⟩ := result
  obtain rfl : event = _ := hevent
  have hmemory : Memory.ofImage echo = .ok ⟨Memory.overwrite Memory.empty.cells 0 echo⟩ :=
    ofImage_of_le (by decide)
  have hread : echoing.files.read (.ofText "p.bin") = .ok echo := by decide +kernel
  have hreads : readArguments (runLine "p.bin" [.direct]) =
      .ok { command := some (.run { image := "p.bin", direct := true }) } :=
    readArguments_runLine (by decide) (by simp [RunSetting.value?])
  obtain ⟨done, hends, houtput, -⟩ := run_answers (a := { image := "p.bin", direct := true })
    (logsToError_configure (echoing.streaming lines) 0) rfl rfl rfl hread hmemory Bool.noConfusion
    hrun .exhausted
  rw [program_run 20 hreads, hends, houtput, CharConsole.text, hwritten]
  exact String.empty_append

/-- A vertical tab ends a line of a file but none of standard input. -/
theorem tab_ends_line_of_file :
    (program 20 (echoing.streaming []) (runLine "p.bin" [.input "tab.txt", .direct])).1.output =
        "a\nb\n" ∧
      (program 20 (echoing.streaming ((streamLines "a\x0bb".toList).map String.ofList))
        (runLine "p.bin" [.direct])).1.output = "a\x0bb\n" := by
  have hread : echoing.files.read (.ofText "tab.txt") = .ok (utf8Encode "a\x0bb") := by
    decide +kernel
  have htext := readText_of_utf8 hread
  have hreads : readArguments (runLine "p.bin" [.input "tab.txt", .direct]) =
      .ok { command := some (.run
        { image := "p.bin", input := some "tab.txt", direct := true }) } :=
    readArguments_runLine (by decide) (by simp [RunSetting.value?, IsPlainName])
  have hreads' : readArguments (runLine "p.bin" [.direct]) =
      .ok { command := some (.run { image := "p.bin", direct := true }) } :=
    readArguments_runLine (by decide) (by simp [RunSetting.value?])
  have hcut : (splitLines (unifyLineEnds "a\x0bb".toList)).map String.ofList = ["a", "b"] := by
    decide
  have hwhole : (streamLines "a\x0bb".toList).map String.ofList = ["a\x0bb"] := by decide
  constructor
  · have hsame := run_filed
      (a := { image := "p.bin", input := some "tab.txt", direct := true })
      (logsToError_configure echoing 0) rfl rfl rfl rfl (by decide) htext 20
    have hstreamed := echo_streamed ["a", "b"] (by decide)
    rw [hcut] at hsame
    rw [program_run 20 hreads'] at hstreamed
    rw [program_run 20 hreads]
    simp only [SameOutcome, Shell.streaming] at hsame hstreamed ⊢
    exact (hsame.2.trans hstreamed).trans (by decide)
  · rw [hwhole, echo_streamed _ (by decide)]
    decide

end Cli

end WordMachine
