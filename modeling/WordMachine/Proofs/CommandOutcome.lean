import WordMachine.Proofs.AssembleCommand
import WordMachine.Proofs.ListingPartition
import WordMachine.Proofs.RunCommand
import WordMachine.Proofs.RunConclusion

/-!
What the commands come to, whatever the files hold. Most of what is wrong with a file is reported
once and answered by status 1, and without a report the files were in order. But the program can
also be ended from inside, and this says how.
-/
namespace WordMachine

theorem Cause.isReportable_iff {c : Cause} {v : Int} (h : c.shown = [v]) :
    c.IsReportable ↔ Text.IsWritable v := by
  simp [IsReportable, h]

namespace Cli

open Shell Session Listing

def Command.names : Command → List String
  | .run a => a.image :: (a.traceFile.toList ++ a.input.toList)
  | .disasm a => a.image :: a.output.toList
  | .asm a => a.input :: a.output.toList

/-- What can end the program from inside while it carries out a command, without a report. -/
inductive Unguarded (sh : Shell) : Command → Escape → Prop where
  /-- A name with a null character in it. -/
  | null {command : Command} {name : String} : name ∈ command.names →
      '\x00' ∈ (Path.ofText name).text.toList → Unguarded sh command (.file .nullInPath)
  /-- A text that is no UTF-8. -/
  | listing {a : AsmArguments} {d : Text.Utf8Defect} : sh.Garbles a.input →
      Unguarded sh (.asm a) (.undecodable d)
  | lines {a : RunArguments} {file : String} {d : Text.Utf8Defect} : a.input = some file →
      sh.Garbles file → Unguarded sh (.run a) (.undecodable d)
  /-- A number that is too long to be written. -/
  | word {a : AsmArguments} {source : List Char} {ws : List Int} {v : Int} :
      sh.readText a.input = .ok source → assemble source = .ok ws → v ∈ ws → ¬Text.IsWritable v →
      Unguarded sh (.asm a) .unreported
  | address {a : DisasmArguments} {first last : Int} : a.range = .between first last →
      ¬Text.IsWritable first → Unguarded sh (.disasm a) .unreported
  | line {a : RunArguments} {line : String} : a.direct = false → line ∈ sh.input →
      Script.ending? line = some .unreported → Unguarded sh (.run a) .unreported
  /-- An argument that is asked for but not given. -/
  | range {a : DisasmArguments} : a.range = .unstated → Unguarded sh (.disasm a) .noRange
  | output {a : AsmArguments} : a.output = none → Unguarded sh (.asm a) .noOutput

inductive Runs (sh : Shell) (a : RunArguments) : Session → Prop where
  | of_files {image : List UInt8} {memory : Memory} {ready : Shell} {tracer : Option Tracer}
      {queued : List String} : sh.files.read (.ofText a.image) = .ok image →
      Memory.ofImage image = .ok memory →
      openTrace (imageLoaded sh a image) a = .ok (ready, tracer) →
      queuedLines ready a = .ok queued →
      Runs sh a ((sessionOf ready a memory tracer).feedAll queued)

/-- All files could be opened, decoded, parsed and loaded, and a program that was run has not
failed. -/
def Sound (fuel : Nat) (sh : Shell) : Command → Prop
  | .run a => ∃ s t event, Runs sh a s ∧ s.run fuel = (t, some event) ∧ ∀ f, event ≠ .failed f
  | .disasm a => ∃ image memory first last listed, sh.files.read (.ofText a.image) = .ok image ∧
      Memory.ofImage image = .ok memory ∧ listedRange a image = .ok (first, last) ∧
      disassemble memory first last = (listed, none) ∧
      ∀ name ∈ a.output, name ≠ "" → sh.files.Writable (.ofText name)
  | .asm a => ∃ source ws output, sh.readText a.input = .ok source ∧ assemble source = .ok ws ∧
      (∀ v ∈ ws, IsWord v) ∧ a.output = some output ∧ sh.files.Writable (.ofText output)

inductive ComesTo (fuel : Nat) (sh : Shell) (command : Command) : Shell × Ending → Prop where
  | done {after : Shell} {code : Nat} : code = 0 ∨ code = 130 → Sound fuel sh command →
      sh.Alerts after [] → ComesTo fuel sh command (after, .status code)
  | reported {after : Shell} {r : Log.Record} : ¬Sound fuel sh command →
      r.level = Log.Level.error → sh.Alerts after [r] → ComesTo fuel sh command (after, .status 1)
  | unfinished {after : Shell} {a : RunArguments} {s : Session} : command = .run a →
      Runs sh a s → (s.run fuel).2 = none → sh.Alerts after [] →
      ComesTo fuel sh command (after, .unfinished)
  | escaped {after : Shell} {e : Escape} : Unguarded sh command e → sh.Alerts after [] →
      ComesTo fuel sh command (after, .escape e)

/-- Reported where it is met, or else an exception. -/
def Answered (sh : Shell) (command : Command) (e : Escape) : Prop :=
  (∃ failure path, e = .file (.refused failure path)) ∨ Unguarded sh command e

variable {sh mid ready : Shell} {command : Command} {fuel : Nat} {e : Escape} {name : String}

theorem runs_iff {a : RunArguments} {s : Session} :
    Runs sh a s ↔ ∃ image memory opened queued, sh.files.read (.ofText a.image) = .ok image ∧
      Memory.ofImage image = .ok memory ∧ openTrace (imageLoaded sh a image) a = .ok opened ∧
      queuedLines opened.1 a = .ok queued ∧
      s = (sessionOf opened.1 a memory opened.2).feedAll queued := by
  constructor
  · rintro ⟨hread, hmemory, hopens, hqueued⟩
    exact ⟨_, _, _, _, hread, hmemory, hopens, hqueued, rfl⟩
  · rintro ⟨_, _, _, _, hread, hmemory, hopens, hqueued, rfl⟩
    exact .of_files hread hmemory hopens hqueued

theorem Runs.eq {a : RunArguments} {s t : Session} (h : Runs sh a s) (h' : Runs sh a t) :
    s = t := by
  obtain ⟨hread, hmemory, hopens, hqueued⟩ := h
  simpa [runs_iff, hread, hmemory, hopens, hqueued, eq_comm] using h'

theorem Runs.not_sound {a : RunArguments} {s t : Session} {f : Fault} (h : Runs sh a s)
    (hrun : s.run fuel = (t, some (.failed f))) : ¬Sound fuel sh (.run a) := by
  rintro ⟨s', t', event, hruns, hrun', hgood⟩
  obtain rfl := h.eq hruns
  cases hrun.symm.trans hrun'
  exact hgood f rfl

namespace ComesTo

theorem fail (hbad : ¬Sound fuel sh command) (hmid : sh.Alerts mid []) (hlog : sh.HearsErrors)
    (activity : String) (lineNumber : Nat) (message : String) :
    ComesTo fuel sh command (mid.fail activity lineNumber message) :=
  .reported (r := errorRecord activity lineNumber message) hbad rfl
    ((Reports.error (hmid.hearsErrors hlog) rfl).toAlerts.after hmid)

theorem refuse (hbad : ¬Sound fuel sh command) (hmid : sh.Alerts mid []) (hlog : sh.HearsErrors)
    (h : Answered sh command e) : ComesTo fuel sh command (mid.refuse e) := by
  unfold Shell.refuse
  split
  next failure path => exact fail hbad hmid hlog "main" 187 _
  next hother =>
    obtain ⟨failure, path, heq⟩ | hunguarded := h
    · exact absurd heq (hother failure path)
    · exact .escaped hunguarded hmid

theorem failWith {c : Cause} (hbad : ¬Sound fuel sh command) (hmid : sh.Alerts mid [])
    (hlog : sh.HearsErrors) (h : ¬c.IsReportable → Unguarded sh command .unreported) :
    ComesTo fuel sh command (mid.failWith c) := by
  by_cases hreportable : c.IsReportable
  · rw [failWith_of_reportable mid hreportable]
    exact fail hbad hmid hlog "main" 187 _
  · rw [failWith_of_not_reportable mid hreportable]
    exact .escaped (h hreportable) hmid

end ComesTo

namespace Answered

variable {t : FileTree} {f : FileError}

theorem file (hname : name ∈ command.names)
    (h : f = .nullInPath → '\x00' ∈ (Path.ofText name).text.toList) :
    Answered sh command (.file f) := by
  cases f with
  | refused failure path => exact .inl ⟨failure, path, rfl⟩
  | nullInPath => exact .inr (.null hname (h rfl))

theorem read (hname : name ∈ command.names) (h : t.read (.ofText name) = .error f) :
    Answered sh command (.file f) :=
  file hname fun hf => FileTree.read_null_iff.mp (hf ▸ h)

theorem update {change : List UInt8 → List UInt8} (hname : name ∈ command.names)
    (h : t.update (.ofText name) change = .error f) : Answered sh command (.file f) :=
  file hname fun hf => FileTree.update_null_iff.mp (hf ▸ h)

end Answered

theorem asm_comesTo (hlog : sh.HearsErrors) (a : AsmArguments) :
    ComesTo fuel sh (.asm a) (asm sh a) := by
  have hstart : sh.Alerts sh [] := .of_eq rfl rfl
  unfold asm
  split
  next e htext =>
    have hbad : ¬Sound fuel sh (.asm a) := by simp [Sound, htext]
    refine .refuse hbad hstart hlog ?_
    obtain ⟨f, rfl, hread⟩ | ⟨d, rfl, hgarbled⟩ := readText_error htext
    · exact .read List.mem_cons_self hread
    · exact .inr (.listing hgarbled)
  next source htext =>
    split
    next e hws =>
      have hbad : ¬Sound fuel sh (.asm a) := by simp [Sound, htext, hws]
      exact .fail hbad hstart hlog "cmd_asm" 155 e.message
    next ws hws houtput =>
      have hbad : ¬Sound fuel sh (.asm a) := by simp [Sound, houtput]
      exact .refuse hbad hstart hlog (.inr (.output houtput))
    next ws output hws houtput =>
      cases hwide : firstWide? ws with
      | some v =>
        rw [packImage_of_wide hwide]
        have hbad : ¬Sound fuel sh (.asm a) := by
          simp [Sound, htext, hws, ← firstWide?_eq_none_iff, hwide]
        exact .failWith hbad hstart hlog fun hlong => .word htext hws
          (List.mem_of_find?_eq_some hwide) (mt (Cause.isReportable_iff rfl).mpr hlong)
      | none =>
        have hwords := firstWide?_eq_none_iff.mp hwide
        rw [packImage_of_words hwords]
        dsimp only
        split
        next f hwrite =>
          have hname : output ∈ (Command.asm a).names := by simp [Command.names, houtput]
          have hbad : ¬Sound fuel sh (.asm a) := by
            simp [Sound, houtput, FileTree.not_writable_of_error hwrite]
          exact .refuse hbad hstart hlog (.update hname hwrite)
        next files hwrite =>
          have hwritable := FileTree.exists_update_iff.mp ⟨files, hwrite⟩
          have hwritten : sh.Alerts { sh with files } [] := .of_eq rfl rfl
          exact .done (.inl rfl) ⟨source, ws, output, htext, hws, hwords, houtput, hwritable⟩
            ((Reports.note _ Log.Level.info_lt_error).toAlerts.after hwritten)

theorem writeListing_comesTo {a : DisasmArguments} {listed : List Line} (hlog : sh.HearsErrors)
    (hloaded : sh.Continues mid)
    (hsound : Sound fuel sh (.disasm a) ↔
      ∀ name ∈ a.output, name ≠ "" → sh.files.Writable (.ofText name)) :
    ComesTo fuel sh (.disasm a) (writeListing mid a.output listed) := by
  unfold writeListing
  split
  next hnone =>
    have hshown : mid.Alerts { mid with output := mid.output ++ listingText listed } [] :=
      .of_eq rfl rfl
    refine .done (.inl rfl) (hsound.mpr fun name hname hne => ?_) (hshown.after hloaded.toAlerts)
    have hunnamed := Option.filter_eq_none_iff.mp hnone name hname
    exact absurd hne (by simpa using hunnamed)
  next name hsome =>
    obtain ⟨houtput, hne⟩ := Option.filter_eq_some_iff.mp hsome
    split
    next f hwrite =>
      have hname : name ∈ (Command.disasm a).names := by simp [Command.names, houtput]
      have hbad : ¬Sound fuel sh (.disasm a) := fun h =>
        FileTree.not_writable_of_error hwrite (hloaded.writable_iff.mpr
          (hsound.mp h name houtput (of_decide_eq_true hne)))
      exact .refuse hbad hloaded.toAlerts hlog (.update hname hwrite)
    next files hwrite =>
      have hwritable := hloaded.writable_iff.mp (FileTree.exists_update_iff.mp ⟨files, hwrite⟩)
      have hwritten : mid.Alerts { mid with files } [] := .of_eq rfl rfl
      refine .done (.inl rfl) (hsound.mpr fun name' hname' _ => ?_)
        ((Reports.note _ Log.Level.info_lt_error).toAlerts.after (hwritten.after hloaded.toAlerts))
      obtain rfl : name = name' := Option.some.inj (houtput.symm.trans hname')
      exact hwritable

theorem between_of_unwritable {a : DisasmArguments} {image : List UInt8} {first last : Int}
    (h : listedRange a image = .ok (first, last)) (hfirst : ¬Text.IsWritable first) :
    a.range = .between first last := by
  unfold listedRange at h
  split at h
  next =>
    cases h
    exact absurd (Text.isWritable_of_natAbs_lt (by decide)) hfirst
  next hrange =>
    cases h
    exact hrange
  next => cases h

theorem disasm_comesTo (hlog : sh.HearsErrors) (a : DisasmArguments) :
    ComesTo fuel sh (.disasm a) (disasm sh a) := by
  have hstart : sh.Alerts sh [] := .of_eq rfl rfl
  unfold disasm
  split
  next f hread =>
    have hbad : ¬Sound fuel sh (.disasm a) := by simp [Sound, hread]
    exact .refuse hbad hstart hlog (.read List.mem_cons_self hread)
  next image hread =>
    by_cases hlength : image.length ≤ 65536
    · have hmemory := ofImage_of_le hlength
      have hloaded : sh.Continues (noteLoaded sh image) := .note sh Log.Level.debug_lt_error
      rw [hmemory]
      dsimp only
      split
      next e hrange =>
        have hunstated : a.range = .unstated ∧ e = .noRange := by
          unfold listedRange at hrange
          split at hrange <;> simp_all
        obtain ⟨hunstated, rfl⟩ := hunstated
        have hbad : ¬Sound fuel sh (.disasm a) := by simp [Sound, hread, hrange]
        exact .refuse hbad hloaded.toAlerts hlog (.inr (.range hunstated))
      next first last hrange =>
        split
        next listed c hlisting =>
          have hbad : ¬Sound fuel sh (.disasm a) := by
            simp [Sound, hread, hmemory, hrange, hlisting]
          refine .failWith hbad hloaded.toAlerts hlog fun hlong => ?_
          obtain rfl | rfl := failure_of_disassemble (congrArg Prod.snd hlisting)
          · have hbehind : Text.IsWritable 32768 := Text.isWritable_of_natAbs_lt (by decide)
            exact absurd ((Cause.isReportable_iff rfl).mpr hbehind) hlong
          · have hfirst : ¬Text.IsWritable first := mt (Cause.isReportable_iff rfl).mpr hlong
            exact .address (between_of_unwritable hrange hfirst) hfirst
        next listed hlisting =>
          exact writeListing_comesTo hlog hloaded
            (by simp [Sound, hread, hmemory, hrange, hlisting])
    · have hmemory := ofImage_of_lt (Nat.lt_of_not_le hlength)
      have hbad : ¬Sound fuel sh (.disasm a) := by simp [Sound, hread, hmemory]
      rw [hmemory]
      exact .failWith hbad hstart hlog (absurd (by simp [Cause.IsReportable, Cause.shown]))

section Running

variable {a : RunArguments} {s t : Session} {event : Event} {tracer : Option Tracer}

theorem openTrace_cases (sh : Shell) (a : RunArguments) :
    (∃ ready tracer, openTrace sh a = .ok (ready, tracer) ∧ sh.Continues ready) ∨
      ∃ name ∈ a.traceFile, ∃ f, openTrace sh a = .error f ∧
        sh.files.append (.ofText name) [] = .error f := by
  unfold openTrace
  split
  · exact .inl ⟨sh, none, rfl, .refl sh⟩
  cases hfile : a.traceFile with
  | none => exact .inl ⟨_, _, rfl, .writeTrace sh none _⟩
  | some name =>
    cases hopens : sh.files.append (.ofText name) [] with
    | error f => exact .inr ⟨name, rfl, f, by simp only [hopens, bind, Except.bind], hopens⟩
    | ok files =>
      simp only [hopens, bind, Except.bind]
      exact .inl ⟨_, _, rfl, (Continues.opened hopens).trans
        ((Continues.note _ Log.Level.info_lt_error).trans (.writeTrace _ (some name) _))⟩

theorem queuedLines_error (h : queuedLines sh a = .error e) :
    ∃ file, a.input = some file ∧ sh.readText file = .error e := by
  unfold queuedLines at h
  split at h
  · cases h
  next file hfile =>
    refine ⟨file, (Option.filter_eq_some_iff.mp hfile).1, ?_⟩
    cases htext : sh.readText file with
    | error e' =>
      rw [htext] at h
      exact congrArg Except.error (Except.error.inj h)
    | ok text =>
      rw [htext] at h
      cases h

theorem imageLoaded_continues (sh : Shell) (a : RunArguments) (image : List UInt8) :
    sh.Continues (imageLoaded sh a image) :=
  (Continues.note sh Log.Level.info_lt_error).trans (.note _ Log.Level.debug_lt_error)

theorem alerts_takeOver (sh : Shell) (a : RunArguments) (h : t.Calm) :
    sh.Alerts (takeOver sh a t) [] := by
  have hpublished := Reports.publish sh a.traceFile t.journal.toList
    fun r hr => h r (Array.mem_toList_iff.mp hr)
  exact ⟨hpublished.logger, hpublished.alarms⟩

theorem alerts_closeTrace (sh : Shell) (a : RunArguments) (t : Session) :
    sh.Alerts (closeTrace sh a t) [] := by
  unfold closeTrace
  split
  · exact (Continues.writeTrace sh a.traceFile _).toAlerts
  · exact .of_eq rfl rfl

theorem concludeRun_comesTo (hlog : sh.HearsErrors) (htaken : sh.Alerts mid [])
    (hruns : Runs sh a s) (hrun : s.run fuel = (t, some event)) (hconcludes : s.Concludes event)
    (hguard : s.Closes .unreported → Unguarded sh (.run a) .unreported) :
    ComesTo fuel sh (.run a) (concludeRun mid a t event) := by
  have hclosed (sh : Shell) := alerts_closeTrace sh a t
  cases hconcludes with
  | stopped =>
    exact .done (.inl rfl) ⟨_, _, _, hruns, hrun, nofun⟩
      ((Reports.note _ Log.Level.info_lt_error).toAlerts.after ((hclosed mid).after htaken))
  | @failed f =>
    have herror := Reports.error (r := errorRecord "cmd_run" 114 f.text)
      (htaken.hearsErrors hlog) rfl
    have hstate := Continues.note (mid.note (errorRecord "cmd_run" 114 f.text))
      (r := .mk ⟨.debug, .commandLine, "cmd_run", 115, s!"Machine state: {t.machine.display}"⟩)
      Log.Level.debug_lt_error
    have hfailed := (herror.toAlerts.before hstate.toAlerts).before (hclosed _)
    exact .reported (hruns.not_sound hrun) rfl (hfailed.after htaken)
  | @closed why hcloses =>
    cases why with
    | unreported => exact .escaped (hguard hcloses) ((hclosed mid).after htaken)
    | interrupted =>
      exact .done (.inr rfl) ⟨_, _, _, hruns, hrun, nofun⟩
        ((hclosed _).after ((Reports.note _ Log.Level.warning_lt_error).toAlerts.after htaken))
    | unattached | exhausted | quit =>
      exact .done (.inl rfl) ⟨_, _, _, hruns, hrun, nofun⟩
        ((hclosed _).after ((Reports.note _ Log.Level.info_lt_error).toAlerts.after htaken))

theorem runSession_comesTo {memory : Memory} {queued : List String} (hlog : sh.HearsErrors)
    (hready : sh.Continues ready) (hending : sh.ending ≠ .unreported)
    (hruns : Runs sh a ((sessionOf ready a memory tracer).feedAll queued)) :
    ComesTo fuel sh (.run a)
      (runSession fuel ready a ((sessionOf ready a memory tracer).feedAll queued)) := by
  have hfresh : (sessionOf ready a memory tracer).Calm := by simp [Calm, sessionOf]
  have hcalm := hfresh.feedAll queued
  have hfront : ((sessionOf ready a memory tracer).feedAll queued).front =
    if a.direct then .direct else .debugger "> " true := rfl
  have hlines : ((sessionOf ready a memory tracer).feedAll queued).lines = sh.input := hready.input
  have hlack : ((sessionOf ready a memory tracer).feedAll queued).ending = sh.ending :=
    hready.ending
  have hw : ((sessionOf ready a memory tracer).feedAll queued).machine.WellFormed :=
    Machine.wellFormed_fresh memory _
  generalize (sessionOf ready a memory tracer).feedAll queued = s
    at hruns hcalm hfront hlines hlack hw
  have hattached : s.front ≠ .absent := by
    rw [hfront]
    split <;> exact Front.noConfusion
  have hguard : s.Closes .unreported → Unguarded sh (.run a) .unreported := by
    rintro (hlack' | ⟨⟨prompt, shared, hdebugger⟩, line, hline, hends⟩)
    · exact absurd (hlack'.trans hlack).symm hending
    · refine .line ?_ (hlines ▸ hline) hends
      cases hdirect : a.direct with
      | false => rfl
      | true =>
        rw [hfront, hdirect] at hdebugger
        cases hdebugger
  have hlast := (Heeds.run s fuel).calm hcalm
  unfold runSession
  generalize hrun : s.run fuel = result at hlast
  obtain ⟨t, _ | event⟩ := result
  · exact .unfinished rfl hruns (congrArg Prod.snd hrun)
      ((alerts_closeTrace _ a t).after ((alerts_takeOver ready a hlast).after hready.toAlerts))
  · exact concludeRun_comesTo hlog ((alerts_takeOver ready a hlast).after hready.toAlerts) hruns
      hrun (concludes_of_run hw hattached hrun) hguard

theorem run_comesTo (hlog : sh.HearsErrors) (hending : sh.ending ≠ .unreported)
    (a : RunArguments) : ComesTo fuel sh (.run a) (run fuel sh a) := by
  have hstart : sh.Alerts sh [] := .of_eq rfl rfl
  cases hread : sh.files.read (.ofText a.image) with
  | error f =>
    have hbad : ¬Sound fuel sh (.run a) := by simp [Sound, runs_iff, hread]
    rw [run_of_unread fuel hread]
    exact .refuse hbad hstart hlog (.read List.mem_cons_self hread)
  | ok image =>
    by_cases hlength : image.length ≤ 65536
    · have hmemory := ofImage_of_le hlength
      have hloaded := imageLoaded_continues sh a image
      rw [run_of_loaded fuel hread hmemory]
      obtain ⟨ready, tracer, hopens, hopened⟩ | ⟨name, hname, f, hopens, hunopened⟩ :=
        openTrace_cases (imageLoaded sh a image) a
      · have hready := hloaded.trans hopened
        rw [hopens]
        dsimp only
        cases hqueued : queuedLines ready a with
        | error e =>
          have hbad : ¬Sound fuel sh (.run a) := by
            simp [Sound, runs_iff, hread, hopens, hqueued]
          refine .refuse hbad hready.toAlerts hlog ?_
          obtain ⟨file, hinput, htext⟩ := queuedLines_error hqueued
          obtain ⟨f, rfl, hunread⟩ | ⟨d, rfl, hgarbled⟩ := readText_error htext
          · have hname : file ∈ (Command.run a).names := by simp [Command.names, hinput]
            exact .read hname hunread
          · exact .inr (.lines hinput (hgarbled.of_continues hready))
        | ok queued =>
          exact runSession_comesTo hlog hready hending (.of_files hread hmemory hopens hqueued)
      · have hnamed : name ∈ (Command.run a).names := by
          simp [Command.names, Option.mem_def.mp hname]
        have hbad : ¬Sound fuel sh (.run a) := by simp [Sound, runs_iff, hread, hopens]
        rw [hopens]
        exact .refuse hbad hloaded.toAlerts hlog (.update hnamed hunopened)
    · have hloading : sh.Continues (noteLoading sh a.image image) :=
        .note sh Log.Level.info_lt_error
      have hbad : ¬Sound fuel sh (.run a) := by
        simp [Sound, runs_iff, hread, ofImage_of_lt (Nat.lt_of_not_le hlength)]
      rw [run_of_too_long fuel hread (Nat.lt_of_not_le hlength)]
      exact .fail hbad hloading.toAlerts hlog "main" 187 _

end Running

theorem perform_comesTo (hlog : sh.HearsErrors) (hending : sh.ending ≠ .unreported)
    (command : Command) : ComesTo fuel sh command (perform fuel sh command) := by
  cases command with
  | run a => exact run_comesTo hlog hending a
  | disasm a => exact disasm_comesTo hlog a
  | asm a => exact asm_comesTo hlog a

/-- What is wrong with files is reported, with few exceptions. A log file that cannot be opened ends
the program from inside. Once the log has been set up, a command ends with status 0 or 130 if all
has gone well, which leaves no error in the log, and with status 1 if something has gone wrong,
which leaves one. The exceptions are a run that goes on, and what ends the program from inside: a
text that is no UTF-8, a number that is too long to be written, a null character in the name of a
file, and an argument that is asked for but not given. -/
theorem bad_files_reported_or_escape {arguments : List String} {i : Invocation} (fuel : Nat)
    (harguments : readArguments arguments = .ok i) (hcommand : i.command = some command)
    (hending : sh.ending = .exhausted ∨ sh.ending = .interrupted) :
    (∀ ready e, sh.setUpLog (logLevel i.verbosity) i.logFile = (ready, some e) →
      program fuel sh arguments = (ready, .escape e) ∧
        ∃ file f, i.logFile = some file ∧ e = .file f) ∧
    ∀ ready, sh.setUpLog (logLevel i.verbosity) i.logFile = (ready, none) →
      ready.alarms = sh.alarms ∧ ComesTo fuel ready command (program fuel sh arguments) := by
  refine ⟨fun ready e hsetup => ?_, fun ready hsetup => ?_⟩
  · exact ⟨program_unready fuel harguments hcommand hsetup, file_of_setUpLog hsetup⟩
  · obtain ⟨hlog, halarms, hkept⟩ := ready_of_setUpLog (logLevel_le i.verbosity) hsetup
    have hended : ready.ending ≠ .unreported := by
      rw [hkept]
      obtain heof | hinterrupted := hending <;> simp_all
    rw [program_ready fuel harguments hcommand hsetup]
    exact ⟨halarms, perform_comesTo hlog hended command⟩

def garbled : Shell where
  files := { entries := [(["bad.lst"], .file [0xFF]), (["p.bin"], .file [0, 0])] }

def garbledReady : Shell := { garbled with logger := garbled.logger.configure .warning none }

theorem garbledReady_files :
    garbledReady.readText "bad.lst" = .error (.undecodable ⟨0, [0xFF], .badStart⟩) ∧
      garbledReady.readText "missing.lst" = .error (.file (.refused .notFound "missing.lst")) ∧
      garbledReady.files.contents (.ofText "missing.lst") = [] ∧
      (garbled.setUpLog .warning (some "p.bin/x.log")).2 =
        some (.file (.refused .alreadyThere "p.bin")) := by
  refine ⟨?_, ?_, ?_, ?_⟩
  all_goals decide +kernel

theorem missing_listing_reported :
    (∃ done r, program 0 garbled (asmLine "missing.lst" "q.bin") = (done, .status 1) ∧
      r.level = Log.Level.error ∧ done.alarms = [r]) ∧
    ∃ done f, program 0 garbled ("--log-file" :: "p.bin/x.log" :: asmLine "bad.lst" "q.bin") =
      (done, .escape (.file f)) := by
  obtain ⟨-, hunread, hnothing, hlogs⟩ := garbledReady_files
  have heof : garbled.ending = .exhausted := rfl
  have hinput : IsPlainName "bad.lst" := by decide
  have houtput : IsPlainName "q.bin" := by decide
  constructor
  · have hline := readArguments_asmLine (show IsPlainName "missing.lst" by decide) houtput
    obtain ⟨-, hends⟩ := bad_files_reported_or_escape 0 hline rfl (.inl heof)
    obtain ⟨-, hends⟩ := hends garbledReady rfl
    generalize program 0 garbled _ = result at hends
    have hdecodes : ¬garbledReady.Garbles "missing.lst" := fun hgarbled => hgarbled "" hnothing
    cases hends with
    | done _ hsound =>
      obtain ⟨_, _, _, htext, -⟩ := hsound
      cases hunread.symm.trans htext
    | @reported done r _ hlevel halerts => exact ⟨done, r, rfl, hlevel, halerts.alarms⟩
    | unfinished hrun => cases hrun
    | escaped hunguarded =>
      cases hunguarded with
      | @null _ name hname hnull =>
        obtain rfl | rfl : name = "missing.lst" ∨ name = "q.bin" := by
          simpa [Command.names] using hname
        all_goals exact absurd hnull (by decide +kernel)
      | listing hgarbled => exact absurd hgarbled hdecodes
      | word htext => cases hunread.symm.trans htext
      | output hnone => cases hnone
  · have hline := readArguments_asmLine_logged (show IsPlainName "p.bin/x.log" by decide) hinput
      houtput
    have hsetup : garbled.setUpLog .warning (some "p.bin/x.log") =
      (_, some (.file (.refused .alreadyThere "p.bin"))) := Prod.ext rfl hlogs
    obtain ⟨hends, -⟩ := bad_files_reported_or_escape 0 hline rfl (.inl heof)
    exact ⟨_, _, (hends _ _ hsetup).1⟩

theorem undecodable_listing_escapes :
    (program 0 garbled (asmLine "bad.lst" "q.bin")).2 =
        .escape (.undecodable ⟨0, [0xFF], .badStart⟩) ∧
      (program 0 garbled ("--log-file" :: "p.bin/x.log" :: asmLine "bad.lst" "q.bin")).2 =
        .escape (.file (.refused .alreadyThere "p.bin")) := by
  obtain ⟨hgarbled, -, -, hlogs⟩ := garbledReady_files
  have hinput : IsPlainName "bad.lst" := by decide
  have houtput : IsPlainName "q.bin" := by decide
  constructor
  · have hline := readArguments_asmLine hinput houtput
    have hasm : asm garbledReady { input := "bad.lst", output := some "q.bin" } =
        (garbledReady, .escape (.undecodable ⟨0, [0xFF], .badStart⟩)) := by
      rw [asm, hgarbled]
      rfl
    rw [program_unlogged 0 garbled hline]
    exact congrArg Prod.snd hasm
  · have hline := readArguments_asmLine_logged (show IsPlainName "p.bin/x.log" by decide) hinput
      houtput
    have hsetup : garbled.setUpLog .warning (some "p.bin/x.log") =
      (_, some (.file (.refused .alreadyThere "p.bin"))) := Prod.ext rfl hlogs
    rw [program_unready 0 hline rfl hsetup]

end Cli

end WordMachine
