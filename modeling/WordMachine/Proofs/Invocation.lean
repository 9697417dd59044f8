import WordMachine.Cli.Program
import WordMachine.Proofs.ShellReports

/-!
Carrying out a command line. Once it has been read the log is set up, and then its command is
performed by a shell of which nothing but the log and the files has changed.
-/
namespace WordMachine.Cli

open Shell

variable {sh ready : Shell} {arguments : List String} {i : Invocation} {command : Command}

theorem logLevel_le (verbosity : Nat) : logLevel verbosity ≤ Log.Level.error := by
  unfold logLevel
  split <;> decide

theorem logsToError_configure (sh : Shell) (verbosity : Nat) :
    Shell.LogsToError
      { sh with logger := sh.logger.configure (logLevel verbosity) none } :=
  ⟨logLevel verbosity, logLevel_le verbosity, sh.logger.configure_eq _ none⟩

theorem ready_of_setUpLog {level : Log.Level} {file : Option String}
    (hlevel : level ≤ Log.Level.error) (h : sh.setUpLog level file = (ready, none)) :
    ready.HearsErrors ∧ ready.alarms = sh.alarms ∧ ready.ending = sh.ending := by
  unfold setUpLog at h
  split at h
  · cases h
    exact ⟨hearsErrors_configure sh.logger none hlevel rfl, rfl, rfl⟩
  next name _ =>
    dsimp only at h
    split at h
    · cases h
    split at h
    · cases h
    next files _ =>
      generalize hlogger : sh.logger.configure level _ = logger at h
      have hnoted := Reports.note { sh with files, logger } (r := .mk ⟨.debug, .program,
        "setup_logging", 52, s!"Log file: {(Path.ofText name).text}"⟩) Log.Level.debug_lt_error
      cases h
      exact ⟨hnoted.hearsErrors (hearsErrors_configure sh.logger _ hlevel hlogger.symm),
        hnoted.alarms.trans (List.append_nil _), hnoted.ending⟩

theorem file_of_setUpLog {level : Log.Level} {file : Option String} {e : Escape}
    (h : sh.setUpLog level file = (ready, some e)) :
    ∃ name f, file = some name ∧ e = .file f := by
  unfold setUpLog at h
  split at h
  · cases h
  next name hname =>
    have hfile := (Option.filter_eq_some_iff.mp hname).1
    dsimp only at h
    split at h
    · cases h
      exact ⟨name, _, hfile, rfl⟩
    split at h
    · cases h
      exact ⟨name, _, hfile, rfl⟩
    · cases h

/-- Once the log has been set up the command is performed. -/
theorem program_ready (fuel : Nat) (h : readArguments arguments = .ok i)
    (hcommand : i.command = some command)
    (hready : sh.setUpLog (logLevel i.verbosity) i.logFile = (ready, none)) :
    program fuel sh arguments = perform fuel ready command := by
  simp only [program, h, invoke, hcommand, hready]

theorem program_unready {e : Escape} (fuel : Nat) (h : readArguments arguments = .ok i)
    (hcommand : i.command = some command)
    (hunready : sh.setUpLog (logLevel i.verbosity) i.logFile = (ready, some e)) :
    program fuel sh arguments = (ready, .escape e) := by
  simp only [program, h, invoke, hcommand, hunready]

theorem program_unlogged {verbosity : Nat} (fuel : Nat) (sh : Shell)
    (h : readArguments arguments = .ok { verbosity, command := some command }) :
    program fuel sh arguments =
      perform fuel { sh with logger := sh.logger.configure (logLevel verbosity) none } command := by
  rw [program_ready fuel h rfl rfl]

end WordMachine.Cli
