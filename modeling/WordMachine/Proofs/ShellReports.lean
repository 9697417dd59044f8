import WordMachine.Cli.Shell

/-!
What the shell reports. Records go to standard error and to a file, and of the shell nothing else
changes with them. However the log has been set up, an error reaches standard error once, and a
record of any other level is no error there.
-/
namespace WordMachine.Cli.Shell

variable {sh mid done : Shell} {r : Log.Record} {errors more : List Log.Record} {level : Log.Level}

theorem extend_eq (sh : Shell) (path text : String) :
    ∃ files, sh.extend path text = { sh with files } := by
  unfold extend
  split
  next files _ => exact ⟨files, rfl⟩
  next => exact ⟨sh.files, rfl⟩

theorem extendAll_eq (sh : Shell) : ∀ texts, ∃ files, sh.extendAll texts = { sh with files }
  | [] => ⟨sh.files, by rw [extendAll]⟩
  | (path, text) :: rest => by
    rw [extendAll]
    obtain ⟨mid, hmid⟩ := extend_eq sh path _
    rw [hmid]
    obtain ⟨files, hfiles⟩ := extendAll_eq { sh with files := mid } _
    exact ⟨files, hfiles⟩
  termination_by texts => texts.length
  decreasing_by exact Nat.lt_succ_of_le (List.length_filter_le ..)

theorem foldl_hand_eq (r : Log.Record) (sh : Shell) (targets : List Log.Target) :
    ∃ files, targets.foldl (hand r) sh =
      { sh with
        files
        reported := sh.reported ++ (List.replicate (targets.count .standardError) r).toArray } := by
  induction targets generalizing sh with
  | nil => exact ⟨sh.files, by simp⟩
  | cons target rest ih =>
    rw [List.foldl_cons]
    cases target with
    | standardError =>
      obtain ⟨files, hfiles⟩ := ih (hand r sh .standardError)
      exact ⟨files, by rw [hfiles]; simp [hand, List.replicate_succ, ← Array.toList_inj]⟩
    | file path =>
      obtain ⟨mid, hmid⟩ := extend_eq sh path (r.line sh.logTime)
      obtain ⟨files, hfiles⟩ := ih { sh with files := mid }
      exact ⟨files, by rw [hand, hmid, hfiles]; simp⟩

theorem note_eq (sh : Shell) (r : Log.Record) :
    ∃ files, sh.note r =
      { sh with
        files
        reported := sh.reported ++
          (List.replicate ((sh.logger.deliver r).count .standardError) r).toArray } :=
  foldl_hand_eq r sh _

theorem output_note (sh : Shell) (r : Log.Record) : (sh.note r).output = sh.output := by
  obtain ⟨files, heq⟩ := note_eq sh r
  rw [heq]

/-- The errors among the records that standard error has received. -/
def alarms (sh : Shell) : List Log.Record :=
  sh.reported.toList.filter (·.level = Log.Level.error)

def HearsErrors (sh : Shell) : Prop :=
  ∀ r : Log.Record, r.level = Log.Level.error → (sh.logger.deliver r).count .standardError = 1

/-- Records go to standard error alone, and errors do at any rate. -/
def LogsToError (sh : Shell) : Prop :=
  ∃ level ≤ Log.Level.error,
    sh.logger = { threshold := level, handlers := [⟨.standardError, level⟩] }

theorem LogsToError.hearsErrors (h : sh.LogsToError) : sh.HearsErrors := by
  obtain ⟨level, hle, hlogger⟩ := h
  intro r hr
  simp [hlogger, Log.Logger.deliver, hr, hle]

theorem hearsErrors_configure (l : Log.Logger) (file : Option String)
    (hle : level ≤ Log.Level.error) (h : sh.logger = l.configure level file) : sh.HearsErrors := by
  intro r hr
  rw [h, Log.Logger.configure_eq]
  cases file with
  | none => simp [Log.Logger.deliver, hr, hle]
  | some path =>
    have hdebug : Log.Level.debug ≤ Log.Level.error := by decide
    simp [Log.Logger.deliver, hr, hle, hdebug]

theorem LogsToError.files_note (h : sh.LogsToError) (r : Log.Record) :
    (sh.note r).files = sh.files := by
  obtain ⟨threshold, -, hlogger⟩ := h
  unfold note
  rw [hlogger, Log.Logger.deliver]
  by_cases hpasses : threshold ≤ r.level
  · simp [hpasses, hand]
  · simp [hpasses]

theorem alarms_note_of_lt (sh : Shell) (hlevel : r.level < Log.Level.error) :
    (sh.note r).alarms = sh.alarms := by
  obtain ⟨files, heq⟩ := note_eq sh r
  rw [heq]
  simp [alarms, Int.ne_of_lt hlevel]

theorem alarms_note_error (h : sh.HearsErrors) (hlevel : r.level = Log.Level.error) :
    (sh.note r).alarms = sh.alarms ++ [r] := by
  obtain ⟨files, heq⟩ := note_eq sh r
  rw [heq, h r hlevel]
  simp [alarms, hlevel]

theorem failWith_of_reportable {c : Cause} (sh : Shell) (h : c.IsReportable) :
    sh.failWith c = sh.fail "main" 187 c.fault.text := by
  rw [failWith, Cause.report?, if_pos h]

theorem failWith_of_not_reportable {c : Cause} (sh : Shell) (h : ¬c.IsReportable) :
    sh.failWith c = (sh, .escape .unreported) := by
  rw [failWith, Cause.report?, if_neg h]
  rfl

structure Alerts (sh done : Shell) (errors : List Log.Record) : Prop where
  logger : done.logger = sh.logger
  alarms : done.alarms = sh.alarms ++ errors

namespace Alerts

theorem of_eq (hlogger : done.logger = sh.logger) (halarms : done.alarms = sh.alarms) :
    sh.Alerts done [] :=
  ⟨hlogger, halarms.trans (List.append_nil _).symm⟩

theorem trans (h : sh.Alerts mid errors) (h' : mid.Alerts done more) :
    sh.Alerts done (errors ++ more) where
  logger := h'.logger.trans h.logger
  alarms := by rw [h'.alarms, h.alarms, List.append_assoc]

theorem after (h' : mid.Alerts done more) (h : sh.Alerts mid []) : sh.Alerts done more :=
  h.trans h'

theorem before (h : sh.Alerts mid errors) (h' : mid.Alerts done []) : sh.Alerts done errors := by
  simpa using h.trans h'

theorem hearsErrors (h : sh.Alerts done errors) (hlog : sh.HearsErrors) : done.HearsErrors := by
  rw [HearsErrors, h.logger]
  exact hlog

end Alerts

/-- These errors have been reported, and nothing has been written or read meanwhile. -/
structure Reports (sh done : Shell) (errors : List Log.Record) : Prop
    extends sh.Alerts done errors where
  output : done.output = sh.output
  input : done.input = sh.input
  ending : done.ending = sh.ending

namespace Reports

theorem of_files (sh : Shell) {files : FileTree} {reported : Array Log.Record}
    (halarms : Shell.alarms { sh with files, reported } = sh.alarms ++ errors) :
    sh.Reports { sh with files, reported } errors :=
  ⟨⟨rfl, halarms⟩, rfl, rfl, rfl⟩

theorem refl (sh : Shell) : sh.Reports sh [] := of_files sh (List.append_nil _).symm

theorem trans (h : sh.Reports mid errors) (h' : mid.Reports done more) :
    sh.Reports done (errors ++ more) where
  toAlerts := h.toAlerts.trans h'.toAlerts
  output := h'.output.trans h.output
  input := h'.input.trans h.input
  ending := h'.ending.trans h.ending

theorem after (h' : mid.Reports done more) (h : sh.Reports mid []) : sh.Reports done more :=
  h.trans h'

theorem before (h : sh.Reports mid errors) (h' : mid.Reports done []) :
    sh.Reports done errors := by
  simpa using h.trans h'

theorem logsToError (h : sh.Reports done errors) (hlog : sh.LogsToError) : done.LogsToError := by
  obtain ⟨level, hle, hlogger⟩ := hlog
  exact ⟨level, hle, h.logger.trans hlogger⟩

theorem note (sh : Shell) (hlevel : r.level < Log.Level.error) : sh.Reports (sh.note r) [] := by
  obtain ⟨files, heq⟩ := note_eq sh r
  have halarms := alarms_note_of_lt sh hlevel
  rw [heq] at halarms ⊢
  exact of_files sh (halarms.trans (List.append_nil _).symm)

theorem error (hlog : sh.HearsErrors) (hlevel : r.level = Log.Level.error) :
    sh.Reports (sh.note r) [r] := by
  obtain ⟨files, heq⟩ := note_eq sh r
  have halarms := alarms_note_error hlog hlevel
  rw [heq] at halarms ⊢
  exact of_files sh halarms

theorem files (sh : Shell) (files : FileTree) : sh.Reports { sh with files } [] :=
  of_files sh (List.append_nil _).symm

theorem extend (sh : Shell) (path text : String) : sh.Reports (sh.extend path text) [] := by
  obtain ⟨files, heq⟩ := extend_eq sh path text
  rw [heq]
  exact .files sh files

theorem writeTrace (sh : Shell) (path : String) (lines : List TraceLine) :
    sh.Reports (sh.writeTrace (some path) lines) [] := by
  unfold Shell.writeTrace
  split
  · exact refl sh
  · exact extend sh path _

theorem publish (sh : Shell) (trace : Option String) (journal : List Entry)
    (hcalm : ∀ r, .logged r ∈ journal → r.level < Log.Level.error) :
    sh.Reports (sh.publish trace journal) [] := by
  have hnone : (sh.reportedOf journal).filter (·.level = Log.Level.error) = [] := by
    refine List.filter_eq_nil_iff.mpr fun r hr => ?_
    obtain ⟨r', hr', htarget⟩ := List.mem_flatMap.mp hr
    obtain ⟨target, -, hsame⟩ := List.mem_filterMap.mp htarget
    obtain ⟨entry, hentry, hrecord⟩ := List.mem_filterMap.mp hr'
    have hsame' : r' = r := by
      cases target with
      | standardError => exact Option.some.inj hsame
      | file path => contradiction
    cases entry with
    | logged record =>
      obtain rfl : record = r' := Option.some.inj hrecord
      simpa [← hsame'] using Int.ne_of_lt (hcalm record hentry)
    | traced line => contradiction
  obtain ⟨files, heq⟩ := extendAll_eq
    { sh with reported := sh.reported ++ (sh.reportedOf journal).toArray }
    (journal.flatMap (Shell.textsOf { sh with
      reported := sh.reported ++ (sh.reportedOf journal).toArray } trace))
  rw [Shell.publish, heq]
  exact of_files sh (by simp [Shell.alarms, hnone])

end Reports

end WordMachine.Cli.Shell
