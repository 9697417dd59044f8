import WordMachine.Proofs.FileContents
import WordMachine.Proofs.ShellReports

/-!
What the shell adds to files. Records and lines of a trace are only ever added at the end of files,
so what a path leads to keeps its contents, with text behind them. The file of a trace receives the
lines of the trace and nothing else, as long as no record goes to the same file.
-/
namespace WordMachine.Cli.Shell

variable {sh mid done : Shell} {path text added more : String} {q : Path}

theorem readText_of_utf8 (h : sh.files.read (.ofText path) = .ok (Text.utf8Encode text)) :
    sh.readText path = .ok (Text.unifyLineEnds text.toList) := by
  rw [readText, h]
  dsimp only
  rw [Text.utf8Decode_ok_iff.mpr rfl]

section Extending

theorem extend_of_not_writable (h : ¬sh.files.Writable (.ofText path)) (text : String) :
    sh.extend path text = sh := by
  unfold extend
  split
  next files hfiles => exact absurd (FileTree.exists_update_iff.mp ⟨files, hfiles⟩) h
  next => rfl

theorem exists_extend_of_writable (h : sh.files.Writable (.ofText path)) (text : String) :
    ∃ files, sh.files.append (.ofText path) (Text.utf8Encode text) = .ok files ∧
      sh.extend path text = { sh with files } := by
  obtain ⟨files, hfiles⟩ : ∃ files, sh.files.append (.ofText path) (Text.utf8Encode text) =
    .ok files := FileTree.exists_update_iff.mpr h
  exact ⟨files, hfiles, by rw [extend, hfiles]⟩

theorem read_extend_of_ne {bytes : List UInt8}
    (h : sh.files.place? (.ofText path) ≠ sh.files.place? q) (text : String) :
    (sh.extend path text).files.read q = .ok bytes ↔ sh.files.read q = .ok bytes := by
  unfold extend
  split
  next files hfiles => exact FileTree.read_ok_iff_of_update hfiles (Ne.symm h)
  next => exact Iff.rfl

end Extending

/-- The file that a path leads to has been extended by a text, and other files at most by texts of
their own. -/
structure Appends (q : Path) (sh done : Shell) (added : String) : Prop where
  logger : done.logger = sh.logger
  stampTime : done.stampTime = sh.stampTime
  directories : sh.files.SameDirectories done.files
  contents : done.files.contents q = sh.files.contents q ++ Text.utf8Encode added

namespace Appends

theorem of_files (h : done.files = sh.files) (hlogger : done.logger = sh.logger)
    (htime : done.stampTime = sh.stampTime) : sh.Appends q done "" :=
  ⟨hlogger, htime, by rw [h]; exact .refl _, by rw [h]; exact (List.append_nil _).symm⟩

theorem refl (sh : Shell) : Appends q sh sh "" := of_files rfl rfl rfl

theorem trans (h : Appends q sh mid added) (h' : Appends q mid done more) :
    Appends q sh done (added ++ more) where
  logger := h'.logger.trans h.logger
  stampTime := h'.stampTime.trans h.stampTime
  directories := h.directories.trans h'.directories
  contents := by rw [h'.contents, h.contents, Text.utf8Encode_append, List.append_assoc]

theorem after (h' : Appends q mid done more) (h : Appends q sh mid "") :
    Appends q sh done more := by
  simpa using h.trans h'

theorem before (h : Appends q sh mid added) (h' : Appends q mid done "") :
    Appends q sh done added := by
  simpa using h.trans h'

theorem extend_of_eq (hq : sh.files.Writable q)
    (h : sh.files.place? (.ofText path) = sh.files.place? q) (text : String) :
    Appends q sh (sh.extend path text) text := by
  obtain ⟨parts, hplace, hentry⟩ := hq
  obtain ⟨files, hfiles, heq⟩ := exists_extend_of_writable ⟨parts, h.trans hplace, hentry⟩ text
  rw [heq]
  refine ⟨rfl, rfl, FileTree.sameDirectories_of_update hfiles, ?_⟩
  rw [FileTree.contents_of_update hfiles, if_pos h.symm]

theorem extend_of_ne (h : sh.files.place? (.ofText path) ≠ sh.files.place? q) (text : String) :
    Appends q sh (sh.extend path text) "" := by
  unfold Shell.extend
  split
  next files hfiles =>
    refine ⟨rfl, rfl, FileTree.sameDirectories_of_update hfiles, ?_⟩
    rw [FileTree.contents_of_update hfiles, if_neg (Ne.symm h)]
    exact (List.append_nil _).symm
  next => exact refl sh

theorem exists_extend (q : Path) (sh : Shell) (path text : String) :
    ∃ added, Appends q sh (sh.extend path text) added := by
  by_cases heq : sh.files.place? (.ofText path) = sh.files.place? q
  · by_cases hwritable : sh.files.Writable (.ofText path)
    · obtain ⟨parts, hplace, hentry⟩ := hwritable
      exact ⟨text, extend_of_eq ⟨parts, heq.symm.trans hplace, hentry⟩ heq text⟩
    · exact ⟨"", by rw [extend_of_not_writable hwritable]; exact refl sh⟩
  · exact ⟨"", extend_of_ne heq text⟩

theorem exists_hand (q : Path) (r : Log.Record) (sh : Shell) (target : Log.Target) :
    ∃ added, Appends q sh (hand r sh target) added := by
  cases target with
  | standardError => exact ⟨"", of_files rfl rfl rfl⟩
  | file path => exact exists_extend q sh path (r.line sh.logTime)

theorem exists_foldl_hand (q : Path) (r : Log.Record) (sh : Shell) (targets : List Log.Target) :
    ∃ added, Appends q sh (targets.foldl (hand r) sh) added := by
  induction targets generalizing sh with
  | nil => exact ⟨"", refl sh⟩
  | cons target rest ih =>
    obtain ⟨added, hadded⟩ := exists_hand q r sh target
    obtain ⟨more, hmore⟩ := ih (hand r sh target)
    exact ⟨_, hadded.trans hmore⟩

theorem exists_note (q : Path) (sh : Shell) (r : Log.Record) :
    ∃ added, Appends q sh (sh.note r) added :=
  exists_foldl_hand q r sh _

theorem opened {files : FileTree} (q : Path) (h : sh.files.append (.ofText path) [] = .ok files) :
    Appends q sh { sh with files } "" := by
  refine ⟨rfl, rfl, FileTree.sameDirectories_of_update h, ?_⟩
  rw [FileTree.contents_of_update h]
  split
  · rfl
  · exact (List.append_nil _).symm

end Appends

/-- Nothing has been read or reported as an error, and what there is in files has at most been
added to. -/
structure Continues (sh done : Shell) : Prop extends sh.Alerts done [] where
  input : done.input = sh.input
  ending : done.ending = sh.ending
  added (q : Path) : ∃ added, Appends q sh done added

namespace Continues

theorem refl (sh : Shell) : sh.Continues sh :=
  ⟨.of_eq rfl rfl, rfl, rfl, fun _ => ⟨"", .refl sh⟩⟩

theorem trans (h : sh.Continues mid) (h' : mid.Continues done) : sh.Continues done where
  toAlerts := h'.toAlerts.after h.toAlerts
  input := h'.input.trans h.input
  ending := h'.ending.trans h.ending
  added := fun q =>
    have ⟨_, hfirst⟩ := h.added q
    have ⟨_, hmore⟩ := h'.added q
    ⟨_, hfirst.trans hmore⟩

theorem of_reports (h : sh.Reports done []) (hadded : ∀ q, ∃ added, Appends q sh done added) :
    sh.Continues done :=
  ⟨h.toAlerts, h.input, h.ending, hadded⟩

theorem note (sh : Shell) {r : Log.Record} (hlevel : r.level < Log.Level.error) :
    sh.Continues (sh.note r) :=
  .of_reports (.note sh hlevel) fun q => Appends.exists_note q sh r

theorem opened {files : FileTree} (h : sh.files.append (.ofText path) [] = .ok files) :
    sh.Continues { sh with files } :=
  .of_reports (.files sh files) fun q => ⟨"", .opened q h⟩

theorem writeTrace (sh : Shell) (file : Option String) (lines : List TraceLine) :
    sh.Continues (sh.writeTrace file lines) := by
  unfold Shell.writeTrace
  split
  · exact refl sh
  · cases file with
    | none => exact ⟨.of_eq rfl rfl, rfl, rfl, fun _ => ⟨"", .of_files rfl rfl rfl⟩⟩
    | some path => exact .of_reports (.extend sh path _) fun q => Appends.exists_extend q sh path _

theorem writable_iff (h : sh.Continues done) {p : Path} :
    done.files.Writable p ↔ sh.files.Writable p := by
  obtain ⟨added, hadded⟩ := h.added p
  exact ⟨.congr hadded.directories.symm, .congr hadded.directories⟩

end Continues

/-- The bytes of a file that is there are no UTF-8. -/
def Garbles (sh : Shell) (path : String) : Prop :=
  ∀ text, sh.files.contents (.ofText path) ≠ Text.utf8Encode text

theorem Garbles.of_continues (h : sh.Continues done) (hdone : done.Garbles path) :
    sh.Garbles path := by
  intro text htext
  obtain ⟨added, hadded⟩ := h.added (.ofText path)
  refine hdone (text ++ added) ?_
  rw [hadded.contents, htext, Text.utf8Encode_append]

theorem readText_error {e : Escape} (h : sh.readText path = .error e) :
    (∃ f, e = .file f ∧ sh.files.read (.ofText path) = .error f) ∨
      ∃ d, e = .undecodable d ∧ sh.Garbles path := by
  unfold readText at h
  split at h
  next f hread => exact .inl ⟨f, (Except.error.inj h).symm, hread⟩
  next bytes hread =>
    split at h
    next d hdecode =>
      refine .inr ⟨d, (Except.error.inj h).symm, fun text htext => ?_⟩
      rw [FileTree.contents_of_read hread] at htext
      cases (Text.utf8Decode_ok_iff.mpr htext).symm.trans hdecode
    next => cases h

/-- No record goes to what a path leads to. -/
def LogsApart (q : Path) (sh : Shell) : Prop :=
  ∀ r path, .file path ∈ sh.logger.deliver r →
    sh.files.place? (.ofText path) ≠ sh.files.place? q

theorem LogsApart.congr (h : sh.LogsApart q) (hlogger : done.logger = sh.logger)
    (hdirectories : sh.files.SameDirectories done.files) : done.LogsApart q := by
  intro r path hpath
  rw [FileTree.place?_congr hdirectories, FileTree.place?_congr hdirectories]
  rw [hlogger] at hpath
  exact h r path hpath

theorem LogsApart.of_appends (h : sh.LogsApart q) (hadded : Appends q sh done added) :
    done.LogsApart q :=
  h.congr hadded.logger hadded.directories

theorem appends_foldl_hand {targets : List Log.Target} (r : Log.Record)
    (h : ∀ path, .file path ∈ targets → sh.files.place? (.ofText path) ≠ sh.files.place? q) :
    Appends q sh (targets.foldl (hand r) sh) "" := by
  induction targets generalizing sh with
  | nil => exact .refl sh
  | cons target rest ih =>
    have hone : Appends q sh (hand r sh target) "" := by
      cases target with
      | standardError => exact .of_files rfl rfl rfl
      | file path => exact .extend_of_ne (h path List.mem_cons_self) _
    refine hone.trans (ih fun path hpath => ?_)
    rw [FileTree.place?_congr hone.directories, FileTree.place?_congr hone.directories]
    exact h path (List.mem_cons_of_mem _ hpath)

theorem LogsApart.note (h : sh.LogsApart q) (r : Log.Record) : Appends q sh (sh.note r) "" :=
  appends_foldl_hand r (h r)

theorem read_foldl_hand {targets : List Log.Target} {bytes : List UInt8} (r : Log.Record)
    (h : ∀ path, .file path ∈ targets → sh.files.place? (.ofText path) ≠ sh.files.place? q) :
    (targets.foldl (hand r) sh).files.read q = .ok bytes ↔ sh.files.read q = .ok bytes := by
  induction targets generalizing sh with
  | nil => exact Iff.rfl
  | cons target rest ih =>
    have hone : sh.files.SameDirectories (hand r sh target).files := by
      obtain ⟨added, hadded⟩ := Appends.exists_hand q r sh target
      exact hadded.directories
    have hread : (hand r sh target).files.read q = .ok bytes ↔ sh.files.read q = .ok bytes := by
      cases target with
      | standardError => exact Iff.rfl
      | file path => exact read_extend_of_ne (h path List.mem_cons_self) _
    refine (ih fun path hpath => ?_).trans hread
    rw [FileTree.place?_congr hone, FileTree.place?_congr hone]
    exact h path (List.mem_cons_of_mem _ hpath)

/-- Nothing has been written except to the log: standard output is as it was, and so is each file
that no record goes to. -/
structure OnlyLogs (sh done : Shell) : Prop where
  output : done.output = sh.output
  logger : done.logger = sh.logger
  directories : sh.files.SameDirectories done.files
  files {p : Path} {bytes : List UInt8} (h : sh.LogsApart p) :
    done.files.read p = .ok bytes ↔ sh.files.read p = .ok bytes

namespace OnlyLogs

theorem refl (sh : Shell) : sh.OnlyLogs sh := ⟨rfl, rfl, .refl _, fun _ => Iff.rfl⟩

theorem place?_eq (h : sh.OnlyLogs done) (p : Path) : done.files.place? p = sh.files.place? p :=
  FileTree.place?_congr h.directories p

theorem logsApart (h : sh.OnlyLogs done) (hq : sh.LogsApart q) : done.LogsApart q :=
  hq.congr h.logger h.directories

theorem trans (h : sh.OnlyLogs mid) (h' : mid.OnlyLogs done) : sh.OnlyLogs done where
  output := h'.output.trans h.output
  logger := h'.logger.trans h.logger
  directories := h.directories.trans h'.directories
  files hp := (h'.files (h.logsApart hp)).trans (h.files hp)

theorem note (sh : Shell) (r : Log.Record) : sh.OnlyLogs (sh.note r) := by
  obtain ⟨added, hadded⟩ := Appends.exists_note (.ofText "") sh r
  exact ⟨output_note sh r, hadded.logger, hadded.directories, fun hp => read_foldl_hand r (hp r)⟩

end OnlyLogs

theorem LogsToError.logsApart (h : sh.LogsToError) (q : Path) : sh.LogsApart q := by
  obtain ⟨threshold, -, hlogger⟩ := h
  intro r path hpath
  rw [hlogger, Log.Logger.deliver] at hpath
  by_cases hpasses : threshold ≤ r.level <;> simp [hpasses] at hpath

def textsFor (sh : Shell) (q : Path) (texts : List (String × String)) : List String :=
  (texts.filter fun e => sh.files.place? (.ofText e.1) == sh.files.place? q).map (·.2)

/-- Of several texts, those that are for what a path leads to go there, in order. -/
theorem appends_extendAll (q : Path) (sh : Shell) (hq : sh.files.Writable q)
    (texts : List (String × String)) :
    Appends q sh (sh.extendAll texts) (String.join (sh.textsFor q texts)) := by
  match texts with
  | [] =>
    rw [extendAll]
    exact .refl sh
  | (path, text) :: rest =>
    have hplace (path : String) : (sh.files.locate (.ofText path)).toOption =
      sh.files.place? (.ofText path) := rfl
    rw [extendAll]
    simp only [hplace]
    generalize hjoined : String.join _ = joined
    -- The texts for another place are left for later; those for this one have been joined.
    by_cases heq : sh.files.place? (.ofText path) = sh.files.place? q
    · have hnow := Appends.extend_of_eq hq heq joined
      have hlater := appends_extendAll q _ (hq.congr hnow.directories)
        (rest.filter fun e => sh.files.place? (.ofText e.1) != sh.files.place? (.ofText path))
      have hnone : (rest.filter fun e =>
          sh.files.place? (.ofText e.1) != sh.files.place? (.ofText path)).filter
          (fun e => sh.files.place? (.ofText e.1) == sh.files.place? q) = [] := by
        simp [List.filter_filter, heq]
      rw [textsFor] at hlater ⊢
      simp only [FileTree.place?_congr hnow.directories, hnone] at hlater
      simpa [List.filter_cons, heq, ← hjoined] using hnow.trans hlater
    · have hnow := Appends.extend_of_ne heq joined
      have hlater := appends_extendAll q _ (hq.congr hnow.directories)
        (rest.filter fun e => sh.files.place? (.ofText e.1) != sh.files.place? (.ofText path))
      have hsame : (rest.filter fun e =>
          sh.files.place? (.ofText e.1) != sh.files.place? (.ofText path)).filter
          (fun e => sh.files.place? (.ofText e.1) == sh.files.place? q) =
          rest.filter fun e => sh.files.place? (.ofText e.1) == sh.files.place? q := by
        rw [List.filter_filter]
        refine List.filter_congr fun e _ => ?_
        by_cases he : sh.files.place? (.ofText e.1) = sh.files.place? q
        · simp [he, Ne.symm heq]
        · simp [he]
      rw [textsFor] at hlater ⊢
      simp only [FileTree.place?_congr hnow.directories, hsame] at hlater
      simpa [List.filter_cons, heq] using hlater.after hnow
  termination_by texts.length
  decreasing_by all_goals exact Nat.lt_succ_of_le (List.length_filter_le ..)

theorem appends_writeTrace (hq : sh.files.Writable (.ofText path)) (lines : List TraceLine) :
    Appends (.ofText path) sh (sh.writeTrace (some path) lines)
      (TraceLine.textOf sh.stampTime lines) := by
  unfold writeTrace
  cases lines with
  | nil => exact .refl sh
  | cons line rest => exact .extend_of_eq hq rfl _

theorem textsFor_journal (h : sh.LogsApart (.ofText path)) (journal : List Entry) :
    sh.textsFor (.ofText path) (journal.flatMap (sh.textsOf (some path))) =
      (journal.filterMap Entry.trace?).map (·.text sh.stampTime) := by
  have hlogged (r : Log.Record) : (sh.textsOf (some path) (.logged r)).filter
      (fun e => sh.files.place? (.ofText e.1) == sh.files.place? (.ofText path)) = [] := by
    refine List.filter_eq_nil_iff.mpr fun e he => ?_
    obtain ⟨target, htarget, hentry⟩ := List.mem_filterMap.mp he
    cases target with
    | standardError => cases hentry
    | file file =>
      cases hentry
      simpa using h r file htarget
  unfold textsFor
  induction journal with
  | nil => rfl
  | cons entry rest ih =>
    rw [List.flatMap_cons, List.filter_append, List.map_append, ih]
    cases entry with
    | logged r =>
      rw [hlogged r]
      rfl
    | traced line => simp [textsOf, Entry.trace?]

theorem appends_publish (hq : sh.files.Writable (.ofText path))
    (hapart : sh.LogsApart (.ofText path)) (journal : List Entry) :
    Appends (.ofText path) sh (sh.publish (some path) journal)
      (TraceLine.textOf sh.stampTime (journal.filterMap Entry.trace?)) := by
  rw [publish, TraceLine.textOf, ← textsFor_journal hapart]
  refine (appends_extendAll (.ofText path) { sh with
    reported := sh.reported ++ (sh.reportedOf journal).toArray } hq _).after ?_
  exact .of_files rfl rfl rfl

end WordMachine.Cli.Shell
