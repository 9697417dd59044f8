import WordMachine.Proofs.PathText
import WordMachine.Proofs.Serving
import WordMachine.Proofs.ShellFiles

/-!
Setting the log up, and logging. However often the log has been set up, records go where the last
setup sends them and nowhere else: to standard error from a level on, and to a file, if there is
one, whatever the level on standard error is. What has a level that cannot be named never becomes a
record.
-/
namespace WordMachine

namespace Log

theorem Note.record?_eq_some_iff {n : Note} {r : Record} : n.record? = some r ↔ r.toNote = n := by
  unfold record?
  constructor
  · intro h
    split at h
    · cases h
      rfl
    · contradiction
  · rintro rfl
    rw [dif_pos r.nameable]

theorem Note.record?_eq_none_iff {n : Note} : n.record? = none ↔ ¬Text.IsWritable n.level := by
  simp [record?]

/-- A record reaches no target twice, whatever handlers there were before. -/
theorem Logger.deliver_configure (l : Logger) (file : Option String) {level : Level}
    (hlevel : .debug ≤ level) (r : Record) : (l.configure level file).deliver r =
      (if level ≤ r.level then [.standardError] else []) ++
        if Level.debug ≤ r.level then file.toList.map .file else [] := by
  rw [configure_eq, deliver]
  by_cases hheard : level ≤ r.level
  · have hdebug : Level.debug ≤ r.level := Int.le_trans hlevel hheard
    cases file <;> simp [hheard, hdebug]
  · by_cases hdebug : Level.debug ≤ r.level <;> cases file <;> simp [hheard, hdebug]

end Log

namespace Cli.Shell

variable {sh ready : Shell} {path : String} {level : Log.Level} {file : Option String} {q : Path}
  {bytes : List UInt8}

section Lines

def addLines (sh : Shell) (path : String) (lines : List String) : Shell :=
  if lines.isEmpty then sh else sh.extend path (String.join lines)

theorem extend_extend (sh : Shell) (path text more : String) :
    (sh.extend path text).extend path more = sh.extend path (text ++ more) := by
  by_cases hwritable : sh.files.Writable (.ofText path)
  · obtain ⟨files, hfiles, heq⟩ := exists_extend_of_writable hwritable text
    obtain ⟨both, hboth, heq'⟩ := exists_extend_of_writable hwritable (text ++ more)
    have happend : files.append (.ofText path) (Text.utf8Encode more) = .ok both := by
      rw [← hboth, FileTree.append, FileTree.update_update hfiles, FileTree.append,
        Text.utf8Encode_append]
      exact congrArg _ (funext fun bytes => List.append_assoc ..)
    rw [heq, heq', extend, happend]
  · rw [extend_of_not_writable hwritable, extend_of_not_writable hwritable,
      extend_of_not_writable hwritable]

theorem addLines_addLines (sh : Shell) (path : String) (lines more : List String) :
    (sh.addLines path lines).addLines path more = sh.addLines path (lines ++ more) := by
  unfold addLines
  cases lines with
  | nil => simp
  | cons line rest =>
    cases more with
    | nil => simp
    | cons _ _ => simp [extend_extend, String.append_assoc]

theorem extendAll_map (sh : Shell) (path : String) (lines : List String) :
    sh.extendAll (lines.map (path, ·)) = sh.addLines path lines := by
  cases lines with
  | nil =>
    rw [List.map_nil, extendAll]
    rfl
  | cons line rest =>
    have hsame : (rest.map (path, ·)).filter (fun e => (sh.files.locate (.ofText e.1)).toOption ==
        (sh.files.locate (.ofText path)).toOption) = rest.map (path, ·) :=
      List.filter_eq_self.mpr (by simp)
    have hothers : (rest.map (path, ·)).filter (fun e => (sh.files.locate (.ofText e.1)).toOption !=
        (sh.files.locate (.ofText path)).toOption) = [] := List.filter_eq_nil_iff.mpr (by simp)
    rw [List.map_cons, extendAll]
    simp only [hsame, hothers, extendAll]
    simp [addLines, Function.comp_def]

theorem addLines_eq (sh : Shell) (path : String) (lines : List String) :
    ∃ files, sh.addLines path lines = { sh with files } := by
  unfold addLines
  split
  · exact ⟨sh.files, rfl⟩
  · exact extend_eq sh path _

theorem read_addLines (h : sh.files.read (.ofText path) = .ok bytes) (lines : List String) :
    (sh.addLines path lines).files.read (.ofText path) =
      .ok (bytes ++ Text.utf8Encode (String.join lines)) := by
  unfold addLines
  split
  next hnone => simpa [List.isEmpty_iff.mp hnone, Text.utf8Encode] using h
  next =>
    obtain ⟨parts, hplace, hentry⟩ := FileTree.read_ok_iff.mp h
    obtain ⟨files, hfiles, heq⟩ := exists_extend_of_writable ⟨parts, hplace, by simp [hentry]⟩
      (String.join lines)
    rw [heq, FileTree.read_of_update hfiles, FileTree.contents_of_read h]

theorem read_addLines_of_ne (h : sh.files.place? (.ofText path) ≠ sh.files.place? q)
    (lines : List String) :
    (sh.addLines path lines).files.read q = .ok bytes ↔ sh.files.read q = .ok bytes := by
  unfold addLines
  split
  · exact Iff.rfl
  · exact read_extend_of_ne h _

end Lines

section Listening

/-- Standard error hears records of a level, and the file, if there is one, all from debug on. -/
structure Listens (sh : Shell) (level : Log.Level) (file : Option String) : Prop where
  debug : .debug ≤ level
  logger : ∃ l : Log.Logger, sh.logger = l.configure level file

theorem Listens.deliver_eq (h : sh.Listens level file) (r : Log.Record) : sh.logger.deliver r =
    (if level ≤ r.level then [.standardError] else []) ++
      if Log.Level.debug ≤ r.level then file.toList.map .file else [] := by
  obtain ⟨l, hlogger⟩ := h.logger
  rw [hlogger, Log.Logger.deliver_configure l file h.debug]

theorem Listens.threshold_eq (h : sh.Listens level file) :
    sh.logger.threshold = if file.isSome then .debug else level := by
  obtain ⟨l, hlogger⟩ := h.logger
  rw [hlogger, Log.Logger.configure_eq]

def hear (sh : Shell) (records : List Log.Record) : Shell :=
  { sh with reported := sh.reported ++ records.toArray }

theorem hear_hear (sh : Shell) (records more : List Log.Record) :
    (sh.hear records).hear more = sh.hear (records ++ more) := by
  simp [hear]

theorem hear_addLines (sh : Shell) (path : String) (lines : List String)
    (records : List Log.Record) :
    (sh.addLines path lines).hear records = (sh.hear records).addLines path lines := by
  unfold addLines extend hear
  split
  · rfl
  · dsimp only
    split <;> rfl

def logLines (time : String) (records : List Log.Record) : List String :=
  (records.filter (Log.Level.debug ≤ ·.level)).map (·.line time)

/-- What records make of a shell: standard error receives some of them, and the log file the lines
of some. -/
def received (sh : Shell) (level : Log.Level) (file : Option String) (records : List Log.Record) :
    Shell :=
  let heard := sh.hear (records.filter (level ≤ ·.level))
  match file with
  | none => heard
  | some path => heard.addLines path (logLines sh.logTime records)

theorem received_eq (sh : Shell) (level : Log.Level) (file : Option String)
    (records : List Log.Record) : ∃ files, sh.received level file records =
      { sh with files, reported := sh.reported ++ (records.filter (level ≤ ·.level)).toArray } := by
  cases file with
  | none => exact ⟨sh.files, rfl⟩
  | some path => exact addLines_eq (sh.hear _) path _

theorem received_append (sh : Shell) (level : Log.Level) (file : Option String)
    (records more : List Log.Record) :
    (sh.received level file records).received level file more =
      sh.received level file (records ++ more) := by
  obtain ⟨files, heq⟩ := received_eq sh level file records
  have htime : (sh.received level file records).logTime = sh.logTime := by rw [heq]
  cases file with
  | none => simp [received, hear_hear]
  | some path =>
    rw [received, htime]
    simp only [received, hear_addLines, hear_hear, addLines_addLines, logLines, List.filter_append,
      List.map_append]

theorem read_received (level : Log.Level) (h : sh.files.read (.ofText path) = .ok bytes)
    (records : List Log.Record) :
    (sh.received level (some path) records).files.read (.ofText path) =
      .ok (bytes ++ Text.utf8Encode (String.join (logLines sh.logTime records))) := by
  have hheard : (sh.hear (records.filter (level ≤ ·.level))).files.read (.ofText path) =
    .ok bytes := h
  exact read_addLines hheard _

theorem read_received_of_ne (level : Log.Level)
    (h : ∀ path ∈ file, sh.files.place? (.ofText path) ≠ sh.files.place? q)
    (records : List Log.Record) :
    (sh.received level file records).files.read q = .ok bytes ↔ sh.files.read q = .ok bytes := by
  cases file with
  | none => exact Iff.rfl
  | some path =>
    have hheard : (sh.hear (records.filter (level ≤ ·.level))).files.place? (.ofText path) ≠
      (sh.hear (records.filter (level ≤ ·.level))).files.place? q := h path rfl
    exact read_addLines_of_ne hheard _

theorem Listens.of_received (h : sh.Listens level file) (records : List Log.Record) :
    (sh.received level file records).Listens level file := by
  obtain ⟨files, heq⟩ := received_eq sh level file records
  rw [heq]
  exact ⟨h.debug, h.logger⟩

theorem Listens.note_eq_received (h : sh.Listens level file) (r : Log.Record) :
    sh.note r = sh.received level file [r] := by
  rw [note, h.deliver_eq]
  cases file with
  | none => by_cases hheard : level ≤ r.level <;> simp [received, hear, hheard, hand]
  | some path =>
    by_cases hheard : level ≤ r.level <;> by_cases hdebug : Log.Level.debug ≤ r.level <;>
      simp [received, hear, logLines, addLines, hheard, hdebug, hand]

theorem Listens.foldl_note (h : sh.Listens level file) (records : List Log.Record) :
    records.foldl note sh = sh.received level file records := by
  induction records generalizing sh with
  | nil => cases file <;> simp [received, hear, logLines, addLines]
  | cons r rest ih =>
    rw [List.foldl_cons, h.note_eq_received, ih (h.of_received [r]), received_append]
    rfl

theorem Listens.reportedOf_eq (h : sh.Listens level file) (journal : List Entry) :
    sh.reportedOf journal =
      (journal.filterMap Entry.record?).filter (level ≤ ·.level) := by
  rw [reportedOf]
  induction journal.filterMap Entry.record? with
  | nil => rfl
  | cons r rest ih =>
    rw [List.flatMap_cons, ih, h.deliver_eq]
    by_cases hheard : level ≤ r.level <;> by_cases hdebug : Log.Level.debug ≤ r.level <;>
      cases file <;> simp [hheard, hdebug]

theorem Listens.textsOf_eq (h : sh.Listens level file) (journal : List Entry) :
    journal.flatMap (sh.textsOf none) = file.toList.flatMap fun path =>
      (logLines sh.logTime (journal.filterMap Entry.record?)).map (path, ·) := by
  induction journal with
  | nil => cases file <;> rfl
  | cons entry rest ih =>
    rw [List.flatMap_cons, ih]
    cases entry with
    | traced line => rfl
    | logged r =>
      rw [textsOf, h.deliver_eq]
      by_cases hheard : level ≤ r.level <;> by_cases hdebug : Log.Level.debug ≤ r.level <;>
        cases file <;> simp [hheard, hdebug, logLines, Entry.record?]

/-- The journal of a session is logged as its records would have been one by one. -/
theorem Listens.publish_eq (h : sh.Listens level file) (journal : List Entry) :
    sh.publish none journal = sh.received level file (journal.filterMap Entry.record?) := by
  have hheard : (sh.hear (sh.reportedOf journal)).Listens level file := ⟨h.debug, h.logger⟩
  show (sh.hear (sh.reportedOf journal)).extendAll
    (journal.flatMap ((sh.hear (sh.reportedOf journal)).textsOf none)) = _
  rw [hheard.textsOf_eq, h.reportedOf_eq]
  cases file with
  | none => simp [received, extendAll]
  | some path =>
    simp only [Option.toList_some, List.flatMap_singleton, extendAll_map]
    rfl

end Listening

section Logging

/-- One note after the other, with what has stopped them. -/
def logAll (sh : Shell) (notes : List Log.Note) : Shell × List (Option Escape) :=
  serveAll log sh notes

theorem note_of_lt {r : Log.Record} (h : r.level < sh.logger.threshold) : sh.note r = sh := by
  rw [note, Log.Logger.deliver, if_neg (Int.not_le.mpr h)]
  rfl

theorem log_of_record {n : Log.Note} {r : Log.Record} (h : n.record? = some r) :
    sh.log n = (sh.note r, none) := by
  obtain rfl := Log.Note.record?_eq_some_iff.mp h
  unfold log
  split
  · rw [h]
  next hlow => rw [note_of_lt (Int.not_le.mp hlow)]

theorem log_of_no_record {n : Log.Note} (h : n.record? = none) :
    sh.log n = (sh, if sh.logger.threshold ≤ n.level then some .unreported else none) := by
  unfold log
  rw [h]
  split <;> rfl

/-- Only notes that have become records leave something; one that cannot is stopped if it passes the
threshold, and the others are logged all the same. -/
theorem logAll_eq (sh : Shell) (notes : List Log.Note) : sh.logAll notes =
    ((notes.filterMap Log.Note.record?).foldl note sh, notes.map fun n =>
      if sh.logger.threshold ≤ n.level ∧ ¬Text.IsWritable n.level then some .unreported
      else none) := by
  induction notes generalizing sh with
  | nil => rfl
  | cons n rest ih =>
    have hcons : sh.logAll (n :: rest) =
      (((sh.log n).1.logAll rest).1, (sh.log n).2 :: ((sh.log n).1.logAll rest).2) := rfl
    rw [hcons, List.map_cons]
    cases hrecord : n.record? with
    | none =>
      have hlong := Log.Note.record?_eq_none_iff.mp hrecord
      rw [log_of_no_record hrecord, List.filterMap_cons_none hrecord]
      simp only [ih, hlong, not_false_eq_true, and_true]
    | some r =>
      have hshort : Text.IsWritable n.level := by
        rw [← Log.Note.record?_eq_some_iff.mp hrecord]
        exact r.nameable
      have hlogger : (sh.note r).logger = sh.logger := by
        obtain ⟨files, heq⟩ := note_eq sh r
        rw [heq]
      rw [log_of_record hrecord, List.filterMap_cons_some hrecord, List.foldl_cons]
      simp only [ih, hlogger, hshort, not_true_eq_false, and_false, if_false]

end Logging

section Setup

/-- The path by which a log file is opened. -/
def logPath (name : String) : Path := (Path.ofText name).collapse

def logFile? (file : Option String) : Option Path := (file.filter (· ≠ "")).map logPath

theorem ofText_logPath (name : String) : Path.ofText (logPath name).text = logPath name :=
  (Path.Proper.ofText name).collapse.ofText_text

theorem ofText_of_mem {p : Path} (hp : p ∈ logFile? file) : Path.ofText p.text = p := by
  obtain ⟨name, -, rfl⟩ := Option.map_eq_some_iff.mp hp
  exact ofText_logPath name

theorem listens_of_setUpLog (hlevel : .debug ≤ level)
    (h : sh.setUpLog level file = (ready, none)) :
    ready.Listens level ((logFile? file).map Path.text) ∧
      ∀ p ∈ logFile? file, ∃ bytes, ready.files.read p = .ok bytes := by
  unfold setUpLog at h
  split at h
  next hnone =>
    cases h
    simp only [logFile?, hnone]
    exact ⟨⟨hlevel, _, rfl⟩, nofun⟩
  next name hname =>
    dsimp only at h
    split at h
    · cases h
    split at h
    · cases h
    next files hfiles =>
      generalize hopened : Shell.mk files _ _ _ _ _ _ _ _ = opened at h
      have hlistens : opened.Listens level (some (logPath name).text) := by
        rw [← hopened]
        exact ⟨hlevel, _, rfl⟩
      obtain ⟨bytes, hread⟩ : ∃ bytes, opened.files.read (logPath name) = .ok bytes := by
        rw [← hopened]
        exact ⟨_, FileTree.read_of_update hfiles⟩
      cases h
      simp only [logFile?, hname, Option.map_some, Option.mem_def, Option.some.injEq, forall_eq']
      rw [hlistens.note_eq_received]
      rw [← ofText_logPath] at hread
      have hlater := read_received level hread
      rw [ofText_logPath] at hlater
      exact ⟨hlistens.of_received _, _, hlater _⟩

/-- One setup after the other, with what each of them was stopped by. -/
def setUpAll (sh : Shell) (calls : List (Log.Level × Option String)) :
    Shell × List (Option Escape) :=
  serveAll (fun sh call => sh.setUpLog call.1 call.2) sh calls

/-- After any number of setups, all of which have succeeded, the log is as the last one wants it. A
record goes to standard error if its level is at least the one of that setup, to the file of that
setup if it names one and the level is at least that of debugging, and to nothing else; what records
leave is in the order in which they are logged, each once. It makes no difference whether records
are logged one by one or from the journal of a session. What has a level too long for a name is
stopped, unless it is below all that is logged, and leaves nothing. -/
theorem only_last_setup_counts {calls : List (Log.Level × Option String)}
    {answers : List (Option Escape)} (hcalls : sh.setUpAll calls = (ready, answers))
    (hgood : ∀ answer ∈ answers, answer = none) (hlevels : ∀ call ∈ calls, .debug ≤ call.1)
    (hlast : calls.getLast? = some (level, file)) (notes : List Log.Note) :
    let records := notes.filterMap Log.Note.record?
    let done := (ready.logAll notes).1
    (∀ r : Log.Record, ready.logger.deliver r =
      (if level ≤ r.level then [.standardError] else []) ++
        if Log.Level.debug ≤ r.level then (logFile? file).toList.map (.file ·.text) else []) ∧
    (∀ n : Log.Note, (∃ r ∈ n.record?, r.toNote = n) ↔ Text.IsWritable n.level) ∧
    ((ready.logAll notes).2 = notes.map fun n =>
      if (if (logFile? file).isSome then Log.Level.debug else level) ≤ n.level ∧
        ¬Text.IsWritable n.level then some .unreported else none) ∧
    done.reported = ready.reported ++ (records.filter (level ≤ ·.level)).toArray ∧
    (∀ p ∈ logFile? file, ∃ before, ready.files.read p = .ok before ∧
      done.files.read p = .ok (before ++ Text.utf8Encode (String.join
        ((records.filter (Log.Level.debug ≤ ·.level)).map (·.line ready.logTime))))) ∧
    (∀ q, (∀ p ∈ logFile? file, ready.files.place? p ≠ ready.files.place? q) →
      ∀ bytes, done.files.read q = .ok bytes ↔ ready.files.read q = .ok bytes) ∧
    ∀ journal, journal.filterMap Entry.record? = records → ready.publish none journal = done := by
  obtain ⟨earlier, rfl⟩ := List.getLast?_eq_some_iff.mp hlast
  rw [setUpAll, serveAll_concat, Prod.mk.injEq] at hcalls
  obtain ⟨hready, rfl⟩ := hcalls
  have hnone := hgood _ (List.mem_append_right _ List.mem_cons_self)
  have hlevel : .debug ≤ level := hlevels (level, file) (List.mem_append_right _ List.mem_cons_self)
  obtain ⟨hlistens, hthere⟩ := listens_of_setUpLog hlevel (Prod.ext hready hnone)
  dsimp only
  rw [logAll_eq, hlistens.foldl_note, hlistens.threshold_eq, Option.isSome_map]
  generalize notes.filterMap Log.Note.record? = records
  refine ⟨fun r => ?_, fun n => ?_, rfl, ?_, fun p hp => ?_, fun q hq bytes => ?_,
    fun journal hjournal => ?_⟩
  · rw [hlistens.deliver_eq]
    cases logFile? file <;> rfl
  · constructor
    · rintro ⟨r, -, rfl⟩
      exact r.nameable
    · intro hshort
      exact ⟨⟨n, hshort⟩, Log.Note.record?_eq_some_iff.mpr rfl, rfl⟩
  · obtain ⟨files, heq⟩ := received_eq ready level ((logFile? file).map Path.text) records
    rw [heq]
  · obtain ⟨before, hbefore⟩ := hthere p hp
    rw [← ofText_of_mem hp] at hbefore ⊢
    rw [hp]
    exact ⟨before, hbefore, read_received level hbefore records⟩
  · refine read_received_of_ne level (fun path hpath => ?_) records
    obtain ⟨p, hp, rfl⟩ := Option.map_eq_some_iff.mp hpath
    rw [ofText_of_mem hp]
    exact hq p hp
  · rw [hlistens.publish_eq, hjournal]

def setups : List (Log.Level × Option String) :=
  [(.debug, some "a.log"), (.warning, none), (.debug, some "a.log"), (.info, some "logs/b.log")]

theorem setUpAll_setups : ∃ ready, Shell.setUpAll {} setups = (ready, [none, none, none, none]) ∧
    ready.files.place? (logPath "a.log") = some ["a.log"] ∧
    ready.files.place? (logPath "logs/b.log") = some ["logs", "b.log"] := by
  refine ⟨_, Prod.ext rfl ?_, ?_, ?_⟩
  all_goals decide +kernel

theorem last_of_setups_counts :
    let fetched : Log.Record := .mk ⟨.debug, .machine, "step", 1, "Fetched"⟩
    let interrupted : Log.Record := .mk ⟨.warning, .commandLine, "cmd_run", 2, "Interrupted"⟩
    let unnamed : Log.Note := ⟨(Text.unwritable : Int), .program, "main", 3, "Unnamed"⟩
    ∃ ready done before, Shell.setUpAll {} setups = (ready, [none, none, none, none]) ∧
      ready.logAll [fetched.toNote, unnamed, interrupted.toNote] =
        (done, [none, some .unreported, none]) ∧
      done.reported = ready.reported ++ #[interrupted] ∧
      ready.files.read (logPath "logs/b.log") = .ok before ∧
      done.files.read (logPath "logs/b.log") = .ok (before ++ Text.utf8Encode (String.join
        [fetched.line ready.logTime, interrupted.line ready.logTime])) ∧
      ∀ bytes, done.files.read (logPath "a.log") = .ok bytes ↔
        ready.files.read (logPath "a.log") = .ok bytes := by
  intro fetched interrupted unnamed
  obtain ⟨ready, hready, hfirst, hlast⟩ := setUpAll_setups
  obtain ⟨-, -, hstopped, hreported, hfile, hothers, -⟩ := only_last_setup_counts hready (by simp)
    (by decide) (show setups.getLast? = some (.info, some "logs/b.log") from rfl)
    [fetched.toNote, unnamed, interrupted.toNote]
  have hlong : ¬Text.IsWritable unnamed.level := Text.not_isWritable_unwritable
  have hrecords : [fetched.toNote, unnamed, interrupted.toNote].filterMap Log.Note.record? =
      [fetched, interrupted] := by
    rw [List.filterMap_cons_some (Log.Note.record?_eq_some_iff.mpr rfl),
      List.filterMap_cons_none (Log.Note.record?_eq_none_iff.mpr hlong),
      List.filterMap_cons_some (Log.Note.record?_eq_some_iff.mpr rfl)]
    rfl
  rw [hrecords] at hreported hfile
  obtain ⟨before, hbefore, hafter⟩ := hfile (logPath "logs/b.log") rfl
  refine ⟨ready, _, before, hready, Prod.ext rfl ?_, hreported, hbefore, hafter,
    hothers _ fun p hp => ?_⟩
  · have hpasses : Log.Level.debug ≤ unnamed.level :=
      Int.ofNat_le.mpr (Nat.le_of_lt (Text.lt_unwritable (by decide)))
    rw [hstopped]
    simp [logFile?, hpasses, hlong, fetched.nameable, interrupted.nameable]
  obtain rfl : logPath "logs/b.log" = p := Option.some.inj hp
  rw [hfirst, hlast]
  decide

end Setup

end Cli.Shell

end WordMachine
