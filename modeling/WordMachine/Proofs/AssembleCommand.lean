import WordMachine.Proofs.CommandLine
import WordMachine.Proofs.Invocation
import WordMachine.Proofs.PackedImage
import WordMachine.Proofs.ShellFiles

/-!
Making an image from a listing is all or nothing. Either the image is written and nothing is
reported, or one error is reported and no file has been touched.
-/
namespace WordMachine

def littleEndian (v : Int) : List UInt8 :=
  [UInt8.ofNat (v.toNat % 256), UInt8.ofNat (v.toNat / 256)]

theorem Word.bytes_eq (w : Word) : w.bytes = littleEndian w.toNat := by
  rw [bytes, littleEndian, toUInt8_eq, high_eq, Int.toNat_natCast]

theorem packImage_of_words {ws : List Int} (h : ∀ v ∈ ws, IsWord v) :
    packImage ws = .ok (ws.flatMap littleEndian) := by
  obtain ⟨us, rfl⟩ := exists_words h
  rw [packImage_words, List.flatMap_map]
  exact congrArg (fun pack => Except.ok (us.flatMap pack)) (funext Word.bytes_eq)

namespace Cli

open Shell Listing

variable {sh : Shell} {input output : String} {source : List Char} {ws : List Int}

theorem asm_of_words (hlog : sh.LogsToError) (hread : sh.readText input = .ok source)
    (hws : assemble source = .ok ws) (hwords : ∀ v ∈ ws, IsWord v)
    (hwritable : sh.files.Writable (.ofText output)) :
    ∃ done, asm sh { input, output := some output } = (done, .status 0) ∧
      sh.files.write (.ofText output) (ws.flatMap littleEndian) = .ok done.files ∧
      done.alarms = sh.alarms := by
  obtain ⟨files, hfiles⟩ : ∃ files, sh.files.write (.ofText output) (ws.flatMap littleEndian) =
      .ok files := FileTree.exists_update_iff.mpr hwritable
  unfold asm
  simp only [hread, hws, packImage_of_words hwords, hfiles]
  have hlog' : LogsToError { sh with files } := hlog
  exact ⟨_, rfl, by rw [hlog'.files_note], alarms_note_of_lt _ Log.Level.info_lt_error⟩

theorem asm_refused (hlog : sh.LogsToError) (hread : sh.readText input = .ok source)
    (hrefused : ∀ ws, assemble source = .ok ws → ∃ v ∈ ws, ¬IsWord v) :
    ∃ done ending, asm sh { input, output := some output } = (done, ending) ∧
      done.files = sh.files ∧
      ((∀ ws, assemble source = .ok ws → ∀ v ∈ ws, Text.IsWritable v) → ending = .status 1 ∧
        ∃ r, r.level = Log.Level.error ∧ done.alarms = sh.alarms ++ [r]) := by
  have hfail (activity : String) (lineNumber : Nat) (message : String) :
      (sh.fail activity lineNumber message).1.files = sh.files ∧ ∃ r, r.level = Log.Level.error ∧
        (sh.fail activity lineNumber message).1.alarms = sh.alarms ++ [r] :=
    ⟨hlog.files_note _, _, rfl, alarms_note_error hlog.hearsErrors rfl⟩
  unfold asm
  simp only [hread]
  cases hws : assemble source with
  | error e =>
    obtain ⟨hfiles, halarms⟩ := hfail "cmd_asm" 155 e.message
    exact ⟨_, _, rfl, hfiles, fun _ => ⟨rfl, halarms⟩⟩
  | ok ws =>
    obtain ⟨v, hv, hwide⟩ := hrefused ws hws
    cases hfirst : firstWide? ws with
    | none => exact absurd (firstWide?_eq_none_iff.mp hfirst v hv) hwide
    | some first =>
      simp only [packImage_of_wide hfirst]
      by_cases hreportable : (Cause.tooWide first).IsReportable
      · obtain ⟨hfiles, halarms⟩ := hfail "main" 187 (Cause.tooWide first).fault.text
        rw [failWith_of_reportable sh hreportable]
        exact ⟨_, _, rfl, hfiles, fun _ => ⟨rfl, halarms⟩⟩
      · rw [failWith_of_not_reportable sh hreportable]
        refine ⟨_, _, rfl, rfl, fun hall => absurd ?_ hreportable⟩
        have hfirst' := hall ws rfl first (List.mem_of_find?_eq_some hfirst)
        simpa [Cause.IsReportable, Cause.shown] using hfirst'

def listings : Shell where
  files := { entries :=
    [(["good.lst"], .file (Text.utf8Encode "halt\r\n")),
      (["wide.lst"], .file (Text.utf8Encode "push -1")), (["p.bin"], .file [7])] }

end Cli

end WordMachine
