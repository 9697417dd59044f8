import Mathlib.Data.List.Chain
import WordMachine.Proofs.ListingWalk

/-!
A listing is a partition of memory. Its lines lie side by side from the first address on, the last
of them is the only one that may reach past the last address asked for, and none reaches past the
end of memory. A listing that is to go on behind the end of memory fails there.
-/
namespace WordMachine.Listing

variable {m : Memory} {a b start last : Int} {lines : List Line}

def Line.behind (line : Line) : Int := line.address + line.item.length

theorem Item.length_le (item : Item) : item.length ≤ 4 := by
  cases item with
  | instruction i =>
    have := i.opcode.arity_le
    rw [Instruction.length_item, Instruction.size, Opcode.size]
    omega
  | data word => simp [Item.length, Item.words]

namespace Walk

theorem address_head (h : Walk m a lines b) {line : Line} (hline : line ∈ lines.head?) :
    line.address = a := by
  cases h with
  | nil => contradiction
  | cons =>
    cases hline
    rfl

theorem isChain (h : Walk m a lines b) :
    lines.IsChain fun line next => next.address = line.behind := by
  induction h with
  | nil => exact .nil
  | cons _ _ hwalk ih => exact ih.cons fun next hnext => hwalk.address_head hnext

theorem exists_next (h : Walk m a lines b) {line : Line} (hline : line ∈ lines.dropLast) :
    ∃ next ∈ lines, next.address = line.behind := by
  induction h with
  | nil => contradiction
  | @cons a b item lines _ _ hwalk ih =>
    cases lines with
    | nil => contradiction
    | cons next rest =>
      rw [List.dropLast_cons_cons] at hline
      rcases List.mem_cons.mp hline with rfl | hline
      · exact ⟨next, by simp, hwalk.address_head rfl⟩
      · obtain ⟨next', hnext, haddress⟩ := ih hline
        exact ⟨next', List.mem_cons_of_mem _ hnext, haddress⟩

end Walk

theorem address_le_of_mem {line : Line} (h : line ∈ (disassemble m a last).1) :
    line.address ≤ last := by
  fun_induction disassemble m a last with
  | case1 | case2 => contradiction
  | case3 a hle item hitem rest failure heq ih =>
    rw [heq] at ih
    rcases List.mem_cons.mp h with rfl | h
    · exact Int.not_lt.mp hle
    · exact ih h

/-- The lines cover the cells from one address up to the end of the instruction at another, each
cell once. -/
structure Partition (m : Memory) (start last : Int) (lines : List Line) : Prop where
  first : lines.head?.map (·.address) = some start
  adjacent : lines.IsChain fun line next => next.address = line.behind
  lengths : ∀ line ∈ lines, 1 ≤ line.item.length ∧ line.item.length ≤ 4
  stands : ∀ line ∈ lines, itemAt m line.address = .ok line.item
  before : ∀ line ∈ lines.dropLast, line.behind ≤ last
  final : ∃ line, lines.getLast? = some line ∧ line.address ≤ last ∧ last < line.behind ∧
    line.behind ≤ 32768 ∧ m.snapshot start (line.behind - 1) = .ok (lines.flatMap (·.item.words))

theorem Partition.ne_nil (h : Partition m start last lines) : lines ≠ [] := by
  rintro rfl
  obtain ⟨line, hline, -⟩ := h.final
  cases hline

theorem disassemble_partition (m : Memory) (h0 : 0 ≤ start) (hle : start ≤ last)
    (hlast : last ≤ 32767) :
    ∃ lines, disassemble m start last = (lines, none) ∧ Partition m start last lines := by
  obtain ⟨lines, b, hlisting, hwalk, hb⟩ := disassemble_walk (m := m) h0 hlast
  have hle_last {line : Line} (hline : line ∈ lines) : line.address ≤ last := by
    apply address_le_of_mem (m := m) (a := start)
    rwa [hlisting]
  have hne : lines ≠ [] := by
    rintro rfl
    cases hwalk
    omega
  obtain ⟨final, hfinal, hend⟩ := hwalk.exists_last hne
  obtain ⟨n, hn, hwords⟩ := hwalk.words_eq
  have hinside := hwalk.end_le (by omega)
  refine ⟨lines, hlisting, ?_, hwalk.isChain, fun line _ => ?_, fun line hline => ?_,
    fun line hline => ?_, final, hfinal, ?_, ?_⟩
  · rw [List.head?_eq_some_head hne, Option.map_some,
      hwalk.address_head (List.head_mem_head? hne)]
  · exact ⟨line.item.length_pos, line.item.length_le⟩
  · exact (hwalk.address_of_mem hline).2
  · obtain ⟨next, hnext, haddress⟩ := hwalk.exists_next hline
    exact haddress ▸ hle_last hnext
  · exact hle_last (List.mem_of_getLast? hfinal)
  · have hbehind : final.behind = b := hend.symm
    rw [hbehind, hwords, hn]
    exact ⟨by omega, by omega, Memory.snapshot_eq h0 (by omega) (by omega)⟩

theorem itemAt_outside (h : ¬IsAddress a) : itemAt m a = .error (.noSuchCell a) := by
  rw [itemAt, m.read_outside h]
  rfl

theorem disassemble_outside (h : ¬IsAddress a) (hle : a ≤ last) :
    disassemble m a last = ([], some (.noSuchCell a)) := by
  rw [disassemble, if_neg (by omega), itemAt_outside h]

theorem disassemble_past_end (h0 : 0 ≤ a) (ha : a ≤ 32768) (hlast : 32767 < last) :
    disassemble m a last = ((disassemble m a 32767).1, some (.noSuchCell 32768)) := by
  fun_induction disassemble m a 32767 with
  | case1 a hend =>
    obtain rfl : a = 32768 := by omega
    exact disassemble_outside (by omega) (by omega)
  | case2 a hle c hc =>
    obtain ⟨item, hitem, -⟩ := Instruction.stands_at (m := m) (a := a) ⟨h0, by omega⟩
    rw [hc] at hitem
    contradiction
  | case3 a hle item hitem rest failure heq ih =>
    have hend := (words_of_itemAt (m := m) ⟨h0, by omega⟩ hitem).2
    have hrest := ih (by omega) hend
    rw [heq] at hrest
    rw [disassemble_of_le (by omega) hitem, hrest]

/-- A listing fails only behind the end of memory or where it begins. -/
theorem failure_of_disassemble {c : Cause} (h : (disassemble m a last).2 = some c) :
    c = .noSuchCell 32768 ∨ c = .noSuchCell a := by
  by_cases hlt : last < a
  · rw [disassemble_of_lt hlt] at h
    cases h
  by_cases ha : IsAddress a
  · by_cases hle : last ≤ 32767
    · obtain ⟨lines, hlisting, -⟩ := disassemble_partition m ha.1 (Int.not_lt.mp hlt) hle
      rw [hlisting] at h
      cases h
    · rw [disassemble_past_end ha.1 (by omega) (Int.not_le.mp hle)] at h
      exact .inl (Option.some.inj h).symm
  · rw [disassemble_outside ha (Int.not_lt.mp hlt)] at h
    exact .inr (Option.some.inj h).symm

theorem isReportable_noSuchCell : (Cause.noSuchCell a).IsReportable ↔ Text.IsWritable a := by
  simp [Cause.IsReportable, Cause.shown]

theorem report_noSuchCell (h : Text.IsWritable a) :
    (Cause.noSuchCell a).report? = some (Objection.noCell a) :=
  Cause.report?_eq_some_iff.mpr ⟨isReportable_noSuchCell.mpr h, rfl⟩

/-- What a listing gives: within memory a partition and no failure, behind the end of memory the
lines up to it and a failure there, between addresses in the wrong order nothing, and from an
address that does not exist nothing but a failure, which is reported if the address can be
written. -/
theorem listing_partitions (m : Memory) (start last : Int) :
    (0 ≤ start → start ≤ last → last ≤ 32767 →
      ∃ lines, disassemble m start last = (lines, none) ∧ Partition m start last lines) ∧
    (IsAddress start → 32767 < last → ∃ c f,
      disassemble m start last = ((disassemble m start 32767).1, some c) ∧ c.report? = some f ∧
        f.kind = .outOfRangeAddress ∧ f.operand = some 32768) ∧
    (last < start → disassemble m start last = ([], none)) ∧
    (¬IsAddress start → start ≤ last → Text.IsWritable start → ∃ c f,
      disassemble m start last = ([], some c) ∧ c.report? = some f ∧
        f.kind = .outOfRangeAddress ∧ f.operand = some start) := by
  refine ⟨fun h0 hle hlast => disassemble_partition m h0 hle hlast, fun hstart hlast => ?_,
    disassemble_of_lt, fun hstart hle hwritable => ?_⟩
  · have hwritable : Text.IsWritable 32768 := Text.isWritable_of_natAbs_lt (by decide)
    exact ⟨_, _, disassemble_past_end hstart.1 (by omega) hlast, report_noSuchCell hwritable,
      rfl, rfl⟩
  · exact ⟨_, _, disassemble_outside hstart hle, report_noSuchCell hwritable, rfl, rfl⟩

def straddling : Memory := (Memory.empty.setCell 4 9).setCell 32766 9

theorem straddling_partitions :
    (∃ lines, disassemble straddling 3 5 = (lines, none) ∧ Partition straddling 3 5 lines) ∧
    (∃ c f, disassemble straddling 32766 40000 = ((disassemble straddling 32766 32767).1, some c) ∧
      c.report? = some f ∧ f.kind = .outOfRangeAddress ∧ f.operand = some 32768) ∧
    disassemble straddling 5 3 = ([], none) ∧
    ∃ c f, disassemble straddling (-1) 5 = ([], some c) ∧ c.report? = some f ∧
      f.kind = .outOfRangeAddress ∧ f.operand = some (-1) := by
  obtain ⟨hwithin, -, -, -⟩ := listing_partitions straddling 3 5
  obtain ⟨-, hpastEnd, -, -⟩ := listing_partitions straddling 32766 40000
  obtain ⟨-, -, hreversed, -⟩ := listing_partitions straddling 5 3
  obtain ⟨-, -, -, houtside⟩ := listing_partitions straddling (-1) 5
  have hwritable : Text.IsWritable (-1) := Text.isWritable_of_natAbs_lt (by decide)
  exact ⟨hwithin (by decide) (by decide) (by decide), hpastEnd (by decide) (by decide),
    hreversed (by decide), houtside (by decide) (by decide) hwritable⟩

/-- An address that is too long to be written. -/
def unwritableAddress : Int := Text.unwritable

theorem unwritable_start_unreported :
    ¬IsAddress unwritableAddress ∧
      ∃ c, disassemble .empty unwritableAddress unwritableAddress = ([], some c) ∧
        c.report? = none := by
  have hlong : ¬Text.IsWritable unwritableAddress := by
    rw [Text.IsWritable, unwritableAddress, Int.natAbs_natCast]
    exact Nat.lt_irrefl _
  have houtside : ¬IsAddress unwritableAddress := fun h =>
    hlong (Text.isWritable_of_natAbs_lt (by omega))
  refine ⟨houtside, _, disassemble_outside houtside (Int.le_refl _), ?_⟩
  rw [Cause.report?, if_neg]
  exact fun h => hlong (h _ (by simp [Cause.shown]))

end WordMachine.Listing
