import Mathlib.Algebra.GroupWithZero.Nat
import WordMachine.Proofs.AssemblySource
import WordMachine.Proofs.ListingWalk

/-!
Listing an assembled program. A source that is accepted gives the words of one instruction for each
statement that is not blank. Packed into an image and loaded, these words are listed as the same
instructions again, one behind the other.
-/
namespace WordMachine.Listing

variable {source : List Char} {ws : List Int}

theorem layOut_eq_mapIdx (a : Int) (is : List Instruction) : layOut a is =
    is.mapIdx fun k i => ⟨a + ((is.take k).map Instruction.size).sum, .instruction i⟩ := by
  induction is generalizing a with
  | nil => rfl
  | cons i is ih =>
    rw [layOut, ih, List.mapIdx_cons]
    congr 1
    · simp
    · congr 1
      funext k j
      rw [List.take_succ_cons, List.map_cons, List.sum_cons, Int.natCast_add, Int.add_assoc]

/-- What an accepted source says is what is listed once it is loaded: an instruction for each
statement that is not blank, in order, at the address where those before it end. -/
theorem assembly_listed (h : assemble source = .ok ws) (hword : ∀ w ∈ ws, IsWord w)
    (hfirst : 1 ≤ ws.length) (hlast : ws.length ≤ 32768) :
    ∃ image m is, packImage ws = .ok image ∧ Memory.ofImage image = .ok m ∧
      ((statements source).filter fun statement => Text.words statement ≠ []).Forall₂ Says is ∧
      disassemble m 0 (ws.length - 1) =
        (is.mapIdx fun k i => ⟨((is.take k).map Instruction.size).sum, .instruction i⟩, none) := by
  obtain ⟨blocks, hblocks, rfl⟩ := assemble_ok_iff.mp h
  obtain ⟨is, hsays, hwords⟩ := exists_instructions hblocks
  obtain ⟨image, m, hpack, hload, hrun⟩ := Memory.packed_loaded hword hlast
  have hlisting := disassemble_layOut is (Int.le_refl 0) (hrun.trans hwords.symm) (by omega)
  refine ⟨image, m, is, hpack, hload, hsays, ?_⟩
  rw [← Int.zero_add (blocks.flatten.length : Int), hlisting, layOut_eq_mapIdx]
  simp only [Int.zero_add]

def summing : List Char := "ADD r0 4 4;; Out R0\nhalt".toList

theorem summing_listed :
    (assemble summing = .ok [9, 32768, 4, 4, 19, 32768, 0] ∧
      (∀ w ∈ ([9, 32768, 4, 4, 19, 32768, 0] : List Int), IsWord w) ∧ 1 ≤ 7 ∧ 7 ≤ 32768) ∧
    ∃ image m is, packImage [9, 32768, 4, 4, 19, 32768, 0] = .ok image ∧
      Memory.ofImage image = .ok m ∧
      ["ADD r0 4 4".toList, " Out R0".toList, "halt".toList].Forall₂ Says is ∧
      disassemble m 0 6 =
        (is.mapIdx fun k i => ⟨((is.take k).map Instruction.size).sum, .instruction i⟩, none) := by
  have haccepted : assemble summing = .ok [9, 32768, 4, 4, 19, 32768, 0] := by decide +kernel
  have hword : ∀ w ∈ ([9, 32768, 4, 4, 19, 32768, 0] : List Int), IsWord w := by decide
  have hstatements : ((statements summing).filter fun statement => Text.words statement ≠ []) =
      ["ADD r0 4 4".toList, " Out R0".toList, "halt".toList] := by decide +kernel
  have hlisted := assembly_listed haccepted hword (by decide) (by decide)
  rw [hstatements] at hlisted
  exact ⟨⟨haccepted, hword, by decide, by decide⟩, hlisted⟩

end WordMachine.Listing
