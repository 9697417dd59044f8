import Mathlib.Data.List.Forall2
import WordMachine.Memory.Image
import WordMachine.Proofs.Operands

/-!
Runs of consecutive cells. A snapshot copies one, and an image packed from words writes one.
-/
namespace WordMachine

namespace Memory

variable {m : Memory} {a : Int} {n : Nat}

/-- The numbers in so many cells from an address on. -/
def cellRun (m : Memory) (a : Int) (n : Nat) : List Int :=
  (List.range n).map fun k : Nat => m.cell (a + k)

@[simp] theorem length_cellRun : (m.cellRun a n).length = n := by
  simp [cellRun]

theorem getElem_cellRun {k : Nat} (h : k < (m.cellRun a n).length) :
    (m.cellRun a n)[k] = m.cell (a + k) := by
  simp [cellRun]

theorem isWord_of_mem_cellRun {w : Int} (h : w ∈ m.cellRun a n) : IsWord w := by
  obtain ⟨k, -, rfl⟩ := List.mem_map.mp h
  exact m.isWord_cell _

theorem cellRun_add (m : Memory) (a : Int) (n k : Nat) :
    m.cellRun a (n + k) = m.cellRun a n ++ m.cellRun (a + n) k := by
  simp only [cellRun, List.range_add, List.map_append, List.map_map, Function.comp_def,
    Int.natCast_add, Int.add_assoc]

theorem cell_of_nat {k : Nat} (hk : k < 32768) : m.cell k = (m.cells[k].toNat : Int) := by
  have ha : IsAddress k := ⟨by omega, by omega⟩
  rw [cell, dif_pos ha]
  rfl

theorem map_window {i : Nat} (h : i + n ≤ 32768) :
    (m.window i (i + n)).map (fun w => (w.toNat : Int)) = m.cellRun i n := by
  apply List.ext_getElem
  · simp [window]
    omega
  · intro k hk hk'
    rw [length_cellRun] at hk'
    have hcell : m.cell (i + k) = (m.cells[i + k].toNat : Int) := cell_of_nat (by omega)
    rw [getElem_cellRun, hcell]
    simp [window]

theorem snapshot_eq (ha : 0 ≤ a) (hn : 0 < n) (hend : a + n ≤ 32768) :
    m.snapshot a (a + n - 1) = .ok (m.cellRun a n) := by
  obtain ⟨i, rfl⟩ := Int.eq_ofNat_of_zero_le ha
  have hfirst : checkAddress i = .ok ⟨i, by omega⟩ := checkAddress_ok_iff.mpr rfl
  obtain ⟨j, hj⟩ := Machine.checkAddress_eq (x := i + n - 1) (by omega) (by omega)
  have hlast : (i : Int) + n - 1 = j.val := checkAddress_ok_iff.mp hj
  have hend' : j.val + 1 = i + n := by omega
  rw [snapshot, hfirst, hj]
  dsimp only [bind, Except.bind, pure, Except.pure]
  rw [hend', map_window (by omega)]

end Memory

section Images

theorem checkWord_ok_iff {v : Int} {w : Word} : checkWord v = .ok w ↔ v = w.toNat := by
  unfold checkWord
  constructor
  · intro h
    split at h
    next u hu =>
      cases h
      exact (toNat_of_word? hu).symm
    next => contradiction
  · rintro rfl
    have hw := w.toNat_lt
    have hword : word? w.toNat = some w := by
      unfold word?
      rw [if_pos ⟨by omega, by omega⟩, Int.toNat_natCast, UInt16.ofNat_toNat]
    rw [hword]

theorem packImage_words (us : List Word) :
    packImage (us.map fun w => (w.toNat : Int)) = .ok (us.flatMap Word.bytes) := by
  have hcheck : (us.map fun w => (w.toNat : Int)).mapM checkWord = .ok us := by
    induction us with
    | nil => rfl
    | cons w us ih =>
      rw [List.map_cons, List.mapM_cons, ih, checkWord_ok_iff.mpr rfl]
      rfl
  rw [packImage, hcheck]
  rfl

theorem exists_words {ws : List Int} (h : ∀ v ∈ ws, IsWord v) :
    ∃ us : List Word, us.map (fun w => (w.toNat : Int)) = ws := by
  induction ws with
  | nil => exact ⟨[], rfl⟩
  | cons v ws ih =>
    obtain ⟨us, hus⟩ := ih fun x hx => h x (List.mem_cons_of_mem _ hx)
    have hv := h v List.mem_cons_self
    refine ⟨UInt16.ofNat v.toNat :: us, ?_⟩
    have hlt : v.toNat < 65536 := by omega
    rw [List.map_cons, hus, UInt16.toNat_ofNat_of_lt' hlt, Int.toNat_of_nonneg hv.1]

theorem length_bytes (us : List Word) : (us.flatMap Word.bytes).length = 2 * us.length := by
  induction us with
  | nil => rfl
  | cons w us ih =>
    rw [List.flatMap_cons, List.length_append, ih, List.length_cons]
    simp only [Word.bytes, List.length_cons, List.length_nil]
    omega

namespace Memory

theorem getElem_overwrite (cells : Vector Word 32768) (i : Nat) (us : List Word) {k : Nat}
    (hk : k < 32768) : (overwrite cells i (us.flatMap Word.bytes))[k] =
      if i ≤ k then us[k - i]?.getD cells[k] else cells[k] := by
  induction us generalizing cells i with
  | nil => simp [overwrite]
  | cons w us ih =>
    rw [List.flatMap_cons, Word.bytes, List.cons_append, List.cons_append, List.nil_append,
      overwrite, Word.ofBytes_bytes, ih, Vector.getElem_setIfInBounds hk]
    obtain hlt | rfl | hgt := Nat.lt_trichotomy k i
    · rw [if_neg (by omega), if_neg (by omega), if_neg (by omega)]
    · rw [if_neg (by omega), if_pos rfl, if_pos (Nat.le_refl k), Nat.sub_self,
        List.getElem?_cons_zero, Option.getD_some]
    · have hsub : k - i = k - (i + 1) + 1 := by omega
      rw [if_pos (show i + 1 ≤ k by omega), if_neg (show i ≠ k by omega),
        if_pos (show i ≤ k by omega), hsub, List.getElem?_cons_succ]

theorem cellRun_overwrite (cells : Vector Word 32768) (i : Nat) (us : List Word)
    (h : i + us.length ≤ 32768) :
    cellRun ⟨overwrite cells i (us.flatMap Word.bytes)⟩ i us.length =
      us.map fun w => (w.toNat : Int) := by
  apply List.ext_getElem
  · simp
  · intro k hk hk'
    rw [length_cellRun] at hk
    have hcell := cell_of_nat (m := ⟨overwrite cells i (us.flatMap Word.bytes)⟩) (k := i + k)
      (by omega)
    rw [getElem_cellRun, ← Int.natCast_add, hcell, getElem_overwrite]
    simp [hk]

theorem ofImage_bytes {us : List Word} (h : us.length ≤ 32768) :
    ofImage (us.flatMap Word.bytes) = .ok ⟨overwrite empty.cells 0 (us.flatMap Word.bytes)⟩ := by
  have hbase : checkAddress 0 = .ok 0 := checkAddress_ok_iff.mpr rfl
  have hfits : ¬2 * (0 : Address).val + (us.flatMap Word.bytes).length > 65536 := by
    rw [length_bytes, Fin.val_zero]
    omega
  rw [ofImage, load, hbase]
  dsimp only [bind, Except.bind]
  rw [if_neg hfits]
  rfl

theorem packed_loaded {ws : List Int} (hword : ∀ v ∈ ws, IsWord v) (hlen : ws.length ≤ 32768) :
    ∃ image m, packImage ws = .ok image ∧ ofImage image = .ok m ∧ m.cellRun 0 ws.length = ws := by
  obtain ⟨us, rfl⟩ := exists_words hword
  rw [List.length_map] at hlen ⊢
  have hrun := cellRun_overwrite empty.cells 0 us (by omega)
  exact ⟨_, _, packImage_words us, ofImage_bytes hlen, hrun⟩

end Memory

end Images

end WordMachine
