import WordMachine.Proofs.CellRuns
import WordMachine.Proofs.History

/-!
The bytes of memory, two for each cell with the low one first. Writing a cell replaces its two, and
loading an image replaces as many as it has by its own.
-/
namespace WordMachine

theorem Word.toNat_and_high (w : Word) : w.toNat &&& 65280 = 256 * (w.toNat / 256) := by
  apply Nat.eq_of_testBit_eq
  intro i
  change _ = Nat.testBit (2 ^ 8 * (w.toNat / 2 ^ 8)) i
  rw [Nat.testBit_and, Nat.testBit_two_pow_mul, Nat.testBit_div_two_pow]
  by_cases hi : i < 16
  · have hmask : ∀ i < 16, Nat.testBit 65280 i = decide (8 ≤ i) := by decide
    rw [hmask i hi]
    by_cases hlow : 8 ≤ i
    · simp [hlow]
    · simp [hlow]
  · have hlt : w.toNat < 2 ^ i :=
      Nat.lt_of_lt_of_le w.toNat_lt (Nat.pow_le_pow_right (by decide) (Nat.le_of_not_lt hi))
    have hnone := Nat.testBit_lt_two_pow hlt
    have hsum : i - 8 + 8 = i := by omega
    simp [hnone, hsum]

theorem Word.toNat_high (w : Word) : (w >>> 8).toUInt8.toNat = w.toNat / 256 := by
  have hw := w.toNat_lt
  simp [Nat.shiftRight_eq_div_pow]
  omega

theorem Word.toUInt8_eq (w : Word) : w.toUInt8 = .ofNat (w.toNat % 256) := by
  apply UInt8.toNat_inj.mp
  simp

theorem Word.high_eq (w : Word) : (w >>> 8).toUInt8 = .ofNat (w.toNat / 256) := by
  have hw : w.toNat < 65536 := w.toNat_lt
  have hbyte : w.toNat / 256 < UInt8.size := by
    change w.toNat / 256 < 256
    omega
  apply UInt8.toNat_inj.mp
  rw [toNat_high, UInt8.toNat_ofNat_of_lt' hbyte]

theorem Word.withLow_eq (w : Word) (low : UInt8) :
    w.withLow low = .ofBytes low (w >>> 8).toUInt8 := by
  apply UInt16.toNat_inj.mp
  have hlow := low.toNat_lt
  rw [toNat_ofBytes, withLow, UInt16.toNat_or, UInt16.toNat_and, UInt8.toNat_toUInt16, toNat_high]
  change w.toNat &&& 65280 ||| low.toNat = _
  rw [toNat_and_high, ← Nat.two_pow_add_eq_or_of_lt (i := 8) hlow]

theorem Word.toUInt8_ofBytes (low high : UInt8) : (Word.ofBytes low high).toUInt8 = low := by
  apply UInt8.toNat_inj.mp
  have hlow := low.toNat_lt
  rw [UInt16.toNat_toUInt8, toNat_ofBytes]
  omega

theorem Word.high_ofBytes (low high : UInt8) : (Word.ofBytes low high >>> 8).toUInt8 = high := by
  apply UInt8.toNat_inj.mp
  have hlow := low.toNat_lt
  rw [toNat_high, toNat_ofBytes]
  omega

/-- A word with the bytes of an image from an index on, as far as there are any. -/
def Word.spliced (w : Word) (image : List UInt8) (n : Nat) : Word :=
  .ofBytes (image[n]?.getD w.toUInt8) (image[n + 1]?.getD (w >>> 8).toUInt8)

theorem Word.spliced_of_le (w : Word) {image : List UInt8} {n : Nat} (h : image.length ≤ n) :
    w.spliced image n = w := by
  rw [spliced, List.getElem?_eq_none h, List.getElem?_eq_none (by omega)]
  exact w.ofBytes_bytes

namespace Memory

variable {m n : Memory} {a : Int} {image : List UInt8}

theorem getElem_loaded (cells : Vector Word 32768) (i : Nat) (image : List UInt8) {k : Nat}
    (hk : k < 32768) : (overwrite cells i image)[k] =
      if i ≤ k then cells[k].spliced image (2 * (k - i)) else cells[k] := by
  fun_induction overwrite cells i image with
  | case1 cells i low high rest ih =>
    rw [ih, Vector.getElem_setIfInBounds hk]
    obtain hlt | rfl | hgt := Nat.lt_trichotomy k i
    · rw [if_neg (by omega), if_neg (by omega), if_neg (by omega)]
    · rw [if_neg (by omega), if_pos rfl, if_pos (Nat.le_refl k), Nat.sub_self]
      rfl
    · have hsub : 2 * (k - i) = 2 * (k - (i + 1)) + 2 := by omega
      rw [if_pos (show i + 1 ≤ k by omega), if_neg (show i ≠ k by omega),
        if_pos (show i ≤ k by omega), hsub]
      rfl
  | case2 cells i low =>
    rw [Vector.getElem_setIfInBounds hk]
    obtain hlt | rfl | hgt := Nat.lt_trichotomy k i
    · rw [if_neg (by omega), if_neg (by omega)]
    · rw [if_pos rfl, if_pos (Nat.le_refl k), Nat.sub_self, Word.withLow_eq]
      simp [Word.spliced, Vector.getD, hk]
    · rw [if_neg (by omega), if_pos (by omega), Word.spliced_of_le]
      simp
      omega
  | case3 cells i =>
    rw [Word.spliced_of_le _ (Nat.zero_le _), ite_self]

theorem load_of_inside (m : Memory) (image : List UInt8) (h : IsAddress a) :
    m.load image a =
      if 2 * a + image.length ≤ 65536 then .ok ⟨overwrite m.cells a.toNat image⟩
      else .error (.imageTooLong image.length a) := by
  have hval : (addressOf a h).val = a.toNat := rfl
  unfold load
  rw [checkAddress_of_inside h]
  dsimp only [bind, Except.bind]
  rw [hval]
  by_cases hfits : 2 * a + image.length ≤ 65536
  · rw [if_neg (by omega), if_pos hfits]
    rfl
  · rw [if_pos (by omega), if_neg hfits]
    rfl

theorem eq_of_load {m n : Memory} {image : List UInt8} {base : Int}
    (h : m.load image base = .ok n) :
    IsAddress base ∧ 2 * base + image.length ≤ 65536 ∧
      n = ⟨overwrite m.cells base.toNat image⟩ := by
  by_cases hbase : IsAddress base
  · rw [load_of_inside m image hbase] at h
    split at h
    next hfits =>
      cases h
      exact ⟨hbase, hfits, rfl⟩
    next => cases h
  · rw [load, checkAddress_of_outside hbase] at h
    cases h

/-- Each pair of bytes makes the word of a cell, the low byte first. -/
theorem read_of_load (h : m.load image a = .ok n) {k : Nat} {low high : UInt8}
    (hlow : image[2 * k]? = some low) (hhigh : image[2 * k + 1]? = some high) :
    n.read (a + k) = .ok (low.toNat + 256 * high.toNat) := by
  obtain ⟨hbase, hfits, rfl⟩ := eq_of_load h
  obtain ⟨b, rfl⟩ := Int.eq_ofNat_of_zero_le hbase.1
  have hk : 2 * k + 1 < image.length := (List.getElem?_eq_some_iff.mp hhigh).1
  have hinside : b + k < 32768 := by omega
  have hoffset : b + k - b = k := by omega
  have haddress : IsAddress ((b : Int) + k) := by omega
  have hcell : cell ⟨overwrite m.cells (b : Int).toNat image⟩ (b + k) = _ :=
    cell_of_nat (k := b + k) hinside
  rw [read_cell _ haddress, hcell, Int.toNat_natCast, getElem_loaded _ _ _ hinside,
    if_pos (by omega), hoffset, Word.spliced, Word.toNat_ofBytes, hlow, hhigh, Option.getD_some,
    Option.getD_some, Int.natCast_add, Int.natCast_mul, Int.add_comm]
  rfl

theorem eq_of_write {v : Int} (h : m.write a v = .ok n) :
    ∃ ha : IsAddress a, IsWord v ∧ n = m.set (addressOf a ha) (.ofNat v.toNat) := by
  by_cases ha : IsAddress a
  · rw [write, checkAddress_of_inside ha] at h
    by_cases hv : IsWord v
    · rw [checkWord_of_isWord hv] at h
      cases h
      exact ⟨ha, hv, rfl⟩
    · rw [checkWord_of_not_isWord hv] at h
      cases h
  · rw [write, checkAddress_of_outside ha] at h
    cases h

theorem read_of_write {v : Int} (h : m.write a v = .ok n) : n.read a = .ok v := by
  obtain ⟨ha, hv, rfl⟩ := eq_of_write h
  rw [read, checkAddress_of_inside ha]
  dsimp only [bind, Except.bind, pure, Except.pure]
  have hfits : v.toNat < UInt16.size := by
    have hmax := hv.2
    unfold UInt16.size
    omega
  rw [get_set_self, UInt16.toNat_ofNat_of_lt' hfits, Int.toNat_of_nonneg hv.1]

theorem getElem?_words (ws : List Word) (j : Nat) :
    (ws.flatMap Word.bytes)[2 * j]? = ws[j]?.map UInt16.toUInt8 ∧
      (ws.flatMap Word.bytes)[2 * j + 1]? = ws[j]?.map fun w : Word => (w >>> 8).toUInt8 := by
  induction ws generalizing j with
  | nil => exact ⟨rfl, rfl⟩
  | cons w rest ih =>
    cases j with
    | zero => exact ⟨rfl, rfl⟩
    | succ j => exact ih j

theorem getElem?_bytes (m : Memory) {j : Nat} (hj : j < 32768) :
    m.bytes[2 * j]? = some m.cells[j].toUInt8 ∧
      m.bytes[2 * j + 1]? = some (m.cells[j] >>> 8).toUInt8 := by
  have hcell : m.cells.toList[j]? = some m.cells[j] := by simp [hj]
  obtain ⟨hlow, hhigh⟩ := getElem?_words m.cells.toList j
  rw [hcell] at hlow hhigh
  exact ⟨hlow, hhigh⟩

theorem bytes_ext {bs cs : List UInt8} (hbs : bs.length = 65536) (hcs : cs.length = 65536)
    (h : ∀ j < 32768, bs[2 * j]? = cs[2 * j]? ∧ bs[2 * j + 1]? = cs[2 * j + 1]?) : bs = cs := by
  apply List.ext_getElem?
  intro n
  by_cases hn : n < 65536
  · have hparity : n = 2 * (n / 2) ∨ n = 2 * (n / 2) + 1 := by omega
    obtain ⟨heven, hodd⟩ := h (n / 2) (by omega)
    obtain hn | hn := hparity
    · rw [hn]
      exact heven
    · rw [hn]
      exact hodd
  · rw [List.getElem?_eq_none (by omega), List.getElem?_eq_none (by omega)]

theorem read_bytes (h : IsAddress a) :
    ∃ low high, m.bytes[2 * a.toNat]? = some low ∧ m.bytes[2 * a.toNat + 1]? = some high ∧
      m.read a = .ok (256 * high.toNat + low.toNat) := by
  have hinside : a.toNat < 32768 := by omega
  obtain ⟨hlow, hhigh⟩ := m.getElem?_bytes hinside
  refine ⟨_, _, hlow, hhigh, ?_⟩
  have hword := Word.toNat_ofBytes m.cells[a.toNat].toUInt8 (m.cells[a.toNat] >>> 8).toUInt8
  rw [Word.ofBytes_bytes] at hword
  have hread : m.read a = .ok (m.cells[a.toNat].toNat : Int) := by
    rw [read, checkAddress_of_inside h]
    rfl
  rw [hread, hword, Int.natCast_add, Int.natCast_mul]
  rfl

theorem bytes_set (m : Memory) (i : Address) (w : Word) :
    (m.set i w).bytes =
      (m.bytes.set (2 * i.val) w.toUInt8).set (2 * i.val + 1) (w >>> 8).toUInt8 := by
  apply bytes_ext
  · exact length_bytes _
  · rw [List.length_set, List.length_set, length_bytes]
  intro j hj
  obtain ⟨hlow, hhigh⟩ := (m.set i w).getElem?_bytes hj
  obtain ⟨hlow', hhigh'⟩ := m.getElem?_bytes hj
  have hi := i.isLt
  have hset : (m.set i w).cells[j] = if i.val = j then w else m.cells[j] :=
    Vector.getElem_set i.isLt hj
  rw [hlow, hhigh, hset, List.getElem?_set, List.getElem?_set, List.getElem?_set,
    List.getElem?_set, List.length_set, length_bytes, hlow', hhigh']
  by_cases hij : i.val = j
  · subst hij
    simp
    omega
  · have hlow : 2 * i.val + 1 ≠ 2 * j := by omega
    have hhigh : 2 * i.val ≠ 2 * j + 1 := by omega
    have hsame : 2 * i.val ≠ 2 * j := by omega
    simp [hij, hlow, hhigh, hsame]

theorem bytes_write {v : Int} (h : m.write a v = .ok n) :
    n.bytes = (m.bytes.set (2 * a.toNat) (.ofNat (v.toNat % 256))).set (2 * a.toNat + 1)
      (.ofNat (v.toNat / 256)) := by
  obtain ⟨ha, hv, rfl⟩ := eq_of_write h
  have hword : v.toNat < UInt16.size := by
    change v.toNat < 65536
    omega
  rw [bytes_set, Word.toUInt8_eq, Word.high_eq, UInt16.toNat_ofNat_of_lt' hword]
  rfl

/-- What an image puts at a place, or what was there before where the image does not reach. -/
theorem getElem?_splice {bs image : List UInt8} {k : Nat} (hk : k + image.length ≤ bs.length)
    (n : Nat) : (bs.take k ++ image ++ bs.drop (k + image.length))[n]? =
      if n < k then bs[n]? else image[n - k]?.or bs[n]? := by
  have hfront : (bs.take k).length = k := List.length_take_of_le (by omega)
  by_cases hn : n < k
  · rw [if_pos hn, List.append_assoc, List.getElem?_append_left (by omega), List.getElem?_take,
      if_pos hn]
  · rw [if_neg hn, List.append_assoc, List.getElem?_append_right (by omega), hfront]
    by_cases hinside : n - k < image.length
    · rw [List.getElem?_append_left hinside, List.getElem?_eq_getElem hinside, Option.some_or]
    · have hindex : k + image.length + (n - k - image.length) = n := by omega
      have hbehind : image[n - k]? = none := List.getElem?_eq_none (by omega)
      rw [List.getElem?_append_right (by omega), List.getElem?_drop, hindex, hbehind,
        Option.none_or]

theorem bytes_load (h : m.load image a = .ok n) :
    n.bytes = m.bytes.take (2 * a.toNat) ++ image ++
      m.bytes.drop (2 * a.toNat + image.length) := by
  obtain ⟨hbase, hfits, rfl⟩ := eq_of_load h
  have hlength := m.length_bytes
  have hroom : 2 * a.toNat + image.length ≤ m.bytes.length := by omega
  apply bytes_ext
  · exact length_bytes _
  · simp only [List.length_append, List.length_take, List.length_drop, hlength]
    omega
  intro j hj
  obtain ⟨hlow, hhigh⟩ := getElem?_bytes ⟨overwrite m.cells a.toNat image⟩ hj
  obtain ⟨hlow', hhigh'⟩ := m.getElem?_bytes hj
  rw [hlow, hhigh, getElem_loaded _ _ _ hj, getElem?_splice hroom, getElem?_splice hroom, hlow',
    hhigh']
  by_cases hle : a.toNat ≤ j
  · have hindex : 2 * j - 2 * a.toNat = 2 * (j - a.toNat) := by omega
    have hindex' : 2 * j + 1 - 2 * a.toNat = 2 * (j - a.toNat) + 1 := by omega
    rw [if_pos hle, if_neg (by omega), if_neg (by omega), hindex, hindex', Word.spliced,
      Word.toUInt8_ofBytes, Word.high_ofBytes, Option.or_some, Option.or_some]
    exact ⟨rfl, rfl⟩
  · rw [if_neg hle, if_pos (by omega), if_pos (by omega)]
    exact ⟨rfl, rfl⟩

end Memory

end WordMachine
