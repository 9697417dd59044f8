import WordMachine.Proofs.LongNumeral
import WordMachine.Proofs.MemoryBytes

/-!
Packing words and loading images are inverse to each other. What has been packed and loaded can be
read again, what is copied from memory and packed makes no difference when it is loaded where it
came from, and an image of whole words is packed again from the cells that it has been loaded into.
-/
namespace WordMachine

theorem Word.bytes_ofBytes (low high : UInt8) : (Word.ofBytes low high).bytes = [low, high] := by
  rw [bytes, toUInt8_ofBytes, high_ofBytes]

theorem exists_words_of_even {image : List UInt8} {n : Nat} (h : image.length = 2 * n) :
    ∃ us : List Word, us.length = n ∧ us.flatMap Word.bytes = image := by
  induction n generalizing image with
  | zero =>
    obtain rfl := List.eq_nil_of_length_eq_zero h
    exact ⟨[], rfl, rfl⟩
  | succ n ih =>
    match image, h with
    | low :: high :: rest, h =>
      have hrest : rest.length = 2 * n := by
        rw [List.length_cons, List.length_cons] at h
        omega
      obtain ⟨us, hlength, rfl⟩ := ih hrest
      refine ⟨.ofBytes low high :: us, by rw [List.length_cons, hlength], ?_⟩
      rw [List.flatMap_cons, Word.bytes_ofBytes]
      rfl

def firstWide? (ws : List Int) : Option Int := ws.find? fun v => ¬IsWord v

theorem firstWide?_eq_none_iff {ws : List Int} : firstWide? ws = none ↔ ∀ v ∈ ws, IsWord v := by
  simp [firstWide?]

theorem firstWide?_cons_of_isWord {v : Int} (h : IsWord v) (ws : List Int) :
    firstWide? (v :: ws) = firstWide? ws :=
  List.find?_cons_of_neg (by simpa using h)

theorem firstWide?_cons_of_not_isWord {v : Int} (h : ¬IsWord v) (ws : List Int) :
    firstWide? (v :: ws) = some v :=
  List.find?_cons_of_pos (decide_eq_true h)

theorem packImage_of_wide {ws : List Int} {v : Int} (h : firstWide? ws = some v) :
    packImage ws = .error (.tooWide v) := by
  have hcheck : ws.mapM checkWord = .error (.tooWide v) := by
    induction ws with
    | nil => cases h
    | cons w ws ih =>
      rw [List.mapM_cons]
      by_cases hw : IsWord w
      · rw [firstWide?_cons_of_isWord hw] at h
        rw [checkWord_of_isWord hw, ih h]
        rfl
      · rw [firstWide?_cons_of_not_isWord hw] at h
        cases h
        rw [checkWord_of_not_isWord hw]
        rfl
  rw [packImage, hcheck]
  rfl

theorem packImage_of_narrow {ws : List Int} (h : firstWide? ws = none) :
    ∃ us : List Word, us.map (fun w => (w.toNat : Int)) = ws ∧
      packImage ws = .ok (us.flatMap Word.bytes) := by
  obtain ⟨us, rfl⟩ := exists_words (firstWide?_eq_none_iff.mp h)
  exact ⟨us, rfl, packImage_words us⟩

theorem packImage_ok_iff {ws : List Int} :
    (∃ image, packImage ws = .ok image) ↔ ∀ v ∈ ws, IsWord v := by
  rw [← firstWide?_eq_none_iff]
  constructor
  · rintro ⟨image, himage⟩
    cases h : firstWide? ws with
    | none => rfl
    | some v =>
      rw [packImage_of_wide h] at himage
      cases himage
  · intro h
    obtain ⟨us, -, hpack⟩ := packImage_of_narrow h
    exact ⟨_, hpack⟩

theorem packImage_error_iff {ws : List Int} {c : Cause} :
    packImage ws = .error c ↔ ∃ v, firstWide? ws = some v ∧ c = .tooWide v := by
  cases h : firstWide? ws with
  | none =>
    obtain ⟨us, -, hpack⟩ := packImage_of_narrow h
    simp [hpack]
  | some v => simp [packImage_of_wide h, eq_comm]

theorem exists_words_of_packImage {ws : List Int} {image : List UInt8}
    (h : packImage ws = .ok image) :
    ∃ us : List Word, ws = us.map (fun w => (w.toNat : Int)) ∧ image = us.flatMap Word.bytes := by
  obtain ⟨us, rfl⟩ := exists_words (packImage_ok_iff.mp ⟨image, h⟩)
  rw [packImage_words] at h
  cases h
  exact ⟨us, rfl, rfl⟩

namespace Memory

variable {m : Memory} {us : List Word} {base : Int}

/-- Loading words that there is room for, and what every cell is afterwards. -/
theorem load_words (m : Memory) (hbase : IsAddress base) (hroom : base + us.length ≤ 32768) :
    m.load (us.flatMap Word.bytes) base =
      .ok ⟨overwrite m.cells base.toNat (us.flatMap Word.bytes)⟩ := by
  have hlength : (us.flatMap Word.bytes).length = 2 * us.length := WordMachine.length_bytes us
  rw [load_of_inside m _ hbase, if_pos (by omega)]

theorem read_overwrite_inside (hbase : IsAddress base) (hroom : base + us.length ≤ 32768) {i : Nat}
    {w : Word} (hi : us[i]? = some w) :
    read ⟨overwrite m.cells base.toNat (us.flatMap Word.bytes)⟩ (base + i) = .ok w.toNat := by
  obtain ⟨b, rfl⟩ := Int.eq_ofNat_of_zero_le hbase.1
  have hlt : i < us.length := (List.getElem?_eq_some_iff.mp hi).1
  have hinside : b + i < 32768 := by omega
  have haddress : IsAddress ((b : Int) + i) := by omega
  have hcell : cell ⟨overwrite m.cells (b : Int).toNat (us.flatMap Word.bytes)⟩ (b + i) = _ :=
    cell_of_nat (k := b + i) hinside
  rw [read_cell _ haddress, hcell, Int.toNat_natCast, getElem_overwrite _ _ _ hinside,
    if_pos (Nat.le_add_right b i), Nat.add_sub_cancel_left, hi, Option.getD_some]

theorem read_overwrite_outside (hbase : IsAddress base) {a : Int}
    (ha : a < base ∨ base + us.length ≤ a) :
    read ⟨overwrite m.cells base.toNat (us.flatMap Word.bytes)⟩ a = m.read a := by
  by_cases haddress : IsAddress a
  · obtain ⟨k, rfl⟩ := Int.eq_ofNat_of_zero_le haddress.1
    have hk : k < 32768 := by omega
    rw [read_cell _ haddress, read_cell _ haddress, cell_of_nat hk, cell_of_nat hk,
      getElem_overwrite _ _ _ hk]
    split
    next hle =>
      have hnone : us[k - base.toNat]? = none := List.getElem?_eq_none (by omega)
      rw [hnone, Option.getD_none]
    next => rfl
  · rw [read_outside _ haddress, read_outside _ haddress]

/-- Writing words one after the other comes to the same as loading them at once. -/
theorem go_words (m : Memory) (us : List Word) {k : Nat} (h : k + us.length ≤ 32768) :
    ofWords.go m k (us.map fun w => (w.toNat : Int)) =
      .ok ⟨overwrite m.cells k (us.flatMap Word.bytes)⟩ := by
  induction us generalizing m k with
  | nil =>
    rw [List.flatMap_nil, overwrite]
    rfl
  | cons w us ih =>
    rw [List.length_cons] at h
    have hk : k < 32768 := by omega
    have haddress : checkAddress k = .ok ⟨k, hk⟩ := checkAddress_ok_iff.mpr rfl
    have hwrite : m.write k w.toNat = .ok (m.set ⟨k, hk⟩ w) := by
      rw [write, haddress, checkWord_ok_iff.mpr rfl]
      rfl
    have hset : m.cells.setIfInBounds k w = (m.set ⟨k, hk⟩ w).cells := by
      apply Vector.ext
      intro j hj
      rw [Vector.getElem_setIfInBounds hj, set, Vector.getElem_set]
    have hrest := ih (m.set ⟨k, hk⟩ w) (k := k + 1) (by omega)
    rw [List.map_cons, ofWords.go, hwrite, List.flatMap_cons, Word.bytes, List.cons_append,
      List.cons_append, List.nil_append, overwrite, Word.ofBytes_bytes, hset, ← hrest,
      Int.natCast_add]
    rfl

theorem ofWords_eq_ofImage (h : us.length ≤ 32768) :
    ofWords (us.map fun w => (w.toNat : Int)) = ofImage (us.flatMap Word.bytes) := by
  rw [ofImage_bytes h]
  exact go_words empty us (k := 0) (by omega)

theorem overwrite_window (m : Memory) (i j : Nat) :
    overwrite m.cells i ((m.window i j).flatMap Word.bytes) = m.cells := by
  apply Vector.ext
  intro k hk
  rw [getElem_overwrite _ _ _ hk]
  split
  next hle =>
    have hindex : i + (k - i) = k := by omega
    cases hw : (m.window i j)[k - i]? with
    | none => rfl
    | some w =>
      obtain ⟨-, rfl⟩ := List.getElem?_eq_some_iff.mp hw
      simp [window, hindex]
  next => rfl

theorem load_snapshot (m : Memory) {a b : Int} (ha : 0 ≤ a) (hab : a ≤ b) (hb : b ≤ 32767) :
    ∃ ws image, m.snapshot a b = .ok ws ∧ packImage ws = .ok image ∧ m.load image a = .ok m := by
  obtain ⟨i, rfl⟩ := Int.eq_ofNat_of_zero_le ha
  obtain ⟨n, hn⟩ := Int.eq_ofNat_of_zero_le (show 0 ≤ b + 1 - i by omega)
  obtain rfl : b = i + n - 1 := by omega
  have hsnapshot := m.snapshot_eq (a := i) (n := n) ha (by omega) (by omega)
  rw [← map_window (by omega)] at hsnapshot
  have hlength : (m.window i (i + n)).length = n := by
    simp [window]
    omega
  refine ⟨_, _, hsnapshot, packImage_words _, ?_⟩
  rw [m.load_words ⟨ha, by omega⟩ (by rw [hlength]; omega), Int.toNat_natCast, overwrite_window]

theorem snapshot_ofImage {image : List UInt8} {n : Nat} (hlength : image.length = 2 * n)
    (hpos : 0 < n) (hn : n ≤ 32768) :
    ∃ m ws, ofImage image = .ok m ∧ m.snapshot 0 (n - 1) = .ok ws ∧ packImage ws = .ok image := by
  obtain ⟨us, rfl, rfl⟩ := exists_words_of_even hlength
  have hrun := cellRun_overwrite empty.cells 0 us (by omega)
  have hsnapshot := snapshot_eq (m := ⟨overwrite empty.cells 0 (us.flatMap Word.bytes)⟩)
    (Int.le_refl 0) hpos (by omega)
  rw [Int.zero_add] at hsnapshot
  exact ⟨_, _, ofImage_bytes hn, hsnapshot.trans (congrArg Except.ok hrun), packImage_words us⟩

/-- Numbers are packed exactly if they are words, and otherwise the first that is none is reported,
if it can be written. What has been packed stands in the cells that it is loaded into and in no
other one, and from the first cell on it is the memory that has been written word by word. Packing
what memory holds gives back what has been loaded, and loading it again changes nothing. -/
theorem packing_inverts_loading (m : Memory) (ws : List Int) :
    (((∃ image, packImage ws = .ok image) ↔ ∀ v ∈ ws, IsWord v) ∧
      ∀ c, packImage ws = .error c → ∃ v, firstWide? ws = some v ∧ c = .tooWide v ∧
        (Text.IsWritable v →
          ∃ f, c.report? = some f ∧ f.kind = .valueOverflow ∧ f.operand = some v)) ∧
    (∀ (image : List UInt8) (base : Int), packImage ws = .ok image →
      IsAddress base → base + ws.length ≤ 32768 →
        (∃ n, m.load image base = .ok n ∧
          (∀ (i : Nat) (v : Int), ws[i]? = some v → n.read (base + i) = .ok v) ∧
          ∀ a, a < base ∨ base + ws.length ≤ a → n.read a = m.read a) ∧
        ∃ n, ofImage image = .ok n ∧ ofWords ws = .ok n) ∧
    (∀ a b : Int, 0 ≤ a → a ≤ b → b ≤ 32767 →
      ∃ copy image, m.snapshot a b = .ok copy ∧ packImage copy = .ok image ∧
        m.load image a = .ok m) ∧
    ∀ (image : List UInt8) (n : Nat), image.length = 2 * n → 0 < n → n ≤ 32768 →
      ∃ fresh copy, ofImage image = .ok fresh ∧ fresh.snapshot 0 (n - 1) = .ok copy ∧
        packImage copy = .ok image := by
  refine ⟨⟨packImage_ok_iff, fun c hc => ?_⟩, fun image base hpack hbase hroom => ?_,
    fun a b ha hab hb => m.load_snapshot ha hab hb,
    fun image n hlength hpos hn => snapshot_ofImage hlength hpos hn⟩
  · obtain ⟨v, hv, rfl⟩ := packImage_error_iff.mp hc
    refine ⟨v, hv, rfl, fun hwritable => ?_⟩
    have hreport : (Cause.tooWide v).report? = some (Cause.tooWide v).fault :=
      Cause.report?_eq_some_iff.mpr
        ⟨by simpa [Cause.IsReportable, Cause.shown] using hwritable, rfl⟩
    exact ⟨_, hreport, rfl, rfl⟩
  · obtain ⟨us, rfl, rfl⟩ := exists_words_of_packImage hpack
    rw [List.length_map] at hroom ⊢
    refine ⟨⟨_, m.load_words hbase hroom, fun i v hv => ?_, fun a ha =>
      read_overwrite_outside hbase ha⟩, _, ofImage_bytes (by omega), ?_⟩
    · rw [List.getElem?_map] at hv
      obtain ⟨w, hw, rfl⟩ := Option.map_eq_some_iff.mp hv
      exact read_overwrite_inside hbase hroom hw
    · rw [ofWords_eq_ofImage (by omega), ofImage_bytes (by omega)]

theorem sample_packing :
    (packImage [9, 32768] = .ok [9, 0, 0, 128] ∧ IsAddress 32766 ∧
      ∃ n, empty.load [9, 0, 0, 128] 32766 = .ok n ∧ n.read 32767 = .ok 32768 ∧
        n.read 32765 = empty.read 32765) ∧
    (packImage [7, 70000, -1] = .error (.tooWide 70000) ∧ Text.IsWritable 70000 ∧
      ∃ f, (Cause.tooWide 70000).report? = some f ∧ f.kind = .valueOverflow ∧
        f.operand = some 70000) ∧
    (∃ ws image, (empty.setCell 2 70).snapshot 1 2 = .ok ws ∧ packImage ws = .ok image ∧
      (empty.setCell 2 70).load image 1 = .ok (empty.setCell 2 70)) ∧
    ∃ m ws, ofImage [1, 2, 3, 4] = .ok m ∧ m.snapshot 0 1 = .ok ws ∧
      packImage ws = .ok [1, 2, 3, 4] := by
  obtain ⟨-, hloads, -, himages⟩ := packing_inverts_loading empty [9, 32768]
  obtain ⟨⟨-, hrefused⟩, -, hcopies, -⟩ :=
    packing_inverts_loading (empty.setCell 2 70) [7, 70000, -1]
  have hpacked : packImage [9, 32768] = .ok [9, 0, 0, 128] := by decide
  have hwide : packImage [7, 70000, -1] = .error (.tooWide 70000) := by decide
  have hwritable : Text.IsWritable 70000 := Text.isWritable_of_natAbs_lt (by decide)
  obtain ⟨⟨n, hn, hinside, houtside⟩, -⟩ :=
    hloads _ 32766 hpacked (by decide) (by decide)
  obtain ⟨v, -, hv, hreport⟩ := hrefused _ hwide
  cases hv
  exact ⟨⟨hpacked, by decide, n, hn, hinside 1 32768 rfl, houtside 32765 (.inl (by decide))⟩,
    ⟨hwide, hwritable, hreport hwritable⟩, hcopies 1 2 (by decide) (by decide) (by decide),
    himages [1, 2, 3, 4] 2 rfl (by decide) (by decide)⟩

/-- A number that a hexadecimal numeral names and that is too long to be written in decimal. -/
def longWord : Int := ((16 ^ 3690 : Nat) : Int)

theorem long_word_unreported :
    ¬IsWord longWord ∧
      ∃ c, packImage [2, longWord] = .error c ∧ c.report? = none := by
  have hlong : ¬Text.IsWritable longWord :=
    Text.not_isWritable_hexPower (n := 615) (by decide) (Nat.le_refl 3690)
  have hwide : ¬IsWord longWord := fun h => hlong (Text.isWritable_of_natAbs_lt (by omega))
  have hfirst : firstWide? [2, longWord] = some longWord := by
    rw [firstWide?_cons_of_isWord (by decide), firstWide?_cons_of_not_isWord hwide]
  refine ⟨hwide, _, packImage_of_wide hfirst, ?_⟩
  rw [Cause.report?, if_neg]
  exact fun hall => hlong (hall longWord (by simp [Cause.shown]))

end Memory

end WordMachine
