import WordMachine.Proofs.LongNumeral
import WordMachine.Proofs.MemoryBytes
import WordMachine.Proofs.Serving

/-!
Memory is a table of 32768 words. Whatever it is asked to do, it answers as a total map from
addresses to words does.
-/
namespace WordMachine

inductive Access where
  | read (a : Int)
  | write (a v : Int)
  | load (image : List UInt8) (base : Int)
  | snapshot (first last : Int)
  deriving DecidableEq, Repr

inductive Answer where
  | done
  | word (w : Int)
  | words (ws : List Int)
  deriving DecidableEq, Repr

/-- A total map from addresses to the numbers that fit sixteen bits. -/
abbrev Table := Address → Fin 65536

namespace Table

/-- The value of two bytes, which are taken from an image from an index on and from another value
where the image has ended. -/
def spliced (v : Fin 65536) (image : List UInt8) (n : Nat) : Fin 65536 :=
  .ofNat _ ((image[n]?.map UInt8.toNat).getD (v.val % 256) +
    256 * (image[n + 1]?.map UInt8.toNat).getD (v.val / 256))

theorem spliced_of_le (v : Fin 65536) {image : List UInt8} {n : Nat} (h : image.length ≤ n) :
    spliced v image n = v := by
  apply Fin.ext
  rw [spliced, List.getElem?_eq_none h, List.getElem?_eq_none (by omega), Fin.val_ofNat]
  have hv := v.isLt
  simp only [Option.map_none, Option.getD_none]
  omega

def loaded (t : Table) (image : List UInt8) (base : Nat) : Table := fun i =>
  if base ≤ i.val then spliced (t i) image (2 * (i.val - base)) else t i

def between (t : Table) (first last : Int) : List Int :=
  (List.range (last + 1 - first).toNat).map fun k : Nat =>
    ((t (.ofNat _ (first.toNat + k))).val : Int)

def serve (t : Table) : Access → Table × Except Cause Answer
  | .read a =>
    if h : IsAddress a then (t, .ok (.word (t (addressOf a h)).val))
    else (t, .error (.noSuchCell a))
  | .write a v =>
    if h : IsAddress a then
      if 0 ≤ v ∧ v ≤ 65535 then
        (Function.update t (addressOf a h) (.ofNat _ v.toNat), .ok .done)
      else (t, .error (.tooWide v))
    else (t, .error (.noSuchCell a))
  | .load image base =>
    if IsAddress base then
      if 2 * base + image.length ≤ 65536 then (t.loaded image base.toNat, .ok .done)
      else (t, .error (.imageTooLong image.length base))
    else (t, .error (.noSuchCell base))
  | .snapshot first last =>
    if IsAddress first then
      if IsAddress last then (t, .ok (.words (t.between first last)))
      else (t, .error (.noSuchCell last))
    else (t, .error (.noSuchCell first))

end Table

namespace Memory

def adopt (m : Memory) : Except Cause Memory → Memory × Except Cause Answer
  | .ok n => (n, .ok .done)
  | .error c => (m, .error c)

def serve (m : Memory) : Access → Memory × Except Cause Answer
  | .read a => (m, .word <$> m.read a)
  | .write a v => m.adopt (m.write a v)
  | .load image base => m.adopt (m.load image base)
  | .snapshot first last => (m, .words <$> m.snapshot first last)

def table (m : Memory) : Table := fun i => (m.get i).toFin

end Memory

namespace Memory

variable {m : Memory} {a : Int}

theorem table_set (m : Memory) (i : Address) (w : Word) :
    (m.set i w).table = Function.update m.table i w.toFin := by
  funext j
  unfold table
  rw [get_set, Function.update_apply]
  by_cases h : i = j
  · rw [if_pos h, if_pos h.symm]
  · rw [if_neg h, if_neg (Ne.symm h)]

theorem table_empty : empty.table = fun _ => 0 := by
  funext i
  rw [table, get_empty]
  rfl

theorem toFin_spliced (w : Word) (image : List UInt8) (n : Nat) :
    (w.spliced image n).toFin = Table.spliced w.toFin image n := by
  have hlow : (image[n]?.getD w.toUInt8).toNat =
      (image[n]?.map UInt8.toNat).getD (w.toNat % 256) := by
    cases image[n]? <;> simp
  have hhigh : (image[n + 1]?.getD (w >>> 8).toUInt8).toNat =
      (image[n + 1]?.map UInt8.toNat).getD (w.toNat / 256) := by
    cases image[n + 1]? with
    | none => exact w.toNat_high
    | some b => rfl
  have hl := (image[n]?.getD w.toUInt8).toNat_lt
  have hh := (image[n + 1]?.getD (w >>> 8).toUInt8).toNat_lt
  apply Fin.ext
  change (w.spliced image n).toNat = ((image[n]?.map UInt8.toNat).getD (w.toNat % 256) +
    256 * (image[n + 1]?.map UInt8.toNat).getD (w.toNat / 256)) % 65536
  rw [Word.spliced, Word.toNat_ofBytes, ← hlow, ← hhigh]
  omega

theorem table_loaded (m : Memory) (image : List UInt8) (base : Nat) :
    table ⟨overwrite m.cells base image⟩ = m.table.loaded image base := by
  funext i
  unfold Table.loaded table get
  rw [Fin.getElem_fin, Fin.getElem_fin, getElem_loaded m.cells base image i.isLt]
  split
  · rw [toFin_spliced]
  · rfl

theorem words_between (m : Memory) {i j : Nat} (hi : i < 32768) (hj : j < 32768) :
    (m.window i (j + 1)).map (fun w => (w.toNat : Int)) = m.table.between i j := by
  by_cases hle : i ≤ j + 1
  · obtain ⟨n, hn⟩ := Nat.exists_eq_add_of_le hle
    have hlength : ((j : Int) + 1 - i).toNat = n := by omega
    rw [hn, map_window (by omega), Table.between, hlength, cellRun]
    apply List.map_congr_left
    intro k hk
    have hk := List.mem_range.mp hk
    have hcell : m.cell (i + k) = (m.cells[i + k].toNat : Int) := cell_of_nat (by omega)
    have hindex : (Fin.ofNat 32768 ((i : Int).toNat + k)) = ⟨i + k, by omega⟩ := by
      apply Fin.ext
      simp only [Fin.val_ofNat]
      omega
    rw [hcell, hindex]
    rfl
  · have hlength : ((j : Int) + 1 - i).toNat = 0 := by omega
    rw [Table.between, hlength]
    simp [window]
    omega

theorem serve_read (m : Memory) (a : Int) :
    (m.serve (.read a)).map table id = m.table.serve (.read a) := by
  simp only [serve, Table.serve, read]
  by_cases h : IsAddress a
  · rw [checkAddress_of_inside h, dif_pos h]
    rfl
  · rw [checkAddress_of_outside h, dif_neg h]
    rfl

theorem serve_write (m : Memory) (a v : Int) :
    (m.serve (.write a v)).map table id = m.table.serve (.write a v) := by
  simp only [serve, Table.serve, write]
  by_cases h : IsAddress a
  · rw [checkAddress_of_inside h, dif_pos h]
    by_cases hv : IsWord v
    · rw [checkWord_of_isWord hv, if_pos hv]
      exact Prod.ext (m.table_set _ _) rfl
    · rw [checkWord_of_not_isWord hv, if_neg hv]
      rfl
  · rw [checkAddress_of_outside h, dif_neg h]
    rfl

theorem serve_load (m : Memory) (image : List UInt8) (base : Int) :
    (m.serve (.load image base)).map table id = m.table.serve (.load image base) := by
  simp only [serve, Table.serve]
  by_cases h : IsAddress base
  · rw [load_of_inside m image h, if_pos h]
    split
    · exact Prod.ext (m.table_loaded image _) rfl
    · rfl
  · rw [load, checkAddress_of_outside h, if_neg h]
    rfl

theorem serve_snapshot (m : Memory) (first last : Int) :
    (m.serve (.snapshot first last)).map table id = m.table.serve (.snapshot first last) := by
  simp only [serve, Table.serve, snapshot]
  by_cases hfirst : IsAddress first
  · rw [checkAddress_of_inside hfirst, if_pos hfirst]
    by_cases hlast : IsAddress last
    · rw [checkAddress_of_inside hlast, if_pos hlast]
      have hwords := m.words_between (addressOf first hfirst).isLt (addressOf last hlast).isLt
      rw [val_addressOf, val_addressOf] at hwords
      rw [← hwords]
      rfl
    · rw [checkAddress_of_outside hlast, if_neg hlast]
      rfl
  · rw [checkAddress_of_outside hfirst, if_neg hfirst]
    rfl

/-- Memory answers as its table does, and becomes the memory of the table that this becomes. -/
theorem serve_simulates (m : Memory) (call : Access) :
    (m.serve call).map table id = m.table.serve call := by
  cases call with
  | read a => exact m.serve_read a
  | write a v => exact m.serve_write a v
  | load image base => exact m.serve_load image base
  | snapshot first last => exact m.serve_snapshot first last

theorem serveAll_simulates (m : Memory) (calls : List Access) :
    (serveAll serve m calls).map table id = serveAll Table.serve m.table calls := by
  induction calls generalizing m with
  | nil => rfl
  | cons call rest ih =>
    unfold serveAll
    rw [← m.serve_simulates call]
    dsimp only [Prod.map]
    rw [← ih]
    rfl

end Memory

/-- The first thing that is wrong with an access: addresses are looked at before what is to be put
there. -/
inductive Access.Objects : Access → Cause → Prop where
  | source {a : Int} : ¬IsAddress a → Objects (.read a) (.noSuchCell a)
  | target {a v : Int} : ¬IsAddress a → Objects (.write a v) (.noSuchCell a)
  | value {a v : Int} : IsAddress a → ¬IsWord v → Objects (.write a v) (.tooWide v)
  | base {image : List UInt8} {base : Int} : ¬IsAddress base →
      Objects (.load image base) (.noSuchCell base)
  | room {image : List UInt8} {base : Int} : IsAddress base → 65536 < 2 * base + image.length →
      Objects (.load image base) (.imageTooLong image.length base)
  | first {first last : Int} : ¬IsAddress first →
      Objects (.snapshot first last) (.noSuchCell first)
  | last {first last : Int} : IsAddress first → ¬IsAddress last →
      Objects (.snapshot first last) (.noSuchCell last)

def Access.Touches : Access → Address → Prop
  | .write a _, i => a = i.val
  | .load image base, i => base ≤ i.val ∧ 2 * (i.val : Int) < 2 * base + image.length
  | _, _ => False

namespace Table

variable {call : Access} {c : Cause}

theorem serve_of_objects (t : Table) (h : call.Objects c) : t.serve call = (t, .error c) := by
  cases h with
  | source ha | target ha => simp only [serve, dif_neg ha]
  | value ha hv => simp only [serve, dif_pos ha, if_neg hv]
  | base ha | first ha => simp only [serve, if_neg ha]
  | room ha hlong => simp only [serve, if_pos ha, if_neg (Int.not_le_of_gt hlong)]
  | last ha hlast => simp only [serve, if_pos ha, if_neg hlast]

theorem loaded_of_not_touches (t : Table) {image : List UInt8} {base : Int} {i : Address}
    (hbase : IsAddress base) (h : ¬(Access.load image base).Touches i) :
    t.loaded image base.toNat i = t i := by
  unfold loaded
  split
  next hle =>
    apply spliced_of_le
    have hpast : ¬(base ≤ i.val ∧ 2 * (i.val : Int) < 2 * base + image.length) := h
    omega
  next => rfl

/-- Either there is something wrong with an access, or it is answered and changes only cells that it
touches. -/
theorem serve_cases (t : Table) (call : Access) :
    (∃ c, call.Objects c) ∨
      ∃ u answer, t.serve call = (u, .ok answer) ∧ ∀ i, ¬call.Touches i → u i = t i := by
  cases call with
  | read a =>
    by_cases ha : IsAddress a
    · exact .inr ⟨t, _, dif_pos ha, fun _ _ => rfl⟩
    · exact .inl ⟨_, .source ha⟩
  | write a v =>
    by_cases ha : IsAddress a
    · by_cases hv : IsWord v
      · refine .inr ⟨_, _, (dif_pos ha).trans (if_pos hv), ?_⟩
        intro i hi
        apply Function.update_of_ne
        rintro rfl
        exact hi (val_addressOf ha).symm
      · exact .inl ⟨_, .value ha hv⟩
    · exact .inl ⟨_, .target ha⟩
  | load image base =>
    by_cases hbase : IsAddress base
    · by_cases hfits : 2 * base + image.length ≤ 65536
      · exact .inr ⟨_, _, (if_pos hbase).trans (if_pos hfits),
          fun i => t.loaded_of_not_touches hbase⟩
      · exact .inl ⟨_, .room hbase (Int.lt_of_not_ge hfits)⟩
    · exact .inl ⟨_, .base hbase⟩
  | snapshot first last =>
    by_cases hfirst : IsAddress first
    · by_cases hlast : IsAddress last
      · exact .inr ⟨t, _, (if_pos hfirst).trans (if_pos hlast), fun _ _ => rfl⟩
      · exact .inl ⟨_, .last hfirst hlast⟩
    · exact .inl ⟨_, .first hfirst⟩

theorem serve_error_iff (t : Table) : (t.serve call).2 = .error c ↔ call.Objects c := by
  constructor
  · intro h
    obtain ⟨d, hd⟩ | ⟨u, answer, hserve, -⟩ := t.serve_cases call
    · rw [t.serve_of_objects hd] at h
      cases h
      exact hd
    · rw [hserve] at h
      cases h
  · intro h
    rw [t.serve_of_objects h]

theorem serve_of_not_touches (t : Table) {i : Address} (h : ¬call.Touches i) :
    (t.serve call).1 i = t i := by
  obtain ⟨c, hc⟩ | ⟨u, answer, hserve, hkept⟩ := t.serve_cases call
  · rw [t.serve_of_objects hc]
  · rw [hserve]
    exact hkept i h

end Table

namespace Memory

variable {call : Access} {c : Cause}

theorem table_serve (m : Memory) (call : Access) :
    (m.serve call).1.table = (m.table.serve call).1 :=
  congrArg Prod.fst (m.serve_simulates call)

theorem get_of_table {m n : Memory} {i : Address} (h : n.table i = m.table i) :
    n.get i = m.get i :=
  UInt16.toFin_inj.mp h

theorem serve_of_not_touches (m : Memory) {i : Address} (h : ¬call.Touches i) :
    (m.serve call).1.get i = m.get i := by
  apply get_of_table
  rw [table_serve, Table.serve_of_not_touches _ h]

theorem serve_error_iff (m : Memory) : (m.serve call).2 = .error c ↔ call.Objects c := by
  have hsame : (m.serve call).2 = (m.table.serve call).2 :=
    congrArg Prod.snd (m.serve_simulates call)
  rw [hsame, Table.serve_error_iff]

theorem serve_of_error {m : Memory} (h : (m.serve call).2 = .error c) : (m.serve call).1 = m := by
  apply Memory.ext
  intro i
  apply get_of_table
  rw [table_serve, Table.serve_of_objects _ (m.serve_error_iff.mp h)]

end Memory

def Access.numbers : Access → List Int
  | .read a => [a]
  | .write a v => [a, v]
  | .load _ base => [base]
  | .snapshot first last => [first, last]

theorem Access.Objects.shown_subset {call : Access} {c : Cause} (h : call.Objects c) :
    c.shown ⊆ call.numbers := by
  cases h <;> simp [Cause.shown, Access.numbers]

namespace Memory

/-- Memory that starts empty cannot be told from a table of words that starts with zeros. An access
fails just where there is something wrong with it, and then has changed nothing; it is reported
unless a number that it was given is too long to be written. Any other access changes nothing but
the cells that it touches: these hold afterwards what was written, or the words that the bytes of an
image make. In bytes, a cell is a pair of them and an image replaces one slice. -/
theorem memory_refines_table (calls : List Access) (m : Memory) (call : Access) :
    (serveAll serve empty calls).map table id = serveAll Table.serve (fun _ => 0) calls ∧
      (∀ c, (m.serve call).2 = .error c ↔ call.Objects c) ∧
      (∀ c, (m.serve call).2 = .error c → (m.serve call).1 = m ∧ c.shown ⊆ call.numbers ∧
        (c.report? = some c.fault ↔ ∀ x ∈ c.shown, Text.IsWritable x)) ∧
      (∀ i, ¬call.Touches i → (m.serve call).1.get i = m.get i) ∧
      (∀ a, IsAddress a → ∃ low high, m.bytes[2 * a.toNat]? = some low ∧
        m.bytes[2 * a.toNat + 1]? = some high ∧ m.read a = .ok (256 * high.toNat + low.toNat)) ∧
      (∀ n a v, m.write a v = .ok n → n.read a = .ok v ∧
        n.bytes = (m.bytes.set (2 * a.toNat) (.ofNat (v.toNat % 256))).set (2 * a.toNat + 1)
          (.ofNat (v.toNat / 256))) ∧
      ∀ n image base, m.load image base = .ok n →
        (∀ (k : Nat) low high, image[2 * k]? = some low → image[2 * k + 1]? = some high →
          n.read (base + k) = .ok (low.toNat + 256 * high.toNat)) ∧
        n.bytes = m.bytes.take (2 * base.toNat) ++ image ++
          m.bytes.drop (2 * base.toNat + image.length) := by
  refine ⟨?_, fun c => m.serve_error_iff, fun c hfailed => ?_, fun i => m.serve_of_not_touches,
    fun a => read_bytes, fun n a v hwritten => ?_, fun n image base hloaded => ?_⟩
  · rw [serveAll_simulates, table_empty]
  · refine ⟨serve_of_error hfailed, (m.serve_error_iff.mp hfailed).shown_subset, ?_⟩
    rw [Cause.report?_eq_some_iff]
    exact and_iff_left rfl
  · exact ⟨read_of_write hwritten, bytes_write hwritten⟩
  · exact ⟨fun k low high => read_of_load hloaded, bytes_load hloaded⟩

def sampleAccesses : List Access :=
  [.write 5 70, .load [1, 2, 3, 4] 5, .read 6, .write 32768 65536, .write 6 65536,
    .load [1, 2, 3, 4] 32767, .snapshot 4 6]

theorem sample_refines :
    (serveAll serve empty sampleAccesses).2 =
        [.ok .done, .ok .done, .ok (.word 1027), .error (.noSuchCell 32768),
          .error (.tooWide 65536), .error (.imageTooLong 4 32767), .ok (.words [0, 513, 1027])] ∧
      ((empty.serve (.write 32768 65536)).1 = empty ∧
        (Cause.noSuchCell 32768).report? = some (Cause.noSuchCell 32768).fault) ∧
      (∃ n, empty.write 5 70 = .ok n ∧ n.read 5 = .ok 70) ∧
      ∃ n, empty.load [1, 2, 3, 4] 5 = .ok n ∧ n.read (5 + 1) = .ok 1027 := by
  obtain ⟨hall, hobjects, hfailing, -, -, hwrites, hloads⟩ :=
    memory_refines_table sampleAccesses empty (.write 32768 65536)
  have hanswers := congrArg Prod.snd hall
  have hobjection : (Access.write 32768 65536).Objects (.noSuchCell 32768) := .target (by decide)
  obtain ⟨hsame, -, hreport⟩ := hfailing _ ((hobjects _).mpr hobjection)
  have hwritten : empty.write 5 70 = .ok _ := rfl
  have hloaded : empty.load [1, 2, 3, 4] 5 = .ok _ := rfl
  exact ⟨hanswers.trans (by decide +kernel), ⟨hsame, hreport.mpr (by decide +kernel)⟩,
    ⟨_, hwritten, (hwrites _ _ _ hwritten).1⟩, _, hloaded, (hloads _ _ _ hloaded).1 1 3 4 rfl rfl⟩

theorem unreported_of_not_isWritable (m : Memory) {a : Int} (h : ¬Text.IsWritable a) :
    ¬IsAddress a ∧ ∃ c, (m.serve (.read a)).2 = .error c ∧ c.report? = none := by
  have houtside : ¬IsAddress a := fun ha => h (Text.isWritable_of_natAbs_lt (by omega))
  refine ⟨houtside, _, m.serve_error_iff.mpr (.source houtside), ?_⟩
  rw [Cause.report?, if_neg]
  exact fun hall => h (hall a (by simp [Cause.shown]))

/-- Addresses that are, with enough zeros, too long to be written in decimal. -/
def longAddress (zeros : Nat) : Int := ((16 ^ zeros : Nat) : Int)

theorem not_isWritable_longAddress {zeros : Nat} (h : 3690 ≤ zeros) :
    ¬Text.IsWritable (longAddress zeros) :=
  Text.not_isWritable_hexPower (n := 615) (by decide) h

theorem long_address_unreported :
    ¬IsAddress (longAddress 3690) ∧
      ∃ c, (empty.serve (.read (longAddress 3690))).2 = .error c ∧ c.report? = none :=
  empty.unreported_of_not_isWritable (not_isWritable_longAddress (Nat.le_refl 3690))

end Memory

end WordMachine
