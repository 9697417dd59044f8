import WordMachine.FileTree
import WordMachine.Proofs.TextFile

/-!
Files by their contents. Writing to a path changes the contents of what the path leads to and of
nothing else, and since no directory comes or goes, all paths lead where they led before. Whether a
file can be written does not depend on what is written to it.
-/
namespace WordMachine.FileTree

variable {t u v : FileTree} {p q : Path} {parts : List String} {bytes : List UInt8}
  {change : List UInt8 → List UInt8}

/-- Where a path leads, if it leads anywhere. -/
def place? (t : FileTree) (p : Path) : Option (List String) := (t.locate p).toOption

def bytesAt (t : FileTree) (parts : List String) : List UInt8 :=
  match t.entryAt parts with
  | some (.file bytes) => bytes
  | _ => []

/-- The bytes of the file that a path leads to; there are none if it leads to no file. -/
def contents (t : FileTree) (p : Path) : List UInt8 := ((t.place? p).map t.bytesAt).getD []

/-- A path leads to a file, or to where one can be created. -/
def Writable (t : FileTree) (p : Path) : Prop :=
  ∃ parts, t.place? p = some parts ∧ t.entryAt parts ≠ some .directory

def SameDirectories (t u : FileTree) : Prop :=
  ∀ parts, u.entryAt parts = some .directory ↔ t.entryAt parts = some .directory

theorem SameDirectories.refl (t : FileTree) : t.SameDirectories t := fun _ => Iff.rfl

theorem SameDirectories.symm (h : t.SameDirectories u) : u.SameDirectories t :=
  fun parts => (h parts).symm

theorem SameDirectories.trans (h : t.SameDirectories u) (h' : u.SameDirectories v) :
    t.SameDirectories v :=
  fun parts => (h' parts).trans (h parts)

theorem place?_eq_some_iff : t.place? p = some parts ↔ t.locate p = .ok parts := by
  unfold place?
  cases t.locate p <;> simp [Except.toOption]

theorem contents_of_place (h : t.place? p = some parts) : t.contents p = t.bytesAt parts := by
  rw [contents, h]
  rfl

section Reading

theorem read_ok_iff :
    t.read p = .ok bytes ↔ ∃ parts, t.place? p = some parts ∧
      t.entryAt parts = some (.file bytes) := by
  unfold read
  cases hlocate : t.locate p with
  | error e => simp [place?, hlocate, bind, Except.bind, Except.toOption]
  | ok parts =>
    have hplace : t.place? p = some parts := place?_eq_some_iff.mpr hlocate
    simp only [bind, Except.bind, hplace, Option.some.injEq, exists_eq_left']
    split
    next h => simp [h, throw, throwThe, MonadExceptOf.throw]
    next h => simp [h, throw, throwThe, MonadExceptOf.throw]
    next h => simp [h, pure, Except.pure]

theorem contents_of_read (h : t.read p = .ok bytes) : t.contents p = bytes := by
  obtain ⟨parts, hplace, hentry⟩ := read_ok_iff.mp h
  rw [contents_of_place hplace, bytesAt, hentry]

theorem read_of_contents (h : t.contents p ≠ []) : t.read p = .ok (t.contents p) := by
  cases hplace : t.place? p with
  | none => simp [contents, hplace] at h
  | some parts =>
    rw [contents_of_place hplace] at h ⊢
    refine read_ok_iff.mpr ⟨parts, hplace, ?_⟩
    unfold bytesAt at h ⊢
    split at h
    next bytes hentry => rw [hentry]
    next => exact absurd rfl h

theorem locate_null_iff : t.locate p = .error .nullInPath ↔ '\x00' ∈ p.text.toList := by
  unfold locate
  split
  next h => simp [h]
  next h =>
    simp only [h, iff_false]
    split
    · simp
    · cases t.follow _ p.parts <;> nofun

theorem read_null_iff : t.read p = .error .nullInPath ↔ '\x00' ∈ p.text.toList := by
  rw [← locate_null_iff (t := t)]
  unfold read
  cases t.locate p with
  | error e => simp [bind, Except.bind]
  | ok parts =>
    simp only [bind, Except.bind]
    split <;> simp [throw, throwThe, MonadExceptOf.throw, pure, Except.pure]

end Reading

section Directories

theorem toOption_follow (h : t.SameDirectories u) (done parts : List String) :
    (u.follow done parts).toOption = (t.follow done parts).toOption := by
  induction parts generalizing done with
  | nil => rfl
  | cons part rest ih =>
    have hdirectory := h done
    rw [follow, follow]
    cases hentry : t.entryAt done with
    | none =>
      cases hentry' : u.entryAt done with
      | none => rfl
      | some e => cases e <;> simp_all [Except.toOption]
    | some e =>
      cases e with
      | file bytes =>
        cases hentry' : u.entryAt done with
        | none => rfl
        | some e => cases e <;> simp_all [Except.toOption]
      | directory =>
        rw [hdirectory.mpr hentry]
        dsimp only
        split
        · rfl
        · exact ih _

theorem toOption_mapError {α ε ε' : Type} (f : ε → ε') (r : Except ε α) :
    (r.mapError f).toOption = r.toOption := by
  cases r <;> rfl

theorem place?_congr (h : t.SameDirectories u) (p : Path) : u.place? p = t.place? p := by
  have hfollow := toOption_follow h (if p.root = "" then [] else ["/"]) p.parts
  unfold place? locate
  split
  · rfl
  split
  · rfl
  · rw [toOption_mapError, toOption_mapError, hfollow]

theorem Writable.congr (h : t.SameDirectories u) (hp : t.Writable p) : u.Writable p := by
  obtain ⟨parts, hplace, hentry⟩ := hp
  exact ⟨parts, (place?_congr h p).trans hplace, fun hu => hentry ((h parts).mp hu)⟩

end Directories

section Updating

theorem entryAt_of_not_directory (h : t.entryAt parts ≠ some .directory) :
    isFixed parts = false := by
  unfold entryAt at h
  cases hfixed : isFixed parts with
  | true => exact absurd (if_pos hfixed) h
  | false => rfl

theorem entryAt_put (h : isFixed parts = false) (entry : FileEntry) (others : List String) :
    (t.put parts entry).entryAt others =
      if others = parts then some entry else t.entryAt others := by
  unfold entryAt
  by_cases heq : others = parts
  · subst heq
    rw [h, if_pos rfl]
    exact t.get?_put_self others entry
  · rw [if_neg heq, t.get?_put_of_ne entry (Ne.symm heq)]

theorem update_of_place (hplace : t.place? p = some parts)
    (hentry : t.entryAt parts ≠ some .directory) :
    t.update p change = .ok (t.put parts (.file (change (t.bytesAt parts)))) := by
  rw [update, place?_eq_some_iff.mp hplace]
  dsimp only [bind, Except.bind]
  unfold bytesAt
  split <;> simp_all [pure, Except.pure]

theorem update_ok_iff :
    t.update p change = .ok u ↔ ∃ parts, t.place? p = some parts ∧
      t.entryAt parts ≠ some .directory ∧ u = t.put parts (.file (change (t.bytesAt parts))) := by
  constructor
  · intro h
    cases hlocate : t.locate p with
    | error e =>
      rw [update, hlocate] at h
      cases h
    | ok parts =>
      have hplace : t.place? p = some parts := place?_eq_some_iff.mpr hlocate
      by_cases hentry : t.entryAt parts = some .directory
      · rw [update, hlocate] at h
        simp only [bind, Except.bind, hentry] at h
        cases h
      · rw [update_of_place hplace hentry] at h
        exact ⟨parts, hplace, hentry, (Except.ok.inj h).symm⟩
  · rintro ⟨parts, hplace, hentry, rfl⟩
    exact update_of_place hplace hentry

theorem exists_update_iff : (∃ u, t.update p change = .ok u) ↔ t.Writable p := by
  constructor
  · rintro ⟨u, hu⟩
    obtain ⟨parts, hplace, hentry, -⟩ := update_ok_iff.mp hu
    exact ⟨parts, hplace, hentry⟩
  · rintro ⟨parts, hplace, hentry⟩
    exact ⟨_, update_of_place hplace hentry⟩

theorem not_writable_of_error {e : FileError} (h : t.update p change = .error e) :
    ¬t.Writable p := by
  intro hwritable
  obtain ⟨u, hu⟩ := exists_update_iff.mpr hwritable
  cases h.symm.trans hu

theorem sameDirectories_of_update (h : t.update p change = .ok u) : t.SameDirectories u := by
  obtain ⟨parts, -, hentry, rfl⟩ := update_ok_iff.mp h
  intro others
  rw [entryAt_put (entryAt_of_not_directory hentry)]
  split
  next heq =>
    rw [heq]
    exact ⟨fun hfile => absurd hfile (by simp), fun hdirectory => absurd hdirectory hentry⟩
  next => rfl

theorem contents_of_update (h : t.update p change = .ok u) (q : Path) :
    u.contents q = if t.place? q = t.place? p then change (t.contents q) else t.contents q := by
  have hplaces := place?_congr (sameDirectories_of_update h) q
  obtain ⟨parts, hplace, hentry, rfl⟩ := update_ok_iff.mp h
  have hput := entryAt_put (t := t) (entryAt_of_not_directory hentry)
    (.file (change (t.bytesAt parts)))
  unfold contents
  rw [hplaces, hplace]
  cases hq : t.place? q with
  | none => rfl
  | some others =>
    simp only [Option.map_some, Option.getD_some, Option.some.injEq]
    by_cases heq : others = parts
    · subst heq
      rw [if_pos rfl, bytesAt, hput, if_pos rfl]
    · rw [if_neg heq, bytesAt, hput, if_neg heq, bytesAt]

theorem read_of_update (h : t.update p change = .ok u) :
    u.read p = .ok (change (t.contents p)) := by
  have hplaces := place?_congr (sameDirectories_of_update h) p
  obtain ⟨parts, hplace, hentry, rfl⟩ := update_ok_iff.mp h
  refine read_ok_iff.mpr ⟨parts, hplaces.trans hplace, ?_⟩
  rw [entryAt_put (entryAt_of_not_directory hentry), if_pos rfl, contents_of_place hplace]

theorem update_update {later : List UInt8 → List UInt8} (h : t.update p change = .ok u) :
    u.update p later = t.update p (later ∘ change) := by
  have hplaces := place?_congr (sameDirectories_of_update h) p
  obtain ⟨parts, hplace, hentry, rfl⟩ := update_ok_iff.mp h
  have hput := entryAt_put (t := t) (entryAt_of_not_directory hentry)
    (.file (change (t.bytesAt parts))) parts
  rw [if_pos rfl] at hput
  rw [update_of_place (hplaces.trans hplace) (by simp [hput]), update_of_place hplace hentry,
    put_put, bytesAt, hput]
  rfl

theorem read_ok_iff_of_update (h : t.update p change = .ok u) (hq : t.place? q ≠ t.place? p) :
    u.read q = .ok bytes ↔ t.read q = .ok bytes := by
  have hplaces := place?_congr (sameDirectories_of_update h) q
  obtain ⟨parts, hplace, hentry, rfl⟩ := update_ok_iff.mp h
  rw [read_ok_iff, read_ok_iff, hplaces]
  refine exists_congr fun others => and_congr_right fun hothers => ?_
  have hne : others ≠ parts := by
    rintro rfl
    exact hq (hothers.trans hplace.symm)
  rw [entryAt_put (entryAt_of_not_directory hentry), if_neg hne]

theorem update_null_iff : t.update p change = .error .nullInPath ↔ '\x00' ∈ p.text.toList := by
  rw [← locate_null_iff (t := t)]
  unfold update
  cases t.locate p with
  | error e => simp [bind, Except.bind]
  | ok parts =>
    simp only [bind, Except.bind]
    split <;> simp [throw, throwThe, MonadExceptOf.throw, pure, Except.pure]

end Updating

end WordMachine.FileTree
