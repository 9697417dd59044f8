import WordMachine.FileTree

/-!
Paths as texts. A path that has been read from a text is read back from the text it is written as,
and so is the path without its steps that are undone again.
-/
namespace WordMachine.Path

variable {p : Path} {part : String} {parts : List String}

structure IsPart (part : String) : Prop where
  ne_empty : part ≠ ""
  ne_point : part ≠ "."
  no_slash : '/' ∉ part.toList

structure Proper (p : Path) : Prop where
  root : p.root = "" ∨ p.root = "/" ∨ p.root = "//"
  parts : ∀ part ∈ p.parts, IsPart part

section Cutting

theorem partsFrom_eq (part text : List Char) :
    partsFrom part text = (List.splitOnPPrepend (· == '/') text part).map String.ofList := by
  induction text generalizing part with
  | nil => simp [partsFrom, List.splitOnPPrepend]
  | cons c rest ih =>
    by_cases hc : c = '/' <;> simp [partsFrom, List.splitOnPPrepend, hc, ih]

theorem no_slash_of_mem_partsFrom {read text : List Char} (hread : '/' ∉ read)
    (h : part ∈ partsFrom read text) : '/' ∉ part.toList := by
  induction text generalizing read with
  | nil =>
    obtain rfl := List.mem_singleton.mp h
    simpa using hread
  | cons c rest ih =>
    rw [partsFrom] at h
    split at h
    next hc =>
      obtain rfl | h := List.mem_cons.mp h
      · simpa using hread
      · exact ih List.not_mem_nil h
    next hc => exact ih (fun hmem => (List.mem_cons.mp hmem).elim (hc ∘ Eq.symm) hread) h

theorem partsFrom_intercalate (h : ∀ part ∈ parts, IsPart part) :
    (partsFrom [] (['/'].intercalate (parts.map String.toList))).filter
      (fun part => part ≠ "" ∧ part ≠ ".") = parts := by
  by_cases hnone : parts = []
  · rw [hnone]
    rfl
  · have hslash : ∀ text ∈ parts.map String.toList, '/' ∉ text := by
      intro text htext
      obtain ⟨part, hpart, rfl⟩ := List.mem_map.mp htext
      exact (h part hpart).no_slash
    have hcut := List.splitOn_intercalate '/' hslash (by simpa using hnone)
    rw [List.splitOn, List.splitOnP] at hcut
    rw [partsFrom_eq, hcut, List.map_map, List.filter_eq_self.mpr]
    · simp [Function.comp_def]
    · intro part hpart
      have hmem : part ∈ parts := by simpa using hpart
      simpa using ⟨(h part hmem).ne_empty, (h part hmem).ne_point⟩

end Cutting

theorem Proper.ofText (text : String) : (ofText text).Proper where
  root := by
    show rootOf text.toList = "" ∨ rootOf text.toList = "/" ∨ rootOf text.toList = "//"
    unfold rootOf
    split <;> simp
  parts := by
    intro part hpart
    obtain ⟨hmem, hkept⟩ := List.mem_filter.mp hpart
    have hkept : part ≠ "" ∧ part ≠ "." := of_decide_eq_true hkept
    exact ⟨hkept.1, hkept.2, no_slash_of_mem_partsFrom List.not_mem_nil hmem⟩

theorem mem_of_mem_foldl_stepBack {root : String} {before : List String}
    (h : part ∈ parts.foldl (stepBack root) before) : part ∈ before ∨ part ∈ parts := by
  induction parts generalizing before with
  | nil => exact .inl h
  | cons first rest ih =>
    obtain hbefore | hrest := ih h
    · have hstep : part ∈ before ∨ part = first := by
        unfold stepBack at hbefore
        grind
      exact hstep.imp_right fun heq => List.mem_cons.mpr (.inl heq)
    · exact .inr (List.mem_cons_of_mem first hrest)

theorem Proper.collapse (h : p.Proper) : p.collapse.Proper where
  root := h.root
  parts part hpart := by
    obtain hnone | hpart := mem_of_mem_foldl_stepBack (List.mem_reverse.mp hpart)
    · exact absurd hnone List.not_mem_nil
    · exact h.parts part hpart

section Reading

variable {root : String} {body : List Char}

theorem rootOf_append (hroot : root = "" ∨ root = "/" ∨ root = "//")
    (hbody : body.head? ≠ some '/') : rootOf (root.toList ++ body) = root := by
  cases body with
  | nil => obtain rfl | rfl | rfl := hroot <;> rfl
  | cons c rest =>
    have hc : c ≠ '/' := by simpa using hbody
    obtain rfl | rfl | rfl := hroot <;> simp [rootOf, hc]

theorem partsFrom_root (hroot : root = "" ∨ root = "/" ∨ root = "//") :
    (partsFrom [] (root.toList ++ body)).filter (fun part => part ≠ "" ∧ part ≠ ".") =
      (partsFrom [] body).filter (fun part => part ≠ "" ∧ part ≠ ".") := by
  obtain rfl | rfl | rfl := hroot <;> simp [partsFrom]

theorem head?_intercalate (h : ∀ part ∈ parts, IsPart part) :
    (['/'].intercalate (parts.map String.toList)).head? ≠ some '/' := by
  cases parts with
  | nil => simp
  | cons first rest =>
    have hfirst := h first List.mem_cons_self
    obtain ⟨c, more, hmore⟩ := List.exists_cons_of_ne_nil
      (mt String.toList_eq_nil_iff.mp hfirst.ne_empty)
    have hmem : c ∈ first.toList := by
      rw [hmore]
      exact List.mem_cons_self
    have hc : c ≠ '/' := ne_of_mem_of_not_mem hmem hfirst.no_slash
    cases rest <;> simp [hmore, hc, List.intercalate_cons_cons]

/-- A path is read back from its text. -/
theorem Proper.ofText_text (h : p.Proper) : Path.ofText p.text = p := by
  obtain ⟨root, parts⟩ := p
  unfold Path.text
  split
  next hnone =>
    obtain ⟨rfl, rfl⟩ : root = "" ∧ parts = [] := hnone
    rfl
  next hsome =>
    have hparts := h.parts
    have htext : (root ++ "/".intercalate parts).toList =
        root.toList ++ ['/'].intercalate (parts.map String.toList) := by
      rw [String.toList_append, String.toList_intercalate]
      rfl
    rw [Path.ofText, htext, rootOf_append h.root (head?_intercalate hparts),
      partsFrom_root h.root, partsFrom_intercalate hparts]

end Reading

end WordMachine.Path
