import Mathlib.Data.List.DropRight
import WordMachine.Text.Blank

/-!
The words of composed texts. Everything follows from one equation: a blank separates the words
before it from those behind it.
-/
namespace WordMachine.Text

variable {c : Char} {word : List Char}

theorem takeWhile_append_of_neg {p : Char → Bool} (hc : p c = false) (x y : List Char) :
    (x ++ c :: y).takeWhile p = x.takeWhile p := by
  induction x with
  | nil => simp [hc]
  | cons d x ih => simp only [List.cons_append, List.takeWhile_cons, ih]

theorem dropWhile_append_of_neg {p : Char → Bool} (hc : p c = false) (x y : List Char) :
    (x ++ c :: y).dropWhile p = x.dropWhile p ++ c :: y := by
  induction x with
  | nil => simp [hc]
  | cons d x ih =>
    simp only [List.cons_append, List.dropWhile_cons, ih]
    split <;> rfl

theorem words_nil : words [] = [] := by
  rw [words.eq_def]

theorem words_cons_blank (hc : isBlank c = true) (y : List Char) : words (c :: y) = words y := by
  rw [words.eq_def]
  exact if_pos hc

theorem words_cons (hc : isBlank c = false) (y : List Char) : words (c :: y) =
    (c :: y.takeWhile (!isBlank ·)) :: words (y.dropWhile (!isBlank ·)) := by
  have hn : ¬isBlank c = true := by rw [hc]; decide
  rw [words.eq_def]
  exact if_neg hn

theorem words_word_append {name : List Char} (hne : name ≠ [])
    (h : ∀ c ∈ name, isBlank c = false) (y : List Char) : words (name ++ y) =
      (name ++ y.takeWhile (!isBlank ·)) :: words (y.dropWhile (!isBlank ·)) := by
  obtain ⟨c, name, rfl⟩ := List.exists_cons_of_ne_nil hne
  have hname : ∀ d ∈ name, (!isBlank d) = true := fun d hd => by
    rw [h d (List.mem_cons_of_mem _ hd), Bool.not_false]
  rw [List.cons_append, words_cons (h c List.mem_cons_self), List.takeWhile_append_of_pos hname,
    List.dropWhile_append_of_pos hname, List.cons_append]

theorem words_append_blank (hc : isBlank c = true) (x y : List Char) :
    words (x ++ c :: y) = words x ++ words y := by
  fun_induction words x with
  | case1 => exact words_cons_blank hc y
  | case2 d x hd ih => rw [List.cons_append, words_cons_blank hd, ih]
  | case3 d x hd ih =>
    have hstop : (!isBlank c) = false := by rw [hc, Bool.not_true]
    rw [List.cons_append, words_cons (Bool.of_not_eq_true hd),
      takeWhile_append_of_neg hstop, dropWhile_append_of_neg hstop, ih, List.cons_append]

theorem words_eq_nil {text : List Char} (h : ∀ c ∈ text, isBlank c = true) : words text = [] := by
  induction text with
  | nil => exact words_nil
  | cons c text ih =>
    rw [words_cons_blank (h c List.mem_cons_self)]
    exact ih fun d hd => h d (List.mem_cons_of_mem _ hd)

theorem words_append_blanks {blanks : List Char} (h : ∀ c ∈ blanks, isBlank c = true)
    (text : List Char) : words (text ++ blanks) = words text := by
  cases blanks with
  | nil => rw [List.append_nil]
  | cons c blanks =>
    have hrest := words_eq_nil fun d hd => h d (List.mem_cons_of_mem _ hd)
    rw [words_append_blank (h c List.mem_cons_self), hrest, List.append_nil]

/-- Two texts that no word goes across have the words of the one and those of the other. -/
theorem words_append {x y : List Char}
    (h : (∀ c ∈ x.getLast?, isBlank c = true) ∨ ∀ c ∈ y.head?, isBlank c = true) :
    words (x ++ y) = words x ++ words y := by
  obtain h | h := h
  · obtain rfl | ⟨x, c, rfl⟩ := List.eq_nil_or_concat x
    · rw [words_nil, List.nil_append, List.nil_append]
    · rw [List.concat_eq_append] at h ⊢
      have hc : isBlank c = true := h c List.getLast?_concat
      rw [List.append_assoc, List.singleton_append, words_append_blank hc, words_append_blank hc,
        words_nil, List.append_nil]
  · cases y with
    | nil => rw [words_nil, List.append_nil, List.append_nil]
    | cons c y =>
      have hc : isBlank c = true := h c rfl
      rw [words_append_blank hc, words_cons_blank hc]

theorem words_blanks_append {blanks : List Char} (h : ∀ c ∈ blanks, isBlank c = true)
    (text : List Char) : words (blanks ++ text) = words text := by
  have hlast : ∀ c ∈ blanks.getLast?, isBlank c = true := fun c hc => h c (List.mem_of_getLast? hc)
  rw [words_append (.inl hlast), words_eq_nil h, List.nil_append]

theorem words_insert {x y blanks : List Char} (hblanks : ∀ c ∈ blanks, isBlank c = true)
    (h : (∀ c ∈ x.getLast?, isBlank c = true) ∨ ∀ c ∈ y.head?, isBlank c = true) :
    words (x ++ blanks ++ y) = words (x ++ y) := by
  rw [words_append h]
  obtain h | h := h
  · rw [List.append_assoc, words_append (.inl h), words_blanks_append hblanks]
  · rw [words_append (.inr h), words_append_blanks hblanks]

theorem words_eq_singleton (hne : word ≠ []) (h : ∀ c ∈ word, isBlank c = false) :
    words word = [word] := by
  obtain ⟨c, rest, rfl⟩ := List.exists_cons_of_ne_nil hne
  have hrest : ∀ d ∈ rest, (!isBlank d) = true := fun d hd => by
    rw [h d (List.mem_cons_of_mem _ hd), Bool.not_false]
  rw [words_cons (h c List.mem_cons_self), List.takeWhile_eq_self_iff.mpr hrest,
    List.dropWhile_eq_nil_iff.mpr hrest, words_nil]

theorem words_cons_word (hne : word ≠ []) (h : ∀ c ∈ word, isBlank c = false)
    (hc : isBlank c = true) (y : List Char) : words (word ++ c :: y) = word :: words y := by
  rw [words_append_blank hc, words_eq_singleton hne h, List.singleton_append]

theorem words_intercalate (hc : isBlank c = true) {pieces : List (List Char)}
    (h : ∀ piece ∈ pieces, piece ≠ [] ∧ ∀ d ∈ piece, isBlank d = false) :
    words ([c].intercalate pieces) = pieces := by
  induction pieces with
  | nil => exact words_nil
  | cons piece rest ih =>
    obtain ⟨hne, hpiece⟩ := h piece List.mem_cons_self
    have hrest := ih fun q hq => h q (List.mem_cons_of_mem _ hq)
    cases rest with
    | nil =>
      rw [List.intercalate_singleton]
      exact words_eq_singleton hne hpiece
    | cons next rest =>
      rw [List.intercalate_cons_cons, List.append_assoc, List.singleton_append,
        words_cons_word hne hpiece hc, hrest]

theorem mem_of_mem_intercalate {d : Char} {pieces : List (List Char)}
    (h : d ∈ [c].intercalate pieces) : d = c ∨ ∃ piece ∈ pieces, d ∈ piece := by
  induction pieces with
  | nil => contradiction
  | cons piece rest ih =>
    cases rest with
    | nil =>
      rw [List.intercalate_singleton] at h
      exact .inr ⟨piece, List.mem_cons_self, h⟩
    | cons next rest =>
      rw [List.intercalate_cons_cons, List.append_assoc, List.singleton_append] at h
      rcases List.mem_append.mp h with h | h
      · exact .inr ⟨piece, List.mem_cons_self, h⟩
      · rcases List.mem_cons.mp h with rfl | h
        · exact .inl rfl
        · exact (ih h).imp_right fun ⟨q, hq, hd⟩ => ⟨q, List.mem_cons_of_mem _ hq, hd⟩

theorem trimRight_append (hc : isBlank c = false) (x y : List Char) :
    trimRight (x ++ c :: y) = x ++ c :: trimRight y := by
  unfold trimRight
  rw [List.reverse_append, List.reverse_cons, List.append_assoc, List.singleton_append,
    dropWhile_append_of_neg hc, List.reverse_append, List.reverse_cons, List.reverse_reverse,
    List.append_assoc, List.singleton_append]

theorem words_trimRight (text : List Char) : words (trimRight text) = words text := by
  induction text using List.reverseRecOn with
  | nil => rfl
  | append_singleton text c ih =>
    cases hc : isBlank c with
    | false =>
      rw [trimRight_append hc]
      rfl
    | true =>
      have htrim : trimRight (text ++ [c]) = trimRight text := List.rdropWhile_concat_pos _ _ _ hc
      rw [htrim, ih, words_append_blank hc, words_nil, List.append_nil]

end WordMachine.Text
