import Mathlib.Data.List.DropRight
import Mathlib.Logic.Relation
import WordMachine.Proofs.AssemblySource
import WordMachine.Proofs.NumeralText

/-!
The layout of an assembly source. What a source gives depends on the words of its statements alone,
read without regard to the case of mnemonics and of the letter of a register. So blank statements,
blanks around words and these letters can be changed as one likes.
-/
namespace WordMachine.Listing

open Text

variable {a b s t blanks : List Char}

def isBreak (c : Char) : Bool := isBlank c || isSeparator c

/-- A statement begins behind a text: it is empty or ends in a separator. -/
def BeginsBehind (a : List Char) : Prop := ∀ c ∈ a.getLast?, isSeparator c = true

def EndsBefore (b : List Char) : Prop := ∀ c ∈ b.head?, isSeparator c = true

/-- A word can begin behind a text. -/
def WordBehind (a : List Char) : Prop := ∀ c ∈ a.getLast?, isBreak c = true

def WordBefore (b : List Char) : Prop := ∀ c ∈ b.head?, isBreak c = true

def IsSpacing (blanks : List Char) : Prop := ∀ c ∈ blanks, isBlank c = true ∧ c ≠ '\n'

/-- What can be done to a source without a change of what it says: blanks are put where no word goes
on, a blank statement before or behind another one, and a mnemonic or the letter of a register in
other case. -/
inductive Respells : List Char → List Char → Prop where
  | spacing {a b blanks : List Char} : WordBehind a ∨ WordBefore b → IsSpacing blanks →
      Respells (a ++ b) (a ++ blanks ++ b)
  | statementBefore {a b blanks : List Char} {sep : Char} : BeginsBehind a → IsSpacing blanks →
      isSeparator sep = true → Respells (a ++ b) (a ++ (blanks ++ sep :: b))
  | statementBehind {a b blanks : List Char} {sep : Char} : EndsBefore b → IsSpacing blanks →
      isSeparator sep = true → Respells (a ++ b) (a ++ sep :: blanks ++ b)
  | mnemonic {a b blanks name name' : List Char} : BeginsBehind a → IsSpacing blanks →
      (∀ c ∈ name, isBreak c = false) → name'.map Char.toLower = name.map Char.toLower →
      Respells (a ++ (blanks ++ name ++ b)) (a ++ (blanks ++ name' ++ b))
  | letter {a b : List Char} : WordBehind a → Respells (a ++ 'R' :: b) (a ++ 'r' :: b)

section Phrases

def phrases (source : List Char) : List (List (List Char)) :=
  ((statements source).map words).filter (· ≠ [])

theorem phrases_nil : phrases [] = [] := by
  have hstatements : statements [] = [[]] := rfl
  simp [phrases, hstatements, words_nil]

theorem phrases_append_separator {sep : Char} (h : isSeparator sep = true) (a b : List Char) :
    phrases (a ++ sep :: b) = phrases a ++ phrases b := by
  rw [phrases, statements_append h, List.map_append, List.filter_append]
  rfl

theorem phrases_cons_separator {sep : Char} (h : isSeparator sep = true) (b : List Char) :
    phrases (sep :: b) = phrases b := by
  have happend := phrases_append_separator h [] b
  rwa [phrases_nil] at happend

theorem phrases_behind (h : BeginsBehind a) (t : List Char) :
    phrases (a ++ t) = phrases a ++ phrases t := by
  obtain rfl | ⟨a, sep, rfl⟩ := List.eq_nil_or_concat a
  · rw [phrases_nil, List.nil_append, List.nil_append]
  · rw [List.concat_eq_append] at h ⊢
    have hsep : isSeparator sep = true := h sep List.getLast?_concat
    rw [List.append_assoc, List.singleton_append, phrases_append_separator hsep,
      phrases_append_separator hsep, phrases_nil, List.append_nil]

theorem phrases_before (h : EndsBefore b) (t : List Char) :
    phrases (t ++ b) = phrases t ++ phrases b := by
  cases b with
  | nil => rw [phrases_nil, List.append_nil, List.append_nil]
  | cons sep b =>
    have hsep : isSeparator sep = true := h sep rfl
    rw [phrases_append_separator hsep, phrases_cons_separator hsep]

theorem phrases_of_statement (h : ∀ c ∈ t, isSeparator c = false) :
    phrases t = [words t].filter (· ≠ []) := by
  rw [phrases, statements_eq_singleton h, List.map_singleton]

theorem not_separator_of_blank {c : Char} (h : isBlank c = true) (hc : c ≠ '\n') :
    isSeparator c = false := by
  have hsemicolon : c ≠ ';' := by
    rintro rfl
    contradiction
  simp [isSeparator, hc, hsemicolon]

theorem IsSpacing.blank (h : IsSpacing blanks) : ∀ c ∈ blanks, isBlank c = true :=
  fun c hc => (h c hc).1

theorem IsSpacing.not_separator (h : IsSpacing blanks) : ∀ c ∈ blanks, isSeparator c = false :=
  fun c hc => not_separator_of_blank (h c hc).1 (h c hc).2

theorem phrases_spacing (h : IsSpacing blanks) : phrases blanks = [] := by
  rw [phrases_of_statement h.not_separator, words_eq_nil h.blank]
  rfl

theorem exists_behind (a : List Char) : ∃ front last, a = front ++ last ∧ BeginsBehind front ∧
    ∀ c ∈ last, isSeparator c = false := by
  refine ⟨a.rdropWhile (!isSeparator ·), a.rtakeWhile (!isSeparator ·),
    List.rdropWhile_append_rtakeWhile.symm, fun c hc => ?_, fun c hc => ?_⟩
  · have hne : a.rdropWhile (!isSeparator ·) ≠ [] := by
      intro hnil
      rw [hnil] at hc
      contradiction
    obtain rfl := Option.some.inj ((List.getLast?_eq_some_getLast hne).symm.trans hc)
    simpa using List.rdropWhile_last_not (!isSeparator ·) a hne
  · simpa using List.mem_rtakeWhile_imp hc

theorem exists_before (b : List Char) : ∃ first back, b = first ++ back ∧ EndsBefore back ∧
    ∀ c ∈ first, isSeparator c = false := by
  refine ⟨b.takeWhile (!isSeparator ·), b.dropWhile (!isSeparator ·),
    List.takeWhile_append_dropWhile.symm, fun c hc => ?_, fun c hc => ?_⟩
  · have hnot := List.head?_dropWhile_not (!isSeparator ·) b
    rw [Option.mem_def.mp hc] at hnot
    simpa using hnot
  · simpa using List.all_eq_true.mp List.all_takeWhile c hc

end Phrases

section Layout

def foldLetter : List Char → List Char
  | 'r' :: rest => 'R' :: rest
  | text => text

def foldCase : List (List Char) → List (List Char)
  | [] => []
  | name :: operands => lowerAscii name :: operands.map foldLetter

/-- What is left of a source without its layout. -/
def layout (source : List Char) : List (List (List Char)) := (phrases source).map foldCase

theorem layout_within (ha : BeginsBehind a) (hb : EndsBefore b) (t : List Char) :
    layout (a ++ (t ++ b)) = layout a ++ layout t ++ layout b := by
  rw [layout, phrases_behind ha, phrases_before hb, List.map_append, List.map_append,
    ← List.append_assoc]
  rfl

theorem layout_congr (hs : ∀ c ∈ s, isSeparator c = false) (ht : ∀ c ∈ t, isSeparator c = false)
    (h : foldCase (words s) = foldCase (words t)) : layout s = layout t := by
  rw [layout, layout, phrases_of_statement hs, phrases_of_statement ht]
  generalize words s = ws at h ⊢
  generalize words t = ws' at h ⊢
  cases ws with
  | nil =>
    cases ws' with
    | nil => rfl
    | cons => cases h
  | cons =>
    cases ws' with
    | nil => cases h
    | cons =>
      rw [List.filter_cons_of_pos (by simp), List.filter_cons_of_pos (by simp), List.filter_nil,
        List.map_singleton, List.map_singleton, h]

theorem foldCase_letter (before : List (List Char)) (digits : List Char)
    (behind : List (List Char)) : foldCase (before ++ ('R' :: digits) :: behind) =
      foldCase (before ++ ('r' :: digits) :: behind) := by
  cases before with
  | nil => rfl
  | cons name operands =>
    simp only [List.cons_append, foldCase, List.map_append, List.map_cons]
    rfl

theorem toLower_cases {p : Char → Prop} (c : Char) (hsame : c.toLower = c → p c)
    (hcapital : ∀ n < 91, 65 ≤ n → p (Char.ofNat n)) : p c := by
  by_cases hrange : 'A'.val ≤ c.val ∧ c.val ≤ 'Z'.val
  · have hbounds : 65 ≤ c.toNat ∧ c.toNat ≤ 90 := hrange
    have hc := hcapital c.toNat (by omega) hbounds.1
    rwa [Char.ofNat_toNat] at hc
  · exact hsame (dif_neg hrange)

theorem isBreak_toLower (c : Char) : isBreak c.toLower = isBreak c :=
  toLower_cases (p := fun c => isBreak c.toLower = isBreak c) c (congrArg isBreak) (by decide)

theorem toLower_toLower (c : Char) : c.toLower.toLower = c.toLower :=
  toLower_cases (p := fun c => c.toLower.toLower = c.toLower) c (congrArg Char.toLower) (by decide)

theorem not_break_of_toLower {name name' : List Char} (hname : ∀ c ∈ name, isBreak c = false)
    (h : name'.map Char.toLower = name.map Char.toLower) : ∀ c ∈ name', isBreak c = false := by
  intro c hc
  have hmem : c.toLower ∈ name.map Char.toLower := h ▸ List.mem_map_of_mem hc
  obtain ⟨d, hd, hsame⟩ := List.mem_map.mp hmem
  rw [← isBreak_toLower, ← hsame, isBreak_toLower]
  exact hname d hd

theorem not_blank_of_not_break {c : Char} (h : isBreak c = false) : isBlank c = false :=
  (Bool.or_eq_false_iff.mp h).1

theorem not_separator_of_not_break {c : Char} (h : isBreak c = false) : isSeparator c = false :=
  (Bool.or_eq_false_iff.mp h).2

theorem blank_of_break {c : Char} (h : isBreak c = true) (hc : isSeparator c = false) :
    isBlank c = true := by
  rwa [isBreak, hc, Bool.or_false] at h

theorem blank_last {front last : List Char} (h : WordBehind (front ++ last))
    (hlast : ∀ c ∈ last, isSeparator c = false) : ∀ c ∈ last.getLast?, isBlank c = true := by
  intro c hc
  have hmem : c ∈ (front ++ last).getLast? := by
    rw [List.getLast?_append, Option.mem_def.mp hc]
    rfl
  exact blank_of_break (h c hmem) (hlast c (List.mem_of_getLast? hc))

theorem blank_first {first back : List Char} (h : WordBefore (first ++ back))
    (hfirst : ∀ c ∈ first, isSeparator c = false) : ∀ c ∈ first.head?, isBlank c = true := by
  intro c hc
  have hmem : c ∈ (first ++ back).head? := by
    rw [List.head?_append, Option.mem_def.mp hc]
    rfl
  exact blank_of_break (h c hmem) (hfirst c (List.mem_of_head? hc))

theorem layout_spacing (h : IsSpacing blanks) (hborder : WordBehind a ∨ WordBefore b) :
    layout (a ++ blanks ++ b) = layout (a ++ b) := by
  obtain ⟨front, last, rfl, hfront, hlast⟩ := exists_behind a
  obtain ⟨first, back, rfl, hback, hfirst⟩ := exists_before b
  have hblank : (∀ c ∈ last.getLast?, isBlank c = true) ∨ ∀ c ∈ first.head?, isBlank c = true :=
    hborder.imp (blank_last · hlast) (blank_first · hfirst)
  have hinside : layout (last ++ blanks ++ first) = layout (last ++ first) := by
    refine layout_congr ?_ ?_ (congrArg foldCase (words_insert h.blank hblank))
    · exact List.forall_mem_append.mpr
        ⟨List.forall_mem_append.mpr ⟨hlast, h.not_separator⟩, hfirst⟩
    · exact List.forall_mem_append.mpr ⟨hlast, hfirst⟩
  have hspaced := layout_within hfront hback (last ++ blanks ++ first)
  have hplain := layout_within hfront hback (last ++ first)
  simp only [List.append_assoc] at hspaced hplain hinside ⊢
  rw [hspaced, hplain, hinside]

theorem layout_name {name name' : List Char} (ha : BeginsBehind a) (h : IsSpacing blanks)
    (hname : ∀ c ∈ name, isBreak c = false)
    (hsame : name'.map Char.toLower = name.map Char.toLower) :
    layout (a ++ (blanks ++ name ++ b)) = layout (a ++ (blanks ++ name' ++ b)) := by
  obtain ⟨first, back, rfl, hback, hfirst⟩ := exists_before b
  have hname' := not_break_of_toLower hname hsame
  have hwords {word : List Char} (hne : word ≠ []) (hword : ∀ c ∈ word, isBreak c = false) :
      words (blanks ++ word ++ first) = (word ++ first.takeWhile (!isBlank ·)) ::
        words (first.dropWhile (!isBlank ·)) := by
    rw [List.append_assoc, words_blanks_append h.blank]
    exact words_word_append hne (fun c hc => not_blank_of_not_break (hword c hc)) first
  have hinside : foldCase (words (blanks ++ name ++ first)) =
      foldCase (words (blanks ++ name' ++ first)) := by
    by_cases hne : name = []
    · subst hne
      rw [List.map_nil, List.map_eq_nil_iff] at hsame
      rw [hsame]
    · have hne' : name' ≠ [] := by
        rintro rfl
        exact hne (List.map_eq_nil_iff.mp hsame.symm)
      rw [hwords hne hname, hwords hne' hname']
      simp only [foldCase, lowerAscii, List.map_append, hsame]
  have hstatement {word : List Char} (hword : ∀ c ∈ word, isBreak c = false) :
      ∀ c ∈ blanks ++ word ++ first, isSeparator c = false :=
    List.forall_mem_append.mpr ⟨List.forall_mem_append.mpr
      ⟨h.not_separator, fun c hc => not_separator_of_not_break (hword c hc)⟩, hfirst⟩
  have hlayout := layout_congr (hstatement hname) (hstatement hname') hinside
  have hread := layout_within ha hback (blanks ++ name ++ first)
  have hread' := layout_within ha hback (blanks ++ name' ++ first)
  simp only [List.append_assoc] at hread hread' hlayout ⊢
  rw [hread, hread', hlayout]

theorem layout_letter (ha : WordBehind a) : layout (a ++ 'R' :: b) = layout (a ++ 'r' :: b) := by
  obtain ⟨front, last, rfl, hfront, hlast⟩ := exists_behind a
  obtain ⟨first, back, rfl, hback, hfirst⟩ := exists_before b
  have hborder := blank_last ha hlast
  have hstatement {letter : Char} (hletter : isSeparator letter = false) :
      ∀ c ∈ last ++ letter :: first, isSeparator c = false :=
    List.forall_mem_append.mpr ⟨hlast, List.forall_mem_cons.mpr ⟨hletter, hfirst⟩⟩
  have hlayout : layout (last ++ 'R' :: first) = layout (last ++ 'r' :: first) := by
    refine layout_congr (hstatement (by decide)) (hstatement (by decide)) ?_
    rw [words_append (.inl hborder), words_append (.inl hborder), words_cons (by decide),
      words_cons (by decide)]
    exact foldCase_letter _ _ _
  have hread := layout_within hfront hback (last ++ 'R' :: first)
  have hread' := layout_within hfront hback (last ++ 'r' :: first)
  simp only [List.append_assoc, List.cons_append] at hread hread' ⊢
  rw [hread, hread', hlayout]

/-- Texts that are spelled differently have the same layout. -/
theorem Respells.layout_eq (h : Respells s t) : layout s = layout t := by
  cases h with
  | spacing hborder hspacing => exact (layout_spacing hspacing hborder).symm
  | statementBefore ha hspacing hsep =>
    simp only [layout, phrases_behind ha, phrases_append_separator hsep, phrases_spacing hspacing,
      List.nil_append]
  | statementBehind hb hspacing hsep =>
    simp only [layout, phrases_before hb, phrases_append_separator hsep, phrases_spacing hspacing,
      List.append_nil]
  | mnemonic ha hspacing hname hsame => exact layout_name ha hspacing hname hsame
  | letter ha => exact layout_letter ha

end Layout

section Meaning

def phraseWords : List (List Char) → Except AssemblyError (List Int)
  | [] => .ok []
  | name :: operands =>
    match Opcode.ofMnemonic? (String.ofList (lowerAscii name)) with
    | none => .error (.unknownMnemonic (String.ofList name))
    | some op => do
      unless operands.length = op.arity do throw (.operandCount op operands.length)
      return op.code :: (← operands.mapM operand)

theorem statementWords_eq (statement : List Char) :
    statementWords statement = phraseWords (words statement) := rfl

theorem toOption_bind {ε α β : Type} (x : Except ε α) (k : α → Except ε β) :
    (x >>= k).toOption = x.toOption >>= fun v => (k v).toOption := by
  cases x <;> rfl

theorem toOption_mapM {ε α β : Type} (f : α → Except ε β) (xs : List α) :
    (xs.mapM f).toOption = xs.mapM fun x => (f x).toOption := by
  induction xs with
  | nil => rfl
  | cons x xs ih =>
    simp only [List.mapM_cons, toOption_bind, ih]
    rfl

theorem toOption_operand_foldLetter (text : List Char) :
    (operand (foldLetter text)).toOption = (operand text).toOption := by
  unfold foldLetter
  split
  next rest =>
    rw [operand_of_letter (.inl rfl), operand_of_letter (.inr rfl), toOption_bind, toOption_bind]
    congr 1
    funext index
    split <;> rfl
  next => rfl

theorem lowerAscii_lowerAscii (name : List Char) :
    lowerAscii (lowerAscii name) = lowerAscii name := by
  simp only [lowerAscii, List.map_map, Function.comp_def, toLower_toLower]

theorem toOption_phraseWords_foldCase (phrase : List (List Char)) :
    (phraseWords (foldCase phrase)).toOption = (phraseWords phrase).toOption := by
  cases phrase with
  | nil => rfl
  | cons name operands =>
    simp only [foldCase, phraseWords, lowerAscii_lowerAscii, List.length_map]
    cases Opcode.ofMnemonic? (String.ofList (lowerAscii name)) with
    | none => rfl
    | some op =>
      dsimp only
      split
      · simp only [toOption_bind, toOption_mapM, List.mapM_map, Function.comp_def,
          toOption_operand_foldLetter]
      · rfl

theorem flatten_mapM_filter {α β : Type} {f : List α → Option (List β)} (hf : f [] = pure [])
    (xs : List (List α)) : (do return (← xs.mapM f).flatten) =
      (do return (← (xs.filter (· ≠ [])).mapM f).flatten : Option (List β)) := by
  induction xs with
  | nil => rfl
  | cons x xs ih =>
    have hrest (y : List β) (zs : List (List α)) :
        (do return (y :: (← zs.mapM f)).flatten) = (do
          let ys ← (do return (← zs.mapM f).flatten)
          return y ++ ys : Option (List β)) := by
      simp only [bind_assoc, pure_bind, List.flatten_cons]
    by_cases hx : x = []
    · subst hx
      rw [List.filter_cons_of_neg (by simp), ← ih, List.mapM_cons, hf]
      simp only [pure_bind, bind_assoc, List.flatten_cons, List.nil_append]
    · rw [List.filter_cons_of_pos (by simpa using hx), List.mapM_cons, List.mapM_cons]
      simp only [bind_assoc, pure_bind, hrest, ih]

/-- What a source gives, if it is accepted, depends on what is left of it without its layout. -/
theorem toOption_assemble (source : List Char) : (assemble source).toOption = do
    return (← (layout source).mapM fun phrase => (phraseWords phrase).toOption).flatten := by
  have hwords : (assemble source).toOption = do
      return (← ((statements source).map words).mapM
        fun phrase => (phraseWords phrase).toOption).flatten := by
    simp only [assemble, toOption_bind, toOption_mapM, List.mapM_map]
    rfl
  rw [hwords, flatten_mapM_filter (f := fun phrase => (phraseWords phrase).toOption) rfl, layout,
    List.mapM_map]
  simp only [Function.comp_def, toOption_phraseWords_foldCase]
  rfl

end Meaning

end WordMachine.Listing
