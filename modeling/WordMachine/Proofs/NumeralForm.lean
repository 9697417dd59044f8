import Mathlib.Data.List.DropRight
import WordMachine.Proofs.DigitRuns
import WordMachine.Proofs.NumeralText

/-!
Numerals by their form. A numeral is a run of digits in decimal or behind the mark of another base;
it may have a sign, and white space may stand around it. Just these texts are read as numbers.
-/
namespace WordMachine.Text

variable {c zero mark : Char} {text core : List Char} {base n : Nat} {ds : List Nat} {x : Int}

/-- A numeral without a sign. In decimal it begins with a zero only if it is zero, and it has not
too many digits; the mark of another base stands after a zero and may have an underscore behind
it. -/
inductive Numeral : List Char → Nat → Prop where
  | decimal {text : List Char} {ds : List Nat} : Digits 10 text ds →
      (ds.head? = some 0 → Nat.ofDigits 10 ds.reverse = 0) → ds.length ≤ digitLimit →
      Numeral text (Nat.ofDigits 10 ds.reverse)
  | marked {zero mark : Char} {base : Nat} {text : List Char} {ds : List Nat} :
      figure? zero = some 0 → markedBase? mark = some base → Digits base text ds →
      Numeral (zero :: mark :: text) (Nat.ofDigits base ds.reverse)
  | spaced {zero mark : Char} {base : Nat} {text : List Char} {ds : List Nat} :
      figure? zero = some 0 → markedBase? mark = some base → Digits base text ds →
      Numeral (zero :: mark :: '_' :: text) (Nat.ofDigits base ds.reverse)

inductive SignedNumeral : List Char → Int → Prop where
  | bare {text : List Char} {n : Nat} : Numeral text n → SignedNumeral text n
  | plus {text : List Char} {n : Nat} : Numeral text n → SignedNumeral ('+' :: text) n
  | minus {text : List Char} {n : Nat} : Numeral text n → SignedNumeral ('-' :: text) (-n)

/-- The white space that may stand around a numeral: all but the separator controls. -/
def isMargin (c : Char) : Bool := isBlank c && !(0x1C ≤ c.toNat && c.toNat ≤ 0x1F)

/-- A text is this core with nothing but white space around it. -/
def Surrounds (text core : List Char) : Prop :=
  ∃ before after, text = before ++ core ++ after ∧
    (∀ c ∈ before, isMargin c = true) ∧ ∀ c ∈ after, isMargin c = true

theorem Surrounds.refl (text : List Char) : Surrounds text text :=
  ⟨[], [], (List.append_nil _).symm, nofun, nofun⟩

section Unsigned

theorem figure?_eq_zero_iff : figure? c = some 0 ↔ plainChar c = '0' := by
  constructor
  · intro h
    have hvalue := digitValue?_of_figure (show 1 ≤ 36 by decide) h (by decide)
    rw [digitValue?_eq, Option.filter_eq_some_iff] at hvalue
    have hcode : (plainChar c).toNat = '0'.toNat := by
      have hzero : '0'.toNat = 48 := rfl
      grind
    exact Char.toNat_inj.mp hcode
  · intro h
    have hvalue : digitValue? 1 (plainChar c) = some 0 := by rw [h]; rfl
    exact (figure?_of_digitValue? (by decide) hvalue).1

theorem exists_figure_of_mark (h : markedBase? mark = some base) :
    ∃ k, figure? mark = some k ∧ 10 ≤ k := by
  unfold markedBase? at h
  split_ifs at h with hx ho hb
  · obtain rfl | rfl := hx <;> exact ⟨33, rfl, by decide⟩
  · obtain rfl | rfl := ho <;> exact ⟨24, rfl, by decide⟩
  · obtain rfl | rfl := hb <;> exact ⟨11, rfl, by decide⟩

theorem Digits.not_marked (h : Digits 10 (zero :: mark :: text) ds) : markedBase? mark = none := by
  cases hbase : markedBase? mark with
  | none => rfl
  | some base =>
    obtain ⟨k, hmark, hk⟩ := exists_figure_of_mark hbase
    obtain rfl | ⟨k', hk', hmark'⟩ := h.of_mem (List.mem_cons_of_mem _ List.mem_cons_self)
    · cases hbase
    · obtain rfl := Option.some.inj (hmark.symm.trans hmark')
      omega

theorem digits?_afterMark_iff (hbase : base ≤ 36) (text : List Char) :
    digits? base (afterMark (text.map plainChar)) = some n ↔
      ∃ ds, (Digits base text ds ∨ ∃ rest, text = '_' :: rest ∧ Digits base rest ds) ∧
        n = Nat.ofDigits base ds.reverse := by
  by_cases hmark : ∃ rest, text = '_' :: rest
  · obtain ⟨rest, rfl⟩ := hmark
    have hnone (ds : List Nat) : ¬Digits base ('_' :: rest) ds := by
      intro h
      obtain ⟨c, cs, k, more, heq, -, hc, -⟩ := h.exists_first
      exact ne_underscore_of_figure hc (plainChar_eq_underscore.mpr (List.cons.inj heq).1.symm)
    rw [List.map_cons, plainChar_eq_underscore.mpr rfl, afterMark.eq_1,
      digits?_eq_some_iff hbase]
    simp [hnone]
  · have hsame : afterMark (text.map plainChar) = text.map plainChar := by
      refine afterMark.eq_2 _ fun rest heq => ?_
      obtain ⟨c, cs, rfl, hc, -⟩ := List.map_eq_cons_iff.mp heq
      exact hmark ⟨cs, by rw [plainChar_eq_underscore.mp hc]⟩
    rw [hsame, digits?_eq_some_iff hbase]
    refine exists_congr fun ds => and_congr_left fun _ => (or_iff_left ?_).symm
    rintro ⟨rest, rfl, -⟩
    exact hmark ⟨rest, rfl⟩

theorem orMalformed_ok_iff {r : Option Nat} : orMalformed r = .ok n ↔ r = some n := by
  cases r <;> simp [orMalformed]

theorem unsigned_of_mark (hzero : figure? zero = some 0) (hmark : markedBase? mark = some base)
    (rest : List Char) : unsigned .marked ((zero :: mark :: rest).map plainChar) =
      orMalformed (digits? base (afterMark (rest.map plainChar))) := by
  have hhead : (plainChar mark :: rest.map plainChar).head?.bind markedBase? = some base :=
    (markedBase?_plainChar mark).trans hmark
  rw [List.map_cons, List.map_cons, figure?_eq_zero_iff.mp hzero, unsigned.eq_4, hhead]
  rfl

theorem unsigned_of_zero (hzero : figure? zero = some 0) (rest : List Char)
    (hmark : ∀ mark ∈ rest.head?, markedBase? mark = none) :
    unsigned .marked ((zero :: rest).map plainChar) = .ok n ↔
      decimal ((zero :: rest).map plainChar) = .ok n ∧ n = 0 := by
  have hhead : (rest.map plainChar).head?.bind markedBase? = none := by
    cases rest with
    | nil => rfl
    | cons mark more => exact (markedBase?_plainChar mark).trans (hmark mark rfl)
  rw [List.map_cons, figure?_eq_zero_iff.mp hzero, unsigned.eq_4, hhead]
  cases decimal ('0' :: rest.map plainChar) with
  | error e => simp [bind, Except.bind]
  | ok m =>
    cases m with
    | zero => simp [bind, Except.bind, pure, Except.pure, eq_comm]
    | succ m =>
      simp only [bind, Except.bind, throw, throwThe, MonadExceptOf.throw, reduceCtorEq, false_iff,
        Except.ok.injEq]
      omega

theorem unsigned_of_first (hfirst : ∀ c ∈ text.head?, figure? c ≠ some 0) :
    unsigned .marked (text.map plainChar) = decimal (text.map plainChar) := by
  refine unsigned.eq_5 _ fun rest heq => ?_
  obtain ⟨c, cs, rfl, hc, -⟩ := List.map_eq_cons_iff.mp heq
  exact hfirst c rfl (figure?_eq_zero_iff.mpr hc)

theorem unsigned_marked_ok_iff (text : List Char) :
    unsigned .marked (text.map plainChar) = .ok n ↔ Numeral text n := by
  constructor
  · intro h
    cases text with
    | nil => cases h
    | cons zero rest =>
      by_cases hzero : figure? zero = some 0
      · cases hhead : rest.head?.bind markedBase? with
        | some base =>
          obtain ⟨mark, hrest, hmark⟩ := Option.bind_eq_some_iff.mp hhead
          obtain ⟨more, rfl⟩ := List.head?_eq_some_iff.mp hrest
          rw [unsigned_of_mark hzero hmark, orMalformed_ok_iff,
            digits?_afterMark_iff (markedBase?_le hmark)] at h
          obtain ⟨ds, hds | ⟨last, rfl, hds⟩, rfl⟩ := h
          · exact .marked hzero hmark hds
          · exact .spaced hzero hmark hds
        | none =>
          rw [unsigned_of_zero hzero rest (Option.bind_eq_none_iff.mp hhead)] at h
          obtain ⟨ds, hds, hlength, hn⟩ := (decimal_ok_iff _).mp h.1
          rw [hn]
          exact .decimal hds (fun _ => hn.symm.trans h.2) hlength
      · rw [unsigned_of_first (by simpa using hzero)] at h
        obtain ⟨ds, hds, hlength, rfl⟩ := (decimal_ok_iff _).mp h
        refine .decimal hds (fun hhead => absurd ?_ hzero) hlength
        obtain ⟨c, cs, k, more, heq, rfl, hc, -⟩ := hds.exists_first
        rw [(List.cons.inj heq).1, hc]
        exact hhead
  · intro h
    cases h with
    | decimal hds hlead hlength =>
      have hread := (decimal_ok_iff text).mpr ⟨_, hds, hlength, rfl⟩
      obtain ⟨c, cs, k, more, rfl, rfl, hc, -⟩ := hds.exists_first
      by_cases hk : k = 0
      · subst hk
        refine (unsigned_of_zero hc cs fun mark hmark => ?_).mpr ⟨hread, hlead rfl⟩
        obtain ⟨rest, rfl⟩ := List.head?_eq_some_iff.mp hmark
        exact hds.not_marked
      · rw [unsigned_of_first (by simpa [hc] using hk), hread]
    | marked hzero hmark hds =>
      rw [unsigned_of_mark hzero hmark, orMalformed_ok_iff,
        digits?_afterMark_iff (markedBase?_le hmark)]
      exact ⟨_, .inl hds, rfl⟩
    | spaced hzero hmark hds =>
      rw [unsigned_of_mark hzero hmark, orMalformed_ok_iff,
        digits?_afterMark_iff (markedBase?_le hmark)]
      exact ⟨_, .inr ⟨_, rfl, hds⟩, rfl⟩

theorem Numeral.characters (h : Numeral text n) :
    text ≠ [] ∧ ∀ c ∈ text, c = '_' ∨ ∃ k, figure? c = some k := by
  have hdigits {base : Nat} {cs : List Char} {ds : List Nat} (h : Digits base cs ds) :
      ∀ c ∈ cs, c = '_' ∨ ∃ k, figure? c = some k := fun c hc =>
    (h.of_mem hc).imp_right fun ⟨k, _, hfigure⟩ => ⟨k, hfigure⟩
  have hmark {mark : Char} {base : Nat} (h : markedBase? mark = some base) :
      mark = '_' ∨ ∃ k, figure? mark = some k :=
    have ⟨k, hfigure, _⟩ := exists_figure_of_mark h
    .inr ⟨k, hfigure⟩
  cases h with
  | decimal hds =>
    obtain ⟨c, cs, _, _, rfl, -⟩ := hds.exists_first
    exact ⟨List.cons_ne_nil _ _, hdigits hds⟩
  | marked hzero hbase hds =>
    exact ⟨List.cons_ne_nil _ _, List.forall_mem_cons.mpr
      ⟨.inr ⟨0, hzero⟩, List.forall_mem_cons.mpr ⟨hmark hbase, hdigits hds⟩⟩⟩
  | spaced hzero hbase hds =>
    exact ⟨List.cons_ne_nil _ _, List.forall_mem_cons.mpr
      ⟨.inr ⟨0, hzero⟩, List.forall_mem_cons.mpr ⟨hmark hbase,
        List.forall_mem_cons.mpr ⟨.inl rfl, hdigits hds⟩⟩⟩⟩

theorem Numeral.not_mem (h : Numeral text n) (hc : figure? c = none) (hne : c ≠ '_') :
    c ∉ text := by
  intro hmem
  obtain heq | ⟨k, hk⟩ := h.characters.2 c hmem
  · exact hne heq
  · cases hc.symm.trans hk

end Unsigned

section Signed

theorem map_natCast_ok_iff {r : Except NumeralFault Nat} (f : Int → Int) :
    (Except.map f (do return ((← r : Nat) : Int))) = .ok x ↔ ∃ n, r = .ok n ∧ x = f n := by
  cases r <;> simp [Except.map, bind, Except.bind, pure, Except.pure, eq_comm]

theorem signed_of_bare (hminus : ∀ rest, text ≠ '-' :: rest) (hplus : ∀ rest, text ≠ '+' :: rest) :
    signed .marked (text.map plainChar) = .ok x ↔ ∃ n : Nat, Numeral text n ∧ x = n := by
  have hsign {sign : Char} (hplain : ∀ c, plainChar c = sign ↔ c = sign)
      (hne : ∀ rest, text ≠ sign :: rest) (rest : List Char) :
      text.map plainChar = sign :: rest → False := by
    intro heq
    obtain ⟨c, cs, rfl, hc, -⟩ := List.map_eq_cons_iff.mp heq
    exact hne cs (by rw [(hplain c).mp hc])
  rw [signed.eq_3 _ _ (hsign (fun _ => plainChar_eq_minus) hminus)
    (hsign (fun _ => plainChar_eq_plus) hplus), map_natCast_ok_iff]
  simp only [unsigned_marked_ok_iff]

/-- The signed numerals are what is read, white space apart. -/
theorem signed_marked_ok_iff (text : List Char) :
    signed .marked (text.map plainChar) = .ok x ↔ SignedNumeral text x := by
  constructor
  · intro h
    by_cases hminus : ∃ rest, text = '-' :: rest
    · obtain ⟨rest, rfl⟩ := hminus
      rw [List.map_cons, plainChar_eq_minus.mpr rfl, signed.eq_1, map_natCast_ok_iff] at h
      obtain ⟨n, hn, rfl⟩ := h
      exact .minus ((unsigned_marked_ok_iff rest).mp hn)
    by_cases hplus : ∃ rest, text = '+' :: rest
    · obtain ⟨rest, rfl⟩ := hplus
      rw [List.map_cons, plainChar_eq_plus.mpr rfl, signed.eq_2, map_natCast_ok_iff] at h
      obtain ⟨n, hn, rfl⟩ := h
      exact .plus ((unsigned_marked_ok_iff rest).mp hn)
    rw [signed_of_bare (not_exists.mp hminus) (not_exists.mp hplus)] at h
    obtain ⟨n, hn, rfl⟩ := h
    exact .bare hn
  · intro h
    cases h with
    | bare h =>
      have hne {sign : Char} (hsign : sign ∉ text) (rest : List Char) : text ≠ sign :: rest := by
        rintro rfl
        exact hsign List.mem_cons_self
      exact (signed_of_bare (hne (h.not_mem rfl (by decide)))
        (hne (h.not_mem rfl (by decide)))).mpr ⟨_, h, rfl⟩
    | plus h =>
      rw [List.map_cons, plainChar_eq_plus.mpr rfl, signed.eq_2, map_natCast_ok_iff]
      exact ⟨_, (unsigned_marked_ok_iff _).mpr h, rfl⟩
    | minus h =>
      rw [List.map_cons, plainChar_eq_minus.mpr rfl, signed.eq_1, map_natCast_ok_iff]
      exact ⟨_, (unsigned_marked_ok_iff _).mpr h, rfl⟩

end Signed

section Margins

theorem isBlank_of_decimalValue? (h : decimalValue? c = some k) : isBlank c = false := by
  have hall : ∀ z ∈ scriptZeros, ∀ i < 10, isBlank (Char.ofNat (z + i)) = false := by
    decide +kernel
  obtain ⟨z, hz, hle, hlt, -⟩ := exists_of_decimalValue? h
  have hblank := hall z hz (c.toNat - z) (by omega)
  rwa [Nat.add_sub_cancel' hle, Char.ofNat_toNat] at hblank

theorem isPlainBlank_plainChar (c : Char) : isPlainBlank (plainChar c) = isMargin c := by
  have hspace (d : Char) : d = ' ' ↔ d.toNat = 32 := Char.toNat_inj.symm
  obtain ⟨hplain, hc⟩ | ⟨hwide, ⟨k, hk, hvalue, hc⟩ | ⟨hvalue, hc⟩⟩ := plainChar_cases c
  · rw [hc, Bool.eq_iff_iff]
    simp only [isPlainBlank, isMargin, isBlank, hspace, Bool.or_eq_true, Bool.and_eq_true,
      Bool.not_eq_true', decide_eq_true_eq, beq_iff_eq, Bool.and_eq_false_iff,
      decide_eq_false_iff_not]
    omega
  · have hblank := isBlank_of_decimalValue? hvalue
    simp only [isPlainBlank, isMargin, hblank, hspace, hc, Bool.false_and, Bool.or_eq_false_iff,
      Bool.and_eq_false_iff, decide_eq_false_iff_not]
    omega
  · have houtside : (0x1C ≤ c.toNat && c.toNat ≤ 0x1F) = false := by
      simp only [Bool.and_eq_false_iff, decide_eq_false_iff_not]
      omega
    rw [hc, isMargin, houtside, Bool.not_false, Bool.and_true]
    cases isBlank c <;> rfl

theorem isMargin_of_figure (hc : figure? c = some k) : isMargin c = false := by
  have hblank : isBlank c = false := by
    unfold figure? at hc
    split at hc
    next hvalue => exact isBlank_of_decimalValue? hvalue
    next =>
      have hletter : 65 ≤ c.toNat ∧ c.toNat ≤ 122 := by
        split_ifs at hc <;> omega
      simp only [isBlank, Bool.or_eq_false_iff, Bool.and_eq_false_iff, decide_eq_false_iff_not,
        beq_eq_false_iff_ne]
      omega
  rw [isMargin, hblank, Bool.false_and]

theorem SignedNumeral.not_margin (h : SignedNumeral text x) :
    text ≠ [] ∧ ∀ c ∈ text, isMargin c = false := by
  have hnumeral {cs : List Char} {n : Nat} (h : Numeral cs n) : ∀ c ∈ cs, isMargin c = false := by
    intro c hc
    obtain rfl | ⟨k, hfigure⟩ := h.characters.2 c hc
    · rfl
    · exact isMargin_of_figure hfigure
  cases h with
  | bare h => exact ⟨h.characters.1, hnumeral h⟩
  | plus h | minus h =>
    exact ⟨List.cons_ne_nil _ _, List.forall_mem_cons.mpr ⟨rfl, hnumeral h⟩⟩

def trimMargin (text : List Char) : List Char := (text.dropWhile isMargin).rdropWhile isMargin

theorem trimPlain_plainChar (text : List Char) :
    trimPlain (text.map plainChar) = (trimMargin text).map plainChar := by
  have hmargin : isPlainBlank ∘ plainChar = isMargin := funext isPlainBlank_plainChar
  rw [trimPlain, List.dropWhile_map, ← List.map_reverse, List.dropWhile_map, hmargin,
    ← List.map_reverse]
  rfl

theorem surrounds_trimMargin (text : List Char) : Surrounds text (trimMargin text) := by
  refine ⟨text.takeWhile isMargin, (text.dropWhile isMargin).rtakeWhile isMargin, ?_,
    fun c hc => List.mem_takeWhile_imp hc, fun c hc => List.mem_rtakeWhile_imp hc⟩
  rw [List.append_assoc, trimMargin, List.rdropWhile_append_rtakeWhile,
    List.takeWhile_append_dropWhile]

theorem trimMargin_of_surrounds (h : Surrounds text core) (hne : core ≠ [])
    (hcore : ∀ c ∈ core, isMargin c = false) : trimMargin text = core := by
  have hdrop {before core : List Char} (hbefore : ∀ c ∈ before, isMargin c = true)
      (hne : core ≠ []) (hcore : ∀ c ∈ core, isMargin c = false) (after : List Char) :
      (before ++ (core ++ after)).dropWhile isMargin = core ++ after := by
    obtain ⟨c, cs, rfl⟩ := List.exists_cons_of_ne_nil hne
    rw [List.dropWhile_append_of_pos hbefore, List.cons_append,
      List.dropWhile_cons_of_neg (by rw [hcore c List.mem_cons_self]; decide)]
  obtain ⟨before, after, rfl, hbefore, hafter⟩ := h
  have hback : (after.reverse ++ (core.reverse ++ [])).dropWhile isMargin = core.reverse ++ [] :=
    hdrop (by simpa using hafter) (by simpa using hne) (by simpa using hcore) []
  rw [List.append_nil, ← List.reverse_append] at hback
  rw [trimMargin, List.append_assoc, hdrop hbefore hne hcore, List.rdropWhile, hback,
    List.reverse_reverse]

def Spells (text : List Char) (x : Int) : Prop :=
  ∃ core, Surrounds text core ∧ SignedNumeral core x

/-- A text is read as a number just if it is a numeral, perhaps with a sign and white space around
it. -/
theorem integer_marked_ok_iff (text : List Char) :
    integer .marked text = .ok x ↔ Spells text x := by
  rw [integer, trimPlain_plainChar, signed_marked_ok_iff]
  constructor
  · intro h
    exact ⟨_, surrounds_trimMargin text, h⟩
  · rintro ⟨core, hcore, h⟩
    rwa [trimMargin_of_surrounds hcore h.not_margin.1 h.not_margin.2]

theorem Spells.nonneg (h : Spells text x) (htext : '-' ∉ text) : 0 ≤ x := by
  obtain ⟨core, ⟨before, after, rfl, -, -⟩, h⟩ := h
  cases h with
  | bare | plus => exact Int.natCast_nonneg _
  | minus => simp at htext

theorem Surrounds.not_mem_hyphen (h : Surrounds text core) (hcore : Numeral core n) :
    '-' ∉ text := by
  obtain ⟨before, after, rfl, hbefore, hafter⟩ := h
  have hmargin {cs : List Char} (hcs : ∀ c ∈ cs, isMargin c = true) : '-' ∉ cs := fun hmem =>
    Bool.noConfusion (hcs '-' hmem)
  have hnumeral : '-' ∉ core := hcore.not_mem rfl (by decide)
  simp [hmargin hbefore, hmargin hafter, hnumeral]

end Margins

section Written

theorem Digits.concat (h : Digits base cs ds) (hc : figure? c = some k) (hk : k < base) :
    Digits base (cs ++ [c]) (ds ++ [k]) := by
  induction h with
  | last hd hlt => exact .next hd hlt (.last hc hk)
  | next hd hlt _ ih => exact .next hd hlt ih
  | spaced hd hlt _ ih => exact .spaced hd hlt ih

theorem figure?_digitChar (hk : k < 16) : figure? k.digitChar = some k := by
  have hall : ∀ k < 16, figure? k.digitChar = some k := by decide +kernel
  exact hall k hk

theorem exists_digits_toDigits (hbase : 1 < base) (hle : base ≤ 16) (n : Nat) :
    ∃ ds, Digits base (Nat.toDigits base n) ds ∧ Nat.ofDigits base ds.reverse = n ∧
      ds.length = (Nat.toDigits base n).length := by
  induction n using Nat.strongRecOn with
  | ind n ih =>
    by_cases hlt : n < base
    · rw [Nat.toDigits_of_lt_base hlt]
      exact ⟨[n], .last (figure?_digitChar (by omega)) hlt, by simp, rfl⟩
    · have hmod : n % base < base := Nat.mod_lt _ (by omega)
      obtain ⟨ds, hds, hvalue, hlength⟩ := ih (n / base) (Nat.div_lt_self (by omega) hbase)
      rw [Nat.toDigits_of_base_le hbase (Nat.not_lt.mp hlt)]
      refine ⟨ds ++ [n % base], hds.concat (figure?_digitChar (by omega)) hmod, ?_,
        by simp [hlength]⟩
      rw [List.reverse_append, List.reverse_singleton, List.singleton_append, Nat.ofDigits_cons,
        hvalue]
      exact Nat.mod_add_div n base

theorem numeral_toDigits (hn : IsWritable n) : Numeral (Nat.toDigits 10 n) n := by
  obtain ⟨ds, hds, hvalue, hlength⟩ := exists_digits_toDigits (show 1 < 10 by decide) (by decide) n
  have hlead : ds.head? = some 0 → Nat.ofDigits 10 ds.reverse = 0 := by
    intro hzero
    rw [hvalue]
    by_contra hne
    obtain ⟨c, rest, hdigits, hc⟩ := head_toDigits (Nat.pos_of_ne_zero hne)
    obtain ⟨c', cs, k, more, heq, rfl, hfigure, -⟩ := hds.exists_first
    obtain rfl : c = c' := (List.cons.inj (hdigits.symm.trans heq)).1
    obtain rfl : k = 0 := Option.some.inj hzero
    have hdigit : c.isDigit = true := isDigit_of_mem (n := n) (hdigits ▸ List.mem_cons_self)
    exact hc ((plainChar_of_isDigit hdigit).symm.trans (figure?_eq_zero_iff.mp hfigure))
  have hnumeral := Numeral.decimal hds hlead (hlength ▸ length_toDigits_le_iff.mpr hn)
  rwa [hvalue] at hnumeral

theorem numeral_marked_toDigits (hmark : markedBase? mark = some base) (n : Nat) :
    Numeral ('0' :: mark :: Nat.toDigits base n) n := by
  have hbase : 1 < base ∧ base ≤ 16 := by
    unfold markedBase? at hmark
    split_ifs at hmark <;> cases hmark <;> decide
  obtain ⟨ds, hds, hvalue, -⟩ := exists_digits_toDigits hbase.1 hbase.2 n
  have hnumeral : Numeral ('0' :: mark :: _) _ := .marked rfl hmark hds
  rwa [hvalue] at hnumeral

theorem integer_toDigits_of_long (hn : ¬IsWritable n) : integer .marked (Nat.toDigits 10 n) =
    .error (.tooLong (Nat.toDigits 10 n).length) := by
  obtain ⟨ds, hds, -, hlength⟩ := exists_digits_toDigits (show 1 < 10 by decide) (by decide) n
  have hdigits : ∀ c ∈ Nat.toDigits 10 n, c.isDigit = true := fun _ hc => isDigit_of_mem hc
  have hplain : (Nat.toDigits 10 n).map plainChar = Nat.toDigits 10 n :=
    (List.map_congr_left fun c hc => plainChar_of_isDigit (hdigits c hc)).trans (List.map_id' _)
  have hpos : 0 < n := by
    refine Nat.pos_of_ne_zero fun hzero => hn ?_
    rw [hzero]
    exact isWritable_of_natAbs_lt (by decide)
  have hlong : digitLimit < ds.length := by
    rw [hlength, ← Nat.not_le]
    exact mt length_toDigits_le_iff.mp hn
  have hdecimal := hds.decimal_eq
  rw [if_pos hlong, hplain, hlength] at hdecimal
  rw [integer_eq_unsigned Nat.toDigits_ne_nil hdigits, unsigned_marked_toDigits hpos, hdecimal]
  rfl

end Written

end WordMachine.Text
