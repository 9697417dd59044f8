import Mathlib.Data.List.TakeWhile
import Mathlib.Data.Nat.Digits.Defs
import Mathlib.Tactic.Ring
import WordMachine.Text.Numeral

/-!
Runs of digits. Digits of any script, and letters where the base has so many, are written one behind
the other with at most one underscore between two. Just these texts are read as the digits of a
number, up to the bound on the length of decimals.
-/
namespace WordMachine.Text

variable {c d zero mark : Char} {cs text : List Char} {base n k : Nat} {ds : List Nat}

def figure? (c : Char) : Option Nat :=
  match decimalValue? c with
  | some k => some k
  | none =>
    if 97 ≤ c.toNat ∧ c.toNat ≤ 122 then some (c.toNat - 87)
    else if 65 ≤ c.toNat ∧ c.toNat ≤ 90 then some (c.toNat - 55)
    else none

/-- One digit or several, with at most one underscore between two, and what they stand for. -/
inductive Digits (base : Nat) : List Char → List Nat → Prop where
  | last {c : Char} {k : Nat} : figure? c = some k → k < base → Digits base [c] [k]
  | next {c : Char} {k : Nat} {cs : List Char} {ds : List Nat} : figure? c = some k → k < base →
      Digits base cs ds → Digits base (c :: cs) (k :: ds)
  | spaced {c : Char} {k : Nat} {cs : List Char} {ds : List Nat} : figure? c = some k → k < base →
      Digits base cs ds → Digits base (c :: '_' :: cs) (k :: ds)

section Characters

theorem exists_of_decimalValue? (h : decimalValue? c = some k) :
    ∃ z ∈ scriptZeros, z ≤ c.toNat ∧ c.toNat < z + 10 ∧ k = c.toNat - z := by
  obtain ⟨z, hfind, rfl⟩ := Option.map_eq_some_iff.mp h
  have hz : z ≤ c.toNat ∧ c.toNat < z + 10 := by simpa using List.find?_some hfind
  exact ⟨z, List.mem_of_find?_eq_some hfind, hz.1, hz.2, rfl⟩

theorem decimalValue?_lt (h : decimalValue? c = some k) : k < 10 := by
  obtain ⟨z, -, hle, hlt, rfl⟩ := exists_of_decimalValue? h
  omega

theorem decimalValue?_of_lt (h : c.toNat < 0x7F) : decimalValue? c =
    if 48 ≤ c.toNat ∧ c.toNat < 58 then some (c.toNat - 48) else none := by
  have hothers : ∀ z ∈ scriptZeros.tail, 0x7F ≤ z := by decide
  have hcons : scriptZeros = 48 :: scriptZeros.tail := rfl
  have hnone : scriptZeros.tail.find? (fun z => z ≤ c.toNat ∧ c.toNat < z + 10) = none := by
    refine List.find?_eq_none.mpr fun z hz => ?_
    have := hothers z hz
    simp only [decide_eq_true_eq]
    omega
  rw [decimalValue?, hcons, List.find?_cons]
  split
  next hdigit =>
    rw [if_pos (by simpa using hdigit)]
    rfl
  next hdigit =>
    rw [if_neg (by simpa using hdigit), hnone]
    rfl

theorem plainChar_cases (c : Char) :
    c.toNat < 0x7F ∧ plainChar c = c ∨ 0x7F ≤ c.toNat ∧
      ((∃ k < 10, decimalValue? c = some k ∧ (plainChar c).toNat = 48 + k) ∨
        decimalValue? c = none ∧ plainChar c = (if isBlank c then ' ' else '?')) := by
  unfold plainChar
  split
  next h => exact .inl ⟨h, rfl⟩
  next h =>
    refine .inr ⟨Nat.not_lt.mp h, ?_⟩
    cases hvalue : decimalValue? c with
    | some k =>
      have hk := decimalValue?_lt hvalue
      refine .inl ⟨k, hk, rfl, ?_⟩
      have hvalid : (48 + k).isValidChar := .inl (by omega)
      have hchar : Char.ofNat (48 + k) = Char.ofNatAux (48 + k) hvalid := dif_pos hvalid
      dsimp only
      rw [hchar]
      rfl
    | none => exact .inr ⟨rfl, rfl⟩

theorem plainChar_eq_iff (hplain : d.toNat < 0x7F) (hdigit : ¬(48 ≤ d.toNat ∧ d.toNat < 58))
    (hspace : d ≠ ' ') (hlost : d ≠ '?') : plainChar c = d ↔ c = d := by
  obtain ⟨-, hc⟩ | ⟨hwide, hc⟩ := plainChar_cases c
  · rw [hc]
  · have hne : c ≠ d := by
      rintro rfl
      omega
    refine iff_of_false (fun heq => ?_) hne
    rw [heq] at hc
    obtain ⟨k, hk, -, hvalue⟩ | ⟨-, hvalue⟩ := hc
    · omega
    · split at hvalue
      · exact hspace hvalue
      · exact hlost hvalue

theorem plainChar_eq_underscore : plainChar c = '_' ↔ c = '_' :=
  plainChar_eq_iff (by decide) (by decide) (by decide) (by decide)

theorem plainChar_eq_plus : plainChar c = '+' ↔ c = '+' :=
  plainChar_eq_iff (by decide) (by decide) (by decide) (by decide)

theorem plainChar_eq_minus : plainChar c = '-' ↔ c = '-' :=
  plainChar_eq_iff (by decide) (by decide) (by decide) (by decide)

theorem digitValue?_eq (base : Nat) (c : Char) : digitValue? base c =
    (if 48 ≤ c.toNat ∧ c.toNat ≤ 57 then some (c.toNat - 48)
      else if 97 ≤ c.toNat ∧ c.toNat ≤ 122 then some (c.toNat - 87)
      else if 65 ≤ c.toNat ∧ c.toNat ≤ 90 then some (c.toNat - 55)
      else some 36).filter (· < base) := by
  unfold digitValue?
  dsimp only
  split_ifs <;> simp [Option.filter, *]

theorem digitValue?_plainChar (hbase : base ≤ 36) (c : Char) :
    digitValue? base (plainChar c) = (figure? c).filter (· < base) := by
  have hletters : (some 36).filter (· < base) = none :=
    Option.filter_some_neg (by simpa using hbase)
  rw [digitValue?_eq, figure?]
  obtain ⟨hplain, hc⟩ | ⟨hwide, ⟨k, hk, hvalue, hc⟩ | ⟨hvalue, hc⟩⟩ := plainChar_cases c
  · rw [hc, decimalValue?_of_lt hplain]
    by_cases hdigit : 48 ≤ c.toNat ∧ c.toNat < 58
    · rw [if_pos (by omega), if_pos hdigit]
    · rw [if_neg (by omega), if_neg hdigit]
      grind
  · rw [hvalue, hc, if_pos (by omega), Nat.add_sub_cancel_left]
  · have hlost : (plainChar c).toNat = 32 ∨ (plainChar c).toNat = 63 := by
      rw [hc]
      split
      · exact .inl rfl
      · exact .inr rfl
    rw [hvalue]
    grind

theorem digitValue?_of_figure (hbase : base ≤ 36) (hc : figure? c = some k) (hk : k < base) :
    digitValue? base (plainChar c) = some k := by
  rw [digitValue?_plainChar hbase, hc]
  exact Option.filter_some_pos (by simpa using hk)

theorem figure?_of_digitValue? (hbase : base ≤ 36) (h : digitValue? base (plainChar c) = some k) :
    figure? c = some k ∧ k < base := by
  rw [digitValue?_plainChar hbase, Option.filter_eq_some_iff] at h
  exact ⟨h.1, by simpa using h.2⟩

theorem ne_underscore_of_figure (hc : figure? c = some k) : plainChar c ≠ '_' := by
  intro h
  rw [plainChar_eq_underscore.mp h] at hc
  cases hc

theorem markedBase?_plainChar (c : Char) : markedBase? (plainChar c) = markedBase? c := by
  simp (disch := decide) only [markedBase?, plainChar_eq_iff]

theorem markedBase?_le (h : markedBase? c = some base) : base ≤ 36 := by
  unfold markedBase? at h
  split_ifs at h <;> cases h <;> decide

end Characters

section Reading

theorem moreDigits_of_figure (hbase : base ≤ 36) (hc : figure? c = some k) (hk : k < base)
    (value : Nat) (rest : List Char) :
    moreDigits base value (plainChar c :: rest) = moreDigits base (value * base + k) rest ∧
      moreDigits base value ('_' :: plainChar c :: rest) =
        moreDigits base (value * base + k) rest := by
  have hvalue := digitValue?_of_figure hbase hc hk
  have hne := ne_underscore_of_figure hc
  rw [moreDigits.eq_3 _ _ _ _ fun _ _ heq => absurd heq hne, moreDigits.eq_2, hvalue]
  exact ⟨rfl, rfl⟩

/-- The digits that have been read count like one digit before the others. -/
theorem ofDigits_merge (base value k : Nat) (ds : List Nat) :
    Nat.ofDigits base ((value * base + k) :: ds).reverse =
      Nat.ofDigits base (value :: k :: ds).reverse := by
  simp only [Nat.ofDigits_reverse_cons, List.length_cons]
  ring

theorem Digits.moreDigits (hbase : base ≤ 36) (h : Digits base cs ds) (value : Nat) :
    Text.moreDigits base value (cs.map plainChar) =
        some (Nat.ofDigits base (value :: ds).reverse) ∧
      Text.moreDigits base value ('_' :: cs.map plainChar) =
        some (Nat.ofDigits base (value :: ds).reverse) := by
  induction h generalizing value with
  | last hc hk =>
    have hstep := moreDigits_of_figure hbase hc hk value []
    rw [List.map_cons, List.map_nil, hstep.1, hstep.2, ← ofDigits_merge]
    simp [Text.moreDigits]
  | next hc hk _ ih =>
    have hstep := moreDigits_of_figure hbase hc hk value
    rw [List.map_cons, (hstep _).1, (hstep _).2, ← ofDigits_merge]
    exact ⟨(ih _).1, (ih _).1⟩
  | spaced hc hk _ ih =>
    have hstep := moreDigits_of_figure hbase hc hk value
    rw [List.map_cons, List.map_cons, (hstep _).1, (hstep _).2, ← ofDigits_merge]
    exact ⟨(ih _).2, (ih _).2⟩

inductive Behind (base : Nat) : List Char → List Nat → Prop where
  | nothing : Behind base [] []
  | digits {cs : List Char} {ds : List Nat} : Digits base cs ds → Behind base cs ds
  | spaced {cs : List Char} {ds : List Nat} : Digits base cs ds → Behind base ('_' :: cs) ds

theorem Behind.cons (h : Behind base cs ds) (hc : figure? c = some k) (hk : k < base) :
    Digits base (c :: cs) (k :: ds) := by
  cases h with
  | nothing => exact .last hc hk
  | digits h => exact .next hc hk h
  | spaced h => exact .spaced hc hk h

theorem behind_of_moreDigits (hbase : base ≤ 36) (value : Nat) (cs : List Char)
    (h : moreDigits base value (cs.map plainChar) = some n) :
    ∃ ds, Behind base cs ds ∧ n = Nat.ofDigits base (value :: ds).reverse := by
  match cs with
  | [] => exact ⟨[], .nothing, by simpa [moreDigits, eq_comm] using h⟩
  | c :: rest =>
    cases hvalue : digitValue? base (plainChar c) with
    | some k =>
      obtain ⟨hc, hk⟩ := figure?_of_digitValue? hbase hvalue
      rw [List.map_cons, (moreDigits_of_figure hbase hc hk value _).1] at h
      obtain ⟨ds, hds, rfl⟩ := behind_of_moreDigits hbase _ rest h
      exact ⟨k :: ds, .digits (hds.cons hc hk), ofDigits_merge base value k ds⟩
    | none =>
      -- What is no digit can only be an underscore before one.
      have hbare (hother : ∀ d more, plainChar c :: rest.map plainChar = '_' :: d :: more → False) :
          moreDigits base value ((c :: rest).map plainChar) = none := by
        rw [List.map_cons, moreDigits.eq_3 _ _ _ _ fun d more hc hrest =>
          hother d more (by rw [hc, hrest]), hvalue]
        rfl
      match rest with
      | [] => cases h.symm.trans (hbare fun _ _ heq => nomatch (List.cons.inj heq).2)
      | d :: more =>
        by_cases hc : plainChar c = '_'
        · cases hnext : digitValue? base (plainChar d) with
          | none =>
            rw [List.map_cons, hc, List.map_cons, moreDigits.eq_2, hnext] at h
            cases h
          | some k =>
            obtain ⟨hd, hk⟩ := figure?_of_digitValue? hbase hnext
            rw [List.map_cons, hc, List.map_cons, (moreDigits_of_figure hbase hd hk value _).2] at h
            obtain ⟨ds, hds, rfl⟩ := behind_of_moreDigits hbase _ more h
            rw [plainChar_eq_underscore.mp hc]
            exact ⟨k :: ds, .spaced (hds.cons hd hk), ofDigits_merge base value k ds⟩
        · cases h.symm.trans (hbare fun _ _ heq => hc (List.cons.inj heq).1)
  termination_by cs.length

theorem digits?_eq_some_iff (hbase : base ≤ 36) (text : List Char) :
    digits? base (text.map plainChar) = some n ↔
      ∃ ds, Digits base text ds ∧ n = Nat.ofDigits base ds.reverse := by
  constructor
  · intro h
    cases text with
    | nil => cases h
    | cons c rest =>
      obtain ⟨k, hvalue, h⟩ := Option.bind_eq_some_iff.mp h
      obtain ⟨hc, hk⟩ := figure?_of_digitValue? hbase hvalue
      obtain ⟨ds, hds, rfl⟩ := behind_of_moreDigits hbase k rest h
      exact ⟨k :: ds, hds.cons hc hk, rfl⟩
  · rintro ⟨ds, h, rfl⟩
    cases h with
    | last hc hk =>
      rw [List.map_cons, digits?, digitValue?_of_figure hbase hc hk]
      simp [moreDigits]
    | next hc hk h =>
      rw [List.map_cons, digits?, digitValue?_of_figure hbase hc hk]
      exact (h.moreDigits hbase _).1
    | spaced hc hk h =>
      rw [List.map_cons, List.map_cons, digits?, digitValue?_of_figure hbase hc hk]
      exact (h.moreDigits hbase _).2

end Reading

section Decimals

theorem Digits.exists_first (h : Digits base text ds) :
    ∃ c cs k more, text = c :: cs ∧ ds = k :: more ∧ figure? c = some k ∧ k < base := by
  cases h with
  | last hc hk => exact ⟨_, _, _, _, rfl, rfl, hc, hk⟩
  | next hc hk _ => exact ⟨_, _, _, _, rfl, rfl, hc, hk⟩
  | spaced hc hk _ => exact ⟨_, _, _, _, rfl, rfl, hc, hk⟩

theorem Digits.of_mem (h : Digits base text ds) (hc : c ∈ text) :
    c = '_' ∨ ∃ k < base, figure? c = some k := by
  induction h with
  | last hfigure hk =>
    obtain rfl := List.mem_singleton.mp hc
    exact .inr ⟨_, hk, hfigure⟩
  | next hfigure hk _ ih =>
    obtain rfl | hc := List.mem_cons.mp hc
    · exact .inr ⟨_, hk, hfigure⟩
    · exact ih hc
  | spaced hfigure hk _ ih =>
    obtain rfl | rfl | hc := List.mem_cons.mp hc |>.imp_right List.mem_cons.mp
    · exact .inr ⟨_, hk, hfigure⟩
    · exact .inl rfl
    · exact ih hc

theorem Digits.digitRun_eq (h : Digits 10 text ds) :
    digitRun (text.map plainChar) = text.map plainChar := by
  refine List.takeWhile_eq_self_iff.mpr fun p hp => ?_
  obtain ⟨c, hc, rfl⟩ := List.mem_map.mp hp
  obtain rfl | ⟨k, hk, hfigure⟩ := h.of_mem hc
  · rfl
  · simp [digitValue?_of_figure (by decide) hfigure hk]

theorem Digits.isSpaced (h : Digits base text ds) : Text.isSpaced (text.map plainChar) = true := by
  induction h with
  | last hc _ => simpa [Text.isSpaced] using ne_underscore_of_figure hc
  | next hc _ h ih =>
    obtain ⟨d, cs, k, more, rfl, -, hd, -⟩ := h.exists_first
    rw [List.map_cons] at ih
    rwa [List.map_cons, List.map_cons,
      isSpaced.eq_5 _ _ _ (ne_underscore_of_figure hc) (ne_underscore_of_figure hd)]
  | spaced hc _ h ih =>
    rwa [List.map_cons, List.map_cons, plainChar_eq_underscore.mpr rfl,
      isSpaced.eq_4 _ _ (ne_underscore_of_figure hc)]

theorem Digits.countP_eq (h : Digits base text ds) :
    (text.map plainChar).countP (· ≠ '_') = ds.length := by
  induction h with
  | last hc _ => simp [ne_underscore_of_figure hc]
  | next hc _ _ ih =>
    rw [List.map_cons, List.countP_cons_of_pos (by simpa using ne_underscore_of_figure hc), ih,
      List.length_cons]
  | spaced hc _ _ ih =>
    rw [List.map_cons, List.map_cons,
      List.countP_cons_of_pos (by simpa using ne_underscore_of_figure hc),
      List.countP_cons_of_neg (by decide), ih, List.length_cons]

theorem Digits.decimal_eq (h : Digits 10 text ds) : decimal (text.map plainChar) =
    if digitLimit < ds.length then .error (.tooLong ds.length)
    else .ok (Nat.ofDigits 10 ds.reverse) := by
  have hread := (digits?_eq_some_iff (by decide) text).mpr ⟨ds, h, rfl⟩
  rw [decimal, h.digitRun_eq, h.isSpaced, h.countP_eq, hread]
  simp [orMalformed]

theorem decimal_ok_iff (text : List Char) : decimal (text.map plainChar) = .ok n ↔
    ∃ ds, Digits 10 text ds ∧ ds.length ≤ digitLimit ∧ n = Nat.ofDigits 10 ds.reverse := by
  constructor
  · intro h
    cases hread : digits? 10 (text.map plainChar) with
    | none =>
      rw [decimal, hread] at h
      split at h <;> cases h
    | some m =>
      obtain ⟨ds, hds, -⟩ := (digits?_eq_some_iff (by decide) text).mp hread
      rw [hds.decimal_eq] at h
      split at h
      · cases h
      next hlength => exact ⟨ds, hds, Nat.not_lt.mp hlength, (Except.ok.inj h).symm⟩
  · rintro ⟨ds, hds, hlength, rfl⟩
    rw [hds.decimal_eq, if_neg (Nat.not_lt.mpr hlength)]

end Decimals

end WordMachine.Text
