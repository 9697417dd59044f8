import WordMachine.Proofs.TextWords
import WordMachine.Text.Numeral

/-!
Numbers written in decimal are read back. Their digits have no sign, no sign of a base and no blanks
around them, and the first digit of a number above zero is not zero, so it makes no difference
whether leading zeros are allowed. What begins with a quote is not read as a number.
-/
namespace WordMachine.Text

section Digits

variable {c : Char} {cs : List Char}

theorem digit_bounds (h : c.isDigit = true) : 48 ≤ c.toNat ∧ c.toNat ≤ 57 := by
  simpa using Char.isDigit_iff_toNat.mp h

theorem digitValue?_of_isDigit (h : c.isDigit = true) :
    digitValue? 10 c = some (c.toNat - '0'.toNat) := by
  have hc := digit_bounds h
  have h48 : '0'.toNat = 48 := rfl
  unfold digitValue?
  simp only [if_pos hc, h48]
  rw [if_pos (by omega)]

theorem ne_of_isDigit (h : c.isDigit = true) {d : Char} (hd : d.isDigit = false) : c ≠ d := by
  rintro rfl
  rw [h] at hd
  contradiction

theorem plainChar_of_isDigit (h : c.isDigit = true) : plainChar c = c := by
  have hc := digit_bounds h
  unfold plainChar
  rw [if_pos (by omega)]

theorem isPlainBlank_of_isDigit (h : c.isDigit = true) : isPlainBlank c = false := by
  have hc := digit_bounds h
  have hspace : c ≠ ' ' := ne_of_isDigit h (by decide)
  simp only [isPlainBlank, hspace, decide_false, Bool.false_or, Bool.and_eq_false_iff,
    decide_eq_false_iff_not]
  omega

theorem moreDigits_eq (h : ∀ c ∈ cs, c.isDigit = true) (value : Nat) :
    moreDigits 10 value cs = some (Nat.ofDigitChars 10 cs value) := by
  induction cs generalizing value with
  | nil => rfl
  | cons c cs ih =>
    have hc : c.isDigit = true := h c List.mem_cons_self
    have hunder : c ≠ '_' := ne_of_isDigit hc (by decide)
    rw [moreDigits.eq_3 _ _ _ _ fun _ _ heq => absurd heq hunder, digitValue?_of_isDigit hc,
      Nat.ofDigitChars_cons, Nat.mul_comm 10]
    exact ih (fun d hd => h d (List.mem_cons_of_mem _ hd)) _

theorem digits?_eq (hne : cs ≠ []) (h : ∀ c ∈ cs, c.isDigit = true) :
    digits? 10 cs = some (Nat.ofDigitChars 10 cs 0) := by
  obtain ⟨c, rest, rfl⟩ := List.exists_cons_of_ne_nil hne
  have hc : c.isDigit = true := h c List.mem_cons_self
  rw [digits?, digitValue?_of_isDigit hc, Nat.ofDigitChars_cons, Nat.mul_zero, Nat.zero_add]
  exact moreDigits_eq (fun d hd => h d (List.mem_cons_of_mem _ hd)) _

theorem trimPlain_eq_self (h : ∀ c ∈ cs, isPlainBlank c = false) : trimPlain cs = cs := by
  have hdrop {l : List Char} (hl : ∀ c ∈ l, isPlainBlank c = false) :
      l.dropWhile isPlainBlank = l :=
    List.dropWhile_eq_self_iff.mpr fun _ => by simp [hl _ (List.getElem_mem _)]
  rw [trimPlain, hdrop h, hdrop fun c hc => h c (List.mem_reverse.mp hc), List.reverse_reverse]

theorem integer_eq_unsigned {radix : Radix} (hne : cs ≠ []) (h : ∀ c ∈ cs, c.isDigit = true) :
    integer radix cs = (unsigned radix cs).map fun n => (n : Int) := by
  have hplain : cs.map plainChar = cs :=
    List.map_congr_left (fun c hc => plainChar_of_isDigit (h c hc)) |>.trans (List.map_id' cs)
  rw [integer, hplain, trimPlain_eq_self fun c hc => isPlainBlank_of_isDigit (h c hc)]
  obtain ⟨c, rest, rfl⟩ := List.exists_cons_of_ne_nil hne
  have hc : c.isDigit = true := h c List.mem_cons_self
  refine signed.eq_3 _ _ (fun _ heq => ?_) fun _ heq => ?_
  · exact ne_of_isDigit hc (by decide) (List.cons.inj heq).1
  · exact ne_of_isDigit hc (by decide) (List.cons.inj heq).1

end Digits

section Written

variable {n : Nat}

theorem isDigit_of_mem {c : Char} (h : c ∈ Nat.toDigits 10 n) : c.isDigit = true :=
  Nat.isDigit_of_mem_toDigits (by decide) (by decide) h

theorem length_toDigits_le_iff : (Nat.toDigits 10 n).length ≤ digitLimit ↔ IsWritable n := by
  have hlength {k : Nat} (hk : 0 < k) : (Nat.toDigits 10 n).length ≤ k ↔ n < Nat.pow 10 k :=
    Nat.length_toDigits_le_iff (by decide) hk
  unfold IsWritable unwritable
  rw [Int.natAbs_natCast]
  exact hlength (by decide)

theorem decimal_toDigits (hn : IsWritable n) : decimal (Nat.toDigits 10 n) = .ok n := by
  have hcount : (digitRun (Nat.toDigits 10 n)).countP (· ≠ '_') ≤ digitLimit :=
    calc (digitRun (Nat.toDigits 10 n)).countP (· ≠ '_')
      _ ≤ (digitRun (Nat.toDigits 10 n)).length := List.countP_le_length
      _ ≤ (Nat.toDigits 10 n).length := (List.takeWhile_sublist _).length_le
      _ ≤ digitLimit := length_toDigits_le_iff.mpr hn
  unfold decimal
  simp only [if_neg fun h => Nat.not_lt.mpr hcount (And.left h)]
  rw [digits?_eq Nat.toDigits_ne_nil fun c hc => isDigit_of_mem hc, Nat.ofDigitChars_ten_toDigits]
  rfl

theorem head_toDigits (h : 0 < n) : ∃ c rest, Nat.toDigits 10 n = c :: rest ∧ c ≠ '0' := by
  induction n using Nat.strongRecOn with
  | ind n ih =>
    by_cases hlt : n < 10
    · refine ⟨n.digitChar, [], Nat.toDigits_of_lt_base hlt, fun heq => ?_⟩
      have := Nat.toNat_digitChar_of_lt_ten hlt
      rw [heq] at this
      have : '0'.toNat = 48 := rfl
      omega
    · obtain ⟨c, rest, hdigits, hc⟩ := ih (n / 10) (by omega) (by omega)
      refine ⟨c, rest ++ [(n % 10).digitChar], ?_, hc⟩
      rw [Nat.toDigits_of_base_le (by decide) (by omega), hdigits, List.cons_append]

theorem unsigned_marked_toDigits (h : 0 < n) :
    unsigned .marked (Nat.toDigits 10 n) = decimal (Nat.toDigits 10 n) := by
  obtain ⟨c, rest, hdigits, hc⟩ := head_toDigits h
  rw [hdigits, unsigned.eq_5 _ fun _ heq => hc (List.cons.inj heq).1]

theorem unsigned_toDigits (radix : Radix) (hradix : radix ≠ .sixteen) (hn : IsWritable n) :
    unsigned radix (Nat.toDigits 10 n) = .ok n := by
  cases radix with
  | ten => exact decimal_toDigits hn
  | sixteen => exact absurd rfl hradix
  | marked =>
    -- A text that begins with a zero is read apart, since zeros may not lead.
    obtain rfl | hpos := Nat.eq_zero_or_pos n
    · have hzero := decimal_toDigits hn
      rw [Nat.toDigits_zero] at hzero ⊢
      unfold unsigned
      simp only [List.head?_nil, Option.bind_none, hzero]
      rfl
    · rw [unsigned_marked_toDigits hpos, decimal_toDigits hn]

theorem integer_toDigits (radix : Radix) (hradix : radix ≠ .sixteen) (hn : IsWritable n) :
    integer radix (Nat.toDigits 10 n) = .ok (n : Int) := by
  rw [integer_eq_unsigned Nat.toDigits_ne_nil fun c hc => isDigit_of_mem hc,
    unsigned_toDigits radix hradix hn]
  rfl

end Written

theorem trimPlain_cons {c : Char} (h : isPlainBlank c = false) (cs : List Char) :
    ∃ tail, trimPlain (c :: cs) = c :: tail := by
  have hstart : (c :: cs).dropWhile isPlainBlank = c :: cs :=
    List.dropWhile_cons_of_neg (by rw [h]; decide)
  refine ⟨(cs.reverse.dropWhile isPlainBlank).reverse, ?_⟩
  rw [trimPlain, hstart, List.reverse_cons, dropWhile_append_of_neg h, List.reverse_append]
  rfl

theorem integer_of_quote {quote : Char} (h : quote = '\'' ∨ quote = '"') (cs : List Char) :
    integer .marked (quote :: cs) = .error .malformed := by
  have hplain : plainChar quote = quote ∧ isPlainBlank quote = false := by
    rcases h with rfl | rfl <;> decide
  obtain ⟨tail, htail⟩ := trimPlain_cons hplain.2 (cs.map plainChar)
  rw [integer, List.map_cons, hplain.1, htail]
  rcases h with rfl | rfl <;> rfl

end WordMachine.Text
