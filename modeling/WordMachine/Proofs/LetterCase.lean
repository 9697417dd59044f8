import WordMachine.Text.LowerCase

/-!
Names in any letter case. A word becomes a name of plain small letters just if it is made of these
letters and their capitals: no letter of another script becomes a plain one, except for the sign of
a kelvin, which becomes a `k`.
-/
namespace WordMachine.Text

def IsPlainSmall (c : Char) : Prop := 97 ≤ c.toNat ∧ c.toNat ≤ 122 ∧ c.toNat ≠ 107

instance (c : Char) : Decidable (IsPlainSmall c) := by
  unfold IsPlainSmall
  infer_instance

def lowerAt (before rest : List Char) (c : Char) : List Char :=
  if c.toNat = 0x3A3 then
    if casedNeighbour before && !casedNeighbour rest then [Char.ofNat 0x3C2]
    else [Char.ofNat 0x3C3]
  else lowerChar c

section LowerAt

variable {c : Char} {before rest : List Char}

theorem lowerAfter_cons :
    lowerAfter before (c :: rest) = lowerAt before rest c ++ lowerAfter (c :: before) rest := rfl

theorem lowerAt_of_plain (h : c.toNat < 128) : lowerAt before rest c = [c.toLower] := by
  have hall : ∀ n < 128, lowerChar (Char.ofNat n) = [(Char.ofNat n).toLower] := by decide +kernel
  have hc := hall c.toNat h
  rw [Char.ofNat_toNat] at hc
  rw [lowerAt, if_neg (by omega), hc]

theorem capitalRun_cases {r : CapitalRun} (h : r ∈ capitalRuns) :
    r.last < 128 ∨ r.last + r.shift < 97 ∨ 122 < r.first + r.shift ∨
      r.first + r.shift = 107 ∧ r.last + r.shift = 107 := by
  revert r
  decide +kernel

theorem exists_foreign_of_lowerAt (h : 128 ≤ c.toNat) :
    ∃ x ∈ lowerAt before rest c, ¬IsPlainSmall x := by
  unfold lowerAt
  split
  · split <;> exact ⟨_, List.mem_singleton_self _, by decide⟩
  unfold lowerChar
  split
  · exact ⟨Char.ofNat 0x307, by simp, by decide⟩
  split
  next r hr =>
    have hbounds : r.first ≤ c.toNat ∧ c.toNat ≤ r.last := by
      have hcontains := List.find?_some hr
      simp only [CapitalRun.contains, Bool.and_eq_true, decide_eq_true_eq] at hcontains
      exact hcontains.1
    have hrun := capitalRun_cases (List.mem_of_find?_eq_some hr)
    have hsmall := toNat_ofNat_cases (c.toNat + r.shift).toNat
    refine ⟨_, List.mem_singleton_self _, ?_⟩
    unfold IsPlainSmall
    omega
  next =>
    refine ⟨c, List.mem_singleton_self c, ?_⟩
    unfold IsPlainSmall
    omega

end LowerAt

section LowerAfter

variable {word before name : List Char}

theorem lowerAfter_of_plain (h : ∀ c ∈ word, c.toNat < 128) :
    lowerAfter before word = word.map Char.toLower := by
  induction word generalizing before with
  | nil => rfl
  | cons c rest ih =>
    obtain ⟨hc, hrest⟩ := List.forall_mem_cons.mp h
    rw [lowerAfter_cons, lowerAt_of_plain hc, ih hrest]
    rfl

theorem plain_of_lowerAfter (h : ∀ x ∈ lowerAfter before word, IsPlainSmall x) :
    ∀ c ∈ word, c.toNat < 128 := by
  induction word generalizing before with
  | nil => nofun
  | cons c rest ih =>
    rw [lowerAfter_cons] at h
    refine List.forall_mem_cons.mpr ⟨?_, ih fun x hx => h x (List.mem_append_right _ hx)⟩
    refine Decidable.byContradiction fun hc => ?_
    obtain ⟨x, hx, hforeign⟩ := exists_foreign_of_lowerAt (Nat.le_of_not_lt hc)
    exact hforeign (h x (List.mem_append_left _ hx))

theorem plain_of_toLower {c : Char} (h : IsPlainSmall c.toLower) : c.toNat < 128 := by
  refine Decidable.byContradiction fun hc => ?_
  have hcapital : ¬('A'.val ≤ c.val ∧ c.val ≤ 'Z'.val) := by
    intro hcapital
    have hle := UInt32.le_iff_toNat_le.mp hcapital.2
    exact hc (Nat.lt_of_le_of_lt hle (by decide))
  have hsame : c.toLower = c := dif_neg hcapital
  rw [hsame] at h
  unfold IsPlainSmall at h
  omega

/-- A word in lower case is a given name, if it is the name in some letter case. -/
theorem lower_eq_iff (hname : ∀ c ∈ name, IsPlainSmall c) :
    lower (String.ofList word) = String.ofList name ↔ word.map Char.toLower = name := by
  rw [lower, String.ofList_inj, String.toList_ofList]
  constructor
  · intro h
    subst h
    exact (lowerAfter_of_plain (plain_of_lowerAfter hname)).symm
  · intro h
    subst h
    refine lowerAfter_of_plain fun c hc => ?_
    exact plain_of_toLower (hname _ (List.mem_map_of_mem hc))

end LowerAfter

end WordMachine.Text
