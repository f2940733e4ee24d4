import LoadPlan.Number.Double
import Mathlib.Tactic.SplitIfs

/-! Whole numbers as floating-point values. A whole number is rounded to 53 significant bits, which is
the same as rounding its units, for the grid that they are rounded on is scaled with them. Rounding keeps
the order, it keeps numbers that have no more significant bits than these, and it moves a 64-bit number by
at most 512. -/
namespace LoadPlan

section
variable {m n : Nat}

theorem twoTo_pos (n : Nat) : 0 < twoTo n := Nat.two_pow_pos n

theorem twoTo_add (m n : Nat) : twoTo (m + n) = twoTo m * twoTo n := Nat.pow_add 2 m n

theorem twoTo_le (le : m ≤ n) : twoTo m ≤ twoTo n := Nat.pow_le_pow_right (by decide) le

theorem twoTo_lt (lt : m < n) : twoTo m < twoTo n := Nat.pow_lt_pow_right (by decide) lt

end

namespace Double

section
variable {num num' den : Nat}

/-- The quotient or the number after it, whichever is not farther away. -/
theorem roundDiv_cases (num den : Nat) :
    (roundDiv num den = num / den ∧ 2 * (num % den) ≤ den) ∨
      (roundDiv num den = num / den + 1 ∧ den ≤ 2 * (num % den)) := by
  unfold roundDiv
  dsimp only
  by_cases below : 2 * (num % den) < den
  · rw [if_pos below]
    exact .inl ⟨rfl, Nat.le_of_lt below⟩
  by_cases above : den < 2 * (num % den)
  · rw [if_neg below, if_pos above]
    exact .inr ⟨rfl, Nat.le_of_lt above⟩
  · rw [if_neg below, if_neg above]
    omega

theorem roundDiv_near (num : Nat) (positive : 0 < den) :
    2 * num ≤ 2 * (roundDiv num den * den) + den ∧ 2 * (roundDiv num den * den) ≤ 2 * num + den := by
  have parts : num / den * den + num % den = num := Nat.div_add_mod' num den
  have below : num % den < den := Nat.mod_lt num positive
  rcases roundDiv_cases num den with ⟨rounded, near⟩ | ⟨rounded, near⟩
  · rw [rounded]
    omega
  · have next : (num / den + 1) * den = num / den * den + den := Nat.succ_mul _ _
    rw [rounded, next]
    omega

theorem roundDiv_mono (le : num ≤ num') : roundDiv num den ≤ roundDiv num' den := by
  rcases Nat.lt_or_eq_of_le (Nat.div_le_div_right le : num / den ≤ num' / den) with less | same
  · have before := roundDiv_cases num den
    have after := roundDiv_cases num' den
    omega
  · have remainders : num % den ≤ num' % den := by
      have parts : num / den * den + num % den = num := Nat.div_add_mod' num den
      have parts' : num' / den * den + num' % den = num' := Nat.div_add_mod' num' den
      rw [same] at parts
      omega
    unfold roundDiv
    dsimp only
    rw [same]
    split_ifs <;> omega

theorem roundDiv_multiple (count : Nat) (positive : 0 < den) : roundDiv (count * den) den = count := by
  unfold roundDiv
  dsimp only
  rw [Nat.mul_div_cancel count positive, Nat.mul_mod_left, Nat.mul_zero, if_pos positive]

theorem roundDiv_mul_of_dvd (positive : 0 < den) (divides : den ∣ num) :
    roundDiv num den * den = num := by
  obtain ⟨count, rfl⟩ := divides
  rw [Nat.mul_comm den count, roundDiv_multiple count positive]

theorem roundDiv_scaled (num den : Nat) {scale : Nat} (positive : 0 < scale) :
    roundDiv (num * scale) (den * scale) = roundDiv num den := by
  unfold roundDiv
  dsimp only
  rw [Nat.mul_div_mul_right _ _ positive, Nat.mul_mod_mul_right, ← Nat.mul_assoc]
  simp only [Nat.mul_lt_mul_right positive]

end

/-- A whole number rounded to 53 significant bits. -/
def rounded (n : Nat) : Nat := roundDiv n (twoTo (spareBits n)) * twoTo (spareBits n)

/-- A number of at most 53 significant bits, whatever zeros follow. -/
def Significant (n : Nat) : Prop := ∃ digits zeros, digits < twoTo 53 ∧ n = digits * twoTo zeros

section
variable {m n : Nat}

theorem significant_of_lt (small : n < twoTo 53) : Significant n :=
  ⟨n, 0, small, (Nat.mul_one n).symm⟩

theorem significant_twoTo (k : Nat) : Significant (twoTo k) :=
  ⟨1, k, by decide, (Nat.one_mul _).symm⟩

theorem Significant.scaled (significant : Significant n) (k : Nat) : Significant (n * twoTo k) := by
  obtain ⟨digits, zeros, few, rfl⟩ := significant
  exact ⟨digits, zeros + k, few, by rw [twoTo_add, Nat.mul_assoc]⟩

theorem lt_twoTo_spareBits (n : Nat) : n < twoTo 53 * twoTo (spareBits n) := by
  rw [← twoTo_add]
  exact Nat.lt_of_lt_of_le Nat.lt_log2_self (twoTo_le (by unfold spareBits; omega))

theorem twoTo_spareBits_le (spare : 0 < spareBits n) : twoTo 52 * twoTo (spareBits n) ≤ n := by
  have some : n ≠ 0 := by
    rintro rfl
    contradiction
  rw [← twoTo_add, show 52 + spareBits n = n.log2 by unfold spareBits at spare ⊢; omega]
  exact Nat.log2_self_le some

theorem spareBits_le (bound : n < twoTo (53 + k)) : spareBits n ≤ k := by
  by_cases zero : n = 0
  · subst zero
    exact Nat.zero_le k
  · have log := (Nat.log2_lt zero).mpr bound
    unfold spareBits
    omega

theorem spareBits_mono (le : m ≤ n) : spareBits m ≤ spareBits n := by
  apply spareBits_le
  rw [twoTo_add]
  exact Nat.lt_of_le_of_lt le (lt_twoTo_spareBits n)

theorem rounded_of_significant (significant : Significant n) : rounded n = n := by
  obtain ⟨digits, zeros, few, rfl⟩ := significant
  have spare : spareBits (digits * twoTo zeros) ≤ zeros := by
    apply spareBits_le
    rw [twoTo_add]
    exact Nat.mul_lt_mul_of_pos_right few (twoTo_pos zeros)
  apply roundDiv_mul_of_dvd (twoTo_pos _)
  exact Nat.dvd_trans (Nat.pow_dvd_pow 2 spare) (Nat.dvd_mul_left _ digits)

theorem rounded_le (n : Nat) : rounded n ≤ twoTo 53 * twoTo (spareBits n) := by
  apply Nat.mul_le_mul_right
  have bound : roundDiv n (twoTo (spareBits n)) ≤
      roundDiv (twoTo 53 * twoTo (spareBits n)) (twoTo (spareBits n)) :=
    roundDiv_mono (Nat.le_of_lt (lt_twoTo_spareBits n))
  rwa [roundDiv_multiple _ (twoTo_pos _)] at bound

theorem le_rounded (spare : 0 < spareBits n) : twoTo 52 * twoTo (spareBits n) ≤ rounded n := by
  apply Nat.mul_le_mul_right
  have bound : roundDiv (twoTo 52 * twoTo (spareBits n)) (twoTo (spareBits n)) ≤
      roundDiv n (twoTo (spareBits n)) :=
    roundDiv_mono (twoTo_spareBits_le spare)
  rwa [roundDiv_multiple _ (twoTo_pos _)] at bound

/-- Numbers of one length are rounded on one grid, and a power of two stands between others. -/
theorem rounded_mono (le : m ≤ n) : rounded m ≤ rounded n := by
  rcases Nat.lt_or_eq_of_le (spareBits_mono le) with fewer | same
  · calc rounded m ≤ twoTo 53 * twoTo (spareBits m) := rounded_le m
      _ = twoTo 52 * twoTo (spareBits m + 1) := by rw [← twoTo_add, ← twoTo_add]; congr 1; omega
      _ ≤ twoTo 52 * twoTo (spareBits n) := Nat.mul_le_mul_left _ (twoTo_le fewer)
      _ ≤ rounded n := le_rounded (Nat.zero_lt_of_lt fewer)
  · rw [rounded, rounded, same]
    exact Nat.mul_le_mul_right _ (roundDiv_mono le)

theorem rounded_near (n : Nat) :
    2 * n ≤ 2 * rounded n + twoTo (spareBits n) ∧ 2 * rounded n ≤ 2 * n + twoTo (spareBits n) :=
  roundDiv_near n (twoTo_pos _)

/-- A 64-bit number moves by half of the widest grid at most. -/
theorem rounded_near_word (bound : n ≤ twoTo 63) : n ≤ rounded n + 512 ∧ rounded n ≤ n + 512 := by
  rcases Nat.lt_or_eq_of_le bound with below | rfl
  · have grid : twoTo (spareBits n) ≤ 1024 := twoTo_le (spareBits_le (k := 10) below)
    have near := rounded_near n
    omega
  · rw [rounded_of_significant (significant_twoTo 63)]
    omega

/-- The grid is scaled with the number. -/
theorem rounded_scaled (n k : Nat) : rounded (n * twoTo k) = rounded n * twoTo k := by
  by_cases long : 52 ≤ n.log2
  · have some : n ≠ 0 := by
      rintro rfl
      contradiction
    have log : (n * twoTo k).log2 = n.log2 + k := by
      apply (Nat.log2_eq_iff (Nat.mul_ne_zero some (Nat.ne_of_gt (twoTo_pos k)))).mpr
      constructor
      · rw [Nat.pow_add]
        exact Nat.mul_le_mul_right _ (Nat.log2_self_le some)
      · rw [Nat.add_right_comm, Nat.pow_add]
        exact Nat.mul_lt_mul_of_pos_right Nat.lt_log2_self (twoTo_pos k)
    have spare : spareBits (n * twoTo k) = spareBits n + k := by
      unfold spareBits
      omega
    rw [rounded, rounded, spare, twoTo_add, roundDiv_scaled _ _ (twoTo_pos k), Nat.mul_assoc]
  · have significant : Significant n := by
      apply significant_of_lt
      exact Nat.lt_of_lt_of_le Nat.lt_log2_self (twoTo_le (by omega))
    rw [rounded_of_significant significant, rounded_of_significant (significant.scaled k)]

end

/-- Rounding leaves the sign. -/
def roundedInt (n : Int) : Int := if n < 0 then -rounded n.natAbs else rounded n.natAbs

section
variable {m n : Int}

theorem roundedInt_of_significant (significant : Significant n.natAbs) : roundedInt n = n := by
  rw [roundedInt, rounded_of_significant significant]
  split <;> omega

theorem roundedInt_mono (le : m ≤ n) : roundedInt m ≤ roundedInt n := by
  unfold roundedInt
  by_cases below : n < 0
  · rw [if_pos below, if_pos (Int.lt_of_le_of_lt le below)]
    have mono : rounded n.natAbs ≤ rounded m.natAbs := rounded_mono (by omega)
    omega
  by_cases negative : m < 0
  · rw [if_neg below, if_pos negative]
    omega
  · rw [if_neg below, if_neg negative]
    have mono : rounded m.natAbs ≤ rounded n.natAbs := rounded_mono (by omega)
    omega

theorem roundedInt_near (bound : n.natAbs ≤ twoTo 63) :
    n ≤ roundedInt n + 512 ∧ roundedInt n ≤ n + 512 := by
  have near := rounded_near_word bound
  unfold roundedInt
  split <;> omega

theorem nearest?_whole (negative : Bool) (n : Nat) : nearest? negative n 1 =
    if rounded (n * one) < limit then some ⟨negative, rounded (n * one)⟩ else none := by
  unfold nearest? rounded
  dsimp only
  rw [Nat.div_one, Nat.one_mul]

theorem rounded_lt_limit {n : Nat} (bound : n ≤ twoTo 63) : rounded n * one < limit := by
  have top : rounded n ≤ twoTo 63 := by
    have mono := rounded_mono bound
    rwa [rounded_of_significant (significant_twoTo 63)] at mono
  have wide (k l : Nat) (less : 63 + k < l) : rounded n * twoTo k < twoTo l := by
    calc rounded n * twoTo k ≤ twoTo 63 * twoTo k := Nat.mul_le_mul_right _ top
      _ = twoTo (63 + k) := (twoTo_add 63 k).symm
      _ < twoTo l := twoTo_lt less
  exact wide 1074 2098 (by decide)

theorem ofInt?_eq (bound : n.natAbs ≤ twoTo 63) :
    ofInt? n = some ⟨n < 0, rounded n.natAbs * one⟩ := by
  have units : rounded (n.natAbs * one) = rounded n.natAbs * one := rounded_scaled _ _
  rw [ofInt?, nearest?_whole, units, if_pos (rounded_lt_limit bound)]

theorem toUnits_rounded (n : Int) :
    toUnits ⟨n < 0, rounded n.natAbs * one⟩ = roundedInt n * one := by
  rw [toUnits, roundedInt]
  by_cases negative : n < 0
  · rw [if_pos (decide_eq_true negative), if_pos negative, Int.neg_mul, Int.natCast_mul]
  · rw [if_neg fun below => negative (of_decide_eq_true below), if_neg negative, Int.natCast_mul]

theorem units_ne_zero : (one : Int) ≠ 0 := Int.natCast_ne_zero.mpr (Nat.ne_of_gt (twoTo_pos 1074))

theorem floor_rounded (n : Int) : floor ⟨n < 0, rounded n.natAbs * one⟩ = roundedInt n := by
  rw [floor, toUnits_rounded, Int.mul_fdiv_cancel _ units_ne_zero]

theorem ceil_rounded (n : Int) : ceil ⟨n < 0, rounded n.natAbs * one⟩ = roundedInt n := by
  rw [ceil, toUnits_rounded, ← Int.neg_mul, Int.mul_fdiv_cancel _ units_ne_zero, Int.neg_neg]

end

end Double
end LoadPlan
