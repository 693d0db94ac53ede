import Mathlib.Data.Nat.Bitwise
import Mathlib.Tactic.Common
import SlotStore.Binary64

/-!
# Rounding integers

Rounding an integer to the nearest double keeps the order of integers, although different integers
may round to one double.  Integers up to `2 ^ 53` are not rounded at all.

* `Binary64.magnitudeOfRatio_mono`, `Binary64.magnitudeOfRatio_strictMono` : on absolute values,
  also across a change of the exponent;
* `Binary64.ofInt_mono`, `Binary64.ofInt_strictMono` : in the total order of doubles.
-/

namespace SlotStore.Binary64

/-! ## One rounding -/

lemma div_le_roundHalfEven (a b : Nat) : a / b ≤ roundHalfEven a b := by
  rw [roundHalfEven]
  split
  · exact Nat.le_refl _
  · split <;> omega

lemma roundHalfEven_le (a b : Nat) : roundHalfEven a b ≤ a / b + 1 := by
  rw [roundHalfEven]
  split
  · omega
  · split <;> omega

/-- **Rounding keeps the order.** -/
lemma roundHalfEven_mono {a a' : Nat} (h : a ≤ a') (b : Nat) :
    roundHalfEven a b ≤ roundHalfEven a' b := by
  rcases Nat.lt_or_eq_of_le (Nat.div_le_div_right (c := b) h) with hlt | heq
  · exact Nat.le_trans (roundHalfEven_le a b) (Nat.le_trans hlt (div_le_roundHalfEven a' b))
  · -- Both lie above the same multiple of `b`, so the remainders are in order.
    have hrem : a % b ≤ a' % b := by
      have hsplit := Nat.div_add_mod a b
      have hsplit' := Nat.div_add_mod a' b
      rw [heq] at hsplit
      omega
    rw [roundHalfEven, roundHalfEven, heq]
    split_ifs <;> omega

/-! ## Absolute values -/

lemma lt_two_pow_bitLength (n : Nat) : n < 2 ^ bitLength n := by
  rw [bitLength]
  split
  · omega
  · exact Nat.lt_log2_self

lemma two_pow_le_of_bitLength {n k : Nat} (h : bitLength n = k + 1) : 2 ^ k ≤ n := by
  rw [bitLength] at h
  split at h
  · omega
  · rename_i hn
    obtain rfl : n.log2 = k := by omega
    exact Nat.log2_self_le hn

lemma bitLength_mono {n n' : Nat} (h : n ≤ n') : bitLength n ≤ bitLength n' := by
  by_contra hlt
  obtain ⟨k, hk⟩ : ∃ k, bitLength n = k + 1 := ⟨bitLength n - 1, by omega⟩
  have hpow : 2 ^ bitLength n' ≤ 2 ^ k := Nat.pow_le_pow_right (by omega) (by omega)
  exact absurd (Nat.le_trans (two_pow_le_of_bitLength hk) h)
    (Nat.not_le.mpr (Nat.lt_of_lt_of_le (lt_two_pow_bitLength n') hpow))

/-- The digits that are kept, and the exponent above them. -/
def keep (dropped n : Nat) : Nat := dropped * leadingBit + roundHalfEven n (1 <<< dropped)

/-- What is kept of a number stays within its power of two, or just reaches the next one. -/
lemma keep_le (dropped n : Nat) (h : bitLength n ≤ dropped + 53) :
    keep dropped n ≤ dropped * leadingBit + 2 ^ 53 := by
  have hlt : n < 2 ^ dropped * 2 ^ 53 := by
    rw [← Nat.pow_add]
    exact Nat.lt_of_lt_of_le (lt_two_pow_bitLength n) (Nat.pow_le_pow_right (by omega) h)
  have hdiv : n / 2 ^ dropped < 2 ^ 53 := Nat.div_lt_of_lt_mul hlt
  have hround := roundHalfEven_le n (2 ^ dropped)
  rw [keep, Nat.one_shiftLeft]
  omega

/-- What is kept of a number with more bits does not fall below its power of two. -/
lemma le_keep (dropped n : Nat) (h : bitLength n = dropped + 53) :
    dropped * leadingBit + leadingBit ≤ keep dropped n := by
  have hle : 2 ^ 52 * 2 ^ dropped ≤ n := by
    rw [← Nat.pow_add, Nat.add_comm]
    exact two_pow_le_of_bitLength h
  have hdiv : 2 ^ 52 ≤ n / 2 ^ dropped := (Nat.le_div_iff_mul_le (Nat.two_pow_pos _)).mpr hle
  have hround := div_le_roundHalfEven n (2 ^ dropped)
  rw [keep, Nat.one_shiftLeft, leadingBit]
  omega

/-- **Rounding keeps the order of absolute values.**  Where the exponent grows, the digits kept
before are at most twice the lowest ones after. -/
theorem magnitudeOfRatio_mono {n n' : Nat} (h : n ≤ n') :
    magnitudeOfRatio n 1 ≤ magnitudeOfRatio n' 1 := by
  simp only [magnitudeOfRatio, Nat.div_one]
  generalize hm : n <<< 1074 = m
  generalize hm' : n' <<< 1074 = m'
  have hmm : m ≤ m' := by
    rw [← hm, ← hm', Nat.shiftLeft_eq, Nat.shiftLeft_eq]
    exact Nat.mul_le_mul_right _ h
  have hbits := bitLength_mono hmm
  refine Nat.le_min.mpr ⟨Nat.le_trans (Nat.min_le_left _ _) ?_, Nat.min_le_right _ _⟩
  change keep (bitLength m - 53) m ≤ keep (bitLength m' - 53) m'
  by_cases hsame : bitLength m - 53 = bitLength m' - 53
  · rw [← hsame]
    exact Nat.add_le_add_left (roundHalfEven_mono hmm _) _
  · have hbelow := keep_le (bitLength m - 53) m (by omega)
    have habove := le_keep (bitLength m' - 53) m' (by omega)
    have hstep : (bitLength m - 53 + 1) * leadingBit ≤ (bitLength m' - 53) * leadingBit :=
      Nat.mul_le_mul_right _ (by omega)
    rw [Nat.add_mul] at hstep
    rw [leadingBit] at *
    omega

lemma magnitudeOfRatio_lt (num den : Nat) : magnitudeOfRatio num den < signBit :=
  Nat.lt_of_le_of_lt (Nat.min_le_right _ _) (by decide)

lemma magnitudeOfRatio_pos {n : Nat} (h : 0 < n) : 0 < magnitudeOfRatio n 1 :=
  Nat.lt_of_lt_of_le (by decide +kernel) (magnitudeOfRatio_mono h)

/-! ## Absolute values up to `2 ^ 53` -/

lemma bitLength_le {n k : Nat} (h : n < 2 ^ k) : bitLength n ≤ k := by
  rw [bitLength]
  split
  · exact Nat.zero_le k
  · rename_i hn
    exact (Nat.log2_lt hn).mpr h

/-- A multiple is not rounded. -/
lemma roundHalfEven_mul (a : Nat) {b : Nat} (hb : 0 < b) : roundHalfEven (a * b) b = a := by
  rw [roundHalfEven, Nat.mul_mod_left, Nat.mul_div_cancel _ hb, if_pos (by omega)]

/-- Digits that are all zero may be dropped. -/
lemma keep_mul (dropped n : Nat) : keep dropped (n * 2 ^ dropped) = dropped * leadingBit + n := by
  rw [keep, Nat.one_shiftLeft, roundHalfEven_mul _ (Nat.two_pow_pos dropped)]

/-- What is kept of two numbers in their order, if only zeros are dropped.  Of the greater one
nothing is asked where its exponent is the greater one, too. -/
lemma keep_lt_keep {m m' d d' a a' : Nat} (h : m < m') (hm : m = a * 2 ^ d)
    (hm' : d = d' → m' = a' * 2 ^ d') (hd : bitLength m ≤ d + 53)
    (hd' : d < d' → bitLength m' = d' + 53) (hle : d ≤ d') : keep d m < keep d' m' := by
  have ha : a < 2 ^ 53 := by
    have hlt : a * 2 ^ d < 2 ^ 53 * 2 ^ d := by
      rw [← hm, ← Nat.pow_add, Nat.add_comm]
      exact Nat.lt_of_lt_of_le (lt_two_pow_bitLength m) (Nat.pow_le_pow_right (by omega) hd)
    exact Nat.lt_of_mul_lt_mul_right hlt
  have hkeep := keep_mul d a
  rcases Nat.lt_or_eq_of_le hle with hlt | rfl
  · have habove := le_keep d' m' (hd' hlt)
    have hstep : (d + 1) * leadingBit ≤ d' * leadingBit := Nat.mul_le_mul_right _ hlt
    rw [hm, hkeep]
    rw [Nat.add_mul] at hstep
    rw [leadingBit] at *
    omega
  · rw [hm, hm' rfl] at h
    rw [hm, hm' rfl, hkeep, keep_mul]
    exact Nat.add_lt_add_left (Nat.lt_of_mul_lt_mul_right h) _

lemma shiftLeft_lt_shiftLeft {n n' : Nat} (k : Nat) (h : n < n') : n <<< k < n' <<< k := by
  rw [Nat.shiftLeft_eq, Nat.shiftLeft_eq]
  exact Nat.mul_lt_mul_of_pos_right h (Nat.two_pow_pos _)

lemma shiftLeft_eq_mul (n : Nat) {d k : Nat} (hd : d ≤ k) :
    n <<< k = n * 2 ^ (k - d) * 2 ^ d := by
  rw [Nat.mul_assoc, ← Nat.pow_add, Nat.sub_add_cancel hd, Nat.shiftLeft_eq]

/-- **Absolute values up to `2 ^ 53`** are not rounded, so they stay apart. -/
theorem magnitudeOfRatio_strictMono {n n' : Nat} (h : n < n') (hn' : n' ≤ 2 ^ 53) :
    magnitudeOfRatio n 1 < magnitudeOfRatio n' 1 := by
  have hd : bitLength (n <<< 1074) ≤ 53 + 1074 :=
    bitLength_le (Nat.shiftLeft_lt (Nat.lt_of_lt_of_le h hn'))
  have hd' : bitLength (n' <<< 1074) ≤ 54 + 1074 :=
    bitLength_le (Nat.shiftLeft_lt (Nat.lt_of_le_of_lt hn' (by decide)))
  have hlt := shiftLeft_lt_shiftLeft 1074 h
  have hmono := bitLength_mono (Nat.le_of_lt hlt)
  have hkeep : keep (bitLength (n <<< 1074) - 53) (n <<< 1074) <
      keep (bitLength (n' <<< 1074) - 53) (n' <<< 1074) :=
    keep_lt_keep hlt (shiftLeft_eq_mul n (by omega)) (fun heq => shiftLeft_eq_mul n' (by omega))
      (by omega) (by omega) (by omega)
  have hroom := keep_le (bitLength (n' <<< 1074) - 53) (n' <<< 1074) (by omega)
  simp only [magnitudeOfRatio, Nat.div_one]
  have hinf : keep (bitLength (n' <<< 1074) - 53) (n' <<< 1074) ≤ infinityMagnitude := by
    rw [leadingBit] at hroom
    rw [infinityMagnitude]
    omega
  exact Nat.lt_min.mpr ⟨Nat.lt_of_le_of_lt (Nat.min_le_left _ _) hkeep,
    Nat.lt_of_le_of_lt (Nat.min_le_left _ _) (Nat.lt_of_lt_of_le hkeep hinf)⟩

/-! ## Doubles -/

section OfMagnitude

variable {b : Bool} {m : Nat}

lemma toNat_ofMagnitude (hm : m < signBit) :
    (ofMagnitude b m).bits.toNat = (if b then signBit else 0) + m := by
  have hbound : (if b then signBit else 0) + m < 2 ^ 64 := by
    rw [signBit] at *
    split <;> omega
  exact (UInt64.toNat_ofNat' ..).trans (Nat.mod_eq_of_lt hbound)

lemma magnitude_ofMagnitude (hm : m < signBit) : (ofMagnitude b m).magnitude = m := by
  rw [magnitude, toNat_ofMagnitude hm, signBit] at *
  split <;> omega

lemma negative_ofMagnitude (hm : m < signBit) : (ofMagnitude b m).negative = b := by
  rw [negative, toNat_ofMagnitude hm]
  cases b
  · exact decide_eq_false (by simpa using hm)
  · exact decide_eq_true (Nat.le_add_right _ _)

/-- The place in the total order once both zeros are alike. -/
def rankKey (x : Binary64) : Int := x.positiveZero.totalKey

lemma rankKey_ofMagnitude (hm : m < signBit) (hpos : 0 < m) :
    (ofMagnitude b m).rankKey = if b then -(m : Int) - 1 else m := by
  have hzero : ¬ (ofMagnitude b m).isZero = true := by
    rw [isZero, magnitude_ofMagnitude hm, decide_eq_true_eq]
    omega
  rw [rankKey, positiveZero, if_neg hzero, totalKey, negative_ofMagnitude hm,
    magnitude_ofMagnitude hm]

end OfMagnitude

/-- **The rank of a rounded integer.** -/
lemma rankKey_ofInt (n : Int) :
    (ofInt n).rankKey = if n < 0 then -(magnitudeOfRatio n.natAbs 1 : Int) - 1
      else magnitudeOfRatio n.natAbs 1 := by
  by_cases hn : n = 0
  · subst hn
    decide +kernel
  · rw [ofInt, ofRatio, rankKey_ofMagnitude (magnitudeOfRatio_lt _ _)
      (magnitudeOfRatio_pos (by omega))]
    simp only [decide_eq_true_eq]

/-- **Rounding keeps the order of integers.** -/
theorem ofInt_mono {a b : Int} (h : a ≤ b) : (ofInt a).rankKey ≤ (ofInt b).rankKey := by
  rw [rankKey_ofInt, rankKey_ofInt]
  by_cases ha : a < 0
  · by_cases hb : b < 0
    · have hmono : magnitudeOfRatio b.natAbs 1 ≤ magnitudeOfRatio a.natAbs 1 :=
        magnitudeOfRatio_mono (by omega)
      rw [if_pos ha, if_pos hb]
      omega
    · rw [if_pos ha, if_neg hb]
      omega
  · have hmono : magnitudeOfRatio a.natAbs 1 ≤ magnitudeOfRatio b.natAbs 1 :=
      magnitudeOfRatio_mono (by omega)
    rw [if_neg ha, if_neg (by omega)]
    omega

/-- **Integers up to `2 ^ 53` stay apart.** -/
theorem ofInt_strictMono {a b : Int} (h : a < b) (ha : a.natAbs ≤ 2 ^ 53) (hb : b.natAbs ≤ 2 ^ 53) :
    (ofInt a).rankKey < (ofInt b).rankKey := by
  rw [rankKey_ofInt, rankKey_ofInt]
  by_cases hneg : a < 0
  · by_cases hneg' : b < 0
    · have hmono : magnitudeOfRatio b.natAbs 1 < magnitudeOfRatio a.natAbs 1 :=
        magnitudeOfRatio_strictMono (by omega) ha
      rw [if_pos hneg, if_pos hneg']
      omega
    · rw [if_pos hneg, if_neg hneg']
      omega
  · have hmono : magnitudeOfRatio a.natAbs 1 < magnitudeOfRatio b.natAbs 1 :=
      magnitudeOfRatio_strictMono (by omega) hb
    rw [if_neg hneg, if_neg (by omega)]
    omega

end SlotStore.Binary64
