import CachePolicy.Json.Canonical
import Mathlib.Data.List.TakeWhile

/-!
# Whole numbers as doubles

A natural number up to 2 ^ 53 is a double, and its shortest decimal has the digits of the number
up to the zeros at its end.
-/

namespace CachePolicy

namespace Binary64

/-- A positive double that stands for a natural number, with `shift` bits of its significand
after the point. -/
structure StandsFor (x : Binary64) (n shift : Nat) : Prop where
  isNegative : x.isNegative = false
  magnitudeBits : x.magnitudeBits ≠ 0
  significand : x.significand = n * 2 ^ shift
  exponent : x.exponent = -shift

theorem roundHalfEven_one (n : Nat) : roundHalfEven n 1 = n := by
  simp [roundHalfEven, Nat.mod_one]

theorem magnitudeBits_ofMagnitude {magnitude : Nat} (small : magnitude < 2 ^ 63) :
    (ofMagnitude false magnitude).magnitudeBits = magnitude ∧
      (ofMagnitude false magnitude).isNegative = false := by
  have size : magnitude < 2 ^ 64 := by omega
  have bits : (ofMagnitude false magnitude).bits.toNat = magnitude := by
    simpa [ofMagnitude] using Nat.mod_eq_of_lt size
  constructor
  · rw [Binary64.magnitudeBits, bits, Nat.mod_eq_of_lt small]
  · rw [isNegative, bits]
    exact decide_eq_false (by omega)

/-- The bits of a positive number of at most 53 digits: its digits moved up until there are
53 of them. -/
theorem ofInt_eq {n shift : Nat} (few : shift ≤ 52) (low : 2 ^ 52 ≤ n * 2 ^ shift)
    (high : n * 2 ^ shift < 2 ^ 53) :
    ofInt n = ofMagnitude false ((1074 - shift) * binade + n * 2 ^ shift) := by
  have positive : n ≠ 0 := by
    rintro rfl
    omega
  have lead : n.log2 = 52 - shift := by
    have split : 2 ^ (52 - shift) * 2 ^ shift = 2 ^ 52 := by
      rw [← Nat.pow_add, Nat.sub_add_cancel few]
    have next : 2 ^ (52 - shift + 1) * 2 ^ shift = 2 ^ 53 := by
      rw [← Nat.pow_add]
      congr 1
      omega
    have some : 0 < 2 ^ shift := Nat.two_pow_pos shift
    apply (Nat.log2_eq_iff positive).mpr
    constructor
    · exact Nat.le_of_mul_le_mul_right (split ▸ low) some
    · exact Nat.lt_of_mul_lt_mul_right (next ▸ high)
  have guess : max ((n.log2 : Int) - (1 : Nat).log2 - 52) (-1074) = -(shift : Int) := by
    rw [lead, show (1 : Nat).log2 = 0 from rfl]
    omega
  have scaled : shifted n 1 (- -(shift : Int)) = (n * 2 ^ shift, 1) := by
    simp [shifted]
  have full : ¬ n * 2 ^ shift < binade * 1 := by
    rw [Nat.mul_one]
    exact Nat.not_lt.mpr low
  have sign : decide ((n : Int) < 0) = false := by simp
  have fits : (-(shift : Int) + 1074).toNat * binade + n * 2 ^ shift ≤ infinityBits := by
    rw [infinityBits, binade]
    omega
  rw [ofInt, ofRatio, sign, Int.natAbs_natCast, if_neg positive]
  simp only [guess, scaled, full, if_false, roundHalfEven_one, Nat.min_eq_left fits]
  congr 3
  omega

theorem exists_standsFor {n : Nat} (positive : 0 < n) (small : n < 2 ^ 53) :
    ∃ shift, (ofInt n).StandsFor n shift := by
  have digits : n.log2 < 53 := (Nat.log2_lt positive.ne').mpr small
  let shift := 52 - n.log2
  have few : shift ≤ 52 := Nat.sub_le _ _
  have low : 2 ^ 52 ≤ n * 2 ^ shift := by
    calc 2 ^ 52 = 2 ^ n.log2 * 2 ^ shift := by rw [← Nat.pow_add]; congr 1; omega
      _ ≤ n * 2 ^ shift := Nat.mul_le_mul_right _ (Nat.log2_self_le positive.ne')
  have high : n * 2 ^ shift < 2 ^ 53 := by
    calc n * 2 ^ shift < 2 ^ (n.log2 + 1) * 2 ^ shift :=
          Nat.mul_lt_mul_of_pos_right Nat.lt_log2_self (Nat.two_pow_pos _)
      _ = 2 ^ 53 := by rw [← Nat.pow_add]; congr 1; omega
  obtain ⟨fraction, split⟩ := Nat.exists_eq_add_of_le low
  rw [split] at high
  have below : fraction < binade := by
    rw [binade]
    omega
  have bits : (1074 - shift) * binade + n * 2 ^ shift = fraction + binade * (1075 - shift) := by
    rw [split, binade]
    omega
  have bound : (1074 - shift) * binade + n * 2 ^ shift < 2 ^ 63 := by
    rw [split, binade]
    omega
  obtain ⟨magnitude, sign⟩ := magnitudeBits_ofMagnitude bound
  have normal : ¬ (ofInt n).magnitudeBits < binade := by
    rw [ofInt_eq few low (split ▸ high), magnitude, split, binade]
    omega
  have value := ofInt_eq few low (split ▸ high)
  refine ⟨shift, ?_, ?_, ?_, ?_⟩
  · rw [value, sign]
  · intro zero
    rw [zero, binade] at normal
    exact normal (Nat.two_pow_pos 52)
  · rw [significand, if_neg normal, value, magnitude, bits, Nat.add_mul_mod_self_left,
      Nat.mod_eq_of_lt below, split, binade]
  · rw [exponent, if_neg normal, value, magnitude, bits, Nat.add_mul_div_left _ _ (by decide),
      Nat.div_eq_of_lt below]
    omega

theorem StandsFor.ratio {x : Binary64} {n shift : Nat} (whole : x.StandsFor n shift) :
    x.ratio = (n * 2 ^ shift, 2 ^ shift) := by
  rw [Binary64.ratio, whole.significand, whole.exponent, shifted]
  cases shift with
  | zero => simp
  | succ shift => rw [if_neg (by omega), Int.neg_neg, Int.toNat_natCast, Nat.one_mul]

end Binary64

namespace Decimal

open Binary64 (StandsFor)

/-! ## Counting digits -/

theorem digitCount_pos (n : Nat) : 0 < digitCount n := Nat.length_toDigits_pos

theorem digitCount_le_iff {n count : Nat} (some : 0 < count) :
    digitCount n ≤ count ↔ n < 10 ^ count :=
  Nat.length_toDigits_le_iff (by decide) some

theorem lt_digitCount_iff {n count : Nat} (positive : 0 < n) :
    count < digitCount n ↔ 10 ^ count ≤ n := by
  cases count with
  | zero => exact iff_of_true (digitCount_pos n) positive
  | succ count => rw [← Nat.not_le, digitCount_le_iff (Nat.succ_pos count), Nat.not_lt]

theorem exists_digitCount {n : Nat} (positive : 0 < n) :
    ∃ count, digitCount n = count + 1 ∧ 10 ^ count ≤ n ∧ n < 10 ^ (count + 1) := by
  obtain ⟨count, counted⟩ := Nat.exists_eq_add_of_lt (digitCount_pos n)
  rw [Nat.zero_add] at counted
  refine ⟨count, counted, ?_, ?_⟩
  · exact (lt_digitCount_iff positive).mp (by omega)
  · exact (digitCount_le_iff (Nat.succ_pos count)).mp (by omega)

/-- The magnitude of a whole number written as a fraction counts its digits. -/
theorem magnitude_mul {n scale : Nat} (positive : 0 < n) (some : 0 < scale) :
    magnitude (n * scale, scale) = digitCount n := by
  obtain ⟨digits, counted, low, high⟩ := exists_digitCount positive
  obtain ⟨others, otherCounted, otherLow, otherHigh⟩ := exists_digitCount some
  have least : digits + others < digitCount (n * scale) := by
    rw [lt_digitCount_iff (Nat.mul_pos positive some), Nat.pow_add]
    exact Nat.mul_le_mul low otherLow
  have greatest : digitCount (n * scale) ≤ digits + 1 + (others + 1) := by
    rw [digitCount_le_iff (by omega), Nat.pow_add]
    exact Nat.mul_lt_mul'' high otherHigh
  have below_iff (guess : Nat) :
      below (n * scale, scale) (ratio ⟨1, guess⟩) = true ↔ n < 10 ^ guess := by
    simp [below, ratio, Nat.mul_lt_mul_right some]
  -- The first guess may be one too low, as the digits of both parts only add up to about those
  -- of the fraction.
  have guesses : digitCount (n * scale) = digits + (others + 1) ∨
      digitCount (n * scale) = digits + 1 + (others + 1) := by omega
  rcases guesses with early | exact
  · have guess : (digitCount (n * scale) : Int) - digitCount scale = (digits : Nat) := by omega
    have under : below (n * scale, scale) (ratio ⟨1, (digits : Nat)⟩) = false := by
      rw [Bool.eq_false_iff, ne_eq, below_iff]
      exact Nat.not_lt.mpr low
    rw [magnitude, guess, under, counted]
    rfl
  · have guess : (digitCount (n * scale) : Int) - digitCount scale = (digits + 1 : Nat) := by
      omega
    rw [magnitude, guess, (below_iff (digits + 1)).mpr high, counted]
    rfl

/-! ## Finding the digits -/

variable {x : Binary64} {n shift : Nat}

/-- A decimal without a fraction is read as a whole number just when it is equal to it. -/
theorem readsAs_iff (whole : x.StandsFor n shift) (positive : 0 < n) (digits zeros : Nat) :
    readsAs ⟨digits, zeros⟩ x = true ↔ digits * 10 ^ zeros = n := by
  have some : 0 < 2 ^ shift := Nat.two_pow_pos shift
  have down : -(shift : Int) - 2 < 0 := by omega
  have back : (-(-(shift : Int) - 2)).toNat = shift + 2 := by omega
  have end_eq (m : Nat) :
      Binary64.shifted m 1 (-(shift : Int) - 2) = (m, 4 * 2 ^ shift) := by
    rw [Binary64.shifted, if_neg (Int.not_le.mpr down), back, Nat.pow_add, Nat.one_mul,
      Nat.mul_comm]
  have value : ratio ⟨digits, zeros⟩ = (digits * 10 ^ zeros, 1) := by simp [ratio]
  have near : digits * 10 ^ zeros = n ↔
      digits * 10 ^ zeros * 2 ^ shift = n * 2 ^ shift :=
    (Nat.mul_left_inj some.ne').symm
  have spread : digits * 10 ^ zeros * (4 * 2 ^ shift) =
      4 * (digits * 10 ^ zeros * 2 ^ shift) := Nat.mul_left_comm _ _ _
  have large : 0 < n * 2 ^ shift := Nat.mul_pos positive some
  simp only [readsAs, roundingEnds, whole.significand, whole.exponent, end_eq, value, near, below,
    spread]
  -- The ends are less than a unit away from the number, and both sides are whole.
  generalize digits * 10 ^ zeros * 2 ^ shift = read at *
  generalize n * 2 ^ shift = given at *
  split <;> split <;> simp <;> omega

/-- Some of the digits of a whole number say it just when all others are zeros. -/
theorem withDigits_eq (whole : x.StandsFor n shift) (positive : 0 < n) {count zeros : Nat}
    (all : digitCount n = count + zeros) :
    withDigits x count = if 10 ^ zeros ∣ n then some ⟨n / 10 ^ zeros, zeros⟩ else none := by
  have unitary : 0 < 2 ^ shift := Nat.two_pow_pos shift
  have scale : magnitude (n * 2 ^ shift, 2 ^ shift) - count = zeros := by
    rw [magnitude_mul positive unitary, all]
    omega
  have unit : ratio ⟨1, zeros⟩ = (10 ^ zeros, 1) := by simp [ratio]
  have low : n * 2 ^ shift * 1 / (2 ^ shift * 10 ^ zeros) = n / 10 ^ zeros := by
    rw [Nat.mul_one, Nat.mul_comm n, Nat.mul_div_mul_left _ _ unitary]
  have down : readsAs ⟨n / 10 ^ zeros, zeros⟩ x = decide (10 ^ zeros ∣ n) := by
    rw [Bool.eq_iff_iff, readsAs_iff whole positive, decide_eq_true_iff, Nat.dvd_iff_div_mul_eq]
  have up : readsAs ⟨n / 10 ^ zeros + 1, zeros⟩ x = false := by
    rw [Bool.eq_false_iff, ne_eq, readsAs_iff whole positive]
    exact (Nat.lt_mul_of_div_lt (Nat.lt_succ_self _) (Nat.pow_pos (by decide))).ne'
  simp only [withDigits, whole.ratio, scale, unit, low, down, up]
  by_cases divides : 10 ^ zeros ∣ n
  · simp [divides]
  · simp [divides]

/-- The shortest decimal of a whole number leaves out some of the zeros at its end. -/
theorem exists_shortest (whole : x.StandsFor n shift) (positive : 0 < n) (small : n < 10 ^ 17) :
    ∃ zeros : Nat, 10 ^ zeros ∣ n ∧ shortest x = ⟨n / 10 ^ zeros, zeros⟩ := by
  have most : digitCount n ≤ 17 := (digitCount_le_iff (by decide)).mpr small
  obtain ⟨last, counted, -, -⟩ := exists_digitCount positive
  obtain ⟨more, total⟩ := Nat.exists_eq_add_of_le most
  have found : ((List.range (digitCount n)).findSome? fun m => withDigits x (m + 1)).isSome := by
    rw [List.findSome?_isSome_iff]
    refine ⟨last, List.mem_range.mpr (by omega), ?_⟩
    have hit := withDigits_eq whole positive (show digitCount n = last + 1 + 0 from counted)
    rw [hit, if_pos (by simp)]
    rfl
  obtain ⟨shortest, first⟩ := Option.isSome_iff_exists.mp found
  obtain ⟨m, member, hit⟩ := List.exists_of_findSome?_eq_some first
  have early : m < digitCount n := List.mem_range.mp member
  rw [withDigits_eq whole positive
    (by omega : digitCount n = m + 1 + (digitCount n - (m + 1)))] at hit
  obtain ⟨divides, same⟩ := Option.ite_none_right_eq_some.mp hit
  refine ⟨_, divides, ?_⟩
  rw [Decimal.shortest, total, List.range_add, List.findSome?_append, first, ← same]
  rfl

/-! ## Writing the digits -/

theorem toDigits_mul_pow {n : Nat} (positive : 0 < n) (zeros : Nat) :
    Nat.toDigits 10 (n * 10 ^ zeros) = Nat.toDigits 10 n ++ List.replicate zeros '0' := by
  induction zeros with
  | zero => simp
  | succ zeros ih =>
      have step := Nat.toDigits_append_toDigits (b := 10) (d := 0) (by decide)
        (Nat.mul_pos positive (Nat.pow_pos (n := zeros) (by decide : 0 < 10))) (by decide)
      rw [List.replicate_succ', ← List.append_assoc, ← ih, Nat.pow_succ, ← Nat.mul_assoc,
        Nat.mul_comm (n * 10 ^ zeros)]
      exact step.symm

theorem length_stripped (text : List Char) :
    (text.reverse.dropWhile (· == '0')).reverse.length ≤ text.length := by
  simpa using List.length_dropWhile_le (· == '0') text.reverse

/-- The zeros that are left out at the end of a text come back when it is padded. -/
theorem stripped_append_zeros (text : List Char) (more : Nat) :
    (text.reverse.dropWhile (· == '0')).reverse ++
        List.replicate (text.length + more -
          (text.reverse.dropWhile (· == '0')).reverse.length) '0' =
      text ++ List.replicate more '0' := by
  have zeros : text.reverse.takeWhile (· == '0') =
      List.replicate (text.reverse.takeWhile (· == '0')).length '0' :=
    List.eq_replicate_iff.mpr ⟨rfl, fun c member => by simpa using List.mem_takeWhile_imp member⟩
  have parts := List.takeWhile_append_dropWhile (p := (· == '0')) (l := text.reverse)
  have reversed := congrArg List.reverse parts
  rw [List.reverse_append, List.reverse_reverse, zeros, List.reverse_replicate] at reversed
  have lengths := congrArg List.length reversed
  rw [List.length_append, List.length_replicate] at lengths
  have count : text.length + more - (text.reverse.dropWhile (· == '0')).reverse.length =
      (text.reverse.takeWhile (· == '0')).length + more := by omega
  rw [count, ← List.replicate_append_replicate, ← List.append_assoc, reversed]

theorem place_whole {digits : List Char} {point : Nat} (some : 0 < point) (few : point ≤ 21)
    (inside : digits.length ≤ point) :
    place Json.canonicalDoubles digits point =
      digits ++ List.replicate (point - digits.length) '0' := by
  have positional : ¬((point : Int) < -5 ∨ 21 < (point : Int)) := by omega
  have after : ¬(point : Int) ≤ 0 := by omega
  have taken : digits.take (point : Int).toNat = digits := List.take_of_length_le inside
  have dropped : digits.drop (point : Int).toNat = [] := List.drop_eq_nil_of_le inside
  simp only [place, Json.canonicalDoubles, positional, after, taken, dropped]
  rfl

/-- A whole number is written with all its digits. -/
theorem write_whole (whole : x.StandsFor n shift) (positive : 0 < n) (small : n < 10 ^ 17) :
    write Json.canonicalDoubles x = Nat.toDigits 10 n := by
  obtain ⟨zeros, divides, short⟩ := exists_shortest whole positive small
  generalize value : n / 10 ^ zeros = leading at short
  have all : Nat.toDigits 10 n = Nat.toDigits 10 leading ++ List.replicate zeros '0' := by
    have some : 0 < n / 10 ^ zeros :=
      Nat.div_pos (Nat.le_of_dvd positive divides) (Nat.pow_pos (by decide))
    rw [← value, ← toDigits_mul_pow some, Nat.div_mul_cancel divides]
  have total : (Nat.toDigits 10 leading).length + zeros = digitCount n := by
    rw [digitCount, all, List.length_append, List.length_replicate]
  have inside := (length_stripped (Nat.toDigits 10 leading)).trans
    (total ▸ Nat.le_add_right _ zeros)
  have few : digitCount n ≤ 21 :=
    ((digitCount_le_iff (by decide)).mpr small).trans (by decide)
  have point : ((Nat.toDigits 10 leading).length : Int) + zeros = digitCount n := by
    exact_mod_cast total
  rw [write, if_neg whole.magnitudeBits, whole.isNegative, short, significantDigits]
  simp only [point, Bool.false_eq_true, if_false]
  rw [place_whole (digitCount_pos n) few inside, ← total, stripped_append_zeros, all]

end Decimal

/-- Up to 2 ^ 53 the canonical text of a natural number has its digits. -/
theorem Json.canonicalNumber_nat {n : Nat} (exact : n ≤ 2 ^ 53) :
    canonicalNumber (.int n) = Nat.toDigits 10 n := by
  rcases exact.eq_or_lt with rfl | small
  · decide +kernel
  rcases Nat.eq_zero_or_pos n with rfl | positive
  · decide +kernel
  obtain ⟨shift, whole⟩ := Binary64.exists_standsFor positive small
  exact Decimal.write_whole whole positive (small.trans (by decide))

/-- Up to 2 ^ 53 natural numbers are told apart. -/
theorem Json.canonicalNumber_nat_inj {n m : Nat} (exact : n ≤ 2 ^ 53) (otherExact : m ≤ 2 ^ 53)
    (same : canonicalNumber (.int n) = canonicalNumber (.int m)) : n = m := by
  have back (n : Nat) : Nat.ofDigitChars 10 (Nat.toDigits 10 n) 0 = n :=
    Nat.ofDigitChars_ten_toDigits
  rw [canonicalNumber_nat exact, canonicalNumber_nat otherExact] at same
  rw [← back n, same, back]

end CachePolicy
