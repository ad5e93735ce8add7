import Mathlib.Algebra.GroupWithZero.Nat

namespace ones_complement

/-- The 16-bit word at index `i`, the more significant byte first. -/
def word (data : ℕ → UInt8) (i : ℕ) : ℕ := (data (2 * i)).toNat * 256 + (data (2 * i + 1)).toNat

/-- The first `n` words added up. -/
def word_sum (data : ℕ → UInt8) : ℕ → ℕ
  | 0 => 0
  | n + 1 => word_sum data n + word data n

/-- What is carried out of the lower sixteen bits is added back in. -/
def fold (s : ℕ) : ℕ := s / 65536 + s % 65536

/-- Two rounds bring every 32-bit sum down to sixteen bits. -/
def reduce (s : ℕ) : ℕ := fold (fold s)

/-- The complement of the one's complement sum. -/
def checksum (data : ℕ → UInt8) (n : ℕ) : ℕ := 65535 - reduce (word_sum data n)

/-- A receiver accepts the words: their sum, the checksum among them, has all bits
set. -/
def Valid (data : ℕ → UInt8) (n : ℕ) : Prop := reduce (word_sum data n) = 65535

instance (data : ℕ → UInt8) (n : ℕ) : Decidable (Valid data n) := inferInstanceAs (Decidable (_ = _))

theorem word_le (data : ℕ → UInt8) (i : ℕ) : word data i ≤ 65535 := by
  have hhi := (data (2 * i)).toNat_lt
  have hlo := (data (2 * i + 1)).toNat_lt
  unfold word
  omega

theorem word_sum_le (data : ℕ → UInt8) (n : ℕ) : word_sum data n ≤ 65535 * n := by
  induction n with
  | zero => exact Nat.le_refl 0
  | succ n ih =>
    have hword := word_le data n
    unfold word_sum
    omega

/-- The complement completes the sum. -/
theorem reduce_add_complement {s : ℕ} (h : s + 65535 < 2 ^ 32) : reduce (s + (65535 - reduce s)) = 65535 := by
  unfold reduce fold
  omega

/-- Replacing one word replaces its part of the sum. -/
theorem word_sum_replace {data other : ℕ → UInt8} {n k : ℕ} (hk : k < n)
    (hsame : ∀ i < n, i ≠ k → word other i = word data i) :
    word_sum other n + word data k = word_sum data n + word other k := by
  induction n with
  | zero => exact absurd hk (Nat.not_lt_zero k)
  | succ n ih =>
    unfold word_sum
    by_cases hlast : k = n
    · subst hlast
      have hstart : ∀ m ≤ k, word_sum other m = word_sum data m := by
        intro m hm
        induction m with
        | zero => rfl
        | succ m ihm => rw [word_sum, word_sum, ihm (by omega), hsame m (by omega) (by omega)]
      rw [hstart k (Nat.le_refl k)]
      omega
    · have hrest := ih (by omega) fun i hi => hsame i (by omega)
      rw [hsame n (by omega) (by omega)]
      omega

/-- Words whose checksum is computed with a zero in its place and then put there
are accepted. -/
theorem valid_of_checksum (data : ℕ → UInt8) {other : ℕ → UInt8} {n k : ℕ} (hk : k < n) (hn : n ≤ 65535)
    (hzero : word data k = 0) (hother : word other k = checksum data n)
    (hsame : ∀ i < n, i ≠ k → word other i = word data i) : Valid other n := by
  have hsum := word_sum_replace hk hsame
  have hbound := word_sum_le data n
  rw [hzero, hother, Nat.add_zero] at hsum
  rw [Valid, hsum, checksum]
  exact reduce_add_complement (by omega)

end ones_complement
