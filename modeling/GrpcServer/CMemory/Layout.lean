import GrpcServer.CMemory.CString

namespace c_memory

/-- The bytes of an array of `n` rows of `w` bytes, row after row. -/
def rows {w n : ℕ} (a : Fin n → Slot w) (k : ℕ) : UInt8 :=
  if h : k < w * n then
    a ⟨k / w, Nat.div_lt_of_lt_mul h⟩ ⟨k % w, Nat.mod_lt _ (Nat.pos_of_ne_zero fun hw => by simp [hw] at h)⟩
  else 0

/-- A member of `size` bytes followed by the members after it. -/
def member (size : ℕ) (bytes rest : ℕ → UInt8) (k : ℕ) : UInt8 :=
  if k < size then bytes k else rest (k - size)

/-- A single byte array seen as the bytes of a member. -/
def bytesOf {w : ℕ} (s : Slot w) (k : ℕ) : UInt8 := if h : k < w then s ⟨k, h⟩ else 0

/-- Object representation of a 32-bit `int` on a little-endian machine. -/
def leBytes (x : Int32) : Slot 4 := fun k => (x.toUInt32 >>> (8 * k.val).toUInt32).toUInt8

/-- Object representation of a `uint64_t`. -/
def leBytes64 (x : UInt64) : Slot 8 := fun k => (x >>> (8 * k.val).toUInt64).toUInt8

/-- The `int` whose object representation is given. -/
def ofLeBytes (b : Slot 4) : Int32 :=
  ((b 0).toUInt32 ||| (b 1).toUInt32 <<< 8 ||| (b 2).toUInt32 <<< 16 ||| (b 3).toUInt32 <<< 24).toInt32

theorem rows_apply {w n : ℕ} (a : Fin n → Slot w) (i : Fin n) (k : Fin w) :
    rows a (w * i.val + k.val) = a i k := by
  have hlt : w * i.val + k.val < w * n :=
    calc w * i.val + k.val < w * i.val + w := by omega
      _ = w * (i.val + 1) := by rw [Nat.mul_add, Nat.mul_one]
      _ ≤ w * n := Nat.mul_le_mul_left _ i.isLt
  have hdiv : (w * i.val + k.val) / w = i.val := by
    rw [Nat.mul_add_div (by omega), Nat.div_eq_of_lt k.isLt, Nat.add_zero]
  have hmod : (w * i.val + k.val) % w = k.val := by
    rw [Nat.mul_add_mod, Nat.mod_eq_of_lt k.isLt]
  rw [rows, dif_pos hlt]
  simp only [hdiv, hmod, Fin.eta]

@[simp] theorem member_of_lt {size k : ℕ} (bytes rest : ℕ → UInt8) (h : k < size) :
    member size bytes rest k = bytes k := if_pos h

@[simp] theorem member_add (size k : ℕ) (bytes rest : ℕ → UInt8) :
    member size bytes rest (size + k) = rest k := by
  simp [member]

@[simp] theorem bytesOf_apply {w : ℕ} (s : Slot w) (k : Fin w) : bytesOf s k.val = s k := by
  simp [bytesOf]

section Zero

theorem rows_zero {w n : ℕ} {a : Fin n → Slot w} (h : ∀ i k, a i k = 0) (k : ℕ) : rows a k = 0 := by
  unfold rows
  split
  · exact h _ _
  · rfl

theorem member_zero {bytes rest : ℕ → UInt8} (hbytes : ∀ k, bytes k = 0) (hrest : ∀ k, rest k = 0)
    (size k : ℕ) : member size bytes rest k = 0 := by
  unfold member
  split
  · exact hbytes k
  · exact hrest _

theorem bytesOf_zero {w : ℕ} {s : Slot w} (h : ∀ k, s k = 0) (k : ℕ) : bytesOf s k = 0 := by
  unfold bytesOf
  split
  · exact h _
  · rfl

theorem leBytes_zero : ∀ k, leBytes 0 k = 0 := by decide

theorem ofLeBytes_zero {b : Slot 4} (h : ∀ k, b k = 0) : ofLeBytes b = 0 := by
  rw [ofLeBytes, h, h, h, h]
  rfl

end Zero

end c_memory
