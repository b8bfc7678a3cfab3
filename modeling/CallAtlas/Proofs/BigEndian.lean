import CallAtlas.ClassFile.Reader

/-! Numbers as bytes, the highest byte first. -/

namespace CallAtlas.ClassFile

def bytesOf : (width n : Nat) → List UInt8
  | 0, _ => []
  | width + 1, n => bytesOf width (n / 256) ++ [n.toUInt8]

@[simp] theorem length_bytesOf (width n : Nat) : (bytesOf width n).length = width := by
  induction width generalizing n with
  | zero => rfl
  | succ width ih => simp [bytesOf, ih]

theorem bigEndian_concat (bytes : List UInt8) (b : UInt8) :
    bigEndian (bytes ++ [b]) = bigEndian bytes * 256 + b.toNat := by
  simp [bigEndian]

theorem bigEndian_bytesOf {width n : Nat} (bound : n < Nat.pow 256 width) :
    bigEndian (bytesOf width n) = n := by
  induction width generalizing n with
  | zero =>
    have zero : n = 0 := by simpa using bound
    rw [zero]
    rfl
  | succ width ih =>
    have high : n / 256 < Nat.pow 256 width := by
      rw [Nat.div_lt_iff_lt_mul (by decide)]
      exact bound
    have low : n.toUInt8.toNat = n % 256 := by simp
    rw [bytesOf, bigEndian_concat, ih high, low]
    omega

theorem signed_toNat {bits : Nat} (positive : 0 < bits) (x : BitVec bits) :
    signed bits x.toNat = x.toInt := by
  have half : 2 ^ bits = 2 * 2 ^ (bits - 1) := by
    rw [← Nat.pow_succ', Nat.succ_eq_add_one, Nat.sub_add_cancel positive]
  rw [BitVec.toInt_eq_toNat_cond, signed, Nat.pow_eq, Nat.pow_eq]
  by_cases small : x.toNat < 2 ^ (bits - 1)
  · rw [if_pos small, if_pos (by omega)]
  · rw [if_neg small, if_neg (by omega)]

theorem signed_int8 (value : Int8) : signed 8 value.toUInt8.toNat = value.toInt :=
  signed_toNat (by decide) value.toBitVec

theorem signed_int16 (value : Int16) : signed 16 value.toUInt16.toNat = value.toInt :=
  signed_toNat (by decide) value.toBitVec

theorem signed_int32 (value : Int32) : signed 32 value.toUInt32.toNat = value.toInt :=
  signed_toNat (by decide) value.toBitVec

theorem signed_int64 (value : Int64) : signed 64 value.toUInt64.toNat = value.toInt :=
  signed_toNat (by decide) value.toBitVec

@[simp] theorem holds_iff (n : Nat) (bytes : List UInt8) : holds n bytes = true ↔
    n ≤ bytes.length := by
  induction n generalizing bytes with
  | zero => simp [holds]
  | succ n ih =>
    cases bytes with
    | nil => simp [holds]
    | cons b rest => simp [holds, ih]

end CallAtlas.ClassFile
