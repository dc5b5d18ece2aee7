import SegmentStream.Bytes

/-!
# Little-endian integers

`encodeLE width value` writes the low `width` bytes of `value`, least
significant first; `decodeLE` reads all bytes it is given.  Reading a field off
the front of a byte string is `takeLE?`.
-/

namespace SegmentStream

def encodeLE : Nat → Nat → Bytes
  | 0, _ => []
  | width + 1, value => UInt8.ofNat value :: encodeLE width (value / 256)

def decodeLE : Bytes → Nat
  | [] => 0
  | byte :: rest => byte.toNat + 256 * decodeLE rest

def takeLE? (width : Nat) (bytes : Bytes) : Option (Nat × Bytes) :=
  if width ≤ bytes.length then some (decodeLE (bytes.take width), bytes.drop width) else none

@[simp] theorem encodeLE_length (width value : Nat) : (encodeLE width value).length = width := by
  induction width generalizing value with
  | zero => rfl
  | succ width ih => simp [encodeLE, ih]

theorem decodeLE_lt (bytes : Bytes) : decodeLE bytes < 256 ^ bytes.length := by
  induction bytes with
  | nil => simp [decodeLE]
  | cons byte rest ih =>
      have := byte.toNat_lt
      simp only [decodeLE, List.length_cons, Nat.pow_succ]
      omega

theorem decodeLE_encodeLE (width value : Nat) :
    decodeLE (encodeLE width value) = value % 256 ^ width := by
  induction width generalizing value with
  | zero => simp [encodeLE, decodeLE, Nat.mod_one]
  | succ width ih =>
      have hbyte : (UInt8.ofNat value).toNat = value % 256 := UInt8.toNat_ofNat' ..
      rw [encodeLE, decodeLE, ih, hbyte, Nat.pow_succ', Nat.mod_mul]

theorem encodeLE_decodeLE (bytes : Bytes) : encodeLE bytes.length (decodeLE bytes) = bytes := by
  induction bytes with
  | nil => rfl
  | cons byte rest ih =>
      have hlt := byte.toNat_lt
      have hdiv : (byte.toNat + 256 * decodeLE rest) / 256 = decodeLE rest := by omega
      simp only [List.length_cons, encodeLE, decodeLE, hdiv, ih]
      congr 1
      apply UInt8.toNat_inj.mp
      have hbyte : (UInt8.ofNat (byte.toNat + 256 * decodeLE rest)).toNat =
          (byte.toNat + 256 * decodeLE rest) % 256 := UInt8.toNat_ofNat' ..
      rw [hbyte]
      omega

@[simp] theorem takeLE?_encodeLE (width value : Nat) (rest : Bytes) :
    takeLE? width (encodeLE width value ++ rest) = some (value % 256 ^ width, rest) := by
  simp [takeLE?, decodeLE_encodeLE]

end SegmentStream
