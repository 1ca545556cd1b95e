/-!
# Byte strings: what rows, index keys and the log are made of

A row, an index key and a stretch of the log are all plain byte strings.  Keys are compared by
`compare` on lists: byte by byte as unsigned numbers, a proper initial piece before the longer string.

* `Bytes.toHex` writes a byte string in lower-case hexadecimal, two digits a byte, and `Bytes.ofHex?`
  reads it; `ofHex?_toHex` says that reading gives back what was written;
* `Bytes.le` and `Bytes.ofLE` are the fixed-width little-endian form of a number and its reading;
  `ofLE_le` says that reading gives back the number modulo the width, `le_ofLE` that every byte
  string is the written form of its value, `le_mod` that nothing beyond the width is written;
* `Bytes.split?` cuts off a given number of bytes, if there are that many.
-/

namespace NoWait

/-- A byte string: a row, an index key, or a stretch of the log. -/
abbrev Bytes := List UInt8

namespace Bytes

/-- The most bytes that one block of memory holds. -/
def blockLimit : Nat := UInt64.size / 2 - 1

/-! ### Hexadecimal text -/

/-- The lower-case hexadecimal digit of a number below sixteen. -/
def hexDigit (n : Nat) : Char :=
  if n < 10 then Char.ofNat (48 + n) else Char.ofNat (87 + n)

/-- Lower-case hexadecimal text, the high half of each byte first. -/
def toHex (bytes : Bytes) : String :=
  String.ofList (bytes.flatMap fun b => [hexDigit (b.toNat / 16), hexDigit (b.toNat % 16)])

/-- The value of a lower-case hexadecimal digit. -/
def hexValue? (c : Char) : Option Nat :=
  if '0' ≤ c ∧ c ≤ '9' then some (c.toNat - 48)
  else if 'a' ≤ c ∧ c ≤ 'f' then some (c.toNat - 87)
  else none

/-- The bytes for which pairs of hexadecimal digits stand. -/
def ofHexDigits? : List Char → Option Bytes
  | [] => some []
  | [_] => none
  | high :: low :: rest => do
    let byte := UInt8.ofNat ((← hexValue? high) * 16 + (← hexValue? low))
    return byte :: (← ofHexDigits? rest)

/-- The bytes for which hexadecimal text stands. -/
def ofHex? (text : String) : Option Bytes := ofHexDigits? text.toList

theorem hexValue?_hexDigit {n : Nat} (h : n < 16) : hexValue? (hexDigit n) = some n := by
  have hall : ∀ n : Fin 16, hexValue? (hexDigit n.val) = some n.val := by decide
  exact hall ⟨n, h⟩

/-- Reading what was written in hexadecimal gives the bytes back. -/
theorem ofHex?_toHex (bytes : Bytes) : ofHex? bytes.toHex = some bytes := by
  simp only [ofHex?, toHex, String.toList_ofList]
  induction bytes with
  | nil => rfl
  | cons b bytes ih =>
    have hb : b.toNat < 256 := b.toNat_lt
    have hvalue : UInt8.ofNat (b.toNat / 16 * 16 + b.toNat % 16) = b := by
      apply UInt8.toNat_inj.mp
      rw [UInt8.toNat_ofNat']
      omega
    have hhigh : b.toNat / 16 < 16 := by omega
    have hlow : b.toNat % 16 < 16 := by omega
    simp only [List.flatMap_cons, List.cons_append, List.nil_append, ofHexDigits?,
      hexValue?_hexDigit hhigh, hexValue?_hexDigit hlow, ih]
    exact congrArg (fun b => some (b :: bytes)) hvalue

/-! ### Little-endian numbers -/

/-- The `width` lowest bytes of `n`, lowest first. -/
def le : (width n : Nat) → Bytes
  | 0, _ => []
  | width + 1, n => UInt8.ofNat n :: le width (n / 256)

/-- The number whose bytes, lowest first, are given. -/
def ofLE : Bytes → Nat
  | [] => 0
  | b :: bytes => b.toNat + 256 * ofLE bytes

@[simp] theorem length_le (width n : Nat) : (le width n).length = width := by
  induction width generalizing n with
  | zero => rfl
  | succ width ih => simp [le, ih]

/-- Reading what was written gives the number modulo the width. -/
theorem ofLE_le (width n : Nat) : ofLE (le width n) = n % Nat.pow 256 width := by
  induction width generalizing n with
  | zero => exact (Nat.mod_one n).symm
  | succ width ih =>
    show (UInt8.ofNat n).toNat + 256 * ofLE (le width (n / 256)) = n % (Nat.pow 256 width * 256)
    rw [ih, Nat.mul_comm (Nat.pow 256 width) 256, Nat.mod_mul]
    simp [UInt8.toNat_ofNat']

/-- Every byte string is the written form of its value. -/
theorem le_ofLE (bytes : Bytes) : le bytes.length (ofLE bytes) = bytes := by
  induction bytes with
  | nil => rfl
  | cons b bytes ih =>
    have hb : b.toNat < 256 := b.toNat_lt
    have hhead : UInt8.ofNat (b.toNat + 256 * ofLE bytes) = b := by
      apply UInt8.toNat_inj.mp
      rw [UInt8.toNat_ofNat']
      omega
    have htail : (b.toNat + 256 * ofLE bytes) / 256 = ofLE bytes := by omega
    simp only [List.length_cons, ofLE, le, hhead, htail, ih]

/-- What does not fit into the width is not written. -/
theorem le_mod (width n : Nat) : le width (n % Nat.pow 256 width) = le width n := by
  have hread := le_ofLE (le width n)
  rwa [length_le, ofLE_le] at hread

/-- The big-endian form: the same bytes, highest first. -/
def be (width n : Nat) : Bytes := (le width n).reverse

/-! ### Cutting -/

/-- The first `n` bytes and the rest, or nothing when there are fewer than `n`. -/
def split? (n : Nat) (bytes : Bytes) : Option (Bytes × Bytes) :=
  if (bytes.take n).length < n then none else some (bytes.take n, bytes.drop n)

/-- Cutting at the length of the first piece undoes an append. -/
theorem split?_append (front rest : Bytes) :
    split? front.length (front ++ rest) = some (front, rest) := by
  simp [split?]

/-- A cut loses nothing and its first piece has the asked length. -/
theorem split?_eq_some_iff {n : Nat} {bytes front rest : Bytes} :
    split? n bytes = some (front, rest) ↔ bytes = front ++ rest ∧ front.length = n := by
  unfold split?
  constructor
  · intro h
    split at h
    · cases h
    · rename_i hn
      cases h
      rw [List.length_take] at hn
      exact ⟨(List.take_append_drop n bytes).symm, by rw [List.length_take]; omega⟩
  · rintro ⟨rfl, rfl⟩
    simp

end Bytes

end NoWait
