import NoWait.Bytes

/-!
# Bytes that grow at the end

A trail is a byte string to which bytes are added at its end and nowhere else, as a log is.  It is kept
last byte first beside its length, so adding takes no longer than there are bytes to add.

* `Trail.toBytes` is the byte string itself, `Trail.ofBytes` the trail of a byte string;
* `toBytes_append` says that bytes are added at the end, `toBytes_inj` that a trail is nothing but its
  byte string.
-/

namespace NoWait

/-- A byte string that grows at the end. -/
structure Trail where
  /-- The bytes, last first. -/
  reversed : Bytes
  size : Nat
  size_eq : size = reversed.length
  deriving DecidableEq, Repr

namespace Trail

/-- The trail of no bytes. -/
def empty : Trail := ⟨[], 0, rfl⟩

instance : Inhabited Trail := ⟨empty⟩

/-- The byte string. -/
def toBytes (trail : Trail) : Bytes := trail.reversed.reverse

/-- The trail of a byte string. -/
def ofBytes (bytes : Bytes) : Trail where
  reversed := bytes.reverse
  size := bytes.length
  size_eq := by simp

/-- Whether there are no bytes. -/
def isEmpty (trail : Trail) : Bool := trail.size = 0

/-- The trail with bytes added at its end. -/
def append (trail : Trail) (bytes : Bytes) : Trail where
  reversed := bytes.reverse ++ trail.reversed
  size := bytes.length + trail.size
  size_eq := by simp [trail.size_eq]

/-! ### The byte string after each operation -/

@[simp] theorem toBytes_empty : empty.toBytes = [] := rfl

@[simp] theorem toBytes_ofBytes (bytes : Bytes) : (ofBytes bytes).toBytes = bytes := by
  simp [toBytes, ofBytes]

@[simp] theorem toBytes_append (trail : Trail) (bytes : Bytes) :
    (trail.append bytes).toBytes = trail.toBytes ++ bytes := by
  simp [toBytes, append]

/-- The size is the number of bytes. -/
theorem length_toBytes (trail : Trail) : trail.toBytes.length = trail.size := by
  simp [toBytes, trail.size_eq]

theorem isEmpty_iff (trail : Trail) : trail.isEmpty = true ↔ trail.toBytes = [] := by
  rw [← List.length_eq_zero_iff, length_toBytes]
  simp [isEmpty]

/-- Trails of the same byte string are the same. -/
theorem toBytes_inj {a b : Trail} : a.toBytes = b.toBytes ↔ a = b := by
  constructor
  · intro h
    obtain ⟨xs, m, hm⟩ := a
    obtain ⟨ys, n, hn⟩ := b
    have hxy : xs = ys := List.reverse_inj.mp h
    subst hxy hm hn
    rfl
  · rintro rfl
    rfl

end Trail

end NoWait
