/-!
# Record positions

A record is found by its page and by its slot within the page, each a 32-bit number.  Positions are
ordered by page and then by slot, which is storage order; `Rid.compare_eq_lt_iff` spells the order out.

Pages and slots are counted without a bound where they are kept.  A `Place` has the two counts, and
`Place.rid` cuts them to the 32 bits of a position; `Place.isNamed_iff` says exactly when nothing is lost,
so that the position names the place.
-/

namespace NoWait

/-- The position of a record inside a table's storage. -/
structure Rid where
  page : UInt32
  slot : UInt32
  deriving DecidableEq, Inhabited, Repr

namespace Rid

/-- Storage order: by page, then by slot. -/
instance : Ord Rid := ⟨compareLex (compareOn Rid.page) (compareOn Rid.slot)⟩

instance : Std.TransOrd Rid :=
  inferInstanceAs (Std.TransCmp (compareLex (compareOn Rid.page) (compareOn Rid.slot)))

instance : Std.LawfulEqOrd Rid where
  eq_of_compare {a b} h := by
    obtain ⟨hp, hs⟩ := compareLex_eq_eq.mp h
    cases a
    cases b
    exact Rid.mk.injEq .. ▸ ⟨Std.LawfulEqOrd.eq_of_compare hp, Std.LawfulEqOrd.eq_of_compare hs⟩

/-- Storage order goes by the page, and within a page by the slot. -/
theorem compare_eq_lt_iff {a b : Rid} : compare a b = .lt ↔
    a.page.toNat < b.page.toNat ∨ a.page.toNat = b.page.toNat ∧ a.slot.toNat < b.slot.toNat := by
  show compareLex (compareOn Rid.page) (compareOn Rid.slot) a b = .lt ↔ _
  simp only [compareLex, compareOn, Ordering.then_eq_lt, Std.compare_eq_lt,
    Std.LawfulEqOrd.compare_eq_iff_eq, UInt32.lt_iff_toNat_lt, ← UInt32.toNat_inj]

/-- The text of a position: page and slot in round brackets. -/
def text (rid : Rid) : String := s!"({rid.page}, {rid.slot})"

end Rid

/-! ### Places -/

/-- The place of a slot: the number of its page, and its number on the page. -/
@[ext] structure Place where
  page : Nat
  slot : Nat
  deriving DecidableEq, Inhabited, Repr

/-- The place that a position names. -/
def Rid.place (rid : Rid) : Place := ⟨rid.page.toNat, rid.slot.toNat⟩

namespace Place

/-- The position that is given out for a place: its two numbers, each cut to 32 bits. -/
def rid (place : Place) : Rid := ⟨UInt32.ofNat place.page, UInt32.ofNat place.slot⟩

/-- Whether the position that is given out for a place is the one that names it. -/
def isNamed (place : Place) : Bool := place.rid.place = place

/-- Whether a place comes before another in storage. -/
def Before (place place' : Place) : Prop :=
  place.page < place'.page ∨ place.page = place'.page ∧ place.slot < place'.slot

variable {place place' : Place}

theorem place_rid_eq (place : Place) :
    place.rid.place = ⟨place.page % UInt32.size, place.slot % UInt32.size⟩ := rfl

/-- Cutting a number to 32 bits makes it smaller, if it changes it. -/
theorem place_rid_le (place : Place) :
    place.rid.place.page ≤ place.page ∧ place.rid.place.slot ≤ place.slot :=
  ⟨Nat.mod_le _ _, Nat.mod_le _ _⟩

theorem isNamed_iff : place.isNamed = true ↔ place.page < UInt32.size ∧ place.slot < UInt32.size := by
  rw [isNamed, decide_eq_true_eq, place_rid_eq, Place.ext_iff]
  simp only [Nat.mod_eq_iff_lt (show UInt32.size ≠ 0 by decide)]

/-- The position that is given out for a place that none names is that of an earlier place. -/
theorem before_of_not_isNamed (h : place.isNamed = false) : place.rid.place.Before place := by
  obtain ⟨hpage, hslot⟩ := place.place_rid_le
  have hne : place.rid.place ≠ place := of_decide_eq_false h
  rw [ne_eq, Place.ext_iff] at hne
  unfold Before
  omega

theorem place_rid_of_isNamed (h : place.isNamed = true) : place.rid.place = place := of_decide_eq_true h

end Place

namespace Rid

variable {rid rid' : Rid}

@[simp] theorem rid_place (rid : Rid) : rid.place.rid = rid := by
  cases rid
  simp [place, Place.rid]

@[simp] theorem isNamed_place (rid : Rid) : rid.place.isNamed = true := by
  simp [Place.isNamed]

theorem place_inj : rid.place = rid'.place ↔ rid = rid' := by
  constructor
  · intro h
    rw [← rid.rid_place, h, rid_place]
  · rintro rfl
    rfl

/-- Storage order goes by the places. -/
theorem compare_eq_lt_iff_before : compare rid rid' = .lt ↔ rid.place.Before rid'.place := compare_eq_lt_iff

end Rid

end NoWait
