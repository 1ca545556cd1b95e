/-!
# Finding a place in a list by halving

A list is searched with a function that says of an element whether it lies ahead of what is looked for, is it, or
lies behind it.  If the answers ascend along the list, the stretch in question can be halved until one place is left.

* `Bisect.find` looks for an element and returns its place, or else the place where it belongs; `find_ok` and
  `find_error` say what that means where the answers ascend;
* `Bisect.partitionPoint` counts the elements at the front that satisfy a predicate of which the others do not;
  `partitionPoint_spec` says so, and `drop_take_partitionPoint` what lies between two such cuts.
-/

namespace NoWait

namespace Bisect

variable {α : Type} {f : α → Ordering} {p q : α → Bool} {l : List α} {i j : Nat}

/-- The answer at a place.  Whatever is looked for, the end of the list lies behind it. -/
def probe (f : α → Ordering) (l : List α) (i : Nat) : Ordering := (l[i]?.map f).getD .gt

/-- Halves a stretch of `size` places from `base` on until one place is left.  Each halving takes a place away, so
there are fewer of them than places. -/
def narrow (probe : Nat → Ordering) : (fuel base size : Nat) → Nat
  | 0, base, _ => base
  | fuel + 1, base, size =>
    if size ≤ 1 then base
    else if probe (base + size / 2) = .gt then narrow probe fuel base (size - size / 2)
    else narrow probe fuel (base + size / 2) (size - size / 2)

/-- The place that is left of the whole list. -/
def place (f : α → Ordering) (l : List α) : Nat := narrow (probe f l) l.length 0 l.length

/-- The place of an element that is looked for, or else the place where it belongs. -/
def find (f : α → Ordering) (l : List α) : Except Nat Nat :=
  match probe f l (place f l) with
  | .eq => .ok (place f l)
  | .lt => .error (place f l + 1)
  | .gt => .error (place f l)

/-- The number of elements that satisfy a predicate, where these come ahead of all others. -/
def partitionPoint (p : α → Bool) (l : List α) : Nat :=
  match find (fun a => if p a then .lt else .gt) l with
  | .ok point => point
  | .error point => point

/-! ### Answers that ascend -/

/-- Along the list the answers are first that an element lies ahead, then that it is it, then that it lies behind. -/
def Ascending (f : α → Ordering) (l : List α) : Prop :=
  l.Pairwise fun a b => (f b ≠ .gt → f a ≠ .gt) ∧ (f b = .lt → f a = .lt)

theorem probe_of_lt (h : i < l.length) : probe f l i = f l[i] := by
  simp [probe, h]

theorem probe_of_ge (h : l.length ≤ i) : probe f l i = .gt := by
  simp [probe, h]

theorem Ascending.probe (h : Ascending f l) (hij : i ≤ j) :
    (probe f l j ≠ .gt → probe f l i ≠ .gt) ∧ (probe f l j = .lt → probe f l i = .lt) := by
  by_cases hj : j < l.length
  · rcases Nat.eq_or_lt_of_le hij with rfl | hlt
    · exact ⟨id, id⟩
    · rw [probe_of_lt hj, probe_of_lt (Nat.lt_trans hlt hj)]
      exact List.pairwise_iff_getElem.mp h i j (Nat.lt_trans hlt hj) hj hlt
  · rw [probe_of_ge (i := j) (Nat.le_of_not_lt hj)]
    exact ⟨fun hne => absurd rfl hne, fun heq => by cases heq⟩

/-- The place that is left is the last one that does not lie behind, unless all do. -/
theorem narrow_spec {probe : Nat → Ordering} (hmono : ∀ i j, i ≤ j → probe j ≠ .gt → probe i ≠ .gt)
    {fuel base size : Nat} (hfuel : size ≤ fuel + 1) (hbase : base = 0 ∨ probe base ≠ .gt)
    (hbehind : ∀ j, base + size ≤ j → probe j = .gt) :
    (narrow probe fuel base size = 0 ∨ probe (narrow probe fuel base size) ≠ .gt) ∧
      ∀ j, narrow probe fuel base size < j → probe j = .gt := by
  induction fuel generalizing base size with
  | zero =>
    refine ⟨hbase, ?_⟩
    intro j hj
    have hj' : base < j := hj
    exact hbehind j (by omega)
  | succ fuel ih =>
    rw [narrow]
    by_cases hsize : size ≤ 1
    · rw [if_pos hsize]
      exact ⟨hbase, fun j hj => hbehind j (by omega)⟩
    · rw [if_neg hsize]
      by_cases hmid : probe (base + size / 2) = .gt
      · rw [if_pos hmid]
        have hbehind' : ∀ j, base + (size - size / 2) ≤ j → probe j = .gt := by
          intro j hj
          apply Decidable.byContradiction
          intro hne
          exact hmono (base + size / 2) j (by omega) hne hmid
        exact ih (by omega) hbase hbehind'
      · rw [if_neg hmid]
        exact ih (by omega) (.inr hmid) fun j hj => hbehind j (by omega)

theorem place_spec (h : Ascending f l) :
    (place f l = 0 ∨ probe f l (place f l) ≠ .gt) ∧ ∀ j, place f l < j → probe f l j = .gt :=
  narrow_spec (fun _ _ hij => (h.probe hij).1) (Nat.le_succ l.length) (.inl rfl) fun _ hj =>
    probe_of_ge (Nat.zero_add l.length ▸ hj)

/-! ### What is found -/

/-- An element that is found is one that was looked for. -/
theorem find_ok (hfind : find f l = .ok i) : ∃ hi : i < l.length, f l[i] = .eq := by
  unfold find at hfind
  split at hfind
  · rename_i heq
    cases hfind
    by_cases hlt : place f l < l.length
    · exact ⟨hlt, (probe_of_lt hlt).symm.trans heq⟩
    · rw [probe_of_ge (Nat.le_of_not_lt hlt)] at heq
      cases heq
  · cases hfind
  · cases hfind

/-- If none is found, the list is cut between what lies ahead and what lies behind. -/
theorem find_error (h : Ascending f l) (hfind : find f l = .error i) :
    (∀ j, j < i → probe f l j = .lt) ∧ ∀ j, i ≤ j → probe f l j = .gt := by
  obtain ⟨hplace, hbehind⟩ := place_spec h
  unfold find at hfind
  split at hfind
  · cases hfind
  · rename_i hlt
    cases hfind
    exact ⟨fun j hj => (h.probe (Nat.le_of_lt_succ hj)).2 hlt, fun j hj => hbehind j hj⟩
  · rename_i hgt
    cases hfind
    have hzero : place f l = 0 := hplace.resolve_right fun hne => hne hgt
    constructor
    · intro j hj
      omega
    · intro j hj
      rcases Nat.eq_or_lt_of_le hj with rfl | hlt
      · exact hgt
      · exact hbehind j hlt

/-- The same for the elements themselves. -/
theorem find_error_mem (h : Ascending f l) (hfind : find f l = .error i) :
    (∀ a ∈ l.take i, f a = .lt) ∧ ∀ a ∈ l.drop i, f a = .gt := by
  obtain ⟨hahead, hbehind⟩ := find_error h hfind
  constructor
  · intro a hmem
    obtain ⟨j, hj, rfl⟩ := List.mem_take_iff_getElem.mp hmem
    have hlt : j < l.length := by omega
    exact (probe_of_lt hlt).symm.trans (hahead j (by omega))
  · intro a hmem
    obtain ⟨j, hj, rfl⟩ := List.mem_drop_iff_getElem.mp hmem
    have hlt : i + j < l.length := by omega
    exact (probe_of_lt hlt).symm.trans (hbehind (i + j) (by omega))

/-! ### Cutting a list in two -/

/-- What satisfies the predicate comes ahead of the cut, and what does not comes behind. -/
theorem partitionPoint_spec (h : l.Pairwise fun a b => p b = true → p a = true) :
    (∀ a ∈ l.take (partitionPoint p l), p a = true) ∧ ∀ a ∈ l.drop (partitionPoint p l), p a = false := by
  have hascending : Ascending (fun a => if p a then .lt else .gt) l := by
    refine h.imp fun {a b} hab => ?_
    cases ha : p a <;> cases hb : p b <;> simp_all
  unfold partitionPoint
  cases hfind : find (fun a => if p a then .lt else .gt) l with
  | ok point =>
    obtain ⟨hlt, heq⟩ := find_ok hfind
    split at heq <;> cases heq
  | error point =>
    obtain ⟨hahead, hbehind⟩ := find_error_mem hascending hfind
    constructor
    · intro a hmem
      have hlt := hahead a hmem
      cases ha : p a <;> simp_all
    · intro a hmem
      have hgt := hbehind a hmem
      cases ha : p a <;> simp_all

/-- Between two cuts lies what one of them does not cut away at the front, nor the other one at the end. -/
theorem drop_take_partitionPoint (hp : l.Pairwise fun a b => p b = true → p a = true)
    (hq : l.Pairwise fun a b => q b = true → q a = true) :
    (l.take (partitionPoint p l)).drop (partitionPoint q l) = l.filter fun a => p a && !q a := by
  obtain ⟨hpfront, hpend⟩ := partitionPoint_spec hp
  obtain ⟨hqfront, hqend⟩ := partitionPoint_spec hq
  generalize partitionPoint p l = n at hpfront hpend
  generalize partitionPoint q l = m at hqfront hqend
  have hkept : ((l.take n).drop m).filter (fun a => p a && !q a) = (l.take n).drop m := by
    rw [List.filter_eq_self]
    intro a hmem
    have hpa := hpfront a (List.mem_of_mem_drop hmem)
    rw [List.drop_take] at hmem
    have hqa := hqend a (List.mem_of_mem_take hmem)
    rw [hpa, hqa]
    rfl
  have hfront : ((l.take n).take m).filter (fun a => p a && !q a) = [] := by
    rw [List.filter_eq_nil_iff]
    intro a hmem
    rw [List.take_take, Nat.min_comm, ← List.take_take] at hmem
    rw [hqfront a (List.mem_of_mem_take hmem)]
    simp
  have hend : (l.drop n).filter (fun a => p a && !q a) = [] := by
    rw [List.filter_eq_nil_iff]
    intro a hmem
    rw [hpend a hmem]
    simp
  have hsplit : l = ((l.take n).take m ++ (l.take n).drop m) ++ l.drop n := by
    rw [List.take_append_drop, List.take_append_drop]
  conv => rhs; rw [hsplit]
  rw [List.filter_append, List.filter_append, hfront, hkept, hend, List.nil_append, List.append_nil]

end Bisect

end NoWait
