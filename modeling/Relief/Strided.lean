set_option autoImplicit false

/-! # Strided buffers: groups of one length in a reused store

A row of pixels is kept in one array, the same number of places for each pixel. Such a buffer is
filled group by group and then used again for the next row. What it holds afterwards must not
depend on what it held before, and it does not: every place belongs to exactly one group
(`getElem?_fill`), so two buffers of one length are the same once they were filled
(`fill_eq_fill`). -/

namespace Relief.Strided

variable {α : Type} {k : Nat}

/-- Overwrites the `i`-th group of a buffer. -/
def put (buffer : Array α) (i : Nat) (group : Vector α k) : Array α :=
  Nat.fold k (fun j hj buffer => buffer.setIfInBounds (i * k + j) (group.get ⟨j, hj⟩)) buffer

/-- Overwrites the first `n` groups of a buffer, one after the other. -/
def fill (buffer : Array α) (n : Nat) (group : Nat → Vector α k) : Array α :=
  Nat.fold n (fun i _ buffer => put buffer i (group i)) buffer

/-! ## One group -/

theorem size_foldSet {m : Nat} (values : (j : Nat) → j < m → α) (buffer : Array α)
    (start : Nat) :
    (Nat.fold m (fun j hj buffer => buffer.setIfInBounds (start + j) (values j hj)) buffer).size
      = buffer.size := by
  induction m with
  | zero => rfl
  | succ m ih => rw [Nat.fold_succ, Array.size_setIfInBounds, ih]

theorem getElem?_foldSet {m : Nat} (values : (j : Nat) → j < m → α) (buffer : Array α)
    (start p : Nat) :
    (Nat.fold m (fun j hj buffer => buffer.setIfInBounds (start + j) (values j hj)) buffer)[p]?
      = if h : start ≤ p ∧ p < start + m then
          if p < buffer.size then some (values (p - start) (by omega)) else none
        else buffer[p]? := by
  induction m with
  | zero => rw [dif_neg (by omega)]; rfl
  | succ m ih =>
      rw [Nat.fold_succ, Array.getElem?_setIfInBounds, size_foldSet, ih]
      by_cases hp : start + m = p
      · subst hp
        rw [if_pos rfl, dif_pos ⟨by omega, by omega⟩]
        simp
      · rw [if_neg hp]
        by_cases h : start ≤ p ∧ p < start + m
        · rw [dif_pos h, dif_pos ⟨h.1, by omega⟩]
        · rw [dif_neg h, dif_neg (by omega)]

@[simp]
theorem size_put (buffer : Array α) (i : Nat) (group : Vector α k) :
    (put buffer i group).size = buffer.size :=
  size_foldSet _ _ _

/-- A place of the group holds its value of the group. -/
theorem getElem?_put_self (buffer : Array α) (i : Nat) (group : Vector α k) {j : Nat}
    (hj : j < k) (hsize : i * k + j < buffer.size) :
    (put buffer i group)[i * k + j]? = some (group.get ⟨j, hj⟩) := by
  rw [put, getElem?_foldSet, dif_pos ⟨by omega, by omega⟩, if_pos hsize]
  simp

/-- A place before the group stays. -/
theorem getElem?_put_of_lt (buffer : Array α) (i : Nat) (group : Vector α k) {p : Nat}
    (hp : p < i * k) : (put buffer i group)[p]? = buffer[p]? := by
  rw [put, getElem?_foldSet, dif_neg (by omega)]

/-! ## All groups -/

theorem fill_succ (buffer : Array α) (n : Nat) (group : Nat → Vector α k) :
    fill buffer (n + 1) group = put (fill buffer n group) n (group n) := by
  rw [fill, Nat.fold_succ, ← fill]

@[simp]
theorem size_fill (buffer : Array α) (n : Nat) (group : Nat → Vector α k) :
    (fill buffer n group).size = buffer.size := by
  induction n with
  | zero => rfl
  | succ n ih => rw [fill_succ, size_put, ih]

/-- A filled buffer holds at every place the value of its group, whatever it held before. -/
theorem getElem?_fill (buffer : Array α) {n : Nat} (group : Nat → Vector α k) {i j : Nat}
    (hi : i < n) (hj : j < k) (hsize : i * k + j < buffer.size) :
    (fill buffer n group)[i * k + j]? = some ((group i).get ⟨j, hj⟩) := by
  induction n with
  | zero => exact absurd hi (Nat.not_lt_zero i)
  | succ n ih =>
      rw [fill_succ]
      -- The last group is the one asked for, or starts behind the place.
      rcases Nat.lt_succ_iff_lt_or_eq.1 hi with hlt | rfl
      · have hgroup : i * k + j < n * k := by
          calc i * k + j < i * k + k := by omega
            _ = (i + 1) * k := (Nat.succ_mul i k).symm
            _ ≤ n * k := Nat.mul_le_mul_right k hlt
        rw [getElem?_put_of_lt _ _ _ hgroup, ih hlt]
      · exact getElem?_put_self _ _ _ hj (by simpa using hsize)

/-- **Nothing of the old content is left** in a buffer whose groups have all been overwritten. -/
theorem fill_eq_fill {old old' : Array α} {n : Nat} (group : Nat → Vector α k)
    (hold : old.size = n * k) (hold' : old'.size = n * k) :
    fill old n group = fill old' n group := by
  refine Array.ext_getElem? fun p => ?_
  by_cases hp : p < n * k
  · have hk : 0 < k := Nat.pos_of_lt_mul_left hp
    have hi : p / k < n := Nat.div_lt_of_lt_mul (by rwa [Nat.mul_comm])
    have hj : p % k < k := Nat.mod_lt p hk
    have hplace : p / k * k + p % k = p := by rw [Nat.mul_comm]; exact Nat.div_add_mod p k
    have h := getElem?_fill old group hi hj (by omega)
    have h' := getElem?_fill old' group hi hj (by omega)
    rw [hplace] at h h'
    rw [h, h']
  · rw [Array.getElem?_eq_none (by simp; omega), Array.getElem?_eq_none (by simp; omega)]

end Relief.Strided
