import Mathlib

/-!
# Stacks in a ring

A ring of `n` cells with a pointer to the top one. A push moves the pointer on, so that a full ring
loses its oldest entry; a pop leaves a blank behind and moves the pointer back. `window` lists the
cells from the top down, and `held` what stands above the first blank.
-/
namespace W1Retap.Rings

structure Ring (α : Type) (n : ℕ) where
  cells : Fin n → α
  top : Fin n

namespace Ring

variable {α : Type} {n : ℕ} [NeZero n]

def peek (r : Ring α n) : α := r.cells r.top

def push (r : Ring α n) (a : α) : Ring α n where
  cells := Function.update r.cells (r.top + 1) a
  top := r.top + 1

/-- The top entry is overwritten. -/
def put (r : Ring α n) (a : α) : Ring α n :=
  { r with cells := Function.update r.cells r.top a }

def pop (r : Ring α n) (blank : α) : Ring α n where
  cells := (r.put blank).cells
  top := r.top - 1

def window (r : Ring α n) : List α := (List.range n).map fun k => r.cells (r.top - Fin.ofNat n k)

def held [DecidableEq α] (blank : α) (r : Ring α n) : List α := r.window.takeWhile (· ≠ blank)

end Ring

section
variable {α : Type} {n : ℕ} [NeZero n] {r : Ring α n} {a : α} {k : ℕ}

theorem ofNat_succ : Fin.ofNat n (k + 1) = Fin.ofNat n k + 1 := by
  apply Fin.ext
  simp only [Fin.val_ofNat, Fin.val_add, Fin.val_one', Nat.add_mod_mod, Nat.mod_add_mod]

theorem ofNat_pred : Fin.ofNat n (n - 1) + 1 = 0 := by
  rw [← ofNat_succ, Nat.sub_add_cancel (Nat.pos_of_neZero n)]
  exact Fin.ext (Nat.mod_self n)

/-- Only the top cell is no steps down. -/
theorem ofNat_ne_zero (hk : k + 1 < n) : Fin.ofNat n (k + 1) ≠ 0 := by
  intro h
  have hval : (k + 1) % n = 0 := congrArg Fin.val h
  rw [Nat.mod_eq_of_lt hk] at hval
  omega

theorem length_window : r.window.length = n := by
  rw [Ring.window, List.length_map, List.length_range]

theorem getElem_window (hk : k < r.window.length) :
    r.window[k] = r.cells (r.top - Fin.ofNat n k) := by
  simp only [Ring.window, List.getElem_map, List.getElem_range]

theorem window_put : (r.put a).window = a :: r.window.tail := by
  apply List.ext_getElem
  · have hpos := Nat.pos_of_neZero n
    simp only [length_window, List.length_cons, List.length_tail]
    omega
  · intro k hk hk'
    rw [length_window] at hk
    rw [getElem_window]
    change Function.update r.cells r.top a (r.top - Fin.ofNat n k) = _
    cases k with
    | zero =>
      have htop : r.top - Fin.ofNat n 0 = r.top := sub_zero r.top
      rw [htop, Function.update_self]
      rfl
    | succ k =>
      have hne : r.top - Fin.ofNat n (k + 1) ≠ r.top :=
        fun h => ofNat_ne_zero hk (sub_eq_self.mp h)
      rw [Function.update_of_ne hne, List.getElem_cons_succ, List.getElem_tail, getElem_window]

/-- With the pointer moved on, all cells but the last one are a step further down. -/
theorem window_turned :
    ({ r with top := r.top + 1 } : Ring α n).window.tail = r.window.take (n - 1) := by
  apply List.ext_getElem
  · simp only [List.length_tail, List.length_take, length_window]
    omega
  · intro k hk hk'
    have hcell : r.top + 1 - Fin.ofNat n (k + 1) = r.top - Fin.ofNat n k := by
      rw [ofNat_succ]
      abel
    rw [List.getElem_tail, List.getElem_take, getElem_window, getElem_window, hcell]

theorem window_push : (r.push a).window = (a :: r.window).take n := by
  have hput : (r.push a).window = a :: r.window.take (n - 1) := by
    change (({ r with top := r.top + 1 } : Ring α n).put a).window = _
    rw [window_put, window_turned]
  rw [hput, ← List.take_succ_cons, Nat.sub_add_cancel (Nat.pos_of_neZero n)]

theorem window_pop : (r.pop a).window = r.window.tail ++ [a] := by
  have htop : (r.pop a).top + 1 = r.top := sub_add_cancel r.top 1
  have hput : ({ r.pop a with top := (r.pop a).top + 1 } : Ring α n) = r.put a := by
    rw [htop]
    rfl
  have hfront : (r.pop a).window.take (n - 1) = r.window.tail := by
    rw [← window_turned, hput, window_put, List.tail_cons]
  -- The last cell down is the one above, from which the pointer came.
  have hdown : (r.pop a).top - Fin.ofNat n (n - 1) = r.top := by
    rw [← htop, sub_eq_iff_eq_add, add_assoc, add_comm 1, ofNat_pred, add_zero]
  have hlast : (r.pop a).window.drop (n - 1) = [a] := by
    have hlt : n - 1 < (r.pop a).window.length := by
      rw [length_window]
      exact Nat.sub_one_lt (NeZero.ne n)
    have hcell : (r.pop a).window[n - 1] = a := by
      rw [getElem_window, hdown]
      exact Function.update_self r.top a r.cells
    rw [List.drop_eq_getElem_cons hlt, hcell, Nat.sub_add_cancel (Nat.pos_of_neZero n),
      List.drop_of_length_le (length_window.le)]
  rw [← List.take_append_drop (n - 1) (r.pop a).window, hfront, hlast]

theorem window_eq : r.window = r.peek :: r.window.tail := by
  have hne : r.window ≠ [] := by
    apply List.ne_nil_of_length_pos
    rw [length_window]
    exact Nat.pos_of_neZero n
  have hhead : r.window.head hne = r.peek := by
    rw [List.head_eq_getElem, getElem_window]
    exact congrArg r.cells (sub_zero r.top)
  rw [← hhead]
  exact (List.cons_head_tail hne).symm

end

/-! ## What is held -/

section
variable {α : Type} [DecidableEq α] {n : ℕ} [NeZero n] {r : Ring α n} {blank a : α} {s : List α}

theorem held_push (h : a ≠ blank) : (r.push a).held blank = (a :: r.held blank).take n := by
  rw [Ring.held, window_push, ← List.take_takeWhile, List.takeWhile_cons_of_pos (by simpa using h)]
  rfl

theorem held_put : (r.put blank).held blank = [] := by
  rw [Ring.held, window_put, List.takeWhile_cons_of_neg (by simp)]

theorem held_eq_nil : r.held blank = [] ↔ r.peek = blank := by
  rw [Ring.held, window_eq, List.takeWhile_cons]
  split <;> simp_all

/-- The top of what is held is popped. -/
theorem held_pop (h : r.held blank = a :: s) : r.peek = a ∧ (r.pop blank).held blank = s := by
  have hfull : r.peek ≠ blank := by
    intro hpeek
    rw [held_eq_nil.mpr hpeek] at h
    cases h
  have hheld : r.held blank = r.peek :: r.window.tail.takeWhile (· ≠ blank) := by
    rw [Ring.held, window_eq, List.takeWhile_cons_of_pos (by simpa using hfull), List.tail_cons]
  have hpop : (r.pop blank).held blank = r.window.tail.takeWhile (· ≠ blank) := by
    rw [Ring.held, window_pop, List.takeWhile_append]
    split
    · rename_i hall
      rw [(List.takeWhile_prefix _).eq_of_length hall, List.takeWhile_cons_of_neg (by simp),
        List.append_nil]
    · rfl
  obtain ⟨htop, hrest⟩ := List.cons.inj (hheld.symm.trans h)
  exact ⟨htop, hpop.trans hrest⟩

theorem length_held_le : (r.held blank).length ≤ n := by
  have hle := (List.takeWhile_sublist (l := r.window) (· ≠ blank)).length_le
  rwa [length_window] at hle

end

end W1Retap.Rings
