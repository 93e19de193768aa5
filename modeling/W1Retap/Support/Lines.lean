import W1Retap.Support.CStrings
import Mathlib

/-!
# Lines and pieces

`fgets` with a small buffer cuts a file into more pieces than it has lines. The pieces of a file are
those of its lines, and the pieces of a line start at the multiples of the room.
-/
namespace W1Retap.CStrings

/-- The lines of a text with their newlines; `cur` is the line being read, last character first. -/
def physicalLines : List Char → List Char → List (List Char)
  | [], cur => if cur = [] then [] else [cur.reverse]
  | c :: cs, cur =>
    if c = '\n' then (c :: cur).reverse :: physicalLines cs [] else physicalLines cs (c :: cur)

theorem physicalLines_shape {text cur : List Char} (hcur : '\n' ∉ cur) :
    ∀ line ∈ physicalLines text cur, line ≠ [] ∧ '\n' ∉ line.dropLast := by
  induction text generalizing cur with
  | nil =>
    intro line hline
    rw [physicalLines] at hline
    split_ifs at hline with hnil
    · exact nomatch hline
    · obtain rfl := List.mem_singleton.mp hline
      refine ⟨by simpa using hnil, fun hmem => hcur ?_⟩
      exact List.mem_reverse.mp ((List.dropLast_sublist _).subset hmem)
  | cons c cs ih =>
    rw [physicalLines]
    by_cases hc : c = '\n'
    · rw [if_pos hc]
      intro line hline
      rcases List.mem_cons.mp hline with rfl | hline
      · simpa using hcur
      · exact ih List.not_mem_nil line hline
    · rw [if_neg hc]
      exact ih fun hmem => (List.mem_cons.mp hmem).elim (fun h => hc h.symm) hcur

section
variable {n : ℕ} {line : List Char}

/-- A newline always ends the piece. -/
theorem fgets_append_newline {rest cur : List Char} (hline : '\n' ∉ line) :
    fgets n (line ++ '\n' :: rest) cur = fgets n (line ++ ['\n']) cur ++ fgets n rest [] := by
  induction line generalizing cur with
  | nil => simp [fgets]
  | cons c cs ih =>
    obtain ⟨hc, hcs⟩ := not_or.mp (mt List.mem_cons.mpr hline)
    rw [List.cons_append, List.cons_append, fgets, fgets]
    split_ifs
    · rw [ih hcs, List.cons_append]
    · exact ih hcs

/-- The pieces of a file are those of its lines. -/
theorem fgets_eq_flatMap {text cur : List Char} (hcur : '\n' ∉ cur) :
    fgets n (cur.reverse ++ text) [] = (physicalLines text cur).flatMap (fgets n · []) := by
  induction text generalizing cur with
  | nil =>
    rw [physicalLines, List.append_nil]
    split_ifs with hnil
    · rw [hnil]
      rfl
    · rw [List.flatMap_singleton]
  | cons c cs ih =>
    rw [physicalLines]
    by_cases hc : c = '\n'
    · have hrest := ih (List.not_mem_nil : '\n' ∉ [])
      rw [if_pos hc, hc, fgets_append_newline (by simpa using hcur), List.flatMap_cons, ← hrest,
        List.reverse_cons]
      rfl
    · have hcons : '\n' ∉ c :: cur := fun hmem => (List.mem_cons.mp hmem).elim (fun h => hc h.symm) hcur
      rw [if_neg hc, ← ih hcons, List.reverse_cons, List.append_assoc]
      rfl

theorem fgets_full {cur : List Char} (hline : line ≠ []) (hend : '\n' ∉ line.dropLast) (hcur : cur.length < n) :
    fgets n line cur = (cur.reverse ++ line.take (n - cur.length)) :: fgets n (line.drop (n - cur.length)) [] := by
  induction line generalizing cur with
  | nil => exact absurd rfl hline
  | cons c cs ih =>
    obtain ⟨m, hm⟩ := Nat.exists_eq_add_of_lt hcur
    have hroom : n - cur.length = m + 1 := by omega
    rw [fgets, hroom, List.take_succ_cons, List.drop_succ_cons]
    by_cases hcs : cs = []
    · rw [hcs]
      split_ifs
      · simp
      · simp [fgets]
    · rw [List.dropLast_cons_of_ne_nil hcs] at hend
      obtain ⟨hc, hend⟩ := not_or.mp (mt List.mem_cons.mpr hend)
      by_cases hlast : cur.length + 1 = n
      · obtain rfl : m = 0 := by omega
        rw [if_pos (Or.inr hlast)]
        simp
      · have hnot : ¬ (c = '\n' ∨ cur.length + 1 = n) := not_or.mpr ⟨fun h => hc h.symm, hlast⟩
        have hlen : (c :: cur).length < n := by
          rw [List.length_cons]
          omega
        rw [if_neg hnot, ih hcs hend hlen, List.length_cons, show n - (cur.length + 1) = m by omega]
        simp

/-- The first piece of a line, and the pieces of what is left of it. -/
theorem fgets_line_cons (hn : 0 < n) (hline : line ≠ []) (hend : '\n' ∉ line.dropLast) :
    fgets n line [] = line.take n :: fgets n (line.drop n) [] :=
  fgets_full hline hend hn

theorem notMem_dropLast_drop {k : ℕ} (hend : '\n' ∉ line.dropLast) : '\n' ∉ (line.drop k).dropLast := by
  intro hmem
  rw [List.dropLast_drop_eq_drop_dropLast] at hmem
  exact hend (List.mem_of_mem_drop hmem)

theorem mem_fgets_line (hn : 0 < n) (hend : '\n' ∉ line.dropLast) (p : List Char) :
    p ∈ fgets n line [] ↔ ∃ k, n * k < line.length ∧ p = (line.drop (n * k)).take n := by
  induction hlen : line.length using Nat.strong_induction_on generalizing line with
  | _ len ih =>
    subst hlen
    by_cases hline : line = []
    · rw [hline]
      simp [fgets]
    · have hpos : 0 < line.length := List.length_pos_of_ne_nil hline
      have hrest := ih (line.drop n).length (by rw [List.length_drop]; omega) (notMem_dropLast_drop hend) rfl
      rw [fgets_line_cons hn hline hend, List.mem_cons, hrest]
      constructor
      · rintro (rfl | ⟨k, hk, rfl⟩)
        · exact ⟨0, by simpa using hpos, by simp⟩
        · rw [List.length_drop] at hk
          refine ⟨k + 1, by rw [Nat.mul_succ]; omega, ?_⟩
          rw [List.drop_drop, Nat.mul_succ, Nat.add_comm]
      · rintro ⟨k, hk, rfl⟩
        cases k with
        | zero => exact Or.inl (by simp)
        | succ k =>
          rw [Nat.mul_succ] at hk ⊢
          refine Or.inr ⟨k, by rw [List.length_drop]; omega, ?_⟩
          rw [List.drop_drop, Nat.add_comm]

end
end W1Retap.CStrings
