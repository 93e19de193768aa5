import W1Retap.Support.Programs

/-!
# Steps in another order

Two sequences of the same steps end alike when every two steps that do not commute come
in the same order in both.
-/
namespace W1Retap.Reordering

open Programs

variable {ε α β : Type} [BEq α] [LawfulBEq α] {l l' : List α} {a b : α}

/-- `a` and `b` come in the same order in both lists. -/
def SameOrder (l l' : List α) (a b : α) : Prop :=
  l.filter (· ∈ [a, b]) = l'.filter (· ∈ [a, b])

/-- The order of two steps does not matter. -/
def Commute (f : β → α → Except ε β) (a b : α) : Prop :=
  ∀ s, (f s a >>= (f · b)) = (f s b >>= (f · a))

omit [BEq α] [LawfulBEq α] in
theorem Commute.symm {f : β → α → Except ε β} (h : Commute f a b) : Commute f b a :=
  fun s => (h s).symm

omit [BEq α] [LawfulBEq α] in
/-- A step that commutes with all before it can come first. -/
theorem foldlM_middle {f : β → α → Except ε β} {p q : List α} (h : ∀ b ∈ p, Commute f b a) (s : β) :
    (p ++ a :: q).foldlM f s = f s a >>= (p ++ q).foldlM f := by
  induction p generalizing s with
  | nil => rfl
  | cons b p ih =>
    obtain ⟨hb, hp⟩ := List.forall_mem_cons.mp h
    have hswap : (f s b >>= fun s => f s a >>= (p ++ q).foldlM f) =
        f s a >>= fun s => f s b >>= (p ++ q).foldlM f := by
      rw [← bind_assoc, hb s, bind_assoc]
    simp only [List.cons_append, List.foldlM_cons, ih hp]
    exact hswap

theorem SameOrder.of_middle {p q : List α} {c : α} (h : SameOrder (p ++ c :: q) (c :: l') a b)
    (ha : a ≠ c) (hb : b ≠ c) : SameOrder (p ++ q) l' a b := by
  have hc : ¬ c ∈ [a, b] := by simp [ha.symm, hb.symm]
  unfold SameOrder at h ⊢
  rw [List.filter_append, List.filter_cons_of_neg (by simpa using hc),
    List.filter_cons_of_neg (by simpa using hc)] at h
  rw [List.filter_append, h]

/-- What comes before `a` in one list and behind it in the other is in another order. -/
theorem not_sameOrder {p q : List α} (hb : b ∈ p) (ha : a ∉ p) :
    ¬ SameOrder (p ++ a :: q) (a :: l') b a := by
  intro h
  unfold SameOrder at h
  rw [List.filter_append, List.filter_cons_of_pos (l := l') (by simp)] at h
  have hpos : b ∈ p.filter (· ∈ [b, a]) := List.mem_filter.mpr ⟨hb, by simp⟩
  cases hp : p.filter (· ∈ [b, a]) with
  | nil => exact absurd hp (List.ne_nil_of_mem hpos)
  | cons c cs =>
    rw [hp, List.cons_append] at h
    have hc : c ∈ p.filter (· ∈ [b, a]) := hp ▸ List.mem_cons_self
    rw [(List.cons.inj h).1] at hc
    exact ha (List.mem_filter.mp hc).1

theorem foldlM_reorder {f : β → α → Except ε β} (hperm : l.Perm l') (hnodup : l.Nodup)
    (h : ∀ a ∈ l, ∀ b ∈ l, Commute f a b ∨ SameOrder l l' a b) (s : β) :
    l.foldlM f s = l'.foldlM f s := by
  induction l' generalizing l s with
  | nil => rw [hperm.eq_nil]
  | cons a l' ih =>
    obtain ⟨p, q, rfl⟩ := List.append_of_mem (hperm.symm.subset List.mem_cons_self)
    have hrest : (p ++ q).Perm l' := List.perm_cons a |>.mp (List.perm_middle.symm.trans hperm)
    have hnotin : a ∉ p ++ q := (List.nodup_cons.mp (List.perm_middle.nodup_iff.mp hnodup)).1
    have hmem : ∀ b ∈ p ++ q, b ∈ p ++ a :: q ∧ b ≠ a := by
      intro b hb
      refine ⟨List.perm_middle.mem_iff.mpr (List.mem_cons_of_mem a hb), ?_⟩
      rintro rfl
      exact hnotin hb
    have hfront : ∀ b ∈ p, Commute f b a := by
      intro b hb
      have ha : a ∉ p := fun ha => hnotin (List.mem_append_left q ha)
      have hb' := (hmem b (List.mem_append_left q hb)).1
      exact (h b hb' a (by simp)).resolve_right (not_sameOrder hb ha)
    rw [foldlM_middle hfront, List.foldlM_cons]
    refine congrArg _ (funext fun s => ih hrest ?_ ?_ s)
    · exact (List.nodup_cons.mp (List.perm_middle.nodup_iff.mp hnodup)).2
    · intro b hb c hc
      obtain ⟨hb', hbne⟩ := hmem b hb
      obtain ⟨hc', hcne⟩ := hmem c hc
      exact (h b hb' c hc').imp_right fun ho => ho.of_middle hbne hcne

/-- Two elements of a list stand in one order or the other. -/
theorem filter_pair (hnodup : l.Nodup) (ha : a ∈ l) (hb : b ∈ l) (hne : a ≠ b) :
    l.filter (· ∈ [a, b]) = [a, b] ∨ l.filter (· ∈ [a, b]) = [b, a] := by
  have hperm : (l.filter (· ∈ [a, b])).Perm [a, b] := by
    rw [List.perm_ext_iff_of_nodup (hnodup.filter _) (by simp [hne])]
    intro c
    rw [List.mem_filter]
    constructor
    · exact fun h => by simpa using h.2
    · intro hc
      rcases List.mem_pair.mp hc with rfl | rfl
      · exact ⟨ha, by simp⟩
      · exact ⟨hb, by simp⟩
  obtain ⟨x, y, hxy⟩ := List.length_eq_two.mp hperm.length_eq
  rw [hxy] at hperm ⊢
  have hx : x ∈ [a, b] := hperm.subset List.mem_cons_self
  have hy : y ∈ [a, b] := hperm.subset (by simp)
  have hdiff : x ≠ y := by simpa using hperm.symm.nodup (by simp [hne])
  rcases List.mem_pair.mp hx with rfl | rfl <;> rcases List.mem_pair.mp hy with rfl | rfl
  · exact absurd rfl hdiff
  · exact Or.inl rfl
  · exact Or.inr rfl
  · exact absurd rfl hdiff

theorem filter_self (hnodup : l.Nodup) (ha : a ∈ l) : l.filter (· ∈ [a]) = [a] := by
  have hperm : (l.filter (· ∈ [a])).Perm [a] := by
    rw [List.perm_ext_iff_of_nodup (hnodup.filter _) (by simp)]
    intro c
    rw [List.mem_filter]
    constructor
    · exact fun h => by simpa using h.2
    · intro hc
      rw [List.mem_singleton.mp hc]
      exact ⟨ha, by simp⟩
  exact List.perm_singleton.mp hperm

theorem sameOrder_self (hnodup : l.Nodup) (hnodup' : l'.Nodup) (ha : a ∈ l) (ha' : a ∈ l') :
    SameOrder l l' a a := by
  have hpair : ∀ l : List α, l.filter (· ∈ [a, a]) = l.filter (· ∈ [a]) := by
    intro l
    apply List.filter_congr
    simp
  rw [SameOrder, hpair, hpair, filter_self hnodup ha, filter_self hnodup' ha']

/-- Lists of the same elements in the same order are equal. -/
theorem eq_of_sameOrder (hperm : l.Perm l') (hnodup : l.Nodup)
    (h : ∀ a ∈ l, ∀ b ∈ l, SameOrder l l' a b) : l = l' := by
  have hcollect : ∀ l s : List α,
      l.foldlM (fun s a => (.ok (s ++ [a]) : Except Unit (List α))) s = .ok (s ++ l) := by
    intro l
    induction l with
    | nil => simp [pure, Except.pure]
    | cons a l ih => intro s; simp [bind, Except.bind, ih]
  have hsame := foldlM_reorder (f := fun s a => (.ok (s ++ [a]) : Except Unit (List α))) hperm hnodup
    (fun a ha b hb => Or.inr (h a ha b hb)) []
  rw [hcollect, hcollect] at hsame
  exact Except.ok.inj hsame

theorem sameOrder_filter {g : List α} (ha : a ∈ g) (hb : b ∈ g) :
    SameOrder (l.filter (· ∈ g)) (l'.filter (· ∈ g)) a b ↔ SameOrder l l' a b := by
  have hsub : ∀ l : List α, (l.filter (· ∈ g)).filter (· ∈ [a, b]) = l.filter (· ∈ [a, b]) := by
    intro l
    rw [List.filter_filter]
    apply List.filter_congr
    intro c _
    by_cases hc : c ∈ [a, b]
    · have hcg : c ∈ g := by
        rcases List.mem_pair.mp hc with rfl | rfl
        · exact ha
        · exact hb
      simp [hc, hcg]
    · simp [hc]
  rw [SameOrder, SameOrder, hsub, hsub]

/-- The elements of `g` stand in one order if every two of them do. -/
theorem filter_eq_iff (hperm : l.Perm l') (hnodup : l.Nodup) {g : List α} :
    l.filter (· ∈ g) = l'.filter (· ∈ g) ↔ ∀ a ∈ g, ∀ b ∈ g, SameOrder l l' a b := by
  constructor
  · intro h a ha b hb
    rw [← sameOrder_filter ha hb, h]
    rfl
  · intro h
    apply eq_of_sameOrder (hperm.filter _) (hnodup.filter _)
    intro a ha b hb
    have ha' : a ∈ g := by simpa using (List.mem_filter.mp ha).2
    have hb' : b ∈ g := by simpa using (List.mem_filter.mp hb).2
    exact (sameOrder_filter ha' hb').mpr (h a ha' b hb')

end W1Retap.Reordering
