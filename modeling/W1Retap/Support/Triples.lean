import W1Retap.Support.Programs

/-!
# Triples that speak about stops

`Avoids bad P m Q`: from a state with `P` the program does not stop for a bad reason, and
where it ends `Q` holds. `Completes P m Q`: it ends. `Stops e P m`: it stops with `e`.
`Settles bad P m Q`: it ends, or stops for a bad reason. All four are closed under the program
constructors.
-/
namespace W1Retap.Programs

variable {ε σ α β : Type}

def Avoids (bad : ε → Prop) (P : σ → Prop) (m : Program ε σ α) (Q : α → σ → Prop) : Prop :=
  ∀ s, P s → (∀ e, m.run s = .error e → ¬ bad e) ∧ ∀ a s', m.run s = .ok (a, s') → Q a s'

def Completes (P : σ → Prop) (m : Program ε σ α) (Q : α → σ → Prop) : Prop :=
  ∀ s, P s → ∃ a s', m.run s = .ok (a, s') ∧ Q a s'

def Stops (e : ε) (P : σ → Prop) (m : Program ε σ α) : Prop := ∀ s, P s → m.run s = .error e

def Settles (bad : ε → Prop) (P : σ → Prop) (m : Program ε σ α) (Q : α → σ → Prop) : Prop :=
  ∀ s, P s → (∃ e, bad e ∧ m.run s = .error e) ∨ ∃ a s', m.run s = .ok (a, s') ∧ Q a s'

theorem run_bind_error {m : Program ε σ α} {f : α → Program ε σ β} {s : σ} {e : ε} :
    (m >>= f).run s = .error e ↔
      m.run s = .error e ∨ ∃ a s₁, m.run s = .ok (a, s₁) ∧ (f a).run s₁ = .error e := by
  rw [StateT.run_bind]
  cases h : m.run s with
  | error e' => simp [bind, Except.bind]
  | ok r =>
    obtain ⟨a, s₁⟩ := r
    simp [bind, Except.bind]

/-! ## Programs that avoid a stop -/

namespace Avoids

variable {bad : ε → Prop} {P : σ → Prop} {Q : α → σ → Prop}

theorem pure {a : α} (h : ∀ s, P s → Q a s) : Avoids bad P (Pure.pure a : Program ε σ α) Q := by
  intro s hs
  constructor
  · intro e he
    exact nomatch he
  · intro b s' hr
    obtain ⟨rfl, rfl⟩ := run_pure_ok.mp hr
    exact h s' hs

theorem bind {m : Program ε σ α} {f : α → Program ε σ β} {S : β → σ → Prop}
    (hm : Avoids bad P m Q) (hf : ∀ a, Avoids bad (Q a) (f a) S) : Avoids bad P (m >>= f) S := by
  intro s hs
  constructor
  · intro e he
    rcases run_bind_error.mp he with he | ⟨a, s₁, h₁, he⟩
    · exact (hm s hs).1 e he
    · exact (hf a s₁ ((hm s hs).2 a s₁ h₁)).1 e he
  · intro b s' hr
    obtain ⟨a, s₁, h₁, h₂⟩ := run_bind_ok.mp hr
    exact (hf a s₁ ((hm s hs).2 a s₁ h₁)).2 b s' h₂

theorem ite {c : Prop} [Decidable c] {m m' : Program ε σ α} (hm : c → Avoids bad P m Q)
    (hm' : ¬ c → Avoids bad P m' Q) : Avoids bad P (if c then m else m') Q := by
  by_cases hc : c
  · rw [if_pos hc]
    exact hm hc
  · rw [if_neg hc]
    exact hm' hc

theorem lift {x : Except ε α} (hx : ∀ e, x = .error e → ¬ bad e)
    (h : ∀ a s, x = .ok a → P s → Q a s) : Avoids bad P (StateT.lift x : Program ε σ α) Q := by
  intro s hs
  cases hx' : x with
  | error e =>
    constructor
    · intro e' he
      have hee : e' = e := by simpa [StateT.run, StateT.lift, Bind.bind, Except.bind, eq_comm] using he
      exact hee ▸ hx e hx'
    · intro a s' hr
      cases (run_lift_ok.mp hr).1
  | ok a =>
    constructor
    · intro e he
      simp [StateT.run, StateT.lift, Bind.bind, Except.bind, Pure.pure, Except.pure] at he
    · intro b s' hr
      obtain ⟨hb, rfl⟩ := run_lift_ok.mp hr
      exact h b s' (hx'.trans hb) hs

theorem forM {f : β → Program ε σ PUnit} {xs : List β} (h : ∀ x ∈ xs, Avoids bad P (f x) fun _ => P) :
    Avoids bad P (xs.forM f) fun _ => P := by
  induction xs with
  | nil => exact Avoids.pure fun _ hs => hs
  | cons x xs ih => exact Avoids.bind (h x (by simp)) fun _ => ih fun y hy => h y (by simp [hy])

/-- A fact that holds of no state in particular. -/
theorem given {φ : Prop} {m : Program ε σ α} (h : φ → Avoids bad P m Q) :
    Avoids bad (fun s => P s ∧ φ) m Q :=
  fun s hs => h hs.2 s hs.1

theorem conseq {P' : σ → Prop} {Q' : α → σ → Prop} {m : Program ε σ α} (hm : Avoids bad P m Q)
    (hP : ∀ s, P' s → P s) (hQ : ∀ a s, Q a s → Q' a s) : Avoids bad P' m Q' :=
  fun s hs => ⟨(hm s (hP s hs)).1, fun a s' hr => hQ a s' ((hm s (hP s hs)).2 a s' hr)⟩

end Avoids

/-! ## Programs that end -/

namespace Completes

variable {P : σ → Prop} {Q : α → σ → Prop}

theorem pure {a : α} (h : ∀ s, P s → Q a s) : Completes P (Pure.pure a : Program ε σ α) Q :=
  fun s hs => ⟨a, s, rfl, h s hs⟩

theorem bind {m : Program ε σ α} {f : α → Program ε σ β} {S : β → σ → Prop}
    (hm : Completes P m Q) (hf : ∀ a, Completes (Q a) (f a) S) : Completes P (m >>= f) S := by
  intro s hs
  obtain ⟨a, s₁, h₁, hQ⟩ := hm s hs
  obtain ⟨b, s', h₂, hS⟩ := hf a s₁ hQ
  exact ⟨b, s', run_bind_ok.mpr ⟨a, s₁, h₁, h₂⟩, hS⟩

theorem ite {c : Prop} [Decidable c] {m m' : Program ε σ α} (hm : c → Completes P m Q)
    (hm' : ¬ c → Completes P m' Q) : Completes P (if c then m else m') Q := by
  by_cases hc : c
  · rw [if_pos hc]
    exact hm hc
  · rw [if_neg hc]
    exact hm' hc

theorem forM {f : β → Program ε σ PUnit} {xs : List β} (h : ∀ x ∈ xs, Completes P (f x) fun _ => P) :
    Completes P (xs.forM f) fun _ => P := by
  intro s hs
  have hround : ∀ x ∈ xs, ∀ s, P s → ∃ s', (f x).run s = .ok (⟨⟩, s') ∧ P s' := by
    intro x hx s hs
    obtain ⟨⟨⟩, s', hr, hs'⟩ := h x hx s hs
    exact ⟨s', hr, hs'⟩
  obtain ⟨s', hr, hs'⟩ := forM_total hround hs
  exact ⟨⟨⟩, s', hr, hs'⟩

theorem lift {x : Except ε α} {a : α} (hx : x = .ok a) :
    Completes P (StateT.lift x : Program ε σ α) fun b s => P s ∧ b = a :=
  fun s hs => ⟨a, s, run_lift_ok.mpr ⟨hx, rfl⟩, hs, rfl⟩

theorem given {φ : Prop} {m : Program ε σ α} (h : φ → Completes P m Q) :
    Completes (fun s => P s ∧ φ) m Q :=
  fun s hs => h hs.2 s hs.1

theorem exists_pre {ι : Type} {P : ι → σ → Prop} {m : Program ε σ α} (h : ∀ i, Completes (P i) m Q) :
    Completes (fun s => ∃ i, P i s) m Q :=
  fun s ⟨i, hs⟩ => h i s hs

theorem conseq {P' : σ → Prop} {Q' : α → σ → Prop} {m : Program ε σ α} (hm : Completes P m Q)
    (hP : ∀ s, P' s → P s) (hQ : ∀ a s, Q a s → Q' a s) : Completes P' m Q' := by
  intro s hs
  obtain ⟨a, s', hr, h⟩ := hm s (hP s hs)
  exact ⟨a, s', hr, hQ a s' h⟩

end Completes

/-! ## Programs that stop -/

namespace Stops

variable {e : ε} {P : σ → Prop} {Q : α → σ → Prop}

theorem head {m : Program ε σ α} {f : α → Program ε σ β} (hm : Stops e P m) : Stops e P (m >>= f) :=
  fun s hs => run_bind_error.mpr (Or.inl (hm s hs))

theorem bind {m : Program ε σ α} {f : α → Program ε σ β} (hm : Completes P m Q)
    (hf : ∀ a, Stops e (Q a) (f a)) : Stops e P (m >>= f) := by
  intro s hs
  obtain ⟨a, s₁, h₁, hQ⟩ := hm s hs
  exact run_bind_error.mpr (Or.inr ⟨a, s₁, h₁, hf a s₁ hQ⟩)

theorem ite_pos {c : Prop} [Decidable c] {m m' : Program ε σ α} (hc : c) (hm : Stops e P m) :
    Stops e P (if c then m else m') := by
  rw [if_pos hc]
  exact hm

theorem lift {x : Except ε α} (hx : x = .error e) : Stops e P (StateT.lift x : Program ε σ α) := by
  intro s _
  rw [hx]
  rfl

end Stops

/-! ## Programs that end unless they stop for a bad reason -/

namespace Settles

variable {bad : ε → Prop} {P : σ → Prop} {Q : α → σ → Prop}

theorem of_completes {m : Program ε σ α} (h : Completes P m Q) : Settles bad P m Q :=
  fun s hs => Or.inr (h s hs)

theorem pure {a : α} (h : ∀ s, P s → Q a s) : Settles bad P (Pure.pure a : Program ε σ α) Q :=
  of_completes (.pure h)

theorem bind {m : Program ε σ α} {f : α → Program ε σ β} {S : β → σ → Prop}
    (hm : Settles bad P m Q) (hf : ∀ a, Settles bad (Q a) (f a) S) : Settles bad P (m >>= f) S := by
  intro s hs
  rcases hm s hs with ⟨e, he, h₁⟩ | ⟨a, s₁, h₁, hQ⟩
  · exact Or.inl ⟨e, he, run_bind_error.mpr (Or.inl h₁)⟩
  · rcases hf a s₁ hQ with ⟨e, he, h₂⟩ | ⟨b, s', h₂, hS⟩
    · exact Or.inl ⟨e, he, run_bind_error.mpr (Or.inr ⟨a, s₁, h₁, h₂⟩)⟩
    · exact Or.inr ⟨b, s', run_bind_ok.mpr ⟨a, s₁, h₁, h₂⟩, hS⟩

theorem ite {c : Prop} [Decidable c] {m m' : Program ε σ α} (hm : c → Settles bad P m Q)
    (hm' : ¬ c → Settles bad P m' Q) : Settles bad P (if c then m else m') Q := by
  by_cases hc : c
  · rw [if_pos hc]
    exact hm hc
  · rw [if_neg hc]
    exact hm' hc

theorem lift {x : Except ε α} (hx : ∀ e, x = .error e → bad e) :
    Settles bad P (StateT.lift x : Program ε σ α) fun a s => P s ∧ x = .ok a := by
  intro s hs
  cases x with
  | error e => exact Or.inl ⟨e, hx e rfl, rfl⟩
  | ok a => exact Or.inr ⟨a, s, rfl, hs, rfl⟩

theorem given {φ : Prop} {m : Program ε σ α} (h : φ → Settles bad P m Q) :
    Settles bad (fun s => P s ∧ φ) m Q :=
  fun s hs => h hs.2 s hs.1

theorem conseq {P' : σ → Prop} {Q' : α → σ → Prop} {m : Program ε σ α} (hm : Settles bad P m Q)
    (hP : ∀ s, P' s → P s) (hQ : ∀ a s, Q a s → Q' a s) : Settles bad P' m Q' := by
  intro s hs
  rcases hm s (hP s hs) with h | ⟨a, s', h, hs'⟩
  · exact Or.inl h
  · exact Or.inr ⟨a, s', h, hQ a s' hs'⟩

end Settles
end W1Retap.Programs
