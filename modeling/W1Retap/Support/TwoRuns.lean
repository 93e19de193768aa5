import W1Retap.Support.Programs

/-!
# Two runs

`Agree R m k Q`: where `m` and `k` both end, started in states that `R` relates, `Q` relates
their values and states. A program may also run beside another one that does not take the
step, as long as it stays within what the relation does not look at.
-/
namespace W1Retap.Programs

variable {ε ε' σ σ' α β γ δ : Type}

def Agree (R : σ → σ' → Prop) (m : Program ε σ α) (k : Program ε' σ' β)
    (Q : α → β → σ → σ' → Prop) : Prop :=
  ∀ s s' a b t t', R s s' → m.run s = .ok (a, t) → k.run s' = .ok (b, t') → Q a b t t'

namespace Agree

variable {R : σ → σ' → Prop} {m : Program ε σ α} {k : Program ε' σ' β}
  {Q : α → β → σ → σ' → Prop}

theorem pure {a : α} {b : β} (h : ∀ s s', R s s' → Q a b s s') :
    Agree R (Pure.pure a : Program ε σ α) (Pure.pure b : Program ε' σ' β) Q := by
  intro s s' a' b' t t' hR hm hk
  obtain ⟨rfl, rfl⟩ := run_pure_ok.mp hm
  obtain ⟨rfl, rfl⟩ := run_pure_ok.mp hk
  exact h _ _ hR

theorem bind {f : α → Program ε σ γ} {g : β → Program ε' σ' δ} {S : γ → δ → σ → σ' → Prop}
    (hm : Agree R m k Q) (hf : ∀ a b, Agree (Q a b) (f a) (g b) S) :
    Agree R (m >>= f) (k >>= g) S := by
  intro s s' c d t t' hR hmf hkg
  obtain ⟨a, s₁, hm₁, hf₁⟩ := run_bind_ok.mp hmf
  obtain ⟨b, s₁', hk₁, hg₁⟩ := run_bind_ok.mp hkg
  exact hf a b s₁ s₁' c d t t' (hm s s' a b s₁ s₁' hR hm₁ hk₁) hf₁ hg₁

/-- A computation that both runs make. -/
theorem lift (x : Except ε α) :
    Agree R (StateT.lift x : Program ε σ α) (StateT.lift x : Program ε σ' α)
      fun a b s s' => R s s' ∧ b = a := by
  intro s s' a b t t' hR hm hk
  obtain ⟨ha, rfl⟩ := run_lift_ok.mp hm
  obtain ⟨hb, rfl⟩ := run_lift_ok.mp hk
  exact ⟨hR, Except.ok.inj (hb.symm.trans ha)⟩

/-- Both runs take the same branch. -/
theorem ite {c c' : Prop} [Decidable c] [Decidable c'] {m₁ m₂ : Program ε σ α}
    {k₁ k₂ : Program ε' σ' β} (hc : c ↔ c') (h₁ : c → c' → Agree R m₁ k₁ Q)
    (h₂ : ¬ c → ¬ c' → Agree R m₂ k₂ Q) :
    Agree R (if c then m₁ else m₂) (if c' then k₁ else k₂) Q := by
  by_cases h : c
  · rw [if_pos h, if_pos (hc.mp h)]
    exact h₁ h (hc.mp h)
  · have h' : ¬ c' := fun h' => h (hc.mpr h')
    rw [if_neg h, if_neg h']
    exact h₂ h h'

/-- A fact that holds of no state in particular. -/
theorem given {φ : Prop} (h : φ → Agree R m k Q) : Agree (fun s s' => R s s' ∧ φ) m k Q :=
  fun s s' a b t t' hR => h hR.2 s s' a b t t' hR.1

theorem conseq {R' : σ → σ' → Prop} {Q' : α → β → σ → σ' → Prop} (h : Agree R m k Q)
    (hR : ∀ s s', R' s s' → R s s') (hQ : ∀ a b s s', Q a b s s' → Q' a b s s') :
    Agree R' m k Q' :=
  fun s s' a b t t' hs hm hk => hQ a b t t' (h s s' a b t t' (hR s s' hs) hm hk)

/-- With what is known of each run by itself. -/
theorem values {A : α → Prop} {B : β → Prop} (h : Agree R m k Q)
    (hm : Ends (fun _ => True) m fun a _ => A a) (hk : Ends (fun _ => True) k fun b _ => B b) :
    Agree R m k fun a b s s' => Q a b s s' ∧ A a ∧ B b :=
  fun s s' a b t t' hR hrun hrun' =>
    ⟨h s s' a b t t' hR hrun hrun', hm s a t trivial hrun, hk s' b t' trivial hrun'⟩

theorem forM {f : γ → Program ε σ PUnit} {g : γ → Program ε' σ' PUnit} {xs : List γ}
    (h : ∀ x ∈ xs, Agree R (f x) (g x) fun _ _ => R) :
    Agree R (xs.forM f) (xs.forM g) fun _ _ => R := by
  induction xs with
  | nil => exact Agree.pure fun _ _ hR => hR
  | cons x xs ih =>
    exact Agree.bind (h x (by simp)) fun _ _ => ih fun y hy => h y (by simp [hy])

/-- Two programs that each go where the relation does not look. -/
theorem aside {A : σ → σ → Prop} {A' : σ' → σ' → Prop} (hm : Does A m) (hk : Does A' k)
    (hA : ∀ s t s', A s t → R s s' → R t s') (hA' : ∀ s s' t', A' s' t' → R s s' → R s t') :
    Agree R m k fun _ _ => R := by
  intro s s' a b t t' hR hrun hrun'
  have hleft : R t s' := hm.keeps (P := fun u => R u s') (fun u u' h => hA u u' s' h) hrun hR
  exact hk.keeps (P := fun u => R t u) (fun u u' h => hA' t u u' h) hrun' hleft

end Agree
end W1Retap.Programs
