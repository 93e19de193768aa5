import Mathlib

/-!
# Switches behind a write cache

A bank has entries, each naming a switch and remembering a position for it, and the
switches with their real positions. Setting an entry sends a command only when the
position differs from the remembered one, and remembers the position whether or not
the command worked. Two entries may name one switch.

`Guarded` is the invariant under which at most one switch is away from `off` as long as
every command works and an entry is turned on only when all others are remembered as
`off`. `Coherent` says that nothing false is remembered, and `Harmless` is exactly what a
command must satisfy to leave it so.
-/
namespace W1Retap.SwitchBank

variable {ι κ P : Type}

structure Bank (ι κ P : Type) where
  entry : ι → Option (κ × P)
  lines : κ → P

section
variable [DecidableEq ι] [DecidableEq κ] [DecidableEq P]

/-- Set entry `i` to `p`; `ok` is the outcome of the command, if one is sent. -/
def Bank.set (b : Bank ι κ P) (i : ι) (p : P) (ok : Bool) : Bank ι κ P :=
  match b.entry i with
  | some (k, c) =>
    if c = p then b
    else
      { entry := Function.update b.entry i (some (k, p))
        lines := if ok then Function.update b.lines k p else b.lines }
  | none => b

variable {b : Bank ι κ P} {i : ι} {p : P} {ok : Bool} {k : κ} {c : P}

theorem set_none (h : b.entry i = none) : b.set i p ok = b := by
  simp [Bank.set, h]

theorem set_same (h : b.entry i = some (k, p)) : b.set i p ok = b := by
  simp [Bank.set, h]

theorem set_sent (h : b.entry i = some (k, c)) (hc : c ≠ p) :
    b.set i p ok =
      { entry := Function.update b.entry i (some (k, p))
        lines := if ok then Function.update b.lines k p else b.lines } := by
  simp [Bank.set, h, hc]

/-- Setting an entry never changes which switch an entry names. -/
theorem set_key (j : ι) : ((b.set i p ok).entry j).map Prod.fst = (b.entry j).map Prod.fst := by
  cases h : b.entry i with
  | none => rw [set_none h]
  | some e =>
    obtain ⟨k, c⟩ := e
    by_cases hc : c = p
    · subst hc
      rw [set_same h]
    · rw [set_sent h hc]
      by_cases hj : j = i
      · subst hj
        simp [h]
      · simp [Function.update_of_ne hj]

/-- The entry itself remembers the position, the others are as before. -/
theorem set_entry_self (p : P) (ok : Bool) (h : b.entry i = some (k, c)) :
    (b.set i p ok).entry i = some (k, p) := by
  by_cases hc : c = p
  · subst hc
    rw [set_same h, h]
  · rw [set_sent h hc]
    exact Function.update_self _ _ _

theorem set_entry_of_ne {j : ι} (hj : j ≠ i) : (b.set i p ok).entry j = b.entry j := by
  cases h : b.entry i with
  | none => rw [set_none h]
  | some e =>
    obtain ⟨k, c⟩ := e
    by_cases hc : c = p
    · subst hc
      rw [set_same h]
    · rw [set_sent h hc]
      exact Function.update_of_ne hj _ _

end

/-! ## At most one switch is on -/

section Guarded
variable (unknown off : P)

/-- Entry `i` remembers its switch `k` in a position `p` other than off. -/
structure OnAt (b : Bank ι κ P) (i : ι) (k : κ) (p : P) : Prop where
  entry : b.entry i = some (k, p)
  known : p ≠ unknown
  on : p ≠ off

/-- Every entry but `i` remembers `off`. -/
def OthersOff (b : Bank ι κ P) (i : Option ι) : Prop :=
  ∀ j k q, some j ≠ i → b.entry j = some (k, q) → q = off

structure Guarded (b : Bank ι κ P) : Prop where
  lines_on : ∀ i k p, OnAt unknown off b i k p → b.lines k = p
  lines_off : ∀ i k, b.entry i = some (k, off) →
    b.lines k = off ∨ ∃ j p, OnAt unknown off b j k p
  alone : ∀ i k p, OnAt unknown off b i k p → OthersOff off b (some i)
  unique : ∀ k k', b.lines k ≠ off → b.lines k' ≠ off → k = k'
  listed : ∀ k, b.lines k ≠ off → ∃ i p, b.entry i = some (k, p)

variable {unknown off}

namespace Guarded

variable {b : Bank ι κ P}

/-- A bank that remembers nothing is guarded when the switch that may be on is listed. -/
theorem of_unknown (hne : unknown ≠ off) (hu : ∀ i k p, b.entry i = some (k, p) → p = unknown)
    (hunique : ∀ k k', b.lines k ≠ off → b.lines k' ≠ off → k = k')
    (hlisted : ∀ k, b.lines k ≠ off → ∃ i p, b.entry i = some (k, p)) :
    Guarded unknown off b where
  lines_on := fun i k p h => absurd (hu i k p h.entry) h.known
  lines_off := fun i k h => absurd (hu i k off h).symm hne
  alone := fun i k p h => absurd (hu i k p h.entry) h.known
  unique := hunique
  listed := hlisted

/-- With every entry but `i` off, only the switch of `i` can be on. -/
theorem key_of_on (hg : Guarded unknown off b) {i : Option ι} (ho : OthersOff off b i) {k : κ}
    (hk : b.lines k ≠ off) : ∃ j p, some j = i ∧ b.entry j = some (k, p) := by
  obtain ⟨j, p, hj⟩ := hg.listed k hk
  by_cases hji : some j = i
  · exact ⟨j, p, hji, hj⟩
  · obtain rfl := ho j k p hji hj
    rcases hg.lines_off j k hj with h | ⟨j', q, h⟩
    · exact absurd h hk
    · refine ⟨j', q, ?_, h.entry⟩
      by_contra hji'
      exact h.on (ho j' k q hji' h.entry)

theorem lines_of_othersOff (hg : Guarded unknown off b) {i : ι} {k : κ} {p : P}
    (ho : OthersOff off b (some i)) (hi : OnAt unknown off b i k p) :
    b.lines k = p ∧ ∀ k', k' ≠ k → b.lines k' = off := by
  refine ⟨hg.lines_on i k p hi, fun k' hk' => ?_⟩
  by_contra hon
  obtain ⟨j, q, hji, hj⟩ := hg.key_of_on ho hon
  obtain rfl := Option.some.inj hji
  rw [hi.entry] at hj
  exact hk' (Prod.mk.inj (Option.some.inj hj)).1.symm

theorem lines_of_allOff (hg : Guarded unknown off b) (ho : OthersOff off b none) (k : κ) :
    b.lines k = off := by
  by_contra hon
  obtain ⟨j, q, hji, -⟩ := hg.key_of_on ho hon
  simp at hji

variable [DecidableEq ι] [DecidableEq κ] [DecidableEq P]

/-- Turning an entry off keeps the bank guarded. -/
theorem set_off (hg : Guarded unknown off b) (hne : unknown ≠ off) (i : ι) :
    Guarded unknown off (b.set i off true) := by
  cases h : b.entry i with
  | none => rwa [set_none h]
  | some e =>
    obtain ⟨k, c⟩ := e
    by_cases hc : c = off
    · subst hc
      rwa [set_same h]
    have hself := set_entry_self off true h
    have hother : ∀ j, j ≠ i → (b.set i off true).entry j = b.entry j :=
      fun j hj => set_entry_of_ne hj
    have hlines : (b.set i off true).lines = Function.update b.lines k off := by
      rw [set_sent h hc]
      rfl
    -- an entry remembered as on would have forced `c` to be `off`
    have hnone : ∀ j k' q, ¬ OnAt unknown off (b.set i off true) j k' q := by
      intro j k' q hj
      have hji : j ≠ i := by
        rintro rfl
        exact hj.on (Prod.mk.inj (Option.some.inj (hself.symm.trans hj.entry))).2.symm
      have hj' : OnAt unknown off b j k' q := ⟨by rw [← hother j hji]; exact hj.entry, hj.known, hj.on⟩
      exact hc (hg.alone j k' q hj' i k c (by simpa using hji.symm) h)
    refine ⟨fun j k' q hj => absurd hj (hnone j k' q), ?_, fun j k' q hj => absurd hj (hnone j k' q),
      ?_, ?_⟩
    · intro j k' hj
      left
      rw [hlines]
      by_cases hk : k' = k
      · subst hk
        exact Function.update_self _ _ _
      · rw [Function.update_of_ne hk]
        have hji : j ≠ i := by
          rintro rfl
          rw [hself] at hj
          exact hk (Prod.mk.inj (Option.some.inj hj)).1.symm
        rw [hother j hji] at hj
        rcases hg.lines_off j k' hj with hl | ⟨j', q, hj'⟩
        · exact hl
        · have hji' : some i ≠ some j' := by
            intro he
            obtain rfl := Option.some.inj he
            rw [hj'.entry] at h
            exact hk (Prod.mk.inj (Option.some.inj h)).1
          exact absurd (hg.alone j' k' q hj' i k c hji' h) hc
    · intro k₁ k₂ h₁ h₂
      rw [hlines] at h₁ h₂
      refine hg.unique k₁ k₂ ?_ ?_
      · intro ho
        apply h₁
        by_cases hk : k₁ = k <;> simp [Function.update, hk, ho]
      · intro ho
        apply h₂
        by_cases hk : k₂ = k <;> simp [Function.update, hk, ho]
    · intro k' hk'
      rw [hlines] at hk'
      by_cases hk : k' = k
      · exact ⟨i, off, by rw [hk, hself]⟩
      · rw [Function.update_of_ne hk] at hk'
        obtain ⟨j, q, hj⟩ := hg.listed k' hk'
        have hji : j ≠ i := by
          rintro rfl
          rw [h] at hj
          exact hk (Prod.mk.inj (Option.some.inj hj)).1.symm
        exact ⟨j, q, by rw [hother j hji, hj]⟩

/-- Turning an entry on keeps the bank guarded when all others are off. -/
theorem set_on (hg : Guarded unknown off b) {i : ι} {p : P} (hu : p ≠ unknown) (hp : p ≠ off)
    (ho : OthersOff off b (some i)) : Guarded unknown off (b.set i p true) := by
  cases h : b.entry i with
  | none => rwa [set_none h]
  | some e =>
    obtain ⟨k, c⟩ := e
    by_cases hc : c = p
    · subst hc
      rwa [set_same h]
    have hself := set_entry_self p true h
    have hother : ∀ j, j ≠ i → (b.set i p true).entry j = b.entry j :=
      fun j hj => set_entry_of_ne hj
    have hlines : (b.set i p true).lines = Function.update b.lines k p := by
      rw [set_sent h hc]
      rfl
    have honly : ∀ j k' q, OnAt unknown off (b.set i p true) j k' q → j = i := by
      intro j k' q hj
      by_contra hji
      have he := hj.entry
      rw [hother j hji] at he
      exact hj.on (ho j k' q (by simpa using hji) he)
    have hdark : ∀ k', k' ≠ k → b.lines k' = off := by
      intro k' hk
      by_contra hon
      obtain ⟨j, q, hji, hj⟩ := hg.key_of_on ho hon
      obtain rfl := Option.some.inj hji
      rw [h] at hj
      exact hk (Prod.mk.inj (Option.some.inj hj)).1.symm
    have hon : ∀ k', (b.set i p true).lines k' ≠ off → k' = k := by
      intro k' hk'
      by_contra hk
      apply hk'
      rw [hlines, Function.update_of_ne hk]
      exact hdark k' hk
    refine ⟨?_, ?_, ?_, ?_, ?_⟩
    · intro j k' q hj
      obtain rfl := honly j k' q hj
      obtain ⟨rfl, rfl⟩ := Prod.mk.inj (Option.some.inj (hself.symm.trans hj.entry))
      rw [hlines]
      exact Function.update_self _ _ _
    · intro j k' hj
      by_cases hk : k' = k
      · exact Or.inr ⟨i, p, by rw [hk]; exact hself, hu, hp⟩
      · left
        rw [hlines, Function.update_of_ne hk]
        exact hdark k' hk
    · intro j k' q hj
      obtain rfl := honly j k' q hj
      intro j' k₂ q' hj' he
      rw [hother j' (by simpa using hj')] at he
      exact ho j' k₂ q' hj' he
    · intro k₁ k₂ h₁ h₂
      rw [hon k₁ h₁, hon k₂ h₂]
    · intro k' hk'
      exact ⟨i, p, by rw [hon k' hk', hself]⟩

end Guarded
end Guarded

/-! ## What is remembered is true -/

section Coherent
variable (unknown : P)

/-- Every remembered position is `unknown` or the real one. -/
def Coherent (b : Bank ι κ P) : Prop :=
  ∀ i k p, b.entry i = some (k, p) → p = unknown ∨ b.lines k = p

/-- If a command is sent, it works or was not needed, and no other entry of the same
switch remembers something else. -/
def Harmless (b : Bank ι κ P) (i : ι) (p : P) (ok : Bool) : Prop :=
  ∀ k c, b.entry i = some (k, c) → c ≠ p →
    (ok = true ∨ b.lines k = p) ∧
      ∀ j q, j ≠ i → b.entry j = some (k, q) → q = unknown ∨ q = p

variable {unknown} [DecidableEq ι] [DecidableEq κ] [DecidableEq P]
variable {b : Bank ι κ P} {i : ι} {p : P} {ok : Bool}

theorem coherent_set_iff (hb : Coherent unknown b) (hp : p ≠ unknown) :
    Coherent unknown (b.set i p ok) ↔ Harmless unknown b i p ok := by
  cases h : b.entry i with
  | none =>
    rw [set_none h]
    refine iff_of_true hb fun k c he => ?_
    simp [h] at he
  | some e =>
    obtain ⟨k, c⟩ := e
    by_cases hc : c = p
    · subst hc
      rw [set_same h]
      refine iff_of_true hb fun k' c' he hne => ?_
      rw [h] at he
      exact absurd (Prod.mk.inj (Option.some.inj he)).2.symm hne
    have hself := set_entry_self p ok h
    have hlines : (b.set i p ok).lines k = p ↔ ok = true ∨ b.lines k = p := by
      rw [set_sent h hc]
      cases ok <;> simp
    have hlines' : ∀ k', k' ≠ k → (b.set i p ok).lines k' = b.lines k' := by
      intro k' hk
      rw [set_sent h hc]
      cases ok
      · rfl
      · exact Function.update_of_ne hk _ _
    constructor
    · intro hcoh k' c' he hne
      rw [h] at he
      obtain ⟨rfl, rfl⟩ := Prod.mk.inj (Option.some.inj he)
      have hk : (b.set i p ok).lines k = p := (hcoh i k p hself).resolve_left hp
      refine ⟨hlines.mp hk, fun j q hj hq => ?_⟩
      rw [← hk]
      exact (hcoh j k q (by rw [set_entry_of_ne hj, hq])).imp id Eq.symm
    · intro hh j k' q hj
      obtain ⟨hok, hdup⟩ := hh k c h hc
      by_cases hji : j = i
      · subst hji
        rw [hself] at hj
        obtain ⟨rfl, rfl⟩ := Prod.mk.inj (Option.some.inj hj)
        exact Or.inr (hlines.mpr hok)
      · rw [set_entry_of_ne hji] at hj
        by_cases hk : k' = k
        · subst hk
          rcases hdup j q hji hj with hq | hq
          · exact Or.inl hq
          · exact Or.inr (by rw [hlines.mpr hok, hq])
        · rw [hlines' k' hk]
          exact hb j k' q hj

end Coherent
end W1Retap.SwitchBank
