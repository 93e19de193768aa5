import W1Retap.Support.Triples

/-!
# Counting marks

A program puts good and bad marks on keys, counts the good ones, and a key shows its last
mark. The count is positive exactly when some key shows a good mark, unless a bad mark
takes back a good one. `Tracks` carries a description of the state, such as the marks made
so far, through a program.
-/
namespace W1Retap.Tally

open Programs

section
variable {κ ν : Type}

/-- A mark on a key, and the value that led to it. -/
structure Mark (κ ν : Type) where
  key : κ
  value : ν
  ok : Bool
  deriving DecidableEq, Repr

/-- What a mark is about. -/
def Mark.target (m : Mark κ ν) : κ × ν := (m.key, m.value)

/-- The good marks. -/
def count (ms : List (Mark κ ν)) : ℕ := ms.countP (·.ok)

/-- No bad mark follows a good one on the same key. -/
def Steady (ms : List (Mark κ ν)) : Prop :=
  ms.Pairwise fun a b => a.key = b.key → a.ok = true → b.ok = true

/-- Marks about `ts` were added, and `k` of them are good. -/
def Appends (ms : List (Mark κ ν)) (ts : List (κ × ν)) (k : ℕ) (ms' : List (Mark κ ν)) : Prop :=
  ∃ new, ms' = ms ++ new ∧ new.map Mark.target = ts ∧ k = count new

/-- Marks on some of `ks`, in this order, were added, and `k` of them are good. -/
def Touches (ms : List (Mark κ ν)) (ks : List κ) (k : ℕ) (ms' : List (Mark κ ν)) : Prop :=
  ∃ new, ms' = ms ++ new ∧ (new.map Mark.key).Sublist ks ∧ k = count new

section
variable {m : Mark κ ν} {ms ms' ms'' : List (Mark κ ν)} {ts ts' : List (κ × ν)} {ks ks' : List κ}
variable {i j : ℕ}

@[simp] theorem count_nil : count ([] : List (Mark κ ν)) = 0 := rfl

@[simp] theorem count_append : count (ms ++ ms') = count ms + count ms' :=
  List.countP_append

@[simp] theorem count_singleton : count [m] = if m.ok then 1 else 0 := by
  simp [count, List.countP_cons]

theorem count_pos : 0 < count ms ↔ ∃ m ∈ ms, m.ok = true := List.countP_pos_iff

/-- Marks on different keys take nothing back. -/
theorem steady_of_nodup (h : (ms.map Mark.key).Nodup) : Steady ms := by
  have hne := List.pairwise_map.mp h
  exact hne.imp fun hab heq => absurd heq hab

/-- A key that is marked twice in a row may be improved. -/
theorem steady_repeat {m' : Mark κ ν} {post : List (Mark κ ν)}
    (hkeys : ((ms ++ m :: post).map Mark.key).Nodup) (hkey : m'.key = m.key)
    (hok : m.ok = true → m'.ok = true) : Steady (ms ++ m :: m' :: post) := by
  have hsteady : Steady (ms ++ m' :: post) := by
    apply steady_of_nodup
    simpa [hkey] using hkeys
  have hne : (ms ++ m :: post).Pairwise fun a b => a.key ≠ b.key := List.pairwise_map.mp hkeys
  rw [List.pairwise_append, List.pairwise_cons] at hne
  obtain ⟨-, ⟨hpost, -⟩, hms⟩ := hne
  rw [Steady, List.pairwise_append] at hsteady ⊢
  obtain ⟨hfirst, hrest, hcross⟩ := hsteady
  refine ⟨hfirst, List.pairwise_cons.mpr ⟨?_, hrest⟩, ?_⟩
  · intro b hb heq
    rcases List.mem_cons.mp hb with rfl | hb
    · exact hok
    · exact absurd heq (hpost b hb)
  · intro a ha b hb heq
    rcases List.mem_cons.mp hb with rfl | hb
    · exact absurd heq (hms a ha b (by simp))
    · exact hcross a ha b hb heq

theorem Appends.refl : Appends ms [] 0 ms := ⟨[], by simp, rfl, rfl⟩

theorem Appends.trans (h : Appends ms ts i ms') (h' : Appends ms' ts' j ms'') :
    Appends ms (ts ++ ts') (i + j) ms'' := by
  rcases h with ⟨new, rfl, rfl, rfl⟩
  rcases h' with ⟨new', rfl, rfl, rfl⟩
  exact ⟨new ++ new', by simp, by simp, by simp⟩

theorem Appends.touches (h : Appends ms ts i ms') : Touches ms (ts.map Prod.fst) i ms' := by
  rcases h with ⟨new, rfl, rfl, rfl⟩
  have hkeys : (new.map Mark.target).map Prod.fst = new.map Mark.key := by
    rw [List.map_map]
    rfl
  exact ⟨new, rfl, hkeys ▸ List.Sublist.refl _, rfl⟩

theorem Touches.none : Touches ms ks 0 ms := ⟨[], by simp, List.nil_sublist _, rfl⟩

theorem Touches.trans (h : Touches ms ks i ms') (h' : Touches ms' ks' j ms'') :
    Touches ms (ks ++ ks') (i + j) ms'' := by
  rcases h with ⟨new, rfl, hks, rfl⟩
  rcases h' with ⟨new', rfl, hks', rfl⟩
  exact ⟨new ++ new', by simp, by simpa using hks.append hks', by simp⟩

theorem Touches.mono (h : Touches ms ks i ms') (hks : ks.Sublist ks') : Touches ms ks' i ms' := by
  rcases h with ⟨new, heq, hsub, hcount⟩
  exact ⟨new, heq, hsub.trans hks, hcount⟩

end

/-! ## What a key shows -/

section
variable [DecidableEq κ]

/-- The last mark on a key. -/
def last (k : κ) (ms : List (Mark κ ν)) : Option (Mark κ ν) :=
  (ms.filter fun m => m.key = k).getLast?

def shows (k : κ) (ms : List (Mark κ ν)) : Bool := (last k ms).any (·.ok)

variable {k : κ} {m : Mark κ ν} {ms : List (Mark κ ν)}

theorem last_snoc : last k (ms ++ [m]) = if m.key = k then some m else last k ms := by
  by_cases h : m.key = k
  · simp [last, h]
  · simp [last, h]

theorem last_mem (h : last k ms = some m) : m ∈ ms ∧ m.key = k := by
  have hm := List.mem_of_getLast? h
  simpa using hm

theorem exists_last (h : k ∈ ms.map Mark.key) : ∃ m, last k ms = some m := by
  obtain ⟨m, hm, hkey⟩ := List.mem_map.mp h
  have hmem : m ∈ ms.filter fun m => m.key = k := List.mem_filter.mpr ⟨hm, by simpa using hkey⟩
  exact ⟨_, List.getLast?_eq_some_getLast (List.ne_nil_of_mem hmem)⟩

@[simp] theorem shows_nil : shows k ([] : List (Mark κ ν)) = false := rfl

theorem shows_snoc : shows k (ms ++ [m]) = if m.key = k then m.ok else shows k ms := by
  rw [shows, last_snoc]
  by_cases h : m.key = k
  · rw [if_pos h, if_pos h]
    rfl
  · rw [if_neg h, if_neg h]
    rfl

/-- What is not marked again is shown as before. -/
theorem shows_append {ms' : List (Mark κ ν)} (h : ∀ m ∈ ms', m.key ≠ k) :
    shows k (ms ++ ms') = shows k ms := by
  have hnone : ms'.filter (fun m => m.key = k) = [] := by
    rw [List.filter_eq_nil_iff]
    intro m hm
    simpa using h m hm
  rw [shows, shows, last, last, List.filter_append, hnone, List.append_nil]

/-- A key that is marked again shows a later mark. -/
theorem last_append {ms' : List (Mark κ ν)} (h : ∃ m ∈ ms', m.key = k) :
    last k (ms ++ ms') = last k ms' := by
  obtain ⟨m, hm, hkey⟩ := h
  have hmem : m ∈ ms'.filter fun m => m.key = k := List.mem_filter.mpr ⟨hm, by simpa using hkey⟩
  rw [last, last, List.filter_append, List.getLast?_append_of_ne_nil _ (List.ne_nil_of_mem hmem)]

theorem shows_iff : shows k ms = true ↔ ∃ m, last k ms = some m ∧ m.ok = true := by
  simp [shows, Option.any_eq_true]

/-- Without a mark that takes back another the count tells whether a key shows a good mark. -/
theorem count_pos_iff (h : Steady ms) : 0 < count ms ↔ ∃ k, shows k ms = true := by
  constructor
  · intro hpos
    induction ms using List.reverseRecOn with
    | nil => simp at hpos
    | append_singleton ms m ih =>
      by_cases hm : m.ok = true
      · exact ⟨m.key, by rw [shows_snoc, if_pos rfl, hm]⟩
      · have hrest : 0 < count ms := by simpa [hm] using hpos
        have hsteady := List.pairwise_append.mp h
        obtain ⟨k, hk⟩ := ih hsteady.1 hrest
        obtain ⟨m', hlast, hok⟩ := shows_iff.mp hk
        obtain ⟨hmem, hkey⟩ := last_mem hlast
        have hne : m.key ≠ k := by
          intro heq
          exact hm (hsteady.2.2 m' hmem m (by simp) (hkey.trans heq.symm) hok)
        exact ⟨k, by rw [shows_snoc, if_neg hne, hk]⟩
  · rintro ⟨k, hk⟩
    obtain ⟨m, hlast, hok⟩ := shows_iff.mp hk
    exact count_pos.mpr ⟨m, (last_mem hlast).1, hok⟩

end
end

/-! ## Descriptions of the state -/

section
variable {ε σ α β γ : Type}

/-- From a state that `g` describes the program ends in one that some `g'` with
`Q a g'` describes. -/
def Tracks (I : γ → σ → Prop) (g : γ) (m : Program ε σ α) (Q : α → γ → Prop) : Prop :=
  Ends (I g) m fun a s => ∃ g', I g' s ∧ Q a g'

namespace Tracks

variable {I : γ → σ → Prop} {g : γ} {Q : α → γ → Prop}

theorem pure {a : α} (h : Q a g) : Tracks I g (Pure.pure a : Program ε σ α) Q :=
  Ends.pure fun _ hs => ⟨g, hs, h⟩

theorem bind {m : Program ε σ α} {f : α → Program ε σ β} {R : β → γ → Prop}
    (hm : Tracks I g m Q) (hf : ∀ a g', Q a g' → Tracks I g' (f a) R) : Tracks I g (m >>= f) R := by
  have hrest : ∀ a, Ends (fun s => ∃ g', I g' s ∧ Q a g') (f a) fun b s => ∃ g', I g' s ∧ R b g' := by
    rintro a s b s' ⟨g', hs, hQ⟩ hr
    exact hf a g' hQ s b s' hs hr
  exact Ends.bind hm hrest

/-- A first step that leaves the description as it is. -/
theorem bind_keep {m : Program ε σ α} {f : α → Program ε σ β} {φ : α → Prop} {R : β → γ → Prop}
    (hm : Tracks I g m fun a g' => g' = g ∧ φ a) (hf : ∀ a, φ a → Tracks I g (f a) R) :
    Tracks I g (m >>= f) R := by
  apply bind hm
  rintro a g' ⟨rfl, hφ⟩
  exact hf a hφ

theorem ite {c : Prop} [Decidable c] {m m' : Program ε σ α} (hm : c → Tracks I g m Q)
    (hm' : ¬ c → Tracks I g m' Q) : Tracks I g (if c then m else m') Q :=
  Ends.ite hm hm'

theorem conseq {m : Program ε σ α} {Q' : α → γ → Prop} (hm : Tracks I g m Q)
    (h : ∀ a g', Q a g' → Q' a g') : Tracks I g m Q' :=
  Ends.conseq hm (fun _ hs => hs) fun a _ ⟨g', hs, hQ⟩ => ⟨g', hs, h a g' hQ⟩

theorem lift {x : Except ε α} : Tracks I g (StateT.lift x : Program ε σ α) fun a g' => g' = g ∧ x = .ok a := by
  intro s a s' hs hr
  obtain ⟨ha, rfl⟩ := run_lift_ok.mp hr
  exact ⟨g, hs, rfl, ha⟩

end Tracks

/-- The program ends, keeps `P`, and its last state has a description with `Q`. -/
def Leads (P : σ → Prop) (I : γ → σ → Prop) (g : γ) (m : Program ε σ α) (Q : α → γ → Prop) : Prop :=
  Completes (fun s => P s ∧ I g s) m fun a s => ∃ g', (P s ∧ I g' s) ∧ Q a g'

namespace Leads

variable {P : σ → Prop} {I : γ → σ → Prop} {g : γ} {Q : α → γ → Prop}

/-- A program that ends, and of which something is known where it ends. -/
theorem of_tracks {m : Program ε σ α} {φ : α → Prop} (hc : Completes P m fun a s => P s ∧ φ a)
    (ht : Tracks I g m Q) : Leads P I g m fun a g' => φ a ∧ Q a g' := by
  rintro s ⟨hP, hI⟩
  obtain ⟨a, s', hr, hP', hφ⟩ := hc s hP
  obtain ⟨g', hI', hQ⟩ := ht s a s' hI hr
  exact ⟨a, s', hr, g', ⟨hP', hI'⟩, hφ, hQ⟩

theorem pure {a : α} (h : Q a g) : Leads P I g (Pure.pure a : Program ε σ α) Q :=
  Completes.pure fun _ hs => ⟨g, hs, h⟩

theorem bind {m : Program ε σ α} {f : α → Program ε σ β} {R : β → γ → Prop}
    (hm : Leads P I g m Q) (hf : ∀ a g', Q a g' → Leads P I g' (f a) R) : Leads P I g (m >>= f) R := by
  have hrest : ∀ a, Completes (fun s => ∃ g', (P s ∧ I g' s) ∧ Q a g') (f a)
      fun b s => ∃ g', (P s ∧ I g' s) ∧ R b g' := by
    rintro a s ⟨g', hs, hQ⟩
    exact hf a g' hQ s hs
  exact Completes.bind hm hrest

/-- A first step that leaves the description as it is. -/
theorem bind_keep {m : Program ε σ α} {f : α → Program ε σ β} {φ : α → Prop} {R : β → γ → Prop}
    (hm : Leads P I g m fun a g' => g' = g ∧ φ a) (hf : ∀ a, φ a → Leads P I g (f a) R) :
    Leads P I g (m >>= f) R := by
  apply bind hm
  rintro a g' ⟨rfl, hφ⟩
  exact hf a hφ

theorem ite {c : Prop} [Decidable c] {m m' : Program ε σ α} (hm : c → Leads P I g m Q)
    (hm' : ¬ c → Leads P I g m' Q) : Leads P I g (if c then m else m') Q :=
  Completes.ite hm hm'

theorem conseq {m : Program ε σ α} {Q' : α → γ → Prop} (hm : Leads P I g m Q)
    (h : ∀ a g', Q a g' → Q' a g') : Leads P I g m Q' :=
  Completes.conseq hm (fun _ hs => hs) fun a _ ⟨g', hs, hQ⟩ => ⟨g', hs, h a g' hQ⟩

theorem lift {x : Except ε α} {a : α} (hx : x = .ok a) :
    Leads P I g (StateT.lift x : Program ε σ α) fun b g' => g' = g ∧ b = a :=
  fun s hs => ⟨a, s, run_lift_ok.mpr ⟨hx, rfl⟩, g, hs, rfl, rfl⟩

end Leads
end
end W1Retap.Tally
