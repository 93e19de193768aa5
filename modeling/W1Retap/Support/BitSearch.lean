import Mathlib.Data.Finset.Card
import Mathlib.Data.Finset.Range
import Mathlib.Data.List.Pairwise
import Mathlib.Data.List.Perm.Subperm
import Mathlib.Order.Basic
import Mathlib.Tactic.Common

/-!
# Searching a set of words bit by bit

Words answer a search together: at each position it shows whether they differ there, goes where
it is told when they do and where they all are when they do not, and only the words that agree
with it stay. A search that remembers the last position at which it left ones behind, and is
told to follow the word it has found up to there and to turn at that position, finds the next
word in lexicographic order.
-/
namespace W1Retap.BitSearch

variable {W : Type} (bit : W → ℕ → Bool)

/-- The answer of the words that are left: whether they differ, and where the search goes. -/
def answer (left : List W) (i : ℕ) (dir : Bool) : Bool × Bool :=
  let zeros := left.any fun w => !bit w i
  let ones := left.any fun w => bit w i
  if zeros && ones then (true, dir) else (false, !zeros)

/-- The words that are left before position `i`. -/
def left (S : List W) (dirs : ℕ → Bool) : ℕ → List W
  | 0 => S
  | i + 1 => (left S dirs i).filter fun w => bit w i == (answer bit (left S dirs i) i (dirs i)).2

/-- The answers of a whole search. -/
def answers (S : List W) (dirs : ℕ → Bool) (i : ℕ) : Bool × Bool :=
  answer bit (left bit S dirs i) i (dirs i)

/-- The position after the last one at which ones were left behind, or 0. -/
def lastZero (ans : ℕ → Bool × Bool) (n : ℕ) : ℕ :=
  (List.range n).foldl (fun last i => if (ans i).1 && !(ans i).2 then i + 1 else last) 0

/-- Follow `w`, and turn before position `last`. -/
def resume (w : W) (last i : ℕ) : Bool :=
  if last = 0 then false else if i < last - 1 then bit w i else i == last - 1

/-- The words agree before position `i`. -/
def Same (i : ℕ) (v w : W) : Prop := ∀ j < i, bit v j = bit w j

/-- The lexicographic order of the first `n` bits. -/
def Before (n : ℕ) (v w : W) : Prop :=
  ∃ i < n, Same bit i v w ∧ bit v i = false ∧ bit w i = true

section
variable {bit} {S : List W} {dirs : ℕ → Bool} {n i : ℕ} {u v w : W}

theorem Same.mono {j : ℕ} (h : Same bit i v w) (hj : j ≤ i) : Same bit j v w :=
  fun k hk => h k (by omega)

theorem Same.symm (h : Same bit i v w) : Same bit i w v := fun j hj => (h j hj).symm

theorem Same.trans (h : Same bit i u v) (h' : Same bit i v w) : Same bit i u w :=
  fun j hj => (h j hj).trans (h' j hj)

/-- Words that do not agree part at some position. -/
theorem exists_parting (h : ¬ Same bit n v w) : ∃ i < n, Same bit i v w ∧ bit v i ≠ bit w i := by
  induction n with
  | zero => exact absurd (fun j hj => absurd hj (Nat.not_lt_zero j)) h
  | succ n ih =>
    by_cases hn : Same bit n v w
    · refine ⟨n, Nat.lt_succ_self n, hn, fun heq => h fun j hj => ?_⟩
      rcases Nat.lt_succ_iff_lt_or_eq.mp hj with hj | rfl
      · exact hn j hj
      · exact heq
    · obtain ⟨i, hi, hsame, hne⟩ := ih hn
      exact ⟨i, by omega, hsame, hne⟩

theorem Before.irrefl : ¬ Before bit n v v := by
  rintro ⟨i, -, -, hzero, hone⟩
  rw [hzero] at hone
  cases hone

theorem Before.trans (h : Before bit n u v) (h' : Before bit n v w) : Before bit n u w := by
  obtain ⟨i, hi, hsame, hu, hv⟩ := h
  obtain ⟨j, hj, hsame', hv', hw⟩ := h'
  rcases Nat.lt_trichotomy i j with hij | rfl | hij
  · exact ⟨i, hi, hsame.trans (hsame'.mono (Nat.le_of_lt hij)), hu, (hsame' i hij).symm.trans hv⟩
  · rw [hv] at hv'
    cases hv'
  · exact ⟨j, hj, (hsame.mono (Nat.le_of_lt hij)).trans hsame', (hsame j hij).trans hv', hw⟩

/-- Of two words that are not the same one comes before the other. -/
theorem before_or_after (h : ¬ Same bit n v w) : Before bit n v w ∨ Before bit n w v := by
  obtain ⟨i, hi, hsame, hne⟩ := exists_parting h
  cases hv : bit v i with
  | false =>
    cases hw : bit w i with
    | false => exact absurd (hv.trans hw.symm) hne
    | true => exact Or.inl ⟨i, hi, hsame, hv, hw⟩
  | true =>
    cases hw : bit w i with
    | false => exact Or.inr ⟨i, hi, hsame.symm, hw, hv⟩
    | true => exact absurd (hv.trans hw.symm) hne

/-! ## The path of a search -/

/-- The word is where the search goes, before position `i`. -/
def OnPath (bit : W → ℕ → Bool) (S : List W) (dirs : ℕ → Bool) (i : ℕ) (w : W) : Prop :=
  ∀ j < i, bit w j = (answers bit S dirs j).2

theorem mem_left : w ∈ left bit S dirs i ↔ w ∈ S ∧ OnPath bit S dirs i w := by
  induction i with
  | zero => exact ⟨fun h => ⟨h, fun j hj => absurd hj (Nat.not_lt_zero j)⟩, fun h => h.1⟩
  | succ i ih =>
    rw [left, List.mem_filter, ih, beq_iff_eq]
    constructor
    · rintro ⟨⟨hw, hpath⟩, hi⟩
      refine ⟨hw, fun j hj => ?_⟩
      rcases Nat.lt_succ_iff_lt_or_eq.mp hj with hj | rfl
      · exact hpath j hj
      · exact hi
    · rintro ⟨hw, hpath⟩
      exact ⟨⟨hw, fun j hj => hpath j (by omega)⟩, hpath i (Nat.lt_succ_self i)⟩

/-- Where the words that are left agree, the search goes with them. -/
theorem answer_same {l : List W} {dir : Bool} (hw : w ∈ l)
    (h : (answer bit l i dir).1 = false) : (answer bit l i dir).2 = bit w i := by
  simp only [answer] at h ⊢
  split at h
  · cases h
  · rename_i hboth
    rw [if_neg hboth]
    cases hbit : bit w i with
    | true =>
      have hones : (l.any fun w => bit w i) = true := List.any_eq_true.mpr ⟨w, hw, hbit⟩
      rw [hones, Bool.and_true] at hboth
      simpa using hboth
    | false =>
      have hzeros : (l.any fun w => !bit w i) = true :=
        List.any_eq_true.mpr ⟨w, hw, by rw [hbit]; rfl⟩
      rw [hzeros]
      rfl

theorem answer_differs {l : List W} {dir : Bool} (h : (answer bit l i dir).1 = true) :
    (answer bit l i dir).2 = dir ∧ ∀ b, ∃ w ∈ l, bit w i = b := by
  simp only [answer] at h ⊢
  split at h
  · rename_i hboth
    obtain ⟨hzeros, hones⟩ := Bool.and_eq_true_iff.mp hboth
    obtain ⟨v, hv, hzero⟩ := List.any_eq_true.mp hzeros
    obtain ⟨w, hw, hone⟩ := List.any_eq_true.mp hones
    rw [if_pos hboth]
    refine ⟨rfl, fun b => ?_⟩
    cases b with
    | false => exact ⟨v, hv, by simpa using hzero⟩
    | true => exact ⟨w, hw, hone⟩
  · cases h

theorem left_ne_nil (hS : S ≠ []) : left bit S dirs i ≠ [] := by
  induction i with
  | zero => exact hS
  | succ i ih =>
    obtain ⟨w, hw⟩ := List.exists_mem_of_ne_nil _ ih
    cases hdiff : (answer bit (left bit S dirs i) i (dirs i)).1 with
    | false =>
      have hsame := answer_same hw hdiff
      exact List.ne_nil_of_mem (List.mem_filter.mpr ⟨hw, beq_iff_eq.mpr hsame.symm⟩)
    | true =>
      obtain ⟨v, hv, hbit⟩ := (answer_differs hdiff).2 (answer bit (left bit S dirs i) i (dirs i)).2
      exact List.ne_nil_of_mem (List.mem_filter.mpr ⟨hv, beq_iff_eq.mpr hbit⟩)

/-- Only the directions up to a position matter there. -/
theorem left_congr {dirs' : ℕ → Bool} (h : ∀ j < i, dirs j = dirs' j) :
    left bit S dirs i = left bit S dirs' i := by
  induction i with
  | zero => rfl
  | succ i ih => rw [left, left, ih fun j hj => h j (by omega), h i (Nat.lt_succ_self i)]

theorem answers_congr {dirs' : ℕ → Bool} (h : ∀ j ≤ i, dirs j = dirs' j) :
    answers bit S dirs i = answers bit S dirs' i := by
  rw [answers, answers, left_congr fun j hj => h j (Nat.le_of_lt hj), h i (Nat.le_refl i)]

/-- A search among some words finds one of them. -/
theorem exists_onPath (hS : S ≠ []) (n : ℕ) : ∃ w ∈ S, OnPath bit S dirs n w := by
  have hne : left bit S dirs n ≠ [] := left_ne_nil hS
  obtain ⟨w, hw⟩ := List.exists_mem_of_ne_nil _ hne
  exact ⟨w, mem_left.mp hw⟩

/-- Where a word parts from the path, the search was told to go the other way. -/
theorem OnPath.parts (hu : OnPath bit S dirs n u) (huS : u ∈ S) (hv : v ∈ S) (hi : i < n)
    (hsame : Same bit i u v) (hne : bit u i ≠ bit v i) :
    (answers bit S dirs i).1 = true ∧ bit u i = dirs i := by
  have hleft : u ∈ left bit S dirs i := mem_left.mpr ⟨huS, fun j hj => hu j (by omega)⟩
  have hleft' : v ∈ left bit S dirs i :=
    mem_left.mpr ⟨hv, fun j hj => (hsame j hj).symm.trans (hu j (by omega))⟩
  cases hdiff : (answers bit S dirs i).1 with
  | false =>
    have h := answer_same hleft hdiff
    have h' := answer_same hleft' hdiff
    exact absurd (h.symm.trans h') hne
  | true => exact ⟨rfl, (hu i hi).trans (answer_differs hdiff).1⟩

/-- Where the search shows a difference, a word has left the path. -/
theorem OnPath.exists_parted (hu : OnPath bit S dirs n u) (hi : i < n)
    (hdiff : (answers bit S dirs i).1 = true) : ∃ v ∈ S, Same bit i u v ∧ bit v i = !bit u i := by
  obtain ⟨v, hv, hbit⟩ := (answer_differs hdiff).2 (!bit u i)
  obtain ⟨hvS, hpath⟩ := mem_left.mp hv
  exact ⟨v, hvS, fun j hj => (hu j (by omega)).trans (hpath j hj).symm, hbit⟩

/-- A search that is told to follow a word stays with it. -/
theorem OnPath.follows (hu : OnPath bit S dirs n u) (huS : u ∈ S) (hv : v ∈ S) (hi : i ≤ n)
    (h : ∀ j < i, dirs j = bit v j) : Same bit i u v := by
  by_contra hne
  obtain ⟨j, hj, hsame, hbit⟩ := exists_parting hne
  have hturn := (hu.parts huS hv (by omega) hsame hbit).2
  exact hbit (hturn.trans (h j hj))

/-! ## The next word -/

theorem lastZero_zero {ans : ℕ → Bool × Bool} (h : lastZero ans n = 0) :
    ∀ i < n, ¬ ((ans i).1 = true ∧ (ans i).2 = false) := by
  induction n with
  | zero => exact fun i hi => absurd hi (Nat.not_lt_zero i)
  | succ n ih =>
    rw [lastZero, List.range_succ, List.foldl_append, List.foldl_cons, List.foldl_nil] at h
    split at h
    · cases h
    · rename_i hn
      intro i hi
      rcases Nat.lt_succ_iff_lt_or_eq.mp hi with hi | rfl
      · exact ih h i hi
      · rintro ⟨hdiff, hzero⟩
        rw [hdiff, hzero] at hn
        exact hn rfl

theorem lastZero_succ {ans : ℕ → Bool × Bool} {last : ℕ} (h : lastZero ans n = last + 1) :
    last < n ∧ ((ans last).1 = true ∧ (ans last).2 = false) ∧
      ∀ i < n, (ans i).1 = true ∧ (ans i).2 = false → i ≤ last := by
  induction n with
  | zero => cases h
  | succ n ih =>
    rw [lastZero, List.range_succ, List.foldl_append, List.foldl_cons, List.foldl_nil] at h
    split at h
    · rename_i hn
      obtain rfl := Nat.succ.inj h
      rw [Bool.and_eq_true, Bool.not_eq_true'] at hn
      exact ⟨Nat.lt_succ_self n, hn, fun i hi _ => by omega⟩
    · rename_i hn
      obtain ⟨hlast, hzero, hmax⟩ := ih h
      refine ⟨by omega, hzero, fun i hi hzero' => ?_⟩
      rcases Nat.lt_succ_iff_lt_or_eq.mp hi with hi | rfl
      · exact hmax i hi hzero'
      · rw [Bool.and_eq_true, Bool.not_eq_true'] at hn
        exact absurd hzero' hn

/-- A later word has parted from the path at a zero. -/
theorem OnPath.zero_of_before (hu : OnPath bit S dirs n u) (huS : u ∈ S) (hv : v ∈ S) (hi : i < n)
    (hsame : Same bit i u v) (hzero : bit u i = false) (hone : bit v i = true) :
    (answers bit S dirs i).1 = true ∧ (answers bit S dirs i).2 = false := by
  refine ⟨(hu.parts huS hv hi hsame ?_).1, (hu i hi).symm.trans hzero⟩
  rw [hzero, hone]
  exact Bool.false_ne_true

/-- When no ones were left behind, no word comes later. -/
theorem OnPath.last (hu : OnPath bit S dirs n u) (huS : u ∈ S)
    (h : lastZero (answers bit S dirs) n = 0) (hv : v ∈ S) : ¬ Before bit n u v := by
  rintro ⟨i, hi, hsame, hzero, hone⟩
  exact lastZero_zero h i hi (hu.zero_of_before huS hv hi hsame hzero hone)

/-- The resumed search finds the next word. -/
theorem OnPath.next {last : ℕ} (hu : OnPath bit S dirs n u) (huS : u ∈ S)
    (h : lastZero (answers bit S dirs) n = last + 1)
    (hw : OnPath bit S (resume bit u (last + 1)) n w) (hwS : w ∈ S) :
    Before bit n u w ∧ ∀ v ∈ S, Before bit n u v → Same bit n v w ∨ Before bit n w v := by
  obtain ⟨hlast, ⟨hdiff, hzero⟩, hmax⟩ := lastZero_succ h
  have hbit : bit u last = false := (hu last hlast).trans hzero
  obtain ⟨x, hx, hsame, hone⟩ := hu.exists_parted hlast hdiff
  have hresume : ∀ j < last, resume bit u (last + 1) j = bit u j := by
    intro j hj
    rw [resume, if_neg (Nat.succ_ne_zero last), if_pos (by omega)]
  have hturn : resume bit u (last + 1) last = true := by
    rw [resume, if_neg (Nat.succ_ne_zero last), if_neg (by omega)]
    simp
  have hafter : ∀ j, last < j → resume bit u (last + 1) j = false := by
    intro j hj
    rw [resume, if_neg (Nat.succ_ne_zero last), if_neg (by omega)]
    simp only [Nat.add_sub_cancel, beq_eq_false_iff_ne]
    omega
  have hfollow : Same bit (last + 1) w x := by
    refine hw.follows hwS hx hlast fun j hj => ?_
    rcases Nat.lt_succ_iff_lt_or_eq.mp hj with hj | rfl
    · exact (hresume j hj).trans (hsame j hj)
    · rw [hturn, hone, hbit]
      rfl
  have hwu : Same bit last u w := hsame.trans (hfollow.mono (Nat.le_succ last)).symm
  have hwone : bit w last = true := by
    rw [hfollow last (Nat.lt_succ_self last), hone, hbit]
    rfl
  refine ⟨⟨last, hlast, hwu, hbit, hwone⟩, ?_⟩
  rintro v hv ⟨i, hi, huv, huzero, hvone⟩
  have hle := hmax i hi (hu.zero_of_before huS hv hi huv huzero hvone)
  rcases Nat.lt_or_eq_of_le hle with hlt | rfl
  · exact Or.inr
      ⟨i, hi, (hwu.mono (Nat.le_of_lt hlt)).symm.trans huv, (hwu i hlt).symm.trans huzero, hvone⟩
  · by_cases hvw : Same bit n v w
    · exact Or.inl hvw
    · right
      obtain ⟨j, hj, hsame', hne⟩ := exists_parting fun h => hvw h.symm
      have hij : i < j := by
        by_contra hji
        rcases Nat.lt_or_eq_of_le (Nat.not_lt.mp hji) with hji | rfl
        · exact hne ((hwu j hji).symm.trans (huv j hji))
        · exact hne (hwone.trans hvone.symm)
      have hwzero : bit w j = false :=
        (hw.parts hwS hv hj hsame' hne).2.trans (hafter j hij)
      refine ⟨j, hj, hsame', hwzero, ?_⟩
      cases hvj : bit v j with
      | true => rfl
      | false => exact absurd (hwzero.trans hvj.symm) hne

/-- A search that starts with `n` zeros finds the first word. -/
theorem OnPath.first (hu : OnPath bit S dirs n u) (huS : u ∈ S) (hdirs : ∀ i < n, dirs i = false)
    (hv : v ∈ S) : Same bit n u v ∨ Before bit n u v := by
  by_cases hsame : Same bit n u v
  · exact Or.inl hsame
  · obtain ⟨i, hi, hsame', hne⟩ := exists_parting hsame
    have hzero := (hu.parts huS hv hi hsame' hne).2.trans (hdirs i hi)
    refine Or.inr ⟨i, hi, hsame', hzero, ?_⟩
    cases hvi : bit v i with
    | true => rfl
    | false => exact absurd (hzero.trans hvi.symm) hne

/-! ## In order -/

/-- No two of the words have the same `n` bits. -/
def Distinct (bit : W → ℕ → Bool) (n : ℕ) (S : List W) : Prop :=
  ∀ v ∈ S, ∀ w ∈ S, Same bit n v w → v = w

/-- The words that come after `w`, in order. -/
structure After (bit : W → ℕ → Bool) (n : ℕ) (S : List W) (w : W) (ws : List W) : Prop where
  sorted : (w :: ws).Pairwise (Before bit n)
  mem : ∀ v, v ∈ ws ↔ v ∈ S ∧ Before bit n w v

open Classical in
theorem exists_sorted (hS : Distinct bit n S) :
    ∃ ws : List W, ws.Pairwise (Before bit n) ∧ ∀ v, v ∈ ws ↔ v ∈ S := by
  induction S with
  | nil => exact ⟨[], .nil, fun v => Iff.rfl⟩
  | cons u S ih =>
    obtain ⟨ws, hsorted, hmem⟩ := ih fun v hv w hw => hS v (by simp [hv]) w (by simp [hw])
    let before := ws.filter fun v => Before bit n v u
    let after := ws.filter fun v => Before bit n u v
    have hbefore : ∀ v ∈ before, Before bit n v u := fun v hv =>
      of_decide_eq_true (List.mem_filter.mp hv).2
    have hafter : ∀ v ∈ after, Before bit n u v := fun v hv =>
      of_decide_eq_true (List.mem_filter.mp hv).2
    refine ⟨before ++ u :: after, ?_, fun v => ?_⟩
    · refine List.pairwise_append.mpr
        ⟨hsorted.filter _, List.pairwise_cons.mpr ⟨hafter, hsorted.filter _⟩, ?_⟩
      intro v hv w hw
      rcases List.mem_cons.mp hw with rfl | hw
      · exact hbefore v hv
      · exact (hbefore v hv).trans (hafter w hw)
    · constructor
      · intro hv
        rcases List.mem_append.mp hv with hv | hv
        · exact List.mem_cons_of_mem u ((hmem v).mp (List.mem_of_mem_filter hv))
        · rcases List.mem_cons.mp hv with rfl | hv
          · exact List.mem_cons_self
          · exact List.mem_cons_of_mem u ((hmem v).mp (List.mem_of_mem_filter hv))
      · intro hv
        by_cases hsame : Same bit n v u
        · rw [hS v hv u List.mem_cons_self hsame]
          exact List.mem_append_right _ List.mem_cons_self
        · have hvS : v ∈ ws := by
            rcases List.mem_cons.mp hv with rfl | hv
            · exact absurd (fun i _ => rfl) hsame
            · exact (hmem v).mpr hv
          rcases before_or_after hsame with h | h
          · exact List.mem_append_left _ (List.mem_filter.mpr ⟨hvS, decide_eq_true h⟩)
          · exact List.mem_append_right _
              (List.mem_cons_of_mem u (List.mem_filter.mpr ⟨hvS, decide_eq_true h⟩))

theorem length_le_of_sorted {ws : List W} (hsorted : ws.Pairwise (Before bit n))
    (hsub : ∀ v ∈ ws, v ∈ S) :
    ws.length ≤ S.length := by
  have hnodup : ws.Nodup := by
    refine hsorted.imp fun hbefore heq => ?_
    subst heq
    exact Before.irrefl hbefore
  exact (List.subperm_of_subset hnodup hsub).length_le

open Classical in
theorem exists_after (hS : Distinct bit n S) (w : W) : ∃ ws, After bit n S w ws := by
  obtain ⟨ws, hsorted, hmem⟩ := exists_sorted hS
  refine ⟨ws.filter fun v => Before bit n w v, ?_, fun v => ?_⟩
  · refine List.pairwise_cons.mpr ⟨fun v hv => ?_, hsorted.filter _⟩
    exact of_decide_eq_true (List.mem_filter.mp hv).2
  · rw [List.mem_filter, hmem, decide_eq_true_iff]

namespace After

variable {ws : List W}

/-- The last word of a search that left no ones behind. -/
theorem last (h : After bit n S u ws) (hu : OnPath bit S dirs n u) (huS : u ∈ S)
    (hlast : lastZero (answers bit S dirs) n = 0) : ws = [] := by
  cases ws with
  | nil => rfl
  | cons v ws =>
    obtain ⟨hv, hbefore⟩ := (h.mem v).mp List.mem_cons_self
    exact absurd hbefore (hu.last huS hlast hv)

/-- The word that the resumed search finds, with those after it. -/
theorem next (h : After bit n S u ws) (hS : Distinct bit n S) (hu : OnPath bit S dirs n u)
    (huS : u ∈ S)
    {last : ℕ} (hlast : lastZero (answers bit S dirs) n = last + 1) :
    ∃ w ws', ws = w :: ws' ∧ w ∈ S ∧ OnPath bit S (resume bit u (last + 1)) n w ∧
      After bit n S w ws' := by
  obtain ⟨w, hw, hpath⟩ : ∃ w ∈ S, OnPath bit S (resume bit u (last + 1)) n w :=
    exists_onPath (List.ne_nil_of_mem huS) n
  obtain ⟨huw, hmin⟩ := hu.next huS hlast hpath hw
  cases ws with
  | nil => exact absurd ((h.mem w).mpr ⟨hw, huw⟩) List.not_mem_nil
  | cons v ws' =>
    obtain ⟨hv, huv⟩ := (h.mem v).mp List.mem_cons_self
    have hsorted := List.pairwise_cons.mp (List.pairwise_cons.mp h.sorted).2
    have heq : w = v := by
      rcases hmin v hv huv with hsame | hwv
      · exact (hS v hv w hw hsame).symm
      · rcases List.mem_cons.mp ((h.mem w).mpr ⟨hw, huw⟩) with heq | hw'
        · exact heq
        · exact absurd ((hsorted.1 w hw').trans hwv) Before.irrefl
    subst heq
    refine ⟨w, ws', rfl, hw, hpath, (List.pairwise_cons.mp h.sorted).2, fun x => ?_⟩
    constructor
    · intro hx
      exact ⟨((h.mem x).mp (List.mem_cons_of_mem w hx)).1, hsorted.1 x hx⟩
    · rintro ⟨hx, hwx⟩
      rcases List.mem_cons.mp ((h.mem x).mpr ⟨hx, huw.trans hwx⟩) with rfl | hx
      · exact absurd hwx Before.irrefl
      · exact hx

end After
end
/-! ## A word that is written -/

section
variable (S : List W) (dirs : ℕ → Bool)

/-- The words that had every bit that was written before position `i`. -/
def remaining (i : ℕ) : List W := S.filter fun w => (List.range i).all fun j => bit w j == dirs j

/-- None of them parts from what is written there. -/
def agreeing (i : ℕ) : Bool := (remaining bit S dirs i).all fun w => bit w i == dirs i

end

section
variable {bit} {S : List W} {dirs : ℕ → Bool} {n i j : ℕ} {u v w : W}

theorem mem_remaining : w ∈ remaining bit S dirs i ↔ w ∈ S ∧ ∀ j < i, bit w j = dirs j := by
  simp [remaining]

theorem remaining_ne_nil (h : remaining bit S dirs i ≠ []) (hj : j ≤ i) :
    remaining bit S dirs j ≠ [] := by
  obtain ⟨w, hw⟩ := List.exists_mem_of_ne_nil _ h
  obtain ⟨hmem, hpath⟩ := mem_remaining.mp hw
  exact List.ne_nil_of_mem (mem_remaining.mpr ⟨hmem, fun k hk => hpath k (by omega)⟩)

/-- At each position that does not agree another word parts, so there are fewer of these than there
are words. -/
theorem length_lt_agreeing (hv : v ∈ S) (n : ℕ) :
    n < (List.range n).countP (agreeing bit S (bit v)) + S.length := by
  classical
  have hparts : ∀ i, ∃ u, agreeing bit S (bit v) i = false →
      u ∈ S ∧ Same bit i u v ∧ bit u i ≠ bit v i := by
    intro i
    by_cases h : agreeing bit S (bit v) i = false
    · obtain ⟨u, hu, hne⟩ := List.all_eq_false.mp h
      obtain ⟨hmem, hsame⟩ := mem_remaining.mp hu
      exact ⟨u, fun _ => ⟨hmem, hsame, by simpa using hne⟩⟩
    · exact ⟨v, fun h' => absurd h' h⟩
  choose f hf using hparts
  have hcard : ((Finset.range n).filter fun i => agreeing bit S (bit v) i = false).card ≤
      (S.toFinset.erase v).card := by
    refine Finset.card_le_card_of_injOn f ?_ ?_
    · intro i hi
      obtain ⟨hmem, -, hne⟩ := hf i (Finset.mem_filter.mp hi).2
      refine Finset.mem_erase.mpr ⟨fun heq => hne (by rw [heq]), List.mem_toFinset.mpr hmem⟩
    · intro i hi j hj hij
      obtain ⟨-, hi, hnei⟩ := hf i (Finset.mem_filter.mp hi).2
      obtain ⟨-, hj, hnej⟩ := hf j (Finset.mem_filter.mp hj).2
      -- the word that parts at the later one agrees at the earlier one
      rcases Nat.lt_trichotomy i j with hlt | heq | hgt
      · exact absurd (hij ▸ hj i hlt) hnei
      · exact heq
      · exact absurd (hij ▸ hi j hgt) hnej
  have herase : (S.toFinset.erase v).card < S.length :=
    (Finset.card_erase_lt_of_mem (List.mem_toFinset.mpr hv)).trans_le (List.toFinset_card_le S)
  have hcount : ((Finset.range n).filter fun i => agreeing bit S (bit v) i = true).card =
      (List.range n).countP (agreeing bit S (bit v)) := by
    rw [List.countP_eq_length_filter]
    refine congrArg List.length (List.filter_congr fun i _ => ?_)
    exact Bool.decide_eq_true
  have hsum := Finset.card_filter_add_card_filter_not (s := Finset.range n)
    (fun i => agreeing bit S (bit v) i = true)
  simp only [Bool.not_eq_true] at hsum
  rw [Finset.card_range] at hsum
  omega

end
end W1Retap.BitSearch
