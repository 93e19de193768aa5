import Mathlib

/-!
# Processes that share one file

Every process has the calls that it still has to make and an offset of its own; the file
and its lock are shared. A run interleaves the calls in any order that the lock allows.
What a file holds is what was written since it was last truncated, later texts laid over
earlier ones.
-/
namespace W1Retap.SharedFile

variable {ι α : Type}

inductive Call (α : Type) where
  | openTrunc
  | openRead
  | lock
  | read
  | write (text : List α)
  | unlock
  | close
  deriving DecidableEq, Repr

/-- The file, if it exists, the owner of the lock, and where the processes are. The calls
made so far are kept, latest first; no call looks at them. -/
structure Sys (ι α : Type) where
  file : Option (List α)
  owner : Option ι := none
  offset : ι → ℕ := fun _ => 0
  todo : ι → List (Call α)
  done : List (ι × Call α) := []

/-- A text written at an offset; a gap before it is filled. -/
def writeAt (fill : α) (offset : ℕ) (text content : List α) : List α :=
  content.take offset ++ List.replicate (offset - content.length) fill ++ text ++
    content.drop (offset + text.length)

@[simp] theorem writeAt_zero (fill : α) (text content : List α) :
    writeAt fill 0 text content = text ++ content.drop text.length := by
  simp [writeAt]

namespace Call

/-- A process waits for the lock, and for a file that it does not create. -/
def enabled (owner : Option ι) (file : Option (List α)) : Call α → Bool
  | .lock => owner.isNone
  | .openRead => file.isSome
  | _ => true

/-- Closing the file gives the lock up as well. -/
def owner [DecidableEq ι] (i : ι) (owner : Option ι) : Call α → Option ι
  | .lock => some i
  | .unlock | .close => if owner = some i then none else owner
  | _ => owner

def file (fill : α) (offset : ℕ) (file : Option (List α)) : Call α → Option (List α)
  | .openTrunc => some []
  | .write text => file.map (writeAt fill offset text)
  | _ => file

def offset (offset : ℕ) (file : Option (List α)) : Call α → ℕ
  | .openTrunc | .openRead => 0
  | .read => max offset ((file.map List.length).getD 0)
  | .write text => offset + text.length
  | _ => offset

/-- The calls that a process makes that only looks at the file. -/
def looks : Call α → Bool
  | .openTrunc | .write _ => false
  | _ => true

end Call

variable [DecidableEq ι] (fill : α)

/-- The next call of process `i`, if it has one and need not wait. -/
def Sys.step (s : Sys ι α) (i : ι) : Option (Sys ι α) :=
  match s.todo i with
  | [] => none
  | c :: cs =>
    if c.enabled s.owner s.file then
      some { file := c.file fill (s.offset i) s.file, owner := c.owner i s.owner
             offset := Function.update s.offset i (c.offset (s.offset i) s.file)
             todo := Function.update s.todo i cs, done := (i, c) :: s.done }
    else
      none

/-- A run, given by the processes that move. -/
def Sys.run (s : Sys ι α) (is : List ι) : Option (Sys ι α) := is.foldlM (Sys.step fill) s

section
variable {fill} {s s' : Sys ι α} {i : ι} {is : List ι}

/-- What a step does. -/
theorem step_eq (h : s.step fill i = some s') : ∃ c cs, s.todo i = c :: cs ∧
    s'.file = c.file fill (s.offset i) s.file ∧
    s'.offset = Function.update s.offset i (c.offset (s.offset i) s.file) ∧
    s'.todo = Function.update s.todo i cs ∧ s'.done = (i, c) :: s.done := by
  rw [Sys.step] at h
  cases htodo : s.todo i with
  | nil =>
    rw [htodo] at h
    exact nomatch h
  | cons c cs =>
    rw [htodo] at h
    by_cases hen : c.enabled s.owner s.file = true
    · simp only [if_pos hen] at h
      obtain rfl := Option.some.inj h
      exact ⟨c, cs, rfl, rfl, rfl, rfl, rfl⟩
    · simp only [if_neg hen] at h
      exact nomatch h

/-- What every step preserves, a run preserves. -/
theorem run_keeps {P : Sys ι α → Prop} (hP : ∀ s i s', s.step fill i = some s' → P s → P s')
    (h : s.run fill is = some s') (hs : P s) : P s' := by
  induction is generalizing s with
  | nil =>
    obtain rfl := Option.some.inj h
    exact hs
  | cons i is ih =>
    obtain ⟨s₁, h₁, h₂⟩ := Option.bind_eq_some_iff.mp h
    exact ih h₂ (hP s i s₁ h₁ hs)

end

/-! ## What the file holds -/

/-- Some process has opened the file to write it anew. -/
def Touched (done : List (ι × Call α)) : Prop := ∃ i, (i, Call.openTrunc) ∈ done

/-- The texts written since the file was last truncated, latest first, and who wrote them. -/
def written : List (ι × Call α) → List (ι × List α)
  | [] => []
  | (_, .openTrunc) :: _ => []
  | (i, .write text) :: done => (i, text) :: written done
  | _ :: done => written done

/-- Every text is laid over what was there. -/
def overlay : List (ι × List α) → List α
  | [] => []
  | (_, text) :: older => text ++ (overlay older).drop text.length

section
variable {done : List (ι × Call α)} {i j : ι} {c : Call α} {text older : List α}

omit [DecidableEq ι]

theorem written_looks (h : c.looks = true) : written ((i, c) :: done) = written done := by
  cases c <;> first | rfl | exact nomatch h

theorem touched_cons_iff (h : c ≠ .openTrunc) : Touched ((i, c) :: done) ↔ Touched done := by
  constructor
  · rintro ⟨j, hj⟩
    rcases List.mem_cons.mp hj with he | hj
    · exact absurd (Prod.mk.inj he).2.symm h
    · exact ⟨j, hj⟩
  · rintro ⟨j, hj⟩
    exact ⟨j, List.mem_cons_of_mem _ hj⟩

theorem overlay_single : overlay [(i, text)] = text := by
  rw [overlay, overlay, List.drop_nil, List.append_nil]

/-- The later of two texts is left alone by the earlier one when that is no longer. -/
theorem overlay_pair_eq_later : overlay [(i, text), (j, older)] = text ↔
    older.length ≤ text.length := by
  rw [overlay, overlay_single, List.append_right_eq_self, List.drop_eq_nil_iff]

/-- The earlier text survives when the later one is how it begins. -/
theorem overlay_pair_eq_earlier : overlay [(i, text), (j, older)] = older ↔ text <+: older := by
  rw [overlay, overlay_single]
  constructor
  · exact fun h => ⟨_, h⟩
  · rintro ⟨rest, rfl⟩
    rw [List.drop_left]

end
end W1Retap.SharedFile
