import Mathlib

/-!
# Transaction blocks

A server that aborts the block at the first error: it ignores what follows, and
the `commit` of an aborted block rolls it back. Outside a block every insert stands
for itself.
-/
namespace W1Retap.Transactions

variable {ρ : Type}

/-- `rejected` says whether the server would refuse the row. -/
inductive Cmd (ρ : Type) where
  | begin
  | insert (row : ρ) (rejected : Bool)
  | commit

inductive Block (ρ : Type) where
  | idle
  | pending (rows : List ρ)
  | aborted

structure Server (ρ : Type) where
  table : List ρ
  block : Block ρ

def Server.exec (s : Server ρ) : Cmd ρ → Server ρ
  | .begin =>
    match s.block with
    | .idle => { s with block := .pending [] }
    | _ => s
  | .insert row rejected =>
    match s.block with
    | .idle => if rejected then s else { s with table := s.table ++ [row] }
    | .pending rows => { s with block := if rejected then .aborted else .pending (rows ++ [row]) }
    | .aborted => s
  | .commit =>
    match s.block with
    | .pending rows => { table := s.table ++ rows, block := .idle }
    | _ => { s with block := .idle }

def Server.run (s : Server ρ) (cmds : List (Cmd ρ)) : Server ρ := cmds.foldl Server.exec s

@[simp] theorem run_nil (s : Server ρ) : s.run [] = s := rfl

@[simp] theorem run_cons (s : Server ρ) (c : Cmd ρ) (cmds : List (Cmd ρ)) :
    s.run (c :: cmds) = (s.exec c).run cmds := rfl

theorem run_append (s : Server ρ) (cmds cmds' : List (Cmd ρ)) :
    s.run (cmds ++ cmds') = (s.run cmds).run cmds' := List.foldl_append

/-- Inserts, each with the answer of the server. -/
def inserts (rows : List (ρ × Bool)) : List (Cmd ρ) := rows.map fun r => .insert r.1 r.2

/-- The rows that the server does not refuse. -/
def accepted (rows : List (ρ × Bool)) : List ρ := (rows.filter fun r => !r.2).map (·.1)

variable {table rows : List ρ} {ins : List (ρ × Bool)}

theorem run_aborted (ins : List (ρ × Bool)) :
    (Server.mk table .aborted).run (inserts ins) = ⟨table, .aborted⟩ := by
  induction ins with
  | nil => rfl
  | cons r ins ih => exact ih

theorem run_pending (ins : List (ρ × Bool)) :
    (Server.mk table (.pending rows)).run (inserts ins) =
      ⟨table, if ins.any (·.2) then .aborted else .pending (rows ++ ins.map (·.1))⟩ := by
  induction ins generalizing rows with
  | nil => simp [inserts]
  | cons r ins ih =>
    obtain ⟨row, rejected⟩ := r
    cases rejected with
    | true => exact run_aborted ins
    | false =>
      have hany : ((row, false) :: ins).any (·.2) = ins.any (·.2) := rfl
      have hrows : rows ++ ((row, false) :: ins).map (·.1) = (rows ++ [row]) ++ ins.map (·.1) := by
        simp
      rw [hany, hrows]
      exact ih

/-- All rows of the block are committed, or none. -/
theorem run_block (ins : List (ρ × Bool)) :
    (Server.mk table .idle).run ([.begin] ++ inserts ins ++ [.commit]) =
      ⟨table ++ if ins.any (·.2) then [] else ins.map (·.1), .idle⟩ := by
  have hbegin : (Server.mk table .idle).run [.begin] = ⟨table, .pending []⟩ := rfl
  rw [run_append, run_append, hbegin, run_pending]
  by_cases h : ins.any (·.2) = true
  · simp [h, Server.exec]
  · simp [h, Server.exec]

theorem accepted_eq_nil : accepted ins = [] ↔ ∀ r ∈ ins, r.2 = true := by
  simp [accepted]

theorem accepted_eq_self (h : ins.any (·.2) = false) : accepted ins = ins.map (·.1) := by
  have hkeep : (ins.filter fun r => !r.2) = ins := by
    rw [List.filter_eq_self]
    intro r hr
    simpa using List.any_eq_false.mp h r hr
  rw [accepted, hkeep]

/-- The block commits what it should exactly when nothing is refused, or everything. -/
theorem block_commits_iff (ins : List (ρ × Bool)) :
    ((Server.mk table .idle).run ([.begin] ++ inserts ins ++ [.commit])).table =
        table ++ accepted ins ↔
      (∀ r ∈ ins, r.2 = false) ∨ ∀ r ∈ ins, r.2 = true := by
  rw [run_block, List.append_cancel_left_eq]
  cases h : ins.any (·.2) with
  | true =>
    obtain ⟨r, hr, hrej⟩ := List.any_eq_true.mp h
    rw [if_pos rfl, eq_comm, accepted_eq_nil]
    refine ⟨Or.inr, ?_⟩
    rintro (hnone | hall)
    · rw [hnone r hr] at hrej
      cases hrej
    · exact hall
  | false =>
    rw [if_neg Bool.false_ne_true, accepted_eq_self h]
    simp only [List.any_eq_false, Bool.not_eq_true] at h
    exact ⟨fun _ => Or.inl h, fun _ => rfl⟩

end W1Retap.Transactions
