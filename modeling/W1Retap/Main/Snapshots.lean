import W1Retap.Support.SharedFile

/-!
# The snapshot file

`w1_tmpfilelog` truncates the file when it opens it and takes the lock only afterwards.
Two processes that write the same file, and one that reads it under the lock, may make
their calls in any order.
-/
namespace W1Retap

open SharedFile

/-- The text of a snapshot; without readings `w1_tmpfilelog` does not open the file. -/
structure Snapshot where
  text : List UInt8
  nonempty : text ≠ []

/-- The file calls of `w1_tmpfilelog`. -/
def Snapshot.calls (t : Snapshot) : List (SharedFile.Call UInt8) :=
  [.openTrunc, .lock, .write t.text, .unlock, .close]

/-- Two processes that write snapshots, and a reader. -/
inductive Process where
  | writer (second : Bool)
  | reader
  deriving DecidableEq, Repr

/-- A process that reads the file under the lock a number of times. -/
def readerCalls : ℕ → List (SharedFile.Call UInt8)
  | 0 => []
  | reads + 1 => .openRead :: .lock :: .read :: .unlock :: .close :: readerCalls reads

abbrev Processes := Sys Process UInt8

section
variable (texts : Bool → Snapshot) (file : Option (List UInt8)) (reads : ℕ)

/-- The processes before their first calls, and the file that they find. -/
def Processes.start : Processes where
  file := file
  todo
    | .writer second => (texts second).calls
    | .reader => readerCalls reads

def Processes.run (s : Processes) (steps : List Process) : Option Processes := Sys.run 0 s steps

/-- When it matters what the file holds: the reader has the lock, or the writers are done. -/
def Processes.Observed (s : Processes) : Prop :=
  s.owner = some .reader ∨ ∀ second, s.todo (.writer second) = []

/-- The file is as it was before, or holds exactly one of the two snapshots. -/
def Processes.Complete (s : Processes) : Prop :=
  ¬ Touched s.done ∨ ∃ second, s.file = some (texts second).text

/-- The calls made so far end with a write over nothing, over a text that is no longer, or
over one that begins with the text written. -/
def Processes.Clean (s : Processes) : Prop :=
  ¬ Touched s.done ∨ ∃ i text older, written s.done = (i, text) :: older ∧
    ∀ e ∈ older, e.2.length ≤ text.length ∨ text <+: e.2

/-- `P` holds in a run wherever it matters. -/
def Processes.Always (P : Processes → Prop) (steps : List Process) : Prop :=
  ∀ pre s, pre <+: steps → (Processes.start texts file reads).run pre = some s → s.Observed → P s

end

/-! ## The invariant of a run -/

section
variable {texts : Bool → Snapshot} {file : Option (List UInt8)} {reads : ℕ} {s s' : Processes}

theorem looks_readerCalls (reads : ℕ) : ∀ c ∈ readerCalls reads, c.looks = true := by
  induction reads with
  | zero => simp [readerCalls]
  | succ reads ih => simpa [readerCalls, SharedFile.Call.looks] using ih

/-- How far a writer is. -/
inductive Stage (t : Snapshot) (offset : ℕ) : List (SharedFile.Call UInt8) → Prop
  | start : Stage t offset [.openTrunc, .lock, .write t.text, .unlock, .close]
  | opened : offset = 0 → Stage t offset [.lock, .write t.text, .unlock, .close]
  | locked : offset = 0 → Stage t offset [.write t.text, .unlock, .close]
  | wrote : Stage t offset [.unlock, .close]
  | unlocked : Stage t offset [.close]
  | closed : Stage t offset []

/-- Each text in the file was written by a process that does not write again. -/
structure Processes.Laid (texts : Bool → Snapshot) (s : Processes) : Prop where
  stage : ∀ second, Stage (texts second) (s.offset (.writer second)) (s.todo (.writer second))
  reader : ∀ c ∈ s.todo .reader, c.looks = true
  written : ∀ e ∈ written s.done, ∃ second, e = (.writer second, (texts second).text) ∧
    (s.todo (.writer second)).length ≤ 2
  nodup : ((SharedFile.written s.done).map Prod.fst).Nodup
  file : Touched s.done → s.file = some (overlay (SharedFile.written s.done))
  touched : ∀ second, (s.todo (.writer second)).length ≤ 4 → Touched s.done

theorem laid_start : (Processes.start texts file reads).Laid texts where
  stage _ := .start
  reader := looks_readerCalls reads
  written e he := nomatch he
  nodup := .nil
  file := fun ⟨_, h⟩ => nomatch h
  touched _ h := absurd h (by simp [Processes.start, Snapshot.calls])

/-- A call that only looks at the file. -/
theorem Processes.Laid.look {i : Process} {c : SharedFile.Call UInt8} {cs : List (SharedFile.Call UInt8)}
    (h : s.Laid texts) (htodo : s.todo i = c :: cs) (hc : c.looks = true)
    (hfile : s'.file = s.file) (hdone : s'.done = (i, c) :: s.done)
    (htodo' : s'.todo = Function.update s.todo i cs)
    (hstage : ∀ second, Stage (texts second) (s'.offset (.writer second)) (s'.todo (.writer second)))
    (htouched : ∀ second, i = .writer second → Touched s.done) : s'.Laid texts := by
  have hne : c ≠ .openTrunc := by
    rintro rfl
    exact nomatch hc
  have hle : ∀ j, (s'.todo j).length ≤ (s.todo j).length := by
    intro j
    rw [htodo']
    by_cases hj : j = i
    · subst hj
      rw [Function.update_self, htodo]
      exact Nat.le_succ _
    · rw [Function.update_of_ne hj]
  have htail : ∀ j, ∀ d ∈ s'.todo j, d ∈ s.todo j := by
    intro j d hd
    rw [htodo'] at hd
    by_cases hj : j = i
    · subst hj
      rw [Function.update_self] at hd
      rw [htodo]
      exact List.mem_cons_of_mem _ hd
    · rwa [Function.update_of_ne hj] at hd
  have hwritten : SharedFile.written s'.done = SharedFile.written s.done := by
    rw [hdone, written_looks hc]
  have hiff : Touched s'.done ↔ Touched s.done := by
    rw [hdone, touched_cons_iff hne]
  refine ⟨hstage, fun d hd => h.reader d (htail _ d hd), ?_, ?_, ?_, ?_⟩
  · intro e he
    rw [hwritten] at he
    obtain ⟨second, rfl, hlen⟩ := h.written e he
    exact ⟨second, rfl, (hle _).trans hlen⟩
  · rw [hwritten]
    exact h.nodup
  · intro ht
    rw [hfile, hwritten]
    exact h.file (hiff.mp ht)
  · intro second hlen
    apply hiff.mpr
    by_cases hi : i = .writer second
    · exact htouched second hi
    · apply h.touched second
      rwa [htodo', Function.update_of_ne (Ne.symm hi)] at hlen

theorem writer_ne {b c : Bool} (h : c ≠ b) : Process.writer c ≠ Process.writer b :=
  fun he => h (Process.writer.inj he)

/-- Opening the file leaves nothing of what was written. -/
theorem Processes.Laid.openTrunc {b : Bool} {cs : List (SharedFile.Call UInt8)} (h : s.Laid texts)
    (hfile : s'.file = some [])
    (hdone : s'.done = (.writer b, .openTrunc) :: s.done)
    (htodo' : s'.todo = Function.update s.todo (.writer b) cs)
    (hstage : ∀ second, Stage (texts second) (s'.offset (.writer second)) (s'.todo (.writer second))) :
    s'.Laid texts := by
  have hwritten : SharedFile.written s'.done = [] := by
    rw [hdone]
    rfl
  have htouched : Touched s'.done := by
    rw [hdone]
    exact ⟨_, List.mem_cons_self⟩
  refine ⟨hstage, ?_, ?_, ?_, ?_, fun _ _ => htouched⟩
  · rw [htodo', Function.update_of_ne (by simp)]
    exact h.reader
  · rw [hwritten]
    simp
  · rw [hwritten]
    exact .nil
  · rw [hwritten]
    exact fun _ => hfile

/-- A write lays the text of the process over the file. -/
theorem Processes.Laid.write {b : Bool} {cs : List (SharedFile.Call UInt8)} (h : s.Laid texts)
    (htodo : s.todo (.writer b) = .write (texts b).text :: cs) (hlen : cs.length = 2)
    (hfile : s'.file = s.file.map (writeAt 0 0 (texts b).text))
    (hdone : s'.done = (.writer b, .write (texts b).text) :: s.done)
    (htodo' : s'.todo = Function.update s.todo (.writer b) cs)
    (hstage : ∀ second, Stage (texts second) (s'.offset (.writer second)) (s'.todo (.writer second))) :
    s'.Laid texts := by
  have hwritten : SharedFile.written s'.done =
      (.writer b, (texts b).text) :: SharedFile.written s.done := by
    rw [hdone]
    rfl
  have hiff : Touched s'.done ↔ Touched s.done := by
    rw [hdone, touched_cons_iff (by simp)]
  have hold : Touched s.done := by
    apply h.touched b
    rw [htodo, List.length_cons, hlen]
    omega
  -- a process that has written has fewer calls left than this one
  have hnew : ∀ e ∈ SharedFile.written s.done, e.1 ≠ .writer b := by
    intro e he heq
    obtain ⟨c, rfl, hc⟩ := h.written e he
    obtain rfl := Process.writer.inj heq
    rw [htodo, List.length_cons, hlen] at hc
    omega
  refine ⟨hstage, ?_, ?_, ?_, ?_, fun _ _ => hiff.mpr hold⟩
  · rw [htodo', Function.update_of_ne (by simp)]
    exact h.reader
  · intro e he
    rw [hwritten] at he
    rcases List.mem_cons.mp he with rfl | he
    · refine ⟨b, rfl, ?_⟩
      rw [htodo', Function.update_self, hlen]
    · obtain ⟨c, rfl, hc⟩ := h.written e he
      refine ⟨c, rfl, ?_⟩
      rw [htodo', Function.update_of_ne (hnew _ he)]
      exact hc
  · rw [hwritten, List.map_cons, List.nodup_cons]
    refine ⟨?_, h.nodup⟩
    intro hmem
    obtain ⟨e, he, heq⟩ := List.mem_map.mp hmem
    exact hnew e he heq
  · intro _
    rw [hfile, hwritten, h.file hold, Option.map_some, writeAt_zero]
    rfl

theorem Processes.Laid.step {i : Process} (h : s.Laid texts) (hstep : Sys.step 0 s i = some s') :
    s'.Laid texts := by
  obtain ⟨c, cs, htodo, hfile, hoffset, htodo', hdone⟩ := step_eq hstep
  have hother : ∀ second, i ≠ .writer second →
      Stage (texts second) (s'.offset (.writer second)) (s'.todo (.writer second)) := by
    intro second hne
    rw [hoffset, htodo', Function.update_of_ne (Ne.symm hne), Function.update_of_ne (Ne.symm hne)]
    exact h.stage second
  cases i with
  | reader =>
    have hc : c.looks = true := h.reader c (by simp [htodo])
    have hsame : s'.file = s.file := by
      rw [hfile]
      cases c <;> first | rfl | exact nomatch hc
    exact h.look htodo hc hsame hdone htodo' (fun _ => hother _ (by simp)) fun _ he => nomatch he
  | writer b =>
    -- the stage that the writer reaches with this call
    have hall : Stage (texts b) (c.offset (s.offset (.writer b)) s.file) cs →
        ∀ second, Stage (texts second) (s'.offset (.writer second)) (s'.todo (.writer second)) := by
      intro hb second
      by_cases hsecond : second = b
      · subst hsecond
        rw [hoffset, htodo', Function.update_self, Function.update_self]
        exact hb
      · exact hother second (writer_ne (Ne.symm hsecond))
    have htouched : (c :: cs).length ≤ 4 → ∀ second, Process.writer b = .writer second →
        Touched s.done := by
      intro hlen second he
      obtain rfl := Process.writer.inj he
      apply h.touched
      rwa [htodo]
    have hstage := h.stage b
    rw [htodo] at hstage
    cases hstage with
    | start => exact h.openTrunc hfile hdone htodo' (hall (.opened rfl))
    | opened hoff =>
      exact h.look htodo rfl hfile hdone htodo' (hall (.locked hoff)) (htouched (by simp))
    | locked hoff =>
      rw [hoff] at hfile
      exact h.write htodo rfl hfile hdone htodo' (hall .wrote)
    | wrote => exact h.look htodo rfl hfile hdone htodo' (hall .unlocked) (htouched (by simp))
    | unlocked => exact h.look htodo rfl hfile hdone htodo' (hall .closed) (htouched (by simp))

/-! ## What the file holds when it matters -/

/-- Of two texts of different processes one is the first and one the second. -/
theorem exists_text_iff {b c : Bool} (hne : b ≠ c) (content : List UInt8) :
    (∃ second, some content = some (texts second).text) ↔
      content = (texts b).text ∨ content = (texts c).text := by
  constructor
  · rintro ⟨d, hd⟩
    have hd := Option.some.inj hd
    by_cases hb : d = b
    · exact Or.inl (hb ▸ hd)
    · have hc : d = c := by
        cases b <;> cases c <;> cases d <;> simp_all
      exact Or.inr (hc ▸ hd)
  · rintro (h | h)
    · exact ⟨b, congrArg some h⟩
    · exact ⟨c, congrArg some h⟩

theorem Processes.Laid.complete_iff (h : s.Laid texts) : s.Complete texts ↔ s.Clean := by
  by_cases ht : Touched s.done
  · have hcontent := h.file ht
    have hnodup := h.nodup
    have hmem : ∀ e ∈ SharedFile.written s.done, ∃ b, e = (.writer b, (texts b).text) :=
      fun e he => (h.written e he).imp fun b hb => hb.1
    unfold Processes.Complete Processes.Clean
    rw [or_iff_right (not_not_intro ht), or_iff_right (not_not_intro ht), hcontent]
    generalize SharedFile.written s.done = ws at hnodup hmem
    match ws with
    | [] =>
      constructor
      · rintro ⟨b, hb⟩
        exact absurd (Option.some.inj hb).symm (texts b).nonempty
      · rintro ⟨i, text, older, he, -⟩
        exact nomatch he
    | [e] =>
      obtain ⟨b, rfl⟩ := hmem e (by simp)
      have hclean : ∃ i text older, [(Process.writer b, (texts b).text)] = (i, text) :: older ∧
          ∀ e ∈ older, e.2.length ≤ text.length ∨ text <+: e.2 := ⟨_, _, [], rfl, by simp⟩
      rw [overlay_single]
      exact iff_of_true ⟨b, rfl⟩ hclean
    | [e, e'] =>
      obtain ⟨b, rfl⟩ := hmem e (by simp)
      obtain ⟨c, rfl⟩ := hmem e' (by simp)
      have hne : b ≠ c := by
        rintro rfl
        simp at hnodup
      rw [exists_text_iff hne, overlay_pair_eq_later, overlay_pair_eq_earlier]
      constructor
      · intro hpair
        exact ⟨_, _, _, rfl, fun e he => by rwa [List.mem_singleton.mp he]⟩
      · rintro ⟨i, text, older, he, hall⟩
        obtain ⟨hlast, rfl⟩ := List.cons.inj he
        obtain ⟨-, rfl⟩ := Prod.mk.inj hlast
        exact hall (.writer c, (texts c).text) (by simp)
    | e :: e' :: e'' :: older =>
      obtain ⟨b, rfl⟩ := hmem e (by simp)
      obtain ⟨c, rfl⟩ := hmem e' (by simp)
      obtain ⟨d, rfl⟩ := hmem e'' (by simp)
      -- there are only two writers
      cases b <;> cases c <;> cases d <;> simp at hnodup
  · exact ⟨fun _ => Or.inl ht, fun _ => Or.inl ht⟩

/-- In a run the reader and the end find the file complete exactly when they find it after
a write over nothing, over a text that is no longer, or over one that begins with what
was written. -/
theorem snapshot_atomic_iff (texts : Bool → Snapshot) (file : Option (List UInt8)) (reads : ℕ)
    (steps : List Process) :
    Processes.Always texts file reads (Processes.Complete texts) steps ↔
      Processes.Always texts file reads Processes.Clean steps := by
  have hlaid : ∀ pre s, (Processes.start texts file reads).run pre = some s → s.Laid texts :=
    fun pre s h => run_keeps (fun _ _ _ hstep hs => hs.step hstep) h laid_start
  constructor
  · intro h pre s hpre hrun hobs
    exact (hlaid pre s hrun).complete_iff.mp (h pre s hpre hrun hobs)
  · intro h pre s hpre hrun hobs
    exact (hlaid pre s hrun).complete_iff.mpr (h pre s hpre hrun hobs)

/-- A long text and a short one. -/
def longAndShort : Bool → Snapshot
  | false => ⟨[65, 66], by simp⟩
  | true => ⟨[67], by simp⟩

/-- Both writers open the file before either writes: the short text is laid over the long
one. And a reader takes the lock after a writer has opened the file. -/
theorem snapshot_atomic_fails :
    ¬ Processes.Always longAndShort none 0 (Processes.Complete longAndShort)
      [.writer false, .writer true, .writer false, .writer false, .writer false, .writer false,
        .writer true, .writer true, .writer true, .writer true] ∧
    ¬ Processes.Always longAndShort none 1 (Processes.Complete longAndShort)
      [.writer false, .reader, .reader] := by
  constructor
  · intro h
    rcases h _ _ List.prefix_rfl rfl (Or.inr (by decide)) with ht | ⟨second, hs⟩
    · exact ht ⟨.writer false, by decide⟩
    · revert hs
      cases second <;> decide
  · intro h
    rcases h _ _ List.prefix_rfl rfl (Or.inl (by decide)) with ht | ⟨second, hs⟩
    · exact ht ⟨.writer false, by decide⟩
    · revert hs
      cases second <;> decide

end
end W1Retap
