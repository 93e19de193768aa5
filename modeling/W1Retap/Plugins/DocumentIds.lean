import W1Retap.Plugins.Mongo

/-!
# The ids of the MongoDB documents

`w1_id_new` compares the time with `last`, where nothing is ever stored. So the sequence
number is 0 in every second but the first of the epoch, and two documents of one second
get the same id.
-/
namespace W1Retap.Mongo

open Calls

/-! ## Sequence numbers -/

/-- The sequence number that follows `seq`. -/
def nextSeq (seq : ℕ) (clock : Clock) : ℕ := if clock.now = 0 then (seq + 1) % 2 ^ 32 else 0

/-- The ids that are made at these times. -/
def oids : ℕ → List Clock → List Oid
  | _, [] => []
  | seq, clock :: clocks =>
    ⟨clock.sec, nextSeq seq clock⟩ :: oids (nextSeq seq clock) clocks

/-- The clock does not go back, neither within a call nor between two. -/
def Clock.Ordered (clocks : List Clock) : Prop :=
  (∀ c ∈ clocks, c.now ≤ c.sec) ∧ clocks.Pairwise fun a b => a.sec ≤ b.now

instance (clocks : List Clock) : Decidable (Clock.Ordered clocks) :=
  inferInstanceAs (Decidable
    ((∀ c ∈ clocks, c.now ≤ c.sec) ∧ clocks.Pairwise fun a b => a.sec ≤ b.now))

/-- Outside the first second of the epoch no two of the ids are made in one second. -/
def Clock.Apart (clocks : List Clock) : Prop :=
  clocks.Pairwise fun a b => a.now ≠ 0 → b.now ≠ 0 → a.sec ≠ b.sec

section
variable {seq : ℕ} {clock : Clock} {clocks : List Clock}

theorem Clock.Ordered.tail (h : Clock.Ordered (clock :: clocks)) : Clock.Ordered clocks :=
  ⟨fun c hc => h.1 c (List.mem_cons_of_mem _ hc), (List.pairwise_cons.mp h.2).2⟩

/-- The later times are not before this one. -/
theorem Clock.Ordered.le (h : Clock.Ordered (clock :: clocks)) {c : Clock} (hc : c ∈ clocks) :
    clock.now ≤ c.now :=
  (h.1 clock List.mem_cons_self).trans ((List.pairwise_cons.mp h.2).1 c hc)

theorem nextSeq_zero (h : clock.now ≠ 0) : nextSeq seq clock = 0 := if_neg h

theorem nextSeq_succ (h : clock.now = 0) (hs : seq + 1 < 2 ^ 32) :
    nextSeq seq clock = seq + 1 := by
  rw [nextSeq, if_pos h, Nat.mod_eq_of_lt hs]

theorem seq_eq_zero (h : ∀ c ∈ clocks, c.now ≠ 0) {id : Oid} (hid : id ∈ oids seq clocks) :
    id.seq = 0 := by
  induction clocks generalizing seq with
  | nil => cases hid
  | cons c clocks ih =>
    rcases List.mem_cons.mp hid with rfl | hid
    · exact nextSeq_zero (h c List.mem_cons_self)
    · exact ih (fun d hd => h d (List.mem_cons_of_mem c hd)) hid

/-- The sequence number 0 is given to every second but the first of the epoch. -/
theorem mem_oids_zero (hfew : seq + clocks.countP (·.now = 0) < 2 ^ 32) {sec : Int} :
    ⟨sec, 0⟩ ∈ oids seq clocks ↔ ∃ c ∈ clocks, c.now ≠ 0 ∧ sec = c.sec := by
  induction clocks generalizing seq with
  | nil => simp [oids]
  | cons c clocks ih =>
    rw [oids, List.mem_cons, List.exists_mem_cons_iff]
    by_cases hc : c.now = 0
    · rw [List.countP_cons_of_pos (by simpa using hc)] at hfew
      have hs : nextSeq seq c = seq + 1 := nextSeq_succ hc (by omega)
      rw [hs, ih (by omega)]
      simp [hc]
    · rw [List.countP_cons_of_neg (by simpa using hc)] at hfew
      rw [nextSeq_zero hc, ih (by omega)]
      simp [hc]

/-- Within the first second the sequence numbers grow. -/
theorem seq_of_mem_oids (hord : Clock.Ordered clocks) (hpos : ∀ c ∈ clocks, 0 ≤ c.now)
    (hfew : seq + clocks.countP (·.now = 0) < 2 ^ 32) {id : Oid} (hid : id ∈ oids seq clocks) :
    id.seq = 0 ∨ seq < id.seq := by
  induction clocks generalizing seq with
  | nil => cases hid
  | cons c clocks ih =>
    rcases List.mem_cons.mp hid with rfl | hid
    · by_cases hc : c.now = 0
      · rw [List.countP_cons_of_pos (by simpa using hc)] at hfew
        right
        simp only [nextSeq_succ hc (show seq + 1 < 2 ^ 32 by omega)]
        exact Nat.lt_succ_self seq
      · exact Or.inl (nextSeq_zero hc)
    · by_cases hc : c.now = 0
      · rw [List.countP_cons_of_pos (by simpa using hc)] at hfew
        have hs : nextSeq seq c = seq + 1 := nextSeq_succ hc (by omega)
        rw [hs] at hid
        rcases ih hord.tail (fun d hd => hpos d (List.mem_cons_of_mem c hd)) (by omega) hid with h | h
        · exact Or.inl h
        · exact Or.inr (by omega)
      · have hne : ∀ d ∈ clocks, d.now ≠ 0 := by
          intro d hd
          have h0 := hpos c List.mem_cons_self
          have hle := hord.le hd
          omega
        exact Or.inl (seq_eq_zero hne hid)

theorem seq_lt_of_mem_oids {n : ℕ} (hn : n ≤ 2 ^ 32) (hfew : seq + clocks.countP (·.now = 0) < n)
    {id : Oid} (hid : id ∈ oids seq clocks) : id.seq < n := by
  induction clocks generalizing seq with
  | nil => cases hid
  | cons c clocks ih =>
    have hhead : nextSeq seq c + clocks.countP (·.now = 0) < n := by
      by_cases hc : c.now = 0
      · rw [List.countP_cons_of_pos (by simpa using hc)] at hfew
        rw [nextSeq_succ hc (by omega)]
        omega
      · rw [List.countP_cons_of_neg (by simpa using hc)] at hfew
        rw [nextSeq_zero hc]
        omega
    rcases List.mem_cons.mp hid with rfl | hid
    · exact (Nat.le_add_right _ _).trans_lt hhead
    · exact ih hhead hid

theorem oids_nodup_iff (hord : Clock.Ordered clocks)
    (hfew : seq + clocks.countP (·.now = 0) < 2 ^ 32) :
    (oids seq clocks).Nodup ↔ Clock.Apart clocks := by
  induction clocks generalizing seq with
  | nil => simp [oids, Clock.Apart]
  | cons c clocks ih =>
    unfold Clock.Apart at ih ⊢
    rw [oids, List.nodup_cons, List.pairwise_cons]
    by_cases hc : c.now = 0
    · rw [List.countP_cons_of_pos (by simpa using hc)] at hfew
      have hs : nextSeq seq c = seq + 1 := nextSeq_succ hc (by omega)
      have hpos : ∀ d ∈ clocks, 0 ≤ d.now := fun d hd => hc ▸ hord.le hd
      have hnew : (⟨c.sec, seq + 1⟩ : Oid) ∉ oids (seq + 1) clocks := by
        intro hmem
        rcases seq_of_mem_oids hord.tail hpos (by omega) hmem with h | h
        · exact Nat.succ_ne_zero seq h
        · exact lt_irrefl _ h
      rw [hs, ih hord.tail (by omega)]
      exact ⟨fun h => ⟨fun d _ h0 => absurd hc h0, h.2⟩, fun h => ⟨hnew, h.2⟩⟩
    · rw [List.countP_cons_of_neg (by simpa using hc)] at hfew
      rw [nextSeq_zero hc, ih hord.tail (by omega)]
      rw [mem_oids_zero (by omega)]
      constructor
      · rintro ⟨hnew, hrest⟩
        exact ⟨fun d hd _ hd0 hsec => hnew ⟨d, hd, hd0, hsec⟩, hrest⟩
      · rintro ⟨hapart, hrest⟩
        refine ⟨?_, hrest⟩
        rintro ⟨d, hd, hd0, hsec⟩
        exact hapart d hd hc hd0 hsec

end

/-! ## The calls that make ids -/

/-- The clock of a call that makes an id: a pass over a connection, or a message. -/
def Call.idClock (s : Statics) : Call → Option Clock
  | .logger _ params false connects clock =>
    let s' := (openStatic s params connects).1
    if s.ended ∨ s'.ended ∨ s'.conn = none then none else some clock
  | .report _ (some _) clock => if s.ended then none else some clock
  | _ => none

def Op.oid : Op → Option Oid
  | .oidNew id => some id
  | _ => none

/-- The ids that `w1_id_new` returns in a run. -/
def madeIds (s : Statics) (cs : List Call) : List Oid := (outputs call s cs).filterMap Op.oid

/-- The clocks with which it is called. -/
def idClocks (s : Statics) (cs : List Call) : List Clock :=
  (turns call s cs).filterMap fun t => t.call.idClock t.before

/-- Opening makes no ids. -/
theorem openStatic_ids (s : Statics) (params : CString) (connects : Bool) :
    (openStatic s params connects).1.last = s.last ∧
      (openStatic s params connects).1.seq = s.seq ∧
      (openStatic s params connects).2.filterMap Op.oid = [] := by
  have hseeds : ∀ (conn : Option Conn) (seeds : List Hport),
      (seeds.map (Op.seedAdd conn)).filterMap Op.oid = [] := by
    intro conn seeds
    rw [List.filterMap_eq_nil_iff]
    rintro op hop
    obtain ⟨hport, -, rfl⟩ := List.mem_map.mp hop
    rfl
  unfold openStatic
  by_cases hc : s.conn = none
  · rw [if_pos hc]
    simp only [w1Opendb, mongoParams]
    rcases ((assignments params).foldl Params.assign {}).rset with _ | ⟨setname, _ | ⟨hport, seeds⟩⟩
    · exact ⟨rfl, rfl, rfl⟩
    · refine ⟨rfl, rfl, ?_⟩
      cases s.mkid <;> rfl
    · cases connects with
      | true =>
        refine ⟨rfl, rfl, ?_⟩
        cases setname <;> cases s.mkid <;>
          simp only [oidInit, List.filterMap_append, List.filterMap_cons, Op.oid, hseeds,
            List.filterMap_nil, List.append_nil, Option.isSome, if_true, if_false,
            Bool.false_eq_true]
      | false =>
        refine ⟨rfl, rfl, ?_⟩
        cases setname <;>
          simp only [List.filterMap_append, List.filterMap_cons, Op.oid, hseeds,
            List.filterMap_nil, List.append_nil, Option.isSome, if_true, if_false,
            Bool.false_eq_true]
  · rw [if_neg hc]
    exact ⟨rfl, rfl, rfl⟩

/-- The ids of one call, and what it leaves in the static variables. -/
def Makes (s : Statics) (c : Call) : Prop :=
  (call s c).1.last = 0 ∧
    match c.idClock s with
    | some clock => (call s c).1.seq = nextSeq s.seq clock ∧
        (call s c).2.filterMap Op.oid = [⟨clock.sec, nextSeq s.seq clock⟩]
    | none => (call s c).1.seq = s.seq ∧ (call s c).2.filterMap Op.oid = []

theorem w1IdNew_ids {s : Statics} (h : s.last = 0) (clock : Clock) :
    (w1IdNew s clock).1.last = 0 ∧ (w1IdNew s clock).1.seq = nextSeq s.seq clock ∧
      (w1IdNew s clock).2 = ⟨clock.sec, nextSeq s.seq clock⟩ := by
  simp [w1IdNew, nextSeq, h]

theorem logReadings_ids {s : Statics} (h : s.last = 0) (w1 : DevList) (clock : Clock) :
    (logReadings s w1 clock).1.last = 0 ∧ (logReadings s w1 clock).1.seq = nextSeq s.seq clock ∧
      (logReadings s w1 clock).2.filterMap Op.oid = [⟨clock.sec, nextSeq s.seq clock⟩] := by
  obtain ⟨hlast, hseq, hid⟩ := w1IdNew_ids h clock
  refine ⟨hlast, hseq, ?_⟩
  by_cases hl : w1.logged ≠ []
  · simp [logReadings, hl, Op.oid, hid]
  · simp [logReadings, hl, Op.oid, hid]

theorem makes_call {s : Statics} (h : s.last = 0) (c : Call) : Makes s c := by
  cases hrun : s.ended with
  | true =>
    have hcall : call s c = (s, []) := by simp [call, hrun]
    have hclock : c.idClock s = none := by
      unfold Call.idClock
      split <;> simp [hrun]
    rw [Makes, hcall, hclock]
    exact ⟨h, rfl, rfl⟩
  | false =>
    cases c with
    | init params connects =>
      obtain ⟨hlast, hseq, hids⟩ := openStatic_ids s params connects
      have hcall : call s (.init params connects) = w1Init s params connects := by simp [call, dispatch, hrun]
      rw [Makes, hcall]
      simp only [w1Init, Call.idClock]
      set r := openStatic s params connects
      by_cases he : r.1.ended = true
      · rw [if_pos he]
        exact ⟨hlast.trans h, hseq, hids⟩
      · rw [if_neg he]
        cases r.1.conn with
        | none => exact ⟨hlast.trans h, hseq, by simp [hids, Op.oid]⟩
        | some conn => exact ⟨hlast.trans h, hseq, by simp [hids, Op.oid]⟩
    | logger w1 params locked connects clock =>
      obtain ⟨hlast, hseq, hids⟩ := openStatic_ids s params connects
      have hcall : call s (.logger w1 params locked connects clock) =
          w1Logger s w1 params locked connects clock := by simp [call, dispatch, hrun]
      rw [Makes, hcall]
      cases locked with
      | true => exact ⟨h, rfl, rfl⟩
      | false =>
        simp only [w1Logger, Call.idClock, Bool.false_eq_true, if_false, hrun, false_or]
        set r := openStatic s params connects
        by_cases he : r.1.ended = true
        · rw [if_pos he, if_pos (Or.inl he)]
          exact ⟨hlast.trans h, hseq, hids⟩
        · by_cases hc : r.1.conn = none
          · rw [if_neg he, if_pos hc, if_pos (Or.inr hc)]
            exact ⟨hlast.trans h, hseq, by simp [hids, Op.oid]⟩
          · rw [if_neg he, if_neg hc, if_neg (not_or.mpr ⟨he, hc⟩)]
            obtain ⟨hlast', hseq', hids'⟩ := logReadings_ids (hlast.trans h) w1 clock
            rw [hseq] at hseq' hids'
            exact ⟨hlast', hseq', by rw [List.filterMap_append, hids, hids', List.nil_append]⟩
    | report params lastmsg clock =>
      have hcall : call s (.report params lastmsg clock) = w1Report s lastmsg clock := by
        simp [call, dispatch, hrun]
      rw [Makes, hcall]
      cases lastmsg with
      | none => exact ⟨h, rfl, rfl⟩
      | some msg =>
        obtain ⟨hlast, hseq, hid⟩ := w1IdNew_ids h clock
        simp only [Call.idClock, hrun, Bool.false_eq_true, if_false, w1Report]
        exact ⟨hlast, hseq, by simp [Op.oid, hid]⟩
    | cleanup =>
      have hcall : call s .cleanup = w1Cleanup s := by simp [call, dispatch, hrun]
      rw [Makes, hcall]
      exact ⟨h, rfl, rfl⟩

theorem madeIds_eq {s : Statics} (h : s.last = 0) (cs : List Call) :
    madeIds s cs = oids s.seq (idClocks s cs) := by
  unfold madeIds idClocks
  induction cs generalizing s with
  | nil => rfl
  | cons c cs ih =>
    obtain ⟨hlast, hmakes⟩ := makes_call h c
    rw [outputs_cons, List.filterMap_append, ih hlast, turns_cons, List.filterMap_cons]
    cases hc : c.idClock s with
    | none =>
      rw [hc] at hmakes
      rw [hmakes.1, hmakes.2]
      simp
    | some clock =>
      rw [hc] at hmakes
      rw [hmakes.1, hmakes.2]
      simp [oids]

/-- The ids of a run are pairwise distinct exactly when, outside the first second of the
epoch, no two of them are made in one second. -/
theorem ids_distinct_iff {ι : Type} (oid : Int → ℕ → ι)
    (hoid : ∀ {sec seq sec' seq'}, seq < 2 ^ 24 → seq' < 2 ^ 24 → oid sec seq = oid sec' seq' →
      sec = sec' ∧ seq = seq')
    (cs : List Call) (hclock : Clock.Ordered (idClocks {} cs))
    (hfew : ∀ sec, (idClocks {} cs).countP (·.now = sec) < 2 ^ 24) :
    ((madeIds {} cs).map fun id => oid id.sec id.seq).Nodup ↔ Clock.Apart (idClocks {} cs) := by
  have hlt : ∀ id ∈ madeIds {} cs, id.seq < 2 ^ 24 := by
    intro id hid
    rw [madeIds_eq rfl] at hid
    exact seq_lt_of_mem_oids (by norm_num) ((Nat.zero_add _).trans_lt (hfew 0)) hid
  have hinj : ∀ id ∈ madeIds {} cs, ∀ id' ∈ madeIds {} cs,
      oid id.sec id.seq = oid id'.sec id'.seq → id = id' := by
    intro id hid id' hid' heq
    obtain ⟨hsec, hseq⟩ := hoid (hlt id hid) (hlt id' hid') heq
    exact Oid.ext hsec hseq
  have hseq : (0 : ℕ) + (idClocks {} cs).countP (·.now = 0) < 2 ^ 32 := by
    have hfew0 := hfew 0
    omega
  calc ((madeIds {} cs).map fun id => oid id.sec id.seq).Nodup
      ↔ (madeIds {} cs).Nodup := ⟨List.Nodup.of_map _, List.Nodup.map_on hinj⟩
    _ ↔ (oids 0 (idClocks {} cs)).Nodup := by rw [madeIds_eq rfl]
    _ ↔ Clock.Apart (idClocks {} cs) := oids_nodup_iff hclock hseq

/-- One reading, and two messages of which the second may come in the same second. -/
def twoMessages (sec : Int) : List Call :=
  [.init "host=localhost".toList true,
    .logger (readingsOf ["GHT".toList]) "host=localhost".toList false true ⟨1340000000, 1340000000⟩,
    .report "host=localhost".toList (some "GHT rate limit".toList) ⟨1340000001, 1340000001⟩,
    .report "host=localhost".toList (some "GHT retry".toList) ⟨sec, sec⟩]

theorem ids_distinct_iff_seconds :
    ((madeIds {} (twoMessages 1340000002)).map fun id => (id.sec, id.seq)).Nodup ↔
      Clock.Apart (idClocks {} (twoMessages 1340000002)) := by
  apply ids_distinct_iff Prod.mk
  · intro sec seq sec' seq' _ _ heq
    exact Prod.mk.inj heq
  · decide +kernel
  · intro sec
    exact List.countP_le_length.trans_lt (by decide +kernel)

/-- Two messages of the same second. -/
theorem ids_distinct_retry :
    Clock.Ordered (idClocks {} (twoMessages 1340000001)) ∧
      ¬ ((madeIds {} (twoMessages 1340000001)).map fun id => (id.sec, id.seq)).Nodup := by
  decide +kernel

end W1Retap.Mongo
