import W1Retap.Bus.Ds1921
import W1Retap.Support.Triples

/-!
# Fresh conversions and endless polling

The result of sending the convert command and of the polling are both lost: a call that
fails on the way to the command, or whose polling ends with a failed read, still goes on to
read a temperature. So a call that reports one has converted it exactly when nothing on the
bus has failed. And the polling has no end of its own: it goes on for as long as the device
says that it is busy.
-/
namespace W1Retap.Bus.Ds1921

open Programs

/-! ## What the parts do on the bus -/

/-- A byte is asked for, and delivered or not. -/
inductive ReadBlock (offset : ℕ) : Option UInt8 → List Exchange → Prop
  | noAccess : ReadBlock offset none [.access false]
  | noAnswer : ReadBlock offset none [.block (readCommand offset).toList none, .access true]
  | answer (block : Vector UInt8 4) : ReadBlock offset (some (data block))
      [.block (readCommand offset).toList (some block.toList), .access true]

/-- Without a mission, the convert command is sent if the device can be accessed. -/
inductive Converts : Bool → List Exchange → Prop
  | noAccess : Converts true [.access false]
  | sent (answer : UInt8) : Converts (decide (answer ≠ 0)) [.touch 0x44 answer, .access true]

/-- The device is asked for its status until a read fails or it is ready. -/
inductive Polls : Bool → List Exchange → Prop
  | failed {new : List Exchange} : ReadBlock statusOffset none new → Polls false new
  | ready {status : UInt8} {new : List Exchange} : ReadBlock statusOffset (some status) new →
      status &&& bitReady ≠ 0 → Polls true new
  | busy {status : UInt8} {o : Bool} {new rest : List Exchange} :
      ReadBlock statusOffset (some status) new → status &&& bitReady = 0 → Polls o rest →
      Polls o (rest ++ .delay 1 :: new)

/-- What a call does that reports `temp`, in this order. -/
structure Reports (serno : Serno) (temp : ℚ) (new : List Exchange) : Prop where
  parts : ∃ status raw o first prepared polled final,
    ReadBlock statusOffset (some status) first ∧ (status &&& bitMip = 0 → Converts true prepared) ∧
    Polls o polled ∧ ReadBlock tempOffset (some raw) final ∧ temp = temperature serno raw ∧
    new = final ++ polled ++ prepared ++ first ++ [.select serno]

section
variable {wire : Wire}

theorem adds_readblock (offset : ℕ) : Adds (readblock wire offset) (ReadBlock offset) := by
  refine .bind (.ask (Q := fun ok new => new = [.access ok]) fun _ => rfl) fun ok new hnew => ?_
  subst hnew
  cases ok with
  | false => exact .pure .noAccess
  | true =>
    refine .bind (.ask (Q := fun answer new =>
      new = [.block (readCommand offset).toList (answer.map (·.toList))]) fun _ => rfl) fun a new hnew => ?_
    subst hnew
    cases a with
    | none => exact .pure .noAnswer
    | some block => exact .pure (.answer block)

theorem adds_asked {α : Type} (answer : List Exchange → α) (e : α → Exchange) :
    Adds (ask answer e) fun _ _ => True :=
  .ask fun _ => trivial

theorem adds_writeMemory {ln : ℕ} (buf : Vector UInt8 ln) (adr : ℕ) :
    Adds (writeMemory wire buf adr) fun _ _ => True := by
  have hscratch : Adds (writeScratch wire buf adr) fun _ _ => True := by
    refine .bind (adds_asked _ _) fun ok _ _ => .ite (fun _ => ?_) fun _ => .pure trivial
    refine .bind (adds_asked _ _) fun answer _ _ => ?_
    cases answer with
    | none => exact .pure trivial
    | some _ =>
      refine .bind (adds_asked _ _) fun ok _ _ => .ite (fun _ => ?_) fun _ => .pure trivial
      refine .bind (adds_asked _ _) fun answer _ _ => ?_
      cases answer <;> exact .pure trivial
  refine .bind hscratch fun written _ _ => .ite (fun _ => ?_) fun _ => .pure trivial
  refine .bind (adds_asked _ _) fun ok _ _ => .ite (fun _ => ?_) fun _ => .pure trivial
  refine .bind (adds_asked _ _) fun answer _ _ => ?_
  cases answer <;> exact .pure trivial

theorem adds_prepare {status : UInt8} (kill : Bool) :
    Adds (prepare wire kill status) fun ret new => status &&& bitMip = 0 → Converts ret new := by
  by_cases hmip : status &&& bitMip = 0
  · rw [prepare, if_neg (not_not.mpr hmip)]
    refine .bind (.ask (Q := fun ok new => new = [.access ok]) fun _ => rfl) fun ok new hnew => ?_
    subst hnew
    cases ok with
    | false => exact .pure fun _ => .noAccess
    | true =>
      refine .bind (.ask (Q := fun answer new => new = [.touch 0x44 answer]) fun _ => rfl)
        fun answer new hnew => ?_
      subst hnew
      exact .pure fun _ => .sent answer
  · rw [prepare, if_pos hmip]
    refine .ite (fun _ => ?_) fun _ => .pure fun h => absurd h hmip
    exact (adds_writeMemory _ _).conseq fun _ _ _ h => absurd h hmip

theorem adds_poll (rounds : ℕ) : Adds (poll wire rounds) Polls := by
  induction rounds with
  | zero => exact .throw
  | succ rounds ih =>
    refine .bind (adds_readblock statusOffset) fun a new hnew => ?_
    cases a with
    | none => exact .pure (.failed hnew)
    | some status =>
      refine .ite (fun hready => .pure (.ready hnew hready)) fun hbusy => ?_
      refine .bind (.ask (Q := fun _ new => new = [.delay 1]) fun _ => rfl) fun _ new' hnew' => ?_
      subst hnew'
      refine ih.conseq fun o rest hrest => ?_
      have h := Polls.busy hnew (not_not.mp hbusy) hrest
      simpa using h

/-- A call that returns non-zero has gone through all the parts. -/
theorem adds_readDs1921 (rounds : ℕ) (serno : Serno) (kill : Bool) :
    Adds (readDs1921 wire rounds serno kill) fun r new => r.1 = true → Reports serno r.2 new := by
  refine .bind (.ask (Q := fun _ new => new = [.select serno]) fun _ => rfl) fun _ sel hsel => ?_
  subst hsel
  refine .bind (adds_readblock statusOffset) fun a first hfirst => ?_
  cases a with
  | none => exact .pure fun h => nomatch h
  | some status =>
    refine .bind (adds_prepare kill) fun ret prepared hprepared => .ite (fun hret => ?_) fun _ => .pure fun h => nomatch h
    subst hret
    refine .bind (adds_poll rounds) fun o polled hpolled => ?_
    refine .bind (adds_readblock tempOffset) fun a final hfinal => ?_
    cases a with
    | none => exact .pure fun h => nomatch h
    | some raw =>
      refine .pure fun _ => ⟨status, raw, o, first, prepared, polled, final, hfirst, hprepared, hpolled,
        hfinal, rfl, ?_⟩
      simp

/-! ## Fresh conversions -/

/-- No mission is in progress when the call begins. -/
def NoMission (serno : Serno) (new : List Exchange) : Prop :=
  ∀ block : Vector UInt8 4, [.block (readCommand statusOffset).toList (some block.toList),
    .access true, .select serno] <:+ new → data block &&& bitMip = 0

/-- No other device is selected, and no other command is sent. -/
def waits : Exchange → Bool
  | .touch .. | .select _ => false
  | _ => true

/-- The command to convert went to the device, the status was read afterwards and said that it
is ready, and the temperature is that of a byte read after that. -/
def Fresh (serno : Serno) (temp : ℚ) (new : List Exchange) : Prop :=
  ∃ (raw status : Vector UInt8 4) (answer : UInt8) (before between after : List Exchange),
    new = .block (readCommand tempOffset).toList (some raw.toList) :: after ++
      .block (readCommand statusOffset).toList (some status.toList) :: between ++
      .touch 0x44 answer :: .access true :: before ++ [.select serno] ∧
    (∀ e ∈ after ++ between ++ before, waits e = true) ∧
    data status &&& bitReady ≠ 0 ∧ temp = temperature serno (data raw)

theorem ReadBlock.ok {offset : ℕ} {v : UInt8} {new : List Exchange}
    (h : ReadBlock offset (some v) new) : ∀ e ∈ new, e.ok = true := by
  cases h with
  | answer block => simp [Exchange.ok]

theorem ReadBlock.not_ok {offset : ℕ} {new : List Exchange} (h : ReadBlock offset none new) :
    ∃ e ∈ new, e.ok = false := by
  cases h with
  | noAccess => exact ⟨_, List.mem_singleton.mpr rfl, rfl⟩
  | noAnswer => exact ⟨_, List.mem_cons_self, rfl⟩

theorem ReadBlock.waits {offset : ℕ} {a : Option UInt8} {new : List Exchange}
    (h : ReadBlock offset a new) : ∀ e ∈ new, waits e = true := by
  cases h <;> simp [Ds1921.waits]

theorem Polls.waits {o : Bool} {new : List Exchange} (h : Polls o new) :
    ∀ e ∈ new, waits e = true := by
  induction h with
  | failed hread => exact hread.waits
  | ready hread _ => exact hread.waits
  | busy hread _ _ ih =>
    rintro e he
    rcases List.mem_append.mp he with he | he
    · exact ih e he
    · rcases List.mem_cons.mp he with rfl | he
      · rfl
      · exact hread.waits e he

/-- A poll in which nothing fails ends with the device ready. -/
theorem Polls.ready_of_ok {o : Bool} {new : List Exchange} (h : Polls o new)
    (hok : ∀ e ∈ new, e.ok = true) : ∃ (status : Vector UInt8 4) (rest : List Exchange),
      new = .block (readCommand statusOffset).toList (some status.toList) :: rest ∧
        data status &&& bitReady ≠ 0 := by
  induction h with
  | failed hread =>
    obtain ⟨e, he, hnot⟩ := hread.not_ok
    exact nomatch hnot.symm.trans (hok e he)
  | ready hread hready =>
    cases hread with
    | answer block => exact ⟨block, _, rfl, hready⟩
  | busy _ _ _ ih =>
    obtain ⟨status, rest, rfl, hready⟩ := ih fun e he => hok e (List.mem_append_left _ he)
    exact ⟨status, _, List.cons_append .., hready⟩

/-- A poll in which something fails has never seen the device ready. -/
theorem Polls.ok_of_ready {o : Bool} {new : List Exchange} (h : Polls o new)
    {status : Vector UInt8 4} (hready : data status &&& bitReady ≠ 0)
    (hmem : .block (readCommand statusOffset).toList (some status.toList) ∈ new) :
    ∀ e ∈ new, e.ok = true := by
  induction h with
  | failed hread => cases hread <;> simp at hmem
  | ready hread _ => exact hread.ok
  | busy hread hbusy _ ih =>
    have hnot : ∀ {v : UInt8} {first : List Exchange}, ReadBlock statusOffset (some v) first →
        .block (readCommand statusOffset).toList (some status.toList) ∈ first → v = data status := by
      intro v first hread hmem
      cases hread with
      | answer block =>
        have heq : status.toList = block.toList := by simpa using hmem
        rw [Vector.toList_inj.mp heq]
    rintro e he
    rcases List.mem_append.mp hmem with hmem | hmem
    · rcases List.mem_append.mp he with he | he
      · exact ih hmem e he
      · rcases List.mem_cons.mp he with rfl | he
        · rfl
        · exact hread.ok e he
    · have hfirst := hnot hread (by simpa using hmem)
      rw [hfirst] at hbusy
      exact absurd hbusy hready

/-- Two lists that wait up to an exchange that does not. -/
theorem waits_inj {a b c d : List Exchange} {e f : Exchange}
    (ha : ∀ x ∈ a, waits x = true) (hc : ∀ x ∈ c, waits x = true) (he : waits e = false) (hf : waits f = false)
    (h : a ++ e :: b = c ++ f :: d) : a = c := by
  have htake : ∀ (l m : List Exchange) (x : Exchange), (∀ y ∈ l, waits y = true) →
      waits x = false → (l ++ x :: m).takeWhile waits = l := by
    intro l m x hl hx
    rw [List.takeWhile_append_of_pos hl, List.takeWhile_cons_of_neg (by simp [hx]), List.append_nil]
  rw [← htake a b e ha he, h, htake c d f hc hf]

/-- The first status read of a call that reports has found no mission. -/
theorem NoMission.status {serno : Serno} {status : UInt8} {first l : List Exchange}
    (hfirst : ReadBlock statusOffset (some status) first)
    (h : NoMission serno (l ++ first ++ [.select serno])) : status &&& bitMip = 0 := by
  cases hfirst with
  | answer block =>
    apply h block
    exact ⟨l, by simp⟩

theorem Converts.cases {ret : Bool} {new : List Exchange} (h : Converts ret new) :
    new = [.access false] ∨ ∃ answer, new = [.touch 0x44 answer, .access true] := by
  cases h with
  | noAccess => exact Or.inl rfl
  | sent answer => exact Or.inr ⟨answer, rfl⟩

/-- A call without a failure is fresh. -/
theorem Reports.fresh {serno : Serno} {temp : ℚ} {new : List Exchange} (h : Reports serno temp new)
    (hmission : NoMission serno new) (hok : ∀ e ∈ new, e.ok = true) : Fresh serno temp new := by
  obtain ⟨status, raw, o, first, prepared, polled, final, hfirst, hprepared, hpolled, hfinal, rfl, rfl⟩ :=
    h.parts
  have hconvert := hprepared (hmission.status hfirst)
  obtain ⟨block, rest, rfl, hready⟩ := hpolled.ready_of_ok fun e he => hok e (by simp [he])
  have hwaits := hpolled.waits
  cases hfinal with
  | answer raw =>
    rcases hconvert.cases with rfl | ⟨answer, rfl⟩
    · have hfailed := hok (.access false) (by simp)
      exact nomatch hfailed
    · refine ⟨raw, block, answer, first, rest, [.access true], by simp, ?_, hready, rfl⟩
      intro e he
      simp only [List.mem_append, List.mem_singleton] at he
      rcases he with (rfl | he) | he
      · rfl
      · exact hwaits e (List.mem_cons_of_mem _ he)
      · exact hfirst.waits e he

/-- A fresh call had no failure. -/
theorem Fresh.ok {serno : Serno} {temp : ℚ} {new : List Exchange} (h : Fresh serno temp new)
    (hreports : Reports serno temp new) (hmission : NoMission serno new) :
    ∀ e ∈ new, e.ok = true := by
  obtain ⟨status, raw, o, first, prepared, polled, final, hfirst, hprepared, hpolled, hfinal, rfl, rfl⟩ :=
    hreports.parts
  have hconvert := hprepared (hmission.status hfirst)
  obtain ⟨raw', block, answer, before, between, after, heq, hwaits, hready, -⟩ := h
  rcases hconvert.cases with rfl | ⟨answer', rfl⟩
  · have hmem : Exchange.touch 0x44 answer ∈
        final ++ polled ++ [.access false] ++ first ++ [.select serno] := by rw [heq]; simp
    simp only [List.mem_append, List.mem_singleton] at hmem
    rcases hmem with (((hmem | hmem) | hmem) | hmem) | hmem
    · exact nomatch hfinal.waits _ hmem
    · exact nomatch hpolled.waits _ hmem
    · exact nomatch hmem
    · exact nomatch hfirst.waits _ hmem
    · exact nomatch hmem
  · have hfront : final ++ polled = .block (readCommand tempOffset).toList (some raw'.toList) :: after ++
        .block (readCommand statusOffset).toList (some block.toList) :: between := by
      refine waits_inj (e := .touch 0x44 answer') (f := .touch 0x44 answer)
        (b := .access true :: first ++ [.select serno]) (d := .access true :: before ++ [.select serno])
        ?_ ?_ rfl rfl (by simpa using heq)
      · intro e he
        rcases List.mem_append.mp he with he | he
        · exact hfinal.waits e he
        · exact hpolled.waits e he
      · intro e he
        simp only [List.mem_append, List.mem_cons] at he hwaits
        rcases he with (rfl | he) | rfl | he
        · rfl
        · exact hwaits e (Or.inl (Or.inl he))
        · rfl
        · exact hwaits e (Or.inl (Or.inr he))
    have hmem : .block (readCommand statusOffset).toList (some block.toList) ∈ polled := by
      have hin : .block (readCommand statusOffset).toList (some block.toList) ∈ final ++ polled := by
        rw [hfront]
        simp
      refine (List.mem_append.mp hin).resolve_left fun hin => ?_
      cases hfinal with
      | answer raw'' =>
        have hsent : (readCommand statusOffset).toList = (readCommand tempOffset).toList := by
          have h := List.mem_cons.mp hin
          simp only [List.mem_singleton, reduceCtorEq, or_false, Exchange.block.injEq] at h
          exact h.1
        exact absurd hsent (by decide)
    have hpolledOk := hpolled.ok_of_ready hready hmem
    intro e he
    simp only [List.mem_append, List.mem_cons, List.not_mem_nil, or_false] at he
    rcases he with (((he | he) | rfl | rfl) | he) | rfl
    · exact hfinal.ok e he
    · exact hpolledOk e he
    · rfl
    · rfl
    · exact hfirst.ok e he
    · rfl

end

/-- A call that returns non-zero without a mission reports a fresh conversion exactly when
no access and no transfer in it has failed. -/
theorem readDs1921_fresh_iff (wire : Wire) (rounds : ℕ) (serno : Serno) (kill : Bool)
    (h new : List Exchange) (temp : ℚ)
    (hrun : (readDs1921 wire rounds serno kill).run h = .ok ((true, temp), new ++ h))
    (hmission : NoMission serno new) : Fresh serno temp new ↔ ∀ e ∈ new, e.ok = true := by
  obtain ⟨new', heq, hreports⟩ := adds_readDs1921 rounds serno kill h (true, temp) _ hrun
  obtain rfl := List.append_cancel_right heq
  exact ⟨fun hfresh => hfresh.ok (hreports rfl) hmission, fun hok => (hreports rfl).fresh hmission hok⟩

/-- A device at 24 degrees that is always ready, on a bus where the access number `failing`
fails. -/
def readyWire (failing : ℕ) : Wire where
  owTouchReset := fun _ => true
  owAccess := fun h => h.length ≠ failing
  owTouchByte := fun _ sent => sent
  owBlock := fun _ block => some (block.map fun b => if b = 0xFF then 0x80 else b)

def loggerSerno : Serno := #v[0x21, 0xF8, 0x19, 0x01, 0x00, 0x00, 0x00, 0xC7]

/-- The exchange of a status read that finds the device ready. -/
def readyStatus : Exchange :=
  .block (readCommand statusOffset).toList (some [0xF0, 0x14, 0x02, 0x80])

/-- What happens where the access number 3 fails or does not. -/
def readyCall (converted : Bool) : List Exchange :=
  [.block (readCommand tempOffset).toList (some [0xF0, 0x11, 0x02, 0x80]), .access true,
    readyStatus, .access true] ++
    (if converted then [.touch 0x44 0x44, .access true] else [.access false]) ++
    [readyStatus, .access true, .select loggerSerno]

theorem noMission_readyCall (converted : Bool) : NoMission loggerSerno (readyCall converted) := by
  intro block hsuffix
  have hlast : readyStatus = .block (readCommand statusOffset).toList (some block.toList) := by
    have hcall : [readyStatus, .access true, .select loggerSerno] <:+ readyCall converted := ⟨_, rfl⟩
    have h := List.IsSuffix.eq_of_length
      (List.suffix_of_suffix_length_le hsuffix hcall (by simp)) (by simp)
    exact (List.cons.inj h).1.symm
  have hblock : [0xF0, 0x14, 0x02, 0x80] = block.toList := by
    simpa [readyStatus] using hlast
  have hget : block = #v[0xF0, 0x14, 0x02, 0x80] := Vector.toList_inj.mp hblock.symm
  rw [hget]
  decide

/-- The call without a failure is fresh. -/
theorem readDs1921_fresh_ready :
    (readDs1921 (readyWire 0) 1 loggerSerno false).run [] = .ok ((true, 24), readyCall true ++ []) ∧
      Fresh loggerSerno 24 (readyCall true) := by
  have hrun : (readDs1921 (readyWire 0) 1 loggerSerno false).run [] =
      .ok ((true, 24), readyCall true ++ []) := by decide +kernel
  refine ⟨hrun, (readDs1921_fresh_iff _ _ _ _ _ _ _ hrun (noMission_readyCall true)).mpr ?_⟩
  decide

/-- Without access for the convert command the call reports 24 degrees nevertheless. -/
theorem readDs1921_stale :
    (readDs1921 (readyWire 3) 1 loggerSerno false).run [] = .ok ((true, 24), readyCall false ++ []) ∧
      NoMission loggerSerno (readyCall false) ∧ ¬ Fresh loggerSerno 24 (readyCall false) := by
  refine ⟨by decide +kernel, noMission_readyCall false, ?_⟩
  rintro ⟨raw, status, answer, before, between, after, heq, -⟩
  have hmem : Exchange.touch 0x44 answer ∈ readyCall false := by
    rw [heq]
    simp
  simp [readyCall, readyStatus] at hmem

/-! ## Endless polling -/

section
variable (wire : Wire)

/-- The status is read, and the device is not ready. -/
def StillBusy (h : List Exchange) : Prop :=
  ∃ status h', (readblock wire statusOffset).run h = .ok (some status, h') ∧ status &&& bitReady = 0

/-- What has happened after one more round. -/
def nextRound (h : List Exchange) : List Exchange :=
  match (readblock wire statusOffset).run h with
  | .ok (_, h') => .delay 1 :: h'
  | .error _ => h

/-- One of the status reads from here on fails or finds the device ready. -/
def Settles (h : List Exchange) : Prop := ∃ k, ¬ StillBusy wire ((nextRound wire)^[k] h)

/-- `ReadDS1921` up to the polling; the value says whether it comes to that. -/
def beforePoll (serno : Serno) (kill : Bool) : Talk Bool := do
  owSerialNum serno
  match ← readblock wire statusOffset with
  | none => return false
  | some status => prepare wire kill status

/-- From a number of rounds on the call ends, and the same way with more of them. -/
def Returns (serno : Serno) (kill : Bool) (h : List Exchange) : Prop :=
  ∃ enough r, ∀ rounds ≥ enough, (readDs1921 wire rounds serno kill).run h = .ok r

variable {wire}

theorem completes_ask {α : Type} (answer : List Exchange → α) (e : α → Exchange) :
    Completes (fun _ => True) (ask answer e) fun _ _ => True :=
  fun _ _ => ⟨_, _, run_ask answer e, trivial⟩

theorem completes_readblock (offset : ℕ) :
    Completes (fun _ => True) (readblock wire offset) fun _ _ => True := by
  refine .bind (completes_ask _ _) fun ok => .ite (fun _ => ?_) fun _ => .pure fun _ _ => trivial
  exact .bind (completes_ask _ _) fun _ => .pure fun _ _ => trivial

theorem completes_writeMemory {ln : ℕ} (buf : Vector UInt8 ln) (adr : ℕ) :
    Completes (fun _ => True) (writeMemory wire buf adr) fun _ _ => True := by
  have hscratch : Completes (fun _ => True) (writeScratch wire buf adr) fun _ _ => True := by
    refine .bind (completes_ask _ _) fun ok => .ite (fun _ => ?_) fun _ => .pure fun _ _ => trivial
    refine .bind (completes_ask _ _) fun answer => ?_
    cases answer with
    | none => exact .pure fun _ _ => trivial
    | some _ =>
      refine .bind (completes_ask _ _) fun ok => .ite (fun _ => ?_) fun _ => .pure fun _ _ => trivial
      refine .bind (completes_ask _ _) fun answer => ?_
      cases answer <;> exact .pure fun _ _ => trivial
  refine .bind hscratch fun written => .ite (fun _ => ?_) fun _ => .pure fun _ _ => trivial
  refine .bind (completes_ask _ _) fun ok => .ite (fun _ => ?_) fun _ => .pure fun _ _ => trivial
  refine .bind (completes_ask _ _) fun answer => ?_
  cases answer <;> exact .pure fun _ _ => trivial

theorem completes_prepare (kill : Bool) (status : UInt8) :
    Completes (fun _ => True) (prepare wire kill status) fun _ _ => True := by
  apply Completes.ite
  · intro _
    apply Completes.ite
    · intro _
      exact completes_writeMemory _ _
    · intro _
      exact .pure fun _ _ => trivial
  · intro _
    refine .bind (completes_ask _ _) fun ok => .ite (fun _ => ?_) fun _ => .pure fun _ _ => trivial
    exact .bind (completes_ask _ _) fun _ => .pure fun _ _ => trivial

theorem completes_beforePoll (serno : Serno) (kill : Bool) :
    Completes (fun _ => True) (beforePoll wire serno kill) fun _ _ => True := by
  refine .bind (completes_ask _ _) fun _ => .bind (completes_readblock _) fun a => ?_
  cases a with
  | none => exact .pure fun _ _ => trivial
  | some status => exact completes_prepare kill status

/-- What is left to do once it has come to the polling. -/
def afterPoll (wire : Wire) (serno : Serno) : Talk (Bool × ℚ) := do
  match ← readblock wire tempOffset with
  | some raw => return (true, temperature serno raw)
  | none => return (false, -42)

theorem completes_afterPoll (serno : Serno) :
    Completes (fun _ => True) (afterPoll wire serno) fun _ _ => True := by
  refine .bind (completes_readblock _) fun a => ?_
  cases a <;> exact .pure fun _ _ => trivial

theorem readDs1921_eq (rounds : ℕ) (serno : Serno) (kill : Bool) :
    readDs1921 wire rounds serno kill = beforePoll wire serno kill >>= fun polls =>
      if polls then poll wire rounds >>= fun _ => afterPoll wire serno else pure (false, -42) := by
  rw [readDs1921, beforePoll, bind_assoc]
  refine bind_congr fun _ => ?_
  rw [bind_assoc]
  refine bind_congr fun a => ?_
  cases a with
  | none => rw [pure_bind, if_neg (by decide)]
  | some status => rfl

theorem poll_busy {h : List Exchange} (hbusy : StillBusy wire h) (rounds : ℕ) :
    (poll wire (rounds + 1)).run h = (poll wire rounds).run (nextRound wire h) := by
  obtain ⟨status, h', hread, hnot⟩ := hbusy
  rw [poll, run_bind_of_ok hread, nextRound, hread]
  dsimp only
  rw [if_neg (not_not.mpr hnot)]
  rfl

/-- Where the device is not found busy the loop is left, whatever rounds are left. -/
theorem poll_done {h : List Exchange} (hdone : ¬ StillBusy wire h) :
    ∃ r, ∀ rounds, (poll wire (rounds + 1)).run h = .ok r := by
  have hcompletes : Completes (fun _ => True) (readblock wire statusOffset) fun _ _ => True := completes_readblock statusOffset
  obtain ⟨a, h', hread, -⟩ := hcompletes h trivial
  cases a with
  | none =>
    refine ⟨(false, h'), fun rounds => ?_⟩
    rw [poll, run_bind_of_ok hread]
    rfl
  | some status =>
    have hready : status &&& bitReady ≠ 0 := fun hzero => hdone ⟨status, h', hread, hzero⟩
    refine ⟨(true, h'), fun rounds => ?_⟩
    rw [poll, run_bind_of_ok hread]
    dsimp only
    rw [if_pos hready]
    rfl

theorem poll_settles {h : List Exchange} (hsettles : Settles wire h) :
    ∃ enough r, ∀ rounds ≥ enough, (poll wire rounds).run h = .ok r := by
  obtain ⟨k, hk⟩ := hsettles
  induction k generalizing h with
  | zero =>
    obtain ⟨r, hr⟩ := poll_done hk
    refine ⟨1, r, fun rounds hrounds => ?_⟩
    obtain ⟨rounds, rfl⟩ := Nat.exists_eq_add_of_le' hrounds
    exact hr rounds
  | succ k ih =>
    by_cases hbusy : StillBusy wire h
    · obtain ⟨enough, r, hr⟩ := ih hk
      refine ⟨enough + 1, r, fun rounds hrounds => ?_⟩
      obtain ⟨more, rfl⟩ := Nat.exists_eq_add_of_le' hrounds
      exact (poll_busy hbusy (more + enough)).trans (hr _ (Nat.le_add_left ..))
    · obtain ⟨r, hr⟩ := poll_done hbusy
      refine ⟨1, r, fun rounds hrounds => ?_⟩
      obtain ⟨rounds, rfl⟩ := Nat.exists_eq_add_of_le' hrounds
      exact hr rounds

/-- A device that stays busy keeps the loop going for all the rounds there are. -/
theorem poll_running {h : List Exchange} (hsettles : ¬ Settles wire h) (rounds : ℕ) :
    (poll wire rounds).run h = .error .running := by
  induction rounds generalizing h with
  | zero => rfl
  | succ rounds ih =>
    have hbusy : StillBusy wire h := not_not.mp fun hdone => hsettles ⟨0, hdone⟩
    rw [poll_busy hbusy]
    apply ih
    rintro ⟨k, hk⟩
    exact hsettles ⟨k + 1, hk⟩

end

/-- `ReadDS1921` ends exactly when it does not come to the polling, or one of the status reads
there fails or finds the device ready. -/
theorem readDs1921_returns_iff (wire : Wire) (serno : Serno) (kill : Bool) (h : List Exchange) :
    Returns wire serno kill h ↔
      ∀ h', (beforePoll wire serno kill).run h = .ok (true, h') → Settles wire h' := by
  have hcompletes : Completes (fun _ => True) (beforePoll wire serno kill) fun _ _ => True :=
    completes_beforePoll serno kill
  obtain ⟨polls, h', hbefore, -⟩ := hcompletes h trivial
  have hrun : ∀ rounds, (readDs1921 wire rounds serno kill).run h =
      (if polls then poll wire rounds >>= fun _ => afterPoll wire serno else pure (false, -42)).run h' := by
    intro rounds
    rw [readDs1921_eq, run_bind_of_ok hbefore]
  constructor
  · rintro ⟨enough, r, hr⟩ h₁ h₁'
    obtain ⟨rfl, rfl⟩ := Prod.mk.inj (Except.ok.inj (hbefore.symm.trans h₁'))
    by_contra hsettles
    have hend := (hrun enough).symm.trans (hr enough le_rfl)
    rw [if_pos rfl, run_bind_error.mpr (Or.inl (poll_running hsettles enough))] at hend
    exact nomatch hend
  · intro hsettles
    cases polls with
    | false => exact ⟨0, ((false, -42), h'), fun rounds _ => hrun rounds⟩
    | true =>
      obtain ⟨enough, ⟨o, h₂⟩, hpoll⟩ := poll_settles (hsettles h' hbefore)
      have hcompletes : Completes (fun _ => True) (afterPoll wire serno) fun _ _ => True := completes_afterPoll serno
      obtain ⟨r, h₃, hafter, -⟩ := hcompletes h₂ trivial
      refine ⟨enough, (r, h₃), fun rounds hrounds => ?_⟩
      rw [hrun, if_pos rfl, run_bind_of_ok (hpoll rounds hrounds)]
      exact hafter

/-- A device that answers every read with zero. -/
def busyWire : Wire where
  owTouchReset := fun _ => true
  owAccess := fun _ => true
  owTouchByte := fun _ sent => sent
  owBlock := fun _ block => some (block.map fun b => if b = 0xFF then 0 else b)

/-- Such a device is converting for ever. -/
theorem readDs1921_busy_forever : ¬ Returns busyWire loggerSerno false [] := by
  rintro ⟨enough, r, hr⟩
  have hblock : (readCommand statusOffset).map (fun b => if b = 0xFF then 0 else b) =
      #v[0xF0, 0x14, 0x02, 0] := by decide +kernel
  have hbusy : ∀ h, StillBusy busyWire h := by
    intro h
    refine ⟨0, .block (readCommand statusOffset).toList (some [0xF0, 0x14, 0x02, 0]) :: .access true :: h,
      ?_, rfl⟩
    rw [readblock, owAccess, run_ask_bind, if_pos (show busyWire.owAccess h = true from rfl), owBlock,
      run_ask_bind]
    simp only [busyWire, hblock]
    rfl
  have hsettles : ∀ h, ¬ Settles busyWire h := fun h ⟨k, hk⟩ => hk (hbusy _)
  have hend := hr enough le_rfl
  rw [readDs1921_eq] at hend
  obtain ⟨polls, h', hbefore, hrest⟩ := run_bind_ok.mp hend
  have htrue : (beforePoll busyWire loggerSerno false).run [] = .ok (true,
      [.touch 0x44 0x44, .access true, .block (readCommand statusOffset).toList (some [0xF0, 0x14, 0x02, 0]),
        .access true, .select loggerSerno]) := by decide +kernel
  have hpolls : polls = true := (Prod.mk.inj (Except.ok.inj (hbefore.symm.trans htrue))).1
  subst hpolls
  rw [if_pos rfl, run_bind_error.mpr (Or.inl (poll_running (hsettles h') enough))] at hrest
  exact nomatch hrest

end W1Retap.Bus.Ds1921
