import W1Retap.Sensors.Steps

/-!
# The run of a store

Storing a value changes one sensor, to what `w1_validate` makes of it, and is marked in the
trace; a rejection is reported.
-/
namespace W1Retap

open Programs

section
variable {σ : Type} {n j k : ℕ} {s s' : Machine σ} {f : Sensor → Sensor} {x x' : Sensor}

namespace Machine

/-- The state with `x'` in slot `j` of device `n`, and these events before it. -/
def put (s : Machine σ) (n j : ℕ) (x' : Sensor) (es : List Event) : Machine σ :=
  { s.modifyDev n (·.modifySlot j fun _ => x') with trace := es ++ s.trace }

@[simp] theorem put_bus (es : List Event) : (s.put n j x' es).bus = s.bus := rfl
@[simp] theorem put_logtime (es : List Event) : (s.put n j x' es).w1.logtime = s.w1.logtime := rfl

theorem put_slot?_self (es : List Event) (hx : s.slot? n j = some x) :
    (s.put n j x' es).slot? n j = some x' :=
  slot?_modifySlot_self (f := fun _ => x') hx

theorem put_slot?_of_ne (es : List Event) (h : j ≠ k) :
    (s.put n j x' es).slot? n k = s.slot? n k :=
  slot?_modifySlot_of_ne (f := fun _ => x') fun hjk => h hjk.2

/-- Assigning to a slot twice is assigning the last. -/
theorem modifySlot_put (es : List Event) :
    (s.modifyDev n (·.modifySlot j f)).put n j x' es = s.put n j x' es := by
  have hdevs : (s.w1.devs.modify n (·.modifySlot j f)).modify n (·.modifySlot j fun _ => x') =
      s.w1.devs.modify n (·.modifySlot j fun _ => x') := by
    rw [List.modify_modify_eq]
    congr 1
    funext d
    simp only [Function.comp, Device.modifySlot, List.modify_modify_eq]
    rfl
  simp only [put, modifyDev, setW1, hdevs]

end Machine

/-- A program that leaves nothing but reports. -/
def OnlyReports (m : M σ Unit) : Prop :=
  ∀ s, ∃ es : List Event, (∀ e ∈ es, ∃ i dll, e = .report i dll) ∧
    m.run s = .ok ((), { s with trace := es ++ s.trace })

theorem OnlyReports.forM {body : ℕ → M σ Unit} (hbody : ∀ i, OnlyReports (body i)) (is : List ℕ) :
    OnlyReports (is.forM body) := by
  induction is with
  | nil => exact fun s => ⟨[], by simp, rfl⟩
  | cons i is ih =>
    intro s
    obtain ⟨es, hes, hrun⟩ := hbody i s
    obtain ⟨es', hes', hrun'⟩ := ih { s with trace := es ++ s.trace }
    refine ⟨es' ++ es, ?_, ?_⟩
    · intro e he
      rcases List.mem_append.mp he with he | he
      · exact hes' e he
      · exact hes e he
    · refine run_forM_cons_ok.mpr ⟨(), _, hrun, ?_⟩
      rw [hrun', List.append_assoc]

/-- Reports are all that `w1_replog` leaves. -/
theorem reports_w1Replog : OnlyReports (w1Replog (σ := σ)) := by
  intro s
  rw [w1Replog, run_getW1_bind]
  refine OnlyReports.forM (fun i t => ?_) _ s
  cases s.w1.dlls[i]? with
  | none => exact ⟨[], by simp, rfl⟩
  | some dll =>
    by_cases h : dll.type = .r ∧ dll.func.isSome
    · refine ⟨[.report i dll], by simp, ?_⟩
      simp only [if_pos h]
      rfl
    · refine ⟨[], by simp, ?_⟩
      simp only [if_neg h]
      rfl

/-- The run of a store. -/
theorem run_store (hx : s.slot? n j = some x) (hx' : w1Validate s.w1.logtime (f x) = .ok x') :
    ∃ es, (∀ e ∈ es, ∃ i dll, e = .report i dll) ∧
      (store n j f).run s = .ok (if x'.valid then 1 else 0,
        s.put n j x' (es ++ [.validate n j (f x).value s.w1.logtime x'.valid])) := by
  have hassigned := Machine.slot?_modifySlot_self (f := f) hx
  have hassign : (modifySlot n j f).run s = .ok ((), s.modifyDev n (·.modifySlot j f)) :=
    run_modifySlot_ok.mpr ⟨by rw [hx]; rfl, rfl⟩
  have hread : (slot n j).run (s.modifyDev n (·.modifySlot j f)) =
      .ok (f x, s.modifyDev n (·.modifySlot j f)) := run_slot_ok.mpr ⟨hassigned, rfl⟩
  have hvalidate : (StateT.lift (w1Validate s.w1.logtime (f x)) : M σ Sensor).run
      (s.modifyDev n (·.modifySlot j f)) = .ok (x', s.modifyDev n (·.modifySlot j f)) :=
    run_lift_ok.mpr ⟨hx', rfl⟩
  have hverdict : (modifySlot n j fun _ => x').run (s.modifyDev n (·.modifySlot j f)) =
      .ok ((), s.put n j x' []) := by
    refine run_modifySlot_ok.mpr ⟨by rw [hassigned]; rfl, ?_⟩
    rw [← Machine.modifySlot_put (f := f)]
    rfl
  rw [store, run_bind_of_ok hassign, run_getW1_bind, run_bind_of_ok hread,
    Machine.modifyDev_logtime, run_bind_of_ok hvalidate, run_bind_of_ok hverdict, run_event_bind]
  cases hvalid : x'.valid with
  | true => exact ⟨[], by simp, rfl⟩
  | false =>
    obtain ⟨es, hes, hrun⟩ := reports_w1Replog
      ((s.put n j x' []).log (.validate n j (f x).value s.w1.logtime false))
    refine ⟨es, hes, ?_⟩
    rw [if_neg (by simp), run_bind_of_ok hrun]
    change Except.ok (0, _) = Except.ok (0, _)
    simp [Machine.put, Machine.log]

/-- A store that ends has found the sensor and a verdict. -/
theorem run_store_ok {r : ℕ} (h : (store n j f).run s = .ok (r, s')) :
    ∃ x x' es, s.slot? n j = some x ∧ w1Validate s.w1.logtime (f x) = .ok x' ∧
      (∀ e ∈ es, ∃ i dll, e = .report i dll) ∧ r = (if x'.valid then 1 else 0) ∧
      s' = s.put n j x' (es ++ [.validate n j (f x).value s.w1.logtime x'.valid]) := by
  have hrun := h
  rw [store, run_bind_ok] at hrun
  obtain ⟨_, s₁, h₁, hrun⟩ := hrun
  obtain ⟨hslot, rfl⟩ := run_modifySlot_ok.mp h₁
  obtain ⟨x, hx⟩ := Option.isSome_iff_exists.mp hslot
  rw [run_getW1_bind, run_bind_ok] at hrun
  obtain ⟨y, s₂, h₂, hrun⟩ := hrun
  obtain ⟨hy, rfl⟩ := run_slot_ok.mp h₂
  obtain rfl : f x = y := Option.some.inj ((Machine.slot?_modifySlot_self hx).symm.trans hy)
  obtain ⟨x', s₃, h₃, -⟩ := run_bind_ok.mp hrun
  obtain ⟨hx', -⟩ := run_lift_ok.mp h₃
  obtain ⟨es, hes, hstore⟩ := run_store hx hx'
  rw [hstore] at h
  obtain ⟨hr, hs'⟩ := Prod.mk.inj (Except.ok.inj h)
  exact ⟨x, x', es, hx, hx', hes, hr.symm, hs'.symm⟩

end
end W1Retap
