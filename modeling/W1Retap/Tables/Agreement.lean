import W1Retap.Tables.Files

/-!
# Files and databases

A file and the table of its rows configure the same devices, in another order, as long as
every line fits into the buffer of `w1_init`.
-/
namespace W1Retap

open Programs

/-- Two loads fail, or make the same devices in some order. -/
def SameDevices : Except Stop (List Entry) → Except Stop (List Entry) → Prop
  | .ok devs, .ok devs' => devs.Perm devs'
  | .error _, .error _ => True
  | _, _ => False

instance (x y : Except Stop (List Entry)) : Decidable (SameDevices x y) :=
  match x, y with
  | .ok devs, .ok devs' => inferInstanceAs (Decidable (devs.Perm devs'))
  | .error _, .error _ => .isTrue trivial
  | .ok _, .error _ => .isFalse id
  | .error _, .ok _ => .isFalse id

theorem sameDevices_of_ok {x y : Except Stop (List Entry)}
    (h : ∀ devs, x = .ok devs → ∃ devs', y = .ok devs' ∧ devs.Perm devs')
    (h' : ∀ devs, y = .ok devs → ∃ devs', x = .ok devs' ∧ devs.Perm devs') : SameDevices x y := by
  cases x with
  | ok devs =>
    obtain ⟨devs', rfl, hperm⟩ := h devs rfl
    exact hperm
  | error err =>
    cases y with
    | ok devs =>
      obtain ⟨devs', hx, -⟩ := h' devs rfl
      exact nomatch hx
    | error err' => trivial

/-- `rows'` is what `order by device` may make of `rows`: the rows of a device stay in order. -/
structure OrderedByDevice (rows rows' : List Record) : Prop where
  perm : rows.Perm rows'
  device : ∀ d, rows.filter (· deviceCol = d) = rows'.filter (· deviceCol = d)

theorem OrderedByDevice.refl (rows : List Record) : OrderedByDevice rows rows :=
  ⟨.refl rows, fun _ => rfl⟩

theorem OrderedByDevice.symm {rows rows' : List Record} (h : OrderedByDevice rows rows') :
    OrderedByDevice rows' rows :=
  ⟨h.perm.symm, fun d => (h.device d).symm⟩

theorem OrderedByDevice.key {rows rows' : List Record} (h : OrderedByDevice rows rows') (k : Key) :
    rows.filter (·.key = k) = rows'.filter (·.key = k) := by
  have hsplit : ∀ rows : List Record, rows.filter (·.key = k) =
      (rows.filter (· deviceCol = k.serno)).filter (· typeCol = k.devtype) := by
    intro rows
    rw [List.filter_filter]
    apply List.filter_congr
    intro row _
    cases k
    simp [Record.key, Bool.and_comm]
  rw [hsplit, hsplit, h.device]

/-- A table loads alike in every order of its devices. -/
theorem sqliteInit_ordered {cols : Columns} {rows rows' : List Record}
    (hrows : ∀ row ∈ rows, RowNamed row.key (filledCells cols.names row))
    (h : OrderedByDevice rows rows') :
    SameDevices (sqliteInit cols rows) (sqliteInit cols rows') := by
  have hstep : ∀ rows rows' : List Record,
      (∀ row ∈ rows, RowNamed row.key (filledCells cols.names row)) → OrderedByDevice rows rows' →
      ∀ devs, sqliteInit cols rows = .ok devs →
        ∃ devs', sqliteInit cols rows' = .ok devs' ∧ devs.Perm devs' := by
    intro rows rows' hrows h devs hload
    have hrows' : ∀ row ∈ rows', RowNamed row.key (filledCells cols.names row) :=
      fun row hrow => hrows row (h.perm.mem_iff.mpr hrow)
    obtain ⟨devs', hload', hperm⟩ := Grouping.gather_reorder (fun r hr => keyed_stepRow (hrows r hr))
      h.perm h.key ((load_gather hrows).symm.trans hload)
    exact ⟨devs', (load_gather hrows').trans hload', hperm⟩
  apply sameDevices_of_ok (hstep rows rows' hrows h)
  exact hstep rows' rows (fun row hrow => hrows row (h.perm.mem_iff.mpr hrow)) h.symm

/-- A coupler with thirteen devices behind its main branch, read every ten minutes. -/
def longRow : Record := fun n =>
  if n = name1Col then
    some (List.intercalate [','] (List.replicate 13 "105EE02301080039".toList))
  else Record.of [("device", "1F1CE7030000009C"), ("type", "DS2409"), ("abbrv1", "M1"),
    ("interval", "600")] n

theorem longRow_differs : ∃ row, FileRow row ∧ (rowLine row).length = 256 ∧
    ¬ SameDevices (fileInit (fileText [row])) (sqliteInit mksensColumns [row]) := by
  refine ⟨longRow, ⟨?_, ⟨'1', "F1CE7030000009C".toList, by decide, by decide⟩, by decide⟩, by decide +kernel,
    by decide +kernel⟩
  have hclean : ∀ n ∈ fileCols, ∀ c ∈ (longRow n).getD [], c ≠ '|' ∧ c ≠ ':' ∧ c ≠ '\n' := by
    decide +kernel
  intro n hn v hv c hc
  exact hclean n hn c (by simpa [hv] using hc)

end W1Retap
