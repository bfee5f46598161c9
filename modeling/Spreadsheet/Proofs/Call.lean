import Spreadsheet.Proofs.Explained
import Spreadsheet.Proofs.Sheets

/-!
# Calls

A call asks for the result for one sheet, or for the results for all sheets of a workbook.

* `Call` : what is asked for, with its answers and what has been noted by the end;
* `Call.runs` : a call is a run of the machine from nothing to a state without frames;
* `Call.answers_finished` : its answers are the results that were noted for the sheets asked for.
-/

namespace Spreadsheet

open Calculation

/-- What can be asked for. -/
inductive Call where
  /-- A sheet, with the others that its formulas may read. -/
  | sheet (sheet : Sheet) (others : List Sheet)
  /-- All sheets of a workbook. -/
  | workbook (sheets : List Sheet)

/-- The built-in functions with the default options, at some time. -/
def Environment.plain : Environment where
  registry := .builtin
  surroundings := ⟨{}, ⟨737425, by decide, by decide⟩, ⟨0, 0, 0⟩⟩

namespace Call

/-- All sheets of a call, each in its place. -/
def sheets : Call → List Sheet
  | sheet s others => (placeSheet s others).1
  | workbook sheets => sheets

/-- The places of the sheets that are asked for. -/
def targets : Call → List Nat
  | sheet s others => [(placeSheet s others).2]
  | workbook sheets => List.range sheets.length

def answers (env : Environment) : Call → List CalculatedSheet
  | sheet s others => [calculateSheet env s others]
  | workbook sheets => calculateWorkbook env sheets

def setting (env : Environment) (c : Call) : Setting := env.setting c.sheets

/-- What has been noted by the end. -/
def progress (env : Environment) (c : Call) : Progress :=
  ((c.targets.mapM (outermost (c.setting env))).run {}).2

end Call

/-! ## Running -/

section Outermost

variable {w : Setting} {s : Progress} {i : Nat}

theorem outermost_run (hample : w.Ample) (hi : i < w.sheets.size) (hv : Machine.Valid w ⟨s, []⟩) :
    Runs w ⟨s, []⟩ ⟨((outermost w i).run s).2, []⟩ ∧
      ((outermost w i).run s).2.finished[i]? = some ((outermost w i).run s).1 := by
  unfold outermost
  cases hr : s.finished[i]? with
  | some r =>
    rw [sheetResult_done hr]
    exact ⟨.refl, hr⟩
  | none =>
    have hnew : i ∉ s.finished := notMem_of_getElem?_none hr
    have henter : Move w ⟨s, []⟩ ⟨{ s with active := i :: s.active }, [.sheet i]⟩ := .enter hi hnew
    obtain ⟨hrun, hr'⟩ := calculated hample (sound_foreignValue hample maxSheetNesting) hnew (hv.move henter)
    exact ⟨.head henter hrun, hr'⟩

/-- Results stay as they are while others are asked for. -/
theorem outermost_mapM (hample : w.Ample) (targets : List Nat) (hi : ∀ i ∈ targets, i < w.sheets.size) :
    ∀ {s : Progress}, Machine.Valid w ⟨s, []⟩ →
      Runs w ⟨s, []⟩ ⟨((targets.mapM (outermost w)).run s).2, []⟩ ∧
      List.Forall₂ (fun i r => ((targets.mapM (outermost w)).run s).2.finished[i]? = some r) targets
        ((targets.mapM (outermost w)).run s).1 := by
  induction targets with
  | nil => exact fun _ => ⟨.refl, .nil⟩
  | cons i targets ih =>
    intro s hv
    obtain ⟨hlt, hi⟩ := List.forall_mem_cons.1 hi
    obtain ⟨hrun, hr⟩ := outermost_run hample hlt hv
    obtain ⟨hrun', hrs⟩ := ih hi (hv.run hrun)
    have hmapM : ((i :: targets).mapM (outermost w)).run s
        = (((outermost w i).run s).1 :: ((targets.mapM (outermost w)).run ((outermost w i).run s).2).1,
          ((targets.mapM (outermost w)).run ((outermost w i).run s).2).2) := by
      rw [List.mapM_cons]
      rfl
    rw [hmapM]
    exact ⟨hrun.trans hrun', .cons ((hrun'.grows (hv.run hrun)).finished i _ hr) hrs⟩

end Outermost

namespace Call

variable (env : Environment) (c : Call)

theorem answers_eq : c.answers env = ((c.targets.mapM (outermost (c.setting env))).run {}).1 := by
  cases c with
  | sheet s others =>
    simp only [targets, List.mapM_cons, List.mapM_nil]
    rfl
  | workbook sheets => rfl

theorem sheet_setting {sheet : Sheet} {i : Nat} (h : c.sheets[i]? = some sheet) :
    (c.setting env).sheet i = sheet.withDates env.surroundings.options.dateOrder := by
  simp [setting, Environment.setting, Setting.ofSheets, Setting.sheet, h]

theorem size_sheets : (c.setting env).sheets.size = c.sheets.length := by
  simp [setting, Environment.setting, Setting.ofSheets]

theorem ample : (c.setting env).Ample :=
  (Setting.length_formulas env _).le

theorem targets_lt : ∀ i ∈ c.targets, i < (c.setting env).sheets.size := by
  rw [size_sheets]
  intro i hi
  cases c with
  | sheet s others =>
    rw [targets, List.mem_singleton] at hi
    subst hi
    simp only [sheets, placeSheet]
    cases h : others.findIdx? fun t => sameSheet t.name s.name with
    | none => simp
    | some j =>
      simp only [List.length_set]
      exact (List.findIdx?_eq_some_iff_getElem.1 h).1
  | workbook sheets => exact List.mem_range.1 hi

/-- A call is a run of the machine. -/
theorem runs : Runs (c.setting env) ⟨{}, []⟩ ⟨c.progress env, []⟩ :=
  (outermost_mapM (c.ample env) c.targets (c.targets_lt env) (.initial _)).1

theorem valid : Machine.Valid (c.setting env) ⟨c.progress env, []⟩ :=
  (Machine.Valid.initial _).run (c.runs env)

theorem notMem_started (p : Position) : p ∉ (c.progress env).started := fun hp =>
  List.not_mem_nil (((c.valid env).started p).1 hp)

/-- In the end the sheet of every formula that is done has its result. -/
theorem exists_finished {p : Position} (hp : p ∈ (c.progress env).values) :
    ∃ r, (c.progress env).finished[p.sheet]? = some r := by
  have hvisited := (c.runs env).visited_of_values (.initial _) (by simp) p hp
  have hactive : (c.progress env).active = [] := (c.valid env).active
  refine exists_getElem?_of_mem (hvisited.resolve_left ?_)
  simp [hactive]

/-- In the end every formula that was put on a cycle is listed in the result for its sheet. -/
theorem reportsCircular {p : Position} (hp : p ∈ (c.progress env).circular) :
    ∃ r, (c.progress env).finished[p.sheet]? = some r ∧ r.ReportsCircular p.row p.column := by
  have hval := ((c.valid env).circular p hp).resolve_left (c.notMem_started env p)
  obtain ⟨r, hr⟩ := c.exists_finished env hval
  refine ⟨r, hr, (reportsCircular_of_finished (c.valid env) hr).2 ?_⟩
  exact (c.runs env).reported (.initial _) (by simp) p hp

/-- The answers are the results that were noted for the sheets asked for. -/
theorem answers_finished :
    List.Forall₂ (fun i r => (c.progress env).finished[i]? = some r) c.targets (c.answers env) := by
  rw [answers_eq]
  exact (outermost_mapM (c.ample env) c.targets (c.targets_lt env) (.initial _)).2

theorem finished_of_mem_answers {r : CalculatedSheet} (hr : r ∈ c.answers env) :
    ∃ i ∈ c.targets, (c.progress env).finished[i]? = some r := by
  have h := c.answers_finished env
  obtain ⟨n, hn, rfl⟩ := List.getElem_of_mem hr
  have hn' : n < c.targets.length := h.length_eq ▸ hn
  exact ⟨c.targets[n], List.getElem_mem hn', h.get hn' hn⟩

end Call

end Spreadsheet
