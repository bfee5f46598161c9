import Spreadsheet.Proofs.Circular
import Spreadsheet.Proofs.Reach

/-!
# What a reported cycle means

With functions that are confined, such as the built-in ones, the error of a cycle is reported for no other formulas
than those that were read while they were started. Where there is only one sheet, these lie on a cycle of reads.

* `replay_within` : what evaluations read, and how they end;
* `Call.circular_iff` : who is reported;
* `Call.single_sheet_cycle` : on a single sheet every reported cell lies on a cycle of reads.
-/

namespace Spreadsheet

open Progress (Reads answer?)
open Relation (TransGen)

variable {w : Setting} {m m' : Machine} {s : Progress} {p q : Position}

/-! ## Who is reported -/

theorem ErrorKind.ofFault_eq_circular {fault : FormulaError} (h : ErrorKind.ofFault fault = .circular) :
    ∃ cell, fault = .circular cell := by
  cases fault <;> first | exact ⟨_, rfl⟩ | cases h

theorem answer?_calm {levels own : Nat} {a : Address} {answer : Answer}
    (h : answer? w levels s own a = some answer) : Calm answer := by
  rintro cell rfl
  rcases Progress.answer?_eq_some.1 h with ⟨fault, hfault, he⟩ | ⟨-, v, -, -, -, he⟩
  · cases he
    unfold Setting.access at hfault
    split at hfault
    · cases hfault
    · split at hfault
      · cases hfault
      · split at hfault
        · rename_i fault hforeign
          cases hfault
          unfold Calculation.foreignSheet at hforeign
          split at hforeign
          · cases hforeign
          · split at hforeign <;> cases hforeign
        · split at hfault <;> cases hfault
  · cases he

theorem replay_within {P : Option String → Nat → Nat → Prop} {levels : Nat} {formula : String}
    {outcome : Except FormulaError Value} {reads : List CellRead} (hreg : w.environment.registry.Confined)
    (hP : ∀ e, Formula.parseFormula formula = .ok e → AllCover P e.references)
    (h : (w.inquiry p formula).replay (answer? w levels s p.sheet) [] = some (outcome, reads)) :
    Calm outcome ∧ ∀ r ∈ reads, P r.address.sheet r.address.row r.address.column := by
  rw [Setting.inquiry] at h
  exact (evaluateFormula_within hreg hP).replay (fun _ _ => answer?_calm) h

theorem replay_calm {levels : Nat} {formula : String} {outcome : Except FormulaError Value} {reads : List CellRead}
    (hreg : w.environment.registry.Confined)
    (h : (w.inquiry p formula).replay (answer? w levels s p.sheet) [] = some (outcome, reads)) : Calm outcome :=
  (replay_within (P := fun _ _ _ => True) hreg (fun _ _ _ _ _ _ _ => trivial) h).1

theorem Runs.circular_of_reported (hreg : w.environment.registry.Confined) (hv : m.Valid w) (hr : Runs w m m')
    (h : ∀ p, Reported m.progress p → p ∈ m.progress.circular) :
    ∀ p, Reported m'.progress p → p ∈ m'.progress.circular := by
  induction hr with
  | refl => exact h
  | @tail m₁ m₂ hr hm ih =>
    rintro ⟨i, row, column⟩ ⟨e, he, hrow, hcolumn, hkind⟩
    rcases hm.errors_cases he with
      he | ⟨q, formula, hq, he⟩ | ⟨s, frames, q, levels, formula, fault, reads, rfl, hr, he⟩
    · exact (hm.grows (hv.run hr)).circular _ (ih _ ⟨e, he, hrow, hcolumn, hkind⟩)
    · cases he
      simp only at hrow hcolumn
      rwa [← hrow, ← hcolumn]
    · cases he
      obtain ⟨cell, rfl⟩ := ErrorKind.ofFault_eq_circular hkind
      exact absurd rfl (replay_calm hreg hr cell)

namespace Call

variable (env : Environment) (c : Call)

/-- The reported formulas are those that were read while they were started. -/
theorem circular_iff (hreg : env.registry.Confined) :
    p ∈ (c.progress env).circular ↔
      ∃ r, (c.progress env).finished[p.sheet]? = some r ∧ r.ReportsCircular p.row p.column := by
  refine ⟨c.reportsCircular env, fun ⟨r, hr, hrep⟩ => ?_⟩
  have hreported := (reportsCircular_of_finished (c.valid env) hr).1 hrep
  exact (c.runs env).circular_of_reported hreg (.initial _) (fun p ⟨e, he, _⟩ => by simp at he) p hreported

end Call

/-! ## A single sheet -/

theorem exists_cycle_of_transGen {α : Type} {r : α → α → Prop} {a : α} (h : TransGen r a a) :
    ∃ cycle : Cycle α, a ∈ cycle ∧ cycle.Chain r := by
  obtain ⟨b, hab, hba⟩ := TransGen.head'_iff.1 h
  obtain ⟨l, hl, hlast⟩ := List.exists_isChain_cons_of_relationReflTransGen hba
  have hpath : (b :: l).dropLast ++ [a] = b :: l := by
    rw [← hlast]
    exact List.dropLast_append_getLast (List.cons_ne_nil b l)
  refine ⟨↑(a :: (b :: l).dropLast), by simp, ?_⟩
  rw [Cycle.chain_coe_cons, hpath]
  exact List.isChain_cons_cons.2 ⟨hab, hl⟩

theorem Call.exists_cycle (env : Environment) (c : Call) (hone : c.sheets.length = 1)
    (hp : p ∈ (c.progress env).circular) :
    ∃ cycle : Cycle Position, p ∈ cycle ∧ cycle.Chain ((c.progress env).Reads (c.setting env)) := by
  have huses : (c.progress env).Uses (c.setting env) ≤ (c.progress env).Reads (c.setting env) :=
    fun p q h => h.resolve_right (c.not_opens env hone)
  exact exists_cycle_of_transGen (TransGen.mono huses p p (c.circular_uses env hp))

/-- Where there is only one sheet, every cell that is reported lies on a cycle of cells that have read each other. -/
theorem Call.single_sheet_cycle [RegexLibrary] (env : Environment) (hreg : env.registry = .builtin) (c : Call)
    (hone : c.sheets.length = 1) {r : CalculatedSheet} (hr : r ∈ c.answers env) {e : CalculationError}
    (he : e ∈ r.errors) (hk : e.kind = .circular) :
    ∃ cycle : Cycle Position, ⟨0, e.row, e.column⟩ ∈ cycle ∧
      cycle.Chain ((c.progress env).Reads (c.setting env)) := by
  obtain ⟨i, hi, hfinished⟩ := c.finished_of_mem_answers env hr
  have hlt := c.targets_lt env i hi
  rw [c.size_sheets env, hone, Nat.lt_one_iff] at hlt
  subst hlt
  have hcirc := (@Call.circular_iff ⟨0, e.row, e.column⟩ env c (hreg ▸ Registry.confined_builtin)).2
    ⟨r, hfinished, e, he, rfl, rfl, hk⟩
  exact c.exists_cycle env hone hcirc

/-- Three cells that read each other in a circle, one of them in the branch that is taken, and a cell beside it. -/
def ringSheet : Call :=
  .sheet ⟨"Sheet1", #[#[{ content := .text "=SUM(B1,1)" }, { content := .text "=IF(D1>0,C1,A1)" },
    { content := .text "=A1*2" }, { content := .number (1.0 : Float) }, { content := .text "=B1" }]]⟩ []

/-- Four formulas take six attempts, and the first one is reported, which does not read itself. -/
theorem ringSheet_cycle :
    (ringSheet.progress .plain).attempts = 6 ∧
    (∃ r ∈ ringSheet.answers .plain, ∃ e ∈ r.errors, e.kind = .circular ∧ (e.row, e.column) = (0, 0)) ∧
    ¬ (ringSheet.progress .plain).Reads (ringSheet.setting .plain) ⟨0, 0, 0⟩ ⟨0, 0, 0⟩ ∧
    ∃ cycle : Cycle Position, ⟨0, 0, 0⟩ ∈ cycle ∧
      cycle.Chain ((ringSheet.progress .plain).Reads (ringSheet.setting .plain)) := by
  have hreported :
      ∃ r ∈ ringSheet.answers .plain, ∃ e ∈ r.errors, e.kind = .circular ∧ (e.row, e.column) = (0, 0) := by
    decide +kernel
  refine ⟨by decide +kernel, hreported, by decide +kernel, ?_⟩
  obtain ⟨r, hr, e, he, hk, hplace⟩ := hreported
  obtain ⟨hrow, hcolumn⟩ := Prod.mk.inj hplace
  have hcycle := Call.single_sheet_cycle .plain rfl ringSheet rfl hr he hk
  rwa [hrow, hcolumn] at hcycle

end Spreadsheet
