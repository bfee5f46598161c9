import Spreadsheet.Proofs.Reported
import Spreadsheet.Proofs.Solution

/-!
# False cycles

Formulas read only what they mention, but a sheet is calculated as a whole on behalf of the formula that reads it
first, and whatever of it reads that formula finds it started, even if the formula needs none of that. So with several
sheets cycles are reported that are none.

* `Setting.Mentions` : the graph of what formulas mention, which holds all reads (`Call.mentions_of_reads`);
* `Call.circularFree_iff` : where it has no cycles, a cycle is reported exactly if a sheet that was opened for a
  formula uses that formula;
* `Call.circularFree` : a condition on the sheets alone under which none is reported.
-/

namespace Spreadsheet

open Progress (Opens Reads)
open Relation (ReflTransGen TransGen)

variable {w : Setting} {p q : Position}

/-! ## What formulas mention -/

theorem transGen_or {α : Type} {r r' : α → α → Prop} {a b : α} (h : TransGen (fun a b => r a b ∨ r' a b) a b) :
    TransGen r a b ∨ ∃ c d, ReflTransGen (fun a b => r a b ∨ r' a b) a c ∧ r' c d ∧
      ReflTransGen (fun a b => r a b ∨ r' a b) d b := by
  induction h with
  | single hab =>
    rcases hab with hab | hab
    · exact Or.inl (.single hab)
    · exact Or.inr ⟨_, _, .refl, hab, .refl⟩
  | tail hab hbc ih =>
    rcases ih with ih | ⟨c, d, hac, hcd, hdb⟩
    · rcases hbc with hbc' | hbc'
      · exact Or.inl (.tail ih hbc')
      · exact Or.inr ⟨_, _, hab.to_reflTransGen, hbc', .refl⟩
    · exact Or.inr ⟨c, d, hac, hcd, .tail hdb hbc⟩

namespace Setting

/-- The ranges that the formula of a cell mentions, if it can be parsed. -/
def mentioned (w : Setting) (p : Position) : List CellRange :=
  match (w.formula? p).map Formula.parseFormula with
  | some (.ok e) => e.references
  | _ => []

/-- A formula mentions a cell, on whatever sheet and perhaps as one of a range. -/
def Mentions (w : Setting) (p q : Position) : Prop :=
  ∃ r ∈ w.mentioned p, w.sheetFor? p.sheet r.sheet = some q.sheet ∧ r.contains q.row q.column

instance (w : Setting) (p q : Position) : Decidable (w.Mentions p q) :=
  inferInstanceAs (Decidable (∃ r ∈ w.mentioned p, w.sheetFor? p.sheet r.sheet = some q.sheet ∧ _))

/-- A formula mentions a cell of another sheet that a formula is on. -/
def MentionsSheet (w : Setting) (p q : Position) : Prop :=
  ∃ q', w.Mentions p q' ∧ q'.sheet = q.sheet ∧ p.sheet ≠ q.sheet ∧ (w.formula? q).isSome

theorem Mentions.isSome_formula? (h : w.Mentions p q) : (w.formula? p).isSome := by
  obtain ⟨r, hr, -⟩ := h
  cases hf : w.formula? p with
  | none => simp [mentioned, hf] at hr
  | some _ => rfl

/-- Numbers that fall along what formulas mention of each other leave no room for a cycle. -/
theorem not_transGen_mentions (rank : Position → Nat)
    (h : ∀ p ∈ w.formulas, ∀ q ∈ w.formulas, w.Mentions p q → rank q < rank p) (p : Position) :
    ¬TransGen w.Mentions p p := by
  have hfalls : ∀ {p q}, (w.formula? q).isSome → w.Mentions p q → rank q < rank p :=
    fun hq hpq => h _ (mem_formulas hpq.isSome_formula?) _ (mem_formulas hq) hpq
  have hpath : ∀ {p q}, TransGen w.Mentions p q → (w.formula? q).isSome → rank q < rank p := by
    intro p q hpq
    induction hpq with
    | single hpq => exact fun hq => hfalls hq hpq
    | tail _ hbc ih => exact fun hc => (hfalls hc hbc).trans (ih hbc.isSome_formula?)
  intro hp
  obtain ⟨_, hstep, -⟩ := TransGen.head'_iff.1 hp
  exact lt_irrefl _ (hpath hp hstep.isSome_formula?)

end Setting

namespace Call

variable (env : Environment) (c : Call)

theorem mentions_of_reads (hreg : env.registry.Confined) (h : Reads (c.setting env) (c.progress env) p q) :
    (c.setting env).Mentions p q := by
  have hval := c.mem_values_of_uses env (Or.inl h)
  obtain ⟨v, hval⟩ := exists_getElem?_of_mem hval
  obtain ⟨formula, levels, outcome, reads, hf, hreads, hreplay, -⟩ :=
    (c.runs env).explained (.initial _) (fun p v hp => by simp at hp) p v hval
  obtain ⟨reads', hreads', r, hr, -, htarget⟩ := h
  cases hreads.symm.trans hreads'
  cases he : Formula.parseFormula formula with
  | error fault =>
    -- a text that is no formula reads nothing
    have hcover : ∀ e, Formula.parseFormula formula = .ok e → AllCover (fun _ _ _ => False) e.references := by
      simp [he]
    exact ((replay_within hreg hcover hreplay).2 r hr).elim
  | ok e =>
    have hcover : ∀ e', Formula.parseFormula formula = .ok e' → AllCover
        (fun sheet row column => ∃ r ∈ e.references, r.sheet = sheet ∧ r.contains row column) e'.references := by
      intro e' he'
      cases he.symm.trans he'
      exact fun r hr row column hc => ⟨r, hr, rfl, hc⟩
    obtain ⟨range, hrange, hsheet, hcontains⟩ := (replay_within hreg hcover hreplay).2 r hr
    obtain ⟨i, hi, rfl⟩ := Option.map_eq_some_iff.1 htarget
    exact ⟨range, by rwa [Setting.mentioned, hf, Option.map_some, he], by rw [hsheet, hi], hcontains⟩

/-- No result that a call comes to, as an answer or on the way to one, lists the error of a cycle. -/
def CircularFree : Prop :=
  ∀ (i : Nat) (r : CalculatedSheet), (c.progress env).finished[i]? = some r → ∀ e ∈ r.errors, e.kind ≠ .circular

theorem circularFree_iff_acyclic (hreg : env.registry.Confined) :
    c.CircularFree env ↔ ∀ p, ¬TransGen ((c.progress env).Uses (c.setting env)) p p := by
  constructor
  · intro hfree p hp
    obtain ⟨cycle, hmem, hchain⟩ := exists_cycle_of_transGen hp
    obtain ⟨q, -, hq⟩ := c.exists_circular env (by rintro rfl; simp at hmem) hchain
    obtain ⟨r, hr, e, he, -, -, hk⟩ := c.reportsCircular env hq
    exact hfree q.sheet r hr e he hk
  · intro hacyclic i r hr e he hk
    refine hacyclic ⟨i, e.row, e.column⟩ (c.circular_uses env ?_)
    exact (c.circular_iff env hreg).2 ⟨r, hr, e, he, rfl, rfl, hk⟩

/-- Where formulas mention nothing that leads back to them, a cycle is reported exactly if a sheet that was opened for
a formula uses that formula. -/
theorem circularFree_iff [RegexLibrary] (hreg : env.registry = .builtin)
    (hacyclic : ∀ p, ¬TransGen (c.setting env).Mentions p p) :
    c.CircularFree env ↔ ∀ p q, Opens (c.setting env) (c.progress env) p q →
      ¬ReflTransGen ((c.progress env).Uses (c.setting env)) q p := by
  have hconfined : env.registry.Confined := hreg ▸ Registry.confined_builtin
  rw [c.circularFree_iff_acyclic env hconfined]
  constructor
  · exact fun h p q ho hqp => h p (.head' (Or.inr ho) hqp)
  · intro h p hp
    rcases transGen_or hp with hreads | ⟨a, b, hpa, ho, hbp⟩
    · have hmentions : Reads (c.setting env) (c.progress env) ≤ (c.setting env).Mentions :=
        fun _ _ hr => c.mentions_of_reads env hconfined hr
      exact hacyclic p (TransGen.mono hmentions p p hreads)
    · exact h a b ho (hbp.trans hpa)

end Call

/-- The sheets read each other, and no cell leads back to itself: the first formula reads a number, and the other one
reads the first. -/
def crossedSheets : Call :=
  let first : Sheet := ⟨"First", #[#[{ content := .text "=Second!A1" }]]⟩
  let second : Sheet := ⟨"Second", #[#[{ content := .number (5.0 : Float) }], #[{ content := .text "=First!A1" }]]⟩
  .sheet first [first, second]

theorem not_transGen_crossedSheets (p : Position) : ¬TransGen (crossedSheets.setting .plain).Mentions p p :=
  Setting.not_transGen_mentions (fun p => p.row) (by decide +kernel) p

theorem circularFree_iff_crossedSheets :
    (∀ p, ¬TransGen (crossedSheets.setting .plain).Mentions p p) ∧
    (crossedSheets.CircularFree .plain ↔
      ∀ p q, Opens (crossedSheets.setting .plain) (crossedSheets.progress .plain) p q →
        ¬ReflTransGen ((crossedSheets.progress .plain).Uses (crossedSheets.setting .plain)) q p) :=
  ⟨not_transGen_crossedSheets, Call.circularFree_iff .plain crossedSheets rfl not_transGen_crossedSheets⟩

/-- A cycle is reported and there is none: the second sheet was calculated as a whole for the first formula, and its
own formula, which nobody needed, read that one. -/
theorem crossedSheets_reported :
    (crossedSheets.setting .plain).options.crossSheetReferences = true ∧
    (crossedSheets.sheets.map Sheet.name).Pairwise (fun a b => sameSheet a b = false) ∧
    (crossedSheets.progress .plain).Unrefused ∧
    (∀ p, ¬TransGen (crossedSheets.setting .plain).Mentions p p) ∧
    ∃ r ∈ crossedSheets.answers .plain, ∃ e ∈ r.errors, e.kind = .circular := by
  refine ⟨rfl, by decide +kernel, by decide +kernel, not_transGen_crossedSheets, ?_⟩
  decide +kernel

namespace Call

variable (env : Environment) (c : Call)

/-- Where no formula leads back to itself through what formulas mention, with all formulas of another sheet as soon as
one of its cells is mentioned, no cycle is reported. -/
theorem circularFree [RegexLibrary] (hreg : env.registry = .builtin)
    (hacyclic : ∀ p, ¬TransGen (fun p q => (c.setting env).Mentions p q ∨ (c.setting env).MentionsSheet p q) p p) :
    c.CircularFree env := by
  have hconfined : env.registry.Confined := hreg ▸ Registry.confined_builtin
  rw [c.circularFree_iff_acyclic env hconfined]
  intro p hp
  refine hacyclic p (TransGen.mono (fun p q hu => hu.imp (c.mentions_of_reads env hconfined) fun ho => ?_) p p hp)
  obtain ⟨hne, q', hq', hr⟩ := c.exists_reads_of_opens env ho
  exact ⟨q', c.mentions_of_reads env hconfined hr, hq', hne, ho.2⟩

end Call

end Spreadsheet
