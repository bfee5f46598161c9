import Spreadsheet.Proofs.FunctionalGraph
import Spreadsheet.Proofs.Tallies

/-!
# Sheets of references

A formula that is nothing but a reference to a cell of its own sheet has one way out. So the formulas that are started
form a path, and when one of them is read again the rest of the path is the cycle through it: all of that cycle is
started, and none of it will be read again before it is done.

* `Sheet.IsPlain` : the sheets this is about, `Setting.IsPlain` for all sheets of a calculation;
* `Straight`, `Separate` : the frames form a path, and on every cycle one formula at most is marked
  (`Separate.move`);
* `ShowsReferences`, `Call.showsReferences` : what the result for a single sheet shows.
-/

namespace Spreadsheet

open Progress (Bound Reads answer? known?)
open Relation (ReflTransGen TransGen)

/-! ## Plain formulas -/

/-- The place that a formula on a sheet refers to, if it is nothing but a reference to a cell of that sheet. -/
def plainReference? (sheet formula : String) : Option (Nat × Nat) :=
  match Formula.parseFormula formula with
  | .ok (.cell a) => if a.sheet.all fun name => sameSheet name sheet then some (a.row, a.column) else none
  | _ => none

/-- The place that the formula at a place refers to. -/
def Sheet.reference? (s : Sheet) (place : Nat × Nat) : Option (Nat × Nat) :=
  ((s.cell? place.1 place.2).bind Cell.formula?).bind (plainReference? s.name)

/-- Every formula is nothing but a reference to a cell of its sheet. -/
def Sheet.IsPlain (s : Sheet) : Prop := ∀ place ∈ s.formulaPlaces, (s.reference? place).isSome

instance (s : Sheet) : Decidable s.IsPlain :=
  inferInstanceAs (Decidable (∀ place ∈ s.formulaPlaces, (s.reference? place).isSome))

namespace Setting

/-- The cell that a formula refers to. -/
def reference? (w : Setting) (p : Position) : Option Position :=
  ((w.formula? p).bind (plainReference? (w.sheet p.sheet).name)).map fun place => ⟨p.sheet, place.1, place.2⟩

/-- Every formula is nothing but a reference to a cell of its sheet. -/
def IsPlain (w : Setting) : Prop := ∀ p, (w.formula? p).isSome → (w.reference? p).isSome

variable {w : Setting} {p q : Position} {formula : String}

/-- A reference asks for one cell and has its value. -/
theorem inquiry_of_reference? (hf : w.formula? p = some formula) (h : w.reference? p = some q) :
    ∃ a, w.isOwn p.sheet a.sheet ∧ q = ⟨p.sheet, a.row, a.column⟩ ∧ w.inquiry p formula = .cell a .done := by
  rw [reference?, hf, Option.bind_some, Option.map_eq_some_iff] at h
  obtain ⟨place, hplace, rfl⟩ := h
  unfold plainReference? at hplace
  split at hplace
  · rename_i a hparse
    split at hplace
    · rename_i hown
      cases hplace
      refine ⟨a, ?_, rfl, ?_⟩
      · cases hs : a.sheet with
        | none => rfl
        | some name => simpa [hs, isOwn] using hown
      · rw [inquiry]
        simp only [evaluateFormula, hparse, evaluate, evaluateInto]
        refine congrArg (Inquiry.cell a) (funext fun answer => ?_)
        cases answer <;> rfl
    · cases hplace
  · cases hplace

theorem reference?_isFormula (h : w.reference? p = some q) : ∃ formula, w.formula? p = some formula := by
  obtain ⟨_, hplace, -⟩ := Option.map_eq_some_iff.1 h
  obtain ⟨formula, hf, -⟩ := Option.bind_eq_some_iff.1 hplace
  exact ⟨formula, hf⟩

theorem IsPlain.calmOutcomes (hplain : w.IsPlain) : w.CalmOutcomes := by
  intro s levels p formula outcome reads hf hr
  obtain ⟨q, hq⟩ := Option.isSome_iff_exists.1 (hplain p (by rw [hf]; rfl))
  obtain ⟨a, -, -, hinquiry⟩ := inquiry_of_reference? hf hq
  rw [hinquiry] at hr
  obtain ⟨answer, hanswer, hr⟩ := Inquiry.replay_cell_eq_some.1 hr
  cases hr
  exact answer?_calm hanswer

end Setting

variable {w : Setting} {m m' : Machine} {s : Progress} {frames : List Frame} {p q : Position} {levels : Nat}

/-- All that a reference is going to read is the cell that it refers to. -/
theorem Progress.Bound.reference? {q' : Position} (hb : Bound w levels s p q') (h : w.reference? p = some q) :
    q' = q := by
  obtain ⟨formula, a', i, hf, ha, hi, rfl⟩ := hb
  obtain ⟨a, hown, rfl, hinquiry⟩ := Setting.inquiry_of_reference? hf h
  rw [hinquiry] at ha
  obtain rfl : a' = a := by
    refine ha.resolve_right fun hnext => ?_
    cases hknown : answer? w levels s p.sheet a with
    | some answer => exact hnext answer (Or.inl hknown)
    | none => exact hnext (.ok .empty) (Or.inr ⟨hknown, .empty, rfl⟩)
  rw [Setting.access_own hown] at hi
  cases hi
  rfl

/-- The value of a reference is that of the cell, unless it is marked as on a cycle. -/
theorem Explained.reference? {v : Value} (he : Explained w s p v) (h : w.reference? p = some q) :
    ∃ u, known? w s q = some u ∧ v = (if p ∈ s.circular then w.cycleValue else u) ∧
      ∀ q', Reads w s p q' ↔ q' = q := by
  obtain ⟨formula, levels, outcome, reads, hf, hreads, hr, rfl⟩ := he
  obtain ⟨a, hown, rfl, hinquiry⟩ := Setting.inquiry_of_reference? hf h
  rw [hinquiry] at hr
  obtain ⟨answer, hanswer, hr⟩ := Inquiry.replay_cell_eq_some.1 hr
  cases hr
  have htarget : w.target? p.sheet a = some ⟨p.sheet, a.row, a.column⟩ := by
    have haccess : w.access levels p.sheet a.sheet = .ok p.sheet := Setting.access_own hown
    rw [Setting.target?, Setting.sheetFor?_of_access haccess]
    rfl
  rcases Progress.answer?_eq_some.1 hanswer with ⟨fault, hfault, -⟩ | ⟨i, u, hi, -, hu, rfl⟩
  · rw [Setting.access_own hown] at hfault
    cases hfault
  · rw [Setting.access_own hown] at hi
    cases hi
    refine ⟨u, hu, rfl, fun q' => ⟨?_, ?_⟩⟩
    · rintro ⟨reads', hreads', r, hmem, -, ht⟩
      cases hreads.symm.trans hreads'
      rw [List.mem_singleton.1 hmem] at ht
      exact Option.some.inj (ht.symm.trans htarget)
    · rintro rfl
      exact ⟨_, hreads, _, List.mem_singleton_self _, ⟨u, rfl⟩, htarget⟩

/-! ## Frames as a path -/

/-- Formulas that are started refer each to the next one, and sheets are not nested. -/
def Straight (w : Setting) : List Frame → Prop
  | [] => True
  | .sheet _ :: frames => frames = []
  | .formula p _ :: frames =>
    (∀ k levels, frames.head? = some (.formula k levels) → w.reference? k = some p) ∧ Straight w frames

theorem Straight.move (h : Straight w m.frames) (hplain : w.IsPlain) (hv : m.Valid w) (hm : Move w m m') :
    Straight w m'.frames := by
  cases hm with
  | @start s frames p formula levels hf _ _ _ hl =>
    refine ⟨fun k l hk => ?_, h⟩
    cases frames with
    | nil => cases hk
    | cons f frames =>
      cases hk
      have hb : Bound w l s k p := hl
      obtain ⟨q, hq⟩ := Option.isSome_iff_exists.1 (hplain k (hv.isFormula k (Or.inl hv.mem_started)))
      rw [hq, hb.reference? hq]
  | retry => exact h
  | close _ _ _ => exact h
  | finish _ _ => exact h.2
  | enter _ _ => exact rfl
  | @visit s frames k q levels ha _ hb =>
    -- a reference leads to its own sheet, and that is active
    obtain ⟨q', hq'⟩ := Option.isSome_iff_exists.1 (hplain k (hv.isFormula k (Or.inl hv.mem_started)))
    obtain ⟨formula, hf⟩ := Setting.reference?_isFormula hq'
    obtain ⟨a, -, rfl, -⟩ := Setting.inquiry_of_reference? hf hq'
    rw [hb.reference? hq'] at ha
    exact absurd (hv.mem_active hv.mem_started) ha
  | leave _ _ =>
    have hnil : _ = [] := h
    rw [hnil]
    trivial

/-- The formulas that are started, the innermost first. -/
abbrev Machine.path (m : Machine) : List Position := m.frames.filterMap Frame.formula?

theorem Straight.isChain : ∀ {frames : List Frame}, Straight w frames →
    (frames.filterMap Frame.formula?).IsChain fun p k => Follows w.reference? k p
  | [], _ => .nil
  | .sheet _ :: frames, h => by
    have hnil : frames = [] := h
    rw [hnil]
    exact .nil
  | [.formula p _], _ => .singleton p
  | .formula p _ :: .sheet i :: frames, h => by
    have hnil : frames = [] := h.2
    rw [hnil]
    exact .singleton p
  | .formula p _ :: .formula k l :: frames, h => .cons_cons (h.1 k l rfl) (Straight.isChain h.2)

/-! ## Lists of followers -/

section Path

variable {α : Type} {next : α → Option α} {a b : α}

/-- The first element of a path is followed by all that come before it. -/
theorem reflTransGen_of_isChain : ∀ {above : List α}, (above ++ [a]).IsChain (fun b c => Follows next c b) →
    ∀ b ∈ above ++ [a], ReflTransGen (Follows next) a b
  | [], _, b, hb => by
    rw [List.mem_singleton.1 hb]
  | c :: above, h, b, hb => by
    have hrest : (above ++ [a]).IsChain (fun b c => Follows next c b) := h.of_cons
    rcases List.mem_cons.1 hb with rfl | hb
    · obtain ⟨d, others, hd⟩ :=
        List.exists_cons_of_ne_nil (List.append_ne_nil_of_right_ne_nil above (List.cons_ne_nil a []))
      rw [List.cons_append, hd] at h
      refine .tail (reflTransGen_of_isChain hrest d (hd ▸ List.mem_cons_self ..)) (List.isChain_cons_cons.1 h).1
    · exact reflTransGen_of_isChain hrest b hb

theorem exists_follows_of_isChain : ∀ {path : List α} {top : α},
    (top :: path).IsChain (fun b c => Follows next c b) → ∀ b ∈ path, ∃ c ∈ top :: path, Follows next b c
  | [], _, _, b, hb => by cases hb
  | c :: path, top, h, b, hb => by
    obtain ⟨hfollows, hrest⟩ := List.isChain_cons_cons.1 h
    rcases List.mem_cons.1 hb with rfl | hb
    · exact ⟨top, List.mem_cons_self .., hfollows⟩
    · obtain ⟨d, hd, hbd⟩ := exists_follows_of_isChain hrest b hb
      exact ⟨d, List.mem_cons_of_mem top hd, hbd⟩

/-- A path that leads back to its first element leads nowhere else. -/
theorem mem_of_reflTransGen {top : α} {above below : List α}
    (hchain : (above ++ a :: below).IsChain fun b c => Follows next c b)
    (htop : (above ++ a :: below).head? = some top) (hback : Follows next top a)
    (h : ReflTransGen (Follows next) a b) : b ∈ above ++ [a] := by
  have hsplit : above ++ a :: below = (above ++ [a]) ++ below := by simp
  rw [hsplit] at hchain htop
  obtain ⟨first, others, hcircle⟩ :=
    List.exists_cons_of_ne_nil (List.append_ne_nil_of_right_ne_nil above (List.cons_ne_nil a []))
  have hcirclechain := hchain.left_of_append
  rw [hcircle] at hcirclechain htop
  obtain rfl : first = top := Option.some.inj htop
  induction h with
  | refl => simp
  | @tail b c _ hbc ih =>
    rw [hcircle] at ih ⊢
    rcases List.mem_cons.1 ih with rfl | hb
    · rw [hbc.unique hback, ← hcircle]
      simp
    · obtain ⟨d, hd, hbd⟩ := exists_follows_of_isChain hcirclechain b hb
      rwa [hbc.unique hbd]

/-- What is on the cycle of a path that leads back to `a` has something of that cycle beneath it, unless it is `a`. -/
theorem exists_beneath {top : α} {path : List α} (hchain : path.IsChain fun b c => Follows next c b)
    (htop : path.head? = some top) (hback : Follows next top a) (ha : a ∈ path)
    (hab : ReflTransGen (Follows next) a b) (hba : ReflTransGen (Follows next) b a) (hne : b ≠ a) :
    ∃ c, [b, c] <:+: path ∧ ReflTransGen (Follows next) b c := by
  obtain ⟨above, below, rfl⟩ := List.append_of_mem ha
  have hmem := mem_of_reflTransGen hchain htop hback hab
  have hb : b ∈ above := (List.mem_append.1 hmem).resolve_right fun h => hne (List.mem_singleton.1 h)
  obtain ⟨first, rest, rfl⟩ := List.append_of_mem hb
  obtain ⟨c, others, hc⟩ :=
    List.exists_cons_of_ne_nil (List.append_ne_nil_of_right_ne_nil rest (List.cons_ne_nil a []))
  have hrest : rest ++ a :: below = c :: (others ++ below) := by
    rw [← List.cons_append, ← hc]
    simp
  have hcircle : (first ++ b :: rest ++ [a]).IsChain fun b c => Follows next c b := by
    have hsplit : first ++ b :: rest ++ a :: below = (first ++ b :: rest ++ [a]) ++ below := by simp
    rw [hsplit] at hchain
    exact hchain.left_of_append
  have hmemc : c ∈ first ++ b :: rest ++ [a] := by
    have hmem' : c ∈ rest ++ [a] := hc ▸ List.mem_cons_self ..
    rw [List.append_assoc, List.cons_append]
    exact List.mem_append_right _ (List.mem_cons_of_mem b hmem')
  exact ⟨c, ⟨first, others ++ below, by simp [hrest]⟩, hba.trans (reflTransGen_of_isChain hcircle c hmemc)⟩

/-- What is beneath `a` is not on the cycle of a path that leads back to `a`. -/
theorem not_reflTransGen_beneath {top : α} {path : List α} (hchain : path.IsChain fun b c => Follows next c b)
    (htop : path.head? = some top) (hback : Follows next top a) (honce : path.Nodup) (hbeneath : [a, b] <:+: path) :
    ¬ReflTransGen (Follows next) a b := by
  obtain ⟨above, below, rfl⟩ := hbeneath
  have hsplit : above ++ [a, b] ++ below = above ++ a :: b :: below := by simp
  have hcircle : above ++ [a, b] ++ below = (above ++ [a]) ++ b :: below := by simp
  intro hab
  rw [hsplit] at hchain htop
  rw [hcircle] at honce
  exact (List.disjoint_of_nodup_append honce) (mem_of_reflTransGen hchain htop hback hab) (List.mem_cons_self ..)

end Path

/-! ## One mark on each cycle -/

/-- Marks lie on different cycles, and what lies beneath a marked formula on the stack is not on its cycle. -/
structure Separate (w : Setting) (m : Machine) : Prop where
  alone : ∀ p ∈ m.progress.circular, ∀ q ∈ m.progress.circular,
    ReflTransGen (Follows w.reference?) p q → ReflTransGen (Follows w.reference?) q p → p = q
  beneath : ∀ p ∈ m.progress.circular, ∀ q, [p, q] <:+: m.path → ¬ReflTransGen (Follows w.reference?) p q

namespace Separate

theorem initial (w : Setting) : Separate w ⟨{}, []⟩ where
  alone p hp := by simp at hp
  beneath p hp := by simp at hp

/-- A formula of the path is read. All of its cycle lies above it on the path, and nothing there is marked. -/
theorem close {k : Position} {formula : String} {fault : FormulaError}
    (h : Separate w ⟨s, .formula k levels :: frames⟩) (hv : Machine.Valid w ⟨s, .formula k levels :: frames⟩)
    (hstraight : Straight w (.formula k levels :: frames)) (hq : q ∈ s.started) (hback : w.reference? k = some q) :
    Separate w ⟨s.closeCycle q formula fault, .formula k levels :: frames⟩ := by
  have hchain := hstraight.isChain
  have hhead : ((Frame.formula k levels :: frames).filterMap Frame.formula?).head? = some k := rfl
  have hmem := (hv.started q).1 hq
  have hnew : ∀ p ∈ s.circular, ReflTransGen (Follows w.reference?) q p →
      ReflTransGen (Follows w.reference?) p q → p = q := by
    intro p hp hqp hpq
    by_contra hne
    obtain ⟨r, hr, hpr⟩ := exists_beneath hchain hhead hback hmem hqp hpq hne
    exact h.beneath p hp r hr hpr
  constructor
  · intro p hp p' hp' hpp' hp'p
    rcases Progress.mem_circular_closeCycle.1 hp with rfl | hp <;>
      rcases Progress.mem_circular_closeCycle.1 hp' with rfl | hp'
    · rfl
    · exact (hnew p' hp' hpp' hp'p).symm
    · exact hnew p hp hp'p hpp'
    · exact h.alone p hp p' hp' hpp' hp'p
  · intro p hp r hr
    rcases Progress.mem_circular_closeCycle.1 hp with rfl | hp
    · exact not_reflTransGen_beneath hchain hhead hback hv.once hr
    · exact h.beneath p hp r hr

theorem move (h : Separate w m) (hplain : w.IsPlain) (hv : m.Valid w) (hstraight : Straight w m.frames)
    (hm : Move w m m') : Separate w m' := by
  cases hm with
  | @start s frames p formula levels hf hval hs _ _ =>
    refine ⟨h.alone, fun q hq r hr => ?_⟩
    rcases List.infix_cons_iff.1 hr with hprefix | hr
    · -- a formula that is new is not marked
      obtain rfl := (List.cons_prefix_cons.1 hprefix).1
      exact absurd (hv.circular q hq) (not_or.2 ⟨hs, hval⟩)
    · exact h.beneath q hq r hr
  | retry => exact ⟨h.alone, h.beneath⟩
  | @close s frames k q formula levels hf hq hb =>
    obtain ⟨q', hq'⟩ := Option.isSome_iff_exists.1 (hplain k (hv.isFormula k (Or.inl hv.mem_started)))
    rw [← hb.reference? hq'] at hq'
    exact h.close hv hstraight hq hq'
  | @finish s frames p formula levels outcome reads hf hr =>
    refine ⟨fun q hq q' hq' => ?_, fun q hq r hr => ?_⟩
    · rw [Progress.circular_finish] at hq hq'
      exact h.alone q hq q' hq'
    · rw [Progress.circular_finish] at hq
      exact h.beneath q hq r (List.infix_cons hr)
  | enter _ _ => exact ⟨h.alone, h.beneath⟩
  | visit _ _ _ => exact ⟨h.alone, h.beneath⟩
  | leave _ _ => exact ⟨h.alone, h.beneath⟩

end Separate

theorem Runs.separate (hr : Runs w m m') (hplain : w.IsPlain) (hv : m.Valid w) (hs : Straight w m.frames)
    (h : Separate w m) : Straight w m'.frames ∧ Separate w m' := by
  induction hr with
  | refl => exact ⟨hs, h⟩
  | tail hr hm ih =>
    have hv' := hv.run hr
    exact ⟨ih.1.move hplain hv' hm, ih.2.move hplain hv' ih.1 hm⟩

/-! ## A single sheet -/

namespace Sheet

/-- From a place the references lead to a cycle. -/
def LeadsToCycle (s : Sheet) (place : Nat × Nat) : Prop :=
  ∃ cycle ∈ cycles s.reference?, ∃ q ∈ cycle, ReflTransGen (Follows s.reference?) place q

/-- The value of a cell that is no formula, dates being numbers. -/
def literal (order : Calendar.DateOrder) (s : Sheet) (place : Nat × Nat) : Value :=
  ((s.cell? place.1 place.2).map fun c => (c.withDate order).content.value).getD .empty

end Sheet

/-- The result for a sheet of references shows the value of the cell where they end. Where they do not end, it shows
the fallback of a cycle, and it lists the error of a cycle for one cell of each. -/
structure ShowsReferences (options : Options) (sheet : Sheet) (r : CalculatedSheet) : Prop where
  count : (cycles sheet.reference?).encard = r.statistics.circular
  onEach : ∀ cycle ∈ cycles sheet.reference?,
    ∃ e, r.errors.filter (fun e => e.kind = .circular ∧ (e.row, e.column) ∈ cycle) = [e]
  onCycle : ∀ e ∈ r.errors, e.kind = .circular → ∃ cycle ∈ cycles sheet.reference?, (e.row, e.column) ∈ cycle
  circular : ∀ place ∈ sheet.formulaPlaces, sheet.LeadsToCycle place →
    valueIn r place.1 place.2 = if options.strict then .error .ref else .number (0.0 : Float)
  literal : ∀ place ∈ sheet.formulaPlaces, ¬sheet.LeadsToCycle place →
    ∃ last, ReflTransGen (Follows sheet.reference?) place last ∧ last ∉ sheet.formulaPlaces ∧
      valueIn r place.1 place.2 = sheet.literal options.dateOrder last

/-- A place on the first sheet. -/
def firstSheet (place : Nat × Nat) : Position := ⟨0, place.1, place.2⟩

namespace Call

variable (env : Environment) (c : Call) {sheet : Sheet} {r : CalculatedSheet} {place place' : Nat × Nat}

theorem formula?_firstSheet (hone : c.sheets = [sheet]) (place : Nat × Nat) :
    (c.setting env).formula? (firstSheet place) = (sheet.cell? place.1 place.2).bind Cell.formula? :=
  formula?_setting (by rw [hone]; rfl)

theorem reference?_firstSheet (hone : c.sheets = [sheet]) (place : Nat × Nat) :
    (c.setting env).reference? (firstSheet place) = (sheet.reference? place).map firstSheet := by
  have hsheet : c.sheets[0]? = some sheet := by rw [hone]; rfl
  have hname : ((c.setting env).sheet (firstSheet place).sheet).name = sheet.name := by
    rw [firstSheet, c.sheet_setting env hsheet]
    rfl
  rw [Setting.reference?, c.formula?_firstSheet env hone, hname]
  rfl

/-- The references of a single sheet are those between its places. -/
theorem follows_firstSheet (hone : c.sheets = [sheet]) :
    Follows (c.setting env).reference? (firstSheet place) (firstSheet place')
      ↔ Follows sheet.reference? place place' := by
  rw [Follows, c.reference?_firstSheet env hone, Follows]
  cases sheet.reference? place with
  | none => simp
  | some q => simp [firstSheet, Prod.ext_iff]

theorem exists_firstSheet (hone : c.sheets = [sheet]) {p : Position} (hf : ((c.setting env).formula? p).isSome) :
    p = firstSheet (p.row, p.column) := by
  have hlt := Setting.sheet_lt_of_formula? hf
  rw [c.size_sheets env, hone, List.length_singleton, Nat.lt_one_iff] at hlt
  rw [firstSheet, ← hlt]

theorem mem_formulaPlaces_iff (hone : c.sheets = [sheet]) :
    place ∈ sheet.formulaPlaces ↔ ((c.setting env).formula? (firstSheet place)).isSome := by
  rw [c.formula?_firstSheet env hone, Option.isSome_bind, Option.any_eq_true]
  exact Sheet.mem_formulaPlaces

theorem isPlain_setting (hone : c.sheets = [sheet]) (hplain : sheet.IsPlain) : (c.setting env).IsPlain := by
  intro p hf
  have hp := c.exists_firstSheet env hone hf
  rw [hp] at hf ⊢
  rw [c.reference?_firstSheet env hone, Option.isSome_map]
  exact hplain _ ((c.mem_formulaPlaces_iff env hone).2 hf)

theorem exists_answer (hone : c.sheets = [sheet]) :
    ∃ r, c.answers env = [r] ∧ (c.progress env).finished[0]? = some r := by
  have htargets : c.targets = [0] := by
    have hlt := c.targets_lt env
    rw [c.size_sheets env, hone] at hlt
    cases c with
    | sheet s others =>
      have hi := hlt _ (List.mem_singleton_self _)
      rw [List.length_singleton, Nat.lt_one_iff] at hi
      rw [targets, hi]
    | workbook sheets =>
      have hsheets : sheets = [sheet] := hone
      rw [targets, hsheets]
      rfl
  have hanswers := c.answers_finished env
  rw [htargets] at hanswers
  obtain ⟨r, rs, hr, hrs, heq⟩ := List.forall₂_cons_left_iff.1 hanswers
  rw [List.forall₂_nil_left_iff.1 hrs] at heq
  exact ⟨r, heq, hr⟩

section Single

variable {env c}

/-- What a place is known to hold is what the result shows. -/
theorem known?_firstSheet (hr : (c.progress env).finished[0]? = some r) (place : Nat × Nat) :
    known? (c.setting env) (c.progress env) (firstSheet place) = some (valueIn r place.1 place.2) := by
  have hv := c.valid env
  have hcomplete := hv.complete 0 (mem_of_getElem?_some hr)
  obtain ⟨n, rfl⟩ := hv.results 0 r hr
  exact known?_of_resultOf (p := firstSheet place) hcomplete

theorem explained_of_reference? (hone : c.sheets = [sheet]) (hr : (c.progress env).finished[0]? = some r)
    {p q : Position} (h : (c.setting env).reference? p = some q) :
    ∃ v, (c.progress env).values[p]? = some v ∧ Explained (c.setting env) (c.progress env) p v := by
  obtain ⟨formula, hform⟩ := Setting.reference?_isFormula h
  have hsheet : p.sheet = 0 := congrArg Position.sheet (c.exists_firstSheet env hone (p := p) (by rw [hform]; rfl))
  have hcomplete := (c.valid env).complete 0 (mem_of_getElem?_some hr)
  obtain ⟨v, hval⟩ := exists_getElem?_of_mem (hcomplete p hsheet (by rw [hform]; rfl))
  exact ⟨v, hval, (c.runs env).explained (.initial _) (fun p v h => by simp at h) p v hval⟩

/-- A formula has the value of the cell that it refers to, unless it is marked as on a cycle. -/
theorem valueIn_of_follows (hone : c.sheets = [sheet]) (hr : (c.progress env).finished[0]? = some r)
    (h : Follows sheet.reference? place place') :
    valueIn r place.1 place.2 = if firstSheet place ∈ (c.progress env).circular then (c.setting env).cycleValue
      else valueIn r place'.1 place'.2 := by
  have hreference := (c.follows_firstSheet env hone).2 h
  obtain ⟨formula, hform⟩ := Setting.reference?_isFormula hreference
  obtain ⟨v, hval, he⟩ := explained_of_reference? hone hr hreference
  obtain ⟨u, hu, hv, -⟩ := he.reference? hreference
  have hplace := known?_firstSheet hr place
  rw [Progress.known?_done hform hval] at hplace
  rw [known?_firstSheet hr place'] at hu
  rw [← Option.some.inj hplace, hv, Option.some.inj hu]

/-- What formulas have read is what they refer to. -/
theorem reads_iff_follows (hone : c.sheets = [sheet]) (hplain : sheet.IsPlain)
    (hr : (c.progress env).finished[0]? = some r) {p q : Position} :
    Reads (c.setting env) (c.progress env) p q ↔ Follows (c.setting env).reference? p q := by
  have hreads : ∀ {q'}, (c.setting env).reference? p = some q' →
      (Reads (c.setting env) (c.progress env) p q ↔ q = q') := by
    intro q' h
    obtain ⟨v, -, he⟩ := explained_of_reference? hone hr h
    obtain ⟨-, -, -, hreads⟩ := he.reference? h
    exact hreads q
  constructor
  · intro h
    have hform := (c.valid env).isFormula p (Or.inr (c.mem_values_of_uses env (Or.inl h)))
    obtain ⟨q', hq'⟩ := Option.isSome_iff_exists.1 (c.isPlain_setting env hone hplain p hform)
    rwa [(hreads hq').1 h]
  · exact fun h => (hreads h).2 rfl

/-! ### Marks -/

/-- A formula that is marked leads back to itself. -/
theorem transGen_of_mark (hone : c.sheets = [sheet]) (hplain : sheet.IsPlain)
    (hr : (c.progress env).finished[0]? = some r) (hc : firstSheet place ∈ (c.progress env).circular) :
    TransGen (Follows sheet.reference?) place place := by
  have hlength : c.sheets.length = 1 := by rw [hone]; rfl
  have hplaces : ∀ p q : Position, (c.progress env).Uses (c.setting env) p q →
      Follows sheet.reference? (p.row, p.column) (q.row, q.column) := by
    intro p q h
    have hpq := (reads_iff_follows hone hplain hr).1 (h.resolve_right (c.not_opens env hlength))
    have hp := c.exists_firstSheet env hone ((Setting.reference?_isFormula hpq).elim fun _ hf => by rw [hf]; rfl)
    rw [hp, Follows, c.reference?_firstSheet env hone] at hpq
    obtain ⟨q', hq', rfl⟩ := Option.map_eq_some_iff.1 hpq
    exact hq'
  exact TransGen.lift (fun p : Position => (p.row, p.column)) hplaces _ _ (c.circular_uses env hc)

/-- On every cycle a formula is marked. -/
theorem exists_mark (hone : c.sheets = [sheet]) (hplain : sheet.IsPlain)
    (hr : (c.progress env).finished[0]? = some r) {cycle : Cycle (Nat × Nat)} (h : cycle ∈ cycles sheet.reference?) :
    ∃ place ∈ cycle, firstSheet place ∈ (c.progress env).circular := by
  obtain ⟨hne, -, hchain⟩ := h
  have huses : (cycle.map firstSheet).Chain ((c.progress env).Uses (c.setting env)) := by
    rw [Cycle.chain_map]
    exact hchain.imp fun a b hab =>
      Or.inl ((reads_iff_follows hone hplain hr).2 ((c.follows_firstSheet env hone).2 hab))
  obtain ⟨p, hp, hc⟩ := c.exists_circular env (fun hnil => hne ((Cycle.map_eq_nil firstSheet cycle).1 hnil)) huses
  obtain ⟨place, hplace, rfl⟩ := Cycle.mem_map.1 hp
  exact ⟨place, hplace, hc⟩

/-- On one cycle only one formula is marked. -/
theorem mark_unique (hone : c.sheets = [sheet]) (hplain : sheet.IsPlain)
    (hc : firstSheet place ∈ (c.progress env).circular) (hc' : firstSheet place' ∈ (c.progress env).circular)
    (h : ReflTransGen (Follows sheet.reference?) place place')
    (h' : ReflTransGen (Follows sheet.reference?) place' place) : place = place' := by
  have hseparate := ((c.runs env).separate (c.isPlain_setting env hone hplain) (.initial _) trivial (.initial _)).2
  have hlift : ∀ {a b}, ReflTransGen (Follows sheet.reference?) a b →
      ReflTransGen (Follows (c.setting env).reference?) (firstSheet a) (firstSheet b) := fun hab =>
    ReflTransGen.lift firstSheet (fun _ _ => (c.follows_firstSheet env hone).2) _ _ hab
  have heq := hseparate.alone _ hc _ hc' (hlift h) (hlift h')
  simpa [firstSheet, Prod.ext_iff] using heq

/-! ### Errors and values -/

theorem mem_circular_iff (hone : c.sheets = [sheet]) (hplain : sheet.IsPlain)
    (hr : (c.progress env).finished[0]? = some r) :
    place ∈ (r.errors.filter fun e => e.kind = .circular).map (fun e => (e.row, e.column)) ↔
      firstSheet place ∈ (c.progress env).circular := by
  have hlisted := c.listed env (c.isPlain_setting env hone hplain).calmOutcomes
  constructor
  · intro h
    obtain ⟨e, he, rfl⟩ := List.mem_map.1 h
    obtain ⟨he, hk⟩ := List.mem_filter.1 he
    rw [errors_eq hr] at he
    exact (hlisted.cycle _ (mem_entriesOf.1 he) (of_decide_eq_true hk)).1
  · intro h
    obtain ⟨r', hr', e, he, hrow, hcolumn, hk⟩ := c.reportsCircular env h
    cases hr.symm.trans hr'
    refine List.mem_map.2 ⟨e, List.mem_filter.2 ⟨he, decide_eq_true hk⟩, ?_⟩
    rw [hrow, hcolumn]
    rfl

theorem nodup_circular (hone : c.sheets = [sheet]) (hplain : sheet.IsPlain)
    (hr : (c.progress env).finished[0]? = some r) :
    ((r.errors.filter fun e => e.kind = .circular).map fun e => (e.row, e.column)).Nodup := by
  have hlisted := c.listed env (c.isPlain_setting env hone hplain).calmOutcomes
  refine List.Nodup.of_map firstSheet ?_
  rw [errors_eq hr, filter_entriesOf, List.map_map]
  exact nodup_entriesOf hlisted.cyclesOnce 0

/-- A formula that leads to a cycle counts as one on it. -/
theorem valueIn_of_reaches (hone : c.sheets = [sheet]) (hr : (c.progress env).finished[0]? = some r)
    (h : ReflTransGen (Follows sheet.reference?) place place')
    (hback : TransGen (Follows sheet.reference?) place' place')
    (hc : firstSheet place' ∈ (c.progress env).circular) :
    valueIn r place.1 place.2 = (c.setting env).cycleValue := by
  induction h using ReflTransGen.head_induction_on with
  | refl =>
    obtain ⟨q, hq, -⟩ := TransGen.head'_iff.1 hback
    rw [valueIn_of_follows hone hr hq, if_pos hc]
  | head hab _ ih =>
    rw [valueIn_of_follows hone hr hab, ih, ite_self]

/-- A formula that leads to no cycle has the value of the cell where the references end. -/
theorem exists_last (hone : c.sheets = [sheet]) (hplain : sheet.IsPlain)
    (hr : (c.progress env).finished[0]? = some r) {n : Nat} {rank : Position → Nat}
    (hordered : Ordered (c.setting env) (c.progress env) n rank) (place : Nat × Nat)
    (hplace : place ∈ sheet.formulaPlaces)
    (h : ∀ q, ReflTransGen (Follows sheet.reference?) place q → firstSheet q ∉ (c.progress env).circular) :
    ∃ last, ReflTransGen (Follows sheet.reference?) place last ∧ last ∉ sheet.formulaPlaces ∧
      valueIn r place.1 place.2 = valueIn r last.1 last.2 := by
  obtain ⟨q, hq⟩ := Option.isSome_iff_exists.1 (hplain place hplace)
  have hvalue := valueIn_of_follows hone hr hq
  rw [if_neg (h place .refl)] at hvalue
  by_cases hform : q ∈ sheet.formulaPlaces
  · have hreads := (reads_iff_follows hone hplain hr).2 ((c.follows_firstSheet env hone).2 hq)
    have hfalls := (hordered.falls _ _ (c.mem_values_of_uses env (Or.inl hreads)) (Or.inl hreads)
      ((c.mem_formulaPlaces_iff env hone).1 hform) (h q (.single hq))).2
    obtain ⟨last, hlast, hno, heq⟩ := exists_last hone hplain hr hordered q hform fun q' hq' => h q' (.head hq hq')
    exact ⟨last, .head hq hlast, hno, hvalue.trans heq⟩
  · exact ⟨q, .single hq, hform, hvalue⟩
termination_by rank (firstSheet place)

theorem valueIn_literal (hone : c.sheets = [sheet]) (hr : (c.progress env).finished[0]? = some r)
    (h : place ∉ sheet.formulaPlaces) :
    valueIn r place.1 place.2 = sheet.literal env.surroundings.options.dateOrder place := by
  have hform : (c.setting env).formula? (firstSheet place) = none := by
    rw [← Option.not_isSome_iff_eq_none, ← c.mem_formulaPlaces_iff env hone]
    exact h
  have hknown := known?_firstSheet hr place
  rw [Progress.known?_literal hform] at hknown
  rw [← Option.some.inj hknown, Setting.literal, Setting.cell?, firstSheet, c.sheet_setting env (by rw [hone]; rfl),
    Sheet.cell?_withDates, Option.map_map]
  rfl

end Single

/-- On a single sheet of references, as many errors of cycles are listed as there are cycles, one for a cell of each.
Formulas on a cycle or leading to one have the fallback of a cycle, and all others the value of the cell where their
references end. -/
theorem showsReferences (hone : c.sheets = [sheet]) (hplain : sheet.IsPlain) :
    ∃ r, c.answers env = [r] ∧ ShowsReferences env.surroundings.options sheet r := by
  obtain ⟨r, hanswers, hr⟩ := c.exists_answer env hone
  have hmark : ∀ {place}, place ∈ (r.errors.filter fun e => e.kind = .circular).map (fun e => (e.row, e.column)) ↔
      firstSheet place ∈ (c.progress env).circular := mem_circular_iff hone hplain hr
  have hnodup := nodup_circular hone hplain hr
  have honcycle : ∀ {place}, firstSheet place ∈ (c.progress env).circular →
      ∃ cycle ∈ cycles sheet.reference?, place ∈ cycle := fun hc =>
    exists_mem_cycles (transGen_of_mark hone hplain hr hc)
  refine ⟨r, hanswers, ?_, fun cycle hcycle => ?_, fun e he hk => ?_, fun place _ hleads => ?_,
    fun place hplace hnot => ?_⟩
  · have hcount := encard_cycles hnodup (fun a ha => transGen_of_mark hone hplain hr (hmark.1 ha))
      (fun a ha b hb hab hba =>
        mark_unique hone hplain (hmark.1 ha) (hmark.1 hb) hab.to_reflTransGen hba.to_reflTransGen)
      fun cycle hcycle => (exists_mark hone hplain hr hcycle).imp fun a ⟨ha, hc⟩ => ⟨ha, hmark.2 hc⟩
    obtain ⟨others, hothers⟩ := (c.valid env).results 0 r hr
    have hstatistics : r.statistics.circular = r.errors.countP fun e => e.kind = .circular := by
      rw [hothers]
      rfl
    rw [hcount, hstatistics, List.length_map, List.countP_eq_length_filter]
  · obtain ⟨place, hplace, hc⟩ := exists_mark hone hplain hr hcycle
    obtain ⟨e, he, rfl⟩ := List.mem_map.1 (hmark.2 hc)
    refine ⟨e, ?_⟩
    rw [← filter_eq_singleton hnodup he, List.filter_filter]
    refine List.filter_congr fun e' he' => ?_
    rw [Bool.eq_iff_iff]
    simp only [decide_eq_true_eq, Bool.and_eq_true]
    constructor
    · -- two marks on the cycle are the same
      rintro ⟨hk, hmem⟩
      have hc' := hmark.1 (List.mem_map.2 ⟨e', List.mem_filter.2 ⟨he', decide_eq_true hk⟩, rfl⟩)
      have hpath := fun {a b} => @transGen_of_mem_cycle _ _ a b cycle hcycle.2.2
      exact ⟨mark_unique hone hplain hc' hc (hpath hmem hplace).to_reflTransGen (hpath hplace hmem).to_reflTransGen, hk⟩
    · rintro ⟨hsame, hk⟩
      exact ⟨hk, hsame ▸ hplace⟩
  · exact honcycle (hmark.1 (List.mem_map.2 ⟨e, List.mem_filter.2 ⟨he, decide_eq_true hk⟩, rfl⟩))
  · obtain ⟨cycle, hcycle, q, hq, hreaches⟩ := hleads
    obtain ⟨a, ha, hc⟩ := exists_mark hone hplain hr hcycle
    have hqa := (transGen_of_mem_cycle hcycle.2.2 hq ha).to_reflTransGen
    exact valueIn_of_reaches hone hr (hreaches.trans hqa) (transGen_of_mark hone hplain hr hc) hc
  · obtain ⟨_, rank, hordered⟩ := c.ordered env
    obtain ⟨last, hlast, hno, hvalue⟩ := exists_last hone hplain hr hordered place hplace fun q hq hc => by
      obtain ⟨cycle, hcycle, hmem⟩ := honcycle hc
      exact hnot ⟨cycle, hcycle, q, hmem, hq⟩
    exact ⟨last, hlast, hno, hvalue.trans (valueIn_literal hone hr hno)⟩

end Call

/-- A cycle of two cells that a third one leads to, a cell that refers to itself, and one that leads to a date. -/
def referenceSheet : Sheet :=
  let upper : Array Cell := #[{ content := .text "=B1" }, { content := .text "=$A$1" }, { content := .text "=A1" }]
  let lower : Array Cell := #[{ content := .text "=A2" }, { content := .text "=C2" }, { content := .text "2024-01-31" }]
  ⟨"Sheet1", #[upper, lower]⟩

theorem showsReferences_referenceSheet :
    (Call.sheet referenceSheet []).sheets = [referenceSheet] ∧ referenceSheet.IsPlain ∧
    ∃ r, (Call.sheet referenceSheet []).answers .plain = [r] ∧ ShowsReferences {} referenceSheet r := by
  have hone : (Call.sheet referenceSheet []).sheets = [referenceSheet] := rfl
  have hplain : referenceSheet.IsPlain := by decide +kernel
  exact ⟨hone, hplain, Call.showsReferences .plain _ hone hplain⟩

example : ((Call.sheet referenceSheet []).answers .plain).map (·.statistics.circular) = [2] := by decide +kernel

end Spreadsheet
