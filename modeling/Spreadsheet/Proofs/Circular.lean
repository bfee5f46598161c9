import Spreadsheet.Proofs.Order

/-!
# Formulas on a cycle

The frames of a machine form a path: every formula is going to read the one above it, or caused the sheet above it to
be calculated. So a formula that is read while it is started really lies on a circle, at the latest when all of the
circle is done.

* `Linked` : why each frame stands on the one beneath it (`Linked.move`);
* `Pursued`, `Links` : what a formula has read or is going to read, and what it caused to be calculated
  (`Links.move`);
* `Call.circular_uses` : formulas on a cycle use themselves through others;
* `Call.exists_reads_of_opens` : a sheet is opened only for a formula that reads one of its cells, and none is where
  there is only one (`Call.not_opens`).
-/

namespace Spreadsheet

open Progress (Bound Learns Opens Reads)
open Relation (ReflTransGen TransGen)

variable {w : Setting} {m m' : Machine} {s s' : Progress} {frames : List Frame} {p q : Position}

/-! ## Frames as a path -/

/-- Every frame stands on the one beneath it for a reason. -/
def Linked (w : Setting) (s : Progress) : List Frame → Prop
  | [] => True
  | .formula p _ :: frames => Leads w s frames p ∧ Linked w s frames
  | .sheet i :: frames =>
    (∀ f, frames.head? = some f → ∃ k levels, f = .formula k levels ∧ (k, i) ∈ s.opened) ∧ Linked w s frames

theorem Leads.mono (h : Leads w s frames p) (hl : Learns w s s') : Leads w s' frames p := by
  cases frames with
  | nil => exact h
  | cons f frames =>
    cases f with
    | formula k levels => exact Bound.mono h hl
    | sheet i => exact h

theorem Linked.mono (hl : Learns w s s') (ho : ∀ o ∈ s.opened, o ∈ s'.opened) :
    ∀ {frames : List Frame}, Linked w s frames → Linked w s' frames
  | [], h => h
  | .formula _ _ :: _, ⟨hleads, h⟩ => ⟨hleads.mono hl, h.mono hl ho⟩
  | .sheet _ :: _, ⟨hhead, h⟩ =>
    ⟨fun f hf => (hhead f hf).imp fun _ ⟨levels, he, hk⟩ => ⟨levels, he, ho _ hk⟩, h.mono hl ho⟩

theorem Linked.move (h : Linked w m.progress m.frames) (hv : m.Valid w) (hm : Move w m m') :
    Linked w m'.progress m'.frames := by
  have hgrows := hm.grows hv
  have hlearns := hgrows.learns (hv.move hm)
  have h' := h.mono hlearns hgrows.opened
  cases hm with
  | start _ _ _ _ hl => exact ⟨hl.mono hlearns, h'⟩
  | retry => exact h'
  | close _ _ _ => exact h'
  | finish _ _ => exact h'.2
  | enter _ _ => exact ⟨fun f hf => by simp at hf, h'⟩
  | @visit s frames k q levels _ _ _ =>
    refine ⟨fun f hf => ⟨k, levels, ?_, List.mem_cons_self ..⟩, h'⟩
    simpa using hf.symm
  | leave _ _ => exact h'.2

theorem Runs.linked (hv : m.Valid w) (hr : Runs w m m') (h : Linked w m.progress m.frames) :
    Linked w m'.progress m'.frames := by
  induction hr with
  | refl => exact h
  | tail hr hm ih => exact ih.move (hv.run hr) hm

/-- A formula has read a cell, or is on the stack and going to read it. -/
def Pursued (w : Setting) (m : Machine) (p q : Position) : Prop :=
  Reads w m.progress p q ∨ ∃ levels, .formula p levels ∈ m.frames ∧ Bound w levels m.progress p q

theorem Pursued.move (h : Pursued w m p q) (hv : m.Valid w) (hm : Move w m m') : Pursued w m' p q := by
  have hgrows := hm.grows hv
  have hlearns := hgrows.learns (hv.move hm)
  rcases h with ⟨reads, hreads, hrest⟩ | ⟨levels, hmem, hb⟩
  · exact Or.inl ⟨reads, hgrows.reads p reads hreads, hrest⟩
  · have hkeep : .formula p levels ∈ m'.frames → Pursued w m' p q := fun hmem' =>
      Or.inr ⟨levels, hmem', hb.mono hlearns⟩
    cases hm with
    | start _ _ _ _ _ => exact hkeep (List.mem_cons_of_mem _ hmem)
    | retry => exact hkeep hmem
    | close _ _ _ => exact hkeep hmem
    | @finish s frames k formula l outcome reads hf hr =>
      rcases List.mem_cons.1 hmem with he | hmem
      · -- what the formula was going to read, it has read
        cases he
        obtain ⟨r, hr, hanswer, htarget⟩ := hb.mem_reads hf hr
        refine Or.inl ⟨reads, ?_, r, hr, hanswer, htarget⟩
        rw [Progress.getElem?_reads_finish, if_pos rfl]
      · exact hkeep hmem
    | enter _ _ => exact hkeep (List.mem_cons_of_mem _ hmem)
    | visit _ _ _ => exact hkeep (List.mem_cons_of_mem _ (by simpa using hmem))
    | leave _ _ => exact hkeep ((List.mem_cons.1 hmem).resolve_left nofun)

/-- What a formula reads, or caused to be calculated. -/
def Links (w : Setting) (m : Machine) (p q : Position) : Prop := Pursued w m p q ∨ Opens w m.progress p q

theorem Links.move (h : Links w m p q) (hv : m.Valid w) (hm : Move w m m') : Links w m' p q :=
  h.imp (fun h => h.move hv hm) fun ⟨ho, hf⟩ => ⟨(hm.grows hv).opened _ ho, hf⟩

theorem Machine.Valid.isSome_formula? {levels : Nat} (hv : m.Valid w) (hp : .formula p levels ∈ m.frames) :
    (w.formula? p).isSome :=
  hv.isFormula p (Or.inl ((hv.started p).2 (List.mem_filterMap.2 ⟨_, hp, rfl⟩)))

/-- From every formula on the stack a path leads to the innermost one, and on to whatever that leads to. -/
theorem Linked.path (hv : m.Valid w) (h : Linked w m.progress frames) (hall : ∀ f ∈ frames, f ∈ m.frames)
    {levels : Nat} (hp : .formula p levels ∈ frames) :
    (∀ k l, frames.head? = some (.formula k l) → ReflTransGen (Links w m) p k) ∧
    ∀ q, Leads w m.progress frames q → (w.formula? q).isSome → TransGen (Links w m) p q := by
  induction frames with
  | nil => cases hp
  | cons f frames ih =>
    obtain ⟨hf, hframes⟩ := List.forall_mem_cons.1 hall
    cases f with
    | formula k l =>
      obtain ⟨hleads, hlinked⟩ := h
      have hpath : ReflTransGen (Links w m) p k := by
        rcases List.mem_cons.1 hp with he | hp
        · cases he
          exact .refl
        · exact ((ih hlinked hframes hp).2 k hleads (hv.isSome_formula? hf)).to_reflTransGen
      refine ⟨fun k' l' hk => ?_, fun q hq _ => ?_⟩
      · cases hk
        exact hpath
      · exact .tail' hpath (Or.inl (Or.inr ⟨l, hf, hq⟩))
    | sheet i =>
      obtain ⟨hhead, hlinked⟩ := h
      have hp := (List.mem_cons.1 hp).resolve_left nofun
      refine ⟨fun k l hk => by simp at hk, fun q hq hfq => ?_⟩
      obtain ⟨f, hf⟩ := Option.isSome_iff_exists.1 (List.isSome_head?.2 (List.ne_nil_of_mem hp))
      obtain ⟨k, l, rfl, ho⟩ := hhead f hf
      have hq : q.sheet = i := hq
      exact .tail' ((ih hlinked hframes hp).1 k l hf) (Or.inr ⟨by rw [hq]; exact ho, hfq⟩)

/-! ## Circles -/

/-- Formulas on a cycle lie on a circle of links. -/
theorem Runs.circular_links (hv : m.Valid w) (hr : Runs w m m') (hl : Linked w m.progress m.frames)
    (h : ∀ p ∈ m.progress.circular, TransGen (Links w m) p p) :
    ∀ p ∈ m'.progress.circular, TransGen (Links w m') p p := by
  induction hr with
  | refl => exact h
  | @tail m₁ m₂ hr hm ih =>
    intro p hp
    have hv₁ := hv.run hr
    have hmove : Links w m₁ ≤ Links w m₂ := fun _ _ h => h.move hv₁ hm
    have hstay := TransGen.mono hmove p p
    rcases hm.close_cases hp with hp | ⟨s, frames, k, levels, formula, rfl, -, hf, hs, hb⟩
    · exact hstay (ih p hp)
    · obtain ⟨f, hmem, hfp⟩ := List.mem_filterMap.1 ((hv₁.started p).1 hs)
      cases f with
      | sheet i => cases hfp
      | formula q l =>
        cases hfp
        have hlinked := Runs.linked hv hr hl
        exact hstay ((hlinked.path hv₁ (fun _ h => h) hmem).2 p hb (by rw [hf]; rfl))

namespace Call

variable (env : Environment) (c : Call)

/-- In the end, formulas on a cycle use themselves through others. -/
theorem circular_uses (hp : p ∈ (c.progress env).circular) :
    TransGen ((c.progress env).Uses (c.setting env)) p p := by
  have h := (c.runs env).circular_links (.initial _) trivial (fun p hp => by simp at hp) p hp
  have huses : Links (c.setting env) ⟨c.progress env, []⟩ ≤ (c.progress env).Uses (c.setting env) :=
    fun p q hl => hl.imp (fun h => h.resolve_right fun ⟨levels, hmem, _⟩ => List.not_mem_nil hmem) id
  exact TransGen.mono huses p p h

end Call

/-! ## Opened sheets -/

/-- A sheet is opened for a formula of another sheet that reads one of its cells. -/
theorem Runs.opened_pursued (hv : m.Valid w) (hr : Runs w m m')
    (h : ∀ p i, (p, i) ∈ m.progress.opened → p.sheet ≠ i ∧ ∃ q, q.sheet = i ∧ Pursued w m p q) :
    ∀ p i, (p, i) ∈ m'.progress.opened → p.sheet ≠ i ∧ ∃ q, q.sheet = i ∧ Pursued w m' p q := by
  induction hr with
  | refl => exact h
  | @tail m₁ m₂ hr hm ih =>
    have hv₁ := hv.run hr
    have hkeep : ∀ {p i}, (p.sheet ≠ i ∧ ∃ q : Position, q.sheet = i ∧ Pursued w m₁ p q) →
        p.sheet ≠ i ∧ ∃ q : Position, q.sheet = i ∧ Pursued w m₂ p q := fun ⟨hne, q, hq, hp⟩ =>
      ⟨hne, q, hq, hp.move hv₁ hm⟩
    intro p i hp
    refine hkeep ?_
    cases hm with
    | start _ _ _ _ _ => exact ih p i hp
    | retry => exact ih p i hp
    | close _ _ _ => exact ih p i (by simpa using hp)
    | finish _ _ => exact ih p i (by simpa using hp)
    | enter _ _ => exact ih p i hp
    | @visit s frames k q levels ha _ hb =>
      rcases List.mem_cons.1 hp with hp | hp
      · rw [Prod.mk.injEq] at hp
        obtain ⟨rfl, rfl⟩ := hp
        refine ⟨fun he => ha ?_, q, rfl, Or.inr ⟨levels, List.mem_cons_self .., hb⟩⟩
        rw [← he]
        exact hv₁.mem_active hv₁.mem_started
      · exact ih p i hp
    | leave _ _ => exact ih p i hp

namespace Call

variable (env : Environment) (c : Call)

/-- A sheet was opened for a formula of another sheet that has read one of its cells. -/
theorem exists_reads_of_opens (h : Opens (c.setting env) (c.progress env) p q) :
    p.sheet ≠ q.sheet ∧ ∃ q', q'.sheet = q.sheet ∧ Reads (c.setting env) (c.progress env) p q' := by
  obtain ⟨hne, q', hq', hp⟩ := (c.runs env).opened_pursued (.initial _) (fun p i hp => by simp at hp) p q.sheet h.1
  exact ⟨hne, q', hq', hp.resolve_right fun ⟨levels, hmem, _⟩ => List.not_mem_nil hmem⟩

/-- Where there is only one sheet, none is opened. -/
theorem not_opens (hone : c.sheets.length = 1) : ¬Opens (c.setting env) (c.progress env) p q := by
  intro h
  have hp := (c.valid env).isFormula p (Or.inr (c.mem_values_of_uses env (Or.inr h)))
  have hp := Setting.sheet_lt_of_formula? hp
  have hq := Setting.sheet_lt_of_formula? h.2
  rw [size_sheets, hone] at hp hq
  exact (c.exists_reads_of_opens env h).1 (by omega)

end Call

end Spreadsheet
