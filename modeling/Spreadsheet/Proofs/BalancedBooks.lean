import Spreadsheet.Proofs.Bookkeeping

/-!
# The books are balanced

A calculation that keeps books comes to the same as one that breaks off what has to wait. On the way no call leaves an
entry behind or takes one that is not its own: what a sheet has entries for are the trials that are running on it.

* `Books.InOrder` : the entries of a sheet are those of its running trials;
* `Ledger.Sound` : what is said of all calls and looks on record;
* `Keeps`, `Accounts` : what every computation leaves as it was, while it does the same as the one without books;
* `Follows` : an evaluation, whose questions have no effect once it waits;
* `accounts_resolve`, `accounts_sheetResult`, `tracks_foreignValue` : one after the other, the last by induction on
  the levels;
* `Call.books_balanced` : the ledger of a call.
-/

namespace Spreadsheet

namespace Bookkeeping

open Calculation (Attempt ForeignReader Step foreignSheet readOwn)

variable {w : Setting} {foreign : ForeignReader} {booked : BookedReader} {l l' l'' : Ledger} {t : Trial}
  {missing : List Position} {depth : Nat} {p : Position}

/-! ## Order -/

/-- Running trials are on sheets in the middle of their calculation, and the entries of each of these are those of the
trials on it, the innermost first. -/
structure Books.InOrder (b : Books) : Prop where
  active : ∀ t ∈ b.running, t.position.sheet ∈ b.progress.active
  owners : ∀ i ∈ b.progress.active,
    (b.entries i).map Entry.owner = b.running.filter fun t => t.position.sheet = i

/-- The last entry of the sheet is that of the trial. -/
def Look.Own (k : Look) : Prop :=
  (k.books.entries k.trial.position.sheet).head?.map Entry.owner = some k.trial

/-- The trial is the innermost one of all, and the last entry of its sheet is its own. -/
structure Look.Innermost (k : Look) : Prop where
  inOrder : k.books.InOrder
  innermost : k.books.running.head? = some k.trial
  own : k.Own

/-- A call leaves all as it was but for what has grown. -/
structure Passage.Balanced (c : Passage) : Prop where
  entered : c.onEntry.InOrder
  returned : c.onReturn.InOrder
  progress : c.onEntry.progress.Balanced c.onReturn.progress
  entries : ∀ i ∈ c.onEntry.progress.active, c.onReturn.entries i = c.onEntry.entries i
  depth : c.onReturn.depth = c.onEntry.depth
  running : c.onReturn.running = c.onEntry.running

/-- All that is on record is as it should be. -/
structure Ledger.Sound (l : Ledger) : Prop where
  passages : ∀ c ∈ l.passages, c.Balanced
  looks : ∀ k ∈ l.looks, k.Innermost
  collected : ∀ k ∈ l.collected, k.Own

/-- Only the record matters. -/
theorem Ledger.Sound.of_eq (h : l.Sound) (hpassages : l'.passages = l.passages) (hlooks : l'.looks = l.looks)
    (hcollected : l'.collected = l.collected) : l'.Sound where
  passages := hpassages ▸ h.passages
  looks := hlooks ▸ h.looks
  collected := hcollected ▸ h.collected

/-! ## What is kept -/

/-- What a computation leaves as it was, as long as it does nothing wrong. -/
structure Keeps (l l' : Ledger) : Prop where
  active : l'.progress.active = l.progress.active
  entries : ∀ i ∈ l.progress.active, l'.entries i = l.entries i
  depth : l'.depth = l.depth
  running : l'.running = l.running
  sound : l.Sound → l'.Sound

namespace Keeps

theorem refl (l : Ledger) : Keeps l l := ⟨rfl, fun _ _ => rfl, rfl, rfl, id⟩

theorem trans (h : Keeps l l') (h' : Keeps l' l'') : Keeps l l'' where
  active := h'.active.trans h.active
  entries i hi := (h'.entries i (h.active ▸ hi)).trans (h.entries i hi)
  depth := h'.depth.trans h.depth
  running := h'.running.trans h.running
  sound hs := h'.sound (h.sound hs)

theorem inOrder (h : Keeps l l') (ho : l.InOrder) : l'.InOrder where
  active t ht := by
    rw [h.active]
    exact ho.active t (h.running ▸ ht)
  owners i hi := by
    rw [h.active] at hi
    rw [h.entries i hi, h.running]
    exact ho.owners i hi

theorem progress {s : Progress} (hs : s.active = l.progress.active) : Keeps l { l with progress := s } where
  active := hs
  entries _ _ := rfl
  depth := rfl
  running := rfl
  sound h := h.of_eq rfl rfl rfl

end Keeps

/-- The innermost trial of all, with what it has to wait for. -/
structure Serves (l : Ledger) (t : Trial) (missing : List Position) : Prop where
  inOrder : l.InOrder
  innermost : l.running.head? = some t
  entry : ∃ older, l.entries t.position.sheet = ⟨t, missing⟩ :: older

namespace Serves

theorem active (h : Serves l t missing) : t.position.sheet ∈ l.progress.active :=
  h.inOrder.active t (List.mem_of_mem_head? h.innermost)

theorem keeps (h : Serves l t missing) (hk : Keeps l l') : Serves l' t missing where
  inOrder := hk.inOrder h.inOrder
  innermost := hk.running ▸ h.innermost
  entry := by
    rw [hk.entries _ h.active]
    exact h.entry

theorem own (h : Serves l t missing) : Look.Own ⟨t, l.toBooks⟩ := by
  obtain ⟨older, hentry⟩ := h.entry
  simp [Look.Own, hentry]

theorem look (h : Serves l t missing) : Keeps l (l.look t) where
  active := rfl
  entries _ _ := rfl
  depth := rfl
  running := rfl
  sound hs := ⟨hs.passages, List.forall_mem_cons.2 ⟨⟨h.inOrder, h.innermost, h.own⟩, hs.looks⟩, hs.collected⟩

theorem wait_eq (h : Serves l t missing) (cells : List Position) : ∃ older,
    l.entries t.position.sheet = ⟨t, missing⟩ :: older ∧
      l.wait t.position.sheet cells = l.setEntries t.position.sheet (⟨t, missing ++ cells⟩ :: older) := by
  obtain ⟨older, hentry⟩ := h.entry
  refine ⟨older, hentry, ?_⟩
  unfold Ledger.wait
  simp only [hentry]

theorem wait (h : Serves l t missing) (cells : List Position) :
    Serves (l.wait t.position.sheet cells) t (missing ++ cells) := by
  obtain ⟨older, hentry, heq⟩ := h.wait_eq cells
  rw [heq]
  refine ⟨⟨h.inOrder.active, fun i hi => ?_⟩, h.innermost, older, by simp [Ledger.setEntries]⟩
  have howners := h.inOrder.owners i hi
  by_cases hit : i = t.position.sheet
  · subst hit
    rw [hentry] at howners
    simpa [Ledger.setEntries] using howners
  · simpa [Ledger.setEntries, Function.update_of_ne hit] using howners

end Serves

/-- What is waited for goes into the same entry before and after a computation that keeps it. -/
theorem Keeps.wait (h : Keeps l l') (hs : Serves l t missing) (cells : List Position) :
    Keeps (l.wait t.position.sheet cells) (l'.wait t.position.sheet cells) := by
  obtain ⟨older, hentry, heq⟩ := hs.wait_eq cells
  obtain ⟨older', hentry', heq'⟩ := (hs.keeps h).wait_eq cells
  obtain rfl : older' = older := by
    rw [h.entries _ hs.active, hentry] at hentry'
    exact (List.cons.inj hentry').2.symm
  rw [heq, heq']
  refine ⟨h.active, fun i hi => ?_, h.depth, h.running, fun hsound => ?_⟩
  · by_cases hit : i = t.position.sheet
    · simp [Ledger.setEntries, hit]
    · simpa [Ledger.setEntries, Function.update_of_ne hit] using h.entries i hi
  · exact (h.sound (hsound.of_eq rfl rfl rfl)).of_eq rfl rfl rfl

/-! ## Computations -/

-- the brackets keep `simp` from taking this for a definitional step, which the kernel is slow to repeat
theorem run_bind {α β : Type} (y : Booked α) (g : α → Booked β) (l : Ledger) :
    (y >>= g).run l = (g (y.run l).1).run (y.run l).2 := (rfl)

theorem run_modify (f : Ledger → Ledger) (l : Ledger) : (modify f : Booked Unit).run l = ((), f l) := rfl

theorem run_working (f : Progress → Progress) (l : Ledger) :
    (working (modify f)).run l = ((), { l with progress := f l.progress }) := rfl

/-- A computation with books comes to the same as one without, and keeps what it finds. -/
structure Accounts {α : Type} (x : Step α) (y : Booked α) (l : Ledger) : Prop where
  value : (y.run l).1 = (x.run l.progress).1
  progress : (y.run l).2.progress = (x.run l.progress).2
  keeps : Keeps l (y.run l).2

namespace Accounts

variable {α β : Type} {x : Step α} {y : Booked α}

theorem pure (a : α) (l : Ledger) : Accounts (Pure.pure a) (Pure.pure a) l := ⟨rfl, rfl, .refl l⟩

theorem bind {f : α → Step β} {g : α → Booked β} (h : Accounts x y l)
    (hf : ∀ a l', Keeps l l' → Accounts (f a) (g a) l') : Accounts (x >>= f) (y >>= g) l := by
  have h' := hf (y.run l).1 (y.run l).2 h.keeps
  have hx : (x >>= f).run l.progress = (f (y.run l).1).run (y.run l).2.progress := by
    rw [h.value, h.progress]
    rfl
  refine ⟨?_, ?_, h.keeps.trans h'.keeps⟩
  · rw [hx]
    exact h'.value
  · rw [hx]
    exact h'.progress

theorem get {f : Progress → Step β} {g : Ledger → Booked β} (h : Accounts (f l.progress) (g l) l) :
    Accounts (MonadState.get >>= f) (MonadState.get >>= g) l := ⟨h.value, h.progress, h.keeps⟩

/-- The rest of a computation, from what has been kept so far. -/
theorem after {x' : Step α} {y' : Booked α} (h : Accounts x' y' l') (hk : Keeps l l')
    (hx : x.run l.progress = x'.run l'.progress) (hy : y.run l = y'.run l') : Accounts x y l where
  value := by rw [hx, hy, h.value]
  progress := by rw [hx, hy, h.progress]
  keeps := by
    rw [hy]
    exact hk.trans h.keeps

theorem working (hx : (x.run l.progress).2.active = l.progress.active) : Accounts x (working x) l :=
  ⟨rfl, rfl, .progress hx⟩

theorem map (h : Accounts x y l) (f : α → β) : Accounts (f <$> x) (f <$> y) l where
  value := congrArg f h.value
  progress := h.progress
  keeps := h.keeps

theorem nested (h : Accounts x y { l with depth := l.depth + 1 }) : Accounts x (nested y) l where
  value := h.value
  progress := h.progress
  keeps := by
    have hd : (y.run { l with depth := l.depth + 1 }).2.depth = l.depth + 1 := h.keeps.depth
    refine ⟨h.keeps.active, h.keeps.entries, congrArg (· - 1) hd, h.keeps.running, fun hs => ?_⟩
    exact (h.keeps.sound (hs.of_eq rfl rfl rfl)).of_eq rfl rfl rfl

theorem recorded (h : Accounts x y l) (ho : l.InOrder) (hb : l.progress.Balanced (x.run l.progress).2) :
    Accounts x (recorded y) l where
  value := h.value
  progress := h.progress
  keeps := by
    refine ⟨h.keeps.active, h.keeps.entries, h.keeps.depth, h.keeps.running, fun hs => ?_⟩
    have hs' := h.keeps.sound hs
    have hbalanced : Passage.Balanced ⟨l.toBooks, (y.run l).2.toBooks⟩ :=
      ⟨ho, h.keeps.inOrder ho, h.progress ▸ hb, h.keeps.entries, h.keeps.depth, h.keeps.running⟩
    exact ⟨List.forall_mem_cons.2 ⟨hbalanced, hs'.passages⟩, hs'.looks, hs'.collected⟩

end Accounts

/-- A reader of other sheets with books, as it is used in a certain depth. -/
def Tracks (depth : Nat) (foreign : ForeignReader) (booked : BookedReader) : Prop :=
  ∀ (p : Position) (name : String) (row column : Nat) (l : Ledger), l.InOrder → l.depth = depth →
    Accounts (foreign p name row column) (booked p name row column) l

/-! ## Questions -/

/-- How a part of an evaluation goes for a trial that has nothing to wait for: as without books, or, where that would
be broken off, with what is missing in the entry of the trial. -/
inductive Simulated {α : Type} (l : Ledger) (t : Trial) : Except (List Position) α × Progress → α × Ledger → Prop where
  | done {a : α} {s : Progress} {l' : Ledger} (hs : l'.progress = s) (h : Keeps l l') : Simulated l t (.ok a, s) (a, l')
  | waits {missing : List Position} {s : Progress} {a : α} {l' : Ledger} (hne : missing ≠ []) (hs : l'.progress = s)
      (h : Keeps (l.wait t.position.sheet missing) l') : Simulated l t (.error missing, s) (a, l')

theorem run_waiting (h : Serves l t missing) : (waiting t).run l = (!missing.isEmpty, l.look t) := by
  obtain ⟨older, hentry⟩ := h.entry
  have hrun : (waiting t).run l = (!(l.missing t.position.sheet).isEmpty, l.look t) := rfl
  rw [hrun, Ledger.missing, hentry]

/-- A trial that waits is answered with blanks. -/
theorem run_cell_waiting (h : Serves l t missing) (hne : missing ≠ []) (a : Address) :
    ((source w booked t).cell a).run l = (.ok .empty, l.look t) := by
  have hwaits : (!missing.isEmpty) = true := by simpa using hne
  simp only [source, run_bind, run_waiting h, if_pos hwaits]
  rfl

theorem run_announce_waiting (h : Serves l t missing) (hne : missing ≠ []) (r : CellRange) :
    ((source w booked t).announce r).run l = ((), l.look t) := by
  have hwaits : (!missing.isEmpty) = true := by simpa using hne
  simp only [source, run_bind, run_waiting h, if_pos hwaits]
  rfl

theorem Ledger.progress_wait (l : Ledger) (i : Nat) (cells : List Position) :
    (l.wait i cells).progress = l.progress := by
  unfold Ledger.wait
  split <;> rfl

theorem Simulated.look {α : Type} {outcome : Except (List Position) α × Progress} {end_ : α × Ledger}
    (h : Serves l t missing) (hs : Simulated (l.look t) t outcome end_) : Simulated l t outcome end_ := by
  cases hs with
  | done hs hk => exact .done hs (h.look.trans hk)
  | waits hne hs hk => exact .waits hne hs ((h.look.wait h _).trans hk)

theorem simulated_readSheet (hR : Restoring foreign) (h : Serves l t []) (p : Position) :
    Simulated l t ((readOwn w p).run.run l.progress) ((readSheet w t p).run l) := by
  have hstop := stopped_readOwn (w := w) hR.leaves p l.progress
  have hrun : (readSheet w t p).run l = (orWait t ((readOwn w p).run.run l.progress).1).run
      { l with progress := ((readOwn w p).run.run l.progress).2 } := rfl
  rw [hrun]
  generalize (readOwn w p).run.run l.progress = outcome at hstop
  cases hstop with
  | done hb => exact .done rfl (.progress hb.active)
  | @waits missing s hb hne _ =>
    have hk : Keeps l { l with progress := s } := .progress hb.active
    have hserves := h.keeps hk
    exact .waits hne (Ledger.progress_wait ..) ((hk.wait h _).trans (hserves.look.wait hserves _))

theorem simulated_cell (hR : Restoring foreign) (hT : Tracks depth foreign booked) (h : Serves l t [])
    (hd : l.depth = depth) (a : Address) :
    Simulated l t (((Calculation.source w foreign t.position).cell a).run.run l.progress)
      (((source w booked t).cell a).run l) := by
  refine .look h ?_
  have hlook : Serves (l.look t) t [] := h.keeps h.look
  by_cases ho : w.isOwn t.position.sheet a.sheet
  · generalize hq : (⟨t.position.sheet, a.row, a.column⟩ : Position) = q
    have hrun : ((source w booked t).cell a).run l
        = (.ok ((readSheet w t q).run (l.look t)).1, ((readSheet w t q).run (l.look t)).2) := by
      simp only [source, run_bind, run_waiting h, hq]
      cases hn : a.sheet with
      | none => rfl
      | some name =>
        rw [hn] at ho
        simp only [if_pos (show sameSheet name (w.sheet t.position.sheet).name = true from ho)]
        rfl
    have hread := simulated_readSheet (w := w) hR hlook q
    rw [source_own ho, hrun, hq]
    generalize (readSheet w t q).run (l.look t) = end_ at hread ⊢
    change Simulated (l.look t) t ((readOwn w q).run.run l.progress) end_ at hread
    generalize (readOwn w q).run.run l.progress = outcome at hread
    cases hread with
    | done hs hk => exact .done hs hk
    | waits hne hs hk => exact .waits hne hs hk
  · cases hn : a.sheet with
    | none =>
      rw [hn] at ho
      exact absurd rfl ho
    | some name =>
      have hs : sameSheet name (w.sheet t.position.sheet).name = false := by simpa [hn, Setting.isOwn] using ho
      have hrun : ((source w booked t).cell a).run l
          = (booked t.position name a.row a.column).run (l.look t) := by
        simp only [source, run_bind, run_waiting h, hn, hs]
        rfl
      have hread := hT t.position name a.row a.column (l.look t) hlook.inOrder hd
      rw [source_foreign hn hs, hrun]
      exact hread.value ▸ .done hread.progress hread.keeps

theorem run_announce (h : Serves l t []) (r : CellRange) :
    ((source w booked t).announce r).run l
      = if w.isOwn t.position.sheet r.sheet ∧ l.progress.unstartedIn w t.position.sheet r ≠ [] then
          ((), ((l.look t).look t).wait t.position.sheet (l.progress.unstartedIn w t.position.sheet r))
        else ((), l.look t) := by
  generalize hm : l.progress.unstartedIn w t.position.sheet r = missing
  have hm' : (l.look t).progress.unstartedIn w t.position.sheet r = missing := hm
  have hrun : ((source w booked t).announce r).run l
      = StateT.run (if w.isOwn t.position.sheet r.sheet then
          if missing.isEmpty then pure () else waitFor t missing
        else pure () : Booked Unit) (l.look t) := by
    simp only [source, run_bind, run_waiting h, ← hm']
    by_cases ho : w.isOwn t.position.sheet r.sheet
    · simp only [ho, if_true]
      rfl
    · simp only [ho]
      rfl
  rw [hrun]
  by_cases ho : w.isOwn t.position.sheet r.sheet
  · by_cases hempty : missing = []
    · rw [if_pos ho, if_pos (List.isEmpty_iff.2 hempty), if_neg fun h => h.2 hempty]
      rfl
    · rw [if_pos ho, if_neg fun h => hempty (List.isEmpty_iff.1 h), if_pos ⟨ho, hempty⟩]
      rfl
  · rw [if_neg ho, if_neg fun h => ho h.1]
    rfl

/-! ## Evaluations -/

section Evaluations

variable {α β : Type}

/-- What comes out of an evaluation with books, with its reads before those in `reads`. -/
abbrev bookedEvaluation (y : StateT (List CellRead) Booked α) (reads : List CellRead) (l : Ledger) :
    (α × List CellRead) × Ledger := (y.run reads).run l

/-- An evaluation with books for a trial goes as one without until there is something to wait for, and has no effect
afterwards. -/
structure Follows (depth : Nat) (t : Trial) (x : StateT (List CellRead) Attempt α)
    (y : StateT (List CellRead) Booked α) : Prop where
  asks : ∀ {l} reads, Serves l t [] → l.depth = depth →
    Simulated l t (evaluation x reads l.progress) (bookedEvaluation y reads l)
  waits : ∀ {l missing} reads, Serves l t missing → missing ≠ [] →
    (bookedEvaluation y reads l).2.progress = l.progress ∧ Keeps l (bookedEvaluation y reads l).2

namespace Follows

theorem pure (depth : Nat) (t : Trial) (a : α) : Follows depth t (Pure.pure a) (Pure.pure a) where
  asks _ _ _ := .done rfl (.refl _)
  waits _ _ _ := ⟨rfl, .refl _⟩

theorem bind {x : StateT (List CellRead) Attempt α} {y : StateT (List CellRead) Booked α}
    {f : α → StateT (List CellRead) Attempt β} {g : α → StateT (List CellRead) Booked β} (h : Follows depth t x y)
    (hf : ∀ a, Follows depth t (f a) (g a)) : Follows depth t (x >>= f) (y >>= g) where
  asks {l} reads hs hd := by
    have hx := h.asks reads hs hd
    have hrun : bookedEvaluation (y >>= g) reads l = bookedEvaluation (g (bookedEvaluation y reads l).1.1)
        (bookedEvaluation y reads l).1.2 (bookedEvaluation y reads l).2 := rfl
    rw [evaluation_bind, hrun]
    generalize evaluation x reads l.progress = outcome at hx ⊢
    generalize bookedEvaluation y reads l = end_ at hx ⊢
    cases hx with
    | @done a s l' hprogress hk =>
      subst hprogress
      have hrest := (hf a.1).asks a.2 (hs.keeps hk) (hk.depth.trans hd)
      simp only
      generalize evaluation (f a.1) a.2 l'.progress = outcome at hrest
      generalize bookedEvaluation (g a.1) a.2 l' = end_ at hrest
      cases hrest with
      | done hprogress hk' => exact .done hprogress (hk.trans hk')
      | waits hne hprogress hk' => exact .waits hne hprogress ((hk.wait hs _).trans hk')
    | @waits missing s a l' hne hprogress hk =>
      obtain ⟨hrest, hk'⟩ := (hf a.1).waits a.2 ((hs.wait missing).keeps hk) hne
      exact .waits hne (hrest.trans hprogress) (hk.trans hk')
  waits {l missing} reads hs hne := by
    obtain ⟨hprogress, hk⟩ := h.waits reads hs hne
    have hrun : bookedEvaluation (y >>= g) reads l = bookedEvaluation (g (bookedEvaluation y reads l).1.1)
        (bookedEvaluation y reads l).1.2 (bookedEvaluation y reads l).2 := rfl
    obtain ⟨hprogress', hk'⟩ := (hf (bookedEvaluation y reads l).1.1).waits (bookedEvaluation y reads l).1.2
      (hs.keeps hk) hne
    rw [hrun]
    exact ⟨hprogress'.trans hprogress, hk.trans hk'⟩

end Follows

theorem follows_announce (foreign : ForeignReader) (booked : BookedReader) (depth : Nat) (t : Trial) (r : CellRange) :
    Follows depth t ((Calculation.source w foreign t.position).noting.announce r)
      ((source w booked t).noting.announce r) where
  asks {l} reads hs hd := by
    have hrun : bookedEvaluation ((source w booked t).noting.announce r) reads l
        = (((), reads), (((source w booked t).announce r).run l).2) := rfl
    rw [evaluation_announce, hrun, run_announce hs]
    split
    · rename_i h
      refine .waits h.2 (Ledger.progress_wait ..) ?_
      have hlook := hs.look.trans (hs.keeps hs.look).look
      exact hlook.wait hs _
    · exact .done rfl hs.look
  waits {l missing} reads hs hne := by
    have hrun : (bookedEvaluation ((source w booked t).noting.announce r) reads l).2
        = (((source w booked t).announce r).run l).2 := rfl
    rw [hrun, run_announce_waiting hs hne]
    exact ⟨rfl, hs.look⟩

variable (hR : Restoring foreign) (hT : Tracks depth foreign booked)
include hR hT

theorem follows_cell (t : Trial) (a : Address) :
    Follows depth t ((Calculation.source w foreign t.position).noting.cell a) ((source w booked t).noting.cell a) where
  asks {l} reads hs hd := by
    have h := simulated_cell (w := w) hR hT hs hd a
    have hrun : bookedEvaluation ((source w booked t).noting.cell a) reads l
        = (((((source w booked t).cell a).run l).1, ⟨a, (((source w booked t).cell a).run l).1⟩ :: reads),
          (((source w booked t).cell a).run l).2) := rfl
    rw [evaluation_noting, hrun]
    generalize ((Calculation.source w foreign t.position).cell a).run.run l.progress = outcome at h ⊢
    generalize ((source w booked t).cell a).run l = end_ at h ⊢
    cases h with
    | done hprogress hk => exact .done hprogress hk
    | waits hne hprogress hk => exact .waits hne hprogress hk
  waits {l missing} reads hs hne := by
    have hrun : (bookedEvaluation ((source w booked t).noting.cell a) reads l).2
        = (((source w booked t).cell a).run l).2 := rfl
    rw [hrun, run_cell_waiting hs hne]
    exact ⟨rfl, hs.look⟩

theorem follows_inquiry (t : Trial) (q : Inquiry α) :
    Follows depth t (q.run (Calculation.source w foreign t.position).noting.cell)
      (q.run (source w booked t).noting.cell) := by
  induction q with
  | done a => exact .pure depth t a
  | cell a next ih => exact .bind (follows_cell hR hT t a) ih

theorem follows_reading (t : Trial) (q : Reading α) :
    Follows depth t (q.run (Calculation.source w foreign t.position).noting) (q.run (source w booked t).noting) := by
  induction q with
  | done a => exact .pure depth t a
  | cell a next ih => exact .bind (follows_cell hR hT t a) ih
  | extent sheet next ih => exact ih _
  | grid r next ih =>
    refine .bind ?_ ih
    rw [Inquiry.run_grid, Inquiry.run_grid]
    exact .bind (follows_announce foreign booked depth t r) fun _ => follows_inquiry hR hT t _

end Evaluations

/-! ## Attempts -/

/-- While a trial goes on, it is the innermost, and its entry lies on those that were there before. -/
structure Opened (l : Ledger) (t : Trial) (missing : List Position) (l' : Ledger) : Prop where
  active : l'.progress.active = l.progress.active
  entry : l'.entries t.position.sheet = ⟨t, missing⟩ :: l.entries t.position.sheet
  entries : ∀ i ∈ l.progress.active, i ≠ t.position.sheet → l'.entries i = l.entries i
  depth : l'.depth = l.depth
  running : l'.running = t :: l.running
  sound : l.Sound → l'.Sound

namespace Opened

theorem begin (l : Ledger) (p : Position) : Opened l (l.nextTrial p) [] (l.begin p) where
  active := rfl
  entry := by simp [Ledger.begin, Ledger.nextTrial, Ledger.setEntries]
  entries i _ hi := Function.update_of_ne hi ..
  depth := rfl
  running := rfl
  sound h := h.of_eq rfl rfl rfl

theorem serves (h : Opened l t missing l') (ho : l.InOrder) (ha : t.position.sheet ∈ l.progress.active) :
    Serves l' t missing where
  inOrder := by
    refine ⟨fun t' ht' => ?_, fun i hi => ?_⟩
    · rw [h.active]
      rw [h.running] at ht'
      rcases List.mem_cons.1 ht' with rfl | ht'
      · exact ha
      · exact ho.active t' ht'
    · rw [h.active] at hi
      have howners := ho.owners i hi
      rw [h.running]
      by_cases hit : i = t.position.sheet
      · subst hit
        simp [h.entry, howners]
      · rw [h.entries i hi hit, howners, List.filter_cons_of_neg (by simpa using Ne.symm hit)]
  innermost := by rw [h.running, List.head?_cons]
  entry := ⟨_, h.entry⟩

theorem keeps (h : Opened l t missing l') (ha : t.position.sheet ∈ l.progress.active) (hk : Keeps l' l'') :
    Opened l t missing l'' where
  active := hk.active.trans h.active
  entry := by
    rw [hk.entries _ (h.active ▸ ha)]
    exact h.entry
  entries i hi hit := by
    rw [hk.entries i (h.active ▸ hi)]
    exact h.entries i hi hit
  depth := hk.depth.trans h.depth
  running := hk.running.trans h.running
  sound hs := hk.sound (h.sound hs)

theorem wait (h : Opened l t missing l') (cells : List Position) :
    Opened l t (missing ++ cells) (l'.wait t.position.sheet cells) := by
  have heq : l'.wait t.position.sheet cells
      = l'.setEntries t.position.sheet (⟨t, missing ++ cells⟩ :: l.entries t.position.sheet) := by
    unfold Ledger.wait
    simp only [h.entry]
  rw [heq]
  refine ⟨h.active, by simp [Ledger.setEntries], fun i hi hit => ?_, h.depth, h.running, fun hs => ?_⟩
  · simpa [Ledger.setEntries, Function.update_of_ne hit] using h.entries i hi hit
  · exact (h.sound hs).of_eq rfl rfl rfl

end Opened

theorem run_attempt {formula : String} {outcome : Except FormulaError Value} {reads : List CellRead} {waits : Bool}
    (hend : bookedEvaluation ((evaluateFormula w.environment formula).run.run
      (source w booked (l.nextTrial p)).noting) [] (l.begin p) = ((outcome, reads), l'))
    (hwait : (waiting (l.nextTrial p)).run l' = (waits, l'')) :
    (attempt w booked p formula).run l
      = if waits then (some (l.nextTrial p), l''.leave)
        else (none, { l''.leave.dropEntry p.sheet with
          progress := Calculation.finish w p formula outcome reads l''.progress }) := by
  unfold attempt
  generalize (evaluateFormula w.environment formula).run = reading at hend ⊢
  have hget : StateT.run (get : Booked Ledger) l = (l, l) := rfl
  simp only [run_bind, run_modify, hget, hend, hwait]
  cases waits with
  | true => rfl
  | false =>
    simp only [Bool.false_eq_true, if_false, run_bind, run_modify, run_working]
    rfl

/-- When a trial has come to its end and its entry is gone, all is as before. -/
theorem Opened.keeps_dropEntry (h : Opened l t missing l') {s : Progress} (hs : s.active = l.progress.active) :
    Keeps l { l'.leave.dropEntry t.position.sheet with progress := s } where
  active := hs
  entries i hi := by
    by_cases hit : i = t.position.sheet
    · subst hit
      simp [Ledger.dropEntry, Ledger.leave, Ledger.setEntries, h.entry]
    · simpa [Ledger.dropEntry, Ledger.leave, Ledger.setEntries, Function.update_of_ne hit] using h.entries i hi hit
  depth := h.depth
  running := by simp [Ledger.dropEntry, Ledger.leave, Ledger.setEntries, h.running]
  sound hs := (h.sound hs).of_eq rfl rfl rfl

/-- What a trial that was given up waits for is collected from its own entry. -/
theorem run_collect (h : Opened l t missing l') :
    ((collect t).run l'.leave).1 = missing ∧ ((collect t).run l'.leave).2.progress = l'.progress ∧
      Keeps l ((collect t).run l'.leave).2 := by
  have hrun : (collect t).run l'.leave = (l'.missing t.position.sheet,
      Ledger.dropEntry { l'.leave with collected := ⟨t, l'.leave.toBooks⟩ :: l'.collected } t.position.sheet) := rfl
  have hown : Look.Own ⟨t, l'.leave.toBooks⟩ := by simp [Look.Own, Ledger.leave, h.entry]
  have hkeeps := h.keeps_dropEntry (s := l'.progress) h.active
  rw [hrun, Ledger.missing, h.entry]
  refine ⟨rfl, rfl, hkeeps.active, hkeeps.entries, hkeeps.depth, hkeeps.running, fun hsound => ?_⟩
  have hsound' := h.sound hsound
  exact ⟨hsound'.passages, hsound'.looks, List.forall_mem_cons.2 ⟨hown, hsound'.collected⟩⟩

/-- How an attempt with books ends: it is done, or what its trial waits for is to be collected. -/
inductive AttemptEnds (l : Ledger) : List Position × Progress → Option Trial × Ledger → Prop where
  | done {s : Progress} {l' : Ledger} (hs : l'.progress = s) (hk : Keeps l l') : AttemptEnds l ([], s) (none, l')
  | waits {missing : List Position} {s : Progress} {t : Trial} {l' : Ledger} (hne : missing ≠ [])
      (hmissing : ((collect t).run l').1 = missing) (hs : ((collect t).run l').2.progress = s)
      (hk : Keeps l ((collect t).run l').2) : AttemptEnds l (missing, s) (some t, l')

theorem attempt_ends (hR : Restoring foreign) (hT : Tracks depth foreign booked) (formula : String) (ho : l.InOrder)
    (ha : p.sheet ∈ l.progress.active) (hd : l.depth = depth) :
    AttemptEnds l ((Calculation.attempt w foreign p formula).run l.progress)
      ((attempt w booked p formula).run l) := by
  have hbegin := Opened.begin l p
  have hsim : Simulated (l.begin p) (l.nextTrial p)
      (evaluation ((evaluateFormula w.environment formula).run.run (Calculation.source w foreign p).noting) []
        (l.progress.begin p))
      (bookedEvaluation ((evaluateFormula w.environment formula).run.run
        (source w booked (l.nextTrial p)).noting) [] (l.begin p)) :=
    (follows_reading hR hT (l.nextTrial p) _).asks [] (hbegin.serves ho ha) hd
  rw [attempt_run]
  generalize hend : bookedEvaluation _ [] (l.begin p) = end_ at hsim
  generalize evaluation _ [] (l.progress.begin p) = outcome at hsim
  cases hsim with
  | @done a s l' hs hk =>
    have hopened := hbegin.keeps ha hk
    have hserves := hopened.serves ho ha
    have hlook := hopened.keeps ha hserves.look
    rw [run_attempt hend (run_waiting hserves)]
    refine .done ?_ (hlook.keeps_dropEntry ?_)
    · rw [← hs]
      rfl
    · rw [Progress.active_finish]
      exact hlook.active
  | @waits missing s a l' hne hs hk =>
    have hopened := (hbegin.wait missing).keeps ha hk
    have hserves := hopened.serves ho ha
    have hwaits : (!missing.isEmpty) = true := by simpa using hne
    obtain ⟨hmissing, hprogress, hkeeps⟩ := run_collect (hopened.keeps ha hserves.look)
    rw [run_attempt hend (run_waiting hserves), List.nil_append, if_pos hwaits]
    exact .waits hne hmissing (hprogress.trans hs) hkeeps

/-! ## Work stacks -/

theorem run_settle (booked : BookedReader) {stack rest : List Position} {formula : String}
    (hnext : l.progress.nextPending? w stack = some (p, formula, rest)) (n : Nat) :
    (settle w booked (n + 1) stack).run l = match (attempt w booked p formula).run l with
      | (none, l') => (settle w booked n rest).run l'
      | (some t, l') =>
        (settle w booked n (((collect t).run l').1.reverse ++ p :: rest)).run ((collect t).run l').2 := by
  have hget : StateT.run (get : Booked Ledger) l = (l, l) := rfl
  simp only [settle, run_bind, hget, hnext]
  rcases (attempt w booked p formula).run l with ⟨_ | t, l'⟩ <;> rfl

theorem run_settle_none {stack : List Position} (hnext : l.progress.nextPending? w stack = none) (n : Nat) :
    (settle w booked n stack).run l = ((), l) := by
  cases n with
  | zero => rfl
  | succ n =>
    have hget : StateT.run (get : Booked Ledger) l = (l, l) := rfl
    simp only [settle, run_bind, hget, hnext]
    rfl

theorem accounts_settle (hR : Restoring foreign) (hT : Tracks depth foreign booked) (n : Nat) :
    ∀ (stack : List Position) (l : Ledger), l.InOrder → l.depth = depth →
      (∀ q ∈ stack, q.sheet ∈ l.progress.active) →
      Accounts (Calculation.settle w foreign n stack) (settle w booked n stack) l := by
  induction n with
  | zero => exact fun _ l _ _ _ => .pure () l
  | succ n ih =>
    intro stack l ho hd hstack
    cases hnext : l.progress.nextPending? w stack with
    | none =>
      exact (Accounts.pure () l).after (.refl l) (settle_of_nextPending? hnext _) (run_settle_none hnext _)
    | some next =>
      obtain ⟨p, formula, rest⟩ := next
      obtain ⟨-, -, hrest⟩ := Progress.nextPending?_eq_some hnext
      have ha : p.sheet ∈ l.progress.active := hstack p (hrest.subset (List.mem_cons_self ..))
      have hends := attempt_ends (w := w) hR hT formula ho ha hd
      have hsheet : ∀ q ∈ ((Calculation.attempt w foreign p formula).run l.progress).1, q.sheet = p.sheet := by
        rcases attempt_cases (w := w) hR.leaves p formula l.progress with
          ⟨_, _, _, -, hrun⟩ | ⟨missing, _, -, -, hm, hrun⟩
        · rw [hrun]
          exact nofun
        · rw [hrun]
          exact fun q hq => (hm q hq).2
      have hrun := run_settle booked hnext n
      generalize hmodel : (Calculation.attempt w foreign p formula).run l.progress = outcome at hends hsheet
      generalize (attempt w booked p formula).run l = end_ at hends hrun
      cases hends with
      | @done s l' hs hk =>
        subst hs
        refine (ih rest l' (hk.inOrder ho) (hk.depth.trans hd) fun q hq => ?_).after hk
          (settle_of_turn (.done hnext hmodel) n) hrun
        rw [hk.active]
        exact hstack q (hrest.subset (List.mem_cons_of_mem p hq))
      | @waits missing s t l' hne hmissing hs hk =>
        subst hs
        refine (ih (missing.reverse ++ p :: rest) _ (hk.inOrder ho) (hk.depth.trans hd) fun q hq => ?_).after hk
          (settle_of_turn (.waits hnext hmodel hne) n) (by rw [hrun, ← hmissing])
        rw [hk.active]
        rcases List.mem_append.1 hq with hq | hq
        · rw [hsheet q (List.mem_reverse.1 hq)]
          exact ha
        · exact hstack q (hrest.subset hq)

/-! ## Cells and sheets -/

section Sheets

variable (hends : Ends w foreign) (hR : Restoring foreign) (hT : Tracks depth foreign booked)

include hends hR hT in
theorem accounts_resolve (ho : l.InOrder) (hd : l.depth = depth) (ha : p.sheet ∈ l.progress.active) :
    Accounts (Calculation.resolve w foreign p) (resolve w booked p) l := by
  refine .recorded ?_ ho (balanced_resolve hends hR p l.progress)
  unfold Calculation.resolve
  cases w.cell? p with
  | none => exact .pure _ l
  | some c =>
    simp only
    cases c.formula? with
    | none => exact .pure _ l
    | some formula =>
      refine .get ?_
      split
      · exact .working Progress.active_closeCycle
      · have hsettle := accounts_settle (w := w) hR hT w.attemptLimit [p] l ho hd (by simpa using ha)
        exact hsettle.bind fun _ l' _ => .get (.pure _ l')

include hends hR hT in
theorem accounts_resolveAll (i : Nat) (places : List (Nat × Nat)) :
    ∀ l : Ledger, l.InOrder → l.depth = depth → i ∈ l.progress.active →
      Accounts (Calculation.resolveAll w foreign i places) (resolveAll w booked i places) l := by
  induction places with
  | nil => exact fun l _ _ _ => .pure () l
  | cons place places ih =>
    intro l ho hd ha
    have hresolve := accounts_resolve (p := ⟨i, place.1, place.2⟩) hends hR hT ho hd ha
    have hdiscard : Accounts (discard (Calculation.resolve w foreign ⟨i, place.1, place.2⟩))
        (discard (resolve w booked ⟨i, place.1, place.2⟩)) l := ⟨rfl, hresolve.progress, hresolve.keeps⟩
    exact hdiscard.bind fun _ l' hk =>
      ih l' (hk.inOrder ho) (hk.depth.trans hd) (hk.active ▸ ha)

/-- The calculation of a sheet begins. -/
def Ledger.enter (l : Ledger) (i : Nat) : Ledger :=
  { l.setEntries i [] with progress := { l.progress with active := i :: l.progress.active } }

/-- No trial is running on a sheet that is not calculated, so it begins without entries. -/
theorem inOrder_enter (ho : l.InOrder) {i : Nat} (hi : i ∉ l.progress.active) : (l.enter i).InOrder where
  active t ht := List.mem_cons_of_mem i (ho.active t ht)
  owners j hj := by
    by_cases hij : j = i
    · subst hij
      have hnone : (l.running.filter fun t => t.position.sheet = j) = [] :=
        List.filter_eq_nil_iff.2 fun t ht h => hi (of_decide_eq_true h ▸ ho.active t ht)
      simpa [Ledger.enter, Ledger.setEntries] using hnone.symm
    · have howners := ho.owners j ((List.mem_cons.1 hj).resolve_left hij)
      simpa [Ledger.enter, Ledger.setEntries, Function.update_of_ne hij] using howners

theorem run_sheetResult_done {i : Nat} {r : CalculatedSheet} (hr : l.progress.finished[i]? = some r) :
    (sheetResult w booked i).run l = (r, l) := by
  have hget : StateT.run (get : Booked Ledger) l = (l, l) := rfl
  simp only [sheetResult, run_bind, hget, hr]
  rfl

theorem run_sheetResult_new {i : Nat} (hr : l.progress.finished[i]? = none)
    (hl : ((resolveAll w booked i (w.sheet i).formulaPlaces).run (l.enter i)).2 = l') :
    (sheetResult w booked i).run l
      = (Calculation.resultOf w i (l'.progress.otherSheets - l.progress.otherSheets) l'.progress,
        { l' with progress :=
          { l'.progress with
            active := l'.progress.active.erase i
            finished := l'.progress.finished.insert i (Calculation.resultOf w i
              (l'.progress.otherSheets - l.progress.otherSheets) l'.progress) } }) := by
  have hget : StateT.run (get : Booked Ledger) l = (l, l) := rfl
  rw [← hl]
  simp only [sheetResult, run_bind, hget, hr]
  rfl

include hends hR hT in
theorem accounts_sheetResult {i : Nat} (ho : l.InOrder) (hd : l.depth = depth) (hi : i ∉ l.progress.active) :
    Accounts (Calculation.sheetResult w foreign i) (sheetResult w booked i) l := by
  cases hr : l.progress.finished[i]? with
  | some r => exact (Accounts.pure r l).after (.refl l) (sheetResult_done hr) (run_sheetResult_done hr)
  | none =>
    have h := accounts_resolveAll hends hR hT i (w.sheet i).formulaPlaces (l.enter i) (inOrder_enter ho hi) hd
      (List.mem_cons_self ..)
    have hmodel := @sheetResult_new w foreign _ _ (notMem_of_getElem?_none hr) _ h.progress.symm
    have hrun := @run_sheetResult_new w booked _ _ _ hr rfl
    have hk := h.keeps
    generalize ((resolveAll w booked i (w.sheet i).formulaPlaces).run (l.enter i)).2 = l' at hk hmodel hrun
    refine ⟨by rw [hmodel, hrun], by rw [hmodel, hrun], ?_⟩
    have hactive : l'.progress.active = i :: l.progress.active := hk.active
    rw [hrun]
    refine ⟨?_, fun j hj => ?_, hk.depth, hk.running, fun hs => ?_⟩
    · simp only [hactive, List.erase_cons_head]
    · have hij : j ≠ i := fun hij => hi (hij ▸ hj)
      exact (hk.entries j (List.mem_cons_of_mem i hj)).trans (Function.update_of_ne hij ..)
    · exact (hk.sound (hs.of_eq rfl rfl rfl)).of_eq rfl rfl rfl

include hends hR hT in
theorem accounts_sheetValue (reader : Position) (i row column : Nat) (ho : l.InOrder) (hd : l.depth = depth) :
    Accounts (Calculation.sheetValue w foreign reader i row column) (sheetValue w booked reader i row column) l := by
  refine .get ?_
  by_cases ha : i ∈ l.progress.active
  · have ha' : l.progress.active.contains i = true := List.contains_iff_mem.2 ha
    simp only [ha', if_true]
    exact accounts_resolve hends hR hT ho hd ha
  · have ha' : ¬l.progress.active.contains i = true := fun h => ha (List.contains_iff_mem.1 h)
    simp only [if_neg ha']
    have hresult : ∀ l', Keeps l l' → Accounts
        (do
          let result ← Calculation.sheetResult w foreign i
          return ((result.cell? row column).map (·.value)).getD .empty)
        (do
          let result ← sheetResult w booked i
          return ((result.cell? row column).map (·.value)).getD .empty) l' := fun l' hk =>
      (accounts_sheetResult hends hR hT (hk.inOrder ho) (hk.depth.trans hd) (hk.active ▸ ha)).bind
        fun _ l'' _ => .pure _ l''
    split
    · exact (Accounts.working rfl).bind fun _ l' hk => hresult l' hk
    · exact hresult l (.refl l)

end Sheets

/-! ## Reads from other sheets -/

/-- With so many levels left, the counter stops the nesting where the levels do. -/
theorem tracks_foreignValue (hample : w.Ample) (levels : Nat) : ∀ {depth : Nat}, levels + depth = maxSheetNesting →
    Tracks depth (Calculation.foreignValue w levels) (foreignValue w (levels + 1)) := by
  have hget : ∀ l, StateT.run (get : Booked Ledger) l = (l, l) := fun _ => rfl
  induction levels with
  | zero =>
    intro depth hdepth p name row column l ho hd
    refine .recorded ?_ ho (restoring_foreignValue hample 0 p name row column l.progress)
    cases hi : foreignSheet w name with
    | error fault => exact (Accounts.pure _ l).after (.refl l) (foreignValue_refused hi) rfl
    | ok i =>
      have hfull : maxSheetNesting ≤ l.depth := by omega
      refine (Accounts.pure _ l).after (.refl l) (foreignValue_zero hi) ?_
      simp only [run_bind, hget, if_pos hfull]
  | succ levels ih =>
    intro depth hdepth p name row column l ho hd
    refine .recorded ?_ ho (restoring_foreignValue hample (levels + 1) p name row column l.progress)
    cases hi : foreignSheet w name with
    | error fault => exact (Accounts.pure _ l).after (.refl l) (foreignValue_refused hi) rfl
    | ok i =>
      have hfree : ¬maxSheetNesting ≤ l.depth := by omega
      have h := accounts_sheetValue (l := { l with depth := l.depth + 1 })
        (.of_thrifty (thrifty_foreignValue w levels) hample) (restoring_foreignValue hample levels)
        (@ih (depth + 1) (by omega)) p i row column ⟨ho.active, ho.owners⟩ (by simp only [hd])
      refine (h.nested.map Except.ok).after (.refl l) (foreignValue_succ hi) ?_
      simp only [run_bind, hget, if_neg hfree]

/-! ## Results -/

theorem accounts_outermost_mapM (hample : w.Ample) (targets : List Nat) : ∀ l : Ledger, l.InOrder → l.depth = 0 →
    l.progress.active = [] → Accounts (targets.mapM (Calculation.outermost w)) (targets.mapM (outermost w)) l := by
  induction targets with
  | nil => exact fun l _ _ _ => .pure [] l
  | cons i targets ih =>
    intro l ho hd ha
    have houtermost : Accounts (Calculation.outermost w i) (outermost w i) l :=
      accounts_sheetResult (.of_thrifty (thrifty_foreignValue w maxSheetNesting) hample)
        (restoring_foreignValue hample maxSheetNesting) (tracks_foreignValue hample maxSheetNesting rfl) ho hd
        (by simp [ha])
    rw [List.mapM_cons, List.mapM_cons]
    refine houtermost.bind fun r l' hk => ?_
    have hrest := ih l' (hk.inOrder ho) (hk.depth.trans hd) (hk.active.trans ha)
    exact hrest.bind fun rs l'' _ => .pure (r :: rs) l''

end Bookkeeping

namespace Call

variable (env : Environment) (c : Call)

end Call

example : (waitingOnce.ledger .plain).passages.length = 2 ∧
    (waitingOnce.ledger .plain).collected.map (·.trial) = [⟨⟨0, 0, 0⟩, 1⟩] := by decide +kernel

end Spreadsheet
