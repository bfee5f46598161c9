import Mathlib.Data.List.Cycle
import Mathlib.Data.Set.Card
import Mathlib.Dynamics.PeriodicPts.Defs
import Mathlib.Logic.Relation

/-!
# Graphs with one way out

In a graph in which at most one edge leaves every element, whatever comes back to itself lies on exactly one cycle. So
cycles can be counted by choosing an element of each.

* `cycles` : the cycles of such a graph;
* `cycles_eq_of_mem`, `exists_mem_cycles` : there is one cycle through an element that comes back to itself;
* `encard_cycles` : their number is that of elements of which one lies on each.
-/

namespace Spreadsheet

open Function (IsPeriodicPt periodicOrbit periodicPts)
open Relation (ReflTransGen TransGen)

variable {α : Type} {next : α → Option α} {a b : α}

/-- The edges of a graph. -/
def Follows (next : α → Option α) (a b : α) : Prop := next a = some b

instance [DecidableEq α] (next : α → Option α) (a b : α) : Decidable (Follows next a b) :=
  inferInstanceAs (Decidable (next a = some b))

theorem Follows.unique {c : α} (h : Follows next a b) (h' : Follows next a c) : b = c :=
  Option.some.inj (h.symm.trans h')

/-- The cycles of a graph, each with the elements on it one after the other. -/
def cycles (next : α → Option α) : Set (Cycle α) :=
  {cycle | cycle ≠ .nil ∧ cycle.Nodup ∧ cycle.Chain (Follows next)}

/-! ## One cycle through an element -/

theorem transGen_of_mem_cycle {cycle : Cycle α} (h : cycle.Chain (Follows next)) (ha : a ∈ cycle) (hb : b ∈ cycle) :
    TransGen (Follows next) a b :=
  Cycle.chain_iff_pairwise.1 (h.imp fun _ _ => TransGen.single) a ha b hb

/-- Where a path goes on is given by where it is, and so is where it comes back to `a` for the first time. -/
theorem eq_of_isChain {x : α} : ∀ {t t' : List α}, (x :: (t ++ [a])).IsChain (Follows next) →
    (x :: (t' ++ [a])).IsChain (Follows next) → a ∉ t → a ∉ t' → t = t'
  | [], [], _, _, _, _ => rfl
  | [], y :: t', h, h', _, ha' => by
    have hxa := (List.isChain_cons_cons.1 h).1
    have hxy := (List.isChain_cons_cons.1 h').1
    exact absurd (List.mem_cons.2 (Or.inl (hxa.unique hxy))) ha'
  | y :: t, [], h, h', ha, _ => by
    have hxy := (List.isChain_cons_cons.1 h).1
    have hxa := (List.isChain_cons_cons.1 h').1
    exact absurd (List.mem_cons.2 (Or.inl (hxa.unique hxy))) ha
  | y :: t, y' :: t', h, h', ha, ha' => by
    obtain ⟨hxy, ht⟩ := List.isChain_cons_cons.1 h
    obtain ⟨hxy', ht'⟩ := List.isChain_cons_cons.1 h'
    obtain rfl := hxy.unique hxy'
    rw [eq_of_isChain ht ht' (fun h => ha (List.mem_cons_of_mem y h)) fun h => ha' (List.mem_cons_of_mem y h)]

theorem exists_cons_of_mem_cycle {cycle : Cycle α} (h : a ∈ cycle) : ∃ t : List α, cycle = ↑(a :: t) := by
  induction cycle using Quotient.inductionOn with
  | h l =>
    obtain ⟨before, after, rfl⟩ := List.append_of_mem (show a ∈ l from h)
    exact ⟨after ++ before, Quotient.sound List.isRotated_append⟩

theorem cycles_eq_of_mem {cycle cycle' : Cycle α} (h : cycle ∈ cycles next) (h' : cycle' ∈ cycles next)
    (ha : a ∈ cycle) (ha' : a ∈ cycle') : cycle = cycle' := by
  obtain ⟨-, hnodup, hchain⟩ := h
  obtain ⟨-, hnodup', hchain'⟩ := h'
  obtain ⟨t, rfl⟩ := exists_cons_of_mem_cycle ha
  obtain ⟨t', rfl⟩ := exists_cons_of_mem_cycle ha'
  rw [Cycle.chain_coe_cons] at hchain hchain'
  rw [Cycle.nodup_coe_iff, List.nodup_cons] at hnodup hnodup'
  rw [eq_of_isChain hchain hchain' hnodup.1 hnodup'.1]

theorem transGen_next (h : TransGen (Follows next) a a) (hab : Follows next a b) : TransGen (Follows next) b b := by
  obtain ⟨c, hac, hca⟩ := TransGen.head'_iff.1 h
  obtain rfl := hab.unique hac
  exact .tail' hca hab

/-- Whatever comes back to itself lies on a cycle. -/
theorem exists_mem_cycles (h : TransGen (Follows next) a a) : ∃ cycle ∈ cycles next, a ∈ cycle := by
  let f : α → α := fun a => (next a).getD a
  have hf : ∀ {a b}, Follows next a b → f a = b := fun {a b} h => by simp only [f, show next a = some b from h]; rfl
  have hiterate : ∀ {b}, TransGen (Follows next) a b → ∃ n > 0, f^[n] a = b := by
    intro b hab
    induction hab with
    | single hab => exact ⟨1, Nat.one_pos, hf hab⟩
    | tail _ hbc ih =>
      obtain ⟨n, -, hn⟩ := ih
      exact ⟨n + 1, n.succ_pos, by rw [Function.iterate_succ_apply', hn, hf hbc]⟩
  have hback : ∀ n, TransGen (Follows next) (f^[n] a) (f^[n] a) ∧ Follows next (f^[n] a) (f^[n + 1] a) := by
    have hstep : ∀ {b}, TransGen (Follows next) b b → Follows next b (f b) := by
      intro b hb
      obtain ⟨c, hbc, -⟩ := TransGen.head'_iff.1 hb
      rwa [hf hbc]
    intro n
    induction n with
    | zero => exact ⟨h, hstep h⟩
    | succ n ih =>
      have hb := transGen_next ih.1 ih.2
      exact ⟨hb, by rw [Function.iterate_succ_apply' f (n + 1)]; exact hstep hb⟩
  obtain ⟨n, hn, hperiod⟩ := hiterate h
  have hperiodic : a ∈ periodicPts f := ⟨n, hn, hperiod⟩
  refine ⟨periodicOrbit f a, ⟨?_, Function.nodup_periodicOrbit, ?_⟩, Function.self_mem_periodicOrbit hperiodic⟩
  · exact fun hnil => Function.periodicOrbit_eq_nil_iff_not_periodic_pt.1 hnil hperiodic
  · exact (Function.periodicOrbit_chain' _ hperiodic).2 fun n => (hback n).2

/-! ## Counting -/

/-- If elements are chosen so that one of them lies on every cycle and all lie on different ones, they are as many as
the cycles. -/
theorem encard_cycles {l : List α} (hnodup : l.Nodup) (hback : ∀ a ∈ l, TransGen (Follows next) a a)
    (halone : ∀ a ∈ l, ∀ b ∈ l, TransGen (Follows next) a b → TransGen (Follows next) b a → a = b)
    (hsome : ∀ cycle ∈ cycles next, ∃ a ∈ cycle, a ∈ l) : (cycles next).encard = l.length := by
  classical
  choose! through hmem hthrough using fun a (ha : a ∈ l) => exists_mem_cycles (hback a ha)
  have himage : cycles next = through '' {a | a ∈ l} := by
    ext cycle
    constructor
    · intro hc
      obtain ⟨a, ha, hal⟩ := hsome cycle hc
      exact ⟨a, hal, cycles_eq_of_mem (hmem a hal) hc (hthrough a hal) ha⟩
    · rintro ⟨a, ha, rfl⟩
      exact hmem a ha
  have hinj : Set.InjOn through {a | a ∈ l} := by
    intro a ha b hb hab
    have hchain := (hmem a ha).2.2
    have hb' : b ∈ through a := hab ▸ hthrough b hb
    exact halone a ha b hb (transGen_of_mem_cycle hchain (hthrough a ha) hb')
      (transGen_of_mem_cycle hchain hb' (hthrough a ha))
  have hfinset : {a | a ∈ l} = (l.toFinset : Set α) := by
    ext a
    simp
  rw [himage, hinj.encard_image, hfinset, Set.encard_coe_eq_coe_finsetCard, List.toFinset_card_of_nodup hnodup]

end Spreadsheet
