import Spreadsheet.Proofs.Call
import Spreadsheet.Proofs.Ensured

/-!
# Calls of built-in functions

The names of the built-in functions are different, so a name and the number of values decide which function is called
and whether it takes them. Most functions only compute with their values, and a call of one gives the same wherever it
stands.

* `Function.arityError?_eq_none_iff` : how many values a function takes;
* `Gives` : what a call gives for some values; `Gives.unique`, `Gives.iff_eq` : there is one such value;
* `GivesIn` : the same in certain surroundings, for functions that see them; `gives_iff_givesIn`;
* `givesIn_iff`, `gives_iff_of_mem` : the calls of a function in the table;
* `gives_of_mem`, `gives_iff_of_getElem?` : the calls of functions that only compute with their values;
* `Statistical.gives_aggregate_iff` : the calls of the aggregates of any numbers.
-/

namespace Spreadsheet

theorem Function.arityError?_eq_none_iff {f : Function} {count : Nat} :
    f.arityError? count = none ↔ f.least ≤ count ∧ ∀ most ∈ f.most, count ≤ most := by
  unfold Function.arityError?
  by_cases hleast : count < f.least
  · simp [hleast]
  · cases f.most with
    | none => simp [Nat.not_lt.1 hleast]
    | some most => simp [hleast, Nat.not_lt.1 hleast]

/-- A built-in function takes some values and gives a value for them, whatever surrounds the call. -/
def Gives [RegexLibrary] (name : String) (values : List Value) (v : Value) : Prop :=
  ∃ f apply, Registry.builtin.get? name = some f ∧ f.arityError? values.length = none ∧
    f.implementation = .eager apply ∧ ∀ s, apply s values = .ok v

variable {name : String} {values : List Value} {v w : Value}

theorem Gives.unique [RegexLibrary] (hv : Gives name values v) (hw : Gives name values w) : v = w := by
  obtain ⟨f, apply, hf, -, happly, hv⟩ := hv
  obtain ⟨g, apply', hg, -, happly', hw⟩ := hw
  obtain rfl : f = g := Option.some.inj (hf.symm.trans hg)
  obtain rfl : apply = apply' := Implementation.eager.inj (happly.symm.trans happly')
  exact Except.ok.inj ((hv Environment.plain.surroundings).symm.trans (hw _))

/-- A call that gives one value gives no other one. -/
theorem Gives.iff_eq [RegexLibrary] (hv : Gives name values v) : Gives name values w ↔ v = w :=
  ⟨hv.unique, fun h => h ▸ hv⟩

/-- The library of expressions has no part in the names. -/
theorem map_name_builtin [RegexLibrary] :
    builtinFunctions.map Function.name = (@builtinFunctions Regex.tables).map Function.name := by
  have hstatistical : statisticalFunctions.map Function.name
      = (@statisticalFunctions Regex.tables).map Function.name := by
    simp only [statisticalFunctions, List.map_cons, List.map_nil, Statistical.aggregate, Statistical.function,
      Function.ofValues, Function.ignoringBlanks]
  have htext : textFunctions.map Function.name = (@textFunctions Regex.tables).map Function.name := by
    simp only [textFunctions, List.map_cons, List.map_nil, TextFunction.changeChars, TextFunction.change,
      TextFunction.function, Function.ofValues, Function.ignoringBlanks]
  have hlookup : lookupFunctions.map Function.name = (@lookupFunctions Regex.tables).map Function.name := by
    simp only [lookupFunctions, List.map_cons, List.map_nil, Lookup.measure, Lookup.function, Function.ofValues]
  simp only [builtinFunctions, List.map_append, hstatistical, htext, hlookup]

theorem upper_builtin [RegexLibrary] : ∀ f ∈ builtinFunctions, Text.upper f.name = f.name := by
  have hnames : ∀ name ∈ (@builtinFunctions Regex.tables).map Function.name, Text.upper name = name := by
    decide +kernel
  rw [← map_name_builtin] at hnames
  exact fun f hf => hnames _ (List.mem_map_of_mem hf)

theorem nodup_names_builtin [RegexLibrary] : (builtinFunctions.map fun f => Text.upper f.name).Nodup := by
  have hnodup : ((@builtinFunctions Regex.tables).map Function.name).Nodup := by decide +kernel
  rwa [List.map_congr_left upper_builtin, map_name_builtin]

/-- A built-in function takes some values and gives a value for them in certain surroundings. -/
def GivesIn [RegexLibrary] (s : Surroundings) (name : String) (values : List Value) (v : Value) : Prop :=
  ∃ f apply, Registry.builtin.get? name = some f ∧ f.arityError? values.length = none ∧
    f.implementation = .eager apply ∧ apply s values = .ok v

theorem gives_iff_givesIn [RegexLibrary] : Gives name values v ↔ ∀ s, GivesIn s name values v := by
  constructor
  · rintro ⟨f, apply, hf, harity, happly, hv⟩ s
    exact ⟨f, apply, hf, harity, happly, hv s⟩
  · intro h
    obtain ⟨f, apply, hf, harity, happly, -⟩ := h Environment.plain.surroundings
    refine ⟨f, apply, hf, harity, happly, fun s => ?_⟩
    obtain ⟨g, apply', hg, -, happly', hv⟩ := h s
    obtain rfl : f = g := Option.some.inj (hf.symm.trans hg)
    obtain rfl : apply = apply' := Implementation.eager.inj (happly.symm.trans happly')
    exact hv

section Table

variable [RegexLibrary] {f : Function} {g : Surroundings → List Value → Outcome Value} (hf : f ∈ builtinFunctions)
  (hg : f.implementation = pureFunction g)
include hf hg

/-- A function gives what it computes if it takes the values, and nothing else. -/
theorem givesIn_iff {s : Surroundings} :
    GivesIn s f.name values v ↔ f.arityError? values.length = none ∧ (g s values).toValue = v := by
  have hget := Registry.get?_ofList nodup_names_builtin hf rfl
  constructor
  · rintro ⟨f', apply, hf', harity, happly, hv⟩
    obtain rfl : f = f' := Option.some.inj (hget.symm.trans hf')
    obtain rfl := Implementation.eager.inj (hg.symm.trans happly)
    exact ⟨harity, Except.ok.inj hv⟩
  · rintro ⟨harity, hv⟩
    exact ⟨f, _, hget, harity, hg, congrArg Except.ok hv⟩

/-- A function that takes the values gives for them what it computes, and nothing else. -/
theorem gives_iff_of_mem (hleast : f.least ≤ values.length) (hmost : ∀ most ∈ f.most, values.length ≤ most) :
    Gives f.name values v ↔ ∀ s, (g s values).toValue = v := by
  rw [gives_iff_givesIn]
  refine forall_congr' fun s => ?_
  rw [givesIn_iff hf hg, Function.arityError?_eq_none_iff]
  exact and_iff_right ⟨hleast, hmost⟩

end Table

theorem gives_of_mem [RegexLibrary] {f : Function} {g : List Value → Outcome Value} (hf : f ∈ builtinFunctions)
    (hg : f.implementation = plainFunction g) (hleast : f.least ≤ values.length)
    (hmost : ∀ most ∈ f.most, values.length ≤ most) : Gives f.name values (g values).toValue :=
  (gives_iff_of_mem hf hg hleast hmost).2 fun _ => rfl

/-- A statistical function that takes the values gives for them what it computes, and nothing else. -/
theorem Statistical.gives_iff_of_getElem? [RegexLibrary] {i least : Nat} {most : Option Nat}
    {g : List Value → Outcome Value}
    (hi : statisticalFunctions[i]? = some (Statistical.function name least most g)) (hleast : least ≤ values.length)
    (hmost : ∀ n ∈ most, values.length ≤ n) : Gives name values v ↔ (g values).toValue = v := by
  have hmem : Statistical.function name least most g ∈ builtinFunctions := by
    simp [builtinFunctions, List.mem_of_getElem? hi]
  exact (gives_of_mem (f := Statistical.function name least most g) hmem rfl hleast hmost).iff_eq

/-- An aggregate of any numbers gives for some values what it computes, and nothing else. -/
theorem Statistical.gives_aggregate_iff [RegexLibrary] {i : Nat} {g : List Value → Outcome Value}
    (hi : statisticalFunctions[i]? = some (Statistical.aggregate name g)) (hvalues : values ≠ []) :
    Gives name values v ↔ (g values).toValue = v := by
  have hmem : Statistical.aggregate name g ∈ builtinFunctions := by simp [builtinFunctions, List.mem_of_getElem? hi]
  have hmost : ∀ most ∈ (Statistical.aggregate name g).most, values.length ≤ most := by
    rintro most ⟨⟩
  exact (gives_of_mem hmem rfl (List.length_pos_iff.2 hvalues) hmost).iff_eq

end Spreadsheet
