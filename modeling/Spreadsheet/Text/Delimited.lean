/-!
# Text between delimiters

Strings in formulas and sheet names in references stand between two delimiters; a delimiter inside is
written twice.

* `doubled` : the text with every delimiter written twice;
* `readDelimited` : reads up to the closing delimiter, undoing that.
-/

namespace Spreadsheet.Text

/-- Every `q` written twice. -/
def doubled (q : Char) : List Char → List Char
  | [] => []
  | c :: cs => if c = q then q :: q :: doubled q cs else c :: doubled q cs

/-- The text up to the closing `q`, and what follows; nothing when no `q` closes it. -/
def readDelimited (q : Char) : List Char → Option (List Char × List Char)
  | [] => none
  | c :: cs =>
    if c = q then
      match cs with
      | [] => some ([], [])
      | d :: rest =>
        if d = q then (readDelimited q rest).map fun (text, rest) => (q :: text, rest)
        else some ([], d :: rest)
    else (readDelimited q cs).map fun (text, rest) => (c :: text, rest)

theorem length_of_readDelimited {q : Char} {cs text rest : List Char}
    (h : readDelimited q cs = some (text, rest)) : rest.length < cs.length := by
  fun_induction readDelimited q cs generalizing text rest with
  | case1 => simp at h
  | case2 => simp_all
  | case3 rest' ih =>
    obtain ⟨⟨t, r⟩, hr, heq⟩ := Option.map_eq_some_iff.1 h
    have := ih hr
    simp only [Prod.mk.injEq] at heq
    simp only [List.length_cons, ← heq.2]
    omega
  | case4 => simp_all
  | case5 c cs hc ih =>
    obtain ⟨⟨t, r⟩, hr, heq⟩ := Option.map_eq_some_iff.1 h
    have := ih hr
    simp only [Prod.mk.injEq] at heq
    simp only [List.length_cons, ← heq.2]
    omega

/-! ## Doubled delimiters -/

section Doubled

variable {q : Char}

/-- What was doubled is read back up to a closing delimiter that is not doubled itself. -/
theorem readDelimited_doubled (text : List Char) {rest : List Char} (hrest : ∀ c ∈ rest.head?, c ≠ q) :
    readDelimited q (doubled q text ++ q :: rest) = some (text, rest) := by
  induction text with
  | nil =>
    cases rest with
    | nil => simp [doubled, readDelimited]
    | cons c rest => simp [doubled, readDelimited, hrest c rfl]
  | cons c text ih =>
    rw [doubled]
    split
    · rename_i hc
      rw [hc, List.cons_append, List.cons_append, readDelimited, if_pos rfl]
      simp [ih]
    · rename_i hc
      rw [List.cons_append, readDelimited.eq_def]
      simp [hc, ih]

theorem doubled_append (cs ds : List Char) : doubled q (cs ++ ds) = doubled q cs ++ doubled q ds := by
  induction cs with
  | nil => rfl
  | cons c cs ih =>
    rw [List.cons_append, doubled, doubled, ih]
    split <;> rfl

theorem mem_doubled {c : Char} {cs : List Char} : c ∈ doubled q cs ↔ c ∈ cs := by
  induction cs with
  | nil => rfl
  | cons d cs ih =>
    rw [doubled]
    split <;> simp_all

theorem count_doubled (cs : List Char) : (doubled q cs).count q = 2 * cs.count q := by
  induction cs with
  | nil => rfl
  | cons c cs ih =>
    rw [doubled]
    split
    · rename_i hc
      rw [hc, List.count_cons_self, List.count_cons_self, List.count_cons_self, ih]
      omega
    · rename_i hc
      rw [List.count_cons_of_ne hc, List.count_cons_of_ne hc, ih]

end Doubled

end Spreadsheet.Text
