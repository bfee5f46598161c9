import Spreadsheet.Proofs.Addresses
import Spreadsheet.Proofs.Depth
import Spreadsheet.Proofs.Parsing

/-!
# Formulas that are one reference

A reference is written with or without quotes around its sheet, and formulas read it either way. They differ in one
thing from references on their own: a name without quotes must not start with a point, which starts a number.

* `scanToken_bareSheet`, `ofChars_write` : the tokens of a written reference;
* `MissesCells` : a parser reads no reference where a number comes first;
* `parseFormula_write_iff` : which references formulas read.
-/

namespace Spreadsheet.Formula

open Text (isAsciiAlphanumeric isBlank)

/-! ## The tokens of a reference -/

/-- The name of a sheet without quotes is read up to the mark after it. -/
theorem scanToken_bareSheet {name : List Char} (total : Nat) (hbare : isBareSheetName name)
    (hpoint : name.head? ≠ some '.') (rest : List Char) : ∃ c cs, name = c :: cs ∧
      scanToken total c (cs ++ '!' :: rest) = .ok (.sheet (String.ofList name), rest) := by
  obtain ⟨hdigit, hne, hchars⟩ := isBareSheetName_iff.1 hbare
  obtain ⟨c, cs, rfl⟩ := List.exists_cons_of_ne_nil hne
  have hword : ∀ d, isAsciiAlphanumeric d ∨ d = '_' ∨ d = '.' → isWordChar d := by
    rintro d (hd | rfl | rfl)
    · have hd : Text.isAlphanumeric d := Text.isAlphanumeric_of_ascii (by simpa [isAsciiAlphanumeric] using hd)
      simp [isWordChar, hd]
    · decide
    · decide
  have hstart : isWordStart c := by
    rcases hchars c (List.mem_cons_self ..) with hc | rfl | rfl
    · have hletter : Text.isAsciiLetter c := by simpa [isAsciiAlphanumeric, hdigit c rfl] using hc
      exact isWordStart_of_coordinates (.inl hletter)
    · decide
    · exact absurd rfl hpoint
  have hcs : ∀ d ∈ cs, isWordChar d := fun d hd => hword d (hchars d (List.mem_cons_of_mem c hd))
  refine ⟨c, cs, rfl, ?_⟩
  have hscan : scanWord c (cs ++ '!' :: rest) = (.sheet (String.ofList (c :: cs)), rest) := by
    have hend : ∀ d ∈ ('!' :: rest).head?, isWordChar d = false := by
      simp only [List.head?_cons, Option.mem_def, Option.some.injEq, forall_eq']
      decide
    rw [scanWord, Text.takeWhile_run hcs hend, Text.dropWhile_run hcs hend]
    rfl
  rw [scanToken_of_isWordStart total hstart, hscan]

/-- The tokens of a written reference are those of a cell. -/
theorem ofChars_write {a : Address} (h : a.InBounds) (total : Nat)
    (hpoint : ∀ name, a.sheet = some name → isBareSheetName name.toList → name.toList.head? ≠ some '.') :
    TokenStream.ofChars total a.write.toList = ⟨cellTokens a, none⟩ := by
  have hcell : Writes [.cell a.writeCoordinates] a.writeCoordinates.toList := .last (.cell _)
  have hlegible : Legible [.cell a.writeCoordinates] := ⟨⟨rfl, a, h, rfl⟩, trivial⟩
  rw [a.toList_write, cellTokens]
  cases hsheet : a.sheet with
  | none => exact ofChars_writes total hcell hlegible (List.forall_mem_nil _)
  | some name =>
    rw [qualifier, toList_writeSheetName]
    dsimp only
    split
    · rename_i hbare
      obtain ⟨c, cs, hname, hscan⟩ :=
        scanToken_bareSheet total hbare (hpoint name hsheet hbare) a.writeCoordinates.toList
      have hblank : isBlank c = false :=
        (plain_of_bare ((isBareSheetName_iff.1 hbare).2.2 c (by simp [hname]))).1
      have hstream := TokenStream.ofChars_of_scan (List.forall_mem_nil _) hblank hscan
      rw [List.nil_append] at hstream
      rw [hname, List.append_assoc, List.cons_append, List.cons_append, List.nil_append, hstream,
        String.ofList_toList, ← List.nil_append a.writeCoordinates.toList,
        ofChars_writes total hcell hlegible (List.forall_mem_nil _)]
    · have hquoted := ofChars_writes total (.sheet (.sheet name) hcell) ⟨trivial, hlegible⟩ (List.forall_mem_nil _)
      simpa [quotedName] using hquoted

/-! ## Formulas that start with a number -/

def Expr.isCell : Expr → Bool
  | .cell _ => true
  | _ => false

/-- A parser reads no reference where a number comes first. -/
def MissesCells (p : TokenParser Expr) : Prop :=
  ∀ x ts fault e s', p.run ⟨.number x :: ts, fault⟩ = .ok (e, s') → e.isCell = false

namespace MissesCells

variable {p : TokenParser Expr} {f : Expr → TokenParser Expr}

theorem of_yields (h : Yields p (·.isCell = false)) : MissesCells p := fun _ _ _ e s' hrun => h _ e s' hrun

theorem bind (hp : MissesCells p) (hf : ∀ e, e.isCell = false → Yields (f e) (·.isCell = false)) :
    MissesCells (p >>= f) := by
  intro x ts fault e s' hrun
  rw [StateT.run_bind] at hrun
  cases hfirst : p.run ⟨.number x :: ts, fault⟩ with
  | error _ =>
    rw [hfirst] at hrun
    cases hrun
  | ok r =>
    rw [hfirst] at hrun
    exact hf r.1 (hp x ts fault r.1 r.2 hfirst) r.2 e s' hrun

theorem current {f : Token → TokenParser Expr} (hf : ∀ x, MissesCells (f (.number x))) :
    MissesCells (Formula.current >>= f) := by
  intro x ts fault e s' hrun
  rw [run_current_bind] at hrun
  exact hf x x ts fault e s' hrun

end MissesCells

variable {item operand : TokenParser Expr} {ops : OperatorLevel}

theorem percents_yields_noCell (left : Nat) {e : Expr} (he : e.isCell = false) :
    Yields (percents e left) (·.isCell = false) := by
  induction left generalizing e with
  | zero =>
    refine .after fun token => ?_
    split
    · exact .failParse _
    · exact .pure he
  | succ left ih =>
    refine .after fun token => ?_
    split
    · exact .after fun _ => ih rfl
    · exact .pure he

theorem chainRest_yields_noCell (rounds : Nat) {left : Expr} (hleft : left.isCell = false) :
    Yields (chainRest ops operand left rounds) (·.isCell = false) := by
  induction rounds generalizing left with
  | zero => exact .pure hleft
  | succ rounds ih =>
    refine .after fun token => ?_
    split
    · exact .pure hleft
    · exact .after fun _ => .after fun right => ih rfl

theorem rangeOperand_missesCells : MissesCells (rangeOperand item) := by
  have hprimary : MissesCells (primary item) := .current fun x => .of_yields (.after fun _ => .pure rfl)
  refine hprimary.bind fun left hleft => .after fun token => ?_
  split
  · refine .after fun _ => ?_
    split
    · cases hleft
    · exact .failReference _
  · exact .pure hleft

theorem signedOperand_missesCells (levels : Nat) : MissesCells (signedOperand levels) := by
  cases levels with
  | zero => exact .of_yields (.failParse _)
  | succ levels =>
    have hbase : MissesCells (percentOperand (expressionOf (signedOperand levels))) :=
      rangeOperand_missesCells.bind fun _ he => percents_yields_noCell maxNesting he
    refine .current fun x => hbase.bind fun base hbase => .after fun token => ?_
    split
    · exact .after fun _ => .after fun _ => .pure rfl
    · exact .pure hbase

theorem chain_missesCells (h : MissesCells operand) : MissesCells (chain ops operand) := by
  refine h.bind fun left hleft => .after fun token => ?_
  split
  · exact .after fun s => chainRest_yields_noCell _ hleft
  · exact .pure hleft

theorem wholeFormula_missesCells : MissesCells wholeFormula := by
  have hexpression : MissesCells expression :=
    chain_missesCells <| chain_missesCells <| chain_missesCells <| chain_missesCells <|
      signedOperand_missesCells maxNesting
  intro x ts fault e s' hrun
  have hreadable : checkReadable.run ⟨.number x :: ts, fault⟩ = .ok ((), ⟨.number x :: ts, fault⟩) := rfl
  rw [wholeFormula, run_bind hreadable] at hrun
  refine hexpression.bind (fun e he => .after fun token => ?_) x ts fault e s' hrun
  split
  · exact .pure he
  · exact .failParse _

/-! ## References -/

/-- A cell is read from its tokens. -/
theorem wholeFormula_cellTokens {a : Address} (h : a.InBounds) :
    wholeFormula.run ⟨cellTokens a, none⟩ = .ok (.cell a, ⟨[], none⟩) := by
  have hsuits : (Style.sparing fun _ => false).Suits (.cell a) :=
    ⟨rfl, by simpa [Expr.every, Expr.isSound] using h, by simp [Expr.every, Style.percentRun]⟩
  have hnesting : (Style.sparing fun _ => false).nesting false (.cell a) = 1 := rfl
  exact wholeFormula_parses (.sparing _) hsuits (b := false) (by rw [hnesting]; decide)

theorem scanToken_point {total : Nat} {cs rest : List Char} {t : Token} (h : scanToken total '.' cs = .ok (t, rest)) :
    ∃ x, t = .number x := by
  change (if startsNumber ('.' :: cs) then scanNumber ('.' :: cs)
    else .error (.unexpectedCharacter '.' (total - byteLength ('.' :: cs)))) = _ at h
  split at h
  · unfold scanNumber at h
    dsimp only at h
    split at h
    · cases h
      exact ⟨_, rfl⟩
    · cases h
  · cases h

/-- Text that starts with a point is not read as a reference: it starts with a number, or cannot be read at all. -/
theorem run_wholeFormula_point {cs : List Char} {e : Expr} {s : TokenStream} (total : Nat)
    (h : wholeFormula.run (TokenStream.ofChars total ('.' :: cs)) = .ok (e, s)) : e.isCell = false := by
  cases hscan : scanToken total '.' cs with
  | error fault =>
    have hstream : TokenStream.ofChars total ('.' :: cs) = ⟨[], some fault⟩ := by
      rw [TokenStream.ofChars]
      split
      · rename_i heq
        cases heq
      · rename_i heq
        cases heq
        split
        · rename_i heq
          rw [hscan] at heq
          cases heq
          rfl
        · rename_i heq
          rw [hscan] at heq
          cases heq
    rw [hstream] at h
    cases h
  | ok r =>
    obtain ⟨x, hx⟩ := scanToken_point hscan
    have hstream := TokenStream.ofChars_of_scan (List.forall_mem_nil _) (by decide) hscan
    rw [List.nil_append, hx] at hstream
    rw [hstream] at h
    exact wholeFormula_missesCells x _ _ e s h

/-- A formula that is a written reference is read as that reference, unless the name of its sheet starts with a point
and needs no quotes. -/
theorem parseFormula_write_iff {a : Address} (h : a.IsWritable) : parseFormula ("=" ++ a.write) = .ok (.cell a) ↔
    ∀ name, a.sheet = some name → isBareSheetName name.toList → name.toList.head? ≠ some '.' := by
  have hbody : formulaBody ("=" ++ a.write) = a.write.toList := by
    have htext : "=" ++ a.write = String.ofList ('=' :: a.write.toList) := by simp
    rw [htext]
    exact formulaBody_equal fun c => Address.isBlank_of_getLast?_write
  obtain ⟨c, cs, hwrite⟩ := List.exists_cons_of_ne_nil a.write_ne_nil
  have hc : isBlank c = false := Address.isBlank_of_head?_write (a := a) (by simp [hwrite])
  have hparse : parseFormula ("=" ++ a.write) =
      (wholeFormula.run' (TokenStream.ofText a.write.toList)).mapError Rejection.fault := by
    rw [parseFormula, hbody, if_neg (by simp [hwrite, hc])]
  rw [hparse, StateT.run'_eq]
  constructor
  · intro hread name hsheet hbare hpoint
    obtain ⟨tail, hname⟩ : ∃ tail, name.toList = '.' :: tail := by
      cases hchars : name.toList with
      | nil => simp [hchars] at hpoint
      | cons d tail => exact ⟨tail, by simpa [hchars] using hpoint⟩
    have htext : a.write.toList = '.' :: (tail ++ '!' :: a.writeCoordinates.toList) := by
      rw [a.toList_write, hsheet, qualifier, toList_writeSheetName, if_pos hbare, hname]
      simp
    cases hrun : wholeFormula.run (TokenStream.ofText a.write.toList) with
    | error fault =>
      rw [hrun] at hread
      cases hread
    | ok r =>
      rw [hrun] at hread
      have hcell : r.1 = .cell a := Except.ok.inj hread
      rw [TokenStream.ofText, htext] at hrun
      have hmiss := run_wholeFormula_point _ hrun
      rw [hcell] at hmiss
      cases hmiss
  · intro hpoint
    rw [TokenStream.ofText, ofChars_write h.1 _ hpoint, wholeFormula_cellTokens h.1]
    rfl

theorem parseFormula_write_marks :
    parseFormula ("=" ++ Address.write { row := 9, column := 26, rowAbsolute := true, sheet := some "it's: 50%!" }) =
      .ok (.cell { row := 9, column := 26, rowAbsolute := true, sheet := some "it's: 50%!" }) :=
  (parseFormula_write_iff (by decide +kernel)).2 fun name hname hbare => by
    obtain rfl : "it's: 50%!" = name := Option.some.inj hname
    revert hbare
    decide +kernel

/-- The sheet `.a` needs no quotes in references, and yet formulas do not read it without. -/
theorem parseFormula_pointSheet :
    Address.write { row := 0, column := 0, sheet := some ".a" } = ".a!A1" ∧
      Address.read ".a!A1" = .ok { row := 0, column := 0, sheet := some ".a" } ∧
      (parseFormula "=.a!A1").isOk = false ∧
      ¬ ∀ a : Address, a.IsWritable → parseFormula ("=" ++ a.write) = .ok (.cell a) := by
  refine ⟨by decide +kernel, by decide +kernel, by decide +kernel, fun h => ?_⟩
  have hread := h { row := 0, column := 0, sheet := some ".a" } (by decide +kernel)
  have hfails : (parseFormula ("=" ++ Address.write { row := 0, column := 0, sheet := some ".a" })).isOk = false := by
    decide +kernel
  rw [hread] at hfails
  cases hfails

end Spreadsheet.Formula
