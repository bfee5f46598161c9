import Spreadsheet.Json.Read
import Spreadsheet.Json.Write
import Spreadsheet.Proofs.JsonNumerals

/-!
# JSON text read back

A value that is written is read again as it was, in the two steps of the reader: the text splits into the tokens of the
value, and the stack of open arrays and objects puts these together.

* `JsonToken.next?_writeText` : a string with any characters;
* `Json.WellFormed` : every numeral is one of JSON, and no string is broken;
* `Json.tokens` : the tokens of a value in front of others; `JsonToken.Splits` : a text splits into tokens;
* `Json.splits_write`, `Json.valueFrom?_tokens` : the two steps; `Json.parse?_render` : both together.
-/

namespace Spreadsheet

open Text (isAsciiDigit)

namespace JsonToken

/-! ## Strings -/

theorem hexUnit?_hexPair {n : Nat} (hn : n < 0x20) :
    hexUnit? '0' '0' (Nat.digitChar (n / 16)) (Nat.digitChar (n % 16)) = some n := by
  have hall : ∀ n : Fin 0x20, hexUnit? '0' '0' (Nat.digitChar (n / 16)) (Nat.digitChar (n % 16)) = some n.val := by
    decide
  exact hall ⟨n, hn⟩

/-- A character is one unit, escaped or not. -/
theorem stringUnits?_escapeChar (read : List Nat) (c : Char) (rest : List Char) :
    stringUnits? read (Json.escapeChar c ++ rest) = stringUnits? (c.toNat :: read) rest := by
  unfold Json.escapeChar
  split_ifs with hquote hbackslash hline hreturn htab hback hform hcontrol
  · obtain rfl := eq_of_beq hquote
    rfl
  · obtain rfl := eq_of_beq hbackslash
    rfl
  · obtain rfl := eq_of_beq hline
    rfl
  · obtain rfl := eq_of_beq hreturn
    rfl
  · obtain rfl := eq_of_beq htab
    rfl
  · obtain rfl := eq_of_beq hback
    rfl
  · obtain rfl := eq_of_beq hform
    rfl
  · simp only [Json.hexPair, List.cons_append, List.nil_append, stringUnits?, hexUnit?_hexPair hcontrol]
  · rw [beq_iff_eq] at hquote hbackslash
    rw [List.singleton_append, stringUnits?]
    · rw [if_neg hcontrol]
    · exact hquote
    · rintro _ _ _ _ _ rfl
      exact absurd rfl hbackslash
    · rintro _ _ rfl
      exact absurd rfl hbackslash

theorem stringUnits?_writeChars (rest cs : List Char) : ∀ read : List Nat,
    stringUnits? read (Json.writeChars ('"' :: rest) cs) = some (read.reverse ++ cs.map Char.toNat, rest) := by
  induction cs with
  | nil => exact fun read => by simp [Json.writeChars, stringUnits?]
  | cons c cs ih =>
    intro read
    rw [Json.writeChars, stringUnits?_escapeChar, ih]
    simp

/-- A character is no half of a surrogate pair. -/
theorem isSurrogate_toNat (c : Char) : isLowSurrogate c.toNat = false ∧ isHighSurrogate c.toNat = false := by
  have hc : c.toNat < 0xD800 ∨ (0xDFFF < c.toNat ∧ c.toNat < 0x110000) := c.valid
  simp only [isLowSurrogate, isHighSurrogate, Bool.and_eq_false_iff, decide_eq_false_iff_not]
  omega

theorem charsOfUnits?_map_toNat (cs : List Char) : charsOfUnits? (cs.map Char.toNat) = some cs := by
  induction cs with
  | nil => rfl
  | cons c cs ih =>
    obtain ⟨hlow, hhigh⟩ := isSurrogate_toNat c
    rw [List.map_cons]
    unfold charsOfUnits?
    simp only [hlow, hhigh, ih, Bool.false_eq_true, if_false, Option.map_some, Char.ofNat_toNat]

theorem next?_writeText (s : String) (rest : List Char) :
    next? (Json.writeText s rest) = some (.text (some s), rest) := by
  rw [Json.writeText, next?, stringUnits?_writeChars]
  simp [textOfUnits?, charsOfUnits?_map_toNat]

/-! ## Tokens of a text -/

/-- A digit or a minus sign begins a number. -/
theorem next?_numeral {c : Char} {cs rest : List Char} {n : JsonNumeral} (hc : isAsciiDigit c ∨ c = '-')
    (h : JsonNumeral.read? (c :: cs) = some (n, rest)) : next? (c :: cs) = some (.number n, rest) := by
  have hother : ∀ d : Char, isAsciiDigit d = false → d ≠ '-' → c ≠ d := by
    rintro d hd hminus rfl
    exact hc.elim (by simp [hd]) hminus
  have hmark : mark? c = none := by
    unfold mark?
    split
    all_goals first | rfl | exact absurd rfl (hother _ (by decide) (by decide))
  unfold next?
  split
  · rename_i heq
    exact absurd (List.cons.inj heq).1 (hother 'n' (by decide) (by decide))
  · rename_i heq
    exact absurd (List.cons.inj heq).1 (hother 't' (by decide) (by decide))
  · rename_i heq
    exact absurd (List.cons.inj heq).1 (hother 'f' (by decide) (by decide))
  · rename_i heq
    exact absurd (List.cons.inj heq).1 (hother '"' (by decide) (by decide))
  · rename_i heq
    cases heq
    rw [hmark, h]
    rfl
  · rename_i heq
    cases heq

/-- A text splits into these tokens, whatever has been read before. -/
def Splits (cs : List Char) (ts : List JsonToken) : Prop := ∀ read, collect? read cs = some (read.reverse ++ ts)

section Splitting

variable {cs rest : List Char} {ts : List JsonToken} {t : JsonToken}

theorem splits_nil : Splits [] [] := fun read => by rw [collect?, List.append_nil]

theorem Splits.ofText? (h : Splits cs ts) : ofText? cs = some ts := h []

theorem Splits.cons {c : Char} (h : Splits rest ts) (hc : isSpace c = false)
    (hnext : next? (c :: cs) = some (t, rest)) :
    Splits (c :: cs) (t :: ts) := fun read => by
  have hread : collect? read (c :: cs) = collect? (t :: read) rest := by
    rw [collect?, if_neg (by simp [hc])]
    split
    · rename_i heq
      rw [hnext] at heq
      cases heq
      rfl
    · rename_i heq
      rw [hnext] at heq
      cases heq
  rw [hread, h, List.reverse_cons, List.append_assoc, List.singleton_append]

theorem Splits.writeText (h : Splits rest ts) (s : String) : Splits (Json.writeText s rest) (.text (some s) :: ts) :=
  h.cons rfl (next?_writeText s rest)

theorem isSpace_of_numeral {c : Char} (hc : isAsciiDigit c ∨ c = '-') : isSpace c = false := by
  rw [← Bool.not_eq_true]
  intro h
  simp only [isSpace, Bool.or_eq_true, beq_iff_eq] at h
  obtain ((rfl | rfl) | rfl) | rfl := h
  all_goals exact absurd hc (by decide)

theorem Splits.writeNumeral (h : Splits rest ts) {n : JsonNumeral} (hn : n.WellFormed) (hrest : JsonNumeral.Ends rest) :
    Splits (n.write ++ rest) (.number n :: ts) := by
  have hread := JsonNumeral.read?_write_append hn hrest
  obtain ⟨c, cs, hwrite, hc⟩ := JsonNumeral.exists_write hn
  rw [hwrite, List.cons_append] at hread ⊢
  exact h.cons (isSpace_of_numeral hc) (next?_numeral hc hread)

end Splitting

end JsonToken

namespace Json

/-! ## Values -/

mutual

/-- Every numeral is one of JSON, and no string is broken. -/
def WellFormed : Json → Prop
  | number n => n.WellFormed
  | broken => False
  | array items => ItemsWellFormed items
  | object members => MembersWellFormed members
  | _ => True

def ItemsWellFormed : List Json → Prop
  | [] => True
  | v :: vs => v.WellFormed ∧ ItemsWellFormed vs

def MembersWellFormed : List (String × Json) → Prop
  | [] => True
  | (_, v) :: members => v.WellFormed ∧ MembersWellFormed members

end

theorem itemsWellFormed_iff {items : List Json} : ItemsWellFormed items ↔ ∀ v ∈ items, v.WellFormed := by
  induction items with
  | nil => simp [ItemsWellFormed]
  | cons v vs ih => simp [ItemsWellFormed, ih]

mutual

/-- The tokens of a value, in front of others. -/
def tokens : Json → List JsonToken → List JsonToken
  | null, ts => .null :: ts
  | boolean b, ts => .boolean b :: ts
  | number n, ts => .number n :: ts
  | text s, ts => .text (some s) :: ts
  | broken, ts => .text none :: ts
  | array [], ts => .openArray :: .closeArray :: ts
  | array (v :: vs), ts => .openArray :: v.tokens (itemTokens vs (.closeArray :: ts))
  | object [], ts => .openObject :: .closeObject :: ts
  | object ((key, v) :: members), ts =>
    .openObject :: .text (some key) :: .colon :: v.tokens (memberTokens members (.closeObject :: ts))

/-- The tokens of items that follow another one. -/
def itemTokens : List Json → List JsonToken → List JsonToken
  | [], ts => ts
  | v :: vs, ts => .comma :: v.tokens (itemTokens vs ts)

/-- The tokens of members that follow another one. -/
def memberTokens : List (String × Json) → List JsonToken → List JsonToken
  | [], ts => ts
  | (key, v) :: members, ts => .comma :: .text (some key) :: .colon :: v.tokens (memberTokens members ts)

end

/-! ### From text to tokens -/

section Splitting

open JsonToken JsonNumeral

variable {rest : List Char} {ts : List JsonToken}

/-- A mark ends the value in front of it. -/
theorem ends_cons {c : Char} (hc : endsNumeral c) (cs : List Char) : Ends (c :: cs) := by
  rintro _ ⟨⟩
  exact hc

theorem ends_writeItems (vs : List Json) (cs : List Char) : Ends (writeItems vs (']' :: cs)) := by
  cases vs with
  | nil => exact ends_cons rfl cs
  | cons v vs => exact ends_cons rfl _

theorem ends_writeMembers (members : List (String × Json)) (cs : List Char) :
    Ends (writeMembers members ('\x7d' :: cs)) := by
  cases members with
  | nil => exact ends_cons rfl cs
  | cons m members => exact ends_cons rfl _

mutual

/-- A value that is written splits into its tokens. -/
theorem splits_write : ∀ {v : Json}, v.WellFormed → ∀ {rest : List Char} {ts : List JsonToken}, Ends rest →
    Splits rest ts → Splits (v.write rest) (v.tokens ts)
  | null, _, _, _, _, h => h.cons rfl rfl
  | boolean true, _, _, _, _, h => h.cons rfl rfl
  | boolean false, _, _, _, _, h => h.cons rfl rfl
  | number _, hv, _, _, hrest, h => h.writeNumeral hv hrest
  | text s, _, _, _, _, h => h.writeText s
  | broken, hv, _, _, _, _ => hv.elim
  | array [], _, _, _, _, h => (h.cons rfl rfl).cons rfl rfl
  | array (_ :: _), hv, rest, _, _, h =>
    (splits_write hv.1 (ends_writeItems _ rest) (splits_writeItems hv.2 (h.cons rfl rfl))).cons
      rfl rfl
  | object [], _, _, _, _, h => (h.cons rfl rfl).cons rfl rfl
  | object ((key, _) :: _), hv, rest, _, _, h =>
    (((splits_write hv.1 (ends_writeMembers _ rest) (splits_writeMembers hv.2 (h.cons rfl rfl))).cons rfl
      rfl).writeText key).cons rfl rfl

theorem splits_writeItems : ∀ {vs : List Json}, ItemsWellFormed vs → ∀ {rest : List Char} {ts : List JsonToken},
    Splits (']' :: rest) (.closeArray :: ts) →
    Splits (writeItems vs (']' :: rest)) (itemTokens vs (.closeArray :: ts))
  | [], _, _, _, h => h
  | _ :: _, hv, rest, _, h =>
    (splits_write hv.1 (ends_writeItems _ rest) (splits_writeItems hv.2 h)).cons rfl rfl

theorem splits_writeMembers : ∀ {members : List (String × Json)}, MembersWellFormed members →
    ∀ {rest : List Char} {ts : List JsonToken}, Splits ('\x7d' :: rest) (.closeObject :: ts) →
    Splits (writeMembers members ('\x7d' :: rest)) (memberTokens members (.closeObject :: ts))
  | [], _, _, _, h => h
  | (key, _) :: _, hv, rest, _, h =>
    (((splits_write hv.1 (ends_writeMembers _ rest) (splits_writeMembers hv.2 h)).cons rfl rfl).writeText key).cons
      rfl rfl

end

end Splitting

/-! ### From tokens to the value -/

theorem head?_tokens (v : Json) (ts : List JsonToken) : (v.tokens ts).head? ≠ some .closeArray := by
  cases v with
  | array items => cases items <;> simp [tokens]
  | object members => cases members <;> simp [tokens]
  | _ => simp [tokens]

theorem valueFrom?_openArray {ts : List JsonToken} (h : ts.head? ≠ some .closeArray) (open_ : List Frame) :
    valueFrom? open_ (.openArray :: ts) = valueFrom? (.items [] :: open_) ts := by
  rw [valueFrom?]
  rintro ts rfl
  exact h rfl

mutual

/-- The tokens of a value give it back to what is open around it. -/
theorem valueFrom?_tokens : ∀ (v : Json) (open_ : List Frame) (ts : List JsonToken),
    valueFrom? open_ (v.tokens ts) = valueAfter? v open_ ts
  | null, _, _ => by rw [tokens, valueFrom?]
  | boolean _, _, _ => by rw [tokens, valueFrom?]
  | number _, _, _ => by rw [tokens, valueFrom?]
  | text _, _, _ => by rw [tokens, valueFrom?]
  | broken, _, _ => by rw [tokens, valueFrom?]
  | array [], _, _ => by rw [tokens, valueFrom?]
  | array (v :: vs), open_, ts => by
    rw [tokens, valueFrom?_openArray (head?_tokens v _), valueFrom?_tokens v, valueAfter?_itemTokens vs]
    rfl
  | object [], _, _ => by rw [tokens, valueFrom?]
  | object ((key, v) :: members), open_, ts => by
    rw [tokens, valueFrom?, valueFrom?_tokens v, valueAfter?_memberTokens members]
    rfl

/-- After an item the other ones follow. -/
theorem valueAfter?_itemTokens : ∀ (vs : List Json) (v : Json) (before : List Json) (open_ : List Frame)
    (ts : List JsonToken), valueAfter? v (.items before :: open_) (itemTokens vs (.closeArray :: ts))
      = valueAfter? (array (before.reverse ++ v :: vs)) open_ ts
  | [], v, before, open_, ts => by rw [itemTokens, valueAfter?, List.reverse_cons]
  | v' :: vs, v, before, open_, ts => by
    rw [itemTokens, valueAfter?, valueFrom?_tokens v', valueAfter?_itemTokens vs, List.reverse_cons,
      List.append_assoc, List.singleton_append]

theorem valueAfter?_memberTokens : ∀ (members : List (String × Json)) (key : String) (v : Json)
    (before : List (String × Json)) (open_ : List Frame) (ts : List JsonToken),
    valueAfter? v (.members (some before) (some key) :: open_) (memberTokens members (.closeObject :: ts))
      = valueAfter? (object (before.reverse ++ (key, v) :: members)) open_ ts
  | [], key, v, before, open_, ts => by
    rw [memberTokens, valueAfter?]
    simp [addMember?, ofMembers]
  | (key', v') :: members, key, v, before, open_, ts => by
    rw [memberTokens, valueAfter?, valueFrom?_tokens v']
    have hrest := valueAfter?_memberTokens members key' v' ((key, v) :: before) open_ ts
    rw [List.reverse_cons, List.append_assoc, List.singleton_append] at hrest
    exact hrest

end

/-- A value is read back from its text. -/
theorem parse?_render {v : Json} (hv : v.WellFormed) : parse? v.render = some v := by
  have hsplits : JsonToken.Splits (v.write []) (v.tokens []) :=
    splits_write hv (fun _ h => nomatch h) JsonToken.splits_nil
  rw [parse?, render, String.toList_ofList, hsplits.ofText?]
  exact valueFrom?_tokens v [] []

end Json

end Spreadsheet
