import RowFilter.Proofs.Placeholders

/-!
# Decoding written statements

A decoder reads a statement off its text and its parameters, from left to right.  At
each step what comes next is told from how the text goes on: by an opening of which no
other one is the beginning, by the number of the next placeholder, or by the quote that
ends a name.

* `Decoder`: readers of what is left of a statement.
* `Decodes d x ps a`: where the pieces `ps` are written, `x` reads `a` and nothing else,
  whatever else follows that does not begin with a quote.  There is one rule for each way
  in which decoders are put together.
-/

namespace RowFilter
namespace Sql

namespace Dialect

/-- What a placeholder begins with. -/
def mark : Dialect → String
  | .postgres => "$"
  | .mysql => "?"

/-- What follows the mark of a placeholder. -/
def numeral : Dialect → Nat → String
  | .postgres, index => String.ofList (Decimal.digitChars (index + 1))
  | .mysql, _ => ""

/-- The quote before an identifier. -/
def quote (d : Dialect) : String :=
  String.singleton d.identifierQuote

theorem placeholder_eq
    (d : Dialect) (n : Nat) :
    d.placeholder n = d.mark ++ d.numeral n := by
  cases d <;> rfl

end Dialect

/-- What is left of a statement. -/
structure Script where
  /-- The number of the next placeholder. -/
  number : Nat
  text : List Char
  /-- The parameters that no placeholder was read for. -/
  values : List Value

/-- Reads something off a statement, if it is there. -/
abbrev Decoder (α : Type) : Type :=
  StateT Script Option α

/-- What follows a text at its beginning. -/
def stripped : List Char → List Char → Option (List Char)
  | [], text => some text
  | _ :: _, [] => none
  | c :: cs, t :: text => if c = t then stripped cs text else none

/-- Two texts differ where both go on. -/
def clash : List Char → List Char → Bool
  | c :: cs, t :: text => c != t || clash cs text
  | _, _ => false

/-- What stands before the closing quote, with quotes inside doubled, and what follows
it. -/
def unquoted (q : Char) : List Char → Option (List Char × List Char)
  | [] => none
  | [c] => if c = q then some ([], []) else none
  | c :: next :: rest =>
      if c = q then
        if next = q then
          (unquoted q rest).map fun (name, after) => (q :: name, after)
        else
          some ([], next :: rest)
      else
        (unquoted q (next :: rest)).map fun (name, after) => (c :: name, after)

/-- What follows the opening quote of a text in quotes. -/
def quotedTail (q : Char) (s : String) : String :=
  String.ofList (doubled q s ++ [q])

theorem inQuotes_eq
    (q : Char) (s : String) :
    inQuotes q s = String.singleton q ++ quotedTail q s := by
  rw [← String.toList_inj]
  simp [inQuotes, quotedTail]

namespace Decoder

variable {α β : Type}

/-- Nothing can be read. -/
def stuck : Decoder α :=
  fun _ => none

/-- Reads a text. -/
def expect (s : String) : Decoder Unit :=
  fun script => (stripped s.toList script.text).map fun text => ((), { script with text := text })

/-- Goes on with the first decoder whose opening comes next. -/
def branch : List (String × Decoder α) → Decoder α
  | [], _ => none
  | (opening, x) :: rest, script =>
      match stripped opening.toList script.text with
      | some text => x { script with text := text }
      | none => branch rest script

/-- Reads a placeholder behind its mark, and gives its value. -/
def value (d : Dialect) : Decoder Value :=
  fun script =>
    match stripped (d.numeral script.number).toList script.text, script.values with
    | some text, v :: values => some (v, ⟨script.number + 1, text, values⟩)
    | _, _ => none

/-- Reads a placeholder, and gives its value. -/
def hole (d : Dialect) : Decoder Value := do
  expect d.mark
  value d

/-- Reads a placeholder that stands for a text. -/
def textHole (d : Dialect) : Decoder String := do
  match ← hole d with
  | .str s => return s
  | _ => stuck

/-- Reads a text in quotes behind its opening quote. -/
def name (q : Char) : Decoder String :=
  fun script => (unquoted q script.text).map fun (name, text) =>
    (String.ofList name, { script with text := text })

/-- Reads things with a separator between them, up to a closing parenthesis. -/
def listOf (separator : String) (item : Decoder α) : Nat → Decoder (List α)
  | 0 => stuck
  | limit + 1 => do
      let a ← item
      branch [
        (separator, do
          let rest ← listOf separator item limit
          return a :: rest),
        (")", return [a])]

/-- A decoder after another goes on with what that one leaves. -/
theorem bind_eq
    (x : Decoder α) (f : α → Decoder β) (script : Script) :
    (x >>= f) script = (x script).bind fun p => f p.1 p.2 :=
  rfl

end Decoder

/-! ## Texts and quotes -/

theorem stripped_append
    (s rest : List Char) :
    stripped s (s ++ rest) = some rest := by
  induction s with
  | nil => rfl
  | cons c cs ih => simp [stripped, ih]

theorem stripped_of_clash
    {s t : List Char} (rest : List Char)
    (h : clash s t = true) :
    stripped s (t ++ rest) = none := by
  induction s generalizing t with
  | nil => cases t <;> cases h
  | cons c cs ih =>
      cases t with
      | nil => cases h
      | cons c' ts =>
          rw [List.cons_append, stripped]
          split
          · rename_i heq
            rw [clash, heq, bne_self_eq_false, Bool.false_or] at h
            exact ih h
          · rfl

theorem unquoted_doubled
    {q : Char} {rest : List Char}
    (hrest : q ∉ rest.head?) (cs : List Char) :
    unquoted q (cs.flatMap (fun c => if c == q then [c, c] else [c]) ++ q :: rest) =
      some (cs, rest) := by
  induction cs with
  | nil =>
      cases rest with
      | nil => simp [unquoted]
      | cons c rest =>
          have hc : c ≠ q := by simpa [eq_comm] using hrest
          simp [unquoted, hc]
  | cons c cs ih =>
      rw [List.flatMap_cons, List.append_assoc]
      by_cases hc : c = q
      · subst hc
        simpa [unquoted] using ih
      · have hne : ∃ next more, cs.flatMap (fun c => if c == q then [c, c] else [c]) ++
            q :: rest = next :: more := by
          cases cs.flatMap (fun c => if c == q then [c, c] else [c]) with
          | nil => exact ⟨q, rest, rfl⟩
          | cons next more => exact ⟨next, _, rfl⟩
        obtain ⟨next, more, hmore⟩ := hne
        rw [hmore] at ih ⊢
        simp [unquoted, hc, ih]

/-! ## What decoders read -/

/-- The text does not begin with a quote. -/
def Unquoted : List Char → Prop
  | [] => True
  | c :: _ => c ≠ '"' ∧ c ≠ '\'' ∧ c ≠ Char.ofNat 0x60

instance : (text : List Char) → Decidable (Unquoted text)
  | [] => .isTrue trivial
  | _ :: _ => inferInstanceAs (Decidable (_ ∧ _ ∧ _))

theorem Unquoted.not_mem_head?
    {text : List Char} {q : Char}
    (h : Unquoted text) (hq : q = '"' ∨ q = '\'' ∨ q = Char.ofNat 0x60) :
    q ∉ text.head? := by
  cases text with
  | nil => simp
  | cons c cs =>
      obtain ⟨hdouble, hsingle, hback⟩ := h
      rintro ⟨⟩
      rcases hq with rfl | rfl | rfl
      · exact hdouble rfl
      · exact hsingle rfl
      · exact hback rfl

/-- The text begins with something else than a quote. -/
def BeginsUnquoted (s : String) : Prop :=
  s.toList ≠ [] ∧ Unquoted s.toList

instance (s : String) : Decidable (BeginsUnquoted s) :=
  inferInstanceAs (Decidable (_ ∧ _))

/-- Where the pieces are written, the decoder reads `a` and nothing else, provided that no
quote follows. -/
def Decodes {α : Type} (d : Dialect) (x : Decoder α) (pieces : List Piece) (a : α) : Prop :=
  ∀ n text values, Unquoted text →
    x ⟨n, (Piece.write d n pieces).toList ++ text, Piece.values pieces ++ values⟩ =
      some (a, ⟨n + (Piece.values pieces).length, text, values⟩)

/-- The pieces do not begin with a quote. -/
def StartsUnquoted (d : Dialect) (pieces : List Piece) : Prop :=
  ∀ n text, Unquoted text → Unquoted ((Piece.write d n pieces).toList ++ text)

section Rules

variable {d : Dialect} {α β : Type} {ps qs : List Piece} {a : α} {b : β}

theorem startsUnquoted_nil :
    StartsUnquoted d [] := by
  intro n text h
  exact h

theorem startsUnquoted_text
    {s : String} (rest : List Piece)
    (h : BeginsUnquoted s) :
    StartsUnquoted d (.text s :: rest) := by
  intro n text _
  obtain ⟨hne, hs⟩ := h
  rw [Piece.write, String.toList_append]
  cases hcs : s.toList with
  | nil => exact absurd hcs hne
  | cons c cs =>
      rw [hcs] at hs
      exact hs

theorem startsUnquoted_close
    (rest : List Piece) :
    StartsUnquoted d (.text ")" :: rest) :=
  startsUnquoted_text rest (by decide)

theorem decodes_pure
    (a : α) :
    Decodes d (pure a) [] a := by
  intro n text values _
  rfl

theorem Decodes.bind
    {x : Decoder α} {f : α → Decoder β}
    (hx : Decodes d x ps a) (hf : Decodes d (f a) qs b) (hqs : StartsUnquoted d qs) :
    Decodes d (x >>= f) (ps ++ qs) b := by
  intro n text values htext
  have hfirst := hx n ((Piece.write d (n + (Piece.values ps).length) qs).toList ++ text)
    (Piece.values qs ++ values) (hqs _ _ htext)
  have hsecond := hf (n + (Piece.values ps).length) text values htext
  rw [Decoder.bind_eq]
  rw [Piece.write_append, Piece.values_append, String.toList_append, List.append_assoc,
    List.append_assoc]
  rw [show (ps.filterMap Piece.value?).length = (Piece.values ps).length from rfl, hfirst]
  simp only [Option.bind_some, hsecond, List.length_append, Nat.add_assoc]

theorem Decodes.bind_pure
    {x : Decoder α} {f : α → Decoder β}
    (hx : Decodes d x ps a) (hf : f a = pure b) :
    Decodes d (x >>= f) ps b := by
  have hdone := hx.bind (f := f) (hf ▸ decodes_pure b) startsUnquoted_nil
  rwa [List.append_nil] at hdone

theorem Decodes.map
    {x : Decoder α}
    (h : Decodes d x ps a) (f : α → β) :
    Decodes d (do return f (← x)) ps (f a) :=
  h.bind_pure rfl

/-- A text can be cut into two. -/
theorem decodes_text_append
    {x : Decoder α} {s t : String} :
    Decodes d x (.text (s ++ t) :: ps) a ↔ Decodes d x (.text s :: .text t :: ps) a := by
  simp [Decodes, Piece.write, String.append_assoc]

theorem decodes_expect
    {x : Decoder α} {s : String}
    (h : Decodes d x ps a) :
    Decodes d (do Decoder.expect s; x) (.text s :: ps) a := by
  intro n text values htext
  rw [Decoder.bind_eq]
  simp only [Decoder.expect, Piece.write, String.toList_append, List.append_assoc,
    stripped_append, Piece.values_text, Option.map_some, Option.bind_some]
  exact h n text values htext

theorem decodes_name
    {f : String → Decoder α} {q : Char} {s : String}
    (h : Decodes d (f s) ps a)
    (hq : q = '"' ∨ q = '\'' ∨ q = Char.ofNat 0x60) (hps : StartsUnquoted d ps) :
    Decodes d (Decoder.name q >>= f) (.text (quotedTail q s) :: ps) a := by
  intro n text values htext
  have hrest : q ∉ ((Piece.write d n ps).toList ++ text).head? :=
    (hps n text htext).not_mem_head? hq
  have hname : unquoted q ((Piece.write d n (.text (quotedTail q s) :: ps)).toList ++ text) =
      some (s.toList, (Piece.write d n ps).toList ++ text) := by
    rw [Piece.write, String.toList_append, quotedTail, String.toList_ofList, doubled,
      List.append_assoc, List.append_assoc]
    exact unquoted_doubled hrest s.toList
  rw [Decoder.bind_eq]
  simp only [Decoder.name, hname, Option.map_some, Option.bind_some,
    String.ofList_toList]
  exact h n text values htext

theorem decodes_value
    {f : Value → Decoder α} {v : Value}
    (h : Decodes d (f v) ps a) (n : Nat) (text : List Char) (values : List Value)
    (htext : Unquoted text) :
    (Decoder.value d >>= f) ⟨n, (d.numeral n).toList ++ ((Piece.write d (n + 1) ps).toList ++ text),
        v :: (Piece.values ps ++ values)⟩ =
      some (a, ⟨n + 1 + (Piece.values ps).length, text, values⟩) := by
  rw [Decoder.bind_eq]
  simp only [Decoder.value, stripped_append, Option.bind_some]
  exact h (n + 1) text values htext

theorem decodes_hole
    {f : Value → Decoder α} {v : Value}
    (h : Decodes d (f v) ps a) :
    Decodes d (Decoder.hole d >>= f) (.hole v :: ps) a := by
  intro n text values htext
  have hrest := decodes_value h n text values htext
  rw [Decoder.hole, bind_assoc, Decoder.bind_eq]
  simp only [Decoder.expect, Piece.write, Dialect.placeholder_eq, Piece.values_hole,
    String.toList_append, List.append_assoc, List.cons_append, stripped_append, Option.map_some,
    Option.bind_some, List.length_cons]
  rw [Nat.add_comm (Piece.values ps).length, ← Nat.add_assoc]
  exact hrest

theorem decodes_textHole
    {f : String → Decoder α} {s : String}
    (h : Decodes d (f s) ps a) :
    Decodes d (Decoder.textHole d >>= f) (.hole (.str s) :: ps) a := by
  rw [Decoder.textHole, bind_assoc]
  refine decodes_hole ?_
  rwa [pure_bind]

/-! ### Branching -/

/-- No opening is the beginning of a later one, nor the other way round. -/
def Clashing (openings : List String) : Prop :=
  openings.Pairwise fun s t => clash s.toList t.toList = true

instance (openings : List String) : Decidable (Clashing openings) :=
  inferInstanceAs (Decidable (List.Pairwise _ _))

/-- Behind an opening the decoder goes on that belongs to it. -/
theorem branch_eq
    {table : List (String × Decoder α)} {opening : String} {x : Decoder α}
    (hmem : (opening, x) ∈ table) (hclash : Clashing (table.map Prod.fst)) (n : Nat)
    (text : List Char) (values : List Value) :
    Decoder.branch table ⟨n, opening.toList ++ text, values⟩ = x ⟨n, text, values⟩ := by
  induction table with
  | nil => cases hmem
  | cons entry rest ih =>
      obtain ⟨first, y⟩ := entry
      rw [List.map_cons, Clashing, List.pairwise_cons] at hclash
      rw [Decoder.branch]
      rcases List.mem_cons.1 hmem with heq | hmem
      · cases heq
        rw [stripped_append]
      · have hfirst := hclash.1 opening (List.mem_map_of_mem (f := Prod.fst) hmem)
        rw [stripped_of_clash text hfirst]
        exact ih hmem hclash.2

theorem decodes_branch
    {table : List (String × Decoder α)} {opening : String} {x : Decoder α}
    (hmem : (opening, x) ∈ table) (hclash : Clashing (table.map Prod.fst))
    (h : Decodes d x ps a) :
    Decodes d (Decoder.branch table) (.text opening :: ps) a := by
  intro n text values htext
  rw [Piece.write, String.toList_append, List.append_assoc, Piece.values_text,
    branch_eq hmem hclash]
  exact h n text values htext

theorem decodes_branch_hole
    {table : List (String × Decoder α)} {f : Value → Decoder α} {v : Value}
    (hmem : (d.mark, Decoder.value d >>= f) ∈ table) (hclash : Clashing (table.map Prod.fst))
    (h : Decodes d (f v) ps a) :
    Decodes d (Decoder.branch table) (.hole v :: ps) a := by
  intro n text values htext
  rw [Piece.write, Dialect.placeholder_eq, String.toList_append, String.toList_append,
    List.append_assoc, List.append_assoc, Piece.values_hole, List.cons_append,
    branch_eq hmem hclash, decodes_value h n text values htext, List.length_cons,
    Nat.add_comm (Piece.values ps).length, Nat.add_assoc]

/-- Nothing is read off an empty text. -/
theorem branch_nil
    {table : List (String × Decoder α)} {values : List Value} (n : Nat)
    (h : ∀ opening ∈ table.map Prod.fst, opening.toList ≠ []) :
    Decoder.branch table ⟨n, [], values⟩ = none := by
  induction table with
  | nil => rfl
  | cons entry rest ih =>
      obtain ⟨opening, x⟩ := entry
      rw [List.map_cons, List.forall_mem_cons] at h
      rw [Decoder.branch]
      cases hopening : opening.toList with
      | nil => exact absurd hopening h.1
      | cons c cs => exact ih h.2

/-- Things that are decoded one by one are decoded as a list. -/
theorem decodes_listOf
    {item : Decoder α} {pieces : β → List Piece} {result : β → α} (separator : String)
    (hbegins : BeginsUnquoted separator) (hclash : clash separator.toList [')'] = true) :
    ∀ {items : List β} {limit : Nat}, items ≠ [] → items.length ≤ limit →
      (∀ b ∈ items, Decodes d item (pieces b) (result b)) →
      Decodes d (Decoder.listOf separator item limit)
        (Piece.separated separator (items.map pieces) ++ [.text ")"]) (items.map result)
  | [], _, hitems, _, _ => absurd rfl hitems
  | _ :: _, 0, _, hlimit, _ => absurd hlimit (by simp)
  | [b], limit + 1, _, _, h => by
      rw [Decoder.listOf]
      have hsingle : Piece.separated separator ([b].map pieces) = pieces b := by
        simp [Piece.separated, List.intercalate]
      rw [hsingle]
      refine (h b List.mem_cons_self).bind ?_ (startsUnquoted_close _)
      refine decodes_branch (by simp) ?_ (decodes_pure _)
      simpa [Clashing] using hclash
  | b :: next :: rest, limit + 1, _, hlimit, h => by
      obtain ⟨hb, hrest⟩ := List.forall_mem_cons.1 h
      rw [Decoder.listOf, List.map_cons, List.map_cons, Piece.separated_cons_cons,
        ← List.map_cons, List.append_assoc, List.cons_append]
      refine hb.bind ?_ (startsUnquoted_text _ hbegins)
      refine decodes_branch (List.mem_cons_self) (by simpa [Clashing] using hclash) ?_
      exact (decodes_listOf separator hbegins hclash (List.cons_ne_nil next rest)
        (Nat.le_of_succ_le_succ hlimit) hrest).map (result b :: ·)

end Rules

end Sql
end RowFilter
