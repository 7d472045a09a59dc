import RowFilter.Sql.Text

/-!
# Reading placeholders

A statement is read from left to right by a device with a few states.  Quoted
identifiers and string literals are skipped; a quote that stands twice inside
them does not end them.  Every dollar sign with the digits behind it, and every
question mark, is a placeholder if it is met outside quotes.

The device knows nothing of the pieces that a statement was written from.  The
results say that it still finds their holes:

* `Reads.append`: texts are read one after the other, if the second cannot be
  taken for a continuation of the first;
* `Piece.Readable.append` and its companions: the same for rows of pieces.
-/

namespace RowFilter
namespace Sql

/-- Characters that open quotes. -/
def Dialect.isQuote (d : Dialect) (c : Char) : Bool :=
  c == '\'' || c == d.identifierQuote

/-- Characters that can continue neither a placeholder nor a text in quotes. -/
def separators : List Char :=
  [' ', ',', ')', '.']

/-- Where the reading of a statement stands. -/
inductive Reader where
  /-- Outside quotes. -/
  | outside
  /-- Inside quotes. -/
  | quoted (quote : Char)
  /-- Behind a quote that is the last one unless it stands twice. -/
  | closing (quote : Char)
  /-- Behind a dollar sign and some digits. -/
  | numbered (digits : List Char)

namespace Reader

/-- A character outside quotes: the placeholder that it is, and what it opens. -/
def enter (d : Dialect) (c : Char) : List String × Reader :=
  if d.isQuote c then ([], .quoted c)
  else if c == '$' then ([], .numbered [])
  else if c == '?' then (["?"], .outside)
  else ([], .outside)

/-- The placeholder that ends where the reading stands. -/
def pending : Reader → List String
  | numbered digits => ["$" ++ String.ofList digits]
  | _ => []

/-- Reads one character: the placeholders that end before or with it. -/
def step (d : Dialect) : Reader → Char → List String × Reader
  | outside, c => enter d c
  | quoted q, c => ([], if c == q then .closing q else .quoted q)
  | closing q, c => if c == q then ([], .quoted q) else enter d c
  | numbered digits, c =>
      if c.isDigit then
        ([], .numbered (digits ++ [c]))
      else
        (pending (.numbered digits) ++ (enter d c).1, (enter d c).2)

/-- Reads a text. -/
def read (d : Dialect) : Reader → List Char → List String × Reader
  | r, [] => ([], r)
  | r, c :: cs =>
      ((r.step d c).1 ++ (read d (r.step d c).2 cs).1, (read d (r.step d c).2 cs).2)

/-- The reading does not stand inside quotes, and a separator will not lead it
back into them. -/
def AtRest : Reader → Prop
  | quoted _ => False
  | closing q => q ∉ separators
  | _ => True

theorem read_append
    (d : Dialect) (r : Reader) (first second : List Char) :
    r.read d (first ++ second) =
      ((r.read d first).1 ++ ((r.read d first).2.read d second).1,
        ((r.read d first).2.read d second).2) := by
  induction first generalizing r with
  | nil =>
      simp [read]
  | cons c cs ih =>
      simp [read, ih, List.append_assoc]

end Reader

/-- Reads a text from outside quotes. -/
def Dialect.read (d : Dialect) (text : String) : List String × Reader :=
  Reader.outside.read d text.toList

/-- The placeholders of a statement. -/
def Dialect.placeholders (d : Dialect) (sql : String) : List String :=
  (d.read sql).1 ++ (d.read sql).2.pending

/-- Characters that mean something to the reading of placeholders: dollar sign,
question mark, and the quotes of all dialects. -/
def marks : List Char :=
  ['$', '?', '\'', '"', Char.ofNat 0x60]

/-- The text holds no mark. -/
def Unmarked (text : String) : Prop :=
  ∀ c ∈ text.toList, c ∉ marks

-- The list is gone through, not the type of characters, which is finite as well.
instance (text : String) : Decidable (Unmarked text) :=
  List.decidableBAll (fun c => c ∉ marks) text.toList

/-- The text is empty or starts with a separator. -/
def Parted (text : String) : Prop :=
  ∀ c ∈ text.toList.head?, c ∈ separators

instance (text : String) : Decidable (Parted text) :=
  Option.decidableForallMem text.toList.head?

/-- Outside quotes the text is read with these placeholders, and it leaves the
reading outside quotes.  A placeholder or closing quote may be the last thing. -/
def Reads (d : Dialect) (text : String) (found : List String) : Prop :=
  (d.read text).2.AtRest ∧ (d.read text).1 ++ (d.read text).2.pending = found

/-- Outside quotes the text holds no placeholder, and anything may follow it. -/
def Opens (d : Dialect) (text : String) : Prop :=
  d.read text = ([], .outside)

theorem parted_append
    {first : String} {c : Char}
    (hfirst : first.toList.head? = some c) (hc : c ∈ separators) (rest : String) :
    Parted (first ++ rest) := by
  intro c' hc'
  rw [String.toList_append, List.head?_append, hfirst] at hc'
  cases hc'
  exact hc

theorem separators_unmarked :
    ∀ c ∈ separators, c ∉ marks := by
  intro c hc
  simp only [separators, List.mem_cons, List.not_mem_nil, or_false] at hc
  rcases hc with rfl | rfl | rfl | rfl
  all_goals decide

theorem separators_not_digits :
    ∀ c ∈ separators, c.isDigit = false := by
  intro c hc
  simp only [separators, List.mem_cons, List.not_mem_nil, or_false] at hc
  rcases hc with rfl | rfl | rfl | rfl
  all_goals decide

section Texts

variable {d : Dialect}

theorem isQuote_of_unmarked
    {c : Char}
    (h : c ∉ marks) :
    d.isQuote c = false := by
  have hne : ∀ m ∈ marks, c ≠ m := by
    intro m hm hc
    exact h (hc ▸ hm)
  have hsingle := hne '\'' (by decide)
  have hdouble := hne '"' (by decide)
  have hback := hne (Char.ofNat 0x60) (by decide)
  cases d <;> simp [Dialect.isQuote, Dialect.identifierQuote, hsingle, hdouble, hback]

theorem enter_of_unmarked
    {c : Char}
    (h : c ∉ marks) :
    Reader.enter d c = ([], .outside) := by
  have hdollar : c ≠ '$' := by
    rintro rfl
    exact h (by decide)
  have hquestion : c ≠ '?' := by
    rintro rfl
    exact h (by decide)
  simp [Reader.enter, isQuote_of_unmarked h, hdollar, hquestion]

theorem read_unmarked
    {cs : List Char}
    (h : ∀ c ∈ cs, c ∉ marks) :
    Reader.outside.read d cs = ([], .outside) := by
  induction cs with
  | nil =>
      rfl
  | cons c cs ih =>
      have hc : Reader.enter d c = ([], .outside) :=
        enter_of_unmarked (h c (by simp))
      have hcs := ih fun c' hc' => h c' (List.mem_cons_of_mem c hc')
      simp [Reader.read, Reader.step, hc, hcs]

/-- A text without marks is passed over. -/
theorem opens_of_unmarked
    {text : String}
    (h : Unmarked text) :
    Opens d text :=
  read_unmarked h

theorem read_append
    (first second : String) :
    d.read (first ++ second) =
      ((d.read first).1 ++ ((d.read first).2.read d second.toList).1,
        ((d.read first).2.read d second.toList).2) := by
  unfold Dialect.read
  rw [String.toList_append, Reader.read_append]

theorem Opens.reads
    {text : String}
    (h : Opens d text) :
    Reads d text [] := by
  unfold Opens at h
  simp [Reads, h, Reader.AtRest, Reader.pending]

/-- Behind a text that opens, a text is read as at the start. -/
theorem Opens.append_reads
    {first second : String} {found : List String}
    (h₁ : Opens d first) (h₂ : Reads d second found) :
    Reads d (first ++ second) found := by
  unfold Opens at h₁
  unfold Reads at *
  rw [read_append, h₁]
  simpa [Dialect.read] using h₂

/-- A separator ends what the reading stands behind, and nothing else happens. -/
theorem step_of_separator
    {r : Reader} {c : Char}
    (hr : r.AtRest) (hc : c ∈ separators) :
    r.step d c = (r.pending, .outside) := by
  have henter : Reader.enter d c = ([], .outside) :=
    enter_of_unmarked (separators_unmarked c hc)
  cases r with
  | outside =>
      simp [Reader.step, henter, Reader.pending]
  | quoted q =>
      exact hr.elim
  | closing q =>
      have hq : c ≠ q := by
        rintro rfl
        exact hr hc
      simp [Reader.step, hq, henter, Reader.pending]
  | numbered digits =>
      simp [Reader.step, separators_not_digits c hc, henter]

/-- At rest, a text that starts with a separator is read as at the start. -/
theorem read_of_separator
    {r : Reader} {c : Char} (cs : List Char)
    (hr : r.AtRest) (hc : c ∈ separators) :
    r.read d (c :: cs) =
      (r.pending ++ (Reader.outside.read d (c :: cs)).1,
        (Reader.outside.read d (c :: cs)).2) := by
  have hhere := step_of_separator (d := d) hr hc
  have hthere : Reader.outside.step d c = ([], .outside) :=
    step_of_separator trivial hc
  simp only [Reader.read, hhere, hthere, List.nil_append]

/-- A text that is parted from the one before it is read on its own. -/
theorem Reads.append
    {first second : String} {found more : List String}
    (h₁ : Reads d first found) (h₂ : Reads d second more)
    (hpart : Parted second) :
    Reads d (first ++ second) (found ++ more) := by
  obtain ⟨hrest, hfound⟩ := h₁
  obtain ⟨hrest', hmore⟩ := h₂
  unfold Reads
  rw [read_append]
  cases htext : second.toList with
  | nil =>
      have hnone : more = [] := by
        simpa [Dialect.read, htext, Reader.read, Reader.pending] using hmore.symm
      subst hnone
      simpa [Reader.read] using ⟨hrest, hfound⟩
  | cons c cs =>
      have hc : c ∈ separators := hpart c (by simp [htext])
      unfold Dialect.read at hrest' hmore
      rw [htext] at hrest' hmore
      rw [read_of_separator cs hrest hc, ← hfound, ← hmore]
      exact ⟨hrest', by simp [List.append_assoc]⟩

/-- Behind a text without placeholders, a separator and no marks open again. -/
theorem Reads.append_opens
    {first second : String} {c : Char}
    (h₁ : Reads d first []) (h₂ : Opens d second)
    (hs : second.toList.head? = some c) (hc : c ∈ separators) :
    Opens d (first ++ second) := by
  obtain ⟨hrest, hfound⟩ := h₁
  obtain ⟨hout, hpending⟩ := List.append_eq_nil_iff.1 hfound
  obtain ⟨cs, htext⟩ := List.head?_eq_some_iff.1 hs
  unfold Opens Dialect.read at h₂
  unfold Opens
  rw [htext] at h₂
  rw [read_append, htext, read_of_separator cs hrest hc, h₂, hout, hpending]
  rfl

theorem read_doubled
    (q : Char) (s : String) (rest : List Char) :
    (Reader.quoted q).read d (doubled q s ++ rest) = (Reader.quoted q).read d rest := by
  unfold doubled
  induction s.toList with
  | nil =>
      rfl
  | cons c cs ih =>
      by_cases h : c = q
      · subst h
        simpa [Reader.read, Reader.step] using ih
      · simpa [Reader.read, Reader.step, h] using ih

/-- A text in quotes is skipped, whatever it holds. -/
theorem read_inQuotes
    {q : Char}
    (hq : d.isQuote q = true) (s : String) :
    d.read (inQuotes q s) = ([], .closing q) := by
  simp only [Dialect.read, inQuotes, String.toList_ofList, Reader.read, Reader.step]
  simp [Reader.enter, hq, read_doubled, Reader.read, Reader.step]

theorem isQuote_separator
    {q : Char}
    (hq : d.isQuote q = true) :
    q ∉ separators := by
  intro hs
  simp [isQuote_of_unmarked (separators_unmarked q hs)] at hq

theorem reads_inQuotes
    {q : Char}
    (hq : d.isQuote q = true) (s : String) :
    Reads d (inQuotes q s) [] := by
  simpa [Reads, read_inQuotes hq s, Reader.AtRest, Reader.pending] using isQuote_separator hq

theorem reads_quoted
    (s : String) :
    Reads d (d.quoted s) [] :=
  reads_inQuotes (by simp [Dialect.isQuote]) s

theorem reads_stringLiteral
    (s : String) :
    Reads d (stringLiteral s) [] :=
  reads_inQuotes (by simp [Dialect.isQuote]) s

/-- Digits behind a dollar sign belong to the placeholder. -/
theorem read_digits
    (before digits : List Char)
    (h : ∀ c ∈ digits, c.isDigit = true) :
    (Reader.numbered before).read d digits = ([], .numbered (before ++ digits)) := by
  induction digits generalizing before with
  | nil =>
      simp [Reader.read]
  | cons c cs ih =>
      have hc : c.isDigit = true := h c (by simp)
      have hcs := ih (before ++ [c]) fun c' hc' => h c' (List.mem_cons_of_mem c hc')
      simp [Reader.read, Reader.step, hc, hcs]

/-- A placeholder is found. -/
theorem reads_placeholder
    (n : Nat) :
    Reads d (d.placeholder n) [d.placeholder n] := by
  cases d with
  | postgres =>
      have hdigits : ∀ c ∈ Decimal.digitChars (n + 1), c.isDigit = true :=
        fun c hc => Nat.isDigit_of_mem_toDigits (by decide) (by decide) hc
      have hdollar : Reader.outside.step .postgres '$' = ([], .numbered []) := by
        simp [Reader.step, Reader.enter, Dialect.isQuote, Dialect.identifierQuote]
      simp [Reads, Dialect.read, Dialect.placeholder, Reader.read, hdollar,
        read_digits [] _ hdigits, Reader.AtRest, Reader.pending]
  | mysql =>
      simp [Reads, Dialect.read, Dialect.placeholder, Reader.read, Reader.step, Reader.enter,
        Dialect.isQuote, Dialect.identifierQuote, Reader.AtRest, Reader.pending]

end Texts

namespace Piece

/-- The values in the holes of the pieces. -/
def values (pieces : List Piece) : List Value :=
  pieces.filterMap value?

@[simp] theorem values_nil :
    values [] = [] := by
  rfl

@[simp] theorem values_text
    (s : String) (rest : List Piece) :
    values (.text s :: rest) = values rest := by
  rfl

@[simp] theorem values_hole
    (v : Value) (rest : List Piece) :
    values (.hole v :: rest) = v :: values rest := by
  rfl

@[simp] theorem values_append
    (first second : List Piece) :
    values (first ++ second) = values first ++ values second := by
  simp [values]

theorem separated_cons_cons
    (separator : String) (row next : List Piece) (rest : List (List Piece)) :
    separated separator (row :: next :: rest) =
      row ++ .text separator :: separated separator (next :: rest) := by
  simp [separated, List.intercalate]

@[simp] theorem values_separated
    (separator : String) (rows : List (List Piece)) :
    values (separated separator rows) = rows.flatMap values := by
  induction rows with
  | nil =>
      rfl
  | cons row rest ih =>
      cases rest with
      | nil =>
          simp [separated, List.intercalate]
      | cons next others =>
          rw [separated_cons_cons, values_append, values_text, ih]
          rfl

/-- Wherever the pieces stand in a statement, the placeholders found in their
text are those of their holes. -/
def Readable (d : Dialect) (pieces : List Piece) : Prop :=
  ∀ n, Reads d (write d n pieces) ((List.range' n (values pieces).length).map d.placeholder)

/-- The text of the pieces is parted from what stands before it. -/
def Apart (d : Dialect) (pieces : List Piece) : Prop :=
  ∀ n, Parted (write d n pieces)

section Rows

variable {d : Dialect}

theorem readable_nil :
    Readable d [] := by
  intro n
  simp [write, Reads, Dialect.read, Reader.read, Reader.AtRest, Reader.pending]

theorem readable_text
    {s : String}
    (h : Reads d s []) :
    Readable d [.text s] := by
  intro n
  simpa [write] using h

theorem readable_hole
    (v : Value) :
    Readable d [.hole v] := by
  intro n
  simpa [write] using reads_placeholder n

/-- A text that opens may stand in front of any pieces. -/
theorem Readable.cons
    {s : String} {pieces : List Piece}
    (hs : Opens d s) (h : Readable d pieces) :
    Readable d (.text s :: pieces) := by
  intro n
  simpa [write] using hs.append_reads (h n)

/-- Pieces go on counting where those before them stopped. -/
theorem Readable.append
    {first second : List Piece}
    (h₁ : Readable d first) (h₂ : Readable d second)
    (hapart : Apart d second) :
    Readable d (first ++ second) := by
  intro n
  rw [write_append, values_append, List.length_append,
    ← List.range'_append_1, List.map_append]
  exact (h₁ n).append (h₂ _) (hapart _)

theorem apart_nil :
    Apart d [] := by
  intro n
  simp [write, Parted]

/-- A text that starts with a separator parts what follows it. -/
theorem apart_text
    {s : String} {c : Char}
    (hs : s.toList.head? = some c) (hc : c ∈ separators) (rest : List Piece) :
    Apart d (.text s :: rest) := by
  intro n
  rw [write]
  exact parted_append hs hc _

/-- Pieces that are apart, or else without text, before pieces that are. -/
theorem Apart.append
    {first second : List Piece}
    (h₁ : Apart d first) (h₂ : Apart d second) :
    Apart d (first ++ second) := by
  intro n c hc
  rw [write_append, String.toList_append, List.head?_append] at hc
  cases hfirst : (write d n first).toList.head? with
  | none =>
      exact h₂ _ c (by simpa [hfirst] using hc)
  | some c' =>
      have hcc : c' = c := by simpa [hfirst] using hc
      exact h₁ n c (by simp [hfirst, hcc])

/-- Rows are readable together if the text between them opens and parts them. -/
theorem readable_separated
    {separator : String} {c : Char}
    (hopens : Opens d separator)
    (hs : separator.toList.head? = some c) (hc : c ∈ separators)
    {rows : List (List Piece)}
    (h : ∀ row ∈ rows, Readable d row) :
    Readable d (separated separator rows) := by
  induction rows with
  | nil =>
      exact readable_nil
  | cons row rest ih =>
      have hrow : Readable d row := h row (by simp)
      have hrest : Readable d (separated separator rest) :=
        ih fun row' hrow' => h row' (List.mem_cons_of_mem row hrow')
      cases rest with
      | nil =>
          simpa [separated, List.intercalate] using hrow
      | cons next others =>
          rw [separated_cons_cons]
          exact hrow.append (hrest.cons hopens) (apart_text hs hc _)

end Rows
end Piece

theorem Expr.rows_eq_map
    (d : Dialect) (es : List Expr) :
    Expr.rows d es = es.map (Expr.pieces d) := by
  induction es with
  | nil => rfl
  | cons e rest ih => rw [Expr.rows, ih, List.map_cons]

end Sql
end RowFilter
