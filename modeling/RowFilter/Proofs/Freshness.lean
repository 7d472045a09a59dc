import Mathlib.Data.List.Basic
import RowFilter.Labels

/-!
# Labels keep clear of the names in use

A label ends in its number, so labels with different numbers differ, whatever
bases they were made from.  Names of row sources that are in use were given out
before and are not kept for any JSON field; so neither a new label nor the one of
a JSON field is among them.

* `Labels.Reserves`: what holds of the names in use.
* `Labels.Apart`: a label that is none of the names in use.
* `Labels.reserves_fresh`, `Labels.reserves_ofField`, `Labels.reserves_ofElements`:
  what each request for a label gives.
-/

namespace RowFilter
namespace Labels

/-- The name has the form of a label. -/
def IsLabel (name : String) : Prop :=
  ∃ base n, name = numbered base n

/-- The name has the form of a label with one of the numbers given out. -/
def GaveOut (l : Labels) (name : String) : Prop :=
  ∃ base n, name = numbered base n ∧ n ≤ l.count

/-- The labels of JSON fields and of elements inside them. -/
def registered (l : Labels) : List String :=
  l.fields.map Prod.snd ++ l.elements.map Prod.snd

/-- The names were given out as labels, and none of them is kept for a JSON field
or for elements inside one. -/
structure Reserves (l : Labels) (names : List String) : Prop where
  gaveOut : ∀ name ∈ names, l.GaveOut name
  registered : ∀ label ∈ l.registered, l.GaveOut label
  apart : ∀ label ∈ l.registered, label ∉ names

/-- A label that is none of the names. -/
structure Apart (names : List String) (label : String) : Prop where
  isLabel : IsLabel label
  not_mem : label ∉ names

/-- The digits of a label are those that it ends in. -/
theorem takeWhile_reverse_numbered
    (base : String) (n : Nat) :
    (numbered base n).toList.reverse.takeWhile Char.isDigit =
      (Decimal.digitChars n).reverse := by
  have hdigits : ∀ c ∈ (Decimal.digitChars n).reverse, c.isDigit = true :=
    fun c hc => Nat.isDigit_of_mem_toDigits (by decide) (by decide) (List.mem_reverse.1 hc)
  have hreverse : (numbered base n).toList.reverse =
      (Decimal.digitChars n).reverse ++ '_' :: base.toList.reverse := by
    simp [numbered]
  rw [hreverse, List.takeWhile_append_of_pos hdigits]
  simp

/-- A name that does not end in a digit is no label. -/
theorem not_isLabel_of_takeWhile
    {name : String}
    (h : name.toList.reverse.takeWhile Char.isDigit = []) :
    ¬ IsLabel name := by
  rintro ⟨base, n, rfl⟩
  rw [takeWhile_reverse_numbered, List.reverse_eq_nil_iff] at h
  exact Nat.toDigits_ne_nil h

/-- Labels with different numbers differ. -/
theorem number_eq_of_numbered_eq
    {base base' : String} {n m : Nat}
    (h : numbered base n = numbered base' m) :
    n = m := by
  have hreverse : (Decimal.digitChars n).reverse = (Decimal.digitChars m).reverse := by
    rw [← takeWhile_reverse_numbered base n, ← takeWhile_reverse_numbered base' m, h]
  have hdigits : Nat.toDigits 10 n = Nat.toDigits 10 m := List.reverse_injective hreverse
  have hvalue := congrArg (fun digits => Nat.ofDigitChars 10 digits 0) hdigits
  simpa using hvalue

theorem GaveOut.isLabel
    {l : Labels} {name : String}
    (h : l.GaveOut name) :
    IsLabel name := by
  obtain ⟨base, n, rfl, -⟩ := h
  exact ⟨base, n, rfl⟩

theorem GaveOut.mono
    {l l' : Labels} {name : String}
    (h : l.GaveOut name) (hcount : l.count ≤ l'.count) :
    l'.GaveOut name := by
  obtain ⟨base, n, rfl, hn⟩ := h
  exact ⟨base, n, rfl, Nat.le_trans hn hcount⟩

theorem not_gaveOut_next
    (l : Labels) (base : String) :
    ¬ l.GaveOut (numbered base (l.count + 1)) := by
  rintro ⟨base', n, hname, hn⟩
  have hnumber := number_eq_of_numbered_eq hname
  omega

theorem gaveOut_next
    {l l' : Labels} (base : String)
    (hcount : l'.count = l.count + 1) :
    l'.GaveOut (numbered base (l.count + 1)) :=
  ⟨base, l.count + 1, rfl, Nat.le_of_eq hcount.symm⟩

theorem Reserves.subset
    {l : Labels} {names names' : List String}
    (h : l.Reserves names) (hsubset : names' ⊆ names) :
    l.Reserves names' where
  gaveOut name hname := h.gaveOut name (hsubset hname)
  registered := h.registered
  apart label hlabel hname := h.apart label hlabel (hsubset hname)

theorem reserves_empty :
    ({} : Labels).Reserves [] := by
  constructor <;> simp [Labels.registered]

/-- A new label is none of the names, and can be used beside them. -/
theorem reserves_fresh
    {l : Labels} {names : List String} (base : String)
    (h : l.Reserves names) :
    Apart names (l.fresh base).1 ∧ (l.fresh base).2.Reserves (names ++ [(l.fresh base).1]) := by
  have hnew := l.not_gaveOut_next base
  have hmore : l.count ≤ (l.fresh base).2.count := Nat.le_succ _
  refine ⟨⟨⟨base, _, rfl⟩, fun hname => hnew (h.gaveOut _ hname)⟩, ?_, ?_, ?_⟩
  · intro name hname
    rcases List.mem_append.1 hname with hname | hname
    · exact (h.gaveOut name hname).mono hmore
    · obtain rfl := List.mem_singleton.1 hname
      exact gaveOut_next base rfl
  · intro label hlabel
    exact (h.registered label hlabel).mono hmore
  · intro label hlabel hname
    rcases List.mem_append.1 hname with hname | hname
    · exact h.apart label hlabel hname
    · obtain rfl := List.mem_singleton.1 hname
      exact hnew (h.registered _ hlabel)

/-- A label that is kept from now on. -/
theorem Reserves.register
    {l l' : Labels} {names : List String} (base : String)
    (h : l.Reserves names) (hcount : l'.count = l.count + 1)
    (hregistered : ∀ label ∈ l'.registered,
      label ∈ l.registered ∨ label = numbered base (l.count + 1)) :
    Apart names (numbered base (l.count + 1)) ∧ l'.Reserves names := by
  have hmore : l.count ≤ l'.count := by omega
  have happart : numbered base (l.count + 1) ∉ names :=
    fun hname => l.not_gaveOut_next base (h.gaveOut _ hname)
  refine ⟨⟨⟨base, _, rfl⟩, happart⟩, fun name hname => (h.gaveOut name hname).mono hmore, ?_, ?_⟩
  · intro label hlabel
    rcases hregistered label hlabel with hold | rfl
    · exact (h.registered label hold).mono hmore
    · exact gaveOut_next base hcount
  · intro label hlabel
    rcases hregistered label hlabel with hold | rfl
    · exact h.apart label hold
    · exact happart

theorem Reserves.apart_of_mem
    {l : Labels} {names : List String} {label : String}
    (h : l.Reserves names) (hlabel : label ∈ l.registered) :
    Apart names label :=
  ⟨(h.registered label hlabel).isLabel, h.apart label hlabel⟩

/-- A member of a table that was looked up. -/
theorem mem_of_lookup
    {table : List ((String × String) × String)} {key : String × String} {label : String}
    (h : table.lookup key = some label) :
    label ∈ table.map Prod.snd := by
  obtain ⟨before, after, rfl, -⟩ := List.lookup_eq_some_iff.1 h
  simp

/-- The label of a JSON field is none of the names. -/
theorem reserves_ofField
    {l : Labels} {names : List String} (collection field : String)
    (h : l.Reserves names) :
    Apart names (l.ofField collection field).1.label ∧
      (l.ofField collection field).2.Reserves names := by
  unfold ofField
  cases hlookup : l.field? collection field with
  | some label =>
      exact ⟨h.apart_of_mem (List.mem_append_left _ (mem_of_lookup hlookup)), h⟩
  | none =>
      refine h.register field rfl fun label hlabel => ?_
      simp only [registered, fresh, List.map_append, List.mem_append] at hlabel ⊢
      rcases hlabel with (hold | hnew) | hold
      · exact .inl (.inl hold)
      · exact .inr (by simpa using hnew)
      · exact .inl (.inr hold)

/-- The label of elements inside a JSON field is none of the names. -/
theorem reserves_ofElements
    {l : Labels} {names : List String} (collection field path : String)
    (h : l.Reserves names) :
    Apart names (l.ofElements collection field path).1.label ∧
      (l.ofElements collection field path).2.Reserves names := by
  have hfield := (reserves_ofField collection field h).2
  unfold ofElements
  generalize l.ofField collection field = outcome at hfield ⊢
  obtain ⟨_, l'⟩ := outcome
  cases hlookup : l'.elements.lookup (elementsKey collection field path) with
  | some label =>
      simp only [hlookup]
      exact ⟨hfield.apart_of_mem (List.mem_append_right _ (mem_of_lookup hlookup)), hfield⟩
  | none =>
      simp only [hlookup]
      refine hfield.register field rfl fun label hlabel => ?_
      simp only [registered, fresh, List.map_append, List.mem_append] at hlabel ⊢
      rcases hlabel with hold | hold | hnew
      · exact .inl (.inl hold)
      · exact .inl (.inr hold)
      · exact .inr (by simpa using hnew)

end Labels
end RowFilter
