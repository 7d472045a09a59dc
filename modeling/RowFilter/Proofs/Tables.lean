import Mathlib.Data.List.Forall2
import Mathlib.Data.List.Nodup
import RowFilter.Json.Record

/-!
# Tables

A table is a list of entries with a key each.  If the keys are distinct then an entry is found
by its key, wherever it stands.  A table that is read from a document has distinct names, and
a table with distinct names is read back from the document it is written as.

* `lookup_eq_some_iff_mem`: an entry is found by its key.
* `SameKeys`: tables with the same keys and related values.
* `Json.nodup_uniqueMembers`, `Json.uniqueMembers_of_nodup`: names that are distinct.
* `Json.entries_of_table?`, `Json.table?_written`: tables in documents.
-/

namespace RowFilter

/-! ## Entries and their keys -/

section Keys

variable {κ α β : Type}

theorem lookup_of_mem
    [BEq κ] [LawfulBEq κ] {table : List (κ × α)} {x : κ × α}
    (hx : x ∈ table) (hkeys : (table.map Prod.fst).Nodup) :
    table.lookup x.1 = some x.2 := by
  induction table with
  | nil => cases hx
  | cons first rest ih =>
      rw [List.map_cons, List.nodup_cons] at hkeys
      rcases List.mem_cons.1 hx with rfl | hrest
      · rw [List.lookup_cons, beq_self_eq_true]
      · have hne : (x.1 == first.1) = false := by
          rw [beq_eq_false_iff_ne]
          rintro heq
          exact hkeys.1 (heq ▸ List.mem_map_of_mem hrest)
        rw [List.lookup_cons, hne]
        exact ih hrest hkeys.2

/-- In a table with distinct keys the entries are what is found. -/
theorem lookup_eq_some_iff_mem
    [BEq κ] [LawfulBEq κ] {table : List (κ × α)} {key : κ} {a : α}
    (hkeys : (table.map Prod.fst).Nodup) :
    table.lookup key = some a ↔ (key, a) ∈ table := by
  refine ⟨fun h => ?_, fun h => lookup_of_mem h hkeys⟩
  obtain ⟨before, after, rfl, -⟩ := List.lookup_eq_some_iff.1 h
  simp

/-- What is found does not depend on the order of the entries. -/
theorem lookup_eq_of_perm
    [BEq κ] [LawfulBEq κ] {table table' : List (κ × α)}
    (h : table.Perm table') (hkeys : (table.map Prod.fst).Nodup) (key : κ) :
    table.lookup key = table'.lookup key := by
  have hkeys' : (table'.map Prod.fst).Nodup := (h.map Prod.fst).nodup_iff.1 hkeys
  refine Option.ext fun a => ?_
  rw [lookup_eq_some_iff_mem hkeys, lookup_eq_some_iff_mem hkeys', h.mem_iff]

/-- Tables with the same keys, whose values `Q` relates. -/
abbrev SameKeys {κ α β : Type} (Q : α → β → Prop) : List (κ × α) → List (κ × β) → Prop :=
  List.Forall₂ fun x x' => x.1 = x'.1 ∧ Q x.2 x'.2

theorem SameKeys.lookup
    {κ α β : Type} [BEq κ] {Q : α → β → Prop} {table : List (κ × α)} {table' : List (κ × β)}
    (h : SameKeys Q table table') (key : κ) :
    Option.Rel Q (table.lookup key) (table'.lookup key) := by
  induction h with
  | nil => exact .none
  | @cons x x' rest rest' hx _ ih =>
      rw [List.lookup_cons, List.lookup_cons, ← hx.1]
      split
      · exact .some hx.2
      · exact ih

theorem SameKeys.keys_eq
    {Q : α → β → Prop} {table : List (κ × α)} {table' : List (κ × β)}
    (h : SameKeys Q table table') :
    table.map Prod.fst = table'.map Prod.fst := by
  induction h with
  | nil => rfl
  | cons hx _ ih => rw [List.map_cons, List.map_cons, hx.1, ih]

theorem SameKeys.exists_of_mem
    {Q : α → β → Prop} {table : List (κ × α)} {table' : List (κ × β)} {x' : κ × β}
    (h : SameKeys Q table table') (hx' : x' ∈ table') :
    ∃ x ∈ table, x.1 = x'.1 ∧ Q x.2 x'.2 := by
  induction h with
  | nil => cases hx'
  | @cons x _ rest _ hx _ ih =>
      rcases List.mem_cons.1 hx' with rfl | hx'
      · exact ⟨x, List.mem_cons_self, hx⟩
      · obtain ⟨y, hy, hrelated⟩ := ih hx'
        exact ⟨y, List.mem_cons_of_mem x hy, hrelated⟩

end Keys

/-! ## Lists that are read item by item -/

/-- Items that are read as they were written are read so in a list. -/
theorem mapM_written
    {m : Type → Type} [Monad m] [LawfulMonad m] {α β : Type} {read : β → m α} {write : α → β}
    {as : List α}
    (h : ∀ a ∈ as, read (write a) = pure a) :
    (as.map write).mapM read = pure as := by
  induction as with
  | nil => rfl
  | cons a as ih =>
      obtain ⟨ha, has⟩ := List.forall_mem_cons.1 h
      rw [List.map_cons, List.mapM_cons, ha, ih has, pure_bind, pure_bind]

theorem exists_of_mem_mapM
    {α β : Type} {read? : β → Option α} {bs : List β} {as : List α} {a : α}
    (h : bs.mapM read? = some as) (ha : a ∈ as) :
    ∃ b ∈ bs, read? b = some a := by
  induction bs generalizing as with
  | nil =>
      cases h
      cases ha
  | cons b bs ih =>
      rw [List.mapM_cons] at h
      obtain ⟨first, hfirst, h⟩ := Option.bind_eq_some_iff.1 h
      obtain ⟨rest, hrest, h⟩ := Option.bind_eq_some_iff.1 h
      cases h
      rcases List.mem_cons.1 ha with rfl | ha
      · exact ⟨b, List.mem_cons_self, hfirst⟩
      · obtain ⟨b', hb', hread⟩ := ih hrest ha
        exact ⟨b', List.mem_cons_of_mem b hb', hread⟩

/-! ## Tables in documents -/

namespace Json

variable {α : Type}

/-- A name that is there keeps its place, and a new one comes last. -/
theorem names_setMember
    (name : String) (a : α) (members : List (String × α)) :
    (setMember name a members).map Prod.fst =
      if name ∈ members.map Prod.fst then members.map Prod.fst
      else members.map Prod.fst ++ [name] := by
  induction members with
  | nil => rfl
  | cons m rest ih =>
      obtain ⟨k, v⟩ := m
      rw [setMember]
      by_cases hk : k = name
      · simp [hk]
      · have hname : ¬name = k := fun h => hk h.symm
        by_cases hrest : name ∈ rest.map Prod.fst <;> simp_all

theorem setMember_of_not_mem
    {name : String} {members : List (String × α)}
    (h : name ∉ members.map Prod.fst) (a : α) :
    setMember name a members = members ++ [(name, a)] := by
  induction members with
  | nil => rfl
  | cons m rest ih =>
      rw [List.map_cons, List.mem_cons, not_or] at h
      have hne : (m.1 == name) = false := beq_false_of_ne fun heq => h.1 heq.symm
      rw [setMember, hne, ih h.2]
      rfl

theorem mem_setMember
    {name : String} {a : α} {members : List (String × α)} {x : String × α}
    (h : x ∈ setMember name a members) :
    x = (name, a) ∨ x ∈ members := by
  induction members with
  | nil => exact .inl (List.mem_singleton.1 h)
  | cons m rest ih =>
      rw [setMember] at h
      split at h
      · rcases List.mem_cons.1 h with h | h
        · exact .inl h
        · exact .inr (List.mem_cons_of_mem m h)
      · rcases List.mem_cons.1 h with rfl | h
        · exact .inr List.mem_cons_self
        · exact (ih h).imp_right (List.mem_cons_of_mem m)

theorem nodup_setMember
    {members : List (String × α)}
    (h : (members.map Prod.fst).Nodup) (name : String) (a : α) :
    ((setMember name a members).map Prod.fst).Nodup := by
  rw [names_setMember]
  split
  · exact h
  · rename_i hname
    rw [← List.concat_eq_append]
    exact h.concat hname

/-- After setting members one by one every name is there once. -/
theorem nodup_uniqueMembers
    (members : List (String × α)) :
    ((uniqueMembers members).map Prod.fst).Nodup := by
  have hrun (acc : List (String × α)) (hacc : (acc.map Prod.fst).Nodup) :
      ((members.foldl (fun acc m => setMember m.1 m.2 acc) acc).map Prod.fst).Nodup := by
    induction members generalizing acc with
    | nil => exact hacc
    | cons m rest ih => exact ih _ (nodup_setMember hacc m.1 m.2)
  exact hrun [] List.nodup_nil

theorem mem_of_mem_uniqueMembers
    {members : List (String × α)} {x : String × α}
    (h : x ∈ uniqueMembers members) :
    x ∈ members := by
  have hrun (acc : List (String × α))
      (hx : x ∈ members.foldl (fun acc m => setMember m.1 m.2 acc) acc) :
      x ∈ acc ∨ x ∈ members := by
    clear h
    induction members generalizing acc with
    | nil => exact .inl hx
    | cons m rest ih =>
        rcases ih _ hx with hacc | hrest
        · rcases mem_setMember hacc with rfl | hacc
          · exact .inr List.mem_cons_self
          · exact .inl hacc
        · exact .inr (List.mem_cons_of_mem m hrest)
  exact (hrun [] h).resolve_left List.not_mem_nil

/-- Members whose names are distinct stay as they are. -/
theorem uniqueMembers_of_nodup
    {members : List (String × α)}
    (h : (members.map Prod.fst).Nodup) :
    uniqueMembers members = members := by
  have hrun (acc : List (String × α)) (hnames : ((acc ++ members).map Prod.fst).Nodup) :
      members.foldl (fun acc m => setMember m.1 m.2 acc) acc = acc ++ members := by
    clear h
    induction members generalizing acc with
    | nil => exact (List.append_nil acc).symm
    | cons m rest ih =>
        rw [List.append_cons] at hnames ⊢
        have hnew : m.1 ∉ acc.map Prod.fst := by
          rw [List.map_append, List.map_append] at hnames
          have hfirst := (List.nodup_append.1 (List.nodup_append.1 hnames).1).2.2
          exact fun hmem => hfirst m.1 hmem m.1 (List.mem_singleton_self m.1) rfl
        rw [List.foldl_cons, setMember_of_not_mem hnew, ih _ hnames]
  exact hrun [] h

/-- A table that was read has distinct names, and each of its entries was read. -/
theorem entries_of_table?
    {read? : Json → Option α} {j : Json} {members : List (String × α)}
    (h : table? read? j = some members) :
    (members.map Prod.fst).Nodup ∧ ∀ m ∈ members, ∃ v, read? v = some m.2 := by
  cases j with
  | obj written =>
      obtain ⟨entries, hentries, rfl⟩ := Option.map_eq_some_iff.1 h
      refine ⟨nodup_uniqueMembers entries, fun m hm => ?_⟩
      obtain ⟨w, -, hw⟩ := exists_of_mem_mapM hentries (mem_of_mem_uniqueMembers hm)
      obtain ⟨a, ha, rfl⟩ := Option.map_eq_some_iff.1 hw
      exact ⟨w.2, ha⟩
  | _ => cases h

/-- A table with distinct names is read as it was written. -/
theorem table?_written
    {read? : Json → Option α} {write : α → Json} {members : List (String × α)}
    (hnames : (members.map Prod.fst).Nodup)
    (hread : ∀ m ∈ members, read? (write m.2) = some m.2) :
    table? read? (.obj (members.map fun m => (m.1, write m.2))) = some members := by
  have hentries : (members.map fun m => (m.1, write m.2)).mapM
      (fun m => (read? m.2).map fun a => (m.1, a)) = some members := by
    refine mapM_written fun m hm => ?_
    rw [hread m hm]
    rfl
  rw [table?, hentries, Option.map_some, uniqueMembers_of_nodup hnames]

end Json
end RowFilter
