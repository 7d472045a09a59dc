import Mathlib.Data.List.Forall2
import Mathlib.Data.List.Induction
import Mathlib.Data.List.Nodup
import RowFilter.Compilation.Siblings

/-!
# Families of tests

The tests that share a group key form a family.  Here the families are given
without a running collection: one for each key, in the order in which the keys
first occur, with all tests of that key.

* `DocumentTest.groups_eq_families`: adding tests one by one gives the families.
* `DocumentTest.rel_groups`: tests that correspond are grouped alike.
* `DocumentTest.nodup_keys_of_single`: tests without siblings have different keys.
-/

namespace RowFilter

theorem nodup_eraseDups
    {α : Type} [BEq α] [LawfulBEq α] :
    ∀ l : List α, l.eraseDups.Nodup
  | [] => by
      simp
  | a :: rest => by
      rw [List.eraseDups_cons, List.nodup_cons]
      exact ⟨by simp, nodup_eraseDups (rest.filter fun b => !b == a)⟩
termination_by l => l.length
decreasing_by exact Nat.lt_succ_of_le (List.length_filter_le ..)

namespace DocumentTest

/-- The tests of a row source and a field whose paths without their last segments have
the same text. -/
def family (tests : List DocumentTest) (key : String × String × String) : List DocumentTest :=
  tests.filter fun t => (t.qualifier, t.field, JsonPath.text t.path.dropLast true) == key

/-- The families of tests, in the order of their first members. -/
def families (tests : List DocumentTest) : List (List DocumentTest) :=
  (tests.map fun t =>
    (t.qualifier, t.field, JsonPath.text t.path.dropLast true)).eraseDups.map (family tests)

/-- A family has one group key. -/
theorem family_eq
    (tests : List DocumentTest) (key : String × String × String) :
    family tests key = tests.filter fun t => t.groupKey == key :=
  rfl

theorem families_eq
    (tests : List DocumentTest) :
    families tests = (tests.map groupKey).eraseDups.map (family tests) :=
  rfl

theorem mem_family
    {tests : List DocumentTest} {key : String × String × String} {t : DocumentTest} :
    t ∈ family tests key ↔ t ∈ tests ∧ t.groupKey = key := by
  simp [family_eq]

theorem family_append
    (tests others : List DocumentTest) (key : String × String × String) :
    family (tests ++ others) key = family tests key ++ family others key :=
  List.filter_append ..

theorem head?_family
    {tests : List DocumentTest} {key : String × String × String}
    (h : key ∈ tests.map groupKey) :
    (family tests key).head?.map groupKey = some key := by
  obtain ⟨t, ht, hkey⟩ := List.mem_map.1 h
  cases hfamily : family tests key with
  | nil =>
      have hmem : t ∈ family tests key := mem_family.2 ⟨ht, hkey⟩
      rw [hfamily] at hmem
      cases hmem
  | cons first rest =>
      have hfirst : first ∈ family tests key := by
        rw [hfamily]
        exact List.mem_cons_self
      simp [(mem_family.1 hfirst).2]

theorem family_singleton
    (t : DocumentTest) (key : String × String × String) :
    family [t] key = if t.groupKey = key then [t] else [] := by
  by_cases h : t.groupKey = key
  · simp [family_eq, h]
  · simp [family_eq, h]

/-- A test joins the family of its key, or opens one. -/
theorem addTo_families
    (t : DocumentTest) (tests : List DocumentTest) :
    ∀ keys : List (String × String × String), keys.Nodup →
      (∀ key ∈ keys, key ∈ tests.map groupKey) →
      t.addTo (keys.map (family tests)) =
        if t.groupKey ∈ keys then keys.map (family (tests ++ [t]))
        else keys.map (family tests) ++ [[t]]
  | [], _, _ => by
      simp [addTo]
  | key :: keys, hnodup, hkeys => by
      rw [List.nodup_cons] at hnodup
      have hrest := addTo_families t tests keys hnodup.2
        fun k hk => hkeys k (List.mem_cons_of_mem _ hk)
      have hhead := head?_family (hkeys key List.mem_cons_self)
      by_cases h : t.groupKey = key
      · subst h
        have hothers : ∀ k ∈ keys, family (tests ++ [t]) k = family tests k := by
          intro k hk
          have hne : t.groupKey ≠ k := fun hkey => hnodup.1 (hkey ▸ hk)
          rw [family_append, family_singleton, if_neg hne, List.append_nil]
        rw [List.map_cons, addTo, if_pos (by rw [hhead]; exact beq_self_eq_true _)]
        rw [if_pos List.mem_cons_self, List.map_cons, family_append, family_singleton,
          if_pos rfl]
        rw [List.map_congr_left hothers]
      · have hne : ¬ ((family tests key).head?.map groupKey == some t.groupKey) = true := by
          rw [hhead]
          simpa using Ne.symm h
        have hkey : family (tests ++ [t]) key = family tests key := by
          rw [family_append, family_singleton, if_neg h, List.append_nil]
        rw [List.map_cons, addTo, if_neg hne, hrest]
        by_cases hmem : t.groupKey ∈ keys
        · rw [if_pos hmem, if_pos (List.mem_cons_of_mem _ hmem), List.map_cons, hkey]
        · have hmem' : t.groupKey ∉ key :: keys := by
            simp [h, hmem]
          rw [if_neg hmem, if_neg hmem', List.cons_append]

theorem families_append_singleton
    (tests : List DocumentTest) (t : DocumentTest) :
    families (tests ++ [t]) = t.addTo (families tests) := by
  have hadd := addTo_families t tests (tests.map groupKey).eraseDups (nodup_eraseDups _)
    fun key hkey => List.mem_eraseDups.1 hkey
  rw [families_eq, families_eq, hadd, List.map_append, List.eraseDups_append]
  by_cases h : t.groupKey ∈ tests.map groupKey
  · rw [if_pos (List.mem_eraseDups.2 h)]
    have hnone : List.removeAll (List.map groupKey [t]) (List.map groupKey tests) = [] := by
      simpa [List.removeAll] using h
    rw [hnone, List.eraseDups_nil, List.append_nil]
  · rw [if_neg fun hmem => h (List.mem_eraseDups.1 hmem)]
    have hone : List.removeAll (List.map groupKey [t]) (List.map groupKey tests) = [t.groupKey] := by
      simpa [List.removeAll] using h
    have hself : family (tests ++ [t]) t.groupKey = [t] := by
      have hempty : family tests t.groupKey = [] := by
        rw [family_eq, List.filter_eq_nil_iff]
        intro other hother hkey
        exact h (List.mem_map.2 ⟨other, hother, by simpa using hkey⟩)
      rw [family_append, hempty, family_singleton, if_pos rfl, List.nil_append]
    have hothers : ∀ key ∈ (tests.map groupKey).eraseDups,
        family (tests ++ [t]) key = family tests key := by
      intro key hkey
      have hne : t.groupKey ≠ key := fun heq => h (heq ▸ List.mem_eraseDups.1 hkey)
      rw [family_append, family_singleton, if_neg hne, List.append_nil]
    rw [hone, List.map_append, List.map_congr_left hothers]
    simp [List.eraseDups_cons, hself]

/-- The groups are the families. -/
theorem groups_eq_families
    (tests : List DocumentTest) :
    groups tests = families tests := by
  induction tests using List.reverseRecOn with
  | nil =>
      rfl
  | append_singleton tests t ih =>
      rw [families_append_singleton, ← ih]
      simp [groups, List.foldl_append]

/-- Tests that correspond are put into groups that correspond. -/
theorem rel_addTo
    {R : DocumentTest → DocumentTest → Prop} {t t' : DocumentTest}
    {groups groups' : List (List DocumentTest)}
    (hkey : ∀ u u', R u u' → (u.groupKey = t.groupKey ↔ u'.groupKey = t'.groupKey))
    (ht : R t t') (h : List.Forall₂ (List.Forall₂ R) groups groups') :
    List.Forall₂ (List.Forall₂ R) (t.addTo groups) (t'.addTo groups') := by
  induction h with
  | nil => exact .cons (.cons ht .nil) .nil
  | @cons group group' rest rest' hgroup hrest ih =>
      have hhead : (group.head?.map groupKey == some t.groupKey) =
          (group'.head?.map groupKey == some t'.groupKey) := by
        cases hgroup with
        | nil => rfl
        | cons hfirst _ =>
            rw [Bool.eq_iff_iff]
            simpa using hkey _ _ hfirst
      rw [addTo, addTo, hhead]
      split
      · exact .cons (List.rel_append hgroup (.cons ht .nil)) hrest
      · exact .cons hgroup ih

/-- Two lists of tests are grouped alike, if the tests that have a key in common do so in
both lists. -/
theorem rel_groups
    {R : DocumentTest → DocumentTest → Prop} {tests tests' : List DocumentTest}
    (hkey : ∀ t t' u u', R t t' → R u u' →
      (u.groupKey = t.groupKey ↔ u'.groupKey = t'.groupKey))
    (h : List.Forall₂ R tests tests') :
    List.Forall₂ (List.Forall₂ R) (groups tests) (groups tests') := by
  refine List.rel_foldl (P := List.Forall₂ (List.Forall₂ R)) ?_ .nil h
  intro acc acc' hacc t t' ht
  exact rel_addTo (fun u u' => hkey t t' u u' ht) ht hacc

theorem count_keys
    (tests : List DocumentTest) (key : String × String × String) :
    (tests.map groupKey).count key = (family tests key).length := by
  rw [List.count, List.countP_map, List.countP_eq_length_filter]
  rfl

/-- Tests of which none has a sibling have different keys. -/
theorem nodup_keys_of_single
    {tests singles : List DocumentTest}
    (hsub : singles.Sublist tests)
    (hsingle : ∀ t ∈ singles, (family tests t.groupKey).length < 2) :
    (singles.map groupKey).Nodup := by
  rw [List.nodup_iff_count_le_one]
  intro key
  by_cases hkey : key ∈ singles.map groupKey
  · obtain ⟨t, ht, rfl⟩ := List.mem_map.1 hkey
    have hle : (family singles t.groupKey).length ≤ (family tests t.groupKey).length :=
      (hsub.filter _).length_le
    have hlt := hsingle t ht
    rw [count_keys]
    omega
  · rw [List.count_eq_zero.2 hkey]
    omega

/-- Tests with different keys have no siblings. -/
theorem length_lt_two_of_nodup_keys
    {tests : List DocumentTest}
    (h : (tests.map groupKey).Nodup) :
    ∀ members ∈ families tests, members.length < 2 := by
  intro members hmembers
  obtain ⟨key, -, rfl⟩ := List.mem_map.1 hmembers
  have hcount := List.nodup_iff_count_le_one.1 h key
  rw [count_keys] at hcount
  omega

end DocumentTest
end RowFilter
