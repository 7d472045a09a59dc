import Mathlib.Data.List.Nodup
import RowFilter.Filter.Reader
import RowFilter.Proofs.Attempts

/-!
# The numbers of conditions

Reading a filter takes the numbers of its conditions from one counter, each when
the reading of the condition ends.  So the numbers of a filter, read off its tree
with a quantified condition after the conditions of its own filter, count upwards
without a gap.

* `Filter.ids_ofJson`: the numbers of a filter are zero, one, two, ...
* `Filter.nodup_ids`: no two conditions have the same number.
-/

namespace RowFilter
namespace Filter

mutual

/-- The numbers of the conditions of a filter. -/
def ids : Filter → List Nat
  | .and children => idsOfAll children
  | .or children => idsOfAll children
  | .compare id _ _ _ => [id]
  | .quantify id _ _ inner => inner.ids ++ [id]

/-- The numbers of the conditions of several filters. -/
def idsOfAll : List Filter → List Nat
  | [] => []
  | child :: rest => child.ids ++ idsOfAll rest

end

/-- The step takes the numbers of its result from the counter, in order. -/
def Numbers {α : Type} (numbersOf : α → List Nat) (x : Reading α) : Prop :=
  ∀ n, Attempt.Ensures (fun m => m = n) x fun a m =>
    ∃ k, m = n + k ∧ numbersOf a = List.range' n k

theorem numbers_fail
    {α : Type} {numbersOf : α → List Nat}
    (e : QueryError) :
    Numbers numbersOf (.fail e) := by
  intro n
  exact Attempt.ensures_fail e

theorem numbers_pure
    {α : Type} {numbersOf : α → List Nat} {a : α}
    (h : numbersOf a = []) :
    Numbers numbersOf (pure a) := by
  intro n
  refine Attempt.ensures_pure ?_
  rintro m rfl
  exact ⟨0, rfl, h⟩

theorem Numbers.map
    {α β : Type} {numbersOf : α → List Nat} {numbersOf' : β → List Nat} {x : Reading α}
    {f : α → β}
    (hx : Numbers numbersOf x) (hf : ∀ a, numbersOf' (f a) = numbersOf a) :
    Numbers numbersOf' (do return f (← x)) := by
  intro n
  refine (hx n).bind fun a => Attempt.ensures_pure ?_
  rintro m ⟨k, hm, hk⟩
  exact ⟨k, hm, by rw [hf, hk]⟩

/-- The numbers of two steps stand one after the other. -/
theorem Numbers.seq
    {α β γ : Type} {numbersOf : α → List Nat} {numbersOf' : β → List Nat}
    {numbersOf'' : γ → List Nat} {x : Reading α} {y : Reading β} {f : α → β → γ}
    (hx : Numbers numbersOf x) (hy : Numbers numbersOf' y)
    (hf : ∀ a b, numbersOf'' (f a b) = numbersOf a ++ numbersOf' b) :
    Numbers numbersOf'' (do
      let a ← x
      let b ← y
      return f a b) := by
  intro n
  refine (hx n).bind fun a => ?_
  intro m hm
  obtain ⟨k, rfl, hk⟩ := hm
  refine ((hy (n + k)).bind fun b => Attempt.ensures_pure ?_) (n + k) rfl
  rintro m ⟨j, hm, hj⟩
  refine ⟨k + j, by omega, ?_⟩
  rw [hf, hk, hj, List.range'_append_1]

theorem numbers_nextId :
    Numbers (fun id => [id]) nextId := by
  intro n
  refine Attempt.ensures_ofState ?_
  rintro m rfl
  exact ⟨1, rfl, rfl⟩

theorem ids_conjunction
    (children : List Filter) :
    (conjunction children).ids = idsOfAll children := by
  rcases children with _ | ⟨child, _ | ⟨second, rest⟩⟩
  · rfl
  · simp [conjunction, idsOfAll]
  · rfl

theorem numbers_atDepth
    {limit depth : Nat} {members : Reading (List Filter)}
    (h : Numbers idsOfAll members) :
    Numbers ids (atDepth limit depth members) := by
  unfold atDepth
  split
  · exact numbers_fail _
  · exact h.map ids_conjunction

/-- One member of an object, from the readings of what stands inside its value. -/
theorem numbers_readMember_of
    {limit depth : Nat} {path : List Segment} {key : String} {value : Json}
    (hitems : ∀ items, value = .arr items → Numbers idsOfAll (readItems limit depth path key items))
    (hmembers : ∀ path members, value = .obj members →
      Numbers idsOfAll (readMembers limit (depth + 1) path members)) :
    Numbers ids (readMember limit depth path key value) := by
  obtain ⟨read, hreading, hread⟩ := exists_memberReading path key value
  rw [hread]
  cases hreading with
  | refused _ e => exact numbers_fail e
  | group items hkey =>
      refine (hitems items rfl).map fun filters => ?_
      rcases hkey with ⟨-, rfl⟩ | ⟨-, rfl⟩ <;> rfl
  | compare => exact numbers_nextId.map fun _ => rfl
  | quantify members =>
      exact (numbers_atDepth (hmembers [] members rfl)).seq numbers_nextId fun _ _ => rfl
  | field members => exact numbers_atDepth (hmembers _ members rfl)

theorem numbers_readMembers
    (limit depth : Nat) (path : List Segment) (members : List (String × Json)) :
    Numbers idsOfAll (readMembers limit depth path members) := by
  have h : Json.InsideOut
      (fun members => ∀ depth path, Numbers idsOfAll (readMembers limit depth path members))
      (fun v => ∀ depth path key, Numbers ids (readMember limit depth path key v))
      (fun items => ∀ depth path key, Numbers idsOfAll (readItems limit depth path key items)) := by
    constructor
    · intro depth path
      rw [readMembers]
      exact numbers_pure rfl
    · intro key v rest hvalue hrest depth path
      rw [readMembers]
      exact (hvalue depth path key).seq (hrest depth path) fun _ _ => rfl
    · intro v hitems hmembers depth path key
      exact numbers_readMember_of (fun items hv => hitems items hv depth path key)
        fun path members hv => hmembers members hv (depth + 1) path
    · intro depth path key
      rw [readItems]
      exact numbers_pure rfl
    · intro v rest hmembers hrest depth path key
      cases v with
      | obj members =>
          rw [readItems]
          exact (numbers_atDepth (hmembers members rfl (depth + 1) path)).seq
            (hrest depth path key) fun _ _ => rfl
      | _ => exact fun _ => Attempt.ensures_fail _
  exact h.ofMembers members depth path

/-- The conditions of a filter are numbered from zero on. -/
theorem ids_ofJson
    {limit : Nat} {document : Json} {filter : Filter}
    (h : ofJson limit document = .ok filter) :
    ∃ k, filter.ids = List.range' 0 k := by
  unfold ofJson at h
  split at h
  · cases h
    exact ⟨0, rfl⟩
  · rename_i members
    obtain ⟨k, -, hk⟩ :=
      numbers_atDepth (numbers_readMembers limit 0 [] members) 0 0 rfl filter _ (Prod.ext h rfl)
    exact ⟨k, hk⟩
  · cases h

theorem nodup_ids
    {limit : Nat} {document : Json} {filter : Filter}
    (h : ofJson limit document = .ok filter) :
    filter.ids.Nodup := by
  obtain ⟨k, hk⟩ := ids_ofJson h
  rw [hk]
  exact List.nodup_range'

end Filter
end RowFilter
