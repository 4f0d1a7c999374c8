import Mathlib.Data.List.Perm.Basic
import Mathlib.Tactic.Use
import QuoteFeed.Json.Record

/-!
# Records up to the order of their members

The fields of a record are found whatever the order of its members is, and whatever other members
stand among them, as long as no key of these names a field (`Json.IsRecord`).
-/

namespace QuoteFeed.Json

/-- An object with the given members in any order, and with others whose keys are none of the
names. -/
def IsRecord (names : List String) (known : List (String × Value)) (v : Value) : Prop :=
  ∃ members others, v = .record members ∧ members.Perm (known ++ others) ∧
    ∀ m ∈ others, m.1 ∉ names

theorem namedMembers?_record (members : List (String × Value)) :
  namedMembers? (members.map fun m => (some m.1, m.2)) = some members
  := by
  induction members with
  | nil => rfl
  | cons m members ih =>
    rw [namedMembers?] at ih ⊢
    simp [ih]

/-- What is looked up does not depend on the order of the members. -/
theorem lookup?_perm {members members' : List (String × Value)} (h : members.Perm members')
    (name : String) :
  lookup? name members = lookup? name members'
  := by
  have hp := h.filter fun m => decide (m.1 = name)
  rw [lookup?, lookup?]
  generalize members.filter _ = found at hp ⊢
  generalize members'.filter _ = found' at hp ⊢
  match found, found', hp with
  | [], found', hp => rw [List.nil_perm.1 hp]
  | [m], found', hp => rw [List.singleton_perm.1 hp]
  | m :: m' :: found, found', hp =>
    match found', hp.length_eq with
    | n :: n' :: found', _ => rfl

/-- Members of other names do not count. -/
theorem lookup?_append_of_ne {name : String} {others : List (String × Value)}
    (h : ∀ m ∈ others, m.1 ≠ name) (known : List (String × Value)) :
  lookup? name (known ++ others) = lookup? name known
  := by
  have hf : others.filter (fun m => decide (m.1 = name)) = [] := by
    rw [List.filter_eq_nil_iff]
    intro m hm
    simpa using h m hm
  rw [lookup?, lookup?, List.filter_append, hf, List.append_nil]

/-- The fields of a record are those of its known members. -/
theorem IsRecord.fields? {names wanted : List String} {known : List (String × Value)} {v : Value}
    (h : IsRecord names known v) (hw : ∀ name ∈ wanted, name ∈ names) :
  v.fields? wanted = wanted.mapM fun name => lookup? name known
  := by
  obtain ⟨members, others, rfl, hp, ho⟩ := h
  have found (name : String) (hn : name ∈ wanted) :
      lookup? name members = lookup? name known := by
    rw [lookup?_perm hp, lookup?_append_of_ne]
    rintro m hm rfl
    apply ho m hm (hw _ hn)
  rw [Value.record, Value.fields?, namedMembers?_record]
  change wanted.mapM _ = _
  clear hw
  induction wanted with
  | nil => rfl
  | cons name wanted ih =>
    rw [List.mapM_cons, List.mapM_cons, found name List.mem_cons_self,
      ih fun n hn => found n (List.mem_cons_of_mem _ hn)]

end QuoteFeed.Json
