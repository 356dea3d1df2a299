import Responder.Json.Basic

/-!
# Members of objects

The members of an object are put in order one after the other. They are those that were given, of
each name the last one, and what is in order stays as it is.
-/

namespace Responder.Json

/-- Members in ascending order of their names. -/
def Ordered (members : List (String × Json)) : Prop := members.Pairwise fun x y => x.1 < y.1

instance (members : List (String × Json)) : Decidable (Ordered members) :=
  inferInstanceAs (Decidable (members.Pairwise fun x y => x.1 < y.1))

theorem insert_last {name : String} {value : Json} {members : List (String × Json)}
    (before : ∀ member ∈ members, member.1 < name) :
    insert name value members = members ++ [(name, value)] := by
  induction members with
  | nil => rfl
  | cons member members ih =>
    obtain ⟨first, others⟩ := List.forall_mem_cons.1 before
    rw [insert, if_neg (String.lt_asymm first), if_neg (String.ne_of_lt first).symm, ih others]
    rfl

/-- Adds members to others, one after the other. -/
def insertAll (kept members : List (String × Json)) : List (String × Json) :=
  members.foldl (fun kept member => insert member.1 member.2 kept) kept

theorem sorted_eq (members : List (String × Json)) : sorted members = insertAll [] members := rfl

theorem insertAll_of_ordered {kept members : List (String × Json)}
    (ordered : Ordered (kept ++ members)) : insertAll kept members = kept ++ members := by
  induction members generalizing kept with
  | nil => exact (List.append_nil kept).symm
  | cons member members ih =>
    obtain ⟨name, value⟩ := member
    have before : ∀ other ∈ kept, other.1 < name := fun other mem =>
      (List.pairwise_append.1 ordered).2.2 other mem (name, value) List.mem_cons_self
    rw [List.append_cons] at ordered ⊢
    rw [← ih ordered, ← insert_last before]
    rfl

theorem sorted_of_ordered {members : List (String × Json)} (ordered : Ordered members) :
    sorted members = members :=
  insertAll_of_ordered ordered

theorem mem_insert {name : String} {value : Json} {members : List (String × Json)}
    {member : String × Json} (mem : member ∈ insert name value members) :
    member = (name, value) ∨ member ∈ members := by
  induction members with
  | nil => exact .inl (List.mem_singleton.1 mem)
  | cons first rest ih =>
    unfold insert at mem
    split at mem
    · exact List.mem_cons.1 mem
    · split at mem
      · exact (List.mem_cons.1 mem).imp_right (List.mem_cons_of_mem _)
      · obtain rfl | mem := List.mem_cons.1 mem
        · exact .inr List.mem_cons_self
        · exact (ih mem).imp_right (List.mem_cons_of_mem _)

theorem Ordered.insert {members : List (String × Json)} (h : Ordered members) (name : String)
    (value : Json) : Ordered (insert name value members) := by
  induction members with
  | nil => exact List.pairwise_singleton _ _
  | cons first rest ih =>
    obtain ⟨other, old⟩ := first
    have after : ∀ member ∈ rest, other < member.1 := fun _ mem => List.rel_of_pairwise_cons h mem
    unfold Json.insert
    split
    · next before =>
      refine List.pairwise_cons.2 ⟨fun member mem => ?_, h⟩
      obtain rfl | mem := List.mem_cons.1 mem
      · exact before
      · exact String.lt_trans before (after member mem)
    · next behind =>
      split
      · next same =>
        subst same
        exact List.pairwise_cons.2 ⟨after, h.of_cons⟩
      · next apart =>
        refine List.pairwise_cons.2 ⟨fun member mem => ?_, ih h.of_cons⟩
        obtain rfl | mem := mem_insert mem
        · exact Std.lt_of_le_of_ne (String.not_lt.1 behind) (Ne.symm apart)
        · exact after member mem

theorem insertAll_spec {kept : List (String × Json)} (ordered : Ordered kept)
    (members : List (String × Json)) : Ordered (insertAll kept members) ∧
      ∀ member ∈ insertAll kept members, member ∈ kept ∨ member ∈ members := by
  induction members generalizing kept with
  | nil => exact ⟨ordered, fun member mem => .inl mem⟩
  | cons first rest ih =>
    obtain ⟨ordered, found⟩ := ih (ordered.insert first.1 first.2)
    refine ⟨ordered, fun member mem => ?_⟩
    obtain early | late := found member mem
    · obtain rfl | early := mem_insert early
      · exact .inr List.mem_cons_self
      · exact .inl early
    · exact .inr (List.mem_cons_of_mem _ late)

/-- Sorting puts members in order, and makes up none. -/
theorem sorted_spec (members : List (String × Json)) :
    Ordered (sorted members) ∧ ∀ member ∈ sorted members, member ∈ members := by
  obtain ⟨ordered, found⟩ := insertAll_spec .nil members
  exact ⟨ordered, fun member mem => (found member mem).resolve_left List.not_mem_nil⟩

theorem lookup_cons (name other : String) (value : Json) (members : List (String × Json)) :
    lookup name ((other, value) :: members) =
      if other = name then some value else lookup name members := by
  by_cases same : other = name <;> simp [lookup, same]

theorem lookup_append (name : String) (xs ys : List (String × Json)) :
    lookup name (xs ++ ys) = (lookup name xs).or (lookup name ys) := by
  rw [lookup, List.find?_append, Option.map_or]
  rfl

/-- A member that is put in is found, and hides no other name. -/
theorem lookup_insert (name other : String) (value : Json) (members : List (String × Json)) :
    lookup name (insert other value members) =
      if other = name then some value else lookup name members := by
  induction members with
  | nil => exact lookup_cons ..
  | cons first rest ih =>
    obtain ⟨place, old⟩ := first
    unfold insert
    split
    · exact lookup_cons ..
    · split
      · next same =>
        subst same
        rw [lookup_cons, lookup_cons]
        split <;> rfl
      · next apart =>
        rw [lookup_cons, lookup_cons, ih]
        split
        · next here => rw [if_neg (here ▸ apart)]
        · rfl

theorem lookup_insertAll (name : String) (kept members : List (String × Json)) :
    lookup name (insertAll kept members) =
      (lookup name members.reverse).or (lookup name kept) := by
  induction members generalizing kept with
  | nil => rfl
  | cons first rest ih =>
    obtain ⟨other, value⟩ := first
    refine (ih _).trans ?_
    rw [lookup_insert, List.reverse_cons, lookup_append, lookup_cons, Option.or_assoc]
    split <;> rfl

/-- Of members of one name the last is found. -/
theorem lookup_sorted (name : String) (members : List (String × Json)) :
    lookup name (sorted members) = lookup name members.reverse := by
  rw [sorted_eq, lookup_insertAll]
  exact Option.or_none

theorem field?_ofMembers (name : String) (members : List (String × Json)) :
    (ofMembers members).field? name = lookup name members.reverse :=
  lookup_sorted name members

end Responder.Json
