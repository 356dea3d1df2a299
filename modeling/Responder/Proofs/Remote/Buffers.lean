import Mathlib.Data.List.Basic
import Responder.Remote.Decoder

/-!
# Gathering fragments of calls

The buffers of an answer are kept in ascending order of their indices. What the buffer of an
index holds depends on the fragments of this index alone, in whatever way they are mixed with
others.
-/

namespace Responder.Remote

/-- A fragment of the call of an index. -/
structure Fragment where
  index : Nat
  id : Option String := none
  name : Option String := none
  arguments : Option String := none
  deriving DecidableEq, Repr

/-- A value that holds a fragment, whatever else it holds. -/
structure Fragment.ShownBy (f : Fragment) (value : Json) : Prop where
  index : (value.field "index").nat? = some f.index
  id : (value.field "id").string? = f.id
  name : ((value.field "function").field "name").string? = f.name
  arguments : ((value.field "function").field "arguments").string? = f.arguments

namespace CallBuffer

/-- Adds a fragment. -/
def grow (b : CallBuffer) (f : Fragment) : CallBuffer where
  id := f.id.getD b.id
  name := b.name ++ f.name.getD ""
  arguments := b.arguments ++ f.arguments.getD ""

/-- Fragments without an id leave that of the buffer. -/
theorem foldl_grow (b : CallBuffer) {fragments : List Fragment}
    (nameless : ∀ f ∈ fragments, f.id = none) :
    fragments.foldl grow b =
      { id := b.id
        name := b.name ++ String.join (fragments.map (·.name.getD ""))
        arguments := b.arguments ++ String.join (fragments.map (·.arguments.getD "")) } := by
  induction fragments generalizing b with
  | nil => simp
  | cons f rest ih =>
    have first : f.id = none := nameless f List.mem_cons_self
    rw [List.foldl_cons, ih _ fun other mem => nameless other (List.mem_cons_of_mem _ mem)]
    simp [grow, first, String.append_assoc]

end CallBuffer

/-- Buffers in ascending order of their indices. -/
def Ascending (calls : List (Nat × CallBuffer)) : Prop := calls.Pairwise fun x y => x.1 < y.1

/-- The buffer of an index. -/
def bufferAt (calls : List (Nat × CallBuffer)) (index : Nat) : Option CallBuffer :=
  (calls.find? (·.1 = index)).map (·.2)

/-- Adds fragments in the order in which they arrive. -/
def gather (calls : List (Nat × CallBuffer)) (fragments : List Fragment) :
    List (Nat × CallBuffer) :=
  fragments.foldl (fun calls f => updateCall f.index (·.grow f) calls) calls

variable {calls : List (Nat × CallBuffer)} {index other : Nat} {buffer : CallBuffer}

theorem bufferAt_cons_self : bufferAt ((index, buffer) :: calls) index = some buffer := by
  simp [bufferAt]

theorem bufferAt_cons_ne (h : index ≠ other) :
    bufferAt ((index, buffer) :: calls) other = bufferAt calls other := by
  simp [bufferAt, h]

/-- Before the first index there is none. -/
theorem bufferAt_of_lt (h : Ascending ((index, buffer) :: calls)) (before : other < index) :
    bufferAt ((index, buffer) :: calls) other = none := by
  simp only [bufferAt, Option.map_eq_none_iff, List.find?_eq_none, decide_eq_true_eq]
  intro entry mem same
  obtain rfl | later := List.mem_cons.1 mem
  · exact absurd same (Nat.ne_of_gt before)
  · have after := List.rel_of_pairwise_cons h later
    dsimp only at after
    omega

theorem bufferAt_self_of_ascending (h : Ascending ((index, buffer) :: calls)) :
    bufferAt calls index = none := by
  simp only [bufferAt, Option.map_eq_none_iff, List.find?_eq_none, decide_eq_true_eq]
  intro entry mem same
  have after := List.rel_of_pairwise_cons h mem
  dsimp only at after
  omega

theorem bufferAt_of_mem (h : Ascending calls) (mem : (index, buffer) ∈ calls) :
    bufferAt calls index = some buffer := by
  induction calls with
  | nil => cases mem
  | cons entry rest ih =>
    obtain ⟨first, held⟩ := entry
    obtain same | later := List.mem_cons.1 mem
    · cases same
      exact bufferAt_cons_self
    · have after := List.rel_of_pairwise_cons h later
      rw [bufferAt_cons_ne (Nat.ne_of_lt after), ih h.of_cons later]

/-- Buffers in ascending order are determined by what they hold. -/
theorem Ascending.ext {calls' : List (Nat × CallBuffer)} (h : Ascending calls)
    (h' : Ascending calls') (same : ∀ index, bufferAt calls index = bufferAt calls' index) :
    calls = calls' := by
  induction calls generalizing calls' with
  | nil =>
    cases calls' with
    | nil => rfl
    | cons entry rest =>
      have first := same entry.1
      rw [bufferAt_cons_self] at first
      cases first
  | cons entry rest ih =>
    obtain ⟨index, buffer⟩ := entry
    cases calls' with
    | nil =>
      have first := same index
      rw [bufferAt_cons_self] at first
      cases first
    | cons entry' rest' =>
      obtain ⟨index', buffer'⟩ := entry'
      have place : index = index' := by
        apply Nat.le_antisymm
        · refine Nat.le_of_not_lt fun before => ?_
          have first := same index'
          rw [bufferAt_of_lt h before, bufferAt_cons_self] at first
          cases first
        · refine Nat.le_of_not_lt fun before => ?_
          have first := same index
          rw [bufferAt_of_lt h' before, bufferAt_cons_self] at first
          cases first
      subst place
      have first := same index
      rw [bufferAt_cons_self, bufferAt_cons_self] at first
      cases first
      rw [ih h.of_cons h'.of_cons]
      intro other
      by_cases at_ : index = other
      · subst at_
        rw [bufferAt_self_of_ascending h, bufferAt_self_of_ascending h']
      · have later := same other
        rwa [bufferAt_cons_ne at_, bufferAt_cons_ne at_] at later

section
variable {change : CallBuffer → CallBuffer}

theorem mem_updateCall {entry : Nat × CallBuffer} (mem : entry ∈ updateCall index change calls) :
    entry.1 = index ∨ entry ∈ calls := by
  induction calls with
  | nil =>
    obtain rfl := List.mem_singleton.1 mem
    exact .inl rfl
  | cons first rest ih =>
    unfold updateCall at mem
    split at mem
    · obtain rfl | mem := List.mem_cons.1 mem
      · exact .inl rfl
      · exact .inr mem
    · split at mem
      · obtain rfl | mem := List.mem_cons.1 mem
        · exact .inl rfl
        · exact .inr (List.mem_cons_of_mem _ mem)
      · obtain rfl | mem := List.mem_cons.1 mem
        · exact .inr List.mem_cons_self
        · exact (ih mem).imp_right (List.mem_cons_of_mem _)

theorem Ascending.updateCall (h : Ascending calls) (index : Nat)
    (change : CallBuffer → CallBuffer) : Ascending (updateCall index change calls) := by
  induction calls with
  | nil => exact List.pairwise_singleton _ _
  | cons first rest ih =>
    obtain ⟨other, buffer⟩ := first
    unfold Remote.updateCall
    split
    · next before =>
      refine List.pairwise_cons.2 ⟨fun entry mem => ?_, h⟩
      obtain rfl | later := List.mem_cons.1 mem
      · exact before
      · exact Nat.lt_trans before (List.rel_of_pairwise_cons h later)
    · next after =>
      split
      · next same =>
        subst same
        exact List.pairwise_cons.2 ⟨fun entry mem => List.rel_of_pairwise_cons h mem, h.of_cons⟩
      · next apart =>
        refine List.pairwise_cons.2 ⟨fun entry mem => ?_, ih h.of_cons⟩
        obtain same | later := mem_updateCall mem
        · rw [same]
          dsimp only
          omega
        · exact List.rel_of_pairwise_cons h later

/-- An update changes the buffer of its index alone. -/
theorem bufferAt_updateCall (h : Ascending calls) :
    bufferAt (updateCall index change calls) other =
      if index = other then some (change ((bufferAt calls index).getD {}))
      else bufferAt calls other := by
  induction calls with
  | nil =>
    unfold updateCall
    split
    · next same =>
      rw [same, bufferAt_cons_self]
      rfl
    · next apart => rw [bufferAt_cons_ne apart]
  | cons first rest ih =>
    obtain ⟨place, buffer⟩ := first
    unfold updateCall
    split
    · next before =>
      rw [bufferAt_of_lt h before]
      split
      · next same =>
        rw [same, bufferAt_cons_self]
        rfl
      · next apart => rw [bufferAt_cons_ne apart]
    · next after =>
      split
      · next same =>
        subst same
        split
        · next same =>
          subst same
          rw [bufferAt_cons_self, bufferAt_cons_self]
          rfl
        · next apart => rw [bufferAt_cons_ne apart, bufferAt_cons_ne apart]
      · next apart =>
        by_cases at_ : place = other
        · subst at_
          rw [bufferAt_cons_self, if_neg apart, bufferAt_cons_self]
        · rw [bufferAt_cons_ne at_, ih h.of_cons, bufferAt_cons_ne (Ne.symm apart),
            bufferAt_cons_ne at_]

end

theorem Ascending.gather (h : Ascending calls) (fragments : List Fragment) :
    Ascending (gather calls fragments) := by
  induction fragments generalizing calls with
  | nil => exact h
  | cons f rest ih => exact ih (h.updateCall f.index (·.grow f))

/-- What is gathered at an index comes from the fragments of this index, in their order. -/
theorem bufferAt_gather (h : Ascending calls) (fragments : List Fragment) (index : Nat) :
    bufferAt (gather calls fragments) index =
      (fragments.filter (·.index = index)).foldl (fun b f => some ((b.getD {}).grow f))
        (bufferAt calls index) := by
  induction fragments generalizing calls with
  | nil => rfl
  | cons f rest ih =>
    have step := ih (h.updateCall f.index (·.grow f))
    rw [bufferAt_updateCall h] at step
    refine step.trans ?_
    by_cases same : f.index = index
    · subst same
      simp
    · simp [same]

section
variable {α : Type} (items : List α) (buffer : α → CallBuffer)

/-- Buffers each at its place. -/
theorem ascending_mapIdx : Ascending (items.mapIdx fun index item => (index, buffer item)) := by
  refine List.pairwise_iff_getElem.2 fun i j hi hj before => ?_
  rw [List.getElem_mapIdx, List.getElem_mapIdx]
  exact before

theorem bufferAt_mapIdx (index : Nat) :
    bufferAt (items.mapIdx fun index item => (index, buffer item)) index =
      items[index]?.map buffer := by
  cases place : items[index]? with
  | none =>
    simp only [bufferAt, Option.map_none, Option.map_eq_none_iff, List.find?_eq_none,
      decide_eq_true_eq]
    intro entry mem same
    obtain ⟨i, inside, rfl⟩ := List.mem_mapIdx.1 mem
    have outside := List.getElem?_eq_none_iff.1 place
    dsimp only at same
    omega
  | some item =>
    obtain ⟨inside, rfl⟩ := List.getElem?_eq_some_iff.1 place
    exact bufferAt_of_mem (ascending_mapIdx items buffer) (List.mem_mapIdx.2 ⟨index, inside, rfl⟩)

end

/-- A fragment is gathered from any value that shows it. -/
theorem addCall_shown {f : Fragment} {value : Json} (shown : f.ShownBy value) :
    Assembly.addCall calls value = updateCall f.index (·.grow f) calls := by
  unfold Assembly.addCall
  rw [shown.index]
  congr 1
  funext b
  simp only [CallBuffer.add, CallBuffer.grow, shown.id, shown.name, shown.arguments]

theorem addCalls_shown {fragments : List Fragment} {values : List Json}
    (shown : List.Forall₂ Fragment.ShownBy fragments values) :
    values.foldl Assembly.addCall calls = gather calls fragments := by
  induction shown generalizing calls with
  | nil => rfl
  | cons first _ ih =>
    rw [List.foldl_cons, addCall_shown first, ih]
    rfl

end Responder.Remote
