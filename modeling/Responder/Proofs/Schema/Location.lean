import Responder.Proofs.Schema.Validity

/-!
# Where a value is refused

A report names its place by a path that is written while the value is followed. Main statement:
whatever path validation starts from, it accepts the same values, and the path of a report is
that of the steps from the start to a place where the value does not fit.
-/

namespace Responder.Schema

/-- A mismatch, told at a path. -/
def refuseAt (path : String) : Option Mismatch → Except Report Unit
  | some cause => .error (.mismatch path cause.message)
  | none => .ok ()

/-- Validation that has with it the path of the place that it has come to. -/
def validateFrom (path : String) (schema value : Json) : Except Report Unit := do
  refuseAt path (checkOptions schema value)
  (match h : branches? schema with
    | some branches =>
      refuseAt path (if branches.attach.any fun ⟨branch, member⟩ =>
          have := sizeOf_branch_lt h member
          (validateFrom path branch value).isOk
        then none else some .noBranch)
    | none => .ok ())
  refuseAt path (checkType schema value)
  match value with
  | .object members =>
    refuseAt path (checkRequired schema members)
    members.forM fun (name, field) =>
      match h : property? schema name with
      | some property =>
        have := sizeOf_property?_lt h
        validateFrom (path ++ "." ++ name) property field
      | none => refuseAt path (if isClosed schema then some (.unexpected name) else none)
  | .array items =>
    match h : items? schema with
    | some itemSchema =>
      have := sizeOf_items?_lt h
      items.zipIdx.forM fun (item, index) =>
        validateFrom (path ++ "[" ++ index.repr ++ "]") itemSchema item
    | none => .ok ()
  | _ => .ok ()
termination_by sizeOf schema

/-- What is told of a mismatch if the whole value is at a path. -/
def reportFrom (start : String) (place : At Mismatch) : Report :=
  .mismatch (pathText start place.steps) place.cause.message

variable {schema value : Json} {path : String}

theorem mapError_then {ε δ : Type} (tell : ε → δ) (check : Except ε Unit)
    (next : Unit → Except ε Unit) :
    (check >>= next).mapError tell =
      check.mapError tell >>= fun done => (next done).mapError tell := by
  cases check <;> rfl

theorem mapError_forM {ε δ α : Type} (tell : ε → δ) (check : α → Except ε Unit)
    (entries : List α) : (entries.forM check).mapError tell =
      entries.forM fun entry => (check entry).mapError tell := by
  induction entries with
  | nil => rfl
  | cons first rest ih =>
    change (check first >>= fun _ => rest.forM check).mapError tell = _
    rw [mapError_then, ih]
    rfl

theorem mapError_refuse (fault : Option Mismatch) :
    (refuse fault).mapError (reportFrom path) = refuseAt path fault := by
  cases fault <;> rfl

theorem mapError_within (step : Step) (result : Except (At Mismatch) Unit) :
    (within step result).mapError (reportFrom path) =
      result.mapError (reportFrom (path ++ step.text)) := by
  cases result <;> rfl

theorem isOk_mapError {ε δ α : Type} (tell : ε → δ) (result : Except ε α) :
    (result.mapError tell).isOk = result.isOk := by
  cases result <;> rfl

/-- The path that is taken along is the path of the place. -/
theorem validateFrom_eq (path : String) (schema value : Json) :
    validateFrom path schema value = (validate schema value).mapError (reportFrom path) := by
  induction size : sizeOf schema using Nat.strongRecOn generalizing path schema value with
  | ind most ih =>
    rw [validate_eq]
    simp only [mapError_then, mapError_refuse]
    unfold validateFrom
    refine bind_congr fun _ => ?_
    congr 1
    · unfold checkBranches
      split
      · next branches given =>
        have accepts : ∀ branch : { branch // branch ∈ branches },
            (validateFrom path branch.val value).isOk = (validate branch.val value).isOk := by
          rintro ⟨branch, mem⟩
          rw [ih _ (size ▸ sizeOf_branch_lt given mem) path branch value rfl, isOk_mapError]
        simp [given, accepts]
      · next given => simp [given]; rfl
    · refine funext fun _ => bind_congr fun _ => ?_
      cases value with
      | object members =>
        simp only [validateParts, mapError_then, mapError_refuse, mapError_forM]
        refine bind_congr fun _ => congrArg members.forM (funext ?_)
        rintro ⟨name, field⟩
        simp only [validateMember]
        split
        · next property given =>
          have told : path ++ "." ++ name = path ++ (Step.property name).text :=
            String.append_assoc
          rw [ih _ (size ▸ sizeOf_property?_lt given) _ property field rfl, given, told]
          exact (mapError_within _ _).symm
        · next given =>
          rw [given]
          exact (mapError_refuse _).symm
      | array items =>
        simp only [validateParts]
        split
        · next itemSchema given =>
          rw [given]
          dsimp only
          rw [mapError_forM]
          refine congrArg items.zipIdx.forM (funext ?_)
          rintro ⟨item, index⟩
          have told : path ++ "[" ++ index.repr ++ "]" = path ++ (Step.item index).text := by
            simp only [Step.text, String.append_assoc]
          rw [ih _ (size ▸ sizeOf_items?_lt given) _ itemSchema item rfl, told]
          exact (mapError_within _ _).symm
        · next given =>
          rw [given]
          rfl
      | null | bool | number | string => rfl

/-- Validation accepts exactly the values that fit at every place, whatever path it starts from.
Of a value that it refuses it tells the path, from the start on, of the steps to a place where the
value does not fit. -/
theorem validate_exact (schema value : Json) :
    (validate schema value = .ok () ↔
      ∀ steps node part, Reaches schema value steps node part → Fits node part) ∧
    ∀ start, (validateFrom start schema value = .ok () ↔ validate schema value = .ok ()) ∧
      ∀ report, validateFrom start schema value = .error report →
        ∃ steps node part cause, Reaches schema value steps node part ∧ ¬ Fits node part ∧
          validate schema value = .error ⟨steps, cause⟩ ∧
          report = .mismatch (pathText start steps) (Mismatch.message cause) := by
  refine ⟨accepted_iff, fun start => ?_⟩
  rw [validateFrom_eq]
  cases outcome : validate schema value with
  | ok done => exact ⟨iff_of_true rfl rfl, nofun⟩
  | error place =>
    refine ⟨iff_of_false nofun nofun, ?_⟩
    rintro report ⟨⟩
    obtain ⟨node, part, reached, misfit⟩ := exists_misfit outcome
    exact ⟨place.steps, node, part, place.cause, reached, misfit, rfl, rfl⟩

/-- A list of colors, the second of which is a number. -/
def numbered : Json := .ofMembers [("colors", .array [.string "red", .ofNat 7])]

/-- The number is no color, and the report leads to it. -/
theorem numbered_refused :
    validateFrom "$" palette numbered =
      .error (.mismatch "$.colors[1]" "expected string, got number") ∧
    ∃ steps node part, Reaches palette numbered steps node part ∧ ¬ Fits node part ∧
      pathText "$" steps = "$.colors[1]" := by
  have refused : validateFrom "$" palette numbered =
      .error (.mismatch "$.colors[1]" "expected string, got number") := by
    have told : (match validateFrom "$" palette numbered with
        | .error report => some report
        | .ok () => none) = some (.mismatch "$.colors[1]" "expected string, got number") := by
      decide +kernel
    split at told
    · next failed => rw [failed, Option.some.inj told]
    · cases told
  obtain ⟨steps, node, part, cause, reached, misfit, -, told⟩ :=
    ((validate_exact palette numbered).2 "$").2 _ refused
  exact ⟨refused, steps, node, part, reached, misfit, (Report.mismatch.inj told).1.symm⟩

end Responder.Schema
