import Responder.Proofs.Server.Admission

/-!
# Why a request is refused

Each check of a request blames the member that it looks at, or a part of this member. All else
that can be wrong with a request lies with the response that it continues.
-/

namespace Responder

variable {α β : Type} {f : Failure}

/-- A failure lies with a member of the request, or with a part of this member. -/
def Failure.Blames (name : String) (f : Failure) : Prop :=
  ∃ rest message, f = .invalid (name ++ rest) message

theorem Failure.blames_invalid (name message : String) :
    (Failure.invalid name message).Blames name :=
  ⟨"", message, by rw [String.append_empty]⟩

theorem bind_eq_error {x : Except Failure α} {next : α → Except Failure β} :
    (x >>= next) = .error f ↔ x = .error f ∨ ∃ a, x = .ok a ∧ next a = .error f := by
  cases x with
  | error e =>
    refine ⟨fun h => ?_, fun h => ?_⟩
    · cases h
      exact .inl rfl
    · obtain h | ⟨_, h, -⟩ := h
      · cases h
        rfl
      · cases h
  | ok a =>
    refine ⟨fun h => .inr ⟨a, rfl, h⟩, fun h => ?_⟩
    obtain h | ⟨_, h, failed⟩ := h
    · cases h
    · cases h
      exact failed

theorem mapError_eq_error {ε : Type} {x : Except ε α} {tell : ε → Failure}
    (h : x.mapError tell = .error f) : ∃ e, f = tell e := by
  cases x with
  | error e => exact ⟨e, (Except.error.inj h).symm⟩
  | ok a => cases h

theorem mapM_eq_error {check : α → Except Failure β} {items : List α}
    (h : items.mapM check = .error f) : ∃ item ∈ items, check item = .error f := by
  induction items with
  | nil => cases h
  | cons item rest ih =>
    rw [List.mapM_cons] at h
    obtain h | ⟨_, -, h⟩ := bind_eq_error.1 h
    · exact ⟨item, List.mem_cons_self, h⟩
    · obtain h | ⟨_, -, h⟩ := bind_eq_error.1 h
      · obtain ⟨other, mem, failed⟩ := ih h
        exact ⟨other, List.mem_cons_of_mem _ mem, failed⟩
      · cases h

namespace InputItem

variable {lane : Lane} {index : Nat}

theorem blames_paramOf (index : Nat) (message : String) :
    (Failure.invalid (paramOf index) message).Blames "input" :=
  ⟨"[" ++ index.repr ++ "]", message, by
    unfold paramOf
    rw [← String.append_assoc, ← String.append_assoc]
    rfl⟩

theorem nonEmpty_error {field : String} {value : Option String}
    (h : nonEmpty (paramOf index) field value = .error f) : f.Blames "input" := by
  unfold nonEmpty nonEmpty.missing at h
  split at h
  · split at h <;> cases h
    exact blames_paramOf ..
  · cases h
    exact blames_paramOf ..

theorem normalizePart_error {role : Role} {part : RawPart}
    (h : normalizePart role part = .error f) : f.Blames "input" := by
  unfold normalizePart at h
  split at h
  · cases h
  · cases h
  · cases h
  · split at h <;> cases h
    exact Failure.blames_invalid ..
  · cases h
    exact Failure.blames_invalid ..
  · cases h
    exact Failure.blames_invalid ..

theorem normalizeContent_error {role : Role} {content : RawContent}
    (h : normalizeContent role content = .error f) : f.Blames "input" := by
  cases content with
  | plain text => cases h
  | parts parts =>
    obtain ⟨part, -, failed⟩ := mapM_eq_error h
    exact normalizePart_error failed

theorem role?_error {text : String} (h : role? text = .error f) : f.Blames "input" := by
  unfold role? at h
  split at h
  · cases h
  · cases h
    exact Failure.blames_invalid ..

theorem normalize_error {raw : RawItem} (h : normalize lane index raw = .error f) :
    f.Blames "input" := by
  unfold normalize at h
  dsimp only at h
  split at h
  · split at h
    · obtain h | ⟨role, -, h⟩ := bind_eq_error.1 h
      · exact role?_error h
      split at h
      · obtain h | ⟨content, -, h⟩ := bind_eq_error.1 h
        · exact normalizeContent_error h
        split at h <;> cases h
        exact blames_paramOf ..
      · cases h
        exact blames_paramOf ..
    · cases h
      exact blames_paramOf ..
  · obtain h | ⟨_, -, h⟩ := bind_eq_error.1 h
    · exact nonEmpty_error h
    obtain h | ⟨_, -, h⟩ := bind_eq_error.1 h
    · exact nonEmpty_error h
    · cases h
  · obtain h | ⟨_, -, h⟩ := bind_eq_error.1 h
    · exact nonEmpty_error h
    split at h <;> cases h
    exact blames_paramOf ..
  · cases h
    exact blames_paramOf ..

theorem ofJson_error {value : Json} (h : ofJson lane index value = .error f) :
    f.Blames "input" := by
  obtain h | ⟨raw, -, h⟩ := bind_eq_error.1 h
  · obtain ⟨fault, rfl⟩ := mapError_eq_error h
    exact blames_paramOf ..
  · exact normalize_error h

theorem listOfJson_error {values : List Json} (h : listOfJson lane index values = .error f) :
    f.Blames "input" := by
  induction values generalizing index with
  | nil => cases h
  | cons value rest ih =>
    obtain h | ⟨item, -, h⟩ := bind_eq_error.1 h
    · exact ofJson_error h
    obtain h | ⟨items, -, h⟩ := bind_eq_error.1 h
    · exact ih h
    · cases h

end InputItem

namespace Registry

theorem checkTool_error {index : Nat} {before : List Tool} {tool : Tool}
    (h : checkTool index before tool = .error f) : f.Blames "tools" := by
  have part (rest message : String) :
      (Failure.invalid ("tools[" ++ index.repr ++ "]" ++ rest) message).Blames "tools" :=
    ⟨"[" ++ index.repr ++ "]" ++ rest, message, by
      simp only [← String.append_assoc]
      rfl⟩
  unfold checkTool at h
  dsimp only at h
  split at h
  · cases h
    simpa only [String.append_empty] using part "" _
  split at h
  · cases h
    exact part ".name" _
  have twice (h : (if before.any (fun other => decide (other.name = tool.name)) then
      Except.error (Failure.invalid ("tools[" ++ index.repr ++ "]" ++ ".name")
        ("duplicate tool name '" ++ tool.name ++ "'")) else pure PUnit.unit) =
        Except.error f) : f.Blames "tools" := by
    split at h <;> cases h
    exact part ".name" _
  split at h
  · obtain h | ⟨_, -, h⟩ := bind_eq_error.1 h
    · obtain ⟨place, rfl⟩ := mapError_eq_error h
      exact part ".parameters" _
    · exact twice h
  · exact twice h

theorem checkTools_error {before tools : List Tool} (h : checkTools before tools = .error f) :
    f.Blames "tools" := by
  induction tools generalizing before with
  | nil => cases h
  | cons tool rest ih =>
    obtain h | ⟨_, -, h⟩ := bind_eq_error.1 h
    · exact checkTool_error h
    · exact ih h

theorem checkChoice_error {tools : List Tool} {choice : ToolChoice}
    (h : checkChoice tools choice = .error f) : f.Blames "tool_choice" := by
  unfold checkChoice at h
  split at h
  · cases h
  · cases h
  · split at h <;> cases h
    exact Failure.blames_invalid ..
  · cases h
    exact Failure.blames_invalid ..
  · split at h
    · cases h
      exact ⟨".type", _, rfl⟩
    split at h <;> cases h
    exact ⟨".name", _, rfl⟩

theorem ofRequest_error {maxTools : Nat} {tools : List Tool} {choice : ToolChoice}
    (h : ofRequest maxTools tools choice = .error f) :
    f.Blames "tools" ∨ f.Blames "tool_choice" := by
  unfold ofRequest at h
  split at h
  · cases h
    exact .inl (Failure.blames_invalid ..)
  obtain h | ⟨_, -, h⟩ := bind_eq_error.1 h
  · exact .inl (checkTools_error h)
  obtain h | ⟨_, -, h⟩ := bind_eq_error.1 h
  · exact .inr (checkChoice_error h)
  · cases h

end Registry

theorem Context.build_error {count : Counter} {window : Nat} {truncation : Truncation}
    {instructions : Option String} {ancestry : List Response} {input : List InputItem}
    (h : build count window truncation instructions ancestry input = .error f) :
    f.Blames "input" := by
  unfold build at h
  dsimp only at h
  split at h
  · cases h
  split at h
  · cases h
    exact Failure.blames_invalid ..
  · unfold truncate at h
    dsimp only at h
    split at h <;> cases h
    exact Failure.blames_invalid ..

namespace Admission

theorem model_error {limits : Limits} {named : Option String}
    (h : model limits named = .error f) : f.Blames "model" := by
  unfold model at h
  split at h <;> cases h
  exact Failure.blames_invalid ..

theorem rawItems_error {limits : Limits} {input : Json}
    (h : rawItems limits input = .error f) : f.Blames "input" := by
  unfold rawItems at h
  split at h
  · cases h
    exact Failure.blames_invalid ..
  · split at h <;> cases h
    exact Failure.blames_invalid ..
  all_goals
    cases h
    exact Failure.blames_invalid ..

theorem sampling_error {name : String} {bound : Nat} {n : Option Json.Number}
    (h : sampling name bound n = .error f) : f.Blames name := by
  unfold sampling at h
  split at h
  · cases h
  · split at h <;> cases h
    exact Failure.blames_invalid ..

theorem maxOutputTokens_error {n : Option Int} (h : maxOutputTokens n = .error f) :
    f.Blames "max_output_tokens" := by
  unfold maxOutputTokens at h
  split at h
  · cases h
  split at h
  · cases h
    exact Failure.blames_invalid ..
  split at h <;> cases h
  exact Failure.blames_invalid ..

theorem truncation_error {named : Option String} (h : truncation named = .error f) :
    f.Blames "truncation" := by
  unfold truncation at h
  split at h <;> cases h
  exact Failure.blames_invalid ..

theorem outputSchema_error {format : TextFormat} (h : outputSchema format = .error f) :
    f.Blames "text.format" := by
  unfold outputSchema at h
  split at h
  · cases h
  · split at h
    · cases h
      exact ⟨".name", _, rfl⟩
    obtain h | ⟨_, -, h⟩ := bind_eq_error.1 h
    · obtain ⟨place, rfl⟩ := mapError_eq_error h
      exact ⟨".schema", _, rfl⟩
    · cases h

/-- The members of a request that are checked on their own. -/
def checkedMembers : List String :=
  ["model", "input", "temperature", "top_p", "max_output_tokens", "truncation", "tools",
    "tool_choice", "text.format"]

/-- What can be wrong with the response that a request continues. -/
inductive Discontinued (store : Store) (r : Request) : Failure → Prop
  | unstored : Discontinued store r
      (.invalid "store" "previous_response_id cannot be used with store=false")
  | misnamed (id : String) : Discontinued store r
      (.invalid "previous_response_id" ("invalid response id '" ++ id ++ "'"))
  | unresolved {id : String} {f : Failure} : r.previous = some id →
      Ancestry.resolve store id = .error f → Discontinued store r f

/-- A refused request fails one of its checks, or cannot continue the response it names. -/
theorem accept_error {s : Setting} {r : Request} (h : accept s r = .error f) :
    (∃ name ∈ checkedMembers, f.Blames name) ∨ Discontinued s.store r f := by
  unfold accept at h
  obtain h | ⟨model, -, h⟩ := bind_eq_error.1 h
  · exact .inl ⟨_, by decide, model_error h⟩
  obtain h | ⟨raw, -, h⟩ := bind_eq_error.1 h
  · exact .inl ⟨_, by decide, rawItems_error h⟩
  obtain h | ⟨input, -, h⟩ := bind_eq_error.1 h
  · exact .inl ⟨_, by decide, InputItem.listOfJson_error h⟩
  obtain h | ⟨temperature, -, h⟩ := bind_eq_error.1 h
  · exact .inl ⟨_, by decide, sampling_error h⟩
  obtain h | ⟨topP, -, h⟩ := bind_eq_error.1 h
  · exact .inl ⟨_, by decide, sampling_error h⟩
  obtain h | ⟨maxOutputTokens, -, h⟩ := bind_eq_error.1 h
  · exact .inl ⟨_, by decide, maxOutputTokens_error h⟩
  obtain h | ⟨truncation, -, h⟩ := bind_eq_error.1 h
  · exact .inl ⟨_, by decide, truncation_error h⟩
  obtain h | ⟨_, -, h⟩ := bind_eq_error.1 h
  · right
    unfold checkPrevious at h
    split at h
    · cases h
    split at h
    · cases h
      exact .unstored
    split at h <;> cases h
    exact .misnamed _
  obtain h | ⟨registry, -, h⟩ := bind_eq_error.1 h
  · obtain h | h := Registry.ofRequest_error h
    · exact .inl ⟨_, by decide, h⟩
    · exact .inl ⟨_, by decide, h⟩
  obtain h | ⟨schema, -, h⟩ := bind_eq_error.1 h
  · exact .inl ⟨_, by decide, outputSchema_error h⟩
  obtain h | ⟨ancestry, -, h⟩ := bind_eq_error.1 h
  · right
    unfold Admission.ancestry at h
    split at h
    · cases h
    · next continued => exact .unresolved continued h
  obtain h | ⟨messages, -, h⟩ := bind_eq_error.1 h
  · exact .inl ⟨_, by decide, Context.build_error h⟩
  · cases h

end Admission

end Responder
