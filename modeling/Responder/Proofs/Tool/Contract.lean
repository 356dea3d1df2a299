import Mathlib.Data.List.Nodup
import Responder.Proofs.Server.Admission

/-!
# What a request allows to be called

A request declares tools and says which of them may be called. Main statement: once it was
admitted its tools have different names, and a call is refused exactly if the request does
not allow it.
-/

namespace Responder

/-- A request allows a tool to be called with some arguments. -/
structure Request.Allows (r : Request) (name arguments : String) : Prop where
  mode : r.toolChoice ≠ some (.mode "none")
  forced : ∀ type forced, r.toolChoice = some (.function type forced) → name = forced
  /-- The tool is the only one that is declared with this name. -/
  declared : ∃ tool ∈ r.tools, tool.name = name ∧
    (∀ other ∈ r.tools, other.name = name → other = tool) ∧
    ∃ members, Json.parse arguments = .ok (.object members) ∧
      ∀ parameters ∈ tool.parameters, Schema.validate parameters (.object members) = .ok ()

/-- A request allows a call of a backend, whose arguments may be left out. -/
def Request.AllowsCall (r : Request) (call : ToolCall) : Prop :=
  r.Allows call.name (Registry.argumentsText call.arguments)

/-- A call among the items of an output keeps to a request. -/
def OutputItem.Obeys (r : Request) : OutputItem → Prop
  | .message .. => True
  | .functionCall _ _ callId name arguments => callId ≠ "" ∧ r.Allows name arguments

/-- No id that is generated is empty. -/
theorem Lane.id_ne_empty (lane : Lane) (kind : IdKind) (slot : Slot) :
    lane.id kind slot ≠ "" := by
  intro empty
  unfold Lane.id at empty
  cases kind <;> simp [IdKind.text] at empty

namespace Registry

variable {before tools : List Tool} {tool : Tool} {registry : Registry} {name : String}

theorem checkTool_new {index : Nat} (h : checkTool index before tool = .ok ()) :
    tool.name ∉ before.map Tool.name := by
  intro mem
  obtain ⟨other, there, same⟩ := List.mem_map.1 mem
  have double : before.any (fun other => decide (other.name = tool.name)) = true :=
    List.any_eq_true.2 ⟨other, there, decide_eq_true same⟩
  simp only [checkTool, double, if_true] at h
  split at h
  · cases h
  split at h
  · cases h
  split at h
  · obtain ⟨_, -, h⟩ := bind_eq_ok.1 h
    cases h
  · cases h

theorem checkTools_nodup (h : checkTools before tools = .ok ())
    (once : (before.map Tool.name).Nodup) : ((before ++ tools).map Tool.name).Nodup := by
  induction tools generalizing before with
  | nil =>
    rw [List.append_nil]
    exact once
  | cons tool rest ih =>
    obtain ⟨_, checked, later⟩ := bind_eq_ok.1 h
    have more : ((before ++ [tool]).map Tool.name).Nodup := by
      rw [List.map_append, List.map_singleton, ← List.concat_eq_append]
      exact once.concat (checkTool_new checked)
    have all := ih later more
    rwa [List.append_assoc] at all

theorem ofRequest_nodup {maxTools : Nat} {choice : ToolChoice}
    (h : ofRequest maxTools tools choice = .ok registry) : (tools.map Tool.name).Nodup := by
  unfold ofRequest at h
  split at h
  · cases h
  · obtain ⟨_, checked, -⟩ := bind_eq_ok.1 h
    exact checkTools_nodup checked List.nodup_nil

/-- Among tools with different names, the one that is found is the only one. -/
theorem find?_eq_some_iff (once : (registry.tools.map Tool.name).Nodup) :
    registry.find? name = some tool ↔ tool ∈ registry.tools ∧ tool.name = name ∧
      ∀ other ∈ registry.tools, other.name = name → other = tool := by
  constructor
  · intro found
    have mem : tool ∈ registry.tools := List.mem_of_find?_eq_some found
    have named : tool.name = name := by simpa using List.find?_some found
    refine ⟨mem, named, ?_⟩
    intro other there same
    exact List.inj_on_of_nodup_map once there mem (same.trans named.symm)
  · rintro ⟨mem, named, only⟩
    cases found : registry.find? name with
    | none =>
      have differs := List.find?_eq_none.1 found tool mem
      exact absurd (decide_eq_true named) differs
    | some other =>
      have there : other ∈ registry.tools := List.mem_of_find?_eq_some found
      have same : other.name = name := by simpa using List.find?_some found
      rw [only other there same]

/-- Arguments are without fault if they are an object that the parameters accept. -/
theorem argumentsFault_eq_none_iff (found : registry.find? name = some tool) (text : String) :
    registry.argumentsFault name text = none ↔
      ∃ members, Json.parse text = .ok (.object members) ∧
        ∀ parameters ∈ tool.parameters, Schema.validate parameters (.object members) = .ok () := by
  have parameters : registry.parameters? name = tool.parameters := by rw [parameters?, found]; rfl
  unfold argumentsFault
  dsimp only
  rw [parameters]
  cases parsed : Json.parse text with
  | error message => simp
  | ok value =>
    cases value with
    | object members =>
      simp only [Json.object?, Option.isNone_some, Bool.false_eq_true, if_false]
      cases tool.parameters with
      | none => simp
      | some schema => cases checked : Schema.validate schema (.object members) <;> simp [checked]
    | _ => simp [Json.object?]

theorem callFault_eq_none_iff {call : ToolCall} : registry.callFault call = none ↔
    registry.choice ≠ .mode "none" ∧
    (∀ forced ∈ registry.choice.forced?, call.name = forced) ∧
    ∃ tool, registry.find? call.name = some tool ∧
      ∃ members, Json.parse (argumentsText call.arguments) = .ok (.object members) ∧
        ∀ parameters ∈ tool.parameters, Schema.validate parameters (.object members) = .ok () := by
  unfold callFault ToolChoice.isNone isAvailable
  by_cases closed : registry.choice = .mode "none"
  · simp [closed]
  · rw [if_neg (by simpa using closed)]
    cases other : registry.choice.forced?.filter (· ≠ call.name) with
    | some forced =>
      obtain ⟨given, differs⟩ := Option.filter_eq_some_iff.1 other
      have wrong : ¬ ∀ forced ∈ registry.choice.forced?, call.name = forced :=
        fun all => of_decide_eq_true differs (all forced given).symm
      exact iff_of_false nofun fun allowed => wrong allowed.2.1
    | none =>
      have right : ∀ forced ∈ registry.choice.forced?, call.name = forced := by
        intro forced given
        have same := Option.filter_eq_none_iff.1 other forced given
        exact (not_not.1 (mt decide_eq_true same)).symm
      cases found : registry.find? call.name with
      | none => simp
      | some tool =>
        have arguments := argumentsFault_eq_none_iff found (argumentsText call.arguments)
        simp only [Option.isSome_some, Bool.not_true, Bool.false_eq_true, if_false, arguments]
        constructor
        · intro fits
          exact ⟨closed, right, tool, rfl, fits⟩
        · rintro ⟨-, -, other, same, fits⟩
          cases same
          exact fits

end Registry

namespace Admission

variable {s : Setting} {r : Request} {admitted : Admitted}

/-- A call is without fault if the admitted request allows it. -/
theorem Accepted.callFault_eq_none_iff (h : Accepted s r admitted) {call : ToolCall} :
    admitted.registry.callFault call = none ↔ r.AllowsCall call := by
  have once : (admitted.registry.tools.map Tool.name).Nodup := by
    rw [h.registry]
    exact Registry.ofRequest_nodup h.checked
  rw [Registry.callFault_eq_none_iff]
  simp only [Registry.find?_eq_some_iff once]
  rw [h.registry]
  constructor
  · rintro ⟨opened, forced, tool, ⟨mem, named, only⟩, fits⟩
    refine ⟨?_, ?_, tool, mem, named, only, fits⟩
    · intro closed
      rw [closed] at opened
      exact opened rfl
    · intro type name given
      rw [given] at forced
      exact forced name rfl
  · rintro ⟨opened, forced, tool, mem, named, only, fits⟩
    refine ⟨?_, ?_, tool, ⟨mem, named, only⟩, fits⟩
    · intro closed
      cases given : r.toolChoice with
      | none =>
        simp [given, ToolChoice.auto] at closed
      | some choice =>
        rw [given] at closed
        exact opened (given.trans (congrArg some closed))
    · intro name given
      cases chosen : r.toolChoice with
      | none =>
        rw [chosen] at given
        cases given
      | some choice =>
        rw [chosen] at given
        cases choice with
        | mode => cases given
        | function type other =>
          obtain rfl := Option.some.inj given
          exact forced type _ chosen

/-- An item that a call was shaped into keeps to the request. -/
theorem Accepted.shape_obeys (h : Accepted s r admitted) {lane : Lane} {index : Nat}
    {call : ToolCall} {item : OutputItem}
    (shaped : admitted.registry.shape lane index call = .ok item) : item.Obeys r := by
  unfold Registry.shape at shaped
  split at shaped
  · cases shaped
  · next fits =>
    cases shaped
    refine ⟨?_, h.callFault_eq_none_iff.1 fits⟩
    split
    · exact Lane.id_ne_empty lane .call _
    · next given => exact given

end Admission

end Responder
