import Rekuest.Ports.Agreement

/-!
# Arguments admitted twice

The arguments of a schedule or a trigger are checked when it is written, and again each time
it assigns a run.  `assignment_args_agree_iff` says for which arguments of an accepted
definition the two checks come to the same: those whose walk along the ports stays clear of
the enums where Python compares in its own way.
-/

namespace Rekuest.Ports

/-- The two checks come to the same: both let the arguments pass or neither does, and Python
raises refusals only. -/
structure Together (py : Python.Py Unit) (rust : Except String Unit) : Prop where
  passed : py = .ok () ↔ rust = .ok ()
  refused : ∀ raised, py = .error raised → ∃ message, raised = .value_error message

section

variable {Own : Type} [HasDefault Own] {env : Env}

/-- The checks of the arguments one by one, when none of them is unknown. -/
theorem together_of_agree {met : Met} {checked : Python.Py (Option String)} {found : Option String} :
    Agree met checked found →
      (Together
        (match checked with
          | .error e => .error e
          | .ok (some refusal) => .error (.value_error refusal)
          | .ok none => .ok ())
        (match found with
          | some refusal => .error refusal
          | none => .ok ()) ↔ met.clear = true) := by
  intro h
  cases met with
  | fits =>
      obtain ⟨rfl, rfl⟩ := h
      constructor
      · intro _
        rfl
      · intro _
        constructor
        · exact ⟨fun _ => rfl, fun _ => rfl⟩
        · intro raised hRaised
          cases hRaised
  | refused =>
      obtain ⟨⟨message, rfl⟩, hFound⟩ := h
      obtain ⟨refusal, rfl⟩ := Option.isSome_iff_exists.1 hFound
      constructor
      · intro _
        rfl
      · intro _
        constructor
        · constructor
          · intro hPassed
            cases hPassed
          · intro hPassed
            cases hPassed
        · intro raised hRaised
          cases hRaised
          exact ⟨message, rfl⟩
  | blurred =>
      obtain ⟨rfl, hFound⟩ := h
      obtain ⟨refusal, rfl⟩ := Option.isSome_iff_exists.1 hFound
      constructor
      · intro hTogether
        cases hTogether.passed.1 rfl
      · intro hClear
        cases hClear
  | unhashable strictly =>
      obtain ⟨rfl, -⟩ := h
      constructor
      · intro hTogether
        obtain ⟨message, hMessage⟩ := hTogether.refused .type_error rfl
        cases hMessage
      · intro hClear
        cases hClear

theorem ports_agree {ports : List (Port Own)} (hShaped : ∀ below ∈ subports_in ports, Shaped below)
    {args : List (String × Value)} (hSized : ∀ arg ∈ args, arg.2.sized) :
    Together (Python.validate_assignment_args env ports args)
      (validate_assignment_args env ports args) ↔ (meets_ports env ports args).clear = true := by
  unfold Python.validate_assignment_args validate_assignment_args meets_ports
  dsimp only
  by_cases hKnown : ((args.map (·.1)).all fun k => ports.any (·.key = k)) = true
  · have hNil := unknown_nil_iff.2 hKnown
    rw [if_neg (not_not.2 hNil), if_neg (not_not.2 hNil), if_pos hKnown]
    apply together_of_agree
    apply agree_all
    intro port hPort
    apply argument_agree _ hSized
    intro below hBelow
    exact hShaped below (mem_subports_in.2 ⟨port, hPort, hBelow⟩)
  · have hSome : ((args.map (·.1)).filter fun k => !ports.any (·.key = k)) ≠ [] :=
      fun hNil => hKnown (unknown_nil_iff.1 hNil)
    rw [if_pos hSome, if_pos hSome, if_neg hKnown]
    constructor
    · intro _
      rfl
    · intro _
      constructor
      · constructor
        · intro hPassed
          cases hPassed
        · intro hPassed
          cases hPassed
      · intro raised hRaised
        cases hRaised
        exact ⟨_, rfl⟩

end

section Definition

variable {A R G D : Type} {env : Env} {rules : Rules A R G D}

theorem args_shaped {d accepted : DefinitionInputModel A R G D}
    (h : d.validate env rules = .ok accepted) : ∀ below ∈ subports_in accepted.args, Shaped below := by
  unfold DefinitionInputModel.validate at h
  obtain ⟨groups, -, h⟩ := bind_ok h
  obtain ⟨args, hArgs, h⟩ := bind_ok h
  obtain ⟨returns, -, h⟩ := bind_ok h
  obtain ⟨rest, -, h⟩ := bind_ok h
  obtain ⟨_, -, h⟩ := bind_ok h
  obtain ⟨_, -, h⟩ := bind_ok h
  obtain ⟨_, -, h⟩ := bind_ok h
  obtain ⟨_, -, h⟩ := bind_ok h
  cases h
  intro below hBelow
  obtain ⟨after, hAfter, hBelow⟩ := mem_subports_in.1 hBelow
  obtain ⟨port, -, hAccepted⟩ := accepted_of_mem hArgs after hAfter
  exact validate_port_shaped hAccepted below hBelow

/-- For the arguments of an accepted definition the two checks come to the same if and only
if the walk of the arguments along the ports is clear: Python is asked for no hash there is
not, and the arguments do not fit in its sense alone. -/
theorem assignment_args_agree_iff {d accepted : DefinitionInputModel A R G D}
    (h : d.validate env rules = .ok accepted) {args : List (String × Value)}
    (hSized : ∀ arg ∈ args, arg.2.sized) :
    Together (Python.validate_assignment_args env accepted.args args)
      (validate_assignment_args env accepted.args args) ↔
      (meets_ports env accepted.args args).clear = true :=
  ports_agree (args_shaped h) hSized

end Definition

/-! ## One level -/

/-- A definition that takes a level, the number one being the only choice. -/
def takes_level : DefinitionInputModel Unit Unit Unit Unit where
  key := "dim"
  port_groups := []
  args := [.mk { key := "level", kind := .ENUM, choices := some [.int 1] } { rest := () } []]
  returns := []
  protocols := []
  rest := ()

theorem level_agrees :
    Together (Python.validate_assignment_args plain_env takes_level.args [("level", .int 1)])
      (validate_assignment_args plain_env takes_level.args [("level", .int 1)]) ↔
      (meets_ports plain_env takes_level.args [("level", .int 1)]).clear = true := by
  have hAccepted : takes_level.validate plain_env lenient = .ok takes_level := rfl
  have hSized : ∀ arg ∈ [("level", Value.int 1)], arg.2.sized := by
    intro arg hArg
    cases List.mem_singleton.1 hArg
    show -2 ^ 63 ≤ (1 : Int) ∧ (1 : Int) < 2 ^ 64
    omega
  exact assignment_args_agree_iff hAccepted hSized

/-- `True` is admitted for the number one when a schedule is written, and refused when its
run is assigned. -/
theorem truth_admitted_once :
    ¬ ∀ (A R G D : Type) (env : Env) (rules : Rules A R G D) (d accepted : DefinitionInputModel A R G D),
      d.validate env rules = .ok accepted → ∀ args : List (String × Value),
        (∀ arg ∈ args, arg.2.sized) →
          Together (Python.validate_assignment_args env accepted.args args)
            (validate_assignment_args env accepted.args args) := by
  intro hAll
  have hAccepted : takes_level.validate plain_env lenient = .ok takes_level := rfl
  have hSized : ∀ arg ∈ [("level", Value.bool true)], arg.2.sized := by
    intro arg hArg
    cases List.mem_singleton.1 hArg
    trivial
  have hTogether := hAll _ _ _ _ plain_env lenient _ _ hAccepted _ hSized
  have hBlurred : (meets_ports plain_env takes_level.args [("level", .bool true)]).clear = false := by
    decide +kernel
  rw [(ports_agree (args_shaped hAccepted) hSized).1 hTogether] at hBlurred
  cases hBlurred

end Rekuest.Ports
