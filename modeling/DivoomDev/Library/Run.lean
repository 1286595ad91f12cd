import Mathlib

/-! Runs of a system whose step may end it. Everything that the environment decides is part
of the input, so a step is a function and a run is the list of its inputs. -/

namespace DivoomDev.Library.Run

variable {State Input : Type}

/-- The state after feeding the inputs in turn, unless some step ended the system. -/
def run (step : State → Input → Option State) : State → List Input → Option State
  | s, [] => some s
  | s, input :: rest => (step s input).bind (fun s' => run step s' rest)

/-- Every step of the run is taken in a state and on an input that meet the condition. -/
def Along (condition : State → Input → Prop) (step : State → Input → Option State) :
    State → List Input → Prop
  | _, [] => True
  | s, input :: rest => condition s input ∧ ∀ s', step s input = some s' → Along condition step s' rest

variable {step : State → Input → Option State}

instance decidableAlong {condition : State → Input → Prop} [∀ s input, Decidable (condition s input)] :
    (s : State) → (inputs : List Input) → Decidable (Along condition step s inputs)
  | _, [] => .isTrue trivial
  | s, input :: rest =>
    match stepped : step s input with
    | none => decidable_of_iff (condition s input)
        ⟨fun here => ⟨here, fun _ other => nomatch stepped.symm.trans other⟩, And.left⟩
    | some s' =>
      have : Decidable (Along condition step s' rest) := decidableAlong s' rest
      decidable_of_iff (condition s input ∧ Along condition step s' rest)
        ⟨fun both => ⟨both.1, fun _ other => Option.some.inj (stepped.symm.trans other) ▸ both.2⟩,
          fun both => ⟨both.1, both.2 _ stepped⟩⟩

/-- A condition of all steps that implies another one in every state that the run reaches. -/
theorem along_imp {condition property : State → Input → Prop} {I : State → Prop}
    (preserved : ∀ s input s', I s → condition s input → step s input = some s' → I s')
    (implies : ∀ s input, I s → condition s input → property s input) {s : State}
    {inputs : List Input} (start : I s) (along : Along condition step s inputs) :
    Along property step s inputs := by
  induction inputs generalizing s with
  | nil => trivial
  | cons input rest ih =>
    exact ⟨implies s input start along.1, fun s' stepped =>
      ih (preserved s input s' start along.1 stepped) (along.2 s' stepped)⟩

theorem run_invariant_along {condition : State → Input → Prop} {I : State → Prop}
    (preserved : ∀ s input s', I s → condition s input → step s input = some s' → I s') {s s' : State}
    {inputs : List Input} (start : I s) (along : Along condition step s inputs)
    (reached : run step s inputs = some s') : I s' := by
  induction inputs generalizing s with
  | nil => exact Option.some.inj reached ▸ start
  | cons input rest ih =>
    obtain ⟨middle, first, later⟩ := Option.bind_eq_some_iff.mp reached
    exact ih (preserved s input middle start along.1 first) (along.2 middle first) later

theorem along_mem {condition : State → Input → Prop} {s : State} {inputs all : List Input}
    (inside : ∀ input ∈ inputs, input ∈ all) (along : Along condition step s inputs) :
    Along (fun s input => input ∈ all ∧ condition s input) step s inputs := by
  induction inputs generalizing s with
  | nil => trivial
  | cons input rest ih =>
    obtain ⟨here, later⟩ := List.forall_mem_cons.mp inside
    exact ⟨⟨here, along.1⟩, fun s' stepped => ih later (along.2 s' stepped)⟩

theorem along_congr {condition property : State → Input → Prop}
    (same : ∀ s input, condition s input ↔ property s input) {s : State} {inputs : List Input} :
    Along condition step s inputs ↔ Along property step s inputs := by
  apply Iff.intro
  · exact along_imp (I := fun _ => True) (fun _ _ _ _ _ _ => trivial)
      (fun s input _ => (same s input).mp) trivial
  · exact along_imp (I := fun _ => True) (fun _ _ _ _ _ _ => trivial)
      (fun s input _ => (same s input).mpr) trivial

theorem along_true (s : State) (inputs : List Input) : Along (fun _ _ => True) step s inputs := by
  induction inputs generalizing s with
  | nil => trivial
  | cons input rest ih => exact ⟨trivial, fun s' _ => ih s'⟩

theorem run_invariant_of_step {I : State → Prop}
    (preserved : ∀ s input s', I s → step s input = some s' → I s')
    {s s' : State} {inputs : List Input} (start : I s)
    (reached : run step s inputs = some s') : I s' :=
  run_invariant_along (fun s input s' kept _ => preserved s input s' kept) start (along_true s inputs) reached

/-- Feeding one input leads to the goal when every step before it lowers a rank. -/
theorem reaches_of_rank {I goal : State → Prop} (rank : State → Nat) (input : Input)
    (progress : ∀ s, I s → ¬goal s → ∃ s', step s input = some s' ∧ I s' ∧ rank s' < rank s) {s : State}
    (start : I s) : ∃ n s', run step s (List.replicate n input) = some s' ∧ goal s' := by
  by_cases there : goal s
  · exact ⟨0, s, rfl, there⟩
  · obtain ⟨middle, first, kept, lower⟩ := progress s start there
    obtain ⟨n, last, later, done⟩ := reaches_of_rank rank input progress kept
    refine ⟨n + 1, last, ?_, done⟩
    rw [List.replicate_succ, run, first]
    exact later
termination_by rank s

/-! ## Outputs -/

section Outputs
variable {Output : Type} {act : State → Input → Output × State}

/-- What a system that is never ended puts out for the inputs in turn. -/
def outputs (act : State → Input → Output × State) : State → List Input → List Output
  | _, [] => []
  | s, input :: rest => (act s input).1 :: outputs act (act s input).2 rest

/-- What is to be put out, told from the inputs so far alone. -/
def outputsBy (spec : List Input → Input → Output) : List Input → List Input → List Output
  | _, [] => []
  | done, input :: rest => spec done input :: outputsBy spec (done ++ [input]) rest

/-- The outputs are those that are told, where the invariant carries each step behind inputs that are
as they should be. -/
theorem outputs_eq_outputsBy {spec : List Input → Input → Output} {P : List Input → Prop}
    {I : List Input → State → Prop}
    (kept : ∀ done s input, P done → I done s →
      (act s input).1 = spec done input ∧ I (done ++ [input]) (act s input).2)
    {done : List Input} {s : State} (start : I done s) {inputs : List Input}
    (along : ∀ before ∈ inputs.inits, P (done ++ before)) :
    outputs act s inputs = outputsBy spec done inputs := by
  induction inputs generalizing done s with
  | nil => rfl
  | cons input rest ih =>
    simp only [List.inits_cons, List.forall_mem_cons, List.append_nil, List.forall_mem_map] at along
    obtain ⟨same, later⟩ := kept done s input along.1 start
    rw [outputs, outputsBy, same, ih later (fun before member => ?_)]
    rw [List.append_assoc]
    exact along.2 before member

end Outputs

end DivoomDev.Library.Run
