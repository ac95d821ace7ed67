import ShaderCompat.Check

/-!
# Checks as gates in a row

A scalar check runs some gates one after the other, and every other check is a gate of its own.
`Check.parts` lists the gates of a check, each with the name of the feature it is told, and
`run_eq_inTurn` says that running the check is running them in turn. What holds of every gate, and
of a row if it holds of the gates in it, thus holds of every check.
-/

namespace ShaderCompat

namespace Check

/-- Whether a check is a gate of its own. -/
def isGate {ι : Type} : Check ι → Bool
  | .fullInteger | .double | .int64 _ | .int16 _ | .float16 _ => false
  | _ => true

/-- The gates of an integer type of an extension. -/
def sizedIntegerParts (e : Extension) (title op : String) : List (Check ExtensionId × String) :=
  [(.extensions .parse [e.id], title), (.profile Gate.namedDesktop, op),
    (.version (.only .core) 450 [], op), (.version (.only .compatibility) 450 [], op)]

/-- The gates a check stands for, in order, each with the feature it is told. -/
def parts (feature : String) : Check ExtensionId → List (Check ExtensionId × String)
  | .fullInteger =>
    [(.version (.only .none) 130 [], feature), (.version (.only .es) 300 [], feature)]
  | .double =>
    [(.profile Gate.namedDesktop, feature), (.version (.only .core) 400 [], feature),
      (.version (.only .compatibility) 400 [Extension.arbGpuShaderFp64.id], feature)]
  | .int64 builtIn =>
    if builtIn then [] else sizedIntegerParts .arbGpuShaderInt64 "shader int64" feature
  | .int16 builtIn =>
    if builtIn then [] else sizedIntegerParts .amdGpuShaderInt16 "shader int16" feature
  | .float16 builtIn =>
    if builtIn then [] else
      [(.profile Gate.namedDesktop, feature),
        (.version Gate.namedDesktop 450 [Extension.amdGpuShaderHalfFloat.id], feature)]
  | k => [(k, feature)]

/-- Runs gates in turn, up to the first that is refused an identity. -/
def inTurn (o : Options) (r : Registry) (loc : Location) :
    List (Check ExtensionId × String) → Outcome Unit
  | [] => pure ()
  | (k, feature) :: rest => do
    k.run o r loc feature
    inTurn o r loc rest

variable {o : Options} {r : Registry} {loc : Location}

/-- A single gate. -/
theorem inTurn_singleton (k : Check ExtensionId) (feature : String) :
    inTurn o r loc [(k, feature)] = k.run o r loc feature := bind_pure_unit

/-- The gates of an integer type of an extension, in turn. -/
theorem sizedInteger_eq_inTurn (e : Extension) (title op : String) :
    Gate.sizedInteger o r loc e title op = inTurn o r loc (sizedIntegerParts e title op) := by
  simp only [sizedIntegerParts, inTurn, bind_pure_unit]
  rfl

/-- A check runs its gates in turn: `run` is `inTurn` of its `parts`. -/
theorem run_eq_inTurn (k : Check ExtensionId) (feature : String) :
    k.run o r loc feature = inTurn o r loc (k.parts feature) := by
  cases k with
  | fullInteger | double =>
    simp only [parts, inTurn, bind_pure_unit]
    rfl
  | int64 builtIn =>
    cases builtIn with
    | true => rfl
    | false => exact sizedInteger_eq_inTurn _ _ feature
  | int16 builtIn =>
    cases builtIn with
    | true => rfl
    | false => exact sizedInteger_eq_inTurn _ _ feature
  | float16 builtIn =>
    cases builtIn with
    | true => rfl
    | false =>
      rw [show parts feature (.float16 false) = [_, _] from rfl]
      simp only [inTurn, bind_pure_unit]
      rfl
  | _ => exact (inTurn_singleton _ feature).symm

/-- The `parts` of a check are gates. -/
theorem isGate_of_mem_parts {k : Check ExtensionId} {feature : String}
    {part : Check ExtensionId × String} (h : part ∈ k.parts feature) : part.1.isGate = true := by
  have hall : ((k.parts feature).all fun p => p.1.isGate) = true := by
    cases k with
    | int64 builtIn | int16 builtIn | float16 builtIn => cases builtIn <;> rfl
    | _ => rfl
  exact List.all_eq_true.mp hall part h

end Check

end ShaderCompat
