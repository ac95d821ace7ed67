import ShaderCompat.Gate.Scalar
import ShaderCompat.Gate.Target

/-!
# Checks

The checks a parser can ask for, as data. A check carries everything it is told except the place and
the name of the feature, and may list extensions; `Check.run` is the gate it stands for. Queries are
the questions about extensions that report nothing.

Both are parametrised by how extensions are referred to, so that a host may write them with names of
its own and resolve those later.
-/

namespace ShaderCompat

/-- A check that may report. Extensions are referred to by an `ι`, in a step by an `ExtensionRef`.
-/
inductive Check (ι : Type) where
  | profile (profiles : ProfileSet)
  | version (profiles : ProfileSet) (minimum : Int32) (ids : List ι)
  | stage (stages : StageSet)
  | deprecated (profiles : ProfileSet) (since : Int32)
  | removed (profiles : ProfileSet) (since : Int32)
  | unimplemented
  | withoutSpirv
  | withoutVulkan
  | vulkanOnly
  | spirvOnly
  | extensions (channel : Channel) (ids : List ι)
  | fullInteger
  | double
  | int64 (builtIn : Bool)
  | int16 (builtIn : Bool)
  | float16 (builtIn : Bool)
deriving DecidableEq, Repr

namespace Check

/-- Resolves the references to extensions, if every one stands for something for `f`. -/
def resolve {ι κ : Type} (f : ι → Option κ) : Check ι → Option (Check κ)
  | .profile profiles => some (.profile profiles)
  | .version profiles minimum ids => (ids.mapM f).map (.version profiles minimum)
  | .stage stages => some (.stage stages)
  | .deprecated profiles since => some (.deprecated profiles since)
  | .removed profiles since => some (.removed profiles since)
  | .unimplemented => some .unimplemented
  | .withoutSpirv => some .withoutSpirv
  | .withoutVulkan => some .withoutVulkan
  | .vulkanOnly => some .vulkanOnly
  | .spirvOnly => some .spirvOnly
  | .extensions channel ids => (ids.mapM f).map (.extensions channel)
  | .fullInteger => some .fullInteger
  | .double => some .double
  | .int64 builtIn => some (.int64 builtIn)
  | .int16 builtIn => some (.int16 builtIn)
  | .float16 builtIn => some (.float16 builtIn)

/-- Runs a check under a configuration and a registry: each constructor has its gate in `Gate`. -/
def run (o : Options) (r : Registry) (loc : Location) (feature : String) :
    Check ExtensionId → Outcome Unit
  | .profile profiles => Gate.profile o loc profiles feature
  | .version profiles minimum ids => Gate.version o r loc profiles minimum ids feature
  | .stage stages => Gate.stage o loc stages feature
  | .deprecated profiles since => Gate.deprecated o loc profiles since feature
  | .removed profiles since => Gate.removed o loc profiles since feature
  | .unimplemented => Gate.unimplemented loc feature
  | .withoutSpirv => Gate.withoutSpirv o loc feature
  | .withoutVulkan => Gate.withoutVulkan o loc feature
  | .vulkanOnly => Gate.vulkanOnly o loc feature
  | .spirvOnly => Gate.spirvOnly o loc feature
  | .extensions channel ids => Gate.extensions o r channel loc ids feature
  | .fullInteger => Gate.fullInteger o r loc feature
  | .double => Gate.double o r loc feature
  | .int64 builtIn => Gate.int64 o r loc feature builtIn
  | .int16 builtIn => Gate.int16 o r loc feature builtIn
  | .float16 builtIn => Gate.float16 o r loc feature builtIn

end Check

/-- A question about extensions that reports nothing. An `ι` is as in `Check`. -/
inductive Query (ι : Type) where
  | behavior (id : ι)
  | behaviorOf (text : String)
  | nameOf (id : ι)
  | turnedOn (id : ι)
  | anyTurnedOn (ids : List ι)
  | anyDeclared (ids : List ι)
deriving DecidableEq, Repr

/-- The answer to a `Query`. -/
inductive Finding where
  | behavior (b : Behavior)
  | name (text : String)
  | truth (b : Bool)
deriving DecidableEq, Repr

namespace Query

/-- Resolves the references to extensions, as `Check.resolve` does. -/
def resolve {ι κ : Type} (f : ι → Option κ) : Query ι → Option (Query κ)
  | .behavior id => (f id).map .behavior
  | .behaviorOf text => some (.behaviorOf text)
  | .nameOf id => (f id).map .nameOf
  | .turnedOn id => (f id).map .turnedOn
  | .anyTurnedOn ids => (ids.mapM f).map .anyTurnedOn
  | .anyDeclared ids => (ids.mapM f).map .anyDeclared

/-- Answers a question from a registry, or refuses an identity as `Registry.lookup` does. -/
def answer (r : Registry) : Query ExtensionId → Except Refusal Finding
  | .behavior id => .behavior <$> r.behavior id
  | .behaviorOf text => .behavior <$> r.behaviorOf text
  | .nameOf id => .name <$> r.name id
  | .turnedOn id => (fun b => .truth b.isTurnedOn) <$> r.behavior id
  | .anyTurnedOn ids => .truth <$> r.anyTurnedOn ids
  | .anyDeclared ids => .truth <$> r.anyDeclared ids

end Query

end ShaderCompat
