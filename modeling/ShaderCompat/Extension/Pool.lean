import ShaderCompat.Event

/-!
# Registries side by side

A pool holds the registries of one process. Each new registry takes the next owner tag, so that
registries made apart do not serve each other's identities; a copy keeps the tag of the registry it
was made from.
-/

namespace ShaderCompat

/-- Registries, and the owner tag that the next new one takes. The tags are words, and wrap. -/
structure Pool where
  registries : List Registry := []
  nextTag : UInt32 := 1
deriving DecidableEq, Repr

/-- What can be done with one registry of a pool. -/
inductive PoolStep where
  | create
  | copy
  | reset
  | setDeclared (b : Behavior)
  | set (id : ExtensionId) (b : Behavior)
  | intern (name : String)
  | find (name : String)
  | nameOf (id : ExtensionId)
  | behavior (id : ExtensionId)
  | owns (id : ExtensionId)
  | tracked
deriving DecidableEq, Repr

/-- What a step on a pool is answered by, one constructor for each kind of result. -/
inductive PoolAnswer where
  | done
  /-- The `place` of a registry that was made. -/
  | made (place : Nat)
  | identity (id : Option ExtensionId)
  | name (text : String)
  | behavior (b : Behavior)
  | truth (b : Bool)
  /-- The declared extensions, as `Registry.listing` gives them. -/
  | tracked (slots : List (Nat × Slot))
deriving DecidableEq, Repr

/-- The log entries of a step on a pool, and its answer; without a registry at the place that the
step names there is no answer. -/
structure PoolReply where
  events : List Event := []
  answer : Option (Except Refusal PoolAnswer)

namespace Pool

/-- A pool of one new registry, with the first tag after the catalog's. -/
def start : Pool := { registries := [.fresh 1], nextTag := 2 }

/-- Takes a step with the registry `r` that stands at place `i`. -/
def stepWith (p : Pool) (i : Nat) (r : Registry) : PoolStep → Pool × PoolReply
  | .create =>
    ({ registries := p.registries ++ [.fresh p.nextTag], nextTag := p.nextTag + 1 },
      { answer := some (.ok (.made p.registries.length)) })
  | .copy =>
    ({ p with registries := p.registries ++ [r] },
      { answer := some (.ok (.made p.registries.length)) })
  | .reset =>
    ({ p with registries := p.registries.set i r.reset }, { answer := some (.ok .done) })
  | .setDeclared b =>
    ({ p with registries := p.registries.set i (r.setDeclared b) },
      ⟨[r.setDeclaredEvent b], some (.ok .done)⟩)
  | .set id b =>
    match r.set id b with
    | .ok r => ({ p with registries := p.registries.set i r }, { answer := some (.ok .done) })
    | .error e => (p, { answer := some (.error e) })
  | .intern name =>
    ({ p with registries := p.registries.set i (r.intern name).1 },
      ⟨r.internEvents name, some (.ok (.identity (some (r.intern name).2)))⟩)
  | .find name => (p, { answer := some (.ok (.identity (r.find? name))) })
  | .nameOf id => (p, { answer := some (PoolAnswer.name <$> r.name id) })
  | .behavior id => (p, { answer := some (PoolAnswer.behavior <$> r.behavior id) })
  | .owns id => (p, { answer := some (.ok (.truth (r.owns id))) })
  | .tracked => (p, { answer := some (PoolAnswer.tracked <$> r.listing) })

/-- Takes a step with the registry at `i`. `create` and `copy` put a new one behind the others, and
a copy keeps the tag of its original. -/
def step (p : Pool) (i : Nat) (st : PoolStep) : Pool × PoolReply :=
  match p.registries[i]? with
  | some r => p.stepWith i r st
  | none => (p, { answer := none })

/-- Takes steps in order, each with the registry it names, and gathers the replies. -/
def run (p : Pool) : List (Nat × PoolStep) → Pool × List PoolReply
  | [] => (p, [])
  | (i, st) :: rest =>
    let (p, reply) := p.step i st
    let (p, replies) := p.run rest
    (p, reply :: replies)

end Pool

end ShaderCompat
