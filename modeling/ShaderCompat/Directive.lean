import ShaderCompat.Signal

/-!
# Extension directives

An `#extension` directive gives an extension a behavior, and with it everything the extension
implies. `Update` is what that does to a registry: the registry after it, the signals given off, and
whether an identity was refused on the way.

The keyword is judged before anything else, so a directive that is rejected leaves the registry as
it was. The name `all` stands for every declared extension, and may only be warned on or disabled.
-/

namespace ShaderCompat

/-- What a change of behaviors does: to the `registry`, to the world by its `signals`, and how it
ends. -/
structure Update where
  registry : Registry
  signals : List Signal
  result : Except Refusal Unit := .ok ()

namespace Update

/-- One change after another; the second is not begun if the first is refused, and then the first is
all there is. -/
def andThen (u : Update) (next : Registry → Update) : Update :=
  match u.result with
  | .error _ => u
  | .ok () =>
    let v := next u.registry
    ⟨v.registry, u.signals ++ v.signals, v.result⟩

/-- The change `f` for each element of a list, in order, by `andThen`. -/
def each {α : Type} (f : α → Registry → Update) : List α → Registry → Update
  | [], r => ⟨r, [], .ok ()⟩
  | a :: as, r => (f a r).andThen (each f as)

end Update

namespace Directive

/-- The name that stands for every declared extension. No extension is called `all`. -/
def everyExtension : String := "all"

/-- A report about a directive, on the token `#extension`. -/
def about (severity : Severity) (loc : Location) (reason extra : String) : Signal :=
  .report ⟨severity, .parse, loc, reason, "#extension", extra⟩

/-- What is said when an extension is declared: that it is unknown, which is an error for `require`,
or that it is partly supported, unless it has been declared before. The slot `s` is that of before
the declaration. -/
def remarks (loc : Location) (id : ExtensionId) (s : Slot) (b : Behavior) : List Signal :=
  match id.known? with
  | none =>
    [about (if b = .require then .error else .warning) loc "extension not supported:" s.name]
  | some e =>
    if e.entry.support = .partly ∧ ¬s.behavior.isDeclared then
      [about .warning loc "extension is only partially supported:" s.name]
    else []

/-- Gives one extension a behavior, after its `remarks`. -/
def declareOne (loc : Location) (b : Behavior) (id : ExtensionId) (r : Registry) : Update :=
  match r.slot id, r.set id b with
  | .ok s, .ok r' => ⟨r', remarks loc id s b, .ok ()⟩
  | .error e, _ | _, .error e => ⟨r, [], .error e⟩

/-- Gives an extension, and all that it implies, a behavior: `declareOne` for each of its `family`.
-/
def declare (loc : Location) (id : ExtensionId) (b : Behavior) : Registry → Update :=
  Update.each (declareOne loc b) id.family

/-- Handles a directive as it stands in the source: on `all`, on a known name or on another one. -/
def apply (loc : Location) (name keyword : String) (r : Registry) : Update :=
  match Behavior.ofKeyword? keyword with
  | none => { registry := r, signals := [about .error loc "behavior not supported:" keyword] }
  | some b =>
    if name = everyExtension then
      if b.isTurnedOn then
        { registry := r
          signals :=
            [about .error loc "extension 'all' cannot have 'require' or 'enable' behavior" ""] }
      else { registry := r.setDeclared b, signals := [.log (r.setDeclaredEvent b)] }
    else
      -- a name that is not known is listed all the same
      let listed := r.intern name
      Update.andThen ⟨listed.1, (r.internEvents name).map .log, .ok ()⟩
        (declare loc listed.2 b)

end Directive

end ShaderCompat
