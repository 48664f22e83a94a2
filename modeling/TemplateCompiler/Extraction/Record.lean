import TemplateCompiler.Placeholder

/-!
# Records of extracted expressions

What is recorded about the expressions and loop collections that a template holds, so that typed
accessors can be written for them.

## Main definitions

* `ExpressionKind`, `Parameter`
* `Expression`, `Collection` — an expression, and the source of a loop
* `Extraction` — the template with placeholders and everything taken out of it
-/
namespace TemplateCompiler

/-- How the template uses an expression. -/
inductive ExpressionKind where
  /-- A value that the template reads. -/
  | getter
  /-- A form field's target, which the template writes back. -/
  | setter
  /-- A statement that handles an event. -/
  | event
  /-- A computed property read by its name alone. -/
  | computed
  deriving DecidableEq, Repr

/-- The name of the kind in generated text. -/
def ExpressionKind.name : ExpressionKind → String
  | getter => "GETTER"
  | setter => "SETTER"
  | event => "EVENT"
  | computed => "COMPUTED"

/-- The kind of a given name. -/
def ExpressionKind.ofName? (name : String) : Option ExpressionKind :=
  [getter, setter, event, computed].find? fun kind => kind.name == name

@[simp] theorem ExpressionKind.ofName?_name (kind : ExpressionKind) :
    ofName? kind.name = some kind := by
  cases kind <;> rfl

/-- A parameter of an accessor. -/
structure Parameter where
  name : String
  typeName : String
  deriving DecidableEq, Repr

/-- An expression taken out of a template. -/
structure Expression where
  id : String
  kind : ExpressionKind
  parameters : List Parameter
  returnType : String
  /-- The text as it was written. -/
  body : String
  deriving DecidableEq, Repr

/-- The source of a loop. The engine reads its items from a data slot; the accessor that bears the
collection's name evaluates the body. -/
structure Collection where
  id : String
  parameters : List Parameter
  returnType : String
  body : String
  deriving DecidableEq, Repr

/-- The data slot that holds the items. -/
def Collection.slot (c : Collection) : String := Placeholder.arraySlot c.id

/-- A template with placeholders in it and everything that they stand for. -/
structure Extraction where
  template : String
  expressions : List Expression
  collections : List Collection
  deriving DecidableEq, Repr

/-- What is extracted where there is no template. -/
def Extraction.ofNothing : Extraction := ⟨"", [], []⟩

end TemplateCompiler
