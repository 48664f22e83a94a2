import TemplateCompiler.Component.Declaration
import TemplateCompiler.Extraction.Record
import TemplateCompiler.Source.Lines

/-!
# Accessors

An accessor is the method that evaluates an extracted expression. It is written in two forms: a
typed declaration in the generated resource, and the source of the function that is left when
types are erased, from which the expression is recovered when a component is constructed.

## Main definitions

* `ReturnShape` — how an accessor makes a result of its expression
* `Accessor` — an accessor in both forms
* `Accessor.compiledSource` — the untyped form
* `Accessor.ofExpression`, `Accessor.ofCollection`
-/
namespace TemplateCompiler

/-- How an accessor makes a result of its expression. -/
inductive ReturnShape where
  /-- The value is turned into text. -/
  | text
  /-- The expression is a statement. -/
  | statement
  /-- The value is cast to the declared type. -/
  | cast (typeName : String)
  deriving DecidableEq, Repr

/-- The shape for a declared return type. The type without values is recognised in any case of
letters, and the string type also under a qualified name. -/
def ReturnShape.ofType (typeName : String) : ReturnShape :=
  if typeName.toList.map Char.toLower = voidType.toList then statement
  else if typeName = "String" ∨ (Text.before? ".String".toList typeName.toList).isSome then text
  else cast typeName

/-- An accessor in both of its forms. -/
structure Accessor where
  id : String
  /-- The typed declaration. -/
  declaration : String
  /-- The source of the untyped function. -/
  compiled : String
  deriving DecidableEq, Repr

namespace Accessor

/-- The untyped form: a function of the parameters' names. -/
def compiledSource (parameters : List Parameter) (shape : ReturnShape) (body : String) : String :=
  let names := String.intercalate ", " (parameters.map Parameter.name)
  let lead := match shape with
    | .statement => ""
    | _ => "return "
  "function(" ++ names ++ ") \x7b " ++ lead ++ body ++ "; \x7d"

/-- The statement in the typed form. -/
def typedStatement (shape : ReturnShape) (body : String) : String :=
  match shape with
  | .text => "return (" ++ body ++ ") + \"\";"
  | .statement => body ++ ";"
  | .cast typeName => "return (" ++ typeName ++ ") (" ++ body ++ ");"

/-- The typed form. -/
def typedDeclaration (id : String) (parameters : List Parameter) (returnType body : String) :
    String :=
  let shape := ReturnShape.ofType returnType
  let declared := if shape = .statement then voidType else returnType
  let typed := String.intercalate ", " (parameters.map fun p => p.typeName ++ " " ++ p.name)
  (((SourceText.empty.openBlock
    ("public " ++ declared ++ " " ++ id ++ "(" ++ typed ++ ")")).line
      (typedStatement shape body)).closeBlock).render

/-- The accessor of a given name, parameters, type and body. -/
def make (id : String) (parameters : List Parameter) (returnType body : String) : Accessor :=
  { id
    declaration := typedDeclaration id parameters returnType body
    compiled := compiledSource parameters (ReturnShape.ofType returnType) body }

/-- The accessor of an expression. -/
def ofExpression (e : Expression) : Accessor := make e.id e.parameters e.returnType e.body

/-- The accessor that evaluates the source of a loop. -/
def ofCollection (c : Collection) : Accessor := make c.id c.parameters c.returnType c.body

@[simp] theorem id_ofExpression (e : Expression) : (ofExpression e).id = e.id := rfl
@[simp] theorem id_ofCollection (c : Collection) : (ofCollection c).id = c.id := rfl

end Accessor

end TemplateCompiler
