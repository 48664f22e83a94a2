import TemplateCompiler.Component.Hierarchy
import TemplateCompiler.Extraction.Record
import TemplateCompiler.Extraction.Site

/-!
# Extraction

A walk over the sites of a template takes out its expressions and loop collections. It keeps the
scopes that are open, because an expression inside a loop has the loop's variables as parameters,
and collects the edits that put placeholders in place of what it takes out.

## Main definitions

* `Extraction.visible` — variables with the hidden ones left out
* `Extraction.Walk` — the state of a walk, with a step for each site
* `extract` — the extraction from a template, or its problems
-/
namespace TemplateCompiler

open Text Markup

namespace Extraction

/-! ## Scopes -/

/-- A scope that an element opened, with the variables of its loop. -/
structure Scope where
  tag : String
  bindings : List Parameter
  deriving DecidableEq, Repr

/-- Variables in the order of their declaration, the innermost one last. One that is declared
again counts at its last place only. -/
def visible (declared : List Parameter) : List Parameter :=
  declared.foldl (fun all v => (all.filter fun w => w.name != v.name) ++ [v]) []

/-- The variables of open scopes, the innermost scope being the first. -/
def scopeVariables (scopes : List Scope) : List Parameter :=
  scopes.reverse.flatMap Scope.bindings

/-- The scopes that stay open after a closing tag: those outside the innermost one of that name.
A closing tag without an opening one is ignored. -/
def closeScope (name : String) (scopes : List Scope) : List Scope :=
  let isMatch (scope : Scope) := Element.foldName scope.tag == Element.foldName name
  if scopes.any isMatch then (scopes.dropWhile fun scope => !isMatch scope).drop 1 else scopes

/-- The variables that a loop introduces. The first one without a declared type is an item, the
others are indices. -/
def loopParameters (bindings : List LoopVariable) : List Parameter :=
  bindings.zipIdx.map fun (v, index) =>
    ⟨v.name, v.typeName.getD (if index = 0 then objectType else "int")⟩

/-- The clause that the engine gets: bare names and the data slot of the collection. -/
def bareClause (bindings : List LoopVariable) (id : String) : String :=
  let names := match bindings.map LoopVariable.name with
    | [single] => single
    | several => "(" ++ String.intercalate ", " several ++ ")"
  names ++ " in " ++ Placeholder.arraySlot id

/-! ## Types of expressions -/

/-- Whether the text is a plain name, which may be that of a computed property. -/
def isPlainName : List Char → Bool
  | [] => false
  | c :: rest =>
    (c.isAlpha || c == '_' || c == '$') && rest.all fun d => d.isAlphanum || d == '_' || d == '$'

/-- The type of the computed property that an expression names: the component's own, or else one
that it inherits. -/
def computedType? (h : TypeHierarchy) (c : ComponentType) (body : String) : Option String :=
  if isPlainName body.toList then (c.computedType? body).or (h.computedType? c.name body)
  else Option.none

/-- The kind and type of a directive's expression. -/
def classifyExpression (h : TypeHierarchy) (c : ComponentType) (directive : Directive)
    (body : String) : ExpressionKind × String :=
  match directive with
  | .on _ => (.event, voidType)
  | .condition _ => (.getter, "boolean")
  | .model => (.setter, ((c.dataType? body).or (computedType? h c body)).getD objectType)
  | _ =>
    match computedType? h c body with
    | some type => (.computed, type)
    | Option.none => (.getter, objectType)

/-- The parameter that an event handler gets last. -/
def eventParameter : Parameter := ⟨"$event", objectType⟩

/-! ## The walk -/

/-- The state of a walk: the open scopes, the innermost first, and what has been taken out. -/
structure Walk where
  scopes : List Scope
  edits : List Edit
  expressions : List Expression
  collections : List Collection
  deriving Repr

namespace Walk

/-- Where a walk begins. -/
def start : Walk := ⟨[], [], [], []⟩

/-- Take out an expression and put `replacement` of its name at the span. -/
def take (w : Walk) (span : Span) (replacement : String → String) (kind : ExpressionKind)
    (parameters : List Parameter) (returnType body : String) : Walk :=
  let id := Placeholder.expressionId w.expressions.length
  { w with
    expressions := w.expressions ++ [⟨id, kind, parameters, returnType, body⟩]
    edits := w.edits ++ [⟨span, replacement id⟩] }

/-- Take out a loop's collection. -/
def takeCollection (w : Walk) (c : ComponentType) (span : Span) (clause : LoopClause)
    (parameters : List Parameter) : Walk :=
  let id := Placeholder.collectionId w.collections.length
  let body := String.ofList (cleanBody clause.collection.text.toList)
  { w with
    collections := w.collections ++
      [⟨id, parameters, (c.dataType? body).getD objectType, body⟩]
    edits := w.edits ++ [⟨span, bareClause clause.bindings id⟩] }

/-- Take out an interpolation. Its value becomes text, whatever it names. -/
def interpolation (h : TypeHierarchy) (c : ComponentType) (w : Walk) (span : Span)
    (body : String) : Walk :=
  let kind := if (computedType? h c body).isSome then .computed else .getter
  w.take span (fun id => "\x7b\x7b " ++ id ++ " \x7d\x7d") kind (visible (scopeVariables w.scopes))
    "String" body

/-- Take out what is in a slot, given the variables outside the element and those inside. -/
def slot (h : TypeHierarchy) (c : ComponentType) (outer inner : List Parameter) (w : Walk) :
    Slot → Walk
  | .loop span clause => w.takeCollection c span clause outer
  | .expression span directive body =>
    let (kind, type) := classifyExpression h c directive body
    let parameters := if kind = .event then inner ++ [eventParameter] else inner
    w.take span id kind parameters type body

/-- The variables of the loop among the slots. -/
def loopVariables : List Slot → List Parameter
  | [] => []
  | .loop _ clause :: _ => loopParameters clause.bindings
  | _ :: rest => loopVariables rest

/-- Go on with the next site. -/
def step (h : TypeHierarchy) (c : ComponentType) (w : Walk) : Site → Walk
  | .interpolation span body => w.interpolation h c span body
  | .close name => { w with scopes := closeScope name w.scopes }
  | .element name opensScope slots =>
    let own := loopVariables slots
    let outer := visible (scopeVariables w.scopes)
    let inner := visible (scopeVariables w.scopes ++ own)
    let after := slots.foldl (slot h c outer inner) w
    if opensScope then { after with scopes := ⟨name, own⟩ :: after.scopes } else after

/-- Walk over all sites. -/
def run (h : TypeHierarchy) (c : ComponentType) (sites : List Site) : Walk :=
  sites.foldl (step h c) start

/-- What the walk took out of the template. -/
def extraction (template : String) (w : Walk) : Extraction :=
  ⟨String.ofList (applyEdits template.toList w.edits), w.expressions, w.collections⟩

end Walk

end Extraction

/-- Take the expressions and loop collections out of a template. The component and the hierarchy
tell the types of data fields and computed properties. -/
def extract [Matching] (h : TypeHierarchy) (c : ComponentType) (template : String) :
    Except (List Diagnostic) Extraction :=
  let tokens := lex template
  match tokens.flatMap Extraction.problems with
  | [] => .ok ((Extraction.Walk.run h c (tokens.filterMap Extraction.site?)).extraction template)
  | found => .error found

end TemplateCompiler
