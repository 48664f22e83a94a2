import TemplateCompiler.Accessor.Recovery
import TemplateCompiler.Assembly.TagName
import TemplateCompiler.Placeholder
import TemplateCompiler.Text.Edit

/-!
# Assembly

Assembly builds the options of one component from its definition and a live instance. The
expressions are recovered from the sources of their accessors and put back into the template in
place of the placeholders; members that are declared are bound to the instance's methods; nested
components and directives are looked up in the registry. Either every step succeeds or the first
failure is the result.

## Main definitions

* `AssembleError` — why assembly fails
* `Assembly.resolveTemplate` — the template with its expressions
* `Assembly.memberOptions` — everything that needs no registry
* `assemble` — the options
* `Assembly.numberingWarning?` — the gap that leaves placeholders unresolved
-/
namespace TemplateCompiler

/-- Why assembly fails. -/
inductive AssembleError where
  /-- The source of an accessor is not that of an accessor. -/
  | malformedExpression (id text : String)
  /-- The instance lacks a method that a declaration names. -/
  | missingMember (component member : String)
  /-- A validator checks a prop that is not declared. -/
  | unknownProp (component prop : String)
  | lookup (error : RegistryError)
  /-- The data object cannot be copied; reading the copy stopped at a byte column. -/
  | dataCopy (column : Nat)
  deriving DecidableEq, Repr

/-- The wording of an error. -/
def AssembleError.message : AssembleError → String
  | malformedExpression id text =>
    "source of " ++ id ++ " does not have the accessor shape: " ++ text
  | missingMember component member =>
    component ++ " declares " ++ member ++ " but the instance does not implement it"
  | unknownProp component prop => component ++ " has a validator for undeclared prop " ++ prop
  | lookup error => error.message
  | dataCopy column =>
    "failed to copy data object: recursion limit exceeded at line 1 column " ++ toString column

namespace Assembly

/-! ## The template -/

/-- The names of the expressions that are resolved: those up to the first gap. -/
def expressionIds (t : CompiledTemplate) : List String :=
  Placeholder.sequentialIds Placeholder.expressionLead t.methods.keys

/-- The names of the collections that are bound: those up to the first gap. -/
def collectionIds (t : CompiledTemplate) : List String :=
  Placeholder.sequentialIds Placeholder.collectionLead t.methods.keys

/-- How many methods are named like expressions. -/
def declaredExpressions (t : CompiledTemplate) : Nat :=
  t.methods.keys.countP fun id => (Text.after? Placeholder.expressionLead.toList id.toList).isSome

/-- The expression that a placeholder stands for. -/
def recover (t : CompiledTemplate) (id : String) : Except AssembleError (String × String) :=
  let source := (t.methods.get? id).getD ""
  match Accessor.expression? source with
  | some e => .ok (id, Accessor.stripQualifiers e)
  | none => .error (.malformedExpression id source)

/-- The template with expressions in place of placeholders. Placeholders without an expression
stay, and nothing is looked for in what has been put in. -/
def resolveTemplate (text : String) (expressions : List (String × String)) : String :=
  let edits := (Placeholder.find Placeholder.expressionLead text.toList).filterMap fun found =>
    (lookupEntry found.token expressions).map fun e => (⟨found.span, e⟩ : Text.Edit)
  String.ofList (Text.applyEditsFrom 0 text.toList edits)

/-- The warning that numbering has a gap, so that later placeholders stay unresolved. -/
def numberingWarning? (d : ComponentDefinition) : Option String :=
  match d.template with
  | none => none
  | some t =>
    let known := (expressionIds t).length
    let later := declaredExpressions t - known
    if t.isEmpty ∨ later = 0 then none
    else
      some (d.typeName ++ ": expression numbering stops at " ++ Placeholder.expressionId known ++
        ", " ++ toString later ++ " later expressions stay unresolved")

/-! ## Members -/

/-- A method of the instance that a declaration names. -/
def member (d : ComponentDefinition) (i : Instance) (name : String) :
    Except AssembleError Callable :=
  match i.method name with
  | some callable => .ok callable
  | none => .error (.missingMember d.typeName name)

/-- Bind methods under their own names. -/
def bindMembers (d : ComponentDefinition) (i : Instance) (bound : OrderedMap Callable)
    (names : List String) : Except AssembleError (OrderedMap Callable) :=
  names.foldlM (fun map name => do pure (map.insert name (← member d i name))) bound

/-- The data object: the declared fields with their values, in which nothing counts as an empty
object, and an empty array for each collection. -/
def dataObject (d : ComponentDefinition) (i : Instance) (collections : List String) :
    OrderedMap Json.Value :=
  let value (name : String) : Json.Value :=
    match i.property name with
    | none | some .null => .object []
    | some value => value
  let fields := d.metadata.data.foldl
    (fun map (field : DataField) => map.insert field.name (value field.name)) OrderedMap.empty
  collections.foldl (fun map id => map.insert (Placeholder.arraySlot id) (.array [])) fields

/-- The data of the component. What cannot be copied fails now and not when an instance is made. -/
def componentData (d : ComponentDefinition) (i : Instance) (collections : List String) :
    Except AssembleError ComponentData :=
  let data := dataObject d i collections
  if d.metadata.useFactory then
    match copyData data with
    | .ok _ => .ok (.copied data)
    | .error column => .error (.dataCopy column)
  else .ok (.shared data)

/-- Bind one side of a computed property. -/
def bindComputed (d : ComponentDefinition) (i : Instance) (bound : OrderedMap ComputedOption)
    (c : ComputedDeclaration) : Except AssembleError (OrderedMap ComputedOption) := do
  let callable ← member d i c.methodName
  pure (bound.upsert c.name fun before =>
    let sides := before.getD ⟨none, none⟩
    match c.kind with
    | .getter => { sides with get := some callable }
    | .setter => { sides with set := some callable })

/-- Bind a watcher. -/
def bindWatch (d : ComponentDefinition) (i : Instance) (bound : OrderedMap WatchOption)
    (w : WatchDeclaration) : Except AssembleError (OrderedMap WatchOption) := do
  pure (bound.insert w.property ⟨w.deep, ← member d i w.method⟩)

/-- The declared props, with the instance's values as defaults. -/
def declaredProps (d : ComponentDefinition) (i : Instance) : OrderedMap PropOption :=
  d.metadata.props.foldl
    (fun map (p : PropDeclaration) =>
      map.insert p.name ⟨p.required, i.property p.name, p.typeName.map PropType.ofTypeName, none⟩)
    .empty

/-- Bind a validator to its prop. -/
def bindValidator (d : ComponentDefinition) (i : Instance) (props : OrderedMap PropOption)
    (v : ValidatorDeclaration) : Except AssembleError (OrderedMap PropOption) := do
  let callable ← member d i v.method
  match props.get? v.prop with
  | some prop => pure (props.insert v.prop { prop with validator := some callable })
  | none => throw (.unknownProp d.typeName v.prop)

/-- The resolved template and the names of its collections. -/
def templateOptions (d : ComponentDefinition) :
    Except AssembleError (Option String × List String) :=
  match d.template with
  | none => .ok (none, [])
  | some t =>
    if t.isEmpty then .ok (none, [])
    else do
      let expressions ← (expressionIds t).mapM (recover t)
      pure (some (resolveTemplate t.text expressions), collectionIds t)

/-- Everything that needs no registry. -/
def memberOptions (d : ComponentDefinition) (i : Instance) :
    Except AssembleError ComponentOptions := do
  let (template, collections) ← templateOptions d
  let slots ← bindMembers d i .empty collections
  let data ← componentData d i collections
  let methods ← bindMembers d i slots (d.metadata.methods.map MethodDeclaration.name)
  let computed ← d.metadata.computed.foldlM (bindComputed d i) .empty
  let watch ← d.metadata.watch.foldlM (bindWatch d i) .empty
  let props ← d.metadata.validators.foldlM (bindValidator d i) (declaredProps d i)
  let hooks ← bindMembers d i .empty d.metadata.hooks
  pure
    { el := none, template, data, computed, methods, watch, props, components := .empty,
      directives := .empty, hooks, collections }

/-! ## Nested components and directives -/

/-- Look nested components up, the first failure ending it. -/
def nestedComponents (r : Registry) (bound : OrderedMap ComponentDefinition) :
    List String → Except RegistryError (OrderedMap ComponentDefinition) × Registry
  | [] => (.ok bound, r)
  | name :: rest =>
    match r.get name with
    | (.ok nested, r) => nestedComponents r (bound.insert (tagName name) nested) rest
    | (.error e, r) => (.error e, r)

/-- Look directives up. -/
def directives (r : Registry) (names : List String) :
    Except RegistryError (OrderedMap DirectiveDefinition) :=
  names.foldlM (fun map name => do pure (map.insert name (← r.getDirective name))) .empty

end Assembly

/-- The options of one component, and the registry after the lookups that they needed. -/
def assemble (d : ComponentDefinition) (i : Instance) (r : Registry) :
    Except AssembleError ComponentOptions × Registry :=
  match Assembly.memberOptions d i with
  | .error e => (.error e, r)
  | .ok options =>
    match Assembly.nestedComponents r .empty d.dependencies with
    | (.error e, r) => (.error (.lookup e), r)
    | (.ok components, r) =>
      match Assembly.directives r d.metadata.directives with
      | .error e => (.error (.lookup e), r)
      | .ok directives => (.ok { options with components, directives }, r)

end TemplateCompiler
