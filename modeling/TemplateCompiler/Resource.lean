import TemplateCompiler.Descriptor
import TemplateCompiler.Settings
import TemplateCompiler.Text.Basic

/-!
# Resources

The resource of a component is a class in the target language. It declares one typed accessor per
expression and hands out the template's text, the component's name and the kinds of the
expressions.

## Main definitions

* `Descriptor.resource` — the source of the class
-/
namespace TemplateCompiler.Descriptor

/-- The comment that names the template. -/
def writeComment (s : SourceText) (d : Descriptor) (settings : Settings) : SourceText :=
  match settings.emitComments, d.templatePath with
  | true, some path => s.line ("// " ++ path)
  | _, _ => s

/-- Fields for the computed properties, so that accessors can read them. -/
def writeComputed (s : SourceText) (d : Descriptor) : SourceText :=
  if d.inheritedComputed.isEmpty then s
  else
    (s.append (d.inheritedComputed.entries.map fun (property, type) =>
      "public " ++ type ++ " " ++ property ++ ";")).line ""

/-- Fields for the styles and the method that hands them out. -/
def writeStyles (s : SourceText) (d : Descriptor) : SourceText :=
  let fields := s.append (d.styles.entries.map fun (name, type) =>
    "private " ++ type ++ " " ++ name ++ " = " ++ type ++ "Bundle.INSTANCE.style();")
  let started := (fields.openBlock "public Map<String, Object> getTemplateStyles()").line
    "Map<String, Object> result = new HashMap<>();"
  let filled := started.append (d.styles.keys.map fun name =>
    "result.put(\"" ++ name ++ "\", " ++ name ++ ");")
  ((filled.line "return result;").closeBlock).line ""

/-- The method that hands out the template's text. -/
def writeText (s : SourceText) (d : Descriptor) (settings : Settings) : SourceText :=
  (((s.openBlock "public String getText()").returnText d.template
    settings.chunkBudget).closeBlock).line ""

/-- The method that hands out the component's name. -/
def writeName (s : SourceText) (d : Descriptor) : SourceText :=
  ((s.openBlock "public String getName()").line
    ("return " ++ Literal.quote d.typeName.toList ++ ";")).closeBlock

/-- The accessors, each after an empty line. -/
def writeAccessors (s : SourceText) (d : Descriptor) : SourceText :=
  (d.accessors.foldl (fun s a =>
    (s.line "").append ((Text.lines a.declaration.toList).map String.ofList)) s).line ""

/-- The method that hands out the kinds of the expressions. -/
def writeExpressions (s : SourceText) (d : Descriptor) : SourceText :=
  let started := (s.openBlock "public List<TemplateExpression> getTemplateExpressions()").line
    "List<TemplateExpression> result = new ArrayList<>();"
  let filled := started.append (d.expressions.map fun e =>
    "result.add(new TemplateExpression(TemplateExpressionKind." ++ e.kind.name ++ ", \"" ++ e.id ++
      "\"));")
  (filled.line "return result;").closeBlock

/-- The source of the component's resource. -/
def resource (d : Descriptor) (settings : Settings) : String :=
  let header := "public class " ++ d.typeName ++ "Template extends " ++ d.typeName
  let opened := (writeComment .empty d settings).openBlock header
  let members := writeName (writeText (writeStyles (writeComputed opened d) d) d settings) d
  ((writeExpressions (writeAccessors members d) d).closeBlock).render

end TemplateCompiler.Descriptor
