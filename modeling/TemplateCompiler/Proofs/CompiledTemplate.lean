import TemplateCompiler.Assembly.Assemble
import TemplateCompiler.CompiledTemplate
import TemplateCompiler.Proofs.Json.Layout
import TemplateCompiler.Proofs.OrderedMap

/-!
# Compiled templates are read back

The view of a template is read back from its written form as it was: any text in it, whatever has
to be escaped, and its methods, expressions and styles in their order. So it makes no difference for
components whether their template has been stored in between.

## Main statements

* `CompiledTemplate.reads_textMap`, `CompiledTemplate.reads_entries` — the parts of a view
* `CompiledTemplate.reads_view` — a view
* `CompiledTemplate.ofJson_toJson` — the whole text
* `CompiledTemplate.survives_storage` — components of a template that has been stored
-/
namespace TemplateCompiler.CompiledTemplate

open Json

variable {fuel level : Nat}

/-! ## Blanks -/

theorem skipsBlanks_readText (fuel : Nat) : SkipsBlanks (readText fuel) := skipsBlanks_peek _

theorem skipsBlanks_readTextMap (fuel : Nat) : SkipsBlanks (readTextMap fuel) := skipsBlanks_peek _

theorem skipsBlanks_readKind (fuel : Nat) : SkipsBlanks (readKind fuel) := skipsBlanks_peek _

theorem skipsBlanks_readEntries (fuel : Nat) : SkipsBlanks (readEntries fuel) := skipsBlanks_peek _

/-! ## Texts -/

theorem reads_text (text : String) (enough : ((Value.string text).indented level).length < fuel) :
    Reads (readText fuel) ((Value.string text).indented level) text := by
  rw [Value.indented] at enough ⊢
  exact .dispatch rfl (reads_string text enough)

/-- Texts are read in their order and put behind those before them. -/
theorem readsEach_texts (entries : List (String × String)) (map : OrderedMap String)
    (short : ∀ member ∈ entries.map fun entry => (entry.1, Value.string entry.2),
      (member.2.indented level).length < fuel) :
    ReadsEach (fun key map => do
        readColon
        pure (map.insert key (← readText fuel))) level map
      (entries.map fun entry => (entry.1, .string entry.2))
      (entries.foldl (fun map entry => map.insert entry.1 entry.2) map) := by
  induction entries generalizing map with
  | nil => exact .nil map
  | cons entry rest ih =>
    obtain ⟨first, others⟩ := List.forall_mem_cons.mp short
    have text := (reads_text entry.2 first).bind_pure (map.insert entry.1)
    exact .cons (((skipsBlanks_readText fuel).bind _).reads_colon text) (ih _ others)

/-- **A map of texts is read as it was.** -/
theorem reads_textMap (map : OrderedMap String)
    (enough : ((ofTextMap map).indented level).length < fuel) :
    Reads (readTextMap fuel) ((ofTextMap map).indented level) map := by
  have inside := reads_insideObject enough (readsEach_texts map.entries .empty)
  have whole : map.entries.foldl (fun map entry => map.insert entry.1 entry.2) .empty = map :=
    map.ofList_entries
  rw [whole] at inside
  rw [ofTextMap, indented_object]
  exact .dispatch rfl ((Reads.advance '{').bind inside)

/-! ## Expressions -/

theorem reads_kind (kind : ExpressionKind)
    (enough : ((Value.string kind.name).indented level).length < fuel) :
    Reads (readKind fuel) ((Value.string kind.name).indented level) kind := by
  rw [Value.indented] at enough ⊢
  have named : Reads (kindOfName kind.name) [] kind := by
    rw [kindOfName, ExpressionKind.ofName?_name]
    exact .pure kind
  exact .dispatch rfl ((reads_string kind.name enough).bind_nil named)

/-- A value that has not been given before is read from its colon on. -/
theorem reads_once {α : Type} {reader : Reader α} {text : List Char} {value : α}
    (skips : SkipsBlanks reader) (reads : Reads reader text value) :
    Reads (readOnce none reader) (':' :: ' ' :: text) (some value) :=
  (skips.reads_colon reads).bind_pure some

/-- The members of an expression are read one after the other. -/
theorem readsEach_entry (entry : ExpressionEntry)
    (short : ∀ member ∈ [("kind", Value.string entry.kind.name), ("id", .string entry.id)],
      (member.2.indented level).length < fuel) :
    ReadsEach (readEntryMember fuel) level ⟨none, none⟩
      [("kind", .string entry.kind.name), ("id", .string entry.id)]
      ⟨some entry.kind, some entry.id⟩ := by
  have kind := reads_once (skipsBlanks_readKind fuel)
    (reads_kind entry.kind (short _ (.head _)))
  have id := reads_once (skipsBlanks_readText fuel)
    (reads_text entry.id (short _ (.tail _ (.head _))))
  exact .cons (kind.bind_pure (PartialEntry.mk · none))
    (.cons (id.bind_pure (PartialEntry.mk (some entry.kind))) (.nil _))

/-- **An expression is read as it was.** -/
theorem reads_entry (entry : ExpressionEntry)
    (enough : ((entryValue entry).indented level).length < fuel) :
    Reads (readEntry fuel) ((entryValue entry).indented level) entry := by
  have inside := reads_insideObject enough (readsEach_entry entry)
  rw [entryValue, indented_object]
  exact .dispatch rfl ((Reads.advance '{').bind (inside.bind_nil fun _ => rfl))

theorem forall₂_entries (entries : List ExpressionEntry)
    (short : ∀ item ∈ entries.map entryValue, (item.indented level).length < fuel) :
    List.Forall₂ (fun item entry => Reads (readEntry fuel) (item.indented level) entry)
      (entries.map entryValue) entries := by
  rw [List.forall₂_map_left_iff, List.forall₂_same]
  exact fun entry mem => reads_entry entry (short _ (List.mem_map_of_mem mem))

/-- **The expressions are read in their order.** -/
theorem reads_entries (entries : List ExpressionEntry)
    (enough : ((Value.array (entries.map entryValue)).indented level).length < fuel) :
    Reads (readEntries fuel) ((Value.array (entries.map entryValue)).indented level) entries := by
  have inside := reads_insideArray enough (forall₂_entries entries)
  rw [indented_array]
  exact .dispatch rfl ((Reads.advance '[').bind inside)

/-! ## Views -/

/-- The members of the object that a view is written as. -/
def members (t : CompiledTemplate) : List (String × Value) :=
  [("name", .string t.name), ("text", .string t.text), ("methods", ofTextMap t.methods),
   ("expressions", .array (t.expressions.map entryValue)), ("styles", ofTextMap t.styles)]

theorem toValue_eq (t : CompiledTemplate) : t.toValue = .object t.members := rfl

/-- The members of a view are read one after the other, none of them twice. -/
theorem readsEach_members (t : CompiledTemplate)
    (short : ∀ member ∈ t.members, (member.2.indented level).length < fuel) :
    ReadsEach (readViewMember fuel) level ⟨none, none, none, none, none⟩ t.members
      ⟨some t.name, some t.text, some t.methods, some t.expressions, some t.styles⟩ := by
  have fits (key : String) {value : Value} (mem : (key, value) ∈ t.members) :
      (value.indented level).length < fuel := short _ mem
  have name := reads_once (skipsBlanks_readText fuel)
    (reads_text t.name (fits "name" (by simp [members])))
  have text := reads_once (skipsBlanks_readText fuel)
    (reads_text t.text (fits "text" (by simp [members])))
  have methods := reads_once (skipsBlanks_readTextMap fuel)
    (reads_textMap t.methods (fits "methods" (by simp [members])))
  have expressions := reads_once (skipsBlanks_readEntries fuel)
    (reads_entries t.expressions (fits "expressions" (by simp [members])))
  have styles := reads_once (skipsBlanks_readTextMap fuel)
    (reads_textMap t.styles (fits "styles" (by simp [members])))
  refine .cons (name.bind_pure (Partial.mk · none none none none)) ?_
  refine .cons (text.bind_pure (Partial.mk (some t.name) · none none none)) ?_
  refine .cons (methods.bind_pure (Partial.mk (some t.name) (some t.text) · none none)) ?_
  refine .cons (expressions.bind_pure
    (Partial.mk (some t.name) (some t.text) (some t.methods) · none)) ?_
  exact .cons (styles.bind_pure
    (Partial.mk (some t.name) (some t.text) (some t.methods) (some t.expressions))) (.nil _)

/-- **A view is read as it was.** -/
theorem reads_view (t : CompiledTemplate) (enough : (t.toValue.indented level).length < fuel) :
    Reads (readView fuel) (t.toValue.indented level) t := by
  have inside := reads_insideObject enough t.readsEach_members
  rw [toValue_eq, indented_object]
  exact .dispatch rfl ((Reads.advance '{').bind (inside.bind_nil fun _ => rfl))

/-- **The written form is read as it was.** -/
theorem ofJson_toJson (t : CompiledTemplate) : ofJson t.toJson = .ok t := by
  have reads : Reads (readView (fuelFor (t.toValue.indented 0))) (t.toValue.indented 0) t :=
    reads_view t (Nat.lt_succ_self _)
  have read := reads []
  rw [List.append_nil] at read
  rw [ofJson, toJson, Value.toIndented, String.toList_ofList, parseWith, read]
  rfl

/-- Tabs are escaped, and a map without entries is written in one piece. -/
example :
    let t : CompiledTemplate := ⟨"A", "\t", .empty, [⟨.event, "exp$0"⟩], .empty⟩
    let json :=
      "\x7b\n  \"name\": \"A\",\n  \"text\": \"\\t\",\n  \"methods\": \x7b\x7d,\n" ++
        "  \"expressions\": [\n    \x7b\n      \"kind\": \"EVENT\",\n" ++
        "      \"id\": \"exp$0\"\n    \x7d\n  ],\n  \"styles\": \x7b\x7d\n\x7d"
    t.toJson = json ∧ (ofJson json).toOption = some t := by
  decide +kernel

/-- **A view survives being stored.** It is read from its written form as it was, its methods,
expressions and styles in their order, whatever characters its texts have. So a component has the
same options and leaves the same registry, or fails for the same reason, whether its template has
been stored or not. -/
theorem survives_storage (t : CompiledTemplate) :
    ofJson t.toJson = .ok t ∧
      ∀ type i r, (ofJson t.toJson).map (fun view => assemble ⟨type, some view⟩ i r) =
        .ok (assemble ⟨type, some t⟩ i r) := by
  rw [ofJson_toJson]
  exact ⟨rfl, fun _ _ _ => rfl⟩

end TemplateCompiler.CompiledTemplate
