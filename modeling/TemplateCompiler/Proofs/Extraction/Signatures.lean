import TemplateCompiler.Proofs.Extraction.Records
import TemplateCompiler.Proofs.Extraction.Scoping

/-!
# Signatures of accessors

The parameters of an accessor come from many places: from the loops of all elements that are open,
whether or not they are ever closed, from the loop of the element itself, which may name a variable
twice, and from the event that a listener gets. Together they make a list of parameters as a
function may have it. No name is in it twice, because a variable that is declared again gives up
its former place, and the event cannot be hidden by a variable, because no loop clause can name a
variable like it.

## Main definitions

* `Extraction.WellSigned` — what can be said of the parameters of an expression

## Main statements

* `Extraction.nodup_names_visible` — visible variables have distinct names
* `Extraction.wellSigned_of_extract` — the parameters of what is extracted
-/
namespace TemplateCompiler.Extraction

open Text Markup

/-- The names of parameters. -/
def names (parameters : List Parameter) : List String := parameters.map Parameter.name

/-- **Visible variables have distinct names**, whatever has been declared. -/
theorem nodup_names_visible (declared : List Parameter) : (names (visible declared)).Nodup := by
  rw [visible_eq_unshadowed, names]
  induction declared with
  | nil => exact List.nodup_nil
  | cons v inner ih =>
    rw [unshadowed]
    split
    · exact ih
    · next shown =>
      refine List.nodup_cons.mpr ⟨?_, ih⟩
      intro again
      -- a variable further in has been declared, so that it would hide this one
      obtain ⟨w, visible, same⟩ := List.mem_map.mp again
      rw [← visible_eq_unshadowed] at visible
      exact shown (List.any_eq_true.mpr ⟨w, visible_subset inner visible, beq_iff_eq.mpr same⟩)

/-- No variable of a loop is called like the event. -/
theorem Bound.event_not_mem {declared : List Parameter} (bound : Bound declared) :
    eventParameter.name ∉ names declared := by
  intro mem
  obtain ⟨p, declared, same⟩ := List.mem_map.mp mem
  refine (bound p declared).dollar ?_
  rw [same]
  decide

/-- The parameters of an expression as a function may have them, with the event for those that
handle one. -/
structure WellSigned (kind : ExpressionKind) (parameters : List String) : Prop where
  distinct : parameters.Nodup
  event : "$event" ∈ parameters ↔ kind = .event
  last : kind = .event → ∃ front, parameters = front ++ ["$event"] ∧ "$event" ∉ front

theorem wellSigned_signature (kind : ExpressionKind) {declared : List Parameter}
    (bound : Bound declared) : WellSigned kind (names (signature kind declared)) := by
  have distinct := nodup_names_visible declared
  have absent : "$event" ∉ names (visible declared) := bound.visible.event_not_mem
  rw [signature]
  split
  · next handles =>
    have behind : names (visible declared ++ [eventParameter]) =
        names (visible declared) ++ ["$event"] := List.map_append
    rw [behind]
    exact
      { distinct := List.nodup_append.mpr ⟨distinct, List.nodup_singleton _, by grind⟩
        event := by simp [handles]
        last := fun _ => ⟨_, rfl, absent⟩ }
  · next handlesNone =>
    exact
      { distinct
        event := by simp [absent, handlesNone]
        last := fun handles => absurd handles handlesNone }

variable {h : TypeHierarchy} {c : ComponentType} {template : String} {x : Extraction}

/-- **The parameters of what is extracted are signatures.** The names of the parameters of an
expression are distinct, and the event is the last one of them if the expression handles an event
and is none of them otherwise. The names of the parameters of a collection are distinct as well. -/
theorem wellSigned_of_extract [Matching] (ok : extract h c template = .ok x) :
    (∀ e ∈ x.expressions, WellSigned e.kind (names e.parameters)) ∧
      ∀ k ∈ x.collections, (names k.parameters).Nodup := by
  obtain ⟨expressions, collections⟩ := named_of_extract ok
  refine ⟨fun e mem => ?_, fun k mem => ?_⟩
  · obtain ⟨declared, bound, parameters⟩ := expressions e mem
    rw [parameters]
    exact wellSigned_signature e.kind bound
  · obtain ⟨declared, -, parameters⟩ := collections k mem
    rw [parameters]
    exact nodup_names_visible declared

/-- A loop that names a variable twice and is never closed, a closing tag that closes nothing, and
another loop over one of its variables. -/
theorem unclosed_loops_well_signed :
    ∃ x, extract default default
        "<p v-for=\"(a, b, a) in c\"></i><q v-for=\"b in a\" @d=\"e(b)\">{{ a }}" = .ok x ∧
      ((∀ e ∈ x.expressions, WellSigned e.kind (names e.parameters)) ∧
        ∀ k ∈ x.collections, (names k.parameters).Nodup) ∧
      x.expressions.map (fun e => names e.parameters) = [["a", "b", "$event"], ["a", "b"]] ∧
      x.collections.map (fun k => names k.parameters) = [[], ["b", "a"]] := by
  have ok : extract default default
      "<p v-for=\"(a, b, a) in c\"></i><q v-for=\"b in a\" @d=\"e(b)\">{{ a }}" = .ok
        ⟨"<p v-for=\"(a, b, a) in col$0Array\"></i>" ++
            "<q v-for=\"b in col$1Array\" @d=\"exp$0\">{{ exp$1 }}",
          [⟨"exp$0", .event, [⟨"a", "int"⟩, ⟨"b", objectType⟩, eventParameter], voidType, "e(b)"⟩,
            ⟨"exp$1", .getter, [⟨"a", "int"⟩, ⟨"b", objectType⟩], "String", "a"⟩],
          [⟨"col$0", [], objectType, "c"⟩,
            ⟨"col$1", [⟨"b", "int"⟩, ⟨"a", "int"⟩], objectType, "a"⟩]⟩ := by
    cbv
  exact ⟨_, ok, wellSigned_of_extract ok, rfl, rfl⟩

end TemplateCompiler.Extraction
