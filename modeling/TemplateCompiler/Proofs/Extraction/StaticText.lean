import TemplateCompiler.Assembly.Assemble
import TemplateCompiler.Proofs.Extraction.Shape
import TemplateCompiler.Proofs.Markup.ClauseRewriting

/-!
# Static text and placeholders

Assembly looks for placeholders in the whole text of an extracted template. Those that extraction
has put into the holes are found, each once and in order. What the author wrote between the holes
is searched as well, and nothing keeps it from holding the reserved leads: then a token is found
that extraction did not put there, and assembly puts an expression in its place.

The static text of a template is the template with a blank in every hole. Whether it has tokens of
its own is all that counts.

## Main definitions

* `Extraction.staticText` — the template without what has been taken out of it
* `Extraction.Content.assembled` — what assembly puts into a hole

## Main statements

* `Extraction.tokens_fill` — the tokens of a text with holes are those of its parts
* `Extraction.assembly_keeps_static_text_iff` — tokens and records agree exactly if the static
  text has no tokens, and then assembly changes nothing but the holes
-/
namespace TemplateCompiler.Extraction

open Text Markup
open Placeholder (Border IsLead findFrom)

/-! ## Tokens -/

/-- The tokens of a text that have the given lead. -/
def tokens (lead : List Char) (text : List Char) : List String :=
  (findFrom lead none 0 0 text).map Placeholder.Occurrence.token

/-- Where a text stands does not matter for its tokens. -/
theorem map_token_findFrom (lead : List Char) (before : Option Char) (offset offset' skip : Nat)
    (cs : List Char) :
    (findFrom lead before offset skip cs).map Placeholder.Occurrence.token =
      (findFrom lead before offset' skip cs).map Placeholder.Occurrence.token := by
  induction cs generalizing before offset offset' skip with
  | nil => cases skip <;> rfl
  | cons c cs ih =>
    cases skip with
    | succ skip => exact ih _ _ _ _
    | zero =>
      simp only [findFrom]
      split
      · exact ih _ _ _ _
      · split
        · exact ih _ _ _ _
        · rw [List.map_cons, List.map_cons]
          exact congrArg _ (ih _ _ _ _)

/-- The tokens on either side of a border are those of the whole text. -/
theorem tokens_border {lead left : List Char} (hlead : IsLead lead) (h : Border left)
    (cs rest : List Char) :
    tokens lead (cs ++ (left ++ rest)) = tokens lead cs ++ tokens lead rest := by
  rw [tokens]
  rw [Placeholder.findFrom_border hlead h rest (Nat.zero_le _), List.map_append]
  exact congrArg _ (map_token_findFrom _ _ _ _ _ _)

/-- **The tokens of a text with holes** are those of the text between them and of what is in
them. -/
theorem tokens_fill {lead : List Char} (hlead : IsLead lead) {seams : List Seam}
    (bordered : ∀ seam ∈ seams, seam.Bordered) (contents : Hole → String) (tail : List Char) :
    tokens lead (fill contents tail seams) =
      seams.flatMap (fun seam =>
        tokens lead seam.kept ++ tokens lead (contents seam.hole).toList) ++ tokens lead tail := by
  induction seams with
  | nil => rfl
  | cons seam rest ih =>
    obtain ⟨left, right⟩ := bordered seam List.mem_cons_self
    rw [fill, tokens_border hlead left, tokens_border hlead right,
      ih fun other mem => bordered other (List.mem_cons_of_mem seam mem), List.flatMap_cons]
    simp only [List.append_assoc]

/-! ## Tokens in holes -/

/-- The lead of the name in a hole. -/
def Content.lead : Content → String
  | .expression _ _ => Placeholder.expressionLead
  | .loop _ _ => Placeholder.collectionLead

/-- The variables of a loop have names that can be read as nothing else. -/
def Content.Readable : Content → Prop
  | .expression _ _ => True
  | .loop _ clause => ∀ v ∈ clause.bindings, IsBinding v.name

/-- What the engine gets for a loop: text without a dollar sign, a blank, and the data slot. -/
theorem exists_names {bindings : List LoopVariable} (h : ∀ v ∈ bindings, IsBinding v.name)
    (id : String) :
    ∃ names, '$' ∉ names ∧
      (bareClause bindings id).toList = names ++ ([' '] ++ (id.toList ++ "Array".toList)) := by
  have dollar : '$' ∉ (spellNames (bindings.map LoopVariable.name)).toList := by
    intro mem
    rcases mem_spellNames mem with mark | ⟨name, inNames, inName⟩
    · exact absurd mark (by decide)
    · obtain ⟨v, hv, rfl⟩ := List.mem_map.mp inNames
      exact (h v hv).dollar inName
  rw [bareClause_eq]
  exact ⟨(spellNames (bindings.map LoopVariable.name)).toList ++ [' ', 'i', 'n'], by simp [dollar],
    by simp [Placeholder.arraySlot]⟩

/-- The name of an expression is found as a whole. -/
theorem findFrom_expressionId (index offset : Nat) :
    findFrom Placeholder.expressionLead.toList none offset 0
        (Placeholder.expressionId index).toList =
      [⟨Placeholder.expressionId index,
        ⟨offset, offset + byteLength (Placeholder.expressionId index).toList⟩⟩] := by
  have found := Placeholder.findFrom_number Placeholder.isLead_expressionLead index [] (by simp)
    (by simp) offset
  rw [List.append_nil] at found
  rw [Placeholder.expressionId, String.toList_append, found]
  simp [← String.toList_inj]

/-- No expression is found in what the engine gets for a loop. -/
theorem findFrom_clause {bindings : List LoopVariable} (h : ∀ v ∈ bindings, IsBinding v.name)
    (index offset : Nat) :
    findFrom Placeholder.expressionLead.toList none offset 0
      (bareClause bindings (Placeholder.collectionId index)).toList = [] := by
  obtain ⟨names, dollar, clause⟩ := exists_names h (Placeholder.collectionId index)
  have blank : Border [' '] := Placeholder.border_of_any (by decide) (by decide)
  rw [clause, Placeholder.findFrom_border Placeholder.isLead_expressionLead blank _ (Nat.zero_le _),
    Placeholder.findFrom_eq_nil Placeholder.isLead_expressionLead dollar, List.nil_append,
    Placeholder.collectionId, String.toList_append, List.append_assoc]
  exact Placeholder.findFrom_other Placeholder.isLead_expressionLead
    (by simp [Placeholder.expressionLead, Placeholder.collectionLead]) index (by decide) none _

/-- **What is put into a hole has its own name as the only token.** -/
theorem tokens_placeholder {lead : String}
    (hlead : lead = Placeholder.expressionLead ∨ lead = Placeholder.collectionLead)
    {content : Content} (readable : content.Readable) :
    tokens lead.toList content.placeholder.toList =
      if content.lead = lead then [content.id] else [] := by
  cases content with
  | expression index body =>
    change tokens lead.toList (Placeholder.expressionId index).toList =
      if Placeholder.expressionLead = lead then [Placeholder.expressionId index] else []
    rcases hlead with rfl | rfl
    · rw [tokens, findFrom_expressionId, if_pos rfl]
      rfl
    · -- the name of an expression is none of a collection
      have first : ∀ l ∈ Placeholder.collectionLead.toList.head?,
          l ∉ Placeholder.expressionLead.toList := by
        simp [Placeholder.expressionLead, Placeholder.collectionLead]
      have nothing := Placeholder.findFrom_other Placeholder.isLead_collectionLead first index
        List.not_mem_nil none 0
      rw [List.append_nil] at nothing
      rw [if_neg (by decide), tokens, Placeholder.expressionId, String.toList_append, nothing,
        List.map_nil]
  | loop index clause =>
    change tokens lead.toList (bareClause clause.bindings (Placeholder.collectionId index)).toList =
      if Placeholder.collectionLead = lead then [Placeholder.collectionId index] else []
    rcases hlead with rfl | rfl
    · rw [if_neg (by decide), tokens, findFrom_clause readable, List.map_nil]
    · obtain ⟨names, dollar, text⟩ := exists_names readable (Placeholder.collectionId index)
      have blank : Border [' '] := Placeholder.border_of_any (by decide) (by decide)
      have inNames := Placeholder.findFrom_eq_nil Placeholder.isLead_collectionLead dollar none 0 0
      have slot := Placeholder.findFrom_number Placeholder.isLead_collectionLead index
        "Array".toList (by decide) (by simp) 0
      rw [if_pos rfl, text, tokens_border Placeholder.isLead_collectionLead blank, tokens,
        inNames, tokens, Placeholder.collectionId, String.toList_append, slot]
      simp [← String.toList_inj]

/-! ## Holes by family -/

/-- Loops in the holes of a template can be read. -/
theorem readable_of_mem_holes [Matching] {template : String} {hole : Hole} (mem : hole ∈ holes template) :
    hole.content.Readable := by
  rcases List.mem_append.mp mem with loop | expression
  · obtain ⟨index, clause, source, content⟩ := mem_number loop
    obtain ⟨located, -, inToken⟩ := List.mem_flatMap.mp source
    obtain ⟨text, read⟩ := exists_read_of_mem_loopPlaces inToken
    rw [content]
    intro v hv
    exact isBinding_of_read read hv
  · obtain ⟨index, body, -, content⟩ := mem_number expression
    rw [content]
    trivial

/-- Loops in the seams of a template can be read. -/
theorem readable_of_mem_seams [Matching] {template : String} {seams : List Seam}
    (all : seams.map Seam.hole = sortedHoles template) {seam : Seam} (mem : seam ∈ seams) :
    seam.hole.content.Readable := by
  refine readable_of_mem_holes ((sortedHoles_perm template).subset ?_)
  rw [← all]
  exact List.mem_map_of_mem mem

/-- Whether the name in a hole has the lead. -/
def HasLead (lead : String) (hole : Hole) : Bool := hole.content.lead == lead

/-- The holes of one family, in the order of the template. -/
theorem filter_sortedHoles [Matching] {template : String} {p : Hole → Bool} {family : List Hole}
    (filtered : (holes template).filter p = family)
    (order : family.Pairwise fun a b => a.place.span.stop ≤ b.place.span.start) :
    (sortedHoles template).filter p = family := by
  have perm : family.Perm ((sortedHoles template).filter p) := by
    rw [← filtered]
    exact ((sortedHoles_perm template).filter p).symm
  have isHole {hole : Hole} (mem : hole ∈ family) : hole ∈ holes template := by
    rw [← filtered] at mem
    exact List.mem_of_mem_filter mem
  refine (eq_of_sorted (fun hole : Hole => hole.place.span.start) perm ?_ ?_).symm
  · refine order.imp_of_mem ?_
    intro a b ha hb before
    have := (framed_of_mem_holes (isHole ha)).start_le_stop
    omega
  · refine List.Pairwise.filter p ((ordered_sortedHoles template).imp_of_mem ?_)
    intro a b ha hb before
    have := (framed_of_mem_holes ((sortedHoles_perm template).subset ha)).start_lt
    have := b.place.le_reach
    omega

theorem filter_number {α : Type} (make : Nat → α → Content) {own : String}
    (named : ∀ index value, (make index value).lead = own) (lead : String)
    (sources : List (Place × α)) :
    (number make sources).filter (HasLead lead) =
      if own = lead then number make sources else [] := by
  have leads (hole : Hole) (mem : hole ∈ number make sources) : hole.content.lead = own := by
    obtain ⟨index, value, -, content⟩ := mem_number mem
    rw [content, named]
  split
  · rename_i same
    refine List.filter_eq_self.mpr fun hole mem => ?_
    simp [HasLead, leads hole mem, same]
  · rename_i ne
    refine List.filter_eq_nil_iff.mpr fun hole mem => ?_
    simp [HasLead, leads hole mem, ne]

theorem filter_expressions [Matching] (template : String) :
    (sortedHoles template).filter (HasLead Placeholder.expressionLead) =
      expressionHoles template := by
  refine filter_sortedHoles ?_ (ordered_expressionHoles template)
  rw [holes, List.filter_append, loopHoles, expressionHoles, filter_number .loop fun _ _ => rfl,
    filter_number .expression fun _ _ => rfl, if_neg (by decide), if_pos (by decide),
    List.nil_append]

theorem filter_loops [Matching] (template : String) :
    (sortedHoles template).filter (HasLead Placeholder.collectionLead) = loopHoles template := by
  refine filter_sortedHoles ?_ (ordered_loopHoles template)
  rw [holes, List.filter_append, loopHoles, expressionHoles, filter_number .loop fun _ _ => rfl,
    filter_number .expression fun _ _ => rfl, if_pos (by decide), if_neg (by decide),
    List.append_nil]

/-! ## Static text -/

/-- The template with a blank in every hole. -/
def staticText [Matching] (template : String) : List Char :=
  applyEdits template.toList ((holes template).map fun hole => hole.put " ")

/-- The tokens of the static text are those of what the seams keep. -/
theorem tokens_staticText [Matching] {lead : List Char} (hlead : IsLead lead) {template : String}
    {seams : List Seam} {tail : List Char} (all : seams.map Seam.hole = sortedHoles template)
    (sewn : Sewn 0 template.toList seams tail) :
    tokens lead (staticText template) =
      seams.flatMap (fun seam => tokens lead seam.kept) ++ tokens lead tail := by
  have blank : tokens lead " ".toList = [] := by
    rw [tokens, Placeholder.findFrom_eq_nil hlead (by decide), List.map_nil]
  rw [staticText, applyEdits_eq_fill all sewn (List.Perm.refl _), tokens_fill hlead sewn.bordered]
  simp only [blank, List.append_nil]

/-- A template without the lead has static text without tokens. -/
theorem tokens_staticText_eq_nil [Matching] {lead : List Char} (hlead : IsLead lead) {template : String}
    (absent : ¬ lead <:+: template.toList) : tokens lead (staticText template) = [] := by
  obtain ⟨seams, tail, all, sewn⟩ := exists_sewn template
  have free {part : List Char} (inside : part <:+: template.toList) : tokens lead part = [] := by
    have missing : ¬ lead <:+: part := fun found => absent (found.trans inside)
    rw [tokens, Placeholder.findFrom_eq_nil_of_not_infix missing, List.map_nil]
  rw [tokens_staticText hlead all sewn, List.append_eq_nil_iff, List.flatMap_eq_nil_iff]
  exact ⟨fun seam mem => free (sewn.kept seam mem), free sewn.keptTail⟩

/-- Stretches with something between them are nothing but what is between them if and only if the
stretches are empty. -/
theorem flatMap_append_eq_iff {α β : Type} (xs : List α) (kept own : α → List β)
    (tail : List β) :
    xs.flatMap (fun x => kept x ++ own x) ++ tail = xs.flatMap own ↔
      xs.flatMap kept ++ tail = [] := by
  constructor
  · intro same
    have lengths := congrArg List.length same
    have perm := (List.flatMap_append_perm xs kept own).length_eq
    rw [List.length_append, ← perm, List.length_append] at lengths
    apply List.eq_nil_of_length_eq_zero
    rw [List.length_append]
    omega
  · intro empty
    obtain ⟨nothing, rfl⟩ := List.append_eq_nil_iff.mp empty
    rw [List.append_nil]
    apply List.flatMap_congr
    intro x mem
    rw [List.flatMap_eq_nil_iff.mp nothing x mem, List.nil_append]

variable {h : TypeHierarchy} {c : ComponentType} {template : String} {x : Extraction}

/-- **The tokens of an extracted template are its holes if and only if the static text has
none.** -/
theorem tokens_extract_iff [Matching] (ok : extract h c template = .ok x) {lead : String}
    (hlead : lead = Placeholder.expressionLead ∨ lead = Placeholder.collectionLead) :
    tokens lead.toList x.template.toList =
        ((sortedHoles template).filter (HasLead lead)).map (fun hole => hole.content.id) ↔
      tokens lead.toList (staticText template) = [] := by
  obtain ⟨seams, tail, all, sewn⟩ := exists_sewn template
  have isLead : IsLead lead.toList := by
    rcases hlead with rfl | rfl
    · exact Placeholder.isLead_expressionLead
    · exact Placeholder.isLead_collectionLead
  have readable (seam : Seam) (mem : seam ∈ seams) := readable_of_mem_seams all mem
  -- a hole has its own name as a token, or none at all
  have own : ((sortedHoles template).filter (HasLead lead)).map (fun hole => hole.content.id) =
      seams.flatMap fun seam => tokens lead.toList seam.hole.content.placeholder.toList := by
    rw [← all]
    clear all sewn
    induction seams with
    | nil => rfl
    | cons seam rest ih =>
      rw [List.flatMap_cons, ← ih fun other mem => readable other (List.mem_cons_of_mem seam mem),
        tokens_placeholder hlead (readable seam List.mem_cons_self), List.map_cons,
        List.filter_cons]
      by_cases same : seam.hole.content.lead = lead <;> simp [HasLead, same]
  rw [own, tokens_staticText isLead all sewn, template_of_extract ok all sewn,
    tokens_fill isLead sewn.bordered, flatMap_append_eq_iff]

/-! ## Assembly -/

/-- What assembly puts into a hole, given what it knows of expressions. A placeholder that it does
not know stays. -/
def Content.assembled (expressions : List (String × String)) : Content → String
  | .expression index _ =>
    (lookupEntry (Placeholder.expressionId index) expressions).getD
      (Placeholder.expressionId index)
  | .loop index clause => bareClause clause.bindings (Placeholder.collectionId index)

/-- The edits that assembly makes at the tokens it finds. -/
def substitutions (expressions : List (String × String))
    (found : List Placeholder.Occurrence) : List Edit :=
  found.filterMap fun occurrence =>
    (lookupEntry occurrence.token expressions).map fun e => ⟨occurrence.span, e⟩

theorem substitutions_append (expressions : List (String × String))
    (found more : List Placeholder.Occurrence) :
    substitutions expressions (found ++ more) =
      substitutions expressions found ++ substitutions expressions more :=
  List.filterMap_append

theorem findFrom_eq_nil_of_tokens {lead text : List Char} (h : tokens lead text = [])
    (offset : Nat) : findFrom lead none offset 0 text = [] := by
  have same := map_token_findFrom lead none offset 0 0 text
  rw [show (findFrom lead none 0 0 text).map Placeholder.Occurrence.token = [] from h] at same
  exact List.map_eq_nil_iff.mp same

/-- Assembly replaces a placeholder in a hole. -/
theorem spliced_placeholder (expressions : List (String × String)) {content : Content}
    (readable : content.Readable) (offset : Nat) :
    Spliced offset content.placeholder.toList
      (substitutions expressions
        (findFrom Placeholder.expressionLead.toList none offset 0 content.placeholder.toList))
      (content.assembled expressions).toList := by
  cases content with
  | expression index body =>
    change Spliced offset (Placeholder.expressionId index).toList
      (substitutions expressions (findFrom _ none offset 0 (Placeholder.expressionId index).toList))
      ((lookupEntry (Placeholder.expressionId index) expressions).getD
        (Placeholder.expressionId index)).toList
    rw [findFrom_expressionId, substitutions, List.filterMap_cons, List.filterMap_nil]
    cases lookupEntry (Placeholder.expressionId index) expressions with
    | none => exact .refl _ _
    | some e => exact .single _ _ _
  | loop index clause =>
    change Spliced offset (bareClause clause.bindings (Placeholder.collectionId index)).toList
      (substitutions expressions (findFrom _ none offset 0
        (bareClause clause.bindings (Placeholder.collectionId index)).toList)) _
    rw [findFrom_clause readable]
    exact .refl _ _

/-- Assembly replaces the placeholders in the holes and nothing else, if there is no token between
them. -/
theorem spliced_fill (expressions : List (String × String)) {seams : List Seam} {tail : List Char}
    (bordered : ∀ seam ∈ seams, seam.Bordered)
    (readable : ∀ seam ∈ seams, seam.hole.content.Readable)
    (free : ∀ seam ∈ seams, tokens Placeholder.expressionLead.toList seam.kept = [])
    (freeTail : tokens Placeholder.expressionLead.toList tail = []) (offset : Nat) :
    Spliced offset (fill (fun hole => hole.content.placeholder) tail seams)
      (substitutions expressions (findFrom Placeholder.expressionLead.toList none offset 0
        (fill (fun hole => hole.content.placeholder) tail seams)))
      (fill (fun hole => hole.content.assembled expressions) tail seams) := by
  induction seams generalizing offset with
  | nil =>
    rw [fill, findFrom_eq_nil_of_tokens freeTail]
    exact .refl offset tail
  | cons seam rest ih =>
    obtain ⟨left, right⟩ := bordered seam List.mem_cons_self
    have more := ih (fun other mem => bordered other (List.mem_cons_of_mem seam mem))
      (fun other mem => readable other (List.mem_cons_of_mem seam mem))
      (fun other mem => free other (List.mem_cons_of_mem seam mem))
      (offset + byteLength seam.kept + byteLength seam.left +
        byteLength seam.hole.content.placeholder.toList + byteLength seam.right)
    have hole := spliced_placeholder expressions (readable seam List.mem_cons_self)
      (offset + byteLength seam.kept + byteLength seam.left)
    rw [fill, fill,
      Placeholder.findFrom_border Placeholder.isLead_expressionLead left _ (Nat.zero_le _),
      Placeholder.findFrom_border Placeholder.isLead_expressionLead right _ (Nat.zero_le _),
      findFrom_eq_nil_of_tokens (free seam List.mem_cons_self), List.nil_append,
      substitutions_append]
    have behind := hole.append ((Spliced.refl _ seam.right).append more)
    have whole := (Spliced.refl offset seam.kept).append
      ((Spliced.refl _ seam.left).append behind)
    simpa only [List.nil_append] using whole

/-- **Assembly changes nothing but the holes**, if the static text has no tokens. -/
theorem rewrites_resolveTemplate [Matching] (ok : extract h c template = .ok x)
    (free : tokens Placeholder.expressionLead.toList (staticText template) = [])
    (expressions : List (String × String)) :
    Rewrites template.toList
      ((holes template).map fun hole => hole.put (hole.content.assembled expressions))
      (Assembly.resolveTemplate x.template expressions).toList := by
  obtain ⟨seams, tail, all, sewn⟩ := exists_sewn template
  rw [tokens_staticText Placeholder.isLead_expressionLead all sewn, List.append_eq_nil_iff,
    List.flatMap_eq_nil_iff] at free
  have spliced := spliced_fill expressions sewn.bordered
    (fun _ mem => readable_of_mem_seams all mem) free.1 free.2 0
  rw [← template_of_extract ok all sewn] at spliced
  rw [Assembly.resolveTemplate, String.toList_ofList, Placeholder.find]
  change Rewrites _ _ (applyEditsFrom 0 x.template.toList (substitutions expressions
    (findFrom Placeholder.expressionLead.toList none 0 0 x.template.toList)))
  rw [spliced.applyEditsFrom_eq]
  exact rewrites_fill all sewn fun hole => hole.content.assembled expressions

/-- **Tokens and records agree exactly if the static text has no tokens**: the tokens of an
extracted template are then the names of its records, each once and in order, and assembly puts
nothing into the static text, whatever it knows of expressions. -/
theorem assembly_keeps_static_text_iff [Matching] (ok : extract h c template = .ok x) :
    ((Placeholder.find Placeholder.expressionLead x.template.toList).map
          Placeholder.Occurrence.token = x.expressions.map Expression.id ↔
        Placeholder.find Placeholder.expressionLead (staticText template) = []) ∧
      ((Placeholder.find Placeholder.collectionLead x.template.toList).map
          Placeholder.Occurrence.token = x.collections.map Collection.id ↔
        Placeholder.find Placeholder.collectionLead (staticText template) = []) ∧
      (Placeholder.find Placeholder.expressionLead (staticText template) = [] →
        ∀ expressions : List (String × String),
          Rewrites template.toList
            ((holes template).map fun hole => hole.put (hole.content.assembled expressions))
            (Assembly.resolveTemplate x.template expressions).toList) := by
  have recorded := recorded_of_extract ok
  have expressionIds : (expressionHoles template).map (fun hole => hole.content.id) =
      x.expressions.map Expression.id := by
    have ids := congrArg (List.map Prod.fst) recorded.expressions
    rw [List.map_map, List.map_map] at ids
    exact ids.symm
  have collectionIds : (loopHoles template).map (fun hole => hole.content.id) =
      x.collections.map Collection.id := by
    have ids := congrArg (List.map Prod.fst) recorded.collections
    rw [List.map_map, List.map_map] at ids
    exact ids.symm
  have expressions := tokens_extract_iff ok (Or.inl rfl)
  have collections := tokens_extract_iff ok (Or.inr rfl)
  rw [filter_expressions, expressionIds] at expressions
  rw [filter_loops, collectionIds] at collections
  refine ⟨?_, ?_, ?_⟩
  · refine expressions.trans ?_
    exact List.map_eq_nil_iff
  · refine collections.trans ?_
    exact List.map_eq_nil_iff
  · intro free known
    refine rewrites_resolveTemplate ok ?_ known
    exact List.map_eq_nil_iff.mpr free

/-- Static text without tokens: assembly finds the expression's placeholder alone. -/
theorem paragraph_keeps_static_text :
    ∃ x, extract default default "<p>{{ a }}</p>" = .ok x ∧
      (Placeholder.find Placeholder.expressionLead x.template.toList).map
        Placeholder.Occurrence.token = x.expressions.map Expression.id ∧
      Rewrites "<p>{{ a }}</p>".toList
        ((holes "<p>{{ a }}</p>").map fun hole =>
          hole.put (hole.content.assembled [("exp$0", "a")]))
        (Assembly.resolveTemplate x.template [("exp$0", "a")]).toList := by
  have ok : extract default default "<p>{{ a }}</p>" =
      .ok ⟨"<p>{{ exp$0 }}</p>", [⟨"exp$0", .getter, [], "String", "a"⟩], []⟩ := by
    cbv
  have free : Placeholder.find Placeholder.expressionLead (staticText "<p>{{ a }}</p>") = [] := by
    cbv
  have keeps := assembly_keeps_static_text_iff ok
  exact ⟨_, ok, keeps.1.mpr free, keeps.2.2 free _⟩

/-- Static text that reads like a placeholder: the extracted template has a token without a record
of its own, and assembly replaces what the author wrote. -/
theorem static_token_is_replaced :
    ∃ x, extract default default "<p>exp$0 {{ a }}</p>" = .ok x ∧
      x.expressions.map Expression.id = ["exp$0"] ∧
      (Placeholder.find Placeholder.expressionLead x.template.toList).map
        Placeholder.Occurrence.token = ["exp$0", "exp$0"] ∧
      Assembly.resolveTemplate x.template [("exp$0", "a")] = "<p>a {{ a }}</p>" := by
  have ok : extract default default "<p>exp$0 {{ a }}</p>" =
      .ok ⟨"<p>exp$0 {{ exp$0 }}</p>", [⟨"exp$0", .getter, [], "String", "a"⟩], []⟩ := by
    cbv
  exact ⟨_, ok, rfl, by cbv, by cbv⟩

end TemplateCompiler.Extraction
