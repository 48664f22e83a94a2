import TemplateCompiler.Proofs.Assembly.RoundTrip
import TemplateCompiler.Proofs.Placeholder.Tokens

/-!
# Finalising any template

A template need not come from compilation: its compiled view can be written by hand or read from
a file, with any text and any methods in it. Assembly resolves the expressions up to the first
number without a method. Which tokens it replaces, when it fails and when it warns depends on that
number and on nothing else.

## Main definitions

* `Assembly.IsGap` — the first number without a method
* `Assembly.Resolves` — what is put in place of a token

## Main statements

* `Assembly.exists_isGap` — there always is such a number
* `Assembly.spliced_substitutions` — text between tokens stays
* `Assembly.finalises` — the template of the options, the failures and the warning
-/
namespace TemplateCompiler.Assembly

open Text Extraction Placeholder

variable {t : CompiledTemplate} {n : Nat}

/-! ## The first gap -/

/-- The first number without a method of its name. -/
def IsGap (t : CompiledTemplate) (n : Nat) : Prop :=
  (∀ k < n, expressionId k ∈ t.methods.keys) ∧ expressionId n ∉ t.methods.keys

/-- Numbering has a gap, because there are finitely many methods. -/
theorem exists_isGap (t : CompiledTemplate) : ∃ n, IsGap t n :=
  exists_gap expressionLead t.methods.keys

/-- There is one such number only. -/
theorem IsGap.unique {m : Nat} (h : IsGap t m) (h' : IsGap t n) : m = n :=
  gap_unique h.1 h.2 h'.1 h'.2

/-- The expressions up to the gap are looked up. -/
theorem expressionIds_eq (gap : IsGap t n) : expressionIds t = (List.range n).map expressionId :=
  sequentialIds_eq gap.1 gap.2

theorem mem_expressionIds (gap : IsGap t n) {id : String} :
    id ∈ expressionIds t ↔ ∃ k < n, id = expressionId k := by
  rw [expressionIds_eq gap]
  simp [eq_comm]

/-! ## Recovery -/

/-- The source of an accessor, which is empty if there is none. -/
theorem recover_eq_ok_iff {id : String} {entry : String × String} :
    recover t id = .ok entry ↔
      ∃ e, Accessor.expression? ((t.methods.get? id).getD "") = some e ∧
        entry = (id, Accessor.stripQualifiers e) := by
  rw [recover]
  cases Accessor.expression? ((t.methods.get? id).getD "") with
  | none => simp
  | some e => simp [eq_comm]

/-- Either all expressions are recovered or the first that is not is blamed. -/
theorem mapM_recover_cases (t : CompiledTemplate) (ids : List String) :
    (∃ known, ids.mapM (recover t) = .ok known ∧
        ∀ id ∈ ids, Accessor.expression? ((t.methods.get? id).getD "") ≠ none) ∨
      ∃ id ∈ ids, Accessor.expression? ((t.methods.get? id).getD "") = none ∧
        ids.mapM (recover t) =
          .error (.malformedExpression id ((t.methods.get? id).getD "")) := by
  induction ids with
  | nil => exact .inl ⟨[], rfl, nofun⟩
  | cons id rest ih =>
    rw [List.mapM_cons]
    cases found : Accessor.expression? ((t.methods.get? id).getD "") with
    | none =>
      refine .inr ⟨id, List.mem_cons_self, found, ?_⟩
      simp [recover, found, bind, Except.bind]
    | some e =>
      have first : recover t id = .ok (id, Accessor.stripQualifiers e) :=
        recover_eq_ok_iff.mpr ⟨e, found, rfl⟩
      rcases ih with ⟨known, more, all⟩ | ⟨other, mem, absent, blamed⟩
      · refine .inl ⟨(id, Accessor.stripQualifiers e) :: known, ?_, ?_⟩
        · rw [first, more]
          rfl
        · rintro other mem
          rcases List.mem_cons.mp mem with rfl | behind
          · simp [found]
          · exact all other behind
      · refine .inr ⟨other, List.mem_cons_of_mem id mem, absent, ?_⟩
        rw [first, blamed]
        rfl

/-- What is known of a name is what is recovered for it. -/
theorem lookupEntry_mapM_recover {ids : List String} {known : List (String × String)}
    (done : ids.mapM (recover t) = .ok known) {token e : String} :
    lookupEntry token known = some e ↔ token ∈ ids ∧ recover t token = .ok (token, e) := by
  induction ids generalizing known with
  | nil =>
    obtain rfl := Except.ok.inj done
    simp [lookupEntry]
  | cons id rest ih =>
    rw [List.mapM_cons] at done
    cases first : recover t id with
    | error e => simp [first, bind, Except.bind] at done
    | ok entry =>
      cases more : rest.mapM (recover t) with
      | error e => simp [first, more, bind, Except.bind] at done
      | ok others =>
        rw [first, more] at done
        obtain rfl := Except.ok.inj done
        obtain ⟨own, -, rfl⟩ := recover_eq_ok_iff.mp first
        rw [lookupEntry, List.mem_cons]
        split
        · rename_i same
          subst same
          simp [first, eq_comm]
        · rename_i other
          rw [ih more]
          simp [Ne.symm other]

/-! ## Replacing tokens -/

/-- **Text between tokens stays.** The first `skip` characters belong to a token that has been
dealt with. -/
theorem spliced_substitutions (expressions : List (String × String)) (lead : List Char)
    (before : Option Char) (offset skip : Nat) (text : List Char) :
    ∃ result, Spliced (offset + byteLength (text.take skip)) (text.drop skip)
      (substitutions expressions (findFrom lead before offset skip text)) result := by
  induction text generalizing before offset skip with
  | nil =>
    refine ⟨[], ?_⟩
    cases skip <;> exact .nil _
  | cons c cs ih =>
    cases skip with
    | succ skip =>
      obtain ⟨result, behind⟩ := ih (some c) (offset + c.utf8Size) skip
      rw [Nat.add_assoc] at behind
      exact ⟨result, behind⟩
    | zero =>
      -- whatever is skipped behind this character stays
      have kept (skip : Nat) : ∃ result, Spliced offset (c :: cs)
          (substitutions expressions (findFrom lead (some c) (offset + c.utf8Size) skip cs))
          result := by
        obtain ⟨result, behind⟩ := ih (some c) (offset + c.utf8Size) skip
        have whole := ((Spliced.refl (offset + c.utf8Size) (cs.take skip)).append behind).keep c
        rw [List.take_append_drop] at whole
        exact ⟨_, whole⟩
      change ∃ result, Spliced offset (c :: cs) _ result
      rw [findFrom]
      split
      · exact kept 0
      · rename_i rest begins
        dsimp only
        split
        · exact kept _
        · rename_i accepted
          rw [substitutions, List.filterMap_cons]
          split
          · exact kept _
          · rename_i edit replaced
            obtain ⟨e, -, rfl⟩ := Option.map_eq_some_iff.mp replaced
            have whole := after?_eq_some_iff.mp begins
            rw [← List.takeWhile_append_dropWhile (p := Char.isDigit) (l := rest),
              ← List.append_assoc] at whole
            have number : lead ++ rest.takeWhile Char.isDigit ≠ [] := by
              intro none
              simp [(List.append_eq_nil_iff.mp none).2] at accepted
            generalize lead ++ rest.takeWhile Char.isDigit = token at whole number
            obtain ⟨d, token, rfl⟩ := List.exists_cons_of_ne_nil number
            rw [List.cons_append, List.cons.injEq] at whole
            obtain ⟨rfl, rfl⟩ := whole
            obtain ⟨result, behind⟩ := ih (some c) (offset + c.utf8Size) token.length
            rw [List.take_left, List.drop_left, Nat.add_assoc, ← byteLength_cons] at behind
            exact ⟨_, .replace (c :: token) e behind⟩

/-- The edits are made at the tokens of which something is known. -/
theorem mem_substitutions {known : List (String × String)} {text : List Char} {edit : Edit} :
    edit ∈ substitutions known (find expressionLead text) ↔
      ∃ front digits behind e, IsToken expressionLead.toList none text front digits behind ∧
        lookupEntry (String.ofList (expressionLead.toList ++ digits)) known = some e ∧
          edit = ⟨(occurrence 0 expressionLead.toList front digits).span, e⟩ := by
  simp only [substitutions, List.mem_filterMap, mem_find_iff isFresh_expressionLead,
    Option.map_eq_some_iff]
  constructor
  · rintro ⟨found, ⟨front, digits, behind, token, rfl⟩, e, entry, rfl⟩
    exact ⟨front, digits, behind, e, token, entry, rfl⟩
  · rintro ⟨front, digits, behind, e, token, entry, rfl⟩
    exact ⟨_, ⟨front, digits, behind, token, rfl⟩, e, entry, rfl⟩

/-! ## The warning -/

/-- A list without repetitions is shorter than one that contains it if something is missing. -/
theorem length_lt_iff_exists {α : Type} {xs ys : List α} (nodup : xs.Nodup) (nodup' : ys.Nodup)
    (subset : xs ⊆ ys) : xs.length < ys.length ↔ ∃ y ∈ ys, y ∉ xs := by
  constructor
  · intro lt
    by_contra none
    have all : ys ⊆ xs := fun y mem => of_not_not fun absent => none ⟨y, mem, absent⟩
    exact Nat.not_le_of_lt lt (nodup'.subperm all).length_le
  · rintro ⟨y, mem, absent⟩
    have longer : (y :: xs) ⊆ ys := List.cons_subset.mpr ⟨mem, subset⟩
    exact ((List.nodup_cons.mpr ⟨absent, nodup⟩).subperm longer).length_le

/-- There are more methods with the lead of expressions than resolved ones exactly if one of them
is none of these. -/
theorem length_lt_declaredExpressions_iff (gap : IsGap t n) :
    (expressionIds t).length < declaredExpressions t ↔
      ∃ key ∈ t.methods.keys, expressionLead.toList <+: key.toList ∧
        ∀ k < n, key ≠ expressionId k := by
  have begins (key : String) : (after? expressionLead.toList key.toList).isSome = true ↔
      expressionLead.toList <+: key.toList := by
    rw [Option.isSome_iff_exists]
    exact exists_congr fun rest => after?_eq_some_iff.trans eq_comm
  rw [declaredExpressions, List.countP_eq_length_filter, length_lt_iff_exists]
  · simp only [List.mem_filter, begins, mem_expressionIds gap, and_assoc, not_exists, not_and,
      ne_eq]
  · rw [expressionIds_eq gap]
    exact List.Nodup.map (name_injective expressionLead) List.nodup_range
  · exact t.methods.nodup_keys.filter _
  · intro id mem
    obtain ⟨k, lt, rfl⟩ := (mem_expressionIds gap).mp mem
    rw [List.mem_filter, begins, expressionId, String.toList_append]
    exact ⟨gap.1 k lt, List.prefix_append _ _⟩

/-- **Assembly warns exactly if a method is named like an expression and not resolved.** -/
theorem isSome_numberingWarning?_iff {d : ComponentDefinition} (has : d.template = some t)
    (nonempty : t.isEmpty = false) (gap : IsGap t n) :
    (numberingWarning? d).isSome ↔
      ∃ key ∈ t.methods.keys, expressionLead.toList <+: key.toList ∧
        ∀ k < n, key ≠ expressionId k := by
  rw [← length_lt_declaredExpressions_iff gap, ← Nat.sub_pos_iff_lt, Nat.pos_iff_ne_zero]
  simp only [numberingWarning?, has, nonempty, Bool.false_eq_true, false_or]
  split
  · rename_i nothing
    simp [nothing]
  · rename_i some
    simp [some]

/-! ## The result -/

/-- The edit puts the expression of a method before the gap in place of a token with its name. -/
def Resolves (t : CompiledTemplate) (n : Nat) (edit : Edit) : Prop :=
  ∃ k < n, ∃ source e front behind,
    t.methods.get? (expressionId k) = some source ∧ Accessor.expression? source = some e ∧
      IsToken expressionLead.toList none t.text.toList front (toString k).toList behind ∧
        edit = ⟨⟨byteLength front, byteLength front + byteLength (expressionId k).toList⟩,
          Accessor.stripQualifiers e⟩

/-- A method before the gap has a source. -/
theorem exists_source (gap : IsGap t n) {k : Nat} (lt : k < n) :
    ∃ source, t.methods.get? (expressionId k) = some source :=
  Option.isSome_iff_exists.mp (OrderedMap.mem_keys_iff.mp (gap.1 k lt))

/-- A token has the name of an expression if its digits are those of the number. -/
theorem expressionId_eq_ofList_iff {k : Nat} {digits : List Char} :
    String.ofList (expressionLead.toList ++ digits) = expressionId k ↔
      digits = (toString k).toList := by
  rw [← String.toList_inj, String.toList_ofList, expressionId, String.toList_append,
    List.append_cancel_left_eq]

/-- **Assembly replaces the tokens whose numbers are below the gap**, each by the expression of
its method, and no others. -/
theorem mem_substitutions_iff (gap : IsGap t n) {known : List (String × String)}
    (done : (expressionIds t).mapM (recover t) = .ok known) {edit : Edit} :
    edit ∈ substitutions known (find expressionLead t.text.toList) ↔ Resolves t n edit := by
  rw [mem_substitutions]
  constructor
  · rintro ⟨front, digits, behind, e, token, entry, rfl⟩
    obtain ⟨mem, recovered⟩ := (lookupEntry_mapM_recover done).mp entry
    obtain ⟨k, lt, same⟩ := (mem_expressionIds gap).mp mem
    rw [same, recover_eq_ok_iff] at recovered
    obtain ⟨source, here⟩ := exists_source gap lt
    obtain ⟨body, found, own⟩ := recovered
    obtain ⟨-, rfl⟩ := Prod.mk.inj own
    rw [here] at found
    obtain rfl := expressionId_eq_ofList_iff.mp same
    refine ⟨k, lt, source, body, front, behind, here, found, token, ?_⟩
    simp [occurrence, expressionId]
  · rintro ⟨k, lt, source, body, front, behind, here, found, token, rfl⟩
    refine ⟨front, (toString k).toList, behind, Accessor.stripQualifiers body, token, ?_, ?_⟩
    · rw [expressionId_eq_ofList_iff.mpr rfl, lookupEntry_mapM_recover done, recover_eq_ok_iff]
      refine ⟨(mem_expressionIds gap).mpr ⟨k, lt, rfl⟩, body, ?_, rfl⟩
      rw [here]
      exact found
    · simp [occurrence, expressionId]

/-- Resolving the template comes first, so its failure is that of assembly. -/
theorem assemble_of_templateOptions_error {d : ComponentDefinition} {e : AssembleError}
    (fails : templateOptions d = .error e) (i : Instance) (r : Registry) :
    (assemble d i r).1 = .error e := by
  have members : memberOptions d i = .error e := by
    rw [memberOptions, fails]
    rfl
  rw [assemble, members]

/-- **Any template is finalised up to the first gap.** If assembly succeeds, then the template of
the options is the text with the tokens below the gap replaced, all of them and nothing else. It
blames an accessor if and only if the source of one below the gap is not that of an accessor, and
it warns if and only if a method that is named like an expression is not below the gap. -/
theorem finalises {d : ComponentDefinition} (has : d.template = some t) (nonempty : t.text ≠ "")
    (i : Instance) (r : Registry) :
    ∃ n, IsGap t n ∧
      (∀ options, (assemble d i r).1 = .ok options →
        ∃ result edits, options.template = some result ∧
          Spliced 0 t.text.toList edits result.toList ∧
            ∀ edit, edit ∈ edits ↔ Resolves t n edit) ∧
      ((∃ id text, (assemble d i r).1 = .error (.malformedExpression id text)) ↔
        ∃ k < n, ∃ source, t.methods.get? (expressionId k) = some source ∧
          Accessor.expression? source = none) ∧
      ((numberingWarning? d).isSome ↔
        ∃ key ∈ t.methods.keys, expressionLead.toList <+: key.toList ∧
          ∀ k < n, key ≠ expressionId k) := by
  obtain ⟨n, gap⟩ := exists_isGap t
  have text : t.isEmpty = false := beq_false_of_ne nonempty
  refine ⟨n, gap, ?_⟩
  rw [← and_assoc]
  refine ⟨?_, isSome_numberingWarning?_iff has text gap⟩
  rcases mapM_recover_cases t (expressionIds t) with ⟨known, done, all⟩ | ⟨id, mem, absent, blamed⟩
  · have template : templateOptions d =
        .ok (some (resolveTemplate t.text known), collectionIds t) := by
      simp only [templateOptions, has, text, done]
      rfl
    have resolved := post_assemble template i r
    constructor
    · intro options success
      rw [success] at resolved
      obtain ⟨result, spliced⟩ := spliced_substitutions known expressionLead.toList none 0 0
        t.text.toList
      have whole : (resolveTemplate t.text known).toList = result := by
        rw [resolveTemplate, String.toList_ofList]
        exact spliced.applyEditsFrom_eq
      refine ⟨_, _, resolved, ?_, fun edit => mem_substitutions_iff gap done⟩
      rw [whole]
      exact spliced
    · constructor
      · rintro ⟨id, source, blamed⟩
        rw [blamed] at resolved
        exact absurd rfl (resolved id source)
      · rintro ⟨k, lt, source, here, absent⟩
        refine absurd ?_ (all (expressionId k) ((mem_expressionIds gap).mpr ⟨k, lt, rfl⟩))
        rw [here]
        exact absent
  · obtain ⟨k, lt, rfl⟩ := (mem_expressionIds gap).mp mem
    obtain ⟨source, here⟩ := exists_source gap lt
    rw [here, Option.getD_some] at absent blamed
    have fails : templateOptions d = .error (.malformedExpression (expressionId k) source) := by
      simp only [templateOptions, has, text, blamed]
      rfl
    rw [assemble_of_templateOptions_error fails]
    refine ⟨?_, iff_of_true ⟨_, _, rfl⟩ ⟨k, lt, source, here, absent⟩⟩
    intro options success
    cases success

/-- A template in which number two is missing. Its tokens stand alone, glued to a name, with a
leading zero, with a longer number and behind the gap, and the first expression reads like one. -/
def numbered : CompiledTemplate where
  name := "Todo"
  text := "exp$0 xexp$1 exp$00 exp$10 exp$1 exp$3"
  methods := .ofList [("exp$0", "function() \x7b return this.exp$1; \x7d"),
    ("exp$1", "function() \x7b return b; \x7d"), ("exp$3", "function() \x7b return c; \x7d")]
  expressions := []
  styles := .empty

/-- Two tokens are replaced. -/
theorem numbered_finalises :
    ∃ options edits, (assemble ⟨default, some numbered⟩ ⟨fun _ => none, fun _ => none⟩ .empty).1 =
        .ok options ∧
      options.template = some "exp$1 xexp$1 exp$00 exp$10 b exp$3" ∧
      Spliced 0 numbered.text.toList edits "exp$1 xexp$1 exp$00 exp$10 b exp$3".toList ∧
      (∀ edit, edit ∈ edits ↔ Resolves numbered 2 edit) ∧
      (numberingWarning? ⟨default, some numbered⟩).isSome := by
  have gap : IsGap numbered 2 := by
    unfold IsGap
    decide
  obtain ⟨n, found, succeeds, -, warns⟩ :=
    finalises (d := ⟨default, some numbered⟩) rfl (by decide) ⟨fun _ => none, fun _ => none⟩ .empty
  obtain rfl := gap.unique found
  have template : (assemble ⟨default, some numbered⟩ ⟨fun _ => none, fun _ => none⟩ .empty).1.map
      ComponentOptions.template = .ok (some "exp$1 xexp$1 exp$00 exp$10 b exp$3") := by
    decide +kernel
  cases assembles : (assemble ⟨default, some numbered⟩ ⟨fun _ => none, fun _ => none⟩ .empty).1 with
  | error e => simp [assembles, Except.map] at template
  | ok options =>
    rw [assembles] at template
    obtain ⟨result, edits, same, spliced, resolves⟩ := succeeds options assembles
    have text : options.template = some "exp$1 xexp$1 exp$00 exp$10 b exp$3" :=
      Except.ok.inj template
    obtain rfl := Option.some.inj (same.symm.trans text)
    exact ⟨options, edits, rfl, same, spliced, resolves,
      warns.mpr ⟨"exp$3", by decide, by decide, by decide⟩⟩

end TemplateCompiler.Assembly
