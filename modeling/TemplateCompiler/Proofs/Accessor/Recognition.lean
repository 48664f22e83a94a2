import TemplateCompiler.Proofs.Accessor.Shape
import TemplateCompiler.Proofs.Text.Pattern

/-!
# Recognising accessors by a pattern

Accessors are recognised by one pattern over the whole source, in which a lazy group stands between
greedy parts that are optional. Which of the many ways to read a source is preferred decides what
the group takes. It takes what is left when everything has been dropped that can be: the longest
blanks and a `return` in front, because they are tried before anything shorter, and the longest end
behind, because the group itself takes as little as it can.

## Main definitions

* `Accessor.accessorPattern` — the pattern
* `Accessor.captured?` — what its second group takes

## Main statements

* `Accessor.findSome?_body`, `Accessor.findSome?_return`, `Accessor.findSome?_lead` — what is
  preferred from the end of the pattern to its front
* `Accessor.captured?_eq_expression?` — the pattern finds what is recovered
* `Accessor.recognised_iff_shaped` — which sources are recognised, and what is found in them
-/
namespace TemplateCompiler.Accessor

open Text Pattern

/-! ## The pattern -/

/-- From the beginning to the brace. -/
def headingPattern : Pattern :=
  sequence [many isBlank, literal "function".toList, many isBlank, many isFunctionNameChar,
    many isBlank, literal ['('], group 1 (many (· != ')')), literal [')'], many isBlank,
    literal ['{']]

/-- A `return` and the blanks behind it. -/
def returnPattern : Pattern := sequence [literal "return".toList, one isBlank, many isBlank]

/-- What stands behind the expression. -/
def closingPattern : Pattern :=
  sequence [many isBlank, optional (literal [';']), many isBlank, literal ['}'], many isBlank]

/-- The source of an accessor. The second group is the expression. -/
def accessorPattern : Pattern :=
  sequence [beginning, headingPattern, many isBlank, optional returnPattern,
    group 2 (few fun _ => true), closingPattern, ending]

/-- What the second group of the pattern takes, if it takes anything. -/
def captured? (source : String) : Option String := do
  let found ← accessorPattern.find? source.toList
  let body ← found.group? 2
  if body = [] then none else some (String.ofList body)

/-! ## The heading -/

/-- The pattern of headings accepts headings with blanks in front. -/
theorem accepts_heading :
    headingPattern.Accepts fun run =>
      ∃ (lead : List Char) (h : Heading), lead.all isBlank = true ∧ run = lead ++ h.text := by
  have accepts := (Accepts.many isBlank).both <| (Accepts.literal "function".toList).both <|
    (Accepts.many isBlank).both <| (Accepts.many isFunctionNameChar).both <|
    (Accepts.many isBlank).both <| (Accepts.literal ['(']).both <|
    ((Accepts.many (· != ')')).group 1).both <| (Accepts.literal [')']).both <|
    (Accepts.many isBlank).both <| (Accepts.literal ['{']).both Accepts.nothing
  intro s rest
  refine (accepts s rest).trans (exists_congr fun run => and_congr_right fun _ => ?_)
  constructor
  · rintro ⟨lead, _, rfl, leadBlank, _, _, rfl, rfl, gap, _, rfl, gapBlank, name, _, rfl, names,
      nameGap, _, rfl, nameGapBlank, _, _, rfl, rfl, parameters, _, rfl, open_, _, _, rfl, rfl,
      braceGap, _, rfl, braceGapBlank, _, _, rfl, rfl, rfl⟩
    exact ⟨lead, ⟨gap, name, nameGap, parameters, braceGap, gapBlank, names, nameGapBlank, open_,
      braceGapBlank⟩, leadBlank, rfl⟩
  · rintro ⟨lead, h, leadBlank, rfl⟩
    exact ⟨lead, _, rfl, leadBlank, _, _, rfl, rfl, h.gap, _, rfl, h.gap_blank, h.name, _, rfl,
      h.name_chars, h.nameGap, _, rfl, h.nameGap_blank, _, _, rfl, rfl, h.parameters, _, rfl,
      h.parameters_open, _, _, rfl, rfl, h.braceGap, _, rfl, h.braceGap_blank, _, _, rfl, rfl, rfl⟩

/-! ## The end -/

/-- What stands behind the expression, the brace included. -/
def IsClosing (text : List Char) : Prop :=
  ∃ gap terminator tail behind, gap.all isBlank = true ∧ IsTerminator terminator ∧
    tail.all isBlank = true ∧ behind.all isBlank = true ∧
      text = gap ++ (terminator ++ (tail ++ '}' :: behind))

theorem accepts_closing : closingPattern.Accepts IsClosing := by
  have accepts := (Accepts.many isBlank).both <| (Accepts.literal [';']).optional.both <|
    (Accepts.many isBlank).both <| (Accepts.literal ['}']).both <|
    (Accepts.many isBlank).both Accepts.nothing
  intro s rest
  refine (accepts s rest).trans (exists_congr fun run => and_congr_right fun _ => ?_)
  constructor
  · rintro ⟨gap, _, rfl, gapBlank, terminator, _, rfl, isTerminator, tail, _, rfl, tailBlank,
      _, _, rfl, rfl, behind, _, rfl, behindBlank, rfl⟩
    exact ⟨gap, terminator, tail, behind, gapBlank, isTerminator, tailBlank, behindBlank,
      by simp⟩
  · rintro ⟨gap, terminator, tail, behind, gapBlank, isTerminator, tailBlank, behindBlank, rfl⟩
    exact ⟨gap, _, rfl, gapBlank, terminator, _, rfl, isTerminator, tail, _, rfl, tailBlank,
      ['}'], behind, rfl, rfl, behind, [], by simp, behindBlank, rfl⟩

variable {s : Progress}

/-- The pattern can be read to its end exactly if nothing else is left. -/
theorem exists_mem_ways_closing :
    (∃ after, after ∈ (sequence [closingPattern, ending]).ways s) ↔ IsClosing s.rest := by
  have all := accepts_closing s []
  simp only [List.append_nil, exists_eq_left'] at all
  rw [← all]
  simp only [mem_ways_sequence_cons, mem_ways_ending, mem_ways_sequence_nil]
  grind

/-- At the end the group stays as it is. -/
theorem findSome?_closing (h : IsClosing s.rest) :
    ((sequence [closingPattern, ending]).ways s).findSome? (·.group? 2) = s.group? 2 := by
  obtain ⟨after, mem⟩ := exists_mem_ways_closing.mpr h
  refine findSome?_of_forall_eq (List.ne_nil_of_mem mem) fun after mem => ?_
  rw [Progress.group?, groups_of_mem_ways rfl mem, Progress.group?]

theorem findSome?_not_closing (h : ¬ IsClosing s.rest) :
    ((sequence [closingPattern, ending]).ways s).findSome? (·.group? 2) = none := by
  rw [List.findSome?_eq_none_iff]
  exact fun after mem => absurd (exists_mem_ways_closing.mp ⟨after, mem⟩) h

/-- A text in front of a closing end is one in front of the brace. -/
theorem untilBrace?_of_isClosing (run : List Char) {rest : List Char} (h : IsClosing rest) :
    ∃ gap terminator tail, gap.all isBlank = true ∧ IsTerminator terminator ∧
      tail.all isBlank = true ∧
        untilBrace? (run ++ rest) = some (run ++ (gap ++ (terminator ++ tail))) := by
  obtain ⟨gap, terminator, tail, behind, gapBlank, isTerminator, tailBlank, behindBlank, rfl⟩ := h
  exact ⟨gap, terminator, tail, gapBlank, isTerminator, tailBlank,
    untilBrace?_eq_some_iff.mpr ⟨behind, behindBlank, by simp⟩⟩

/-! ## What is preferred -/

/-- **The lazy group stops at the first place from which the end can be read**, which is where
nothing more can be dropped behind it. -/
theorem findSome?_body (s : Progress) :
    ((sequence [group 2 (few fun _ => true), closingPattern, ending]).ways s).findSome?
      (·.group? 2) = (untilBrace? s.rest).map dropTerminator := by
  rw [findSome?_sequence_cons, findSome?_group]
  cases inner_eq : untilBrace? s.rest with
  | none =>
    refine List.findSome?_eq_none_iff.mpr fun after mem => ?_
    obtain ⟨run, rest, split, -, rfl⟩ := mem_ways_few.mp mem
    refine findSome?_not_closing fun closing => ?_
    change IsClosing (s.past run).rest at closing
    rw [rest_past split] at closing
    obtain ⟨gap, terminator, tail, -, -, -, found⟩ := untilBrace?_of_isClosing run closing
    rw [← split, inner_eq] at found
    cases found
  | some inner =>
    obtain ⟨behind, behindBlank, rest_eq⟩ := untilBrace?_eq_some_iff.mp inner_eq
    obtain ⟨gap, terminator, tail, gapBlank, isTerminator, tailBlank, inner_split, -⟩ :=
      exists_terminator inner
    have split :
        s.rest = dropTerminator inner ++ (gap ++ (terminator ++ (tail ++ '}' :: behind))) := by
      rw [rest_eq]
      conv_lhs => rw [inner_split]
      simp
    refine findSome?_few split (by simp) ?_ fun shorter isPrefix ne => ?_
    · have closing : IsClosing ((s.past (dropTerminator inner)).keep 2 s).rest := by
        change IsClosing (s.past (dropTerminator inner)).rest
        rw [rest_past split]
        exact ⟨gap, terminator, tail, behind, gapBlank, isTerminator, tailBlank, behindBlank, rfl⟩
      rw [findSome?_closing closing]
      simp [Progress.group?, Progress.keep, Progress.past]
    · -- the end would begin before the place where nothing more can be dropped
      refine findSome?_not_closing fun closing => ?_
      obtain ⟨more, more_eq⟩ := isPrefix
      rw [← more_eq, List.append_assoc] at split
      change IsClosing (s.past shorter).rest at closing
      rw [rest_past split] at closing
      obtain ⟨gap', terminator', tail', gapBlank', isTerminator', tailBlank', found⟩ :=
        untilBrace?_of_isClosing shorter closing
      rw [← split, inner_eq] at found
      have isPrefix' := dropTerminator_isPrefix shorter gapBlank' isTerminator' tailBlank'
      rw [← Option.some.inj found] at isPrefix'
      exact ne (List.IsPrefix.eq_of_length_le ⟨more, more_eq⟩ isPrefix'.length_le)

/-- Blanks are no braces. -/
theorem brace_not_mem_of_blank {run : List Char} (blank : run.all isBlank = true) : '}' ∉ run := by
  intro mem
  have := List.all_eq_true.mp blank '}' mem
  cases this

/-- **Of blanks in front the longest are preferred**, whatever is dropped later. -/
theorem findSome?_blanks (drop : List Char → List Char) {blanks rest : List Char}
    (split : s.rest = blanks ++ rest) (blank : blanks.all isBlank = true)
    (border : rest.head?.any isBlank = false) :
    ((many isBlank).ways s).findSome? (fun after => (untilBrace? after.rest).map drop) =
      (untilBrace? rest).map drop := by
  have longest := findSome?_many (k := fun after => (untilBrace? after.rest).map drop) split blank
    border
  rw [rest_past split] at longest
  refine longest fun shorter isPrefix found => ?_
  -- the blanks that are not taken stand in front of the same brace
  obtain ⟨more, rfl⟩ := isPrefix
  rw [List.append_assoc] at split
  rw [List.all_append, Bool.and_eq_true] at blank
  rw [rest_past split, untilBrace?_append (brace_not_mem_of_blank blank.2)] at found
  simpa using found

/-- What stands in front of the brace in a text without blanks in front has none in front. -/
theorem trimStart_of_untilBrace? {text inner : List Char}
    (found : untilBrace? (trimStart text) = some inner) : trimStart inner = inner := by
  obtain ⟨tail, -, split⟩ := untilBrace?_eq_some_iff.mp found
  cases inner with
  | nil => rfl
  | cons c inner =>
    have nonempty : trimStart text ≠ [] := by simp [split]
    obtain ⟨d, rest, first, noBlank⟩ := exists_first_trimStart nonempty
    rw [split] at first
    obtain ⟨rfl, -⟩ := List.cons.inj first
    exact trimStart_cons noBlank inner

/-- Behind a `return` the longest blanks are preferred. -/
theorem findSome?_returnPattern {blank : Char} {blanks rest : List Char}
    (split : s.rest = "return".toList ++ blank :: (blanks ++ rest))
    (isBlank_blank : isBlank blank = true)
    (allBlank : blanks.all isBlank = true) (border : rest.head?.any isBlank = false) :
    (returnPattern.ways s).findSome? (fun after => (untilBrace? after.rest).map dropTerminator) =
      (untilBrace? rest).map dropTerminator := by
  have behindReturn := rest_past split
  rw [returnPattern, findSome?_sequence_cons, findSome?_literal split, findSome?_sequence_cons,
    findSome?_one behindReturn isBlank_blank, findSome?_sequence_cons]
  simp only [findSome?_sequence_nil]
  exact findSome?_blanks dropTerminator (rest_past_singleton behindReturn) allBlank border

/-- Without a `return` at the front there is no way to read one. -/
theorem ways_returnPattern (h : ¬ BeginsWithReturn s.rest) : returnPattern.ways s = [] := by
  refine List.eq_nil_iff_forall_not_mem.mpr fun after mem => h ?_
  obtain ⟨_, mem, behind⟩ := mem_ways_sequence_cons.mp mem
  obtain ⟨rest, split, rfl⟩ := mem_ways_literal.mp mem
  obtain ⟨_, mem, -⟩ := mem_ways_sequence_cons.mp behind
  obtain ⟨c, rest', first, blank, -⟩ := mem_ways_one.mp mem
  rw [rest_past split] at first
  exact ⟨c, rest', by rw [split, first], blank⟩

/-- **A `return` at the front is preferred to none.** -/
theorem findSome?_return (s : Progress) :
    ((sequence [optional returnPattern, group 2 (few fun _ => true), closingPattern,
      ending]).ways s).findSome? (·.group? 2) =
        (untilBrace? s.rest).map fun inner => dropTerminator (dropReturn inner) := by
  rw [findSome?_sequence_cons]
  simp only [findSome?_body]
  rw [findSome?_optional]
  by_cases begins : BeginsWithReturn s.rest
  · obtain ⟨c, rest, split, blank⟩ := begins
    obtain ⟨blanks, allBlank, rest_eq⟩ := exists_blanks_trimStart rest
    have all : (c :: blanks).all isBlank = true := by
      rw [List.all_cons, blank, allBlank]
      rfl
    have noBrace : '}' ∉ "return".toList ++ c :: blanks := by
      rw [List.mem_append, not_or]
      exact ⟨by decide, brace_not_mem_of_blank all⟩
    have found : untilBrace? s.rest =
        (untilBrace? (trimStart rest)).map ("return".toList ++ c :: blanks ++ ·) := by
      rw [← untilBrace?_append noBrace, List.append_assoc, List.cons_append, ← rest_eq, split]
    rw [findSome?_returnPattern (by rw [← rest_eq, split]) blank allBlank (head?_trimStart rest),
      found]
    cases inner_eq : untilBrace? (trimStart rest) with
    | none => rfl
    | some inner =>
      simp only [Option.map_some, Option.some_or, List.append_assoc]
      rw [dropReturn_return all (List.cons_ne_nil c blanks), trimStart_of_untilBrace? inner_eq]
  · rw [ways_returnPattern begins, List.findSome?_nil, Option.none_or]
    cases inner_eq : untilBrace? s.rest with
    | none => rfl
    | some inner =>
      have noReturn : ¬ BeginsWithReturn inner := by
        rintro ⟨c, rest, rfl, blank⟩
        obtain ⟨tail, -, split⟩ := untilBrace?_eq_some_iff.mp inner_eq
        exact begins ⟨c, rest ++ '}' :: tail, by rw [split, List.append_assoc, List.cons_append],
          blank⟩
      rw [Option.map_some, Option.map_some, dropReturn_eq_self noReturn]

/-- **The longest blanks in front are preferred.** -/
theorem findSome?_lead (s : Progress) :
    ((sequence [many isBlank, optional returnPattern, group 2 (few fun _ => true), closingPattern,
      ending]).ways s).findSome? (·.group? 2) =
        (untilBrace? s.rest).map fun inner => dropTerminator (dropReturn (trimStart inner)) := by
  obtain ⟨blanks, blank, split⟩ := exists_blanks_trimStart s.rest
  rw [findSome?_sequence_cons]
  simp only [findSome?_return]
  rw [findSome?_blanks _ split blank (head?_trimStart _)]
  conv_rhs => rw [split, untilBrace?_append (brace_not_mem_of_blank blank)]
  cases inner_eq : untilBrace? (trimStart s.rest) with
  | none => rfl
  | some inner =>
    simp [trimStart_blanks blank, trimStart_of_untilBrace? inner_eq]

/-! ## The whole pattern -/

/-- A way to read the pattern has text for the second group. -/
theorem isSome_group_of_mem_ways {after : Progress}
    (mem : after ∈ (sequence [headingPattern, many isBlank, optional returnPattern,
      group 2 (few fun _ => true), closingPattern, ending]).ways s) :
    (after.group? 2).isSome = true := by
  obtain ⟨_, -, mem⟩ := mem_ways_sequence_cons.mp mem
  obtain ⟨_, -, mem⟩ := mem_ways_sequence_cons.mp mem
  obtain ⟨_, -, mem⟩ := mem_ways_sequence_cons.mp mem
  obtain ⟨_, mem, behind⟩ := mem_ways_sequence_cons.mp mem
  obtain ⟨inner, -, rfl⟩ := mem_ways_group.mp mem
  rw [Progress.group?, groups_of_mem_ways rfl behind]
  rfl

/-- The pattern of headings leaves what follows the heading, and nothing else. -/
theorem exists_rest_heading_iff {cs rest : List Char} :
    (∃ after ∈ headingPattern.ways (.start cs), after.rest = rest) ↔
      afterHeading? cs = some rest := by
  rw [accepts_heading (.start cs) rest, afterHeading?_eq_some_iff]
  constructor
  · rintro ⟨_, split, lead, h, blank, rfl⟩
    exact ⟨lead, h, blank, by rw [← List.append_assoc]; exact split⟩
  · rintro ⟨lead, h, blank, rfl⟩
    exact ⟨_, (List.append_assoc lead h.text rest).symm, lead, h, blank, rfl⟩

/-- **What the pattern captures** is what is left of the text between the braces. -/
theorem group_find?_accessorPattern (cs : List Char) :
    (accessorPattern.find? cs).bind (·.group? 2) =
      (functionInner? cs).map fun inner => dropTerminator (dropReturn (trimStart inner)) := by
  rw [accessorPattern, find?_beginning,
    head?_bind_eq_findSome? fun after mem => isSome_group_of_mem_ways mem,
    findSome?_sequence_cons, functionInner?_eq]
  simp only [findSome?_lead]
  cases heading : afterHeading? cs with
  | none =>
    refine List.findSome?_eq_none_iff.mpr fun after mem => ?_
    rw [exists_rest_heading_iff.mp ⟨after, mem, rfl⟩] at heading
    cases heading
  | some rest =>
    obtain ⟨after, mem, -⟩ := exists_rest_heading_iff.mpr heading
    refine findSome?_of_forall_eq (List.ne_nil_of_mem mem) fun after mem => ?_
    have same := exists_rest_heading_iff.mp ⟨after, mem, rfl⟩
    rw [heading] at same
    rw [Option.bind_some, Option.some.inj same]

/-- **The pattern finds what is recovered.** -/
theorem captured?_eq_expression? (source : String) : captured? source = expression? source := by
  have group := group_find?_accessorPattern source.toList
  simp only [captured?, expression?, Option.bind_eq_bind]
  rw [← Option.bind_assoc, group, Option.bind_map]
  rfl

/-! ## Recognition -/

/-- Sources that differ in their headings only have the same expression. -/
theorem expression?_eq_of_inner {source other : String} {h h' : Heading} {inner : List Char}
    (shape : trim source.toList = h.text ++ (inner ++ ['}']))
    (shape' : trim other.toList = h'.text ++ (inner ++ ['}'])) :
    expression? other = expression? source := by
  rw [expression?, expression?, functionInner?_eq_some_iff.mpr ⟨h, shape⟩,
    functionInner?_eq_some_iff.mpr ⟨h', shape'⟩]

/-- Any trimmed text is found behind a `return`. -/
theorem expression?_return (h : Heading) {e : String} (trimmed : Trimmed e.toList) :
    expression? (String.ofList (h.text ++ ("return ".toList ++ (e.toList ++ [';', '}'])))) =
      some e := by
  refine expression?_eq_some_iff.mpr ⟨h, ⟨[], "return ".toList, [], [';'], []⟩,
    ⟨trimmed, rfl, rfl, rfl, .inr ⟨[' '], rfl, by simp, rfl⟩, .inr rfl⟩, ?_⟩
  rw [Wrapping.text, Wrapping.behind, String.toList_ofList, trim, h.trimStart_append]
  generalize h.text = heading, "return ".toList = keyword
  have split : heading ++ (keyword ++ (e.toList ++ [';', '}'])) =
      (heading ++ (keyword ++ (e.toList ++ [';']))) ++ ['}'] := by
    simp
  rw [split, trimEnd_concat]
  simp [show isBlank '}' = false from rfl]

/-- **Recognition of accessors.** The pattern finds what is recovered. That is an expression exactly
if the source, trimmed, is a heading, the expression with what may stand around it and a brace. The
heading has no part in it, and neither has what the expression is made of. -/
theorem recognised_iff_shaped (source e : String) :
    captured? source = expression? source ∧
      (expression? source = some e ↔ ∃ (h : Heading) (w : Wrapping), w.Fits e.toList ∧
        trim source.toList = h.text ++ (w.text e.toList ++ ['}'])) ∧
      (∀ (other : String) (h h' : Heading) (inner : List Char),
        trim source.toList = h.text ++ (inner ++ ['}']) →
          trim other.toList = h'.text ++ (inner ++ ['}']) →
            expression? other = expression? source) ∧
      ∀ h : Heading, Trimmed e.toList →
        expression? (String.ofList (h.text ++ ("return ".toList ++ (e.toList ++ [';', '}'])))) =
          some e :=
  ⟨captured?_eq_expression? source, expression?_eq_some_iff,
    fun _ _ _ _ shape shape' => expression?_eq_of_inner shape shape',
    fun h trimmed => expression?_return h trimmed⟩

/-- A function with a name, whose expression has braces, semicolons and lines of its own, and one
without name and parameters. -/
theorem lines_and_braces_are_recognised :
    expression? "\n function f$1 (a, b) \x7b\n return \x7ba;\x7d\n ;; \x7d" = some "\x7ba;\x7d\n ;" ∧
      expression? "function()\x7b\n return \x7ba;\x7d\n ;; \x7d " = some "\x7ba;\x7d\n ;" := by
  have found : expression? "\n function f$1 (a, b) \x7b\n return \x7ba;\x7d\n ;; \x7d" =
      some "\x7ba;\x7d\n ;" := by
    cbv
  let named : Heading := ⟨[' '], ['f', '$', '1'], [' '], "a, b".toList, [' '], by decide, by decide,
    by decide, by decide, by decide⟩
  let bare : Heading := ⟨[], [], [], [], [], rfl, rfl, rfl, rfl, rfl⟩
  refine ⟨found, ?_⟩
  rw [← found]
  exact (recognised_iff_shaped _ "").2.2.1 _ named bare "\n return \x7ba;\x7d\n ;; ".toList rfl rfl

end TemplateCompiler.Accessor
