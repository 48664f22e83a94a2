import TemplateCompiler.Assembly.Options
import TemplateCompiler.Proofs.Json.Numbers

/-!
# Copies of values

A value is copied by writing it out and reading it back. The reader takes a limited number of
nested containers. Whether it comes to the end, and where it stops otherwise, can be told from the
value: it stops at the first container that has too many others around it.

## Main definitions

* `Json.Value.reread` — what a value is read as
* `Json.Value.tooDeep?` — the text in front of the first container that is too deep

## Main statements

* `Json.Value.tooDeep?_eq_none_iff` — no container is too deep in a value of small depth
* `Json.readValue_compact` — what comes of reading a value
* `Json.copyData_eq` — what comes of copying a data object
* `Json.get?_of_copyData`, `Json.keys_of_copyData` — what a copy holds
-/
namespace TemplateCompiler.Json

open Text

mutual

/-- What a value is read as. -/
def Value.reread : Value → Value
  | .number value => .number value.reread
  | .array items => .array (rereadItems items)
  | .object members => .object (rereadMembers [] members)
  | leaf => leaf

/-- What items are read as. -/
def rereadItems : List Value → List Value
  | [] => []
  | item :: rest => item.reread :: rereadItems rest

/-- What members are read as, after those before them. A key counts once. -/
def rereadMembers (soFar : List (String × Value)) : List (String × Value) → List (String × Value)
  | [] => soFar
  | (key, value) :: rest => rereadMembers (upsertEntry key (fun _ => value.reread) soFar) rest

end

mutual

/-- The text in front of the first container that does not belong to the given number of levels,
the last of which is not to be used. -/
def Value.tooDeep? (levels : Nat) : Value → Option (List Char)
  | .array items =>
    if levels ≤ 1 then some [] else (itemsTooDeep? (levels - 1) [] items).map ('[' :: ·)
  | .object members =>
    if levels ≤ 1 then some [] else (membersTooDeep? (levels - 1) [] members).map ('{' :: ·)
  | _ => none

/-- The same for items with commas between them; `lead` stands before the first one. -/
def itemsTooDeep? (levels : Nat) (lead : List Char) : List Value → Option (List Char)
  | [] => none
  | item :: rest =>
    match item.tooDeep? levels with
    | some front => some (lead ++ front)
    | none => (itemsTooDeep? levels [','] rest).map (lead ++ item.compact ++ ·)

/-- The same for members with commas between them; `lead` stands before the first one. -/
def membersTooDeep? (levels : Nat) (lead : List Char) : List (String × Value) → Option (List Char)
  | [] => none
  | (key, value) :: rest =>
    match value.tooDeep? levels with
    | some front => some (lead ++ quote key ++ ':' :: front)
    | none =>
      (membersTooDeep? levels [','] rest).map (lead ++ quote key ++ ':' :: value.compact ++ ·)

end

/-! ## Depth -/

mutual

/-- **No container is too deep in a value of small depth**, and in any other value one is. -/
theorem Value.tooDeep?_eq_none_iff : ∀ (value : Value) {levels : Nat}, 0 < levels →
    (value.tooDeep? levels = none ↔ value.depth < levels)
  | .null, levels, positive => by simpa [Value.tooDeep?, Value.depth] using positive
  | .bool _, levels, positive => by simpa [Value.tooDeep?, Value.depth] using positive
  | .number _, levels, positive => by simpa [Value.tooDeep?, Value.depth] using positive
  | .string _, levels, positive => by simpa [Value.tooDeep?, Value.depth] using positive
  | .array items, levels, positive => by
    rw [Value.tooDeep?, Value.depth]
    split
    · simp; omega
    · have fewer : 0 < levels - 1 := by omega
      have inner := itemsTooDeep?_eq_none_iff items [] fewer
      rw [Option.map_eq_none_iff, inner]
      omega
  | .object members, levels, positive => by
    rw [Value.tooDeep?, Value.depth]
    split
    · simp; omega
    · have fewer : 0 < levels - 1 := by omega
      have inner := membersTooDeep?_eq_none_iff members [] fewer
      rw [Option.map_eq_none_iff, inner]
      omega

theorem itemsTooDeep?_eq_none_iff : ∀ (items : List Value) (lead : List Char) {levels : Nat},
    0 < levels → (itemsTooDeep? levels lead items = none ↔ depthItems items < levels)
  | [], lead, levels, positive => by simpa [itemsTooDeep?, depthItems] using positive
  | item :: rest, lead, levels, positive => by
    have first := item.tooDeep?_eq_none_iff positive
    have others := itemsTooDeep?_eq_none_iff rest [','] positive
    rw [itemsTooDeep?, depthItems, Nat.max_lt, ← first, ← others]
    cases item.tooDeep? levels <;> simp

theorem membersTooDeep?_eq_none_iff : ∀ (members : List (String × Value)) (lead : List Char)
    {levels : Nat}, 0 < levels →
      (membersTooDeep? levels lead members = none ↔ depthMembers members < levels)
  | [], lead, levels, positive => by simpa [membersTooDeep?, depthMembers] using positive
  | (key, value) :: rest, lead, levels, positive => by
    have first := value.tooDeep?_eq_none_iff positive
    have others := membersTooDeep?_eq_none_iff rest [','] positive
    rw [membersTooDeep?, depthMembers, Nat.max_lt, ← first, ← others]
    cases value.tooDeep? levels <;> simp

end

/-! ## Places in the text -/

mutual

/-- What is in front of a container is the beginning of the text. -/
theorem Value.prefix_of_tooDeep? : ∀ (value : Value) {levels : Nat} {front : List Char},
    value.tooDeep? levels = some front → front <+: value.compact
  | .null, _, _, found | .bool _, _, _, found | .number _, _, _, found
  | .string _, _, _, found => by
    simp [Value.tooDeep?] at found
  | .array items, levels, front, found => by
    rw [Value.tooDeep?] at found
    split at found
    · cases found
      exact List.nil_prefix
    · obtain ⟨inner, deep, rfl⟩ := Option.map_eq_some_iff.mp found
      have inside := items_prefix_of_tooDeep? items [] deep
      rw [Value.compact]
      exact List.cons_prefix_cons.mpr ⟨rfl, inside.trans (List.prefix_append _ _)⟩
  | .object members, levels, front, found => by
    rw [Value.tooDeep?] at found
    split at found
    · cases found
      exact List.nil_prefix
    · obtain ⟨inner, deep, rfl⟩ := Option.map_eq_some_iff.mp found
      have inside := members_prefix_of_tooDeep? members [] deep
      rw [Value.compact]
      exact List.cons_prefix_cons.mpr ⟨rfl, inside.trans (List.prefix_append _ _)⟩

theorem items_prefix_of_tooDeep? : ∀ (items : List Value) (lead : List Char) {levels : Nat}
    {front : List Char}, itemsTooDeep? levels lead items = some front →
      front <+: compactItems lead items
  | [], _, _, _, found => by
    rw [itemsTooDeep?] at found
    cases found
  | item :: rest, lead, levels, front, found => by
    rw [itemsTooDeep?] at found
    rw [compactItems]
    split at found
    · next deep =>
      obtain rfl := Option.some.inj found
      have inside := item.prefix_of_tooDeep? deep
      exact (List.prefix_append_right_inj lead).mpr (inside.trans (List.prefix_append _ _))
    · obtain ⟨behind, deep, rfl⟩ := Option.map_eq_some_iff.mp found
      have inside := items_prefix_of_tooDeep? rest [','] deep
      rw [List.append_assoc]
      exact (List.prefix_append_right_inj lead).mpr
        ((List.prefix_append_right_inj item.compact).mpr inside)

theorem members_prefix_of_tooDeep? : ∀ (members : List (String × Value)) (lead : List Char)
    {levels : Nat} {front : List Char}, membersTooDeep? levels lead members = some front →
      front <+: compactMembers lead members
  | [], _, _, _, found => by
    rw [membersTooDeep?] at found
    cases found
  | (key, value) :: rest, lead, levels, front, found => by
    rw [membersTooDeep?] at found
    rw [compactMembers]
    split at found
    · next deep =>
      obtain rfl := Option.some.inj found
      have inside := value.prefix_of_tooDeep? deep
      rw [List.append_assoc]
      refine (List.prefix_append_right_inj lead).mpr ((List.prefix_append_right_inj _).mpr ?_)
      exact List.cons_prefix_cons.mpr ⟨rfl, inside.trans (List.prefix_append _ _)⟩
    · obtain ⟨behind, deep, rfl⟩ := Option.map_eq_some_iff.mp found
      have inside := members_prefix_of_tooDeep? rest [','] deep
      simp only [List.append_assoc, List.cons_append]
      refine (List.prefix_append_right_inj lead).mpr ((List.prefix_append_right_inj _).mpr ?_)
      exact List.cons_prefix_cons.mpr ⟨rfl, (List.prefix_append_right_inj _).mpr inside⟩

end

/-! ## The front of what is written -/

/-- Whether a number begins with the character. -/
def beginsNumber (c : Char) : Bool := c == '-' || c.isDigit

theorem Number.exists_chars_eq_cons (number : Number) :
    ∃ c more, number.chars = c :: more ∧ beginsNumber c = true := by
  rw [Number.chars, NumberText.chars, sign]
  split
  · exact ⟨'-', _, rfl, rfl⟩
  · obtain ⟨d, more, whole, digit⟩ := number.plain_text.whole.exists_cons
    rw [whole]
    exact ⟨d, _, rfl, Bool.or_eq_true_iff.mpr (.inr digit)⟩

theorem ne_of_beginsNumber {c other : Char} (begins : beginsNumber c = true)
    (differs : beginsNumber other = false) : c ≠ other := by
  rintro rfl
  rw [begins] at differs
  cases differs

theorem isBlank_of_beginsNumber {c : Char} (begins : beginsNumber c = true) :
    isBlank c = false := by
  have blank : c ≠ ' ' := ne_of_beginsNumber begins rfl
  have feed : c ≠ '\n' := ne_of_beginsNumber begins rfl
  have tab : c ≠ '\t' := ne_of_beginsNumber begins rfl
  have ret : c ≠ '\r' := ne_of_beginsNumber begins rfl
  simp [isBlank, blank, feed, tab, ret]

/-- A value begins neither with a blank nor with the end of an array. -/
theorem Value.exists_compact_eq_cons (value : Value) :
    ∃ c more, value.compact = c :: more ∧ isBlank c = false ∧ c ≠ ']' := by
  cases value with
  | null => exact ⟨_, _, rfl, rfl, by decide⟩
  | bool value => cases value <;> exact ⟨_, _, rfl, rfl, by decide⟩
  | string text => exact ⟨_, _, rfl, rfl, by decide⟩
  | array items => exact ⟨_, _, by rw [Value.compact], rfl, by decide⟩
  | object members => exact ⟨_, _, by rw [Value.compact], rfl, by decide⟩
  | number number =>
    obtain ⟨c, more, spelled, begins⟩ := number.exists_chars_eq_cons
    exact ⟨c, more, by rw [Value.compact, spelled], isBlank_of_beginsNumber begins,
      ne_of_beginsNumber begins rfl⟩

/-! ## Leaves and brackets -/

section Reading

variable {fuel levels : Nat} {rest : List Char}

theorem readValue_chars (number : Number) :
    readValue (fuel + 1) levels (number.chars ++ rest) =
      ((do pure (.number (← readNumber))) : Reader Value) (number.chars ++ rest) := by
  obtain ⟨c, more, spelled, begins⟩ := number.exists_chars_eq_cons
  rw [spelled, List.cons_append]
  have kind : c = '-' ∨ c.isDigit = true := by simpa [beginsNumber] using begins
  rw [readValue, bind_of_ok (peekAfterBlanks_cons (isBlank_of_beginsNumber begins) _)]
  have n : c ≠ 'n' := ne_of_beginsNumber begins rfl
  have t : c ≠ 't' := ne_of_beginsNumber begins rfl
  have f : c ≠ 'f' := ne_of_beginsNumber begins rfl
  have quotes : c ≠ '"' := ne_of_beginsNumber begins rfl
  have bracket : c ≠ '[' := ne_of_beginsNumber begins rfl
  have brace : c ≠ '{' := ne_of_beginsNumber begins rfl
  simp only [kind, if_true]

theorem readValue_number (number : Number) (ends : EndsNumber rest) :
    readValue (fuel + 1) levels (number.chars ++ rest) = .ok (.number number.reread, rest) := by
  rw [readValue_chars, bind_of_ok (readNumber_chars number ends)]
  rfl

theorem readValue_string (text : String) (enough : text.length < fuel + 1) :
    readValue (fuel + 1) levels (quote text ++ rest) = .ok (.string text, rest) := by
  rw [readValue, quote, List.cons_append, bind_of_ok (peekAfterBlanks_cons rfl _)]
  change (advance >>= fun _ => readString (fuel + 1) >>= _) _ = _
  rw [bind_of_ok (advance_cons _ _), List.append_assoc, List.singleton_append,
    bind_of_ok (readString_quote text rest enough)]
  rfl

theorem readValue_bracket :
    readValue (fuel + 1) levels ('[' :: rest) =
      if levels ≤ 1 then .error ⟨.tooDeep, '[' :: rest⟩
      else ((do pure (.array (← readElements (readValue fuel (levels - 1)) (fuel + 1) true))) :
        Reader Value) rest := by
  rw [readValue, bind_of_ok (peekAfterBlanks_cons rfl _)]
  change (if levels ≤ 1 then fault .tooDeep else _) _ = _
  split <;> rfl

/-- The value of a member, behind its key, is put with those before it. -/
def readMember (fuel levels : Nat) (key : String) (soFar : List (String × Value)) :
    Reader (List (String × Value)) := do
  readColon
  let value ← readValue fuel levels
  pure (upsertEntry key (fun _ => value) soFar)

theorem readMember_colon (key : String) (soFar : List (String × Value)) :
    readMember fuel levels key soFar (':' :: rest) =
      ((do
        let value ← readValue fuel levels
        pure (upsertEntry key (fun _ => value) soFar)) : Reader _) rest := by
  have colon : readColon (':' :: rest) = .ok ((), rest) := by
    rw [readColon, bind_of_ok (peekAfterBlanks_cons rfl _)]
    rfl
  rw [readMember, bind_of_ok colon]

theorem readValue_brace :
    readValue (fuel + 1) levels ('{' :: rest) =
      if levels ≤ 1 then .error ⟨.tooDeep, '{' :: rest⟩
      else ((do pure (.object (← readMembers (readMember fuel (levels - 1)) (fuel + 1) true []))) :
        Reader Value) rest := by
  rw [readValue, bind_of_ok (peekAfterBlanks_cons rfl _)]
  change (if levels ≤ 1 then fault .tooDeep else _) _ = _
  split <;> rfl

/-! ## Items and members -/

/-- What separates an item from those before it. -/
def separator (isFirst : Bool) : List Char := if isFirst then [] else [',']

@[simp] theorem separator_true : separator true = [] := rfl
@[simp] theorem separator_false : separator false = [','] := rfl

theorem readElements_end {α : Type} (item : Reader α) (isFirst : Bool) :
    readElements item (fuel + 1) isFirst (']' :: rest) = .ok ([], rest) := by
  rw [readElements, bind_of_ok (peekAfterBlanks_cons rfl _)]
  rfl

theorem readElements_next {α : Type} (item : Reader α) (isFirst : Bool) {c : Char}
    (solid : isBlank c = false) (more : c ≠ ']') :
    readElements item (fuel + 1) isFirst (separator isFirst ++ c :: rest) =
      ((do
        let value ← item
        pure (value :: (← readElements item fuel false))) : Reader (List α)) (c :: rest) := by
  rw [readElements]
  cases isFirst with
  | true =>
    rw [separator, if_pos rfl, List.nil_append, bind_of_ok (peekAfterBlanks_cons solid _)]
    simp only [more, if_false]
    rfl
  | false =>
    rw [separator, if_neg Bool.false_ne_true, List.singleton_append,
      bind_of_ok (peekAfterBlanks_cons rfl _)]
    change (advance >>= fun _ => peekAfterBlanks >>= _) _ = _
    rw [bind_of_ok (advance_cons _ _), bind_of_ok (peekAfterBlanks_cons solid _)]
    simp only

/-- An item is read once what separates it from those before it has been passed over. -/
theorem readElements_item {α : Type} (reader : Reader α) (isFirst : Bool) (item : Value) :
    readElements reader (fuel + 1) isFirst (separator isFirst ++ (item.compact ++ rest)) =
      ((do
        let value ← reader
        pure (value :: (← readElements reader fuel false))) : Reader (List α))
          (item.compact ++ rest) := by
  obtain ⟨c, more, begins, solid, ne⟩ := item.exists_compact_eq_cons
  rw [begins, List.cons_append]
  exact readElements_next reader isFirst solid ne

theorem readMembers_end {σ : Type} (member : String → σ → Reader σ) (isFirst : Bool) (soFar : σ) :
    readMembers member (fuel + 1) isFirst soFar ('}' :: rest) = .ok (soFar, rest) := by
  rw [readMembers, bind_of_ok (peekAfterBlanks_cons rfl _)]
  rfl

/-- A key is read once what is in front of it has been passed over. -/
theorem peek_quote {α : Type} {branch : Option Char → Reader α} (next : String → Reader α)
    (quoted : branch (some '"') = advance >>= fun _ => readString (fuel + 1) >>= next)
    {key : String} (enough : key.length < fuel + 1) :
    (peek >>= branch) (quote key ++ rest) = next key rest := by
  rw [quote, List.cons_append, List.append_assoc, List.singleton_append,
    bind_of_ok (peek_cons _ _), quoted, bind_of_ok (advance_cons _ _),
    bind_of_ok (readString_quote key rest enough)]

theorem readMembers_next {σ : Type} (member : String → σ → Reader σ) (isFirst : Bool) (soFar : σ)
    {key : String} (enough : key.length < fuel + 1) :
    readMembers member (fuel + 1) isFirst soFar (separator isFirst ++ (quote key ++ rest)) =
      (member key soFar >>= fun soFar => readMembers member fuel false soFar) rest := by
  rw [readMembers]
  cases isFirst with
  | true =>
    rw [separator_true, List.nil_append, quote, List.cons_append,
      bind_of_ok (peekAfterBlanks_cons rfl _)]
    exact peek_quote (fun key => member key soFar >>= readMembers member fuel false) rfl enough
  | false =>
    rw [separator_false, List.singleton_append, bind_of_ok (peekAfterBlanks_cons rfl _)]
    change (advance >>= fun _ => peekAfterBlanks >>= _) _ = _
    rw [bind_of_ok (advance_cons _ _), quote, List.cons_append,
      bind_of_ok (peekAfterBlanks_cons rfl _)]
    exact peek_quote (fun key => member key soFar >>= readMembers member fuel false) rfl enough

end Reading

/-! ## Values -/

/-- What comes of reading a text: a fault behind `front`, if there is such a place, and otherwise
the value and the rest. -/
def orTooDeep {α : Type} (text : List Char) (front? : Option (List Char)) (value : α)
    (rest : List Char) : Except Fault (α × List Char) :=
  match front? with
  | none => .ok (value, rest)
  | some front => .error ⟨.tooDeep, text.drop front.length⟩

theorem drop_length_append {α : Type} (lead front text : List α) :
    (lead ++ text).drop (lead ++ front).length = text.drop front.length := by
  rw [List.length_append, ← List.drop_drop, List.drop_left]

/-- A number ends before the next item or member, and before the end of its container. -/
theorem endsNumber_items (items : List Value) (rest : List Char) :
    EndsNumber (compactItems [','] items ++ ']' :: rest) := by
  cases items <;> simp [compactItems, EndsNumber, isNumberChar]

theorem endsNumber_members (members : List (String × Value)) (rest : List Char) :
    EndsNumber (compactMembers [','] members ++ '}' :: rest) := by
  cases members <;> simp [compactMembers, EndsNumber, isNumberChar]

/-- A string takes at least as many characters as its text. -/
theorem length_le_quote (text : String) : text.length ≤ (quote text).length := by
  have each (cs : List Char) : cs.length ≤ (cs.flatMap escape).length := by
    induction cs with
    | nil => exact Nat.le_refl 0
    | cons c cs ih =>
      have one : 1 ≤ (escape c).length := by
        rcases escape_cases c with ⟨letter, escaped, -⟩ | ⟨-, escaped⟩ | ⟨-, -, -, escaped⟩ <;>
          simp [escaped]
      rw [List.flatMap_cons, List.length_append, List.length_cons]
      omega
  have inside := each text.toList
  rw [String.length_toList] at inside
  rw [quote, List.length_cons, List.length_append]
  omega

/-- Every item takes a character. -/
theorem length_le_compactItems (lead : List Char) (items : List Value) :
    items.length ≤ (compactItems lead items).length := by
  induction items generalizing lead with
  | nil => exact Nat.zero_le _
  | cons item rest ih =>
    obtain ⟨c, more, begins, -⟩ := item.exists_compact_eq_cons
    have others := ih [',']
    simp only [compactItems, List.length_append, begins, List.length_cons]
    omega

mutual

/-- **What comes of reading a value.** -/
theorem readValue_compact : ∀ (value : Value) (fuel levels : Nat) (rest : List Char),
    value.compact.length < fuel → EndsNumber rest →
      readValue fuel levels (value.compact ++ rest) =
        orTooDeep (value.compact ++ rest) (value.tooDeep? levels) value.reread rest
  | value, 0, _, _, enough, _ => absurd enough (Nat.not_lt_zero _)
  | .null, fuel + 1, levels, rest, _, _ => by
    rw [readValue, Value.compact, List.cons_append, bind_of_ok (peekAfterBlanks_cons rfl _)]
    rfl
  | .bool true, fuel + 1, levels, rest, _, _ => by
    rw [readValue, Value.compact, List.cons_append, bind_of_ok (peekAfterBlanks_cons rfl _)]
    rfl
  | .bool false, fuel + 1, levels, rest, _, _ => by
    rw [readValue, Value.compact, List.cons_append, bind_of_ok (peekAfterBlanks_cons rfl _)]
    rfl
  | .number number, fuel + 1, levels, rest, _, ends => by
    rw [Value.compact, readValue_number number ends]
    rfl
  | .string text, fuel + 1, levels, rest, enough, _ => by
    rw [Value.compact] at enough ⊢
    rw [readValue_string text (Nat.lt_of_le_of_lt (length_le_quote text) enough)]
    rfl
  | .array items, fuel + 1, levels, rest, enough, _ => by
    rw [Value.compact, List.length_cons, List.length_append, List.length_singleton] at enough
    have count := length_le_compactItems [] items
    have inner := readElements_compact items fuel (levels - 1) (fuel + 1) true rest
      (by simpa using by omega) (by omega)
    simp only [separator_true] at inner
    rw [Value.compact, List.cons_append, List.append_assoc, List.singleton_append,
      readValue_bracket, Value.tooDeep?, Value.reread]
    split
    · rfl
    · cases deep : itemsTooDeep? (levels - 1) [] items with
      | none =>
        rw [deep] at inner
        rw [bind_of_ok inner]
        rfl
      | some front =>
        rw [deep] at inner
        rw [bind_of_error inner]
        rfl
  | .object members, fuel + 1, levels, rest, enough, _ => by
    rw [Value.compact, List.length_cons, List.length_append, List.length_singleton] at enough
    have inner := readMembers_compact members fuel (levels - 1) (fuel + 1) true [] rest
      (by simpa using by omega) (by simpa using by omega)
    simp only [separator_true] at inner
    rw [Value.compact, List.cons_append, List.append_assoc, List.singleton_append,
      readValue_brace, Value.tooDeep?, Value.reread]
    split
    · rfl
    · cases deep : membersTooDeep? (levels - 1) [] members with
      | none =>
        rw [deep] at inner
        rw [bind_of_ok inner]
        rfl
      | some front =>
        rw [deep] at inner
        rw [bind_of_error inner]
        rfl

theorem readElements_compact : ∀ (items : List Value) (fuel levels count : Nat) (isFirst : Bool)
    (rest : List Char),
      (compactItems (separator isFirst) items).length < fuel → items.length < count →
        readElements (readValue fuel levels) count isFirst
            (compactItems (separator isFirst) items ++ ']' :: rest) =
          orTooDeep (compactItems (separator isFirst) items ++ ']' :: rest)
            (itemsTooDeep? levels (separator isFirst) items) (rereadItems items) rest
  | items, _, _, 0, _, _, _, more => absurd more (Nat.not_lt_zero _)
  | [], fuel, levels, count + 1, isFirst, rest, _, _ => by
    rw [compactItems, List.nil_append, readElements_end]
    rfl
  | item :: others, fuel, levels, count + 1, isFirst, rest, enough, more => by
    simp only [compactItems, List.length_append] at enough
    have behind := readElements_compact others fuel levels count false rest
      (by simpa using by omega) (by simpa using more)
    have ends := endsNumber_items others rest
    rw [separator_false] at behind
    have text : compactItems (separator isFirst) (item :: others) ++ ']' :: rest =
        separator isFirst ++ (item.compact ++ (compactItems [','] others ++ ']' :: rest)) := by
      simp [compactItems]
    rw [text]
    generalize compactItems [','] others ++ ']' :: rest = tail at behind ends ⊢
    have first := readValue_compact item fuel levels tail (by omega) ends
    rw [readElements_item, itemsTooDeep?, rereadItems]
    cases deep : item.tooDeep? levels with
    | some front =>
      rw [deep] at first
      rw [bind_of_error first]
      simp only [orTooDeep, drop_length_append]
    | none =>
      rw [deep] at first
      rw [bind_of_ok first]
      cases later : itemsTooDeep? levels [','] others with
      | none =>
        rw [later] at behind
        rw [bind_of_ok behind]
        rfl
      | some front =>
        rw [later] at behind
        rw [bind_of_error behind]
        simp only [orTooDeep, Option.map_some, List.append_assoc, drop_length_append]

theorem readMembers_compact : ∀ (members : List (String × Value)) (fuel levels count : Nat)
    (isFirst : Bool) (soFar : List (String × Value)) (rest : List Char),
      (compactMembers (separator isFirst) members).length < fuel →
        (compactMembers (separator isFirst) members).length < count →
          readMembers (readMember fuel levels) count isFirst soFar
              (compactMembers (separator isFirst) members ++ '}' :: rest) =
            orTooDeep (compactMembers (separator isFirst) members ++ '}' :: rest)
              (membersTooDeep? levels (separator isFirst) members) (rereadMembers soFar members)
                rest
  | members, _, _, 0, _, _, _, _, more => absurd more (Nat.not_lt_zero _)
  | [], fuel, levels, count + 1, isFirst, soFar, rest, _, _ => by
    rw [compactMembers, List.nil_append, readMembers_end]
    rfl
  | (key, value) :: others, fuel, levels, count + 1, isFirst, soFar, rest, enough, more => by
    have keyLength := length_le_quote key
    simp only [compactMembers, List.length_append, List.length_cons] at enough more
    have behind := readMembers_compact others fuel levels count false
      (upsertEntry key (fun _ => value.reread) soFar) rest (by simpa using by omega)
      (by simpa using by omega)
    have ends := endsNumber_members others rest
    rw [separator_false] at behind
    have text : compactMembers (separator isFirst) ((key, value) :: others) ++ '}' :: rest =
        separator isFirst ++ (quote key ++
          (':' :: (value.compact ++ (compactMembers [','] others ++ '}' :: rest)))) := by
      simp [compactMembers]
    rw [text]
    generalize compactMembers [','] others ++ '}' :: rest = tail at behind ends ⊢
    have first := readValue_compact value fuel levels tail (by omega) ends
    rw [readMembers_next _ isFirst soFar (by omega), membersTooDeep?, rereadMembers]
    cases deep : value.tooDeep? levels with
    | some front =>
      rw [deep] at first
      have stops : readMember fuel levels key soFar (':' :: (value.compact ++ tail)) =
          .error ⟨.tooDeep, (value.compact ++ tail).drop front.length⟩ := by
        rw [readMember_colon, bind_of_error first]
      rw [bind_of_error stops]
      simp only [orTooDeep, List.append_assoc, drop_length_append, List.length_cons,
        List.drop_succ_cons]
    | none =>
      rw [deep] at first
      have goes : readMember fuel levels key soFar (':' :: (value.compact ++ tail)) =
          .ok (upsertEntry key (fun _ => value.reread) soFar, tail) := by
        rw [readMember_colon, bind_of_ok first]
        rfl
      rw [bind_of_ok goes, behind]
      cases membersTooDeep? levels [','] others with
      | none => rfl
      | some front =>
        simp only [orTooDeep, Option.map_some, List.append_assoc, drop_length_append,
          List.cons_append, List.length_cons, List.drop_succ_cons]

end

/-! ## Copies -/

/-- The byte column, counted from one, at which reading a data object stops. -/
def copyColumn? (data : OrderedMap Value) : Option Nat :=
  ((Value.object data.entries).tooDeep? copyDepth).map fun front => byteLength front + 1

theorem copyColumn?_eq_none_iff (data : OrderedMap Value) :
    copyColumn? data = none ↔ (Value.object data.entries).depth < copyDepth := by
  rw [copyColumn?, Option.map_eq_none_iff, Value.tooDeep?_eq_none_iff _ (by decide)]

/-- **What comes of copying a data object.** -/
theorem copyData_eq (data : OrderedMap Value) :
    copyData data =
      match copyColumn? data with
      | none => .ok (.ofList (rereadMembers [] data.entries))
      | some column => .error column := by
  have read := readValue_compact (.object data.entries)
    (fuelFor (Value.object data.entries).compact) copyDepth [] (Nat.lt_succ_self _) rfl
  rw [List.append_nil] at read
  rw [copyData, copyColumn?, parse, parseWith, read]
  cases deep : (Value.object data.entries).tooDeep? copyDepth with
  | none => rfl
  | some front =>
    obtain ⟨behind, whole⟩ := Value.prefix_of_tooDeep? _ deep
    simp only [orTooDeep, Option.map_some, ← whole, List.drop_left, byteLength_append]
    congr 1
    omega

variable {data copy : OrderedMap Value}

/-- Members with distinct keys are read back one by one. -/
theorem rereadMembers_eq {soFar members : List (String × Value)}
    (nodup : (entryKeys (soFar ++ members)).Nodup) :
    rereadMembers soFar members =
      soFar ++ members.map fun member => (member.1, member.2.reread) := by
  induction members generalizing soFar with
  | nil => rw [rereadMembers, List.map_nil, List.append_nil]
  | cons member rest ih =>
    have new : member.1 ∉ entryKeys soFar := by
      rw [entryKeys, List.map_append, List.nodup_append] at nodup
      intro mem
      exact nodup.2.2 _ mem _ List.mem_cons_self rfl
    have distinct : (entryKeys ((soFar ++ [(member.1, member.2.reread)]) ++ rest)).Nodup := by
      simpa [entryKeys] using nodup
    rw [rereadMembers, upsertEntry_of_not_mem new, ih distinct, List.map_cons, List.append_assoc]
    rfl

/-- **A copy has the entries of the data object**, with the values as they are read back. -/
theorem entries_of_copyData (ok : copyData data = .ok copy) :
    copy.entries = data.entries.map fun entry => (entry.1, entry.2.reread) := by
  rw [copyData_eq] at ok
  split at ok
  · obtain rfl := Except.ok.inj ok
    have reread : rereadMembers [] data.entries =
        data.entries.map fun entry => (entry.1, entry.2.reread) :=
      rereadMembers_eq data.nodup_keys
    rw [reread, OrderedMap.entries_ofList]
    simpa [entryKeys, Function.comp_def] using data.nodup_keys
  · cases ok

theorem keys_of_copyData (ok : copyData data = .ok copy) : copy.keys = data.keys := by
  rw [OrderedMap.keys, entries_of_copyData ok, entryKeys, List.map_map]
  rfl

theorem get?_of_copyData (ok : copyData data = .ok copy) (key : String) :
    copy.get? key = (data.get? key).map Value.reread := by
  rw [OrderedMap.get?, OrderedMap.get?, entries_of_copyData ok]
  induction data.entries with
  | nil => rfl
  | cons entry rest ih =>
    rw [List.map_cons, lookupEntry, lookupEntry, ih]
    split <;> rfl

end TemplateCompiler.Json
