import TemplateCompiler.Proofs.Json.Copying

/-!
# Indented text

Indented text has blanks in front of every item and member, behind every colon and in front of the
closing brackets. Readers pass over them. So a container is read if what is in it is read, piece by
piece, whatever follows.

## Main definitions

* `Json.Reads` — a reader takes a text and returns a value
* `Json.SkipsBlanks` — a reader passes over blanks in front
* `Json.ReadsEach` — members that are read one after the other

## Main statements

* `Json.reads_insideArray` — the items of an array
* `Json.reads_insideObject` — the members of an object
-/
namespace TemplateCompiler.Json

/-! ## Readers and what they take -/

section Reads

variable {α β σ : Type} {reader : Reader α} {text more blanks : List Char} {value : α}

/-- The reader takes the text and returns the value, whatever follows. -/
def Reads (reader : Reader α) (text : List Char) (value : α) : Prop :=
  ∀ rest, reader (text ++ rest) = .ok (value, rest)

/-- The reader passes over blanks in front of what it reads. -/
def SkipsBlanks (reader : Reader α) : Prop :=
  ∀ blanks text, blanks.all isBlank = true → reader (blanks ++ text) = reader text

theorem Reads.pure (value : α) : Reads (pure value) [] value := fun _ => rfl

theorem Reads.bind {next : α → Reader β} {result : β} (first : Reads reader text value)
    (second : Reads (next value) more result) : Reads (reader >>= next) (text ++ more) result := by
  intro rest
  rw [List.append_assoc, bind_of_ok (first _)]
  exact second rest

/-- What goes on without taking anything. -/
theorem Reads.bind_nil {next : α → Reader β} {result : β} (first : Reads reader text value)
    (second : Reads (next value) [] result) : Reads (reader >>= next) text result := by
  have both := first.bind second
  rwa [List.append_nil] at both

theorem Reads.bind_pure (f : α → β) (reads : Reads reader text value) :
    Reads (reader >>= fun value => Pure.pure (f value)) text (f value) :=
  reads.bind_nil (Reads.pure (f value))

/-- A character that is taken without being looked at. -/
theorem Reads.advance (c : Char) : Reads advance [c] () := fun _ => rfl

theorem skipsBlanks_peek (next : Option Char → Reader α) :
    SkipsBlanks (peekAfterBlanks >>= next) := by
  intro blanks text blank
  have same : peekAfterBlanks (blanks ++ text) = peekAfterBlanks text := by
    rw [peekAfterBlanks, List.dropWhile_append_of_pos (List.all_eq_true.mp blank)]
    rfl
  exact congrArg (· >>= fun peeked => next peeked.1 peeked.2) same

theorem SkipsBlanks.bind (skips : SkipsBlanks reader) (next : α → Reader β) :
    SkipsBlanks (reader >>= next) := by
  intro blanks text blank
  exact congrArg (· >>= fun read => next read.1 read.2) (skips blanks text blank)

theorem SkipsBlanks.reads (skips : SkipsBlanks reader) (blank : blanks.all isBlank = true)
    (reads : Reads reader text value) : Reads reader (blanks ++ text) value := by
  intro rest
  rw [List.append_assoc, skips _ _ blank]
  exact reads rest

/-- The next character decides what is read. -/
theorem Reads.dispatch {branch : Option Char → Reader α} {c : Char} (solid : isBlank c = false)
    (reads : Reads (branch (some c)) (c :: text) value) :
    Reads (peekAfterBlanks >>= branch) (c :: text) value := by
  intro rest
  rw [List.cons_append, bind_of_ok (peekAfterBlanks_cons solid _)]
  exact reads rest

theorem reads_colon : Reads readColon [':'] () := .dispatch rfl (.advance ':')

/-- The value of a member: behind a colon and a blank. -/
theorem SkipsBlanks.reads_colon (skips : SkipsBlanks reader) (reads : Reads reader text value) :
    Reads (readColon >>= fun _ => reader) (':' :: ' ' :: text) value := by
  have blank : [' '].all isBlank = true := rfl
  exact Json.reads_colon.bind (skips.reads blank reads)

theorem reads_string {fuel : Nat} (string : String) (enough : (quote string).length < fuel) :
    Reads (advance >>= fun _ => readString fuel) (quote string) string := by
  have inside : Reads (readString fuel) (string.toList.flatMap escape ++ ['"']) string := by
    intro rest
    rw [List.append_assoc]
    exact readString_quote string rest (Nat.lt_of_le_of_lt (length_le_quote string) enough)
  exact (Reads.advance '"').bind inside

end Reads

/-! ## Blanks between items and members -/

section Separators

variable {blanks : List Char} {fuel : Nat}

theorem advance_blanks {α : Type} (next : Option Char → Reader α)
    (blank : blanks.all isBlank = true) (c : Char) (text : List Char) :
    (advance >>= fun _ => peekAfterBlanks >>= next) (c :: (blanks ++ text)) =
      (advance >>= fun _ => peekAfterBlanks >>= next) (c :: text) := by
  rw [bind_of_ok (advance_cons _ _), bind_of_ok (advance_cons _ _)]
  exact skipsBlanks_peek next _ _ blank

/-- Blanks in front of an item are passed over. -/
theorem readElements_blanks {α : Type} (item : Reader α) (isFirst : Bool)
    (blank : blanks.all isBlank = true) (text : List Char) :
    readElements item (fuel + 1) isFirst (separator isFirst ++ (blanks ++ text)) =
      readElements item (fuel + 1) isFirst (separator isFirst ++ text) := by
  cases isFirst with
  | true => exact skipsBlanks_peek _ _ _ blank
  | false =>
    -- the blanks are behind the comma, where the reader looks a second time
    simp only [readElements, separator_false, List.singleton_append]
    rw [bind_of_ok (peekAfterBlanks_cons rfl _), bind_of_ok (peekAfterBlanks_cons rfl _)]
    exact advance_blanks _ blank _ _

/-- Blanks in front of a member are passed over. -/
theorem readMembers_blanks {σ : Type} (member : String → σ → Reader σ) (isFirst : Bool) (soFar : σ)
    (blank : blanks.all isBlank = true) (text : List Char) :
    readMembers member (fuel + 1) isFirst soFar (separator isFirst ++ (blanks ++ text)) =
      readMembers member (fuel + 1) isFirst soFar (separator isFirst ++ text) := by
  cases isFirst with
  | true => exact skipsBlanks_peek _ _ _ blank
  | false =>
    simp only [readMembers, separator_false, List.singleton_append]
    rw [bind_of_ok (peekAfterBlanks_cons rfl _), bind_of_ok (peekAfterBlanks_cons rfl _)]
    exact advance_blanks _ blank _ _

end Separators

/-! ## The front of indented text -/

theorem isBlank_newLine (level : Nat) : (newLine level).all isBlank = true := by
  simp [newLine, isBlank]

/-- The items of an array behind the opening bracket, and the closing one. -/
def insideArray (level : Nat) : List Value → List Char
  | [] => [']']
  | item :: rest =>
    newLine (level + 1) ++ (item.indented (level + 1) ++
      (indentedItems level rest ++ (newLine level ++ [']'])))

/-- The members of an object behind the opening brace, and the closing one. -/
def insideObject (level : Nat) : List (String × Value) → List Char
  | [] => ['}']
  | (key, value) :: rest =>
    newLine (level + 1) ++ (quote key ++ (':' :: ' ' :: value.indented (level + 1) ++
      (indentedMembers level rest ++ (newLine level ++ ['}']))))

theorem indented_array (level : Nat) (items : List Value) :
    (Value.array items).indented level = '[' :: insideArray level items := by
  cases items <;> simp [Value.indented, insideArray]

theorem indented_object (level : Nat) (members : List (String × Value)) :
    (Value.object members).indented level = '{' :: insideObject level members := by
  cases members <;> simp [Value.indented, insideObject]

/-- A value begins neither with a blank nor with the end of an array. -/
theorem Value.exists_indented_eq_cons (value : Value) (level : Nat) :
    ∃ c more, value.indented level = c :: more ∧ isBlank c = false ∧ c ≠ ']' := by
  cases value with
  | array items => exact ⟨_, _, indented_array level items, rfl, by decide⟩
  | object members => exact ⟨_, _, indented_object level members, rfl, by decide⟩
  | null => exact Value.null.exists_compact_eq_cons
  | bool value => cases value <;> exact ⟨_, _, rfl, rfl, by decide⟩
  | string text => exact (Value.string text).exists_compact_eq_cons
  | number number => exact (Value.number number).exists_compact_eq_cons

/-! ## Lengths -/

section Lengths

variable {items : List Value} {members : List (String × Value)}

theorem length_indentedItems_lt (level : Nat) (items : List Value) :
    (indentedItems level items).length < (insideArray level items).length := by
  cases items with
  | nil => exact Nat.one_pos
  | cons item rest =>
    simp only [indentedItems, insideArray, newLine, List.length_cons, List.length_append]
    omega

theorem length_indentedMembers_lt (level : Nat) (members : List (String × Value)) :
    (indentedMembers level members).length < (insideObject level members).length := by
  cases members with
  | nil => exact Nat.one_pos
  | cons member rest =>
    simp only [indentedMembers, insideObject, newLine, List.length_cons, List.length_append]
    omega

theorem length_le_indentedItems (level : Nat) (items : List Value) :
    items.length ≤ (indentedItems level items).length := by
  induction items with
  | nil => exact Nat.le_refl 0
  | cons item rest ih =>
    simp only [indentedItems, List.length_cons, List.length_append]
    omega

/-- An item is shorter than the array around it. -/
theorem length_item_lt (level : Nat) {item : Value} (mem : item ∈ items) :
    (item.indented (level + 1)).length < (insideArray level items).length := by
  refine Nat.lt_of_le_of_lt ?_ (length_indentedItems_lt level items)
  induction mem with
  | head rest =>
    simp only [indentedItems, List.length_cons, List.length_append]
    omega
  | tail other _ ih =>
    simp only [indentedItems, List.length_cons, List.length_append]
    omega

/-- The value of a member is shorter than the object around it. -/
theorem length_member_lt (level : Nat) {member : String × Value} (mem : member ∈ members) :
    (member.2.indented (level + 1)).length < (insideObject level members).length := by
  refine Nat.lt_of_le_of_lt ?_ (length_indentedMembers_lt level members)
  induction mem with
  | head rest =>
    simp only [indentedMembers, List.length_cons, List.length_append]
    omega
  | tail other _ ih =>
    simp only [indentedMembers, List.length_cons, List.length_append]
    omega

end Lengths

/-! ## Items -/

section Items

variable {α : Type} {reader : Reader α} {blanks text more : List Char} {value : α}
  {items : List Value} {values : List α} {fuel level : Nat}

theorem Reads.items_end (reader : Reader α) (isFirst : Bool) (blank : blanks.all isBlank = true) :
    Reads (readElements reader (fuel + 1) isFirst) (blanks ++ [']']) [] := by
  have skips : SkipsBlanks (readElements reader (fuel + 1) isFirst) := skipsBlanks_peek _
  exact skips.reads blank fun _ => readElements_end reader isFirst

/-- An item behind what separates it from those before it, and the items behind it. -/
theorem Reads.items_next (isFirst : Bool) (blank : blanks.all isBlank = true)
    (begins : ∃ c more, text = c :: more ∧ isBlank c = false ∧ c ≠ ']')
    (first : Reads reader text value)
    (others : Reads (readElements reader fuel false) more values) :
    Reads (readElements reader (fuel + 1) isFirst)
      (separator isFirst ++ (blanks ++ (text ++ more))) (value :: values) := by
  intro rest
  obtain ⟨c, behind, rfl, solid, ne⟩ := begins
  have here := first (more ++ rest)
  rw [List.cons_append] at here
  rw [List.append_assoc, List.append_assoc, List.append_assoc,
    readElements_blanks reader isFirst blank, List.cons_append,
    readElements_next reader isFirst solid ne, bind_of_ok here]
  exact others.bind_pure (value :: ·) rest

/-- The items behind the first one. -/
theorem reads_indentedItems
    (each : List.Forall₂ (fun item value => Reads reader (item.indented (level + 1)) value) items
      values) (enough : items.length < fuel) :
    Reads (readElements reader fuel false) (indentedItems level items ++ (newLine level ++ [']']))
      values := by
  induction each generalizing fuel with
  | nil =>
    obtain ⟨fuel, rfl⟩ := Nat.exists_eq_succ_of_ne_zero (Nat.ne_zero_of_lt enough)
    exact .items_end reader false (isBlank_newLine level)
  | cons first _ ih =>
    obtain ⟨fuel, rfl⟩ := Nat.exists_eq_succ_of_ne_zero (Nat.ne_zero_of_lt enough)
    have others := ih (Nat.lt_of_succ_lt_succ enough)
    have next := first.items_next false (isBlank_newLine (level + 1))
      (Value.exists_indented_eq_cons _ _) others
    simpa [indentedItems] using next

/-- **An array is read item by item.** Every item is shorter than the whole. -/
theorem reads_insideArray (enough : ((Value.array items).indented level).length < fuel)
    (reads : (∀ item ∈ items, (item.indented (level + 1)).length < fuel) →
      List.Forall₂ (fun item value => Reads reader (item.indented (level + 1)) value) items
        values) :
    Reads (readElements reader fuel true) (insideArray level items) values := by
  rw [indented_array, List.length_cons] at enough
  have count := length_le_indentedItems level items
  have less := length_indentedItems_lt level items
  have each := reads fun item mem => (length_item_lt level mem).trans (by omega)
  obtain ⟨fuel, rfl⟩ := Nat.exists_eq_succ_of_ne_zero (Nat.ne_zero_of_lt enough)
  cases each with
  | nil =>
    have blank : ([] : List Char).all isBlank = true := rfl
    exact .items_end reader true blank
  | @cons _ _ rest _ first others =>
    have fewer : rest.length < fuel := by
      rw [List.length_cons] at count
      omega
    exact first.items_next true (isBlank_newLine (level + 1))
      (Value.exists_indented_eq_cons _ _) (reads_indentedItems others fewer)

end Items

/-! ## Members -/

/-- Members that are read one after the other, each of them from its colon on. -/
inductive ReadsEach {σ : Type} (member : String → σ → Reader σ) (level : Nat) :
    (soFar : σ) → List (String × Value) → (final : σ) → Prop where
  | nil (soFar : σ) : ReadsEach member level soFar [] soFar
  | cons {key : String} {value : Value} {rest : List (String × Value)} {soFar after final : σ} :
    Reads (member key soFar) (':' :: ' ' :: value.indented level) after →
      ReadsEach member level after rest final →
        ReadsEach member level soFar ((key, value) :: rest) final

section Members

variable {σ : Type} {member : String → σ → Reader σ} {blanks text more : List Char}
  {key : String} {soFar after final : σ} {members : List (String × Value)} {fuel level : Nat}

theorem Reads.members_end (member : String → σ → Reader σ) (isFirst : Bool) (soFar : σ)
    (blank : blanks.all isBlank = true) :
    Reads (readMembers member (fuel + 1) isFirst soFar) (blanks ++ ['}']) soFar := by
  have skips : SkipsBlanks (readMembers member (fuel + 1) isFirst soFar) := skipsBlanks_peek _
  exact skips.reads blank fun _ => readMembers_end member isFirst soFar

/-- A member behind what separates it from those before it, and the members behind it. -/
theorem Reads.members_next (isFirst : Bool) (blank : blanks.all isBlank = true)
    (enough : key.length < fuel + 1) (first : Reads (member key soFar) text after)
    (others : Reads (readMembers member fuel false after) more final) :
    Reads (readMembers member (fuel + 1) isFirst soFar)
      (separator isFirst ++ (blanks ++ (quote key ++ (text ++ more)))) final := by
  intro rest
  rw [List.append_assoc, List.append_assoc, readMembers_blanks member isFirst soFar blank,
    List.append_assoc, readMembers_next member isFirst soFar enough]
  exact first.bind others rest

/-- The members behind the first one. -/
theorem reads_indentedMembers (each : ReadsEach member (level + 1) soFar members final)
    (enough : (indentedMembers level members).length < fuel) :
    Reads (readMembers member fuel false soFar)
      (indentedMembers level members ++ (newLine level ++ ['}'])) final := by
  induction each generalizing fuel with
  | nil soFar =>
    obtain ⟨fuel, rfl⟩ := Nat.exists_eq_succ_of_ne_zero (Nat.ne_zero_of_lt enough)
    exact .members_end member false soFar (isBlank_newLine level)
  | @cons key value rest soFar after final first _ ih =>
    obtain ⟨fuel, rfl⟩ := Nat.exists_eq_succ_of_ne_zero (Nat.ne_zero_of_lt enough)
    -- the fuel that is left bounds the key, too, so it has to exceed the text and not the count
    have keyLength := length_le_quote key
    simp only [indentedMembers, List.length_cons, List.length_append] at enough
    have short : key.length < fuel + 1 := by omega
    have next := first.members_next false (isBlank_newLine (level + 1)) short (ih (by omega))
    simpa [indentedMembers] using next

/-- **An object is read member by member.** Every member is shorter than the whole. -/
theorem reads_insideObject (enough : ((Value.object members).indented level).length < fuel)
    (reads : (∀ entry ∈ members, (entry.2.indented (level + 1)).length < fuel) →
      ReadsEach member (level + 1) soFar members final) :
    Reads (readMembers member fuel true soFar) (insideObject level members) final := by
  rw [indented_object, List.length_cons] at enough
  have each := reads fun entry mem => (length_member_lt level mem).trans (by omega)
  obtain ⟨fuel, rfl⟩ := Nat.exists_eq_succ_of_ne_zero (Nat.ne_zero_of_lt enough)
  cases each with
  | nil =>
    have blank : ([] : List Char).all isBlank = true := rfl
    exact .members_end member true soFar blank
  | @cons key value rest _ after _ first others =>
    have keyLength := length_le_quote key
    simp only [insideObject, List.length_cons, List.length_append] at enough
    have fewer : (indentedMembers level rest).length < fuel := by omega
    have short : key.length < fuel + 1 := by omega
    exact first.members_next true (isBlank_newLine (level + 1)) short
      (reads_indentedMembers others fewer)

end Members

end TemplateCompiler.Json
