import TemplateCompiler.OrderedMap
import TemplateCompiler.Toml.Moment

/-!
# TOML documents

The tree that a TOML document spells. Tables remember how they came about, because that decides
whether they may still be extended: a table with a header of its own may not get a second one, one
made by a dotted key may only be extended by dotted keys, and an inline table is closed.

## Main definitions

* `Toml.Origin`, `Toml.Node` — the tree
* `Toml.openTable?`, `Toml.appendTable?` — what a header does
* `Toml.insert?` — what a key and a value do
-/
namespace TemplateCompiler.Toml

/-- How a table came about. -/
inductive Origin where
  /-- It is the document itself or has a header. -/
  | header
  /-- The header of a table inside it mentions it. -/
  | mentioned
  /-- A dotted key mentions it. -/
  | dotted
  /-- It stands between braces. -/
  | inline
  deriving DecidableEq, Repr

/-- A value in a document. -/
inductive Node where
  | text (value : String)
  | integer (value : Int)
  | boolean (value : Bool)
  /-- A float, whose value nothing here makes use of. -/
  | float
  | moment (value : Moment)
  | array (items : List Node)
  | table (origin : Origin) (entries : List (String × Node))
  /-- Tables under one header with double brackets. -/
  | tables (elements : List (List (String × Node)))
  deriving Repr, Inhabited

/-- The entries of a table, in order. -/
abbrev Entries := List (String × Node)

/-- Change the last element of a list that has one. -/
def changeLast? {α : Type} (f : α → Option α) (elements : List α) : Option (List α) :=
  match elements.reverse with
  | [] => none
  | last :: before => (f last).map fun changed => (changed :: before).reverse

/-- Put a value under a key, in its place if it has one. -/
def put (key : String) (node : Node) (entries : Entries) : Entries :=
  upsertEntry key (fun _ => node) entries

/-- Go down to the table at a path from a header, making tables that are missing, and change its
entries. A path leads through the last table of several. -/
def changeAt? (f : Entries → Option Entries) : (path : List String) → Entries → Option Entries
  | [], entries => f entries
  | key :: path, entries =>
    match lookupEntry key entries with
    | none => do pure (put key (.table .mentioned (← changeAt? f path [])) entries)
    | some (.table .inline _) => none
    | some (.table origin inner) => do
      pure (put key (.table origin (← changeAt? f path inner)) entries)
    | some (.tables elements) => do
      pure (put key (.tables (← changeLast? (changeAt? f path) elements)) entries)
    | some _ => none

/-- Give a table a header of its own. -/
def openLast? (key : String) (entries : Entries) : Option Entries :=
  match lookupEntry key entries with
  | none => some (put key (.table .header []) entries)
  | some (.table .mentioned inner) =>
    some (entries.filter (fun entry => entry.1 != key) ++ [(key, .table .header inner)])
  | some _ => none

/-- Begin another one of several tables. -/
def appendLast? (key : String) (entries : Entries) : Option Entries :=
  match lookupEntry key entries with
  | none => some (put key (.tables [[]]) entries)
  | some (.tables elements) => some (put key (.tables (elements ++ [[]])) entries)
  | some _ => none

/-- The header of a table. -/
def openTable? (path : List String) (key : String) (document : Entries) : Option Entries :=
  changeAt? (openLast? key) path document

/-- The header of one of several tables. -/
def appendTable? (path : List String) (key : String) (document : Entries) : Option Entries :=
  changeAt? (appendLast? key) path document

/-- Put a value under a dotted key of a table. The tables on the way to it have to be made by
dotted keys, too; `inDotted` says whether the present one is. -/
def insertDotted? (value : Node) (key : String) : (path : List String) → (isInner : Bool) →
    (inDotted : Bool) → Entries → Option Entries
  | [], isInner, inDotted, entries =>
    if isInner && !inDotted then none
    else
      match lookupEntry key entries with
      | none => some (entries ++ [(key, value)])
      | some _ => none
  | step :: path, _, _, entries =>
    match lookupEntry step entries with
    | none => do
      pure (put step (.table .dotted (← insertDotted? value key path true true [])) entries)
    | some (.table .dotted inner) => do
      pure (put step (.table .dotted (← insertDotted? value key path true true inner)) entries)
    | some (.table .mentioned inner) => do
      pure (put step (.table .mentioned (← insertDotted? value key path true false inner)) entries)
    | some (.tables elements) => do
      pure (put step
        (.tables (← changeLast? (insertDotted? value key path true false) elements)) entries)
    | some _ => none

/-- Put a value under a dotted key of the table that the last header opened. -/
def insert? (table : List String) (path : List String) (key : String) (value : Node)
    (document : Entries) : Option Entries :=
  changeAt? (insertDotted? value key path false false) table document

end TemplateCompiler.Toml
