import TxLoad.Binary64.Basic

/-! # The tree of a settings document

A table comes about in three ways: by a header, by a dotted key, or on the way to another table.
One that came about on the way may get its own header later; one of a dotted key may be extended by
dotted keys only, and one with a header not at all. A table between braces is closed.
-/

namespace TxLoad.Toml

mutual

inductive Node
  | string (text : String)
  | integer (n : Int)
  | real (x : Binary64)
  | boolean (value : Bool)
  /-- A date, a time of day, or both. -/
  | moment
  | array (items : List Node)
  /-- A table between braces. -/
  | record (entries : List (String × Node))
  | table (t : Table)
  /-- The tables of one repeated header. -/
  | tables (elements : List Table)

/-- A table, with how it came about. -/
inductive Table
  | mk (implied dotted : Bool) (entries : List (String × Node))

end

namespace Table

def implied : Table → Bool
  | .mk implied _ _ => implied

def dotted : Table → Bool
  | .mk _ dotted _ => dotted

def entries : Table → List (String × Node)
  | .mk _ _ entries => entries

/-- A table with a header, or the document itself. -/
def empty : Table := .mk false false []

instance : Inhabited Table := ⟨empty⟩

def get? (t : Table) (key : String) : Option Node := t.entries.lookup key

/-- The table with a new value for a key. -/
def put (t : Table) (key : String) (node : Node) : Table :=
  .mk t.implied t.dotted (t.entries.filter (·.1 ≠ key) ++ [(key, node)])

/-- Changes the table that a path leads to; tables that are missing on the way come about. Of the
tables of a repeated header the last one is meant. A dotted path may not enter a table with a
header. -/
def update (byDots : Bool) (change : Table → Option Table) : List String → Table → Option Table
  | [], t => change t
  | key :: path, t =>
    match t.get? key with
    | none => do
      let child ← update byDots change path (.mk true byDots [])
      return t.put key (.table child)
    | some (.table child) =>
      if byDots && !child.implied then none
      else do
        let child ← update byDots change path child
        return t.put key (.table child)
    | some (.tables elements) =>
      match elements.getLast? with
      | none => none
      | some last => do
        let last ← update byDots change path last
        return t.put key (.tables (elements.dropLast ++ [last]))
    | some _ => none

/-- Adds a value under a dotted key. The key must be new, and the table at the end of the path must
have come about by dots exactly if there is a path. -/
def insert (path : List String) (key : String) (node : Node) (t : Table) : Option Table :=
  t.update true
    (fun target =>
      if target.dotted = path.isEmpty || (target.get? key).isSome then none
      else some (target.put key node))
    path

/-- The table of a header: a new one, or one that came about on the way. -/
def openTable (key : String) (parent : Table) : Option Table :=
  match parent.get? key with
  | none => some (parent.put key (.table empty))
  | some (.table t) =>
    if t.implied && !t.dotted then some (parent.put key (.table (.mk false false t.entries)))
    else none
  | some _ => none

/-- One more table of a repeated header. -/
def openElement (key : String) (parent : Table) : Option Table :=
  match parent.get? key with
  | none => some (parent.put key (.tables [empty]))
  | some (.tables elements) => some (parent.put key (.tables (elements ++ [empty])))
  | some _ => none

/-- The table between braces with these pairs. -/
def ofPairs (pairs : List (List String × String × Node)) : Option Table :=
  pairs.foldlM (fun t (path, key, node) => t.insert path key node) empty

end Table

end TxLoad.Toml
