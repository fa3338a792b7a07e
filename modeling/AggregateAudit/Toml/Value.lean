/-!
# TOML values and documents

A TOML value, and the tables of a document while it is being read.  A table of a
document may grow at several places, so it remembers how it came to be: a table
that was only walked through by a longer header is *implicit* and may still get a
header of its own, and a table made by a dotted key is *dotted* and may grow by
dotted keys only.  `Item.reach` is the one way into such tables; what it refuses
is exactly what makes a document contradict itself.
-/

namespace AggregateAudit
namespace Toml

/-- A TOML value.  Floating-point numbers and dates keep their text only. -/
inductive Value where
  | string (s : String)
  | integer (n : Int)
  | float (text : String)
  | boolean (b : Bool)
  | datetime (text : String)
  | array (items : List Value)
  | table (entries : List (String × Value))

/-- The value under a key of a row of entries. -/
def lookup {α : Type} (key : String) (entries : List (String × α)) : Option α :=
  (entries.find? (·.1 = key)).map (·.2)

/-- Puts another value under a key that is there. -/
def replace {α : Type} (key : String) (value : α) (entries : List (String × α)) :
    List (String × α) :=
  entries.map fun e => if e.1 = key then (key, value) else e

/-- What stands under a key of a document that is being read. -/
inductive Item where
  | value (v : Value)
  | table (implicit dotted : Bool) (entries : List (String × Item))
  /-- An array of tables, by its elements. -/
  | tables (elements : List (List (String × Item)))

namespace Item

/-- Acts on the table at the end of a path, which is made where it is missing.
The action gets to know whether the table was made by a dotted key.  A path that
is itself dotted cannot enter a table that has a header or was entered without
being dotted; no path can enter a value. -/
def reach (dottedPath : Bool) (act : Bool → List (String × Item) → Option (List (String × Item))) :
    List String → Bool → List (String × Item) → Option (List (String × Item))
  | [], dotted, entries => act dotted entries
  | key :: path, _, entries =>
    match lookup key entries with
    | none => do
      let inner ← reach dottedPath act path dottedPath []
      some (entries ++ [(key, .table true dottedPath inner)])
    | some (.value _) => none
    | some (.tables elements) => do
      let last ← elements.getLast?
      let inner ← reach dottedPath act path false last
      some (replace key (.tables (elements.dropLast ++ [inner])) entries)
    | some (.table implicit dotted inner) =>
      if dottedPath && !implicit then none
      else do
        let inner ← reach dottedPath act path dotted inner
        some (replace key (.table implicit dotted inner) entries)

/-- Adds a value under a key, in front of which a path of dotted keys may stand.
Tables cannot be reached in one way and extended in the other, and no key is set
twice. -/
def assign (path : List String) (key : String) (v : Value) (entries : List (String × Item)) :
    Option (List (String × Item)) :=
  reach true
    (fun dotted es =>
      if dotted == path.isEmpty then none
      else if (lookup key es).isSome then none
      else some (es ++ [(key, .value v)]))
    path false entries

/-- Opens the table of a header.  Only a table that is implicit and not dotted may
exist already. -/
def openTable (path : List String) (key : String) (entries : List (String × Item)) :
    Option (List (String × Item)) :=
  reach false
    (fun _ es =>
      match lookup key es with
      | none => some (es ++ [(key, .table false false [])])
      | some (.table true false inner) => some (replace key (.table false false inner) es)
      | some _ => none)
    path false entries

/-- Adds an element to the array of tables of a header. -/
def openElement (path : List String) (key : String) (entries : List (String × Item)) :
    Option (List (String × Item)) :=
  reach false
    (fun _ es =>
      match lookup key es with
      | none => some (es ++ [(key, .tables [[]])])
      | some (.tables elements) => some (replace key (.tables (elements ++ [[]])) es)
      | some _ => none)
    path false entries

/-- Adds a value to the table that a header has opened. -/
def assignIn (header : List String) (path : List String) (key : String) (v : Value)
    (entries : List (String × Item)) : Option (List (String × Item)) :=
  reach false (fun _ es => assign path key v es) header false entries

mutual

/-- The finished value of an item. -/
def toValue : Item → Value
  | .value v => v
  | .table _ _ entries => .table (entriesToValues entries)
  | .tables elements => .array (elementsToValues elements)

/-- The finished values of a row of entries. -/
def entriesToValues : List (String × Item) → List (String × Value)
  | [] => []
  | (k, i) :: es => (k, toValue i) :: entriesToValues es

/-- The finished elements of an array of tables. -/
def elementsToValues : List (List (String × Item)) → List Value
  | [] => []
  | t :: ts => .table (entriesToValues t) :: elementsToValues ts

end

end Item
end Toml
end AggregateAudit
