/-!
# Values of TOML

What a TOML document says: texts, numbers, truth values, moments, arrays and tables. A table remembers
how it came to be, because that decides what may still be added to it.
-/

namespace ForwardProxy.Toml

/-- How a table came to be. -/
inductive Origin
  /-- It is written between braces. Nothing can be added to it. -/
  | closed
  /-- By a header of its own. -/
  | header
  /-- By the header of a table below it. -/
  | implied
  /-- By a key with points. -/
  | dotted
  deriving DecidableEq, Repr

/-- A value. -/
inductive Value
  | text (s : String)
  | integer (n : Int)
  /-- A number with a point or an exponent, as it is written. -/
  | float (s : String)
  | boolean (b : Bool)
  /-- A date, a time or both, as it is written. -/
  | moment (s : String)
  | array (items : List Value)
  /-- An array whose items have headers of their own. -/
  | tables (items : List Value)
  | table (origin : Origin) (fields : List (String × Value))
  deriving Repr

/-- The fields of a table. -/
abbrev Fields := List (String × Value)

namespace Fields

/-- The value under a key. -/
def get? (fs : Fields) (key : String) : Option Value :=
  (fs.find? fun f => f.1 = key).map Prod.snd

/-- The value under a key is replaced or added. -/
def set (fs : Fields) (key : String) (v : Value) : Fields :=
  match fs with
  | [] => [(key, v)]
  | f :: rest => if f.1 = key then (key, v) :: rest else f :: Fields.set rest key v

end Fields

/-! ## Adding to tables -/

/-- Changes the last table of an array. -/
def inLast (f : Fields → Option Fields) : List Value → Option (List Value)
  | [] => none
  | [.table o fs] => (f fs).map fun fs => [.table o fs]
  | [_] => none
  | v :: rest => (inLast f rest).map (v :: ·)

namespace Fields

/-- Changes the fields to which a path of headers leads. Tables that are missing are made; an array
of tables stands for its last table. -/
def within (f : Fields → Option Fields) : List String → Fields → Option Fields
  | [], fs => f fs
  | key :: path, fs =>
    match fs.get? key with
    | none => (within f path []).map fun inner => fs.set key (.table .implied inner)
    | some (.table .closed _) => none
    | some (.table o inner) => (within f path inner).map fun inner => fs.set key (.table o inner)
    | some (.tables items) =>
      (inLast (within f path) items).map fun items => fs.set key (.tables items)
    | some _ => none

/-- A table gets a header. It must not have come about in any way but by the header of a table below
it. -/
def startTable (key : String) (fs : Fields) : Option Fields :=
  match fs.get? key with
  | none => some (fs.set key (.table .header []))
  | some (.table .implied inner) => some (fs.set key (.table .header inner))
  | some _ => none

/-- One more table in an array of tables, which may be new. -/
def startRow (key : String) (fs : Fields) : Option Fields :=
  match fs.get? key with
  | none => some (fs.set key (.tables [.table .header []]))
  | some (.tables items) => some (fs.set key (.tables (items ++ [.table .header []])))
  | some _ => none

/-- A new field under a key with points. Tables that are missing are made. The table that takes the
field must be the one in which the key stands, if `home` says so, or have come about by a key with
points; tables with headers of their own are not entered. -/
def put (v : Value) : (home : Bool) → List String → Fields → Option Fields
  | _, [], _ => none
  | home, [key], fs =>
    if home && (fs.get? key).isNone then some (fs.set key v) else none
  | _, key :: path, fs =>
    match fs.get? key with
    | none => (put v true path []).map fun inner => fs.set key (.table .dotted inner)
    | some (.table .dotted inner) =>
      (put v true path inner).map fun inner => fs.set key (.table .dotted inner)
    | some (.table .implied inner) =>
      (put v false path inner).map fun inner => fs.set key (.table .implied inner)
    | some (.tables items) => (inLast (put v false path) items).map fun items => fs.set key (.tables items)
    | some _ => none

end Fields
end ForwardProxy.Toml
