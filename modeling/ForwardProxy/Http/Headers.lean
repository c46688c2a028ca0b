import ForwardProxy.Bytes
import ForwardProxy.Text.Ascii
import ForwardProxy.Text.Blank

/-!
# Header fields

A list of header fields in order. Names are kept in small letters, values are bytes. A name may
occur several times; its values keep their order. `values` is the view that the laws below speak
about: what each operation does to the values of every name.
-/

namespace ForwardProxy.Http

/-- Header fields in order, with names in small letters. -/
structure Headers where
  fields : List (String × Bytes) := []
  deriving DecidableEq, Repr, Inhabited

namespace Headers

/-- The values of a name, in order. -/
def values (h : Headers) (name : String) : List Bytes :=
  h.fields.filterMap fun f => if f.1 = name then some f.2 else none

/-- The first value of a name. -/
def first? (h : Headers) (name : String) : Option Bytes := (h.values name).head?

/-- The name occurs. -/
def contains (h : Headers) (name : String) : Bool := h.fields.any fun f => f.1 = name

/-- One more field at the end. -/
def append (h : Headers) (name : String) (value : Bytes) : Headers :=
  ⟨h.fields ++ [(name, value)]⟩

/-- No field of that name. -/
def erase (h : Headers) (name : String) : Headers :=
  ⟨h.fields.filter fun f => f.1 ≠ name⟩

/-- Exactly one field of that name. -/
def put (h : Headers) (name : String) (value : Bytes) : Headers :=
  (h.erase name).append name value

/-- The fields with those of one name side by side, names in the order of their first fields. -/
def grouped (h : Headers) : List (String × List Bytes) :=
  (h.fields.map Prod.fst).eraseDups.map fun name => (name, h.values name)

/-! ## What each operation does to the values -/

@[simp] theorem values_append (h : Headers) (name : String) (value : Bytes) (other : String) :
    (h.append name value).values other =
      h.values other ++ (if name = other then [value] else []) := by
  by_cases e : name = other <;> simp [values, append, e]

theorem filterMap_filter_ne (fields : List (String × Bytes)) (name other : String) :
    (fields.filter fun f => decide (f.1 ≠ name)).filterMap
        (fun f => if f.1 = other then some f.2 else none) =
      if other = name then [] else
        fields.filterMap fun f => if f.1 = other then some f.2 else none := by
  induction fields with
  | nil => simp
  | cons f fields ih =>
    by_cases h₁ : f.1 = name <;> by_cases h₂ : f.1 = other <;> by_cases h₃ : other = name <;>
      simp_all

@[simp] theorem values_erase (h : Headers) (name other : String) :
    (h.erase name).values other = if other = name then [] else h.values other :=
  filterMap_filter_ne h.fields name other

@[simp] theorem values_put (h : Headers) (name : String) (value : Bytes) (other : String) :
    (h.put name value).values other = if other = name then [value] else h.values other := by
  by_cases e : other = name
  · simp [put, e]
  · simp [put, e, Ne.symm e]

/-- A name occurs exactly when it has a value. -/
theorem contains_iff (h : Headers) (name : String) :
    h.contains name = true ↔ h.values name ≠ [] := by
  obtain ⟨fields⟩ := h
  induction fields with
  | nil => simp [contains, values]
  | cons f fields ih =>
    by_cases e : f.1 = name <;> simp_all [contains, values]

/-! ## Well-formed fields -/

/-- The bytes of a value: tab, and everything from the space on but for DEL. -/
def isValueByte (b : UInt8) : Bool := b == 9 || (0x20 ≤ b && b != 0x7F)

/-- A value that may be sent. -/
def isValue (v : Bytes) : Bool := v.all isValueByte

/-- A value as text, when all its bytes are visible ASCII characters, spaces or tabs. -/
def text? (v : Bytes) : Option String :=
  if v.all fun b => b == 9 || (0x20 ≤ b && b ≤ 0x7E) then some (Bytes.latin1 v) else none

/-- Reads fields with names in any case; a name must be a token and a value must be sendable. -/
def ofFields? (fields : List (String × Bytes)) : Option Headers :=
  if fields.all fun f => Text.isToken f.1.toList && isValue f.2 then
    some ⟨fields.map fun f => (Text.lower f.1, f.2)⟩
  else none

/-- The comma-separated members of a value, without the blanks around them. -/
def members (v : Bytes) : List (List Char) :=
  ((Bytes.latin1 v).toList.splitOnP (· = ',')).map Text.trim

/-- One of the comma-separated members of a value is the given word, in any case. -/
def hasMember (v : Bytes) (word : String) : Bool :=
  (text? v).isSome && (members v).any fun m => Text.eqIgnoringCase m word.toList

/-- The last of the comma-separated members of a value is the given word, in any case. -/
def endsWithMember (v : Bytes) (word : String) : Bool :=
  (text? v).isSome &&
    (match (members v).getLast? with
     | some m => Text.eqIgnoringCase m word.toList
     | none => false)

end Headers
end ForwardProxy.Http
