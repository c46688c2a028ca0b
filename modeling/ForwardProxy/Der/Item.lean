import ForwardProxy.Bytes

/-!
# Items of the distinguished encoding

A value is written as an item: a tag, the length of its content, and the content. Every length has
exactly one form, the shortest, so that an item that has been read is written again as the same
bytes. `read` and `write` are inverse to each other on items whose tag and length are allowed.
-/

namespace ForwardProxy.Der

/-! ## Lengths -/

/-- The greatest length. -/
def maxLength : Nat := 0xfffffff

/-- A length: one byte below 128, else the number of its bytes and those bytes. -/
def lengthBytes (n : Nat) : Bytes :=
  if n < 0x80 then [UInt8.ofNat n]
  else if n < 0x100 then [0x81, UInt8.ofNat n]
  else if n < 0x10000 then [0x82, UInt8.ofNat (n / 0x100), UInt8.ofNat n]
  else if n < 0x1000000 then
    [0x83, UInt8.ofNat (n / 0x10000), UInt8.ofNat (n / 0x100), UInt8.ofNat n]
  else
    [0x84, UInt8.ofNat (n / 0x1000000), UInt8.ofNat (n / 0x10000), UInt8.ofNat (n / 0x100),
      UInt8.ofNat n]

/-- The number that bytes spell, the most significant first. -/
def number (b : Bytes) : Nat := b.foldl (fun n x => 0x100 * n + x.toNat) 0

/-- A length and the bytes behind it. Only the shortest form is read, and nothing above the greatest
length. -/
def readLength : Bytes → Option (Nat × Bytes)
  | [] => none
  | first :: rest =>
    if first < 0x80 then some (first.toNat, rest)
    else
      let size := first.toNat - 0x80
      if size = 0 || 4 < size || rest.length < size then none
      else
        let n := number (rest.take size)
        if n ≤ maxLength && lengthBytes n == first :: rest.take size then
          some (n, rest.drop size)
        else none

/-! ## Tags -/

/-- The tags of universal types that are in use. -/
def universalTags : List UInt8 :=
  [0x01, 0x02, 0x03, 0x04, 0x05, 0x06, 0x09, 0x0A, 0x0C, 0x12, 0x13, 0x14, 0x15, 0x16, 0x17, 0x18,
    0x1A, 0x1E, 0x30, 0x31]

/-- A tag in one byte: one of the universal tags, or one of another class with a number below 31. -/
def isTag (t : UInt8) : Bool := universalTags.contains t || (0x40 ≤ t && t % 0x20 != 0x1F)

/-- Boolean. -/
def booleanTag : UInt8 := 0x01

/-- Whole number. -/
def integerTag : UInt8 := 0x02

/-- String of bits. -/
def bitStringTag : UInt8 := 0x03

/-- String of octets. -/
def octetStringTag : UInt8 := 0x04

/-- Nothing. -/
def nullTag : UInt8 := 0x05

/-- Object identifier. -/
def oidTag : UInt8 := 0x06

/-- Text in UTF-8. -/
def utf8Tag : UInt8 := 0x0C

/-- Sequence of items. -/
def sequenceTag : UInt8 := 0x30

/-- Set of items. -/
def setTag : UInt8 := 0x31

/-- The tag of a context-specific item that holds other items. -/
def contextTag (number : UInt8) : UInt8 := 0xA0 + number

/-- The tag is context-specific. -/
def isContextTag (t : UInt8) : Bool := 0x80 ≤ t && t < 0xC0

/-- The item holds other items. -/
def isConstructed (t : UInt8) : Bool := t / 0x20 % 2 == 1

/-! ## Items -/

/-- A tag and a content. -/
structure Item where
  tag : UInt8
  content : Bytes
  deriving DecidableEq, Repr

namespace Item

/-- The item as bytes. -/
def write (i : Item) : Bytes := i.tag :: (lengthBytes i.content.length ++ i.content)

/-- The tag and the length of the item are allowed. -/
def Writable (i : Item) : Prop := isTag i.tag = true ∧ i.content.length ≤ maxLength

/-- The first item of the bytes, and the bytes behind it. -/
def read : Bytes → Option (Item × Bytes)
  | [] => none
  | tag :: rest =>
    if !isTag tag then none
    else
      match readLength rest with
      | none => none
      | some (n, rest) =>
        if n ≤ rest.length then some (⟨tag, rest.take n⟩, rest.drop n) else none

/-- At most `limit` items that make up the bytes. -/
def readUpTo : (limit : Nat) → Bytes → Option (List Item)
  | _, [] => some []
  | 0, _ :: _ => none
  | limit + 1, b => do
    let (i, rest) ← read b
    let items ← readUpTo limit rest
    some (i :: items)

/-- The items that make up the bytes. An item takes at least two bytes, so there are no more items
than bytes. -/
def readAll (b : Bytes) : Option (List Item) := readUpTo b.length b

/-- The one item that makes up the bytes. -/
def readOne (b : Bytes) : Option Item :=
  match read b with
  | some (i, []) => some i
  | _ => none

/-- The items inside an item that must have the given tag. -/
def inside (tag : UInt8) (i : Item) : Option (List Item) :=
  if i.tag = tag then readAll i.content else none

end Item

/-- An item of the given tag as bytes. -/
def item (tag : UInt8) (content : Bytes) : Bytes := Item.write ⟨tag, content⟩

/-- A sequence of items that are bytes already. -/
def sequence (items : List Bytes) : Bytes := item sequenceTag items.flatten

/-- The items of the one sequence that makes up the bytes. Not even all of them together are longer than
the greatest length. -/
def readSequence (b : Bytes) : Option (List Item) :=
  if b.length ≤ maxLength then (Item.readOne b).bind (Item.inside sequenceTag) else none

/-- A set of items that are bytes already. -/
def set (items : List Bytes) : Bytes := item setTag items.flatten

/-! ## Whole numbers -/

/-- The bytes of a number, the most significant first, in front of the given ones. -/
def numberBytesBefore (tail : Bytes) (n : Nat) : Bytes :=
  if _h : n = 0 then tail else numberBytesBefore (UInt8.ofNat n :: tail) (n / 0x100)
termination_by n
decreasing_by omega

/-- The bytes of a number, the most significant first. Zero has none. -/
def numberBytes (n : Nat) : Bytes := numberBytesBefore [] n

/-- The content of a whole number that is not negative: its bytes, behind a zero byte where the
first would make it negative. -/
def naturalContent (n : Nat) : Bytes :=
  match numberBytes n with
  | [] => [0]
  | b :: bs => if 0x80 ≤ b then 0 :: b :: bs else b :: bs

/-- A whole number that is not negative. -/
def natural (n : Nat) : Bytes := item integerTag (naturalContent n)

/-- The content is the only form of a whole number that is not negative. -/
def isNaturalContent : Bytes → Bool
  | [] => false
  | [b] => b < 0x80
  | b :: c :: _ => b < 0x80 && (b != 0 || 0x80 ≤ c)

/-- The item is a whole number that is not negative. -/
def isNatural (i : Item) : Bool := i.tag == integerTag && isNaturalContent i.content

end ForwardProxy.Der
