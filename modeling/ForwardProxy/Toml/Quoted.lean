import ForwardProxy.Toml.Scalar

/-!
# Texts of TOML

Texts between quotes: with escapes or without, on one line or on several.
-/

namespace ForwardProxy.Toml

/-! ## Characters -/

/-- Space and tab. -/
def isGap (c : Char) : Bool := c = ' ' || c = '\t'

/-- A character that may stand as itself: no control character but the tab. -/
def isPlain (c : Char) : Bool := c = '\t' || (' ' ≤ c && c ≠ '\x7f')

/-- The end of a line. -/
def lineEnd? : List Char → Option (List Char)
  | '\n' :: rest => some rest
  | '\r' :: '\n' :: rest => some rest
  | _ => none

/-- The character with a number in base sixteen, of so many digits. -/
def coded (count : Nat) (cs : List Char) : Option (Char × List Char) :=
  let ds := cs.take count
  let n := valueOf 16 ds
  if ds.length = count && ds.all (isDigitOf 16) && n.isValidChar then some (Char.ofNat n, cs.drop count)
  else none

/-- The character that stands behind a backslash. -/
def escaped : Reader Char
  | 'b' :: rest => some ('\x08', rest)
  | 't' :: rest => some ('\t', rest)
  | 'n' :: rest => some ('\n', rest)
  | 'f' :: rest => some ('\x0c', rest)
  | 'r' :: rest => some ('\r', rest)
  | '"' :: rest => some ('"', rest)
  | '\\' :: rest => some ('\\', rest)
  | 'u' :: rest => coded 4 rest
  | 'U' :: rest => coded 8 rest
  | _ => none

/-! ## On one line -/

/-- What stands up to the closing quote. Every step takes a character, so `limit` need only be the
number of characters. -/
def lineUpTo (escapes : Bool) (quote : Char) : (limit : Nat) → (held : List Char) → Reader String
  | 0, _, _ => none
  | _ + 1, _, [] => none
  | limit + 1, held, c :: rest =>
    if c = quote then some (String.ofList held.reverse, rest)
    else if c = '\\' && escapes then
      match escaped rest with
      | some (d, rest) => lineUpTo escapes quote limit (d :: held) rest
      | none => none
    else if isPlain c then lineUpTo escapes quote limit (c :: held) rest
    else none

/-! ## On several lines -/

/-- White space and ends of lines are left out. -/
def skipBlankLines : List Char → List Char
  | [] => []
  | c :: rest =>
    if isGap c || c = '\n' then skipBlankLines rest
    else if c = '\r' then
      match rest with
      | '\n' :: rest => skipBlankLines rest
      | _ => c :: rest
    else c :: rest

/-- What stands up to three closing quotes. One or two quotes in front of these belong to the text. -/
def linesUpTo (escapes : Bool) (quote : Char) : (limit : Nat) → (held : List Char) → Reader String
  | 0, _, _ => none
  | _ + 1, _, [] => none
  | limit + 1, held, c :: rest =>
    if c = quote then
      let run := (c :: rest).takeWhile (· = quote)
      let behind := (c :: rest).dropWhile (· = quote)
      if run.length < 3 then linesUpTo escapes quote limit (run ++ held) behind
      else if 5 < run.length then none
      else some (String.ofList (run.drop 3 ++ held).reverse, behind)
    else if c = '\\' && escapes then
      match escaped rest with
      | some (d, rest) => linesUpTo escapes quote limit (d :: held) rest
      | none =>
        match lineEnd? (rest.dropWhile isGap) with
        | some rest => linesUpTo escapes quote limit held (skipBlankLines rest)
        | none => none
    else
      match lineEnd? (c :: rest) with
      | some rest => linesUpTo escapes quote limit ('\n' :: held) rest
      | none => if isPlain c then linesUpTo escapes quote limit (c :: held) rest else none

/-- The end of a line right behind three opening quotes is left out. -/
def dropLineEnd (cs : List Char) : List Char := (lineEnd? cs).getD cs

/-! ## All of them -/

/-- A text on one line. -/
def lineText : Reader String
  | '"' :: rest => lineUpTo true '"' (rest.length + 1) [] rest
  | '\'' :: rest => lineUpTo false '\'' (rest.length + 1) [] rest
  | _ => none

/-- A text. -/
def quoted : Reader String
  | '"' :: '"' :: '"' :: rest => linesUpTo true '"' (rest.length + 1) [] (dropLineEnd rest)
  | '\'' :: '\'' :: '\'' :: rest => linesUpTo false '\'' (rest.length + 1) [] (dropLineEnd rest)
  | cs => lineText cs

end ForwardProxy.Toml
