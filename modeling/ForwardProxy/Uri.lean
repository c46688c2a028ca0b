import ForwardProxy.Text.Ascii
import ForwardProxy.Text.Decimal
import ForwardProxy.Text.Split

/-!
# Request targets

The four forms of a request target: absolute (`http://host/path`), origin (`/path`), authority
(`host:port`) and asterisk (`*`). Scheme and authority are kept as typed, apart from the schemes
http and https, which are written in small letters; a fragment is dropped. The port of an
authority is not checked while reading; `Authority.port?` gives it when it is a number below 65536.
A text that is to be an authority and nothing else is read by `Authority.read`, which says what is wrong
with it.
-/

namespace ForwardProxy

/-! ## Authorities -/

namespace Authority

/-- The characters of an authority, the percent sign apart. -/
def isPlainChar (c : Char) : Bool :=
  Text.isLetter c || Text.isDigit c || "!$&'()*+,-.:;=@_~[]".toList.contains c

/-- What has been seen of an authority, read from the left. Colons and percent signs are counted
anew behind an at-sign and behind a closing bracket. -/
structure Scan where
  colons : Nat := 0
  opened : Bool := false
  closed : Bool := false
  percent : Bool := false
  atLast : Bool := false
  deriving DecidableEq, Repr

/-- One more character. At most eight colons are counted in a row, brackets open and close once,
and no percent sign may stand before the opening bracket unless an at-sign comes between. -/
def Scan.step (s : Scan) (c : Char) : Option Scan :=
  if c = ':' then
    if s.colons < 8 then some { s with colons := s.colons + 1, atLast := false } else none
  else if c = '[' then
    if s.percent || s.opened then none else some { s with opened := true, atLast := false }
  else if c = ']' then
    if !s.opened || s.closed then none
    else some { s with closed := true, colons := 0, percent := false, atLast := false }
  else if c = '@' then some { s with colons := 0, percent := false, atLast := true }
  else if c = '%' then some { s with percent := true, atLast := false }
  else if isPlainChar c then some { s with atLast := false }
  else none

/-- A scan that may end here: brackets balance, at most one colon is counted, the last character
is no at-sign, and no percent sign is open. -/
def Scan.mayEnd (s : Scan) : Bool :=
  s.opened == s.closed && decide (s.colons ≤ 1) && !s.atLast && !s.percent

/-- The text is an authority, possibly the empty one. -/
def accepts (cs : List Char) : Bool :=
  match cs.foldlM Scan.step ({} : Scan) with
  | some s => s.mayEnd
  | none => false

/-- A non-empty authority and nothing else. -/
def isWhole (cs : List Char) : Bool := !cs.isEmpty && accepts cs

end Authority

/-- The part of a target that names a server: optional user information and an at-sign, a host, and
an optional colon and port text. -/
structure Authority where
  text : String
  whole : Authority.isWhole text.toList = true
  deriving DecidableEq

namespace Authority

instance : Repr Authority := ⟨fun a _ => repr a.text⟩

/-- The text as an authority, if it is one. -/
def ofString? (s : String) : Option Authority :=
  if h : isWhole s.toList = true then some ⟨s, h⟩ else none

/-- The host: behind the last at-sign, either through the closing bracket or up to a colon. -/
def host (a : Authority) : String :=
  let cs := Text.afterLast '@' a.text.toList
  if cs.head? = some '[' then String.ofList (cs.takeWhile (· ≠ ']') ++ [']'])
  else String.ofList (cs.takeWhile (· ≠ ':'))

/-- The number behind the last colon, if it is a port. -/
def port? (a : Authority) : Option Nat := do
  let (_, text) ← Text.splitLast ':' a.text.toList
  Text.readPort text

/-- What stands behind the host. -/
def behindHost (a : Authority) : List Char :=
  let cs := Text.afterLast '@' a.text.toList
  if cs.head? = some '[' then (cs.dropWhile (· ≠ ']')).drop 1 else cs.dropWhile (· ≠ ':')

/-- The text behind the last colon of what stands behind the host. An authority names a port when it is not
empty. -/
def portText (a : Authority) : String :=
  match Text.splitLast ':' a.behindHost with
  | some (_, text) => String.ofList text
  | none => ""

end Authority

/-! ## Path and query -/

/-- A path, never empty, and the query behind its first question mark. -/
structure PathQuery where
  path : String
  query : Option String
  deriving DecidableEq, Repr

namespace PathQuery

/-- The path of the root. -/
def root : PathQuery := ⟨"/", none⟩

/-- The asterisk, which stands for the server as a whole. -/
def asterisk : PathQuery := ⟨"*", none⟩

/-- The characters of a path: every character outside ASCII, and the visible ASCII characters but
for the number sign, the angle brackets, the question mark and the backtick. -/
def isPathChar (c : Char) : Bool :=
  let n := c.toNat
  n == 0x21 || n == 0x22 || (0x24 ≤ n && n ≤ 0x3B) || n == 0x3D || (0x40 ≤ n && n ≤ 0x5F) ||
    (0x61 ≤ n && n ≤ 0x7E) || 0x80 ≤ n

/-- The characters of a query: as in a path, but with the question mark and the backtick and without
the double quote. -/
def isQueryChar (c : Char) : Bool :=
  let n := c.toNat
  n == 0x21 || (0x24 ≤ n && n ≤ 0x3B) || n == 0x3D || (0x3F ≤ n && n ≤ 0x7E) || 0x80 ≤ n

/-- Reads a path and a query; an empty path is the root, and a number sign ends both. -/
def read (cs : List Char) : Option PathQuery :=
  let path := cs.takeWhile isPathChar
  let name := if path.isEmpty then "/" else String.ofList path
  match cs.dropWhile isPathChar with
  | [] => some ⟨name, none⟩
  | '#' :: _ => some ⟨name, none⟩
  | '?' :: rest =>
    let query := String.ofList (rest.takeWhile isQueryChar)
    match rest.dropWhile isQueryChar with
    | [] => some ⟨name, some query⟩
    | '#' :: _ => some ⟨name, some query⟩
    | _ :: _ => none
  | _ :: _ => none

/-- The text is a path and query: it is an asterisk or begins with a slash, a question mark or a
number sign. -/
def ofList? (cs : List Char) : Option PathQuery :=
  match cs with
  | ['*'] => some asterisk
  | '/' :: _ => read cs
  | '?' :: _ => read cs
  | '#' :: _ => read cs
  | _ => none

/-- The path, and the query behind a question mark. -/
def render (p : PathQuery) : String :=
  match p.query with
  | some q => p.path ++ "?" ++ q
  | none => p.path

end PathQuery

/-! ## Targets -/

/-- A request target. -/
inductive Uri
  /-- A scheme, an authority and a path. -/
  | absolute (scheme : String) (authority : Authority) (target : PathQuery)
  /-- An authority alone. -/
  | authority (authority : Authority)
  /-- A path on a server that is named elsewhere, or the asterisk. -/
  | origin (target : PathQuery)
  deriving DecidableEq, Repr

namespace Uri

/-- The characters of a scheme. -/
def isSchemeChar (c : Char) : Bool :=
  Text.isLetter c || Text.isDigit c || c = '+' || c = '-' || c = '.' || c = '~'

/-- The longest scheme. -/
def maxSchemeLength : Nat := 64

/-- The longest target, in bytes. -/
def maxLength : Nat := 65534

/-- Cuts a scheme and its `://` off the front. The inner `none` says that there is no scheme, the
outer that it is too long. -/
def cutScheme (cs : List Char) : Option (Option String × List Char) :=
  if Text.eqIgnoringCase (cs.take 7) "http://".toList then some (some "http", cs.drop 7)
  else if Text.eqIgnoringCase (cs.take 8) "https://".toList then some (some "https", cs.drop 8)
  else
    let name := cs.takeWhile isSchemeChar
    match cs.dropWhile isSchemeChar with
    | ':' :: '/' :: '/' :: rest =>
      if name.isEmpty && rest.isEmpty then some (none, cs)
      else if maxSchemeLength < name.length then none
      else some (some (String.ofList name), rest)
    | _ => some (none, cs)

/-- The characters that end an authority. -/
def endsAuthority (c : Char) : Bool := c = '/' || c = '?' || c = '#'

/-- Reads a request target. -/
def parse? (s : String) : Option Uri :=
  let cs := s.toList
  if maxLength < s.utf8ByteSize then none
  else
    match cs with
    | [] => none
    | ['*'] => some (.origin .asterisk)
    | '/' :: _ => (PathQuery.ofList? cs).map .origin
    | _ => do
      let (scheme?, rest) ← cutScheme cs
      match scheme? with
      | none => (Authority.ofString? (String.ofList rest)).map .authority
      | some scheme =>
        let authority ← Authority.ofString? (String.ofList (rest.takeWhile (!endsAuthority ·)))
        match rest.dropWhile (!endsAuthority ·) with
        | [] => some (.absolute scheme authority .root)
        | tail => do
          let target ← PathQuery.ofList? tail
          some (.absolute scheme authority target)

/-- The scheme, which only the absolute form has. -/
def scheme? : Uri → Option String
  | absolute s _ _ => some s
  | _ => none

/-- The authority. -/
def authority? : Uri → Option Authority
  | absolute _ a _ => some a
  | authority a => some a
  | origin _ => none

/-- The path and query, which the authority form lacks. -/
def target? : Uri → Option PathQuery
  | absolute _ _ t => some t
  | authority _ => none
  | origin t => some t

/-- The host of the authority. -/
def host? (u : Uri) : Option String := u.authority?.map Authority.host

/-- The port of the authority, if it names a usable one. -/
def port? (u : Uri) : Option Nat := u.authority?.bind Authority.port?

/-- The query. -/
def query? (u : Uri) : Option String := u.target?.bind PathQuery.query

/-- The target as text. -/
def render : Uri → String
  | absolute s a t => s ++ "://" ++ a.text ++ t.render
  | authority a => a.text
  | origin t => t.render

end Uri

/-! ## Texts that are no authorities -/

namespace Authority

/-- Why a text is no authority. -/
inductive Fault
  | empty
  /-- A character that no authority has, or one that ends it before the text ends. -/
  | character
  /-- A colon, a bracket, an at-sign or a percent sign that may not stand there. -/
  | misplaced
  deriving DecidableEq, Repr

/-- The fault in words. -/
def Fault.message : Fault → String
  | empty => "empty string"
  | character => "invalid uri character"
  | misplaced => "invalid authority"

/-- What is wrong with a text, once its front has been scanned. A character that ends an authority is a fault of
its own only if the front is in order. -/
def Scan.fault? (s : Scan) : List Char → Option Fault
  | [] => if s.mayEnd then none else some .misplaced
  | c :: cs =>
    if Uri.endsAuthority c then some (if s.mayEnd then .character else .misplaced)
    else
      match s.step c with
      | some s => s.fault? cs
      | none => some (if c = ':' || c = '[' || c = ']' then .misplaced else .character)

/-- What is wrong with a text that is to be an authority. -/
def fault? (cs : List Char) : Option Fault := if cs.isEmpty then some .empty else ({} : Scan).fault? cs

theorem Scan.step_of_endsAuthority (s : Scan) {c : Char} (h : Uri.endsAuthority c = true) :
    s.step c = none := by
  have cases : c = '/' ∨ c = '?' ∨ c = '#' := by simpa [Uri.endsAuthority, or_assoc] using h
  rcases cases with rfl | rfl | rfl <;> rfl

/-- A scan that meets no fault is one that may end. -/
theorem Scan.fault?_eq_none_iff {cs : List Char} {s : Scan} :
    s.fault? cs = none ↔ ∃ last, cs.foldlM Scan.step s = some last ∧ last.mayEnd = true := by
  induction cs generalizing s with
  | nil => simp [fault?]
  | cons c cs ih =>
    rw [fault?, List.foldlM_cons]
    split
    · rename_i ends
      simp [s.step_of_endsAuthority ends]
    · cases s.step c with
      | none => simp
      | some next => exact ih

/-- Something is wrong with a text just when it is no authority. -/
theorem fault?_eq_none_iff {cs : List Char} : fault? cs = none ↔ isWhole cs = true := by
  unfold fault? isWhole accepts
  cases cs with
  | nil => simp
  | cons c cs =>
    rw [List.isEmpty_cons, if_neg Bool.false_ne_true, Scan.fault?_eq_none_iff]
    cases (c :: cs).foldlM Scan.step ({} : Scan) with
    | none => simp
    | some last => simp

/-- Reads a text that is to be an authority as a whole. -/
def read (s : String) : Except Fault Authority :=
  match h : fault? s.toList with
  | none => .ok ⟨s, fault?_eq_none_iff.mp h⟩
  | some fault => .error fault

end Authority
end ForwardProxy
