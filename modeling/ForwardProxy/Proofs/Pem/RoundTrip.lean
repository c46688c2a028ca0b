import ForwardProxy.Pem.Block
import ForwardProxy.Proofs.Text.Base64
import ForwardProxy.Proofs.Text.Bytes
import Mathlib.Data.List.Basic

/-!
# Blocks are read back

A block is written as lines. Its first line gives the label back if the label stands on one line and does
not end in a hyphen, which would be counted as one of the five hyphens behind it. No line of data can be
taken for a line that begins or ends a section, and without its blanks the data is the text in base 64
that has been cut into lines. So a file of blocks is read as those blocks of it whose labels are known,
whatever stands behind them.

* `labelOf_beginLine`: the label of a first line is found.
* `readData_wrapLines`: the data of a section is found.
* `readLines_wrapUpTo`, `readLines_endMark`: a section takes up its lines of data and ends at its last line.
* `read_text_append`: a block in front of anything else; `read_write_append` and `read_write` follow by induction on
  the blocks.
* `return_notMem_encode`, `length_line_le`: the shape of the text, for whoever looks at it as lines.

## How the proof goes

The reader first cuts the bytes into lines and then goes through them with the label and the data of an open section
in hand. `linesFrom_line` gives it the next line whatever stands behind the line feed; everything else is about one
line at a time. The data is written by taking `lineWidth` characters as long as there are any, and `wrapUpTo` has a
bound for this recursion. The inductions are on it, with the data taken up so far general.

The label is found from the end of the line: spaces, hyphens and line ends are passed over backwards, and there must
be five hyphens among them. Read that way, a proper label comes to a byte that is none of these before it comes to a
hyphen (`hyphen_notMem_trailer`).

## Side conditions

`IsLabel` is exact about what a line can carry. With a line break in it the first line is two lines; with a hyphen
at its end, or a hyphen and blanks, the hyphens behind it are counted wrongly. Spaces inside, hyphens inside and an
empty label do no harm. Labels that are not known are read and left out, which is why the theorems speak of the blocks
with known labels only.
-/

namespace ForwardProxy.Pem

/-! ## Files of blocks -/

/-- The text of a block, as bytes. -/
def Block.text (b : Block) : Bytes := Bytes.ofString (encode b.label b.data)

/-- A file of blocks. -/
def write (bs : List Block) : Bytes := bs.flatMap Block.text

/-- A text that can be told from the hyphens around it: it has no line breaks, and does not end in a
hyphen, with or without blanks behind it. -/
structure IsLabel (label : String) : Prop where
  onOneLine : '\n' ∉ label.toList ∧ '\r' ∉ label.toList
  ending : (label.toList.reverse.dropWhile (· = ' ')).head? ≠ some '-'

instance (label : String) : Decidable (IsLabel label) :=
  decidable_of_iff (('\n' ∉ label.toList ∧ '\r' ∉ label.toList) ∧
    (label.toList.reverse.dropWhile (· = ' ')).head? ≠ some '-')
    ⟨fun h => ⟨h.1, h.2⟩, fun h => ⟨h.onOneLine, h.ending⟩⟩

/-- The block is of a known kind. -/
def Block.isKnown (b : Block) : Bool := knownLabels.contains b.label

/-! ## Lines -/

theorem linesFrom_line {line : Bytes} (hline : ∀ b ∈ line, b ≠ 10 ∧ b ≠ 13) (held rest : Bytes) :
    linesFrom held (line ++ 10 :: rest) = (held.reverse ++ line ++ [10]) :: linesFrom [] rest := by
  induction line generalizing held with
  | nil => simp [linesFrom]
  | cons b line ih =>
    rw [List.forall_mem_cons] at hline
    rw [List.cons_append, linesFrom, if_neg (by simp [hline.1]), ih hline.2, List.reverse_cons,
      List.append_assoc, List.append_assoc, List.singleton_append, List.append_assoc,
      List.cons_append]

theorem beginMark_eq : beginMark = [45, 45, 45, 45, 45, 66, 69, 71, 73, 78, 32] := by decide

theorem endMark_eq (l : Bytes) :
    endMark l = [45, 45, 45, 45, 45, 69, 78, 68, 32] ++ l ++ [45, 45, 45, 45, 45] := by
  have front : Bytes.ofString "-----END " = [45, 45, 45, 45, 45, 69, 78, 68, 32] := by decide
  have behind : Bytes.ofString "-----" = [45, 45, 45, 45, 45] := by decide
  rw [endMark, front, behind]

theorem bytes_beginLine (label : String) : (beginLine label).flatMap String.utf8EncodeChar =
    beginMark ++ Bytes.ofString label ++ [45, 45, 45, 45, 45] ++ [10] := by
  have behind : Bytes.ofString "-----\n" = [45, 45, 45, 45, 45] ++ [10] := by decide
  rw [beginLine, ← Bytes.ofString_eq, Bytes.ofString_append, Bytes.ofString_append, behind,
    ← List.append_assoc]
  rfl

theorem bytes_endLine (label : String) : (endLine label).flatMap String.utf8EncodeChar =
    endMark (Bytes.ofString label) ++ [10] := by
  have behind : Bytes.ofString "-----\n" = Bytes.ofString "-----" ++ [10] := by decide
  rw [endLine, ← Bytes.ofString_eq, Bytes.ofString_append, Bytes.ofString_append, behind, endMark,
    ← List.append_assoc]

/-! ## Labels -/

/-- A label has no bytes that end lines. -/
theorem IsLabel.bytes {label : String} (h : IsLabel label) :
    ∀ b ∈ Bytes.ofString label, b ≠ 10 ∧ b ≠ 13 := by
  intro b hb
  rw [Bytes.ofString_eq] at hb
  constructor
  · rintro rfl
    exact h.onOneLine.1 ((Bytes.mem_flatMap_iff (a := '\n') (by decide)).mp hb)
  · rintro rfl
    exact h.onOneLine.2 ((Bytes.mem_flatMap_iff (a := '\r') (by decide)).mp hb)

/-- Read backwards from its end, a label comes to a byte that cannot stand among the hyphens behind it
before it comes to a hyphen. -/
theorem hyphen_notMem_trailer {cs : List Char} (hline : '\n' ∉ cs ∧ '\r' ∉ cs)
    (hend : (cs.dropWhile (· = ' ')).head? ≠ some '-') :
    45 ∉ (cs.flatMap (fun c => (String.utf8EncodeChar c).reverse) ++ beginMark.reverse).takeWhile
      isTrailerByte := by
  induction cs with
  | nil => decide
  | cons c cs ih =>
    simp only [List.mem_cons, not_or] at hline
    by_cases hc : c = ' '
    · subst hc
      have blank : (String.utf8EncodeChar ' ').reverse = [32] := by decide
      rw [List.dropWhile_cons_of_pos (by simp)] at hend
      rw [List.flatMap_cons, blank, List.singleton_append, List.cons_append,
        List.takeWhile_cons_of_pos (by decide), List.mem_cons, not_or]
      exact ⟨by decide, ih ⟨hline.1.2, hline.2.2⟩ hend⟩
    · rw [List.dropWhile_cons_of_neg (by simpa using hc), List.head?_cons, Ne, Option.some.injEq] at hend
      obtain ⟨b, bs, hb⟩ : ∃ b bs, (String.utf8EncodeChar c).reverse = b :: bs := by
        apply List.exists_cons_of_ne_nil
        rw [Ne, List.reverse_eq_nil_iff]
        intro empty
        have size := String.length_utf8EncodeChar c
        rw [empty, List.length_nil] at size
        exact absurd size.symm (Nat.ne_of_gt c.utf8Size_pos)
      have mem : b ∈ String.utf8EncodeChar c := by
        rw [← List.mem_reverse, hb]
        exact List.mem_cons_self
      have other : isTrailerByte b = false := by
        rcases Bytes.mem_utf8EncodeChar mem with ⟨low, rfl⟩ | high
        · have others : ∀ n : Fin 128, n.val ≠ 45 → n.val ≠ 10 → n.val ≠ 13 → n.val ≠ 32 →
              isTrailerByte (UInt8.ofNat n.val) = false := by decide
          exact others ⟨c.toNat, low⟩ (fun e => hend (Char.toNat_inj.mp e))
            (fun e => hline.1.1 (Char.toNat_inj.mp e).symm)
            (fun e => hline.2.1 (Char.toNat_inj.mp e).symm) (fun e => hc (Char.toNat_inj.mp e))
        · simp only [isTrailerByte, Bool.or_eq_false_iff, beq_eq_false_iff_ne]
          refine ⟨⟨⟨?_, ?_⟩, ?_⟩, ?_⟩ <;>
            · rintro rfl
              exact absurd high (by decide)
      rw [List.flatMap_cons, hb, List.cons_append, List.cons_append,
        List.takeWhile_cons_of_neg (by simp [other])]
      exact List.not_mem_nil

/-- The label of a begin line is found. -/
theorem labelOf_beginLine {label : String} (h : IsLabel label) :
    labelOf (beginMark ++ Bytes.ofString label ++ [45, 45, 45, 45, 45] ++ [10]) =
      some (Bytes.ofString label) := by
  set l := Bytes.ofString label with hl
  set front := beginMark ++ l with hfront
  have backwards : front.reverse =
      label.toList.reverse.flatMap (fun c => (String.utf8EncodeChar c).reverse) ++ beginMark.reverse := by
    rw [hfront, List.reverse_append, hl, Bytes.ofString_eq, List.reverse_flatMap]
    rfl
  have free : 45 ∉ front.reverse.takeWhile isTrailerByte := by
    rw [backwards]
    exact hyphen_notMem_trailer (by simpa using h.onOneLine) h.ending
  have trailer : (front ++ [45, 45, 45, 45, 45] ++ [10]).reverse.takeWhile isTrailerByte =
      [10, 45, 45, 45, 45, 45] ++ front.reverse.takeWhile isTrailerByte := by
    rw [List.append_assoc, List.reverse_append]
    exact List.takeWhile_append_of_pos (List.all_eq_true.mp (by decide))
  have hyphens : (front.reverse.takeWhile isTrailerByte).count 45 = 0 := List.count_eq_zero.mpr free
  have behind : (([10, 45, 45, 45, 45, 45] ++ front.reverse.takeWhile isTrailerByte).reverse.dropWhile
      (· != 45)) = [45, 45, 45, 45, 45, 10] := by
    rw [List.reverse_append, List.dropWhile_append_of_pos]
    · rfl
    · intro b hb
      rw [List.mem_reverse] at hb
      simpa using fun e : b = 45 => free (e ▸ hb)
  have five : ([10, 45, 45, 45, 45, 45] : Bytes).count 45 = 5 := by decide
  have cut : (front ++ [45, 45, 45, 45, 45] ++ [10]).take
      ((front ++ [45, 45, 45, 45, 45] ++ [10]).length - 6) = front := by
    rw [List.append_assoc, List.length_append]
    exact List.take_left
  rw [labelOf, trailer, List.count_append, hyphens, five, if_pos rfl, behind]
  change some ((List.take (_ - 6) _).drop _) = _
  rw [cut, hfront, List.drop_left]

/-! ## Data -/

/-- The character may stand in a line of data: it is in ASCII and neither a hyphen nor a blank. -/
def IsDataChar (c : Char) : Prop := 32 < c.toNat ∧ c.toNat < 128 ∧ c ≠ '-'

/-- The codes of characters. -/
def codes (cs : List Char) : Bytes := cs.map fun c => UInt8.ofNat c.toNat

theorem IsDataChar.byte {c : Char} (h : IsDataChar c) :
    isBlankByte (UInt8.ofNat c.toNat) = false ∧ UInt8.ofNat c.toNat ≠ 45 := by
  have all : ∀ n : Fin 128, 32 < n.val → n.val ≠ 45 →
      isBlankByte (UInt8.ofNat n.val) = false ∧ UInt8.ofNat n.val ≠ 45 := by decide
  exact all ⟨c.toNat, h.2.1⟩ h.1 fun e => h.2.2 (Char.toNat_inj.mp e)

theorem isDataChar_encode {d : Bytes} {c : Char}
    (hc : c ∈ Text.Base64.encode Text.Base64.standard true d) : IsDataChar c := by
  rw [Text.Base64.encode_eq, List.mem_append, List.mem_map, List.mem_replicate] at hc
  rcases hc with ⟨v, hv, rfl⟩ | ⟨-, rfl⟩
  · obtain ⟨low, high, hyphen, -⟩ := Text.Base64.digit_spec (Text.Base64.values_lt hv)
    exact ⟨low, high, hyphen⟩
  · exact ⟨by decide, by decide, by decide⟩

theorem wrapUpTo_ascii {n : Nat} {cs : List Char} (hcs : ∀ c ∈ cs, IsDataChar c) :
    ∀ c ∈ wrapUpTo n cs, c.toNat < 128 := by
  fun_induction wrapUpTo n cs with
  | case1 => simp
  | case2 => simp
  | case3 n cs _ ih =>
    intro c hc
    rw [List.mem_append, List.mem_append, List.mem_singleton] at hc
    rcases hc with (hc | rfl) | hc
    · exact (hcs c (List.mem_of_mem_take hc)).2.1
    · decide
    · exact ih (fun c hc => hcs c (List.mem_of_mem_drop hc)) c hc

/-- Cutting characters into lines only puts line feeds between them. -/
theorem filter_wrapUpTo {n : Nat} {cs : List Char} (hcs : ∀ c ∈ cs, IsDataChar c)
    (hn : cs.length ≤ n) : (codes (wrapUpTo n cs)).filter (!isBlankByte ·) = codes cs := by
  have kept : ∀ l : List Char, (∀ c ∈ l, IsDataChar c) → (codes l).filter (!isBlankByte ·) = codes l := by
    intro l hl
    rw [List.filter_eq_self]
    intro b hb
    obtain ⟨c, hc, rfl⟩ := List.mem_map.mp hb
    rw [(hl c hc).byte.1, Bool.not_false]
  fun_induction wrapUpTo n cs with
  | case1 => rfl
  | case2 => simp at hn
  | case3 n cs nonempty ih =>
    have rest : (cs.drop lineWidth).length ≤ n := by
      rw [List.length_drop, lineWidth]
      have := List.length_pos_iff.mpr nonempty
      omega
    have feed : (codes ['\n']).filter (!isBlankByte ·) = [] := by decide
    simp only [codes, List.map_append, List.filter_append] at ih kept feed ⊢
    rw [ih (fun c hc => hcs c (List.mem_of_mem_drop hc)) rest,
      kept _ fun c hc => hcs c (List.mem_of_mem_take hc), feed, List.append_nil, ← List.map_append,
      List.take_append_drop]

theorem readValues_codes {vs : List Nat} (hvs : ∀ v ∈ vs, v < 64) (pads : Nat) :
    readValues (codes (vs.map (Text.Base64.digit Text.Base64.standard) ++ List.replicate pads '=')) =
      some (vs, pads) := by
  induction vs with
  | nil =>
    induction pads with
    | zero => rfl
    | succ pads ih =>
      rw [List.map_nil, List.nil_append] at ih ⊢
      rw [List.replicate_succ]
      change readValues (61 :: codes (List.replicate pads '=')) = _
      rw [readValues, ih]
      rfl
  | cons v vs ih =>
    rw [List.forall_mem_cons] at hvs
    obtain ⟨-, high, -, other⟩ := Text.Base64.digit_spec hvs.1
    have value := Text.Base64.value?_digit hvs.1
    specialize ih hvs.2
    rw [List.map_cons, List.cons_append, codes, List.map_cons, readValues, ← codes, ih]
    generalize Text.Base64.digit Text.Base64.standard v = c at high other value
    have code := Bytes.toNat_ofNat_ascii high
    have pad : (UInt8.ofNat c.toNat == 61) = false := by
      rw [beq_eq_false_iff_ne]
      intro same
      rw [same] at code
      exact other (Char.toNat_inj.mp code.symm)
    simp only [Option.bind_eq_bind, Option.bind_some, pad, Bool.false_eq_true, if_false, code,
      Char.ofNat_toNat, value]

/-- Data is read back from its lines. -/
theorem readData_wrapLines (d : Bytes) :
    readData (codes (wrapLines (Text.Base64.encode Text.Base64.standard true d))) = some d := by
  obtain ⟨whole, few⟩ := Text.Base64.length_values d
  have right : isRightPadding (Text.Base64.values d).length (Text.Base64.fill d) = true := by
    simp [isRightPadding, few, whole]
  rw [readData, wrapLines, filter_wrapUpTo (fun c => isDataChar_encode) (Nat.le_refl _),
    Text.Base64.encode_eq, readValues_codes fun v => Text.Base64.values_lt]
  simp only [Option.bind_eq_bind, Option.bind_some, right, if_true, Text.Base64.octets_values]

/-! ## Sections -/

theorem isPrefixOf_hyphen {b : UInt8} (hb : b ≠ 45) (mark line : Bytes) :
    List.isPrefixOf (45 :: mark) (b :: line) = false := by
  simp [List.isPrefixOf, hb.symm]

/-- A line that starts with a data character neither begins nor ends a section. -/
theorem noMark_of_isDataChar {c : Char} (hc : IsDataChar c) (l line : Bytes) :
    beginMark.isPrefixOf (UInt8.ofNat c.toNat :: line) = false ∧
      (endMark l).isPrefixOf (UInt8.ofNat c.toNat :: line) = false := by
  rw [beginMark_eq, endMark_eq]
  exact ⟨isPrefixOf_hyphen hc.byte.2 _ _, isPrefixOf_hyphen hc.byte.2 _ _⟩

theorem codes_plain {cs : List Char} (hcs : ∀ c ∈ cs, IsDataChar c) : ∀ b ∈ codes cs, b ≠ 10 ∧ b ≠ 13 := by
  intro b hb
  obtain ⟨c, hc, rfl⟩ := List.mem_map.mp hb
  have blank := (hcs c hc).byte.1
  constructor <;>
    · intro same
      rw [same] at blank
      exact absurd blank (by decide)

/-- A line of data is taken up. -/
theorem readLines_dataLine {cs : List Char} (hcs : ∀ c ∈ cs, IsDataChar c) (more : cs ≠ []) (l data rest : Bytes) :
    readLines (some l) data (linesFrom [] (codes (cs.take lineWidth) ++ 10 :: rest)) =
      readLines (some l) (data ++ codes (cs.take lineWidth) ++ [10]) (linesFrom [] rest) := by
  obtain ⟨c, cs, rfl⟩ := List.exists_cons_of_ne_nil more
  have noMark := noMark_of_isDataChar (hcs c List.mem_cons_self) l
    (codes (cs.take (lineWidth - 1)) ++ [10])
  have line : [].reverse ++ codes ((c :: cs).take lineWidth) ++ [10] =
      UInt8.ofNat c.toNat :: (codes (cs.take (lineWidth - 1)) ++ [10]) := rfl
  rw [linesFrom_line (codes_plain fun c hc => hcs c (List.mem_of_mem_take hc)), line, readLines,
    if_neg (Bool.not_eq_true _ ▸ noMark.1)]
  simp only [noMark.2, Bool.false_eq_true, if_false]
  rw [← line, List.reverse_nil, List.nil_append, ← List.append_assoc]

theorem codes_wrapLine (n : Nat) (cs : List Char) :
    codes (cs.take lineWidth ++ ['\n'] ++ wrapUpTo n (cs.drop lineWidth)) =
      codes (cs.take lineWidth) ++ 10 :: codes (wrapUpTo n (cs.drop lineWidth)) := by
  simp [codes]

/-- Lines of data are taken up one after the other. -/
theorem readLines_wrapUpTo {n : Nat} {cs : List Char} (hcs : ∀ c ∈ cs, IsDataChar c) (l data rest : Bytes) :
    readLines (some l) data (linesFrom [] (codes (wrapUpTo n cs) ++ rest)) =
      readLines (some l) (data ++ codes (wrapUpTo n cs)) (linesFrom [] rest) := by
  fun_induction wrapUpTo n cs generalizing data with
  | case1 => simp [codes]
  | case2 => simp [codes]
  | case3 n cs more ih =>
    rw [codes_wrapLine, List.append_assoc, List.cons_append, readLines_dataLine hcs more,
      ih fun c hc => hcs c (List.mem_of_mem_drop hc)]
    simp only [List.append_assoc, List.singleton_append]

/-- What is found of a block that is complete, with or without a line feed at its end. -/
theorem readLines_endMark (label : String) {data d : Bytes} (hd : readData data = some d) (end_ : Bytes)
    (rest : List Bytes) :
    readLines (some (Bytes.ofString label)) data ((endMark (Bytes.ofString label) ++ end_) :: rest) =
      if knownLabels.contains label then (readLines none [] rest).after ⟨label, d⟩
      else readLines none [] rest := by
  have begin : beginMark.isPrefixOf (endMark (Bytes.ofString label) ++ end_) = false := by
    rw [beginMark_eq, endMark_eq]
    rfl
  have ends : (endMark (Bytes.ofString label)).isPrefixOf (endMark (Bytes.ofString label) ++ end_) := by
    rw [List.isPrefixOf_iff_prefix]
    exact List.prefix_append _ _
  have same : (fun l => Bytes.ofString l == Bytes.ofString label) = (· == label) := by
    funext l
    rw [Bool.eq_iff_iff, beq_iff_eq, beq_iff_eq]
    exact Bytes.ofString_injective.eq_iff
  rw [readLines, if_neg (by simp [begin])]
  simp only [ends, if_true, same]
  cases known : knownLabels.contains label with
  | true =>
    have found : knownLabels.find? (· == label) = some label := by
      cases h : knownLabels.find? (· == label) with
      | none =>
        rw [List.find?_eq_none] at h
        rw [List.contains_iff_mem] at known
        exact absurd (beq_self_eq_true label) (h label known)
      | some l =>
        have same := List.find?_some h
        rw [beq_iff_eq] at same
        rw [same]
    simp only [found, hd, if_true]
  | false =>
    have missing : knownLabels.find? (· == label) = none := by
      rw [List.find?_eq_none]
      intro l hl same
      rw [beq_iff_eq.mp same] at hl
      rw [List.contains_iff_mem.mpr hl] at known
      cases known
    simp only [missing, Bool.false_eq_true, if_false]

/-! ## The parts of a block -/

/-- The first line, without the line feed. -/
def Block.firstLine (b : Block) : Bytes := beginMark ++ Bytes.ofString b.label ++ [45, 45, 45, 45, 45]

/-- The characters that stand for the data. -/
def Block.shown (b : Block) : List Char := Text.Base64.encode Text.Base64.standard true b.data

/-- The last line, without the line feed. -/
def Block.lastLine (b : Block) : Bytes := endMark (Bytes.ofString b.label)

theorem Block.isDataChar_shown (b : Block) : ∀ c ∈ b.shown, IsDataChar c := fun _ => isDataChar_encode

theorem Block.text_eq (b : Block) :
    b.text = b.firstLine ++ 10 :: (codes (wrapLines b.shown) ++ b.lastLine ++ [10]) := by
  rw [text, encode, Bytes.ofString_ofList, List.flatMap_append, List.flatMap_append, bytes_beginLine,
    bytes_endLine, ← shown, wrapLines, Bytes.flatMap_utf8EncodeChar_ascii (wrapUpTo_ascii b.isDataChar_shown),
    codes, firstLine, lastLine]
  simp only [List.append_assoc, List.cons_append, List.nil_append]

theorem plain_between {front line back : Bytes} (hline : ∀ x ∈ line, x ≠ 10 ∧ x ≠ 13)
    (marks : (front ++ back).all (fun x => x != 10 && x != 13) = true) :
    ∀ x ∈ front ++ line ++ back, x ≠ 10 ∧ x ≠ 13 := by
  have outside : (∀ x ∈ front, x ≠ 10 ∧ x ≠ 13) ∧ ∀ x ∈ back, x ≠ 10 ∧ x ≠ 13 := by simpa using marks
  intro x hx
  rw [List.mem_append, List.mem_append] at hx
  rcases hx with (hx | hx) | hx
  · exact outside.1 x hx
  · exact hline x hx
  · exact outside.2 x hx

theorem Block.firstLine_plain {b : Block} (hb : IsLabel b.label) :
    ∀ x ∈ b.firstLine, x ≠ 10 ∧ x ≠ 13 := by
  rw [firstLine, beginMark_eq]
  exact plain_between hb.bytes (by decide)

theorem Block.lastLine_plain {b : Block} (hb : IsLabel b.label) :
    ∀ x ∈ b.lastLine, x ≠ 10 ∧ x ≠ 13 := by
  rw [lastLine, endMark_eq]
  exact plain_between hb.bytes (by decide)

/-- The first line begins the section. -/
theorem read_firstLine {b : Block} (hb : IsLabel b.label) (rest : Bytes) :
    read (b.firstLine ++ 10 :: rest) = readLines (some (Bytes.ofString b.label)) [] (linesFrom [] rest) := by
  have begins : beginMark.isPrefixOf (b.firstLine ++ [10]) = true := by
    rw [List.isPrefixOf_iff_prefix, Block.firstLine, List.append_assoc, List.append_assoc]
    exact List.prefix_append _ _
  rw [read, linesFrom_line (Block.firstLine_plain hb), List.reverse_nil, List.nil_append, readLines,
    if_pos begins, Block.firstLine, labelOf_beginLine hb]

/-- A block in front of anything else is read, and then the rest. -/
theorem read_text_append {b : Block} (hb : IsLabel b.label) (rest : Bytes) :
    read (b.text ++ rest) = if b.isKnown then (read rest).after b else read rest := by
  have cut : b.text ++ rest =
      b.firstLine ++ 10 :: (codes (wrapUpTo b.shown.length b.shown) ++ (b.lastLine ++ 10 :: rest)) := by
    rw [Block.text_eq, wrapLines]
    simp only [List.append_assoc, List.cons_append, List.nil_append]
  have data : readData (codes (wrapUpTo b.shown.length b.shown)) = some b.data := readData_wrapLines b.data
  rw [cut, read_firstLine hb, readLines_wrapUpTo b.isDataChar_shown, List.nil_append,
    linesFrom_line (Block.lastLine_plain hb), List.reverse_nil, List.nil_append, Block.lastLine,
    readLines_endMark b.label data]
  rfl

/-- Of blocks in front of anything else, those of known labels are read, and then the rest. -/
theorem read_write_append {bs : List Block} (hbs : ∀ b ∈ bs, IsLabel b.label) (rest : Bytes) :
    read (write bs ++ rest) =
      ⟨bs.filter Block.isKnown ++ (read rest).blocks, (read rest).sound⟩ := by
  induction bs with
  | nil => rfl
  | cons b bs ih =>
    rw [List.forall_mem_cons] at hbs
    have text : write (b :: bs) ++ rest = b.text ++ (write bs ++ rest) := by
      rw [write, List.flatMap_cons, List.append_assoc, write]
    rw [text, read_text_append hbs.1, ih hbs.2]
    cases known : b.isKnown with
    | true => rw [if_pos rfl, List.filter_cons_of_pos known]; rfl
    | false => rw [if_neg (by simp), List.filter_cons_of_neg (by simp [known])]

/-- A file of blocks is read as those blocks of it whose labels are known. -/
theorem read_write {bs : List Block} (hbs : ∀ b ∈ bs, IsLabel b.label) :
    read (write bs) = ⟨bs.filter Block.isKnown, true⟩ := by
  have all := read_write_append hbs []
  rw [List.append_nil] at all
  rw [all]
  simp [read, linesFrom, readLines]

/-! ## The shape of the text -/

theorem toList_encode (label : String) (data : Bytes) : (encode label data).toList =
    beginLine label ++ wrapLines (Text.Base64.encode Text.Base64.standard true data) ++ endLine label :=
  String.toList_ofList

theorem toList_beginLine (label : String) :
    beginLine label = ("-----BEGIN ".toList ++ label.toList ++ "-----".toList) ++ ['\n'] := by
  have behind : "-----\n".toList = "-----".toList ++ ['\n'] := by decide
  rw [beginLine, String.toList_append, String.toList_append, behind, List.append_assoc,
    List.append_assoc, List.append_assoc]

theorem toList_endLine (label : String) :
    endLine label = ("-----END ".toList ++ label.toList ++ "-----".toList) ++ ['\n'] := by
  have behind : "-----\n".toList = "-----".toList ++ ['\n'] := by decide
  rw [endLine, String.toList_append, String.toList_append, behind, List.append_assoc,
    List.append_assoc, List.append_assoc]

/-- No line of the text ends in a carriage return. -/
theorem return_notMem_encode {label : String} (h : IsLabel label) (data : Bytes) :
    '\r' ∉ (encode label data).toList := by
  have wrapped : ∀ n cs, (∀ c ∈ cs, IsDataChar c) → '\r' ∉ wrapUpTo n cs := by
    intro n cs hcs
    fun_induction wrapUpTo n cs with
    | case1 => exact List.not_mem_nil
    | case2 => exact List.not_mem_nil
    | case3 n cs _ ih =>
      rw [List.mem_append, List.mem_append, List.mem_singleton, not_or, not_or]
      refine ⟨⟨fun hc => ?_, by decide⟩, ih fun c hc => hcs c (List.mem_of_mem_drop hc)⟩
      exact absurd (hcs _ (List.mem_of_mem_take hc)).1 (by decide)
  rw [toList_encode, toList_beginLine, toList_endLine]
  simp only [List.mem_append, not_or]
  exact ⟨⟨⟨⟨⟨by decide, h.onOneLine.2⟩, by decide⟩, by decide⟩,
    wrapped _ _ fun c => isDataChar_encode⟩, ⟨⟨by decide, h.onOneLine.2⟩, by decide⟩, by decide⟩

/-- The lines in front of anything else are lines of data. -/
theorem mem_splitOn_wrapUpTo {n : Nat} {cs rest : List Char} (hcs : ∀ c ∈ cs, IsDataChar c)
    {line : List Char} (hline : line ∈ (wrapUpTo n cs ++ rest).splitOn '\n') :
    line.length ≤ lineWidth ∨ line ∈ rest.splitOn '\n' := by
  fun_induction wrapUpTo n cs with
  | case1 => exact .inr hline
  | case2 => exact .inr hline
  | case3 n cs _ ih =>
    have free : '\n' ∉ cs.take lineWidth := by
      intro hc
      exact absurd (hcs _ (List.mem_of_mem_take hc)).1 (by decide)
    rw [List.append_assoc, List.append_assoc, List.singleton_append,
      List.splitOn_append_cons_self_of_not_mem free, List.mem_cons] at hline
    rcases hline with rfl | hline
    · exact .inl (List.length_take_le lineWidth cs)
    · exact ih (fun c hc => hcs c (List.mem_of_mem_drop hc)) hline

/-- Lines of data have at most `lineWidth` characters, and the first line and the last as many as the
label needs. -/
theorem length_line_le {label : String} (h : IsLabel label) (data : Bytes) {line : List Char}
    (hline : line ∈ (encode label data).toList.splitOn '\n') :
    line.length ≤ max lineWidth (label.length + 16) := by
  have beginFree : '\n' ∉ "-----BEGIN ".toList ++ label.toList ++ "-----".toList := by
    simp only [List.mem_append, not_or]
    exact ⟨⟨by decide, h.onOneLine.1⟩, by decide⟩
  have endFree : '\n' ∉ "-----END ".toList ++ label.toList ++ "-----".toList := by
    simp only [List.mem_append, not_or]
    exact ⟨⟨by decide, h.onOneLine.1⟩, by decide⟩
  have beginLength : ("-----BEGIN ".toList ++ label.toList ++ "-----".toList).length = label.length + 16 := by
    simp only [List.length_append, String.length_toList]
    have marks : "-----BEGIN ".length = 11 ∧ "-----".length = 5 := by decide
    omega
  have endLength : ("-----END ".toList ++ label.toList ++ "-----".toList).length = label.length + 14 := by
    simp only [List.length_append, String.length_toList]
    have marks : "-----END ".length = 9 ∧ "-----".length = 5 := by decide
    omega
  rw [toList_encode, toList_beginLine, toList_endLine, List.append_assoc, List.append_assoc,
    List.singleton_append, List.splitOn_append_cons_self_of_not_mem beginFree, List.mem_cons] at hline
  rcases hline with rfl | hline
  · omega
  rcases mem_splitOn_wrapUpTo (fun c => isDataChar_encode) hline with short | hline
  · omega
  rw [List.splitOn_append_cons_self_of_not_mem endFree, List.splitOn_nil, List.mem_cons,
    List.mem_singleton] at hline
  rcases hline with rfl | rfl
  · omega
  · exact Nat.zero_le _

end ForwardProxy.Pem
