import ForwardProxy.Proofs.Http.Inbound
import ForwardProxy.Proofs.Text.Bytes
import ForwardProxy.Proofs.Uri.Rendering

/-!
# Request heads are read as they are written

A request line, fields on lines of their own and a blank line are found again, whatever follows them. What is
found by a run is told by the byte behind it: a space behind the method and behind the target, a colon behind
the name of a field, a carriage return behind its value. Names come back in small letters and values without
the blanks around them. Whether the head is one is then up to the target.

* `Scanner.run_append`, `nonempty_append`, `byte_cons`: one lemma for each scanner, about bytes with anything behind
  them. `Scanner.bind_of_done` joins them in the order in which the head is scanned.
* `scanField_fieldLine`: the line of a field is read as the field `scanned`.
* `scanFields_lines`: all lines are, by induction on the fields. The limit is general, since it falls with each line.
* `scanRequestHead_written`: the head as a whole. Its target is given as text and is not asked to be one, so that the
  lemma also says with what fault a head is refused (`headOf`).

## Side conditions

A method and the names of fields are tokens, without which a space or a colon in them would end them too early, and
the first byte of a token is no part of a line's end, so that no field is mistaken for the blank line
(`atLineEnd_fieldLine`). A target has visible characters only. A value may hold blanks and bytes above 127, but no
line's end. There are no more fields than the reader has room for.
-/

namespace ForwardProxy

namespace Http

namespace Scanner

variable {α β : Type} {ok : UInt8 → Bool} {bs rest : Bytes} {c : UInt8}

/-- Behind what has been found the scan goes on. -/
theorem bind_of_done {s : Scanner α} {b : Bytes} {v : α} (f : α → Scanner β) (h : s b = .done v rest) :
    (s >>= f : Scanner β) b = f v rest := by
  change Scanner.andThen s f b = _
  rw [Scanner.andThen, h]

/-- A run is found if the byte behind it is of another kind. -/
theorem run_append (all : ∀ b ∈ bs, ok b = true) (stop : ok c = false) :
    run ok (bs ++ c :: rest) = .done bs (c :: rest) := by
  have other : ¬ ok c = true := by simp [stop]
  rw [run, List.dropWhile_append_of_pos all, List.takeWhile_append_of_pos all, List.dropWhile_cons_of_neg other,
    List.takeWhile_cons_of_neg other, List.append_nil]

theorem nonempty_append (filled : bs ≠ []) (all : ∀ b ∈ bs, ok b = true) (stop : ok c = false) :
    nonempty ok (bs ++ c :: rest) = .done bs (c :: rest) := by
  rw [nonempty, bind_of_done _ (run_append all stop), if_neg (by simpa using filled)]
  rfl

theorem byte_cons (h : ok c = true) : byte ok (c :: rest) = .done c rest := if_pos h

theorem lineEnd_cons (rest : Bytes) : lineEnd (13 :: 10 :: rest) = .done () rest := rfl

end Scanner

open Scanner

/-! ## Fields -/

/-- A field that can be written on a line. -/
def IsField (f : String × Bytes) : Prop := Text.isToken f.1.toList = true ∧ Headers.isValue f.2 = true

/-- The field that is read from the line of another. -/
def scanned (f : String × Bytes) : String × Bytes := (Text.lower f.1, trimSpaces f.2)

variable {f : String × Bytes} {fields : List (String × Bytes)}

theorem isTokenChar_of_mem {name : String} (h : Text.isToken name.toList = true) :
    ∀ c ∈ name.toList, Text.isTokenChar c = true := by
  rw [Text.isToken, Bool.and_eq_true, List.all_eq_true] at h
  exact h.2

theorem ascii_of_isToken {name : String} (h : Text.isToken name.toList = true) :
    ∀ c ∈ name.toList, c.toNat < 128 := fun c hc => by
  have := Text.toNat_of_isTokenChar (isTokenChar_of_mem h c hc)
  omega

theorem isTokenByte_of_mem {name : String} (h : Text.isToken name.toList = true) :
    ∀ b ∈ Bytes.ofString name, isTokenByte b = true := by
  have ascii := ascii_of_isToken h
  rw [Bytes.ofString_eq, Bytes.flatMap_utf8EncodeChar_ascii ascii]
  intro b hb
  obtain ⟨c, hc, rfl⟩ := List.mem_map.mp hb
  have code := Bytes.toNat_ofNat_ascii (ascii c hc)
  have low : UInt8.ofNat c.toNat < 0x80 := by
    rw [UInt8.lt_iff_toNat_lt, code]
    exact ascii c hc
  rw [isTokenByte, code, Char.ofNat_toNat, isTokenChar_of_mem h c hc, decide_eq_true low]
  rfl

theorem ofString_ne_nil {s : String} (h : s.toList ≠ []) : Bytes.ofString s ≠ [] := by
  intro empty
  apply h
  rw [Bytes.ofString_injective (empty.trans (Bytes.ofString_eq "").symm)]
  rfl

theorem toList_ne_nil_of_isToken {name : String} (h : Text.isToken name.toList = true) : name.toList ≠ [] := by
  rw [Text.isToken, Bool.and_eq_true, Bool.not_eq_true'] at h
  exact List.isEmpty_eq_false_iff.mp h.1

/-- The first byte of a token is no part of the end of a line. -/
theorem exists_first {name : String} (h : Text.isToken name.toList = true) :
    ∃ b bs, Bytes.ofString name = b :: bs ∧ b ≠ 10 ∧ b ≠ 13 := by
  obtain ⟨b, bs, first⟩ := List.exists_cons_of_ne_nil (ofString_ne_nil (toList_ne_nil_of_isToken h))
  have token : isTokenByte b = true := isTokenByte_of_mem h b (by rw [first]; exact List.mem_cons_self)
  refine ⟨b, bs, first, ?_, ?_⟩ <;>
  · rintro rfl
    exact absurd token (by decide)

theorem latin1_of_isToken {name : String} (h : Text.isToken name.toList = true) :
    Bytes.latin1 (Bytes.ofString name) = name :=
  Bytes.latin1_ofString (ascii_of_isToken h)

/-- The space behind the colon counts as a blank in front of the value. -/
theorem trimSpaces_space (v : Bytes) : trimSpaces (32 :: v) = trimSpaces v := rfl

theorem scanField_fieldLine (h : IsField f) (rest : Bytes) :
    scanField (Wire.fieldLine f.1 f.2 ++ rest) = .done (scanned f) rest := by
  have value : ∀ b ∈ (32 : UInt8) :: f.2, Headers.isValueByte b = true :=
    List.forall_mem_cons.mpr ⟨by decide, List.all_eq_true.mp h.2⟩
  have line : Wire.fieldLine f.1 f.2 ++ rest =
      Bytes.ofString f.1 ++ 58 :: ((32 :: f.2) ++ 13 :: 10 :: rest) := by
    simp [Wire.fieldLine, Wire.lineEnd]
  rw [line, scanField]
  rw [bind_of_done _ (nonempty_append (ofString_ne_nil (toList_ne_nil_of_isToken h.1)) (isTokenByte_of_mem h.1) rfl)]
  rw [bind_of_done _ (byte_cons rfl)]
  rw [bind_of_done _ (run_append value rfl)]
  rw [bind_of_done _ (lineEnd_cons rest)]
  rw [latin1_of_isToken h.1, trimSpaces_space]
  rfl

theorem atLineEnd_fieldLine (h : IsField f) (rest : Bytes) :
    atLineEnd (Wire.fieldLine f.1 f.2 ++ rest) = .done false (Wire.fieldLine f.1 f.2 ++ rest) := by
  obtain ⟨b, bs, first, feed, carriage⟩ := exists_first h.1
  have other : (b == 10 || b == 13) = false := by simp [feed, carriage]
  rw [Wire.fieldLine, first]
  change Scan.done (b == 10 || b == 13) _ = _
  rw [other]
  rfl

/-- All fields are found, if there are not too many. -/
theorem scanFields_lines {limit : Nat} (h : ∀ f ∈ fields, IsField f) (few : fields.length ≤ limit) (rest : Bytes) :
    scanFields limit (fields.flatMap (fun f => Wire.fieldLine f.1 f.2) ++ (Wire.lineEnd ++ rest)) =
      .done (fields.map scanned) rest := by
  induction fields generalizing limit with
  | nil => cases limit <;> rfl
  | cons f fields ih =>
    obtain ⟨hf, h⟩ := List.forall_mem_cons.mp h
    cases limit with
    | zero => cases few
    | succ limit =>
      rw [List.flatMap_cons, List.append_assoc, scanFields, bind_of_done _ (atLineEnd_fieldLine hf _)]
      simp only [Bool.false_eq_true, if_false]
      rw [bind_of_done _ (scanField_fieldLine hf _),
        bind_of_done _ (ih h (by simpa using few))]
      rfl

/-! ## Heads -/

theorem isTargetByte_of_visible {s : String} (h : ∀ c ∈ s.toList, Text.IsVisibleChar c) :
    ∀ b ∈ Bytes.ofString s, isTargetByte b = true := by
  apply Bytes.forall_mem_ofString
  · intro c hc low
    obtain ⟨above, other⟩ := h c hc
    have code := Bytes.toNat_ofNat_ascii low
    simp only [isTargetByte, Bool.and_eq_true, decide_eq_true_eq, bne_iff_ne, UInt8.lt_iff_toNat_lt, ne_eq,
      ← UInt8.toNat_inj, code]
    exact ⟨above, other⟩
  · intro b high
    simp only [isTargetByte, Bool.and_eq_true, decide_eq_true_eq, bne_iff_ne, UInt8.lt_iff_toNat_lt, ne_eq,
      ← UInt8.toNat_inj]
    exact ⟨by change 32 < _; omega, by change _ ≠ 127; omega⟩

theorem isValue_of_visible {s : String} (h : ∀ c ∈ s.toList, Text.IsVisibleChar c) :
    Headers.isValue (Bytes.ofString s) = true := by
  rw [Headers.isValue, List.all_eq_true]
  intro b hb
  have target := isTargetByte_of_visible h b hb
  simp only [isTargetByte, Bool.and_eq_true, decide_eq_true_eq, UInt8.lt_iff_toNat_lt] at target
  simp only [Headers.isValueByte, Bool.or_eq_true, Bool.and_eq_true, decide_eq_true_eq, UInt8.le_iff_toNat_le]
  exact .inr ⟨Nat.le_of_lt target.1, target.2⟩

theorem readTarget_ofString {s : String} {u : Uri} :
    readTarget (Bytes.ofString s) = .ok u ↔ Uri.parse? s = some u := by
  rw [readTarget, Bytes.utf8?_ofString, Option.bind_some, Bytes.length_ofString]
  split
  · rename_i long
    rw [Uri.parse?.eq_def, if_pos long]
    simp
  · split <;> simp_all

theorem scanVersion_render (v : Version) (rest : Bytes) :
    scanVersion (Bytes.ofString v.render ++ rest) = .done v rest := by
  cases v <;> rfl

theorem skipBlankLines_cons {b : UInt8} (feed : b ≠ 10) (carriage : b ≠ 13) (rest : Bytes) :
    skipBlankLines (b :: rest) = .done () (b :: rest) := by
  rw [skipBlankLines.eq_def]
  split <;> simp_all

/-- A head whose target has been read, or not. -/
def headOf (method : String) (version : Version) (headers : Headers) (rest : Bytes) :
    Except HeadFault Uri → Scan RequestHead
  | .ok uri => .done ⟨method, uri, version, headers⟩ rest
  | .error fault => .bad fault

/-- A head that has been written is read as it was written, if its target can be read. -/
theorem scanRequestHead_written {method target : String} (version : Version)
    (token : Text.isToken method.toList = true) (named : target.toList ≠ [])
    (visible : ∀ c ∈ target.toList, Text.IsVisibleChar c)
    (h : ∀ f ∈ fields, IsField f) (few : fields.length ≤ maxFields) (rest : Bytes) :
    scanRequestHead (Wire.requestLine method target version ++
        (fields.flatMap (fun f => Wire.fieldLine f.1 f.2) ++ (Wire.lineEnd ++ rest))) =
      headOf method version ⟨fields.map scanned⟩ rest (readTarget (Bytes.ofString target)) := by
  have space : Bytes.ofString " " = [32] := rfl
  have line (back : Bytes) : Wire.requestLine method target version ++ back = Bytes.ofString method ++
      32 :: (Bytes.ofString target ++ 32 :: (Bytes.ofString version.render ++ 13 :: 10 :: back)) := by
    simp [Wire.requestLine, Wire.lineEnd, space]
  obtain ⟨b, bs, first, feed, carriage⟩ := exists_first token
  have skip (back : Bytes) : skipBlankLines (Bytes.ofString method ++ back) =
      .done () (Bytes.ofString method ++ back) := by
    rw [first]
    exact skipBlankLines_cons feed carriage (bs ++ back)
  rw [line, scanRequestHead]
  rw [bind_of_done _ (skip _)]
  rw [bind_of_done _ (nonempty_append (ofString_ne_nil (toList_ne_nil_of_isToken token)) (isTokenByte_of_mem token)
    rfl)]
  rw [bind_of_done _ (byte_cons rfl)]
  rw [bind_of_done _ (nonempty_append (ofString_ne_nil named) (isTargetByte_of_visible visible) rfl)]
  rw [bind_of_done _ (byte_cons rfl)]
  rw [bind_of_done _ (scanVersion_render version _)]
  rw [bind_of_done _ (lineEnd_cons _)]
  rw [bind_of_done _ (scanFields_lines h few rest)]
  rw [latin1_of_isToken token]
  cases readTarget (Bytes.ofString target) <;> rfl

end Http
end ForwardProxy
