import ForwardProxy.Bytes
import Mathlib.Data.List.Basic

/-!
# Texts as bytes

A text in UTF-8 is the bytes of its characters one after the other. A character of ASCII is one byte,
its code; all bytes of other characters lie above ASCII, so that a character of ASCII is found among the
bytes just when it is in the text.

* `utf8?_eq_some_iff`: bytes are the text of which they are the encoding, and of no other one.
* `mem_utf8EncodeChar`: a byte of a character is its code, or is above 127.
* `mem_flatMap_iff`: so a mark of ASCII is looked for among the bytes as well as among the characters.
* `utf8?_concat`: a byte of ASCII behind any bytes is a character of its own, also if the bytes are no text.
* `latin1_ofString`, `ofString_latin1`: in ASCII, one byte for one character is the same as UTF-8.

The validity of UTF-8 is the library's (`String`, `ByteArray`); what is used of it is the encoding of one character,
so that no proof goes through the tables of well-formed sequences. `forall_of_codes` turns a statement about all
bytes into one about 256 codes, which is computed.
-/

namespace ForwardProxy.Bytes

/-- What can be looked up for every code below 256 holds of every byte. -/
theorem forall_of_codes {P : UInt8 → Prop} (codes : ∀ n : Fin 256, P (UInt8.ofNat n.val)) (b : UInt8) : P b := by
  simpa using codes ⟨b.toNat, b.toNat_lt⟩

theorem ofString_eq (s : String) : ofString s = s.toList.flatMap String.utf8EncodeChar := by
  obtain ⟨cs, rfl⟩ : ∃ cs, s = String.ofList cs := ⟨s.toList, String.ofList_toList.symm⟩
  rw [ofString, String.toUTF8_eq_toByteArray, String.toByteArray_ofList, List.utf8Encode,
    List.toList_data_toByteArray, String.toList_ofList]

theorem ofString_ofList (cs : List Char) :
    ofString (String.ofList cs) = cs.flatMap String.utf8EncodeChar := by
  rw [ofString_eq, String.toList_ofList]

@[simp] theorem ofString_append (s t : String) : ofString (s ++ t) = ofString s ++ ofString t := by
  rw [ofString_eq, ofString_eq, ofString_eq, String.toList_append, List.flatMap_append]

theorem ofString_injective : Function.Injective ofString := by
  intro s t same
  rw [ofString, ofString, String.toUTF8_eq_toByteArray, String.toUTF8_eq_toByteArray] at same
  exact String.toByteArray_inj.mp (ByteArray.ext (Array.toList_inj.mp same))

/-- A text is read back from its bytes. -/
theorem utf8?_ofString (s : String) : utf8? (ofString s) = some s := by
  have same : ByteArray.mk (ofString s).toArray = s.toByteArray := by
    rw [ofString, String.toUTF8_eq_toByteArray, Array.toArray_toList]
  have valid : s.toByteArray.IsValidUTF8 := s.isValidUTF8
  rw [utf8?, same, String.fromUTF8?, dif_pos valid]
  rfl

theorem utf8?_eq_some_iff {b : Bytes} {s : String} : utf8? b = some s ↔ b = ofString s := by
  constructor
  · intro h
    unfold utf8? String.fromUTF8? at h
    split at h
    · cases h
      simp [ofString, String.fromUTF8]
    · cases h
  · rintro rfl
    exact utf8?_ofString s

/-- A character of ASCII is one byte. -/
theorem utf8EncodeChar_ascii {c : Char} (hc : c.toNat < 128) :
    String.utf8EncodeChar c = [UInt8.ofNat c.toNat] := by
  have low : c.val.toNat ≤ 127 := by
    have same : c.val.toNat = c.toNat := rfl
    omega
  rw [String.utf8EncodeChar.eq_1, if_pos low]
  rfl

theorem toNat_ofNat_ascii {c : Char} (hc : c.toNat < 128) : (UInt8.ofNat c.toNat).toNat = c.toNat := by
  rw [UInt8.toNat_ofNat']
  omega

/-- Two characters of ASCII that are one byte are the same. -/
theorem eq_of_ofNat_eq {c d : Char} (hc : c.toNat < 128) (hd : d.toNat < 128)
    (same : UInt8.ofNat c.toNat = UInt8.ofNat d.toNat) : c = d := by
  have codes := congrArg UInt8.toNat same
  rw [toNat_ofNat_ascii hc, toNat_ofNat_ascii hd] at codes
  exact Char.toNat_inj.mp codes

theorem flatMap_utf8EncodeChar_ascii {cs : List Char} (hcs : ∀ c ∈ cs, c.toNat < 128) :
    cs.flatMap String.utf8EncodeChar = cs.map fun c => UInt8.ofNat c.toNat := by
  induction cs with
  | nil => rfl
  | cons c cs ih =>
    rw [List.forall_mem_cons] at hcs
    rw [List.flatMap_cons, List.map_cons, utf8EncodeChar_ascii hcs.1, ih hcs.2, List.singleton_append]

/-- A byte of a character is the character's code, or lies above ASCII. -/
theorem mem_utf8EncodeChar {c : Char} {b : UInt8} (hb : b ∈ String.utf8EncodeChar c) :
    c.toNat < 128 ∧ b = UInt8.ofNat c.toNat ∨ 128 ≤ b.toNat := by
  by_cases hc : c.toNat < 128
  · rw [utf8EncodeChar_ascii hc, List.mem_singleton] at hb
    exact .inl ⟨hc, hb⟩
  · right
    have high : ¬ c.val.toNat ≤ 127 := by
      have same : c.val.toNat = c.toNat := rfl
      omega
    have top : c.val.toNat < 0x110000 := by
      have valid := c.valid
      simp only [UInt32.isValidChar, Nat.isValidChar] at valid
      omega
    rw [String.utf8EncodeChar.eq_1, if_neg high] at hb
    split at hb
    · simp only [List.mem_cons, List.not_mem_nil, or_false] at hb
      rcases hb with rfl | rfl <;> rw [UInt8.toNat_ofNat'] <;> omega
    split at hb
    · simp only [List.mem_cons, List.not_mem_nil, or_false] at hb
      rcases hb with rfl | rfl | rfl <;> rw [UInt8.toNat_ofNat'] <;> omega
    · simp only [List.mem_cons, List.not_mem_nil, or_false] at hb
      rcases hb with rfl | rfl | rfl | rfl <;> rw [UInt8.toNat_ofNat'] <;> omega

/-- A character of ASCII is among the bytes just when it is in the text. -/
theorem mem_flatMap_iff {cs : List Char} {a : Char} (ha : a.toNat < 128) :
    UInt8.ofNat a.toNat ∈ cs.flatMap String.utf8EncodeChar ↔ a ∈ cs := by
  rw [List.mem_flatMap]
  constructor
  · rintro ⟨c, hc, hb⟩
    rcases mem_utf8EncodeChar hb with ⟨low, same⟩ | high
    · rwa [eq_of_ofNat_eq ha low same]
    · rw [toNat_ofNat_ascii ha] at high
      omega
  · intro hc
    exact ⟨a, hc, by rw [utf8EncodeChar_ascii ha]; exact List.mem_singleton.mpr rfl⟩

/-- A byte of ASCII at the end of a text is a character of its own. -/
theorem utf8?_concat {c : Char} (hc : c.toNat < 128) (b : Bytes) :
    utf8? (b ++ [UInt8.ofNat c.toNat]) = (utf8? b).map (·.push c) := by
  have push (s : String) : ofString (s.push c) = ofString s ++ [UInt8.ofNat c.toNat] := by
    simp [ofString_eq, utf8EncodeChar_ascii hc]
  ext t
  rw [Option.map_eq_some_iff, utf8?_eq_some_iff]
  constructor
  · intro same
    rcases List.eq_nil_or_concat' t.toList with empty | ⟨cs, d, ends⟩
    · simp [ofString_eq, empty] at same
    · rw [ofString_eq, ends, List.flatMap_append, List.flatMap_singleton] at same
      have last : String.utf8EncodeChar d ≠ [] := by
        rw [← List.length_pos_iff, String.length_utf8EncodeChar]
        exact d.utf8Size_pos
      have mem : UInt8.ofNat c.toNat ∈ String.utf8EncodeChar d := by
        have ends := congrArg List.getLast? same
        rw [List.getLast?_concat, List.getLast?_append_of_ne_nil _ last] at ends
        exact List.mem_of_getLast? ends.symm
      rcases mem_utf8EncodeChar mem with ⟨low, code⟩ | high
      · obtain rfl := eq_of_ofNat_eq hc low code
        rw [utf8EncodeChar_ascii low, List.append_cancel_right_eq] at same
        refine ⟨String.ofList cs, utf8?_eq_some_iff.mpr (same.trans (ofString_ofList cs).symm), ?_⟩
        rw [← String.toList_inj, String.toList_push, String.toList_ofList, ends]
      · rw [toNat_ofNat_ascii hc] at high
        omega
  · rintro ⟨s, read, rfl⟩
    rw [push, utf8?_eq_some_iff.mp read]

/-- Text in ASCII can be read one character per byte. -/
theorem latin1_ofString {s : String} (hs : ∀ c ∈ s.toList, c.toNat < 128) : latin1 (ofString s) = s := by
  have codes : ∀ c ∈ s.toList, Char.ofNat (UInt8.ofNat c.toNat).toNat = c := fun c hc => by
    rw [toNat_ofNat_ascii (hs c hc), Char.ofNat_toNat]
  rw [latin1, ofString_eq, flatMap_utf8EncodeChar_ascii hs, List.map_map]
  conv_rhs => rw [← String.ofList_toList (s := s), ← List.map_id s.toList]
  exact congrArg String.ofList (List.map_congr_left codes)

theorem ofString_latin1 {b : Bytes} (hb : ∀ x ∈ b, x.toNat < 128) : ofString (latin1 b) = b := by
  have code (x : UInt8) : (Char.ofNat x.toNat).toNat = x.toNat := by
    have valid : x.toNat.isValidChar := .inl (Nat.lt_trans x.toNat_lt (by decide))
    rw [Char.ofNat, dif_pos valid]
    rfl
  have ascii : ∀ c ∈ b.map fun x => Char.ofNat x.toNat, c.toNat < 128 := by
    intro c hc
    obtain ⟨x, hx, rfl⟩ := List.mem_map.mp hc
    rw [code x]
    exact hb x hx
  rw [latin1, ofString_ofList, flatMap_utf8EncodeChar_ascii ascii, List.map_map]
  conv_rhs => rw [← List.map_id b]
  refine List.map_congr_left fun x hx => ?_
  rw [Function.comp_apply, code x, UInt8.ofNat_toNat, id]

/-- What holds of the codes of the characters and above ASCII holds of the bytes of a text. -/
theorem forall_mem_ofString {s : String} {P : UInt8 → Prop}
    (ascii : ∀ c ∈ s.toList, c.toNat < 128 → P (UInt8.ofNat c.toNat)) (above : ∀ b : UInt8, 128 ≤ b.toNat → P b) :
    ∀ b ∈ ofString s, P b := by
  intro b hb
  rw [ofString_eq, List.mem_flatMap] at hb
  obtain ⟨c, hc, hb⟩ := hb
  rcases mem_utf8EncodeChar hb with ⟨low, rfl⟩ | high
  · exact ascii c hc low
  · exact above b high

theorem length_ofString (s : String) : (ofString s).length = s.utf8ByteSize := by
  rw [ofString, String.toUTF8_eq_toByteArray, Array.length_toList]
  rfl

end ForwardProxy.Bytes
