import ForwardProxy.Proofs.Der.Items
import ForwardProxy.Rsa.Envelope

/-!
# Envelopes are what is read

A reader of wrapped keys goes through the items of a sequence. For each of its parts, what it accepts is
described by the parts of an envelope; so it accepts the written forms of proper envelopes and nothing
else (`Wrapped.read_eq_some_iff`).

* `Der.Oid.ofContent?_eq_some_iff`: the name of an algorithm.
* `readAlgorithm_eq_some_iff`: that name and at most one parameter, which may be any item.
* `isExtension_iff`, `isPublicKey_iff`, `readExtras_eq_some_iff`: what may stand behind the octets: attributes, a
  public key, and further items of the kinds that a later version of the format may add.
* `Wrapped.ofItems?_eq_some_iff`: the parts together. The version must tell whether there is a public key, so it is
  not among the parts of an envelope but computed from them.

Each lemma follows the reader's own match on the list of items, in both directions, and is about lists of items. The
bytes come in once, at the end, by `Der.readSequence_eq_some_iff`. `Envelope.Proper` says what an envelope must
satisfy to have a written form that is read: its items are writable, and together they are not too long.
-/

namespace ForwardProxy.Der

theorem Oid.ofContent?_eq_some_iff {c : Bytes} {o : Oid} :
    Oid.ofContent? c = some o ↔ o.content = c ∧ o.InUse := by
  constructor
  · intro h
    unfold ofContent? at h
    split at h
    · cases h
    · rename_i hlength
      split at h
      · cases h
      · rename_i first rest
        split at h
        · rename_i harcs
          obtain rfl := Option.some.inj h
          obtain ⟨hmin, hmax⟩ : 3 ≤ (first :: rest).length ∧ (first :: rest).length ≤ 39 := by
            simp only [Bool.or_eq_true, decide_eq_true_eq] at hlength
            omega
          exact ⟨rfl, hmin, hmax, first, rest, rfl, by simpa using harcs⟩
        · cases h
  · rintro ⟨rfl, hmin, hmax, first, rest, hcontent, hfirst, harcs⟩
    have hlength : ¬ ((o.content.length < 3 || 39 < o.content.length) = true) := by
      simp only [Bool.or_eq_true, decide_eq_true_eq]
      omega
    have harcs' : (first < 120 && areArcs 0 rest) = true := by
      rw [harcs, Bool.and_true]
      exact decide_eq_true hfirst
    unfold ofContent?
    rw [if_neg hlength]
    simp only [hcontent]
    rw [if_pos harcs', ← hcontent]

theorem Oid.inUse_rsaEncryption : Oid.rsaEncryption.InUse :=
  ⟨by decide, by decide, 0x2A, [0x86, 0x48, 0x86, 0xF7, 0x0D, 0x01, 0x01, 0x01], rfl, by decide, by decide⟩

end ForwardProxy.Der

namespace ForwardProxy.Rsa

/-! ## Behind the octets -/

theorem isExtension_iff {i : Der.Item} : isExtension i = true ↔ Extras.Extension i := by
  simp only [isExtension, Bool.and_eq_true, Option.isSome_iff_exists, Der.Item.readOne_eq_some_iff]
  constructor
  · rintro ⟨⟨context, constructed⟩, inner⟩
    exact ⟨context, constructed, inner⟩
  · rintro ⟨context, constructed, inner⟩
    exact ⟨⟨context, constructed⟩, inner⟩

theorem isPublicKey_iff {i : Der.Item} : isPublicKey i = true ↔ ∃ key, i = Extras.publicKeyItem key := by
  obtain ⟨tag, content⟩ := i
  simp only [isPublicKey, Extras.publicKeyItem, Bool.and_eq_true, beq_iff_eq, Der.Item.mk.injEq]
  constructor
  · rintro ⟨rfl, hhead⟩
    obtain ⟨key, rfl⟩ := List.head?_eq_some_iff.mp hhead
    exact ⟨key, rfl, rfl⟩
  · rintro ⟨key, rfl, rfl⟩
    exact ⟨rfl, rfl⟩

/-- What is accepted behind the octets. -/
theorem readExtras_eq_some_iff {items : List Der.Item} {flag : Bool} : readExtras items = some flag ↔
    ∃ x : Extras, x.Proper ∧ x.items = items ∧ x.publicKey.isSome = flag := by
  constructor
  · intro h
    have parts := List.takeWhile_append_dropWhile (p := isAttribute) (l := items)
    have attributes : ∀ i ∈ items.takeWhile isAttribute, isAttribute i = true :=
      List.all_eq_true.mp List.all_takeWhile
    rw [readExtras] at h
    cases hdrop : items.dropWhile isAttribute with
    | nil =>
      rw [hdrop] at h parts
      exact ⟨⟨items.takeWhile isAttribute, none, []⟩, ⟨attributes, by simp, by simp⟩,
        by simpa [Extras.items] using parts, Option.some.inj h⟩
    | cons i rest =>
      have hnot : isAttribute i = false := by
        have := List.head?_dropWhile_not isAttribute items
        simpa [hdrop] using this
      rw [hdrop] at h parts
      simp only at h
      split at h
      · split at h
        · rename_i hrest
          obtain ⟨hkey, hext⟩ := Bool.and_eq_true_iff.mp hrest
          obtain ⟨key, rfl⟩ := isPublicKey_iff.mp hkey
          refine ⟨⟨items.takeWhile isAttribute, some key, rest⟩, ⟨attributes, ?_, by simp⟩,
            by simpa [Extras.items] using parts, Option.some.inj h⟩
          exact fun j hj => isExtension_iff.mp (List.all_eq_true.mp hext j hj)
        · cases h
      · rename_i hone
        split at h
        · rename_i hext
          have extensions : ∀ j ∈ i :: rest, Extras.Extension j :=
            fun j hj => isExtension_iff.mp (List.all_eq_true.mp hext j hj)
          refine ⟨⟨items.takeWhile isAttribute, none, i :: rest⟩, ⟨attributes, extensions, ?_⟩,
            by simpa [Extras.items] using parts, Option.some.inj h⟩
          have context := (extensions i List.mem_cons_self).context
          rintro - j hj
          obtain rfl : i = j := by simpa using hj
          exact ⟨by simpa [isAttribute, context] using hnot, by simpa [context] using hone⟩
        · cases h
  · rintro ⟨⟨attributes, publicKey, extensions⟩, proper, rfl, rfl⟩
    have hext : extensions.all isExtension = true :=
      List.all_eq_true.mpr fun i hi => isExtension_iff.mpr (proper.extensions i hi)
    rw [readExtras, Extras.items, List.append_assoc, List.dropWhile_append_of_pos proper.attributes]
    cases publicKey with
    | some key =>
      have hkey : isPublicKey (Extras.publicKeyItem key) = true := isPublicKey_iff.mpr ⟨key, rfl⟩
      have hnot : isAttribute (Extras.publicKeyItem key) = false := by
        simp [isAttribute, Extras.publicKeyItem, tagNumber]
      have hone : (Der.isContextTag (Extras.publicKeyItem key).tag &&
          tagNumber (Extras.publicKeyItem key) == 1) = true := by
        simp [Der.isContextTag, Extras.publicKeyItem, tagNumber]
      simp [hnot, hone, hkey, hext]
    | none =>
      cases extensions with
      | nil => rfl
      | cons i rest =>
        obtain ⟨hzero, hone⟩ := proper.first rfl i rfl
        have hnot : isAttribute i = false := by simp [isAttribute, hzero]
        have hone' : (Der.isContextTag i.tag && tagNumber i == 1) = false := by simp [hone]
        simp only [Option.map_none, Option.toList_none, List.nil_append, List.dropWhile_cons, hnot,
          Bool.false_eq_true, if_false, hone', hext, if_true, Option.isSome_none]

/-! ## The algorithm -/

/-- What is accepted as the name of an algorithm. -/
theorem readAlgorithm_eq_some_iff {i : Der.Item} {o : Der.Oid} : readAlgorithm i = some o ↔
    ∃ parameter : Option Der.Item, o.InUse ∧ (∀ j ∈ parameter, j.Writable) ∧
      i = ⟨Der.sequenceTag, o.write ++ parameter.toList.flatMap Der.Item.write⟩ := by
  constructor
  · intro h
    cases hinside : i.inside Der.sequenceTag with
    | none => simp [readAlgorithm, hinside] at h
    | some items =>
      obtain ⟨htag, hwritable, hcontent⟩ := Der.Item.inside_eq_some_iff.mp hinside
      rw [readAlgorithm, hinside] at h
      cases items with
      | nil => cases h
      | cons name parameters =>
        simp only at h
        split at h
        · rename_i hform
          obtain ⟨hname, hone⟩ : name.tag = Der.oidTag ∧ parameters.length ≤ 1 := by
            simpa using hform
          obtain ⟨ho, inUse⟩ := Der.Oid.ofContent?_eq_some_iff.mp h
          have hwrite : name.write = o.write := by
            rw [Der.Oid.write, Der.item, ho, ← hname]
          have hlist : parameters.head?.toList = parameters := by
            cases parameters with
            | nil => rfl
            | cons j rest =>
              obtain rfl : rest = [] := by simpa using hone
              rfl
          refine ⟨parameters.head?, inUse, fun j hj => ?_, ?_⟩
          · exact hwritable j (.tail _ (List.mem_of_head? hj))
          · rw [hlist, ← hwrite, ← List.flatMap_cons, ← hcontent, ← htag]
        · cases h
  · rintro ⟨parameter, inUse, hparameter, rfl⟩
    have hname : (⟨Der.oidTag, o.content⟩ : Der.Item).Writable := by
      obtain ⟨-, hmax, -⟩ := inUse
      exact ⟨rfl, Nat.le_trans hmax (by decide)⟩
    have inside : Der.Item.inside Der.sequenceTag
        ⟨Der.sequenceTag, o.write ++ parameter.toList.flatMap Der.Item.write⟩ =
          some (⟨Der.oidTag, o.content⟩ :: parameter.toList) := by
      refine Der.Item.inside_eq_some_iff.mpr ⟨rfl, ?_, rfl⟩
      intro j hj
      rcases List.mem_cons.mp hj with rfl | hj
      · exact hname
      · exact hparameter j (Option.mem_toList.mp hj)
    have hone : parameter.toList.length ≤ 1 := by cases parameter <;> simp
    rw [readAlgorithm, inside]
    simp only [decide_true, Bool.true_and]
    rw [if_pos (decide_eq_true hone)]
    exact Der.Oid.ofContent?_eq_some_iff.mpr ⟨rfl, inUse⟩

/-! ## Wrapped keys -/

namespace Envelope

variable {e : Envelope}

/-- The written form of a proper envelope is read as its items. -/
theorem Proper.readSequence (he : e.Proper) : Der.readSequence e.write = some e.items := by
  have hmax := he.length
  rw [write] at hmax ⊢
  refine Der.readSequence_sequence ?_ hmax
  intro i hi
  rcases List.mem_cons.mp hi with rfl | hi
  · rfl
  · rcases List.mem_cons.mp hi with rfl | hi
    · rfl
    · rcases List.mem_cons.mp hi with rfl | hi
      · rfl
      · exact (he.writable i hi).1

/-- The octets are not longer than what they are wrapped in. -/
theorem length_octets_le (e : Envelope) : e.octets.length ≤ e.write.length := by
  have hi : (⟨Der.octetStringTag, e.octets⟩ : Der.Item) ∈ e.items := by simp [items]
  exact Der.length_content_le_sequence hi

end Envelope

/-- What is accepted as the items of a wrapped key. -/
theorem Wrapped.ofItems?_eq_some_iff {items : List Der.Item} {w : Wrapped} :
    Wrapped.ofItems? items = some w ↔ ∃ e : Envelope, e.algorithm.InUse ∧
      (∀ i ∈ e.parameter, i.Writable) ∧ e.extras.Proper ∧ e.items = items ∧
      w = ⟨e.algorithm, e.octets⟩ := by
  constructor
  · intro h
    match items with
    | [] | [_] | [_, _] => cases h
    | version :: algorithm :: key :: extras =>
      rw [ofItems?] at h
      split at h
      · rename_i htags
        obtain ⟨hversion, hkey⟩ : version.tag = Der.integerTag ∧ key.tag = Der.octetStringTag := by
          simpa using htags
        split at h
        · rename_i o flag halgorithm hextras
          by_cases hcontent : version.content = [if flag = true then 1 else 0]
          · rw [if_pos hcontent] at h
            obtain rfl := Option.some.inj h
            obtain ⟨parameter, inUse, hparameter, rfl⟩ := readAlgorithm_eq_some_iff.mp halgorithm
            obtain ⟨x, hx, rfl, rfl⟩ := readExtras_eq_some_iff.mp hextras
            refine ⟨⟨o, parameter, key.content, x⟩, inUse, hparameter, hx, ?_, rfl⟩
            rw [Envelope.items, Envelope.version, ← hcontent, ← hversion, ← hkey]
            rfl
          · rw [if_neg hcontent] at h
            cases h
        · cases h
      · cases h
  · rintro ⟨e, inUse, hparameter, hx, rfl, rfl⟩
    have halgorithm : readAlgorithm e.algorithmItem = some e.algorithm :=
      readAlgorithm_eq_some_iff.mpr ⟨e.parameter, inUse, hparameter, rfl⟩
    have hextras : readExtras e.extras.items = some e.extras.publicKey.isSome :=
      readExtras_eq_some_iff.mpr ⟨e.extras, hx, rfl, rfl⟩
    rw [Envelope.items, ofItems?, halgorithm, hextras]
    simp [Envelope.version]

/-- Wrapped keys are the written forms of proper envelopes. -/
theorem Wrapped.read_eq_some_iff {b : Bytes} {w : Wrapped} : Wrapped.read b = some w ↔
    ∃ e : Envelope, e.Proper ∧ e.write = b ∧ w = ⟨e.algorithm, e.octets⟩ := by
  constructor
  · intro h
    obtain ⟨items, hitems, hw⟩ := Option.bind_eq_some_iff.mp h
    obtain ⟨hwritable, hb, hmax⟩ := Der.readSequence_eq_some_iff.mp hitems
    obtain ⟨e, inUse, hparameter, hx, rfl, rfl⟩ := ofItems?_eq_some_iff.mp hw
    have extras : ∀ i ∈ e.extras.items, i.Writable :=
      fun i hi => hwritable i (.tail _ (.tail _ (.tail _ hi)))
    have hwrite : e.write = b := hb.symm
    exact ⟨e, ⟨inUse, hparameter, hx, extras, hwrite ▸ hmax⟩, hwrite, rfl⟩
  · rintro ⟨e, he, rfl, rfl⟩
    rw [Wrapped.read, he.readSequence, Option.bind_some]
    exact ofItems?_eq_some_iff.mpr ⟨e, he.algorithm, he.parameter, he.extras, rfl, rfl⟩

end ForwardProxy.Rsa
