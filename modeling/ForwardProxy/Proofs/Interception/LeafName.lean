import ForwardProxy.Interception.LeafName
import ForwardProxy.Proofs.Files.Linkless
import ForwardProxy.Proofs.Text.Bytes

/-!
# Leaf files stay in their directory

The name of a leaf file is a single name: no slash is in it, and it is none of the points that lead
elsewhere (`isName_leafName`, `leafName_ne_up`). From the name it can be told whether the file holds the certificate or
the key (`leafName_certificate_ne_key`), and two hosts that share one of the two files share the other one
(`leafName_congr`).

This is what the operations on files need of the names. That they are told apart by the host as well is another
matter, for which the stem has to be read back. The ending is longer than two characters whatever the host is, even
for an empty one, which settles the points.
-/

namespace ForwardProxy.Text

theorem lowerChar_lowerChar (c : Char) : lowerChar (lowerChar c) = lowerChar c := by
  by_cases capital : 'A' ≤ c ∧ c ≤ 'Z'
  · have small : ∀ n : Fin 26, lowerChar (Char.ofNat (97 + n.val)) = Char.ofNat (97 + n.val) := by decide
    have bounds : 65 ≤ c.toNat ∧ c.toNat ≤ 90 := capital
    have same := small ⟨c.toNat - 65, by omega⟩
    have code : 97 + (c.toNat - 65) = c.toNat + 32 := by omega
    rw [code] at same
    rw [lowerChar.eq_def c, if_pos capital, same]
  · have same : lowerChar c = c := if_neg capital
    rw [same, same]

@[simp] theorem lower_lower (s : String) : lower (lower s) = lower s := by
  have twice : lowerChar ∘ lowerChar = lowerChar := funext lowerChar_lowerChar
  simp [lower, twice]

end ForwardProxy.Text

namespace ForwardProxy.Interception

open Files.Tree (IsName)

theorem slash_notMem_stemOctet (b : UInt8) : '/' ∉ stemOctet b :=
  Bytes.forall_of_codes (P := fun b => '/' ∉ stemOctet b) (by decide +kernel) b

theorem toList_leafName (host : String) (f : LeafFile) :
    (leafName host f).toList = stem (Bytes.ofString (Text.lower host)) ++ f.ending :=
  String.toList_ofList

theorem two_lt_length_leafName (host : String) (f : LeafFile) : 2 < (leafName host f).toList.length := by
  have ending : ∀ f : LeafFile, 2 < f.ending.length := by
    rintro (_ | _) <;> decide
  have := ending f
  rw [toList_leafName, List.length_append]
  omega

theorem isName_leafName (host : String) (f : LeafFile) : IsName (leafName host f) where
  ne_empty empty := by
    have long := two_lt_length_leafName host f
    simp [empty] at long
  ne_point point := by
    have long := two_lt_length_leafName host f
    simp [point] at long
  slash_notMem := by
    have ending : ∀ f : LeafFile, '/' ∉ f.ending := by
      rintro (_ | _) <;> decide
    simp [toList_leafName, stem, slash_notMem_stemOctet, ending f]

theorem leafName_ne_up (host : String) (f : LeafFile) : leafName host f ≠ ".." := by
  intro up
  have long := two_lt_length_leafName host f
  simp [up] at long

/-- The last characters tell a certificate from a key. -/
theorem leafName_certificate_ne_key (host host' : String) :
    leafName host .certificate ≠ leafName host' .key := by
  intro same
  have last (f : LeafFile) (host : String) : (leafName host f).toList.reverse.take 5 = f.ending.reverse.take 5 := by
    rw [toList_leafName, List.reverse_append, List.take_append_of_le_length]
    cases f <;> decide
  have told := last .certificate host
  rw [same, last .key host'] at told
  exact absurd told (by decide)

/-- Hosts that share a file share the other one as well. -/
theorem leafName_congr {host host' : String} {f : LeafFile} (h : leafName host f = leafName host' f)
    (g : LeafFile) : leafName host g = leafName host' g := by
  have same := congrArg String.toList h
  rw [toList_leafName, toList_leafName, List.append_cancel_right_eq] at same
  rw [leafName, leafName, same]

@[simp] theorem leafPaths_lower (dir host : String) : leafPaths dir (Text.lower host) = leafPaths dir host := by
  simp [leafPaths, leafName]

end ForwardProxy.Interception
