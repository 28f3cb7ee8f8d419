import Mathlib.Data.List.Basic
import Playground.Proofs.Digest
import Playground.Publish.Publisher

/-!
# Keys of published modules

A digest is 64 lowercase hexadecimal digits, so the key of a module can be taken apart from its end:
the variant by the dot of its suffix, the digest by its length, and the import path is what is left.
Hence different modules have different keys, and none of them is the key of the universe record.
-/

namespace Playground

/-! ### Keys -/

variable {path path' : String} {digest digest' : Digest} {variant variant' : Variant}

theorem toList_storageKey (path : String) (digest : Digest) (variant : Variant) :
    (storageKey path digest variant).toList =
      ("sys/".toList ++ path.toList ++ ['.'] ++ digest.text.toList) ++
        (variant.keySuffix.toList ++ ".js".toList) := by
  simp [storageKey, storagePrefix]

/-- What ends in a digest does not end in the suffix of a variant. -/
theorem ne_append_suffix (hd : digest.IsHex) (front front' : List Char) :
    front ++ digest.text.toList ≠ front' ++ ".min".toList := by
  intro h
  have hdigest : digest.text.toList <:+ front' ++ ".min".toList := ⟨front, h⟩
  have hsuffix : ".min".toList <:+ digest.text.toList := by
    refine List.suffix_of_suffix_length_le (List.suffix_append front' _) hdigest ?_
    rw [hd.1]
    decide
  have hdot : '.' ∈ hexDigits := hd.2 '.' (hsuffix.subset (by decide))
  revert hdot
  decide

theorem storageKey_inj (hd : digest.IsHex) (hd' : digest'.IsHex)
    (h : storageKey path digest variant = storageKey path' digest' variant') :
    path = path' ∧ digest = digest' ∧ variant = variant' := by
  have hchars := congrArg String.toList h
  simp only [toList_storageKey, ← List.append_assoc] at hchars
  have hbody := List.append_cancel_right hchars
  have hvariant : variant = variant' := by
    cases variant <;> cases variant'
    · rfl
    · exact absurd (hbody.trans (List.append_nil _)).symm (ne_append_suffix hd' _ _)
    · exact absurd ((List.append_nil _).symm.trans hbody) (ne_append_suffix hd _ _)
    · rfl
  subst hvariant
  have hbody := List.append_cancel_right hbody
  have hdigests : digest.text.toList.length = digest'.text.toList.length :=
    hd.1.trans hd'.1.symm
  obtain ⟨hfront, htext⟩ := List.append_inj' hbody hdigests
  have hpath := List.append_cancel_right hfront
  rw [List.append_right_inj] at hpath
  exact ⟨String.toList_inj.1 hpath, congrArg Digest.mk (String.toList_inj.1 htext), rfl⟩

theorem storageKey_ne_recordKey : storageKey path digest variant ≠ recordKey := by
  intro h
  have hchars := congrArg (fun s => s.toList.getLast?) h
  simp only [toList_storageKey] at hchars
  have hrecord : recordKey.toList.getLast? = some 'n' := by decide
  have hmodule : ".js".toList.getLast? = some 's' := by decide
  rw [hrecord, ← List.append_assoc, List.getLast?_append, hmodule, Option.some_or] at hchars
  exact absurd hchars (by decide)

end Playground
