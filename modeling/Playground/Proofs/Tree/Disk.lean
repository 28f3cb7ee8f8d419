import Playground.Proofs.Named
import Playground.Tree.Disk

/-!
# Places of the disk

What is put at a place or moved there is found at it, and all else stays.  A written path that is a
single name leads to that name in the working directory (`IsName.locate_free`,
`IsName.locate_file`, `IsName.locate_dir`).
-/

namespace Playground.Disk

variable {d : Disk} {purpose : Purpose} {name : String} {content : ByteArray} {place place' : Path}
  {node : Node}

/-! ### Places -/

theorem node?_put (h : place ≠ []) :
    (d.put place node).node? place' = if place = place' then some node else d.node? place' := by
  by_cases hplace : place' = []
  · simp [node?, hplace, h]
  · simp [node?, hplace, put, Std.ExtTreeMap.getElem?_insert]

theorem node?_put_self (h : place ≠ []) : (d.put place node).node? place = some node := by
  rw [node?_put h, if_pos rfl]

theorem node?_put_of_ne (h : place ≠ []) (hne : place ≠ place') :
    (d.put place node).node? place' = d.node? place' := by
  rw [node?_put h, if_neg hne]

theorem node?_move {old new : Path} (hold : old ≠ []) (hnew : new ≠ []) :
    (d.move old new node).node? place =
      if new = place then some node else if old = place then none else d.node? place := by
  by_cases hplace : place = []
  · simp [node?, hplace, hold, hnew]
  · simp [node?, hplace, move, Std.ExtTreeMap.getElem?_insert, Std.ExtTreeMap.getElem?_erase]

/-! ### Single names -/

/-- A written path that is one name, and not too long a one. -/
structure IsName (name : String) : Prop where
  names : names name = [name]
  plain : name ≠ "" ∧ name ≠ "." ∧ name ≠ ".."
  fits : name.utf8ByteSize ≤ nameLimit
  relative : DiskPath.isAbsolute name = false
  open_ended : DiskPath.endsInSeparator name = false
  printable : name.toList.contains '\x00' = false
  short : Text.byteLength name.toList < pathLimit

instance (name : String) : Decidable (IsName name) :=
  decidable_of_iff (Disk.names name = [name] ∧ (name ≠ "" ∧ name ≠ "." ∧ name ≠ "..") ∧
    name.utf8ByteSize ≤ nameLimit ∧ DiskPath.isAbsolute name = false ∧
    DiskPath.endsInSeparator name = false ∧ name.toList.contains '\x00' = false ∧
    Text.byteLength name.toList < pathLimit)
    ⟨fun ⟨h₁, h₂, h₃, h₄, h₅, h₆, h₇⟩ => ⟨h₁, h₂, h₃, h₄, h₅, h₆, h₇⟩,
      fun ⟨h₁, h₂, h₃, h₄, h₅, h₆, h₇⟩ => ⟨h₁, h₂, h₃, h₄, h₅, h₆, h₇⟩⟩

theorem IsName.locate_eq (h : IsName name) :
    d.locate purpose name = d.walk purpose linkLimit d.workingDir [name] := by
  have hlimit : ¬ pathLimit ≤ Text.byteLength name.toList := Nat.not_le.2 h.short
  rw [locate, h.printable, if_neg Bool.false_ne_true, if_neg h.plain.1, if_neg hlimit, h.relative,
    h.names]
  rfl

theorem IsName.locate_free (h : IsName name) (hfree : d.node? (d.workingDir ++ [name]) = none) :
    d.locate purpose name = .ok (.free (d.workingDir ++ [name])) := by
  have hfits : ¬ nameLimit < name.utf8ByteSize := Nat.not_lt.2 h.fits
  rw [h.locate_eq, walk]
  simp [h.plain, hfits, hfree]

theorem IsName.locate_file (h : IsName name)
    (hfile : d.node? (d.workingDir ++ [name]) = some (.file content)) :
    d.locate purpose name = .ok (.taken (d.workingDir ++ [name]) (.file content)) := by
  have hfits : ¬ nameLimit < name.utf8ByteSize := Nat.not_lt.2 h.fits
  rw [h.locate_eq, walk]
  simp [h.plain, hfits, hfile]

theorem IsName.locate_dir (h : IsName name)
    (hdir : d.node? (d.workingDir ++ [name]) = some .dir) :
    d.locate purpose name = .ok (.taken (d.workingDir ++ [name]) .dir) := by
  have hfits : ¬ nameLimit < name.utf8ByteSize := Nat.not_lt.2 h.fits
  rw [h.locate_eq, walk]
  simp [h.plain, hfits, hdir, walk]

end Playground.Disk
