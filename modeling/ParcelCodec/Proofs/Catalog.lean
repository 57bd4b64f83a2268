import ParcelCodec.Catalog

/-!
# Which classes share the name of a companion

A companion is named after its class: it lives in the same package, the dots of a nested name
become underscores, and a suffix comes last.  The package and the suffix can be told apart from
the rest, whatever they are; but an underscore may have been there before.

Main statement: `companionName_eq_iff`.
-/

namespace ParcelCodec

/-! ## §1. Qualified names. -/

namespace Text

theorem splitLastDot_eq_none {cs : List Char} (h : '.' ∉ cs) : splitLastDot cs = none := by
  induction cs with
  | nil => rfl
  | cons c rest ih =>
    obtain ⟨other, later⟩ := not_or.mp (mt List.mem_cons.mpr h)
    rw [splitLastDot, ih later]
    exact if_neg (Ne.symm other)

/-- A text is split at a dot that no other dot follows. -/
theorem splitLastDot_append {before after : List Char} (h : '.' ∉ after) :
    splitLastDot (before ++ '.' :: after) = some (before, after) := by
  induction before with
  | nil => rw [List.nil_append, splitLastDot, splitLastDot_eq_none h, if_pos rfl]
  | cons c rest ih => rw [List.cons_append, splitLastDot, ih]

end Text

/-- What follows a name inside a package follows the qualified name. -/
theorem qualified_append (package name rest : String) :
    qualified package (name ++ rest) = qualified package name ++ rest := by
  unfold qualified
  split
  · rfl
  · rw [String.append_assoc, String.append_assoc, String.append_assoc]

/-- The last dot of a qualified name stands behind its package, if there is none in its name. -/
theorem splitLastDot_qualified {package name : String} (h : '.' ∉ name.toList) :
    Text.splitLastDot (qualified package name).toList
      = if package.isEmpty then none else some (package.toList, name.toList) := by
  unfold qualified
  split
  · exact Text.splitLastDot_eq_none h
  · rw [String.toList_append, String.toList_append, List.append_assoc]
    exact Text.splitLastDot_append h

/-- A qualified name says its package, if there is no dot in its name. -/
theorem qualified_inj {p q a b : String} (ha : '.' ∉ a.toList) (hb : '.' ∉ b.toList) :
    qualified p a = qualified q b ↔ p = q ∧ a = b := by
  refine ⟨fun h => ?_, fun ⟨package, name⟩ => by rw [package, name]⟩
  have split := @splitLastDot_qualified p a ha
  rw [h, splitLastDot_qualified hb] at split
  by_cases hp : p.isEmpty = true <;> by_cases hq : q.isEmpty = true
  · obtain rfl := String.isEmpty_iff.mp hp
    obtain rfl := String.isEmpty_iff.mp hq
    exact ⟨rfl, h⟩
  · rw [if_pos hp, if_neg hq] at split
    cases split
  · rw [if_neg hp, if_pos hq] at split
    cases split
  · rw [if_neg hp, if_neg hq] at split
    injection split with pair
    injection pair with package name
    exact ⟨String.toList_injective package.symm, String.toList_injective name.symm⟩

/-! ## §2. Names of companions. -/

/-- A name with its dots replaced by underscores. -/
def flattened (name : String) : String :=
  .ofList (name.toList.map fun ch => if ch = '.' then '_' else ch)

theorem dot_not_mem_flattened (name : String) : '.' ∉ (flattened name).toList := by
  unfold flattened
  rw [String.toList_ofList, List.mem_map]
  rintro ⟨ch, -, same⟩
  split at same
  · cases same
  · next other => exact other same

namespace Catalog

variable (c : Catalog) (d d' : TypeDecl)

/-- The name of a companion is the flattened name of its class, and a suffix. -/
theorem companionName_eq :
    c.companionName d = qualified d.package (flattened d.name) ++ c.suffix :=
  qualified_append d.package (flattened d.name) c.suffix

/-- The companions of two classes share a name if the classes share a package and a flattened name,
and only then. -/
theorem companionName_eq_iff :
    c.companionName d = c.companionName d'
      ↔ d.package = d'.package ∧ flattened d.name = flattened d'.name := by
  rw [companionName_eq, companionName_eq, String.append_left_inj,
    qualified_inj (dot_not_mem_flattened d.name) (dot_not_mem_flattened d'.name)]

end Catalog

end ParcelCodec
