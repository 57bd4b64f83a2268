import ParcelCodec.Codec.Rule
import ParcelCodec.Proofs.Adapter.Registry

/-!
# What a rule says about its type

A type is encoded through a companion only if it names a data class that has one, and through an
adapter only if the adapter is registered.

Main statements: `nested_of_classify` and `mem_entries_of_classify`.
-/

namespace ParcelCodec

namespace Codebook

variable {b : Codebook} {ty : JavaType}

/-- A rule comes from an adapter, from the exact built-ins, or from the shape of the type. -/
theorem rule_of_classify {rule : Rule} (h : b.classify ty = .ok rule) :
    (∃ found priority, b.registry.handlerAt? ty priority = some found ∧ rule = .adapter found)
      ∨ (∃ l, exactLeaf? ty = some l ∧ rule = .leaf l) ∨ b.shape ty = .ok rule := by
  unfold classify at h
  rcases high : b.registry.handlerAt? ty .high with _ | found
  · rcases other : b.registry.handlerAt? ty .default with _ | found
    · rcases exact : exactLeaf? ty with _ | l
      · cases hb : b.tieBreak <;> simp [high, other, exact, hb] at h <;> exact .inr (.inr h)
      · cases hb : b.tieBreak <;> simp [high, other, exact, hb] at h <;>
          exact .inr (.inl ⟨l, rfl, h.symm⟩)
    · rcases exact : exactLeaf? ty with _ | l
      · cases hb : b.tieBreak <;> simp [high, other, exact, hb] at h <;>
          exact .inl ⟨found, .default, other, h.symm⟩
      · cases hb : b.tieBreak <;> simp [high, other, exact, hb] at h
        · exact .inr (.inl ⟨l, rfl, h.symm⟩)
        · exact .inl ⟨found, .default, other, h.symm⟩
  · cases hb : b.tieBreak <;> simp [high, hb] at h <;> exact .inl ⟨found, .high, high, h.symm⟩

theorem exactLeaf?_ne_nested {companion : String} : exactLeaf? ty ≠ some (.nested companion) := by
  intro h
  unfold exactLeaf? at h
  split at h
  · cases h
  · cases h
  · cases h
  · split at h
    · cases h
    · obtain ⟨op, -, same⟩ := Option.map_eq_some_iff.mp h
      unfold platformLeaf at same
      split at same <;> cases same

/-- The rules that ask only what a class extends lead to no adapter and to no companion. -/
theorem plain_of_fallback {name : String} {args : List JavaType} {rule : Rule}
    (h : structural.fallback b name args = .ok rule) :
    (∀ found, rule ≠ .adapter found) ∧ ∀ companion, rule ≠ .leaf (.nested companion) := by
  unfold structural.fallback at h
  split at h
  · cases h
    exact ⟨nofun, nofun⟩
  · split at h
    · cases h
      exact ⟨nofun, nofun⟩
    · split at h
      · cases h
        exact ⟨nofun, nofun⟩
      · cases h

/-- The rules for collections lead to no adapter and to no companion. -/
theorem plain_of_collection {name : String} {info : Java.Collection} {args : List JavaType}
    {rule : Rule} (h : collection name info args = .ok rule) :
    (∀ found, rule ≠ .adapter found) ∧ ∀ companion, rule ≠ .leaf (.nested companion) := by
  unfold collection at h
  split at h <;> simp only [Except.ok.injEq, reduceCtorEq] at h
  all_goals
    subst h
    exact ⟨by simp, by simp⟩

/-- The shape of a class leads to no adapter, and to the companion of a data class only if that
one is not rejected. -/
theorem rule_of_structural {name : String} {args : List JavaType} {rule : Rule}
    (h : b.structural name args = .ok rule) :
    (∀ found, rule ≠ .adapter found) ∧ ∀ companion, rule = .leaf (.nested companion) →
      ∃ d, b.catalog.decl? name = some d ∧ d.dataClass = true ∧ name ∉ b.rejected
        ∧ companion = b.catalog.companionName d := by
  unfold structural at h
  split at h
  · cases h
    exact ⟨by simp, by simp⟩
  · split at h
    · exact ⟨(plain_of_collection h).1, fun _ same => absurd same ((plain_of_collection h).2 _)⟩
    · split at h
      · rcases args with _ | ⟨element, _⟩
        · cases h
        · cases h
          exact ⟨by simp, by simp⟩
      · -- Only a declared class can be a data class, and only a data class is nested.
        rcases declared : b.catalog.decl? name with _ | d
        · rw [declared] at h
          exact ⟨(plain_of_fallback h).1, fun _ same => absurd same ((plain_of_fallback h).2 _)⟩
        · simp only [declared] at h
          split at h
          · next data =>
            split at h
            · cases h
            · next kept =>
              cases h
              refine ⟨by simp, fun companion same => ?_⟩
              cases same
              exact ⟨d, rfl, data, by simpa using kept, rfl⟩
          · exact ⟨(plain_of_fallback h).1, fun _ same => absurd same ((plain_of_fallback h).2 _)⟩

/-- A type whose codec is a companion's names a data class that is not rejected. -/
theorem nested_of_classify {companion : String}
    (h : b.classify ty = .ok (.leaf (.nested companion))) :
    ∃ name args d, ty = .declared name args ∧ b.catalog.decl? name = some d ∧ d.dataClass = true
      ∧ name ∉ b.rejected ∧ companion = b.catalog.companionName d := by
  rcases rule_of_classify h with ⟨found, _, _, same⟩ | ⟨l, exact, same⟩ | h
  · cases same
  · cases same
    exact absurd exact exactLeaf?_ne_nested
  · cases ty with
    | primitive => cases h
    | array => cases h
    | declared name args =>
      obtain ⟨d, hd⟩ := (rule_of_structural h).2 companion rfl
      exact ⟨name, args, d, rfl, hd⟩

/-- An adapter that a type falls under handles it. -/
theorem exists_handlerAt?_of_classify {found : AdapterMatch}
    (h : b.classify ty = .ok (.adapter found)) :
    ∃ priority, b.registry.handlerAt? ty priority = some found := by
  rcases rule_of_classify h with ⟨found', priority, handles, same⟩ | ⟨l, _, same⟩ | h
  · cases same
    exact ⟨priority, handles⟩
  · cases same
  · cases ty with
    | primitive => cases h
    | array => cases h
    | declared name args => exact absurd rfl ((rule_of_structural h).1 found)

/-- An adapter that a type falls under is registered. -/
theorem mem_entries_of_classify {found : AdapterMatch} (h : b.classify ty = .ok (.adapter found)) :
    found.entry ∈ b.registry.entries := by
  obtain ⟨_, handles⟩ := exists_handlerAt?_of_classify h
  exact (Registry.match_of_handlerAt? handles).1

end Codebook

end ParcelCodec
