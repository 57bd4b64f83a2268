import ParcelCodec.Proofs.Companion.Locals
import ParcelCodec.Proofs.Compilation.Links

/-!
# Which companions have their local variables apart

The procedures of a compiled companion introduce no name that is visible, but for those that read
the value of a shared codec.  They do so too unless some map refuses null and has a key that is a
container: the statements that read such a key stand in the loop over the entries itself, and the
value of the entry is read with the same names if it draws any for the same bases.

Main statement: `localsApart_iff_roomy`.
-/

namespace ParcelCodec.Compilation

/-- A compiled companion introduces no name that is visible if all codecs that it shares have room,
and only then.  The names are apart in any case where an instance is read or written, and where a
shared codec writes. -/
theorem localsApart_iff_roomy (m : Model) (o : Options) {k : Companion}
    (hk : k ∈ (ofModel m o).companions) :
    ∃ d ∈ descriptors m o, k = Companion.ofDescriptor d
      ∧ (k.localsApart = true
        ↔ ∀ shared ∈ (Statics.ofDescriptor d).codecs, shared.codec.roomy = true)
      ∧ k.read.localsApart = true ∧ k.write.localsApart = true
      ∧ ∀ codec ∈ k.codecs, codec.write.localsApart = true := by
  rw [companions_ofModel] at hk
  obtain ⟨d, hd, rfl⟩ := List.mem_map.mp hk
  refine ⟨d, hd, rfl, ?_, Companion.localsApart_read d, Companion.localsApart_write d, ?_⟩
  · rw [Companion.localsApart_ofDescriptor, List.all_eq_true]
  · intro codec hc
    obtain ⟨shared, -, rfl⟩ := List.mem_map.mp hc
    exact (Companion.localsApart_codecDecl _ _ shared).2

/-- A class with a map that refuses null and whose keys are lists of words. -/
def wordLists (className value : String) : TypeDecl :=
  plainClass className [("pages", "java.util.TreeMap<java.util.List<String>, " ++ value ++ ">")]

/-- Two indexes by lists of words: one of words in arrays, and one of words in lists. -/
def indexes : Model :=
  ⟨[wordLists "Arrays" "String[]", wordLists "Lists" "java.util.List<String>"], []⟩

/-- What the companions of the indexes share. -/
theorem codecs_indexes :
    (ofModel indexes .default).diagnostics = []
      ∧ (∃ k ∈ (ofModel indexes .default).companions,
        k.type = .named "app.Arrays" ∧ k.codecs ≠ [])
      ∧ (∀ d ∈ descriptors indexes .default, d.type = .named "app.Arrays" →
        ∀ shared ∈ (Statics.ofDescriptor d).codecs, shared.codec.roomy = true)
      ∧ ∃ k ∈ (ofModel indexes .default).companions,
        ∃ codec ∈ k.codecs, codec.read.localsApart = false := by
  decide +kernel

/-- A list has a size and an array has a length, so an array leaves room for a list. -/
theorem localsApart_iff_roomy_indexes :
    ∃ k ∈ (ofModel indexes .default).companions, k.codecs ≠ [] ∧ k.localsApart = true := by
  obtain ⟨-, ⟨k, hk, type, shares⟩, room, -⟩ := codecs_indexes
  obtain ⟨d, hd, rfl, apart, -⟩ := localsApart_iff_roomy indexes .default hk
  exact ⟨_, hk, shares, apart.mpr (room d hd type)⟩

/-- Lists of words for lists of words are read with one variable for both sizes, in a companion
that is compiled without findings. -/
theorem indexes_clash :
    (ofModel indexes .default).diagnostics = [] ∧ ∃ k ∈ (ofModel indexes .default).companions,
      ∃ codec ∈ k.codecs, codec.read.localsApart = false := by
  obtain ⟨nothing, -, -, clash⟩ := codecs_indexes
  exact ⟨nothing, clash⟩

end ParcelCodec.Compilation
