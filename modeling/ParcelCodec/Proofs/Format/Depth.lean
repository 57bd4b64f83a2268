import ParcelCodec.Proofs.Settling

/-!
# How deep a decoding has to go

A decoding that does not run out of depth does the same at every greater depth.  A depth of one
for each described class at each position is enough for every decoding that ends, and at that depth
`decode` stands.

Main statement: `decode_eq_of_decodeWithin`.
-/

namespace ParcelCodec.Format

open DataClass (Descriptor Property)
open Wire (Cursor Onward Advances)

variable {ds : List Descriptor}

/-! ## §1. Greater depths. -/

theorem advances_decodeWithin : ∀ n name, Advances 0 (decodeWithin ds n name)
  | 0, name => by
    unfold decodeWithin
    split
    · exact .fail 0 _
    · exact .fail 0 _
  | n + 1, name => by
    unfold decodeWithin
    split
    · exact advances_decodeInstance
        (fun p => advances_decodeWith (advances_decodeWithin n) advances_readCount p.codec) _
    · exact .fail 0 _

/-- Reading instances one level deeper keeps what it tolerates. -/
theorem agree_decodeWithin_succ {t : Tolerance} {c₀ : Cursor} {m n : Nat}
    (h : ∀ name, Agree t c₀ (decodeWithin ds m name) (decodeWithin ds n name)) (name : String) :
    Agree t c₀ (decodeWithin ds (m + 1) name) (decodeWithin ds (n + 1) name) := by
  unfold decodeWithin
  split
  · refine decodeInstance_agree (fun p _ => ?_) fun p => ?_
    · exact decodeWith_agree (advances_decodeWithin m) h advances_readCount advances_readCount
        arraysAgree_readCount (advances_decodeWithin n) p.codec
    · exact advances_decodeWith (advances_decodeWithin m) advances_readCount p.codec
  · exact .refl _

theorem agree_deeper (c₀ : Cursor) : ∀ n name,
    Agree shallow c₀ (decodeWithin ds n name) (decodeWithin ds (n + 1) name)
  | 0, name => by
    intro c _
    rcases h : descriptor? ds name with _ | d
    · rw [decodeWithin, decodeWithin, h]
      exact .inl rfl
    · rw [decodeWithin, decodeWithin, h]
      exact .inr ⟨_, rfl, rfl⟩
  | n + 1, name => agree_decodeWithin_succ (agree_deeper c₀ n) name

/-! ## §2. Depth enough. -/

theorem descriptor?_eq_none {name : String} (h : name ∉ ds.map (·.typeName)) :
    descriptor? ds name = none := by
  unfold descriptor?
  rw [List.find?_eq_none]
  intro d hd same
  have : d.typeName = name := by simpa using same
  exact h (this ▸ List.mem_map_of_mem hd)

/-- A class that nobody describes is missing at every depth. -/
theorem decodeWithin_of_not_mem {name : String} (h : name ∉ ds.map (·.typeName)) (n : Nat) :
    decodeWithin ds n name = Step.fail (.missingCompanion name) := by
  cases n <;> rw [decodeWithin, descriptor?_eq_none h]

/-- The decodings of the described classes go deeper. -/
theorem deepens_decodeWithin : Deepens (decodeWithin ds) (ds.map (·.typeName)) where
  deeper c₀ n name _ := agree_deeper c₀ n name
  stays c₀ n h name _ := by
    refine agree_decodeWithin_succ (fun other => ?_) name
    by_cases described : other ∈ ds.map (·.typeName)
    · exact h other described
    · rw [decodeWithin_of_not_mem described, decodeWithin_of_not_mem described]
      exact .refl _

/-- A decoding that ends at some depth ends the same way at the depth of `decode`. -/
theorem decode_eq_of_decodeWithin {n : Nat} {name : String} {c : Cursor}
    (h : (decodeWithin ds n name c).1 ≠ .error .outOfDepth) :
    decode ds name c = decodeWithin ds n name c := by
  unfold decode
  by_cases described : name ∈ ds.map (·.typeName)
  · refine deepens_decodeWithin.eq_of_room described ?_ h
    unfold depthFor
    rw [List.length_map]
  · rw [decodeWithin_of_not_mem described, decodeWithin_of_not_mem described]

end ParcelCodec.Format
