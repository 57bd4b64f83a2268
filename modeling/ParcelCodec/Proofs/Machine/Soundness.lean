import ParcelCodec.Proofs.Format.Soundness
import ParcelCodec.Proofs.Machine.Format

/-!
# What a machine can end in

A machine whose companions come from descriptors reads values of the shape that the descriptors
prescribe, whatever the bytes are, and goes wrong only because of the bytes.  It reads property by
property, as the format does, so what is known of decodings is known of its calls.

Main statement: `soundReaders_readersAt`.
-/

namespace ParcelCodec.Machine

open DataClass (Descriptor Property Uniform)
open Format (Agree SoundReaders Sound Fault Shaped lenient decode decodeWith decodeWithin readCount
  guardedCount)
open Wire (Cursor Advances)

variable {m : Machine} {ds : List Descriptor}
  (program : m.companions = ds.map Companion.ofDescriptor) (linked : Format.Linked ds)

include program linked

/-- What a call answers is what the format decodes. -/
theorem readersAt_follows (depth : Nat) (name : String) (cur : Cursor) :
    Agree lenient cur (m.readersAt depth name) (decode ds name) := by
  intro c onward
  rcases h : m.readersAt depth name c with ⟨e | v, c'⟩
  · exact .inr ⟨e, rfl, trivial⟩
  · refine .inl ?_
    rcases agree_readersAt program linked cur depth depth (Nat.le_refl _) name c onward with
      same | ⟨e, stopped, -⟩
    · rw [h] at same
      rw [Format.decode_eq_of_decodeWithin (by rw [← same]; nofun), ← same]
    · rw [h] at stopped
      cases stopped

omit program in
/-- A property is read soundly, and as the format reads it. -/
theorem sound_readPropertyAt {depth : Nat}
    (sound : ∀ depth' ≤ depth, SoundReaders ds (m.readersAt depth')) {d : Descriptor} (hd : d ∈ ds)
    {p : Property} (hp : p ∈ d.properties) :
    Sound ds (.codec p.codec) (m.readPropertyAt depth p)
      ∧ ∀ cur, Agree lenient cur (m.readPropertyAt depth p)
        (decodeWith readCount (decode ds) p.codec) := by
  have links : p.codec.Links fun ty _ => ∃ d' ∈ ds, d'.typeName = Calls.nameOf ty := by
    refine (linked.links d hd p hp).mono ?_
    rintro ty companion ⟨d', hd', -, name⟩
    exact ⟨d', hd', name⟩
  have along : ∀ depth' ≤ depth,
      Sound ds (.codec p.codec) (decodeWith guardedCount (m.readersAt depth') p.codec)
        ∧ ∀ cur, Agree lenient cur (decodeWith guardedCount (m.readersAt depth') p.codec)
          (decodeWith readCount (decode ds) p.codec) := fun depth' deep =>
    ⟨Format.sound_decodeWith (sound depth' deep) p.codec links,
      (sound depth' deep).decodeWith_follows p.codec⟩
  unfold readPropertyAt
  split
  · cases depth with
    | zero => exact ⟨fun _ => Ends.fail .outOfDepth, fun _ _ _ => .inr ⟨_, rfl, trivial⟩⟩
    | succ depth => exact along depth (Nat.le_succ depth)
  · exact along depth (Nat.le_refl depth)

/-- The calls of a machine are sound at every depth. -/
theorem soundReaders_readersAt (uniform : ∀ d ∈ ds, Uniform d.properties) (depth : Nat) :
    SoundReaders ds (m.readersAt depth) := by
  induction depth using Nat.strongRecOn with
  | ind depth ih =>
    refine ⟨advances_readersAt program linked depth, readersAt_follows program linked depth, ?_, ?_⟩
    · intro d hd
      cases depth with
      | zero => exact fun _ => Ends.fail .outOfDepth
      | succ depth =>
        have property := fun {p} (hp : p ∈ d.properties) =>
          sound_readPropertyAt linked (fun k hk => ih k (Nat.lt_succ_of_le hk)) hd hp
        rw [readersAt_succ program linked, Format.descriptor?_of_mem linked.classes hd]
        exact Format.sound_decodeInstance (fun p hp => (property hp).1)
          (fun p hp => (property hp).2) (uniform d hd)
    · intro name nobody cur
      cases depth with
      | zero => exact Ends.fail (.inr rfl)
      | succ depth =>
        rw [readersAt_succ program linked, Format.descriptor?_eq_none nobody]
        exact Ends.fail (.inl rfl)

end ParcelCodec.Machine
