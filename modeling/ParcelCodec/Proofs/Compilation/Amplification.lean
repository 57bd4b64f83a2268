import ParcelCodec.Proofs.Compilation.Ending
import ParcelCodec.Proofs.Machine.Breadth

/-!
# How many elements a few bytes can make

Companions check a length against the bytes ahead only where they create an array.  Everywhere else
they rely on the elements to run out of bytes, and so a forged length does no harm: no container in
an instance that was read has more elements than there were bytes.

The reliance fails in one place.  A container that refuses null has no markers, and instances that
hold nothing take no bytes, so a class with such a container reads any number of them from a length
slot alone (`crowd_unbounded`).  Main statement: `breadth_le_length_unless_swarm`.
-/

namespace ParcelCodec.Compilation

open DataClass (Descriptor Property)
open Format (Refers Swarms Hollow owner?)

variable {m : Model} {o : Options}

/-! ## §1. Answers that are paid for. -/

/-- No container anywhere in an instance that was read has more elements than there were bytes, if
neither its class nor any class that it refers to, however indirectly, holds a container that
refuses null and whose elements take no bytes. -/
theorem breadth_le_length_unless_swarm (m : Model) (o : Options)
    (adapters : List (String × AdapterBehaviour))
    (plain : ∀ d ∈ descriptors m o, ∀ p ∈ d.properties, p.codec.adapterFree = true)
    {d : Descriptor} (hd : d ∈ descriptors m o)
    (tame : ∀ e, Relation.ReflTransGen (Refers (descriptors m o)) d e →
      ¬ Swarms (descriptors m o) e) {bytes : List UInt8} {v : Value}
    (read : (machine m o adapters).read d.typeName bytes = .ok v) : v.breadth ≤ bytes.length :=
  Machine.breadth_le_of_read (companions_machine adapters) (readable_descriptors plain) hd
    (companion?_of_mem adapters hd) tame read

/-- A list of nested instances of a class in the package `app`, of which some may be null. -/
def plainList (className : String) : Codec :=
  .sequence (.declared "java.util.List" [.named ("app." ++ className)]) .list
    ⟨true, .declared "java.util.ArrayList" [.named ("app." ++ className)], true, true⟩
    (.leaf (.named ("app." ++ className)) (.nested ("app." ++ className ++ "Codec")))

/-- A queue of nested instances of a class in the package `app`, none of which may be null. -/
def bareQueue (className : String) : Codec :=
  .sequence (.declared "java.util.ArrayDeque" [.named ("app." ++ className)]) .queue
    ⟨false, .declared "java.util.ArrayDeque" [.named ("app." ++ className)], true, false⟩
    (.leaf (.named ("app." ++ className)) (.nested ("app." ++ className ++ "Codec")))

/-- A parade has riders without markers between them, and ghosts with a marker each.  A rider has a
name, and a ghost has nothing. -/
def parade : Model := ⟨[
  plainClass "Parade" [("riders", "java.util.ArrayDeque<Rider>"),
    ("ghosts", "java.util.List<Ghost>")],
  plainClass "Rider" [("name", "String")],
  plainClass "Ghost" []], []⟩

def paradeClass : Descriptor :=
  plainDescriptor "Parade"
    [plainProperty "riders" (bareQueue "Rider"), plainProperty "ghosts" (plainList "Ghost")]

def rider : Descriptor :=
  plainDescriptor "Rider" [plainProperty "name" (.leaf (.named "java.lang.String") .string)]

def ghost : Descriptor := plainDescriptor "Ghost" []

theorem descriptors_parade : descriptors parade .default = [paradeClass, rider, ghost] := by
  decide +kernel

/-- Riders take bytes, and ghosts have markers. -/
theorem tame_parade :
    ∀ d ∈ descriptors parade .default, ¬ Swarms (descriptors parade .default) d := by
  rw [descriptors_parade]
  have atRiders : owner? [paradeClass, rider, ghost] "app.RiderCodec" = some rider := by decide
  have named : Format.opened? [paradeClass, rider, ghost]
      (plainProperty "name" (.leaf (.named "java.lang.String") .string)) = none := by decide
  have solid : ¬ Hollow [paradeClass, rider, ghost] rider := by
    rintro (single | ⟨bare, -⟩)
    · cases single
    · exact bare _ List.mem_cons_self named
  rintro d hd ⟨⟨p, hp, part⟩, unmarked, owner, hollow⟩
  rcases List.mem_cons.mp hd with rfl | hd
  · rcases List.mem_cons.mp hp with rfl | hp
    · cases part with
      | refl =>
        obtain rfl := Option.some.inj (atRiders.symm.trans owner)
        exact solid hollow
      | sequence part => cases part
    · obtain rfl := List.mem_singleton.mp hp
      cases part with
      | refl => cases unmarked
      | sequence part => cases part
  · rcases List.mem_cons.mp hd with rfl | hd
    · obtain rfl := List.mem_singleton.mp hp
      cases part
    · obtain rfl := List.mem_singleton.mp hd
      cases hp

theorem distinct_parade :
    ((ofModel parade .default).companions.map Companion.qualifiedName).Nodup := by
  rw [companions_ofModel, descriptors_parade]
  decide

theorem adapterFree_parade :
    ∀ d ∈ descriptors parade .default, ∀ p ∈ d.properties, p.codec.adapterFree = true := by
  rw [descriptors_parade]
  decide

/-- Two riders without names, a ghost, and null in place of a second ghost. -/
def smallParade : Value :=
  .object "app.Parade" [
    ("ghosts", .list [.object "app.Ghost" [], .null]),
    ("riders", .list [
      .object "app.Rider" [("name", .null)], .object "app.Rider" [("name", .null)]])]

def smallParadeBytes : List UInt8 :=
  [0, 0, 0, 0, 2, 0, 0, 0, 1, 0, 0, 0, 1, 0, 0, 0, 0, 0, 0, 0, 2, 0, 0, 0, 0, 0, 0, 0, 1, 0, 0, 0]

theorem read_smallParade :
    (machine parade .default []).read "app.Parade" smallParadeBytes = .ok smallParade := by
  have decoded : Format.decode (descriptors parade .default) "app.Parade"
      (.ofBytes smallParadeBytes) = (.ok smallParade, ⟨32, []⟩) := by
    rw [descriptors_parade]
    rfl
  have read := readFrom_of_decode [] distinct_parade adapterFree_parade decoded
  exact congrArg Prod.fst read

/-- A parade is paid for by its bytes. -/
theorem breadth_le_length_unless_swarm_parade :
    paradeClass ∈ descriptors parade .default
    ∧ (∀ e, Relation.ReflTransGen (Refers (descriptors parade .default)) paradeClass e →
      ¬ Swarms (descriptors parade .default) e)
    ∧ (machine parade .default []).read "app.Parade" smallParadeBytes = .ok smallParade
    ∧ smallParade.breadth = 2
    ∧ smallParade.breadth ≤ smallParadeBytes.length := by
  have there : paradeClass ∈ descriptors parade .default := by simp [descriptors_parade]
  have tame : ∀ e, Relation.ReflTransGen (Refers (descriptors parade .default)) paradeClass e →
      ¬ Swarms (descriptors parade .default) e := fun e reached =>
    tame_parade e (Format.mem_of_reached there reached)
  exact ⟨there, tame, read_smallParade, rfl,
    breadth_le_length_unless_swarm parade .default [] adapterFree_parade there tame
      read_smallParade⟩

/-! ## §2. Answers that are not. -/

/-- A class that holds nothing but a queue of instances that hold nothing. -/
def crowd : Model := ⟨[
  { plainClass "Crowd" [] with fields := [bareField "ghosts" "java.util.ArrayDeque<Ghost>"] },
  plainClass "Ghost" []], []⟩

def crowdClass : Descriptor :=
  plainDescriptor "Crowd" [⟨"ghosts", false, .field, .field, bareQueue "Ghost"⟩]

/-- A crowd is compiled without findings. -/
theorem compiled_crowd :
    (ofModel crowd .default).diagnostics = []
      ∧ descriptors crowd .default = [crowdClass, ghost] := by
  decide +kernel

theorem descriptors_crowd : descriptors crowd .default = [crowdClass, ghost] := compiled_crowd.2

theorem distinct_crowd :
    ((ofModel crowd .default).companions.map Companion.qualifiedName).Nodup := by
  rw [companions_ofModel, descriptors_crowd]
  decide

theorem adapterFree_crowd :
    ∀ d ∈ descriptors crowd .default, ∀ p ∈ d.properties, p.codec.adapterFree = true := by
  rw [descriptors_crowd]
  decide

/-- A crowd of a number of ghosts. -/
def ghosts (n : Nat) : Value :=
  .object "app.Crowd" [("ghosts", .list (List.replicate n (.object "app.Ghost" [])))]

/-- From four bytes a crowd is read that has as many ghosts as the bytes say, up to the largest
length that a slot holds. -/
theorem crowd_unbounded {n : Nat} (fits : Wire.Fitting n) :
    (machine crowd .default []).read "app.Crowd" (Wire.Slot.length n) = .ok (ghosts n) := by
  have names : ([crowdClass, ghost].map (·.typeName)).Nodup := by decide
  have one : Wire.Takes (Format.decodeWithin [crowdClass, ghost] 1 "app.Ghost") []
      (.object "app.Ghost" []) := fun _ _ => rfl
  have several : Wire.Takes (Format.decodeWith Format.readCount
      (Format.decodeWithin [crowdClass, ghost] 1) (bareQueue "Ghost")) (Wire.Slot.length n)
      (.list (List.replicate n (.object "app.Ghost" []))) := Format.takes_swarm rfl one fits
  have fields : Wire.Takes (Format.readFields (fun p => Format.decodeWith Format.readCount
      (Format.decodeWithin [crowdClass, ghost] 1) p.codec) crowdClass.properties)
      (Wire.Slot.length n ++ [])
      [("ghosts", .list (List.replicate n (.object "app.Ghost" [])))] :=
    several.bind ((Wire.Takes.pure []).map (("ghosts", _) :: ·))
  have whole : Wire.Takes (Format.decodeWithin [crowdClass, ghost] 2 crowdClass.typeName)
      (Wire.Slot.length n) (ghosts n) := by
    rw [Format.decodeWithin_of_mem names List.mem_cons_self]
    exact (fields.map fun fields => Value.object "app.Crowd" (Value.fieldsOf fields)).of_eq
      (List.append_nil _) rfl
  have here := whole 0 []
  rw [List.append_nil] at here
  have within : Format.decodeWithin [crowdClass, ghost] 2 crowdClass.typeName
      (.ofBytes (Wire.Slot.length n))
      = (.ok (ghosts n), ⟨0 + (Wire.Slot.length n).length, []⟩) := here
  have answer : Format.decode (descriptors crowd .default) crowdClass.typeName
      (.ofBytes (Wire.Slot.length n))
      = (.ok (ghosts n), ⟨0 + (Wire.Slot.length n).length, []⟩) := by
    rw [descriptors_crowd, Format.decode_eq_of_decodeWithin (by rw [within]; nofun), within]
  exact congrArg Prod.fst (readFrom_of_decode [] distinct_crowd adapterFree_crowd answer)

/-- Nine ghosts are read from four bytes, in a compilation without findings or adapters. -/
theorem crowd_outnumbers_bytes :
    (ofModel crowd .default).diagnostics = [] ∧ crowd.adapters = []
    ∧ ((ofModel crowd .default).companions.map Companion.qualifiedName).Nodup
    ∧ (∀ d ∈ descriptors crowd .default, ∀ p ∈ d.properties, p.codec.adapterFree = true)
    ∧ crowdClass ∈ descriptors crowd .default
    ∧ (machine crowd .default []).read "app.Crowd" [9, 0, 0, 0] = .ok (ghosts 9)
    ∧ ¬ (ghosts 9).breadth ≤ ([9, 0, 0, 0] : List UInt8).length := by
  refine ⟨compiled_crowd.1, rfl, distinct_crowd, adapterFree_crowd,
    by simp [descriptors_crowd], ?_, by decide⟩
  exact crowd_unbounded (n := 9) (by decide)

end ParcelCodec.Compilation
