import ParcelCodec.Proofs.Compilation.AdapterFree

/-!
# Instances end where they end

A machine without adapters reads an instance and stops where it ends: what stands behind it changes
neither the instance nor the place.  So a read of the front of some bytes gives what a read of all
of them gives, or it misses bytes; and if an instance takes all of the bytes, it misses some.

Main statement: `self_delimiting`.
-/

namespace ParcelCodec

open DataClass (Descriptor)
open Format (Tolerance)
open Wire (Cursor Onward)

/-! ## §1. Machines. -/

/-- A fault in the bytes is accepted, and no other failure. -/
def Format.faulty : Tolerance where
  Stops e _ := ∃ fault, e = .decode fault
  restated := by
    rintro _ _ fault ⟨_, rfl⟩
    exact ⟨fault, rfl⟩
  any_of_success stops _ := stops

namespace Machine

variable {m : Machine} (free : ∀ c ∈ m.companions, c.readsAdapterFree = true)

include free

/-- What is read does not change with what stands behind it. -/
theorem readFrom_extend {name : String} {c c' : Cursor} {v : Value} (more : List UInt8)
    (read : m.readFrom name c = (.ok v, c')) :
    m.readFrom name (c.extend more) = (.ok v, c'.extend more) := by
  -- More bytes give a greater budget, so the two reads are compared at different depths.
  have deep : m.readDepth c.remaining ≤ m.readDepth (c.extend more).remaining := by
    unfold readDepth
    rw [Cursor.remaining_extend]
    exact Nat.add_le_add_right (Nat.mul_le_mul_left _ (by omega)) _
  have both : Simulates Format.lenient (Extended c more)
      (m.readClass (m.callsWithin (m.readDepth c.remaining)) name)
      (m.readClass (m.callsWithin (m.readDepth (c.extend more).remaining)) name) :=
    simulates_readClass free (.inr fun _ _ => trivial) (.inr ⟨deep, fun _ => trivial⟩) name
  have outcomes := both c _ ⟨Onward.refl c, rfl⟩
  unfold readFrom at read ⊢
  rw [read] at outcomes
  rcases outcomes with ⟨same, -, after⟩ | ⟨e, stopped, -⟩
  · exact Prod.ext same.symm after
  · cases stopped

/-- Where something is read from all of the bytes, the same is read from the front of them, or a
fault is found in it. -/
theorem readFrom_front {name : String} {c c' : Cursor} {v : Value} {more : List UInt8}
    (read : m.readFrom name (c.extend more) = (.ok v, c')) :
    (∃ between, m.readFrom name c = (.ok v, between) ∧ c' = between.extend more)
      ∨ ∃ fault, (m.readFrom name c).1 = .error (.decode fault) := by
  -- Here both reads have the depth of the longer one; it does not matter to the shorter one.
  obtain ⟨n, long⟩ : ∃ n, m.readDepth (c.extend more).remaining = n := ⟨_, rfl⟩
  have accepts : ∀ fault o, Format.faulty.Stops (.decode fault) o := fun fault _ => ⟨fault, rfl⟩
  have both : Simulates Format.faulty (Extended c more) (m.readClass (m.callsWithin n) name)
      (m.readClass (m.callsWithin n) name) :=
    simulates_readClass free (.inr accepts) (.inl rfl) name
  have outcomes := both c _ ⟨Onward.refl c, rfl⟩
  unfold readFrom at read
  rw [long] at read
  rw [read] at outcomes
  have front : (m.readClass (m.callsWithin n) name c).1 ≠ .error .outOfDepth →
      m.readFrom name c = m.readClass (m.callsWithin n) name c := readFrom_eq_of_depth free
  rcases outcomes with ⟨same, -, after⟩ | ⟨_, stopped, fault, rfl⟩
  · rw [front (by rw [same]; nofun)]
    exact .inl ⟨(m.readClass (m.callsWithin n) name c).2, Prod.ext same rfl, after⟩
  · rw [front (by rw [stopped]; nofun)]
    exact .inr ⟨fault, stopped⟩

end Machine

/-! ## §2. Compiled classes. -/

namespace Compilation

/-- What is written of a conforming instance cannot be read if bytes are missing at its end. -/
theorem read_front_fails {m : Model} {o : Options} (adapters : List (String × AdapterBehaviour))
    (distinct : ((ofModel m o).companions.map Companion.qualifiedName).Nodup)
    (plain : ∀ d ∈ descriptors m o, ∀ p ∈ d.properties, p.codec.adapterFree = true)
    {d : Descriptor} (hd : d ∈ descriptors m o) {v : Value}
    (conforms : Format.Conforms (descriptors m o) d v) {front back : List UInt8}
    (written : (machine m o adapters).write v = .ok (front ++ back)) (missing : back ≠ []) :
    ∃ fault, (machine m o adapters).read d.typeName front = .error (.decode fault) := by
  obtain ⟨bytes, encoded, whole⟩ :=
    exists_write_of_shaped adapters distinct plain hd conforms.shaped
  cases written.symm.trans encoded
  have read := whole []
  rw [List.append_nil] at read
  have free := readsAdapterFree_machine adapters plain
  rcases Machine.readFrom_front (c := .ofBytes front) free read with ⟨between, -, ended⟩ | failed
  · have none : [] = between.rest ++ back := congrArg Cursor.rest ended
    exact absurd (List.append_eq_nil_iff.mp none.symm).2 missing
  · exact failed

/-- The format is self-delimiting.  If companions without adapters read an instance, they read it
in front of any other bytes, too, and stop at the same place; and from a part of what a compiled
class writes, cut off anywhere, nothing is read, but a fault is found in the bytes. -/
theorem self_delimiting :
    (∀ k : Machine, (∀ c ∈ k.companions, c.readsAdapterFree = true) →
      ∀ name index index' bytes rest more v,
        k.readFrom name ⟨index, bytes⟩ = (.ok v, ⟨index', rest⟩) →
        k.readFrom name ⟨index, bytes ++ more⟩ = (.ok v, ⟨index', rest ++ more⟩))
    ∧ ∀ (m : Model) (o : Options) (adapters : List (String × AdapterBehaviour)),
      ((ofModel m o).companions.map Companion.qualifiedName).Nodup →
      (∀ d ∈ descriptors m o, ∀ p ∈ d.properties, p.codec.adapterFree = true) →
      ∀ d ∈ descriptors m o, ∀ v, Format.Conforms (descriptors m o) d v →
        ∀ front back, (machine m o adapters).write v = .ok (front ++ back) → back ≠ [] →
          ∃ fault, (machine m o adapters).read d.typeName front = .error (.decode fault) := by
  constructor
  · intro k free name index index' bytes rest more v read
    have extended := Machine.readFrom_extend free more read
    exact extended
  · intro m o adapters distinct plain d hd v conforms front back written missing
    exact read_front_fails adapters distinct plain hd conforms written missing

/-- What is written of the node with an edge to another node, up to the marker behind that edge. -/
def twoNodesFront : List UInt8 :=
  [0, 0, 0, 0, 1, 0, 0, 0, 97, 0, 0, 0, 0, 0, 0, 0, 2, 0, 0, 0, 0, 0, 0, 0, 0, 0, 0, 0, 1, 0, 0, 0,
    1, 0, 0, 0]

/-- A node with an edge to another node is read in front of any byte; and if only the marker is
missing that stands for its second edge, nothing is read. -/
theorem self_delimiting_family :
    (machine family .default []).readFrom node.typeName ⟨0, twoNodesFront ++ [1, 0, 0, 0] ++ [7]⟩
        = (.ok twoNodes, ⟨40, [7]⟩)
      ∧ ∃ fault, (machine family .default []).read node.typeName twoNodesFront
        = .error (.decode fault) := by
  have there : node ∈ descriptors family .default := by simp [descriptors_family]
  have linked := linked_descriptors distinct_family adapterFree_family
  have encoded : Format.encode [node, edge] twoNodes = some (twoNodesFront ++ [1, 0, 0, 0]) := by
    decide +kernel
  have decoded : Format.decode [node, edge] node.typeName ⟨0, twoNodesFront ++ [1, 0, 0, 0]⟩
      = (.ok twoNodes, ⟨40, []⟩) := by
    rfl
  rw [← descriptors_family] at encoded decoded
  have written := Machine.write_of_encode (companions_machine []) linked encoded
  have read := readFrom_of_decode [] distinct_family adapterFree_family decoded
  have free := readsAdapterFree_machine [] adapterFree_family
  obtain ⟨behind, cut⟩ := self_delimiting
  constructor
  · exact behind _ free _ _ _ _ _ [7] _ read
  · exact cut family .default [] distinct_family adapterFree_family node there twoNodes
      conforms_twoNodes _ _ written (by decide)

end Compilation

end ParcelCodec
