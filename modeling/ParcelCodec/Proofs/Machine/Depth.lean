import ParcelCodec.Proofs.Machine.Simulation
import ParcelCodec.Proofs.Settling

/-!
# How deep a machine has to go

A machine whose reads call no adapters runs procedures that call each other, each at some position
of the parcel.  A read that ends with some number of calls inside each other ends in the same way
with every greater number, and the budget of a read is one call for each procedure at each position
at least: so a read that is stopped for want of depth would have been stopped at every depth.

Main statements: `simulates_readClass` and `readFrom_eq_of_depth`.
-/

namespace ParcelCodec

open Format (Tolerance Agree)
open Wire (Cursor Onward)

/-- No procedure of a companion that reads calls an adapter. -/
def Companion.readsAdapterFree (c : Companion) : Bool :=
  c.read.adapterFree && c.codecs.all (·.read.adapterFree)

variable {t : Tolerance} {c₀ : Cursor} {more : List UInt8} {α : Type}

/-! ## §1. Reads that agree and simulate each other. -/

/-- Where nothing follows, a simulation is an agreement. -/
theorem Simulates.agree {x y : Reading α} (h : Simulates t (Extended c₀ []) x y) :
    Agree t c₀ x y := by
  intro c onward
  rcases h c c ⟨onward, (Cursor.extend_nil c).symm⟩ with ⟨same, -, after⟩ | stopped
  · rw [Cursor.extend_nil] at after
    exact .inl (Prod.ext same after.symm)
  · exact .inr stopped

/-- Reads that agree simulate each other if the first one simulates itself. -/
theorem Simulates.of_agree {x y : Reading α} (self : Simulates t (Extended c₀ []) x x)
    (h : Agree t c₀ x y) : Simulates t (Extended c₀ []) x y := by
  rintro c _ ⟨onward, rfl⟩
  rw [Cursor.extend_nil]
  rcases h c onward with same | stopped
  · have itself := self c c ⟨onward, (Cursor.extend_nil c).symm⟩
    rwa [← same]
  · exact .inr stopped

theorem simulates_readNamed (lax : Lax t more) {classes classes' : String → Reading Value}
    (h : ∀ name, Simulates t (Extended c₀ more) (classes name) (classes' name)) :
    Simulates t (Extended c₀ more) (Machine.readNamed classes) (Machine.readNamed classes') := by
  have forward := Wire.Read.advances_string.weaken (Nat.zero_le _)
  refine (simulates_ofOp lax Wire.Read.steady_string forward).bind fun name => ?_
  cases name with
  | none => exact .pure _
  | some name => exact h name

namespace Machine

variable {m : Machine}

/-! ## §2. The procedures of a machine. -/

/-- The procedures of a machine that read, each with its companion. -/
def readers (m : Machine) : List (Companion × Procedure) :=
  m.companions.flatMap fun c => (c, c.read) :: c.codecs.map fun x => (c, x.read)

/-- What a procedure reads with a number of calls inside each other. -/
def runAt (m : Machine) (depth : Nat) (p : Companion × Procedure) : Reading Value :=
  p.2.read (m.callsWithin depth p.1) p.1.qualifiedName

theorem mem_readers {p : Companion × Procedure} :
    p ∈ m.readers ↔ p.1 ∈ m.companions ∧ (p.2 = p.1.read ∨ ∃ x ∈ p.1.codecs, p.2 = x.read) := by
  unfold readers
  rw [List.mem_flatMap]
  constructor
  · rintro ⟨c, hc, hp⟩
    rcases List.mem_cons.mp hp with rfl | hp
    · exact ⟨hc, .inl rfl⟩
    · obtain ⟨x, hx, rfl⟩ := List.mem_map.mp hp
      exact ⟨hc, .inr ⟨x, hx, rfl⟩⟩
  · intro ⟨hc, which⟩
    refine ⟨p.1, hc, ?_⟩
    rcases which with own | ⟨x, hx, shared⟩
    · exact List.mem_cons.mpr (.inl (Prod.ext rfl own))
    · exact List.mem_cons_of_mem _ (List.mem_map.mpr ⟨x, hx, Prod.ext rfl shared.symm⟩)

theorem mem_of_named? {name : String} {c : Companion} (h : m.named? name = some c) :
    c ∈ m.companions := List.mem_reverse.mp (List.mem_of_find?_eq_some h)

theorem mem_of_companion? {name : String} {c : Companion} (h : m.companion? name = some c) :
    c ∈ m.companions := List.mem_reverse.mp (List.mem_of_find?_eq_some h)

/-- There are no more procedures than a call can reach. -/
theorem length_readers_le : m.readers.length ≤ m.callees := by
  unfold readers callees
  generalize m.adapters.length = extra
  induction m.companions with
  | nil => exact Nat.zero_le _
  | cons c rest ih =>
    simp only [List.flatMap_cons, List.length_append, List.length_cons, List.length_map,
      List.foldr_cons]
    omega

/-! ## §3. One call more. -/

theorem simulates_readClass_of {D D' : Nat}
    (h : ∀ p ∈ m.readers, Simulates t (Extended c₀ more) (m.runAt D p) (m.runAt D' p))
    (name : String) : Simulates t (Extended c₀ more) (m.readClass (m.callsWithin D) name)
      (m.readClass (m.callsWithin D') name) := by
  unfold readClass
  rcases found : m.companion? name with _ | c
  · exact .fail _
  · exact h (c, c.read) (mem_readers.mpr ⟨mem_of_companion? found, .inl rfl⟩)

/-- Calls one level deeper do the same if the procedures do. -/
theorem alike_callsWithin_succ (lax : Lax t more) {D D' : Nat} {c : Companion}
    (hc : c ∈ m.companions)
    (h : ∀ p ∈ m.readers, Simulates t (Extended c₀ more) (m.runAt D p) (m.runAt D' p)) :
    (m.callsWithin (D + 1) c).Alike t c₀ more (m.callsWithin (D' + 1) c) where
  nested name := by
    unfold callsWithin
    dsimp only
    rcases found : m.named? name with _ | other
    · exact .fail _
    · exact h (other, other.read) (mem_readers.mpr ⟨mem_of_named? found, .inl rfl⟩)
  codec name := by
    unfold callsWithin
    dsimp only
    rcases found : c.codec? name with _ | codec
    · exact .fail _
    · have there := List.mem_of_find?_eq_some found
      exact h (c, codec.read) (mem_readers.mpr ⟨hc, .inr ⟨codec, there, rfl⟩⟩)
  named := simulates_readNamed lax (simulates_readClass_of h)

/-- Where nothing can be called any more, deeper calls may do anything. -/
theorem alike_noCalls (lax : Lax t more) (out : ∀ o, t.Stops .outOfDepth o) (D : Nat)
    (c : Companion) : noCalls.Alike t c₀ more (m.callsWithin (D + 1) c) where
  nested _ := .stops out _
  codec _ := .stops out _
  named := simulates_readNamed lax fun _ => .stops out _

section AdapterFree

variable (free : ∀ c ∈ m.companions, c.readsAdapterFree = true)

include free

theorem adapterFree_of_mem {p : Companion × Procedure} (hp : p ∈ m.readers) :
    p.2.adapterFree = true := by
  obtain ⟨hc, which⟩ := mem_readers.mp hp
  have both := Bool.and_eq_true_iff.mp (free p.1 hc)
  rcases which with own | ⟨x, hx, shared⟩
  · exact own ▸ both.1
  · exact shared ▸ List.all_eq_true.mp both.2 x hx

/-- Procedures do the same one call deeper if they do at a depth. -/
theorem simulates_runAt_succ (lax : Lax t more) {D D' : Nat}
    (h : ∀ p ∈ m.readers, Simulates t (Extended c₀ more) (m.runAt D p) (m.runAt D' p)) :
    ∀ p ∈ m.readers,
      Simulates t (Extended c₀ more) (m.runAt (D + 1) p) (m.runAt (D' + 1) p) := by
  intro p hp
  have alike := alike_callsWithin_succ lax (mem_readers.mp hp).1 h
  exact simulates_procedure lax alike (adapterFree_of_mem free hp) _

/-- A procedure does the same with a number of calls inside each other as with a greater one, unless
it stops for want of depth. -/
theorem simulates_runAt (lax : Lax t more) : ∀ D D',
    D = D' ∨ (D ≤ D' ∧ ∀ o, t.Stops .outOfDepth o) → ∀ p ∈ m.readers,
      Simulates t (Extended c₀ more) (m.runAt D p) (m.runAt D' p) := by
  intro D
  induction D with
  | zero =>
    intro D' deep p hp
    refine simulates_procedure lax ?_ (adapterFree_of_mem free hp) _
    cases D' with
    | zero => exact ⟨fun _ => .fail _, fun _ => .fail _, simulates_readNamed lax fun _ => .fail _⟩
    | succ D' =>
      rcases deep with same | ⟨-, out⟩
      · cases same
      · exact alike_noCalls lax out D' p.1
  | succ D ih =>
    intro D' deep
    obtain ⟨D', rfl⟩ : ∃ k, D' = k + 1 := ⟨D' - 1, by omega⟩
    refine simulates_runAt_succ free lax (ih D' ?_)
    rcases deep with same | ⟨le, out⟩
    · exact .inl (Nat.succ.inj same)
    · exact .inr ⟨Nat.le_of_succ_le_succ le, out⟩

/-- An instance is read the same with a number of calls inside each other as with a greater one,
unless the read stops for want of depth. -/
theorem simulates_readClass (lax : Lax t more) {D D' : Nat}
    (deep : D = D' ∨ (D ≤ D' ∧ ∀ o, t.Stops .outOfDepth o)) (name : String) :
    Simulates t (Extended c₀ more) (m.readClass (m.callsWithin D) name)
      (m.readClass (m.callsWithin D') name) :=
  simulates_readClass_of (simulates_runAt free lax D D' deep) name

/-! ## §4. Depth enough. -/

/-- The procedures of a machine go deeper. -/
theorem deepens_runAt : Deepens m.runAt m.readers where
  deeper c₀ n p hp :=
    have deep : n = n + 1 ∨ (n ≤ n + 1 ∧ ∀ o, shallow.Stops .outOfDepth o) :=
      .inr ⟨Nat.le_succ n, fun _ => rfl⟩
    (simulates_runAt free (.inl rfl) n (n + 1) deep p hp).agree
  stays c₀ n h p hp := by
    have same : ∀ q ∈ m.readers,
        Simulates exhausted (Extended c₀ []) (m.runAt n q) (m.runAt (n + 1) q) := fun q hq =>
      (simulates_runAt free (.inl rfl) n n (.inl rfl) q hq).of_agree (h q hq)
    exact (simulates_runAt_succ free (.inl rfl) same p hp).agree

/-- A read that ends with some number of calls inside each other ends in the same way within its
budget. -/
theorem readFrom_eq_of_depth {n : Nat} {name : String} {c : Cursor}
    (h : (m.readClass (m.callsWithin n) name c).1 ≠ .error .outOfDepth) :
    m.readFrom name c = m.readClass (m.callsWithin n) name c := by
  unfold readFrom readClass at *
  rcases found : m.companion? name with _ | own
  · rfl
  · simp only [found] at h ⊢
    have there : (own, own.read) ∈ m.readers :=
      mem_readers.mpr ⟨mem_of_companion? found, .inl rfl⟩
    refine (deepens_runAt free).eq_of_room there ?_ h
    have product := Nat.mul_le_mul_right (c.remaining + 1) (length_readers_le (m := m))
    unfold readDepth
    omega

end AdapterFree

end Machine

end ParcelCodec
