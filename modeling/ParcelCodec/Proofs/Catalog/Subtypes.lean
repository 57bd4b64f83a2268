import Mathlib.Logic.Relation
import ParcelCodec.Catalog.Walk
import ParcelCodec.Proofs.Keyed

/-!
# Subtypes are what can be reached

A name is a subtype of another one if a chain of declared supertypes leads from it to a name that
settles the question.  Both searches find exactly these chains.

The walk remembers what it has seen across all its branches, and leaves nothing out for it: where a
branch fails, every name that it has newly seen settles nothing and has all its supertypes among the
names seen.  In the end all names that were seen are such names, and no chain leaves them.  The
search in rounds is over when a round finds nothing new, and then its names are closed as well.  In
both cases each step further uses up a declared name.

Main statement: `isSubtype_iff_chain`.
-/

namespace ParcelCodec.Catalog

open Java (parcelableName serializableName)
open Relation (ReflTransGen)

/-! ## §1. Chains. -/

/-- A declared name shows another one among its direct supertypes. -/
def Extends (c : Catalog) (name above : String) : Prop :=
  ∃ d, c.decl? name = some d ∧ above ∈ c.supertypes d

/-- A name at which a chain may end: the target itself, a declared enum (every enum is
serializable), or a name without a declaration that the platform lists for the target. -/
inductive Arrives (c : Catalog) (target : String) : String → Prop
  | itself : Arrives c target target
  | enum {last : String} {d : TypeDecl} (declared : c.decl? last = some d)
    (kind : d.kind = .enumType) (serializable : target = serializableName) :
    Arrives c target last
  | parcelable {last : String} (undeclared : c.decl? last = none)
    (target_eq : target = parcelableName) (listed : Java.platformParcelable last = true) :
    Arrives c target last
  | serializable {last : String} (undeclared : c.decl? last = none)
    (target_eq : target = serializableName) (listed : Java.platformSerializable last = true) :
    Arrives c target last

/-- A chain of supertypes leads from a name to where it may end. -/
def Climbs (c : Catalog) (name target : String) : Prop :=
  ∃ last, ReflTransGen c.Extends name last ∧ c.Arrives target last

variable {c : Catalog} {name target : String}

/-- The parents of a name are exactly the names it directly extends. -/
theorem mem_parents {above : String} : above ∈ c.parents name ↔ c.Extends name above := by
  unfold parents Extends
  rcases c.decl? name with _ | d <;> simp

/-- A declared type's parents are the supertypes its declaration names. -/
theorem parents_of_declared {d : TypeDecl} (declared : c.decl? name = some d) :
    c.parents name = c.supertypes d := by
  simp only [parents, declared]

/-- An undeclared name has no parents. -/
theorem parents_of_undeclared (undeclared : c.decl? name = none) : c.parents name = [] := by
  simp only [parents, undeclared]

/-- A declared name other than the target settles the question only if it is an enum. -/
theorem settles_of_declared {d : TypeDecl} (declared : c.decl? name = some d)
    (other : (name == target) = false) :
    c.settles target name = (d.kind == .enumType && target == serializableName) := by
  simp only [settles, declared, other, Bool.false_or]

/-- For a name without a declaration, other than the target, the platform settles the question. -/
theorem settles_of_undeclared (undeclared : c.decl? name = none)
    (other : (name == target) = false) :
    c.settles target name
      = if target == parcelableName then Java.platformParcelable name
        else if target == serializableName then Java.platformSerializable name
        else false := by
  simp only [settles, undeclared, other, Bool.false_or]

/-- The two interfaces that the search looks for are different ones. -/
theorem parcelableName_ne_serializableName : parcelableName ≠ serializableName := by decide

/-- A name settles the question exactly if a chain may end there. -/
theorem settles_iff : c.settles target name = true ↔ c.Arrives target name := by
  unfold settles
  constructor
  · intro h
    rcases Bool.or_eq_true_iff.mp h with same | above
    · rw [eq_of_beq same]
      exact .itself
    · split at above
      · next d declared =>
        rw [Bool.and_eq_true] at above
        exact .enum declared (eq_of_beq above.1) (eq_of_beq above.2)
      · next undeclared =>
        split at above
        · next same => exact .parcelable undeclared (eq_of_beq same) above
        · split at above
          · next same => exact .serializable undeclared (eq_of_beq same) above
          · cases above
  · intro h
    cases h with
    | itself => rw [beq_self_eq_true, Bool.true_or]
    | enum declared kind serializable => simp [declared, kind, serializable]
    | parcelable undeclared target_eq listed => simp [undeclared, target_eq, listed]
    | serializable undeclared target_eq listed =>
      simp [undeclared, target_eq, listed, parcelableName_ne_serializableName.symm]

/-- Nothing above a name can be reached but through its supertypes. -/
theorem mem_of_closed {names : List String} (closed : ∀ x ∈ names, ∀ y ∈ c.parents x, y ∈ names)
    {last : String} (there : name ∈ names) (chain : ReflTransGen c.Extends name last) :
    last ∈ names := by
  induction chain with
  | refl => exact there
  | tail _ step ih => exact closed _ ih _ (mem_parents.mpr step)

/-! ## §2. What is left to see. -/

/-- The declarations whose names satisfy a condition. -/
def count (c : Catalog) (p : String → Bool) : Nat :=
  c.model.types.countP fun d => p d.qualifiedName

/-- No more declared types can be left to see than are declared. -/
theorem count_le_length (c : Catalog) (p : String → Bool) : c.count p ≤ c.model.types.length :=
  List.countP_le_length

/-- Fewer names that qualify, fewer left to see. -/
theorem count_mono {p q : String → Bool} (sub : ∀ x, q x = true → p x = true) :
    c.count q ≤ c.count p :=
  List.countP_mono_left fun d _ => sub d.qualifiedName

/-- Fewer declarations satisfy a condition that leaves a declared name out. -/
theorem count_lt {p q : String → Bool} (sub : ∀ x, q x = true → p x = true) {d : TypeDecl}
    (declared : c.decl? name = some d) (before : p name = true) (after : q name = false) :
    c.count q < c.count p := by
  obtain ⟨hd, rfl⟩ := Keyed.of_find? declared
  unfold count
  rw [List.countP_eq_length_filter, List.countP_eq_length_filter]
  -- What satisfies `q` is what is left of what satisfies `p`.
  have left : c.model.types.filter (fun d => q d.qualifiedName)
      = (c.model.types.filter fun d => p d.qualifiedName).filter fun d => q d.qualifiedName := by
    rw [List.filter_filter]
    refine List.filter_congr fun x _ => ?_
    by_cases h : q x.qualifiedName = true
    · rw [h, sub _ h]
      rfl
    · rw [Bool.not_eq_true] at h
      rw [h, Bool.false_and]
  rw [left, List.length_filter_lt_length_iff_exists]
  exact ⟨d, List.mem_filter.mpr ⟨hd, before⟩, by rw [after]; nofun⟩

/-! ## §3. The walk. -/

/-- Between two moments of a walk names were seen, of which none settles the question and none has a
supertype that was not seen. -/
structure Explored (c : Catalog) (target : String) (seen seen' : List String) : Prop where
  grows : ∀ x ∈ seen, x ∈ seen'
  closed : ∀ x ∈ seen', x ∈ seen ∨ c.settles target x = false ∧ ∀ y ∈ c.parents x, y ∈ seen'

namespace Explored

variable {a b d : List String}

/-- Nothing seen, nothing to explain. -/
theorem refl (a : List String) : Explored c target a a := ⟨fun _ h => h, fun _ h => .inl h⟩

/-- Explorations in a row are one exploration. -/
theorem trans (hab : Explored c target a b) (hbd : Explored c target b d) :
    Explored c target a d := by
  refine ⟨fun x hx => hbd.grows x (hab.grows x hx), fun x hx => ?_⟩
  rcases hbd.closed x hx with old | new
  · rcases hab.closed x old with older | ⟨settles, above⟩
    · exact .inl older
    · exact .inr ⟨settles, fun y hy => hbd.grows y (above y hy)⟩
  · exact .inr new

end Explored

/-- What a visit of some names comes to: it finds a chain from one of them, or it has seen all of
them in vain. -/
def Comes (c : Catalog) (target : String) (names seen : List String) :
    Option (Bool × List String) → Prop
  | none => True
  | some (true, _) => ∃ name ∈ names, c.Climbs name target
  | some (false, seen') => Explored c target seen seen' ∧ ∀ name ∈ names, name ∈ seen'

/-- What a visit to several names comes to, where it is known what each single visit comes to. -/
theorem comes_visitAny {visit : String → List String → Option (Bool × List String)}
    (each : ∀ name seen, c.Comes target [name] seen (visit name seen)) (names : List String) :
    ∀ seen, c.Comes target names seen (visitAny visit names seen) := by
  induction names with
  | nil =>
    intro seen
    exact ⟨.refl seen, nofun⟩
  | cons name rest ih =>
    intro seen
    have first := each name seen
    unfold visitAny
    rcases found : visit name seen with _ | ⟨_ | _, seen'⟩
    · trivial
    · -- The first name was in vain, and the others start with what it has seen.
      rw [found] at first
      obtain ⟨explored, here⟩ := first
      have others := ih seen'
      show c.Comes target (name :: rest) seen (visitAny visit rest seen')
      rcases later : visitAny visit rest seen' with _ | ⟨_ | _, seen''⟩
      · trivial
      · rw [later] at others
        obtain ⟨explored', there⟩ := others
        refine ⟨explored.trans explored', List.forall_mem_cons.mpr ⟨?_, there⟩⟩
        exact explored'.grows name (here name List.mem_cons_self)
      · rw [later] at others
        obtain ⟨other, ho, climbs⟩ := others
        exact ⟨other, List.mem_cons_of_mem name ho, climbs⟩
    · -- The first name found a chain, and the others are not visited.
      rw [found] at first
      obtain ⟨_, ho, climbs⟩ := first
      rw [List.mem_singleton.mp ho] at climbs
      exact ⟨name, List.mem_cons_self, climbs⟩

/-- Where a name settles nothing itself, all that counts is what its supertypes come to. -/
theorem comes_above {seen : List String} {answer : Option (Bool × List String)}
    (fails : c.settles target name = false)
    (above : c.Comes target (c.parents name) (name :: seen) answer) :
    c.Comes target [name] seen answer := by
  rcases answer with _ | ⟨_ | _, seen'⟩
  · trivial
  · obtain ⟨explored, there⟩ := above
    have here : name ∈ seen' := explored.grows name List.mem_cons_self
    refine ⟨⟨fun x hx => explored.grows x (List.mem_cons_of_mem name hx), fun x hx => ?_⟩, ?_⟩
    · rcases explored.closed x hx with old | closed
      · rcases List.mem_cons.mp old with rfl | older
        · exact .inr ⟨fails, there⟩
        · exact .inl older
      · exact .inr closed
    · intro x hx
      rw [List.mem_singleton.mp hx]
      exact here
  · obtain ⟨other, ho, last, chain, arrives⟩ := above
    exact ⟨name, List.mem_cons_self, last, .head (mem_parents.mp ho) chain, arrives⟩

/-- A name that settles the question ends the walk. -/
theorem comes_of_settles (seen : List String) (settled : c.settles target name = true) :
    c.Comes target [name] seen (some (true, name :: seen)) :=
  ⟨name, List.mem_cons_self, name, .refl, settles_iff.mp settled⟩

/-- So does a name without supertypes. -/
theorem comes_of_parents_nil {answer : Bool} (seen : List String) (last : c.parents name = [])
    (same : c.settles target name = answer) :
    c.Comes target [name] seen (some (answer, name :: seen)) := by
  cases answer with
  | true => exact comes_of_settles seen same
  | false =>
    apply comes_above same
    rw [last]
    exact ⟨.refl _, nofun⟩

/-- A walk finds a chain, or has seen everything above its name in vain. -/
theorem comes_walk (c : Catalog) (target : String) (depth : Nat) :
    ∀ name seen, c.Comes target [name] seen (c.walk target depth name seen) := by
  induction depth with
  | zero =>
    intro name seen
    trivial
  | succ depth ih =>
    intro name seen
    unfold walk
    by_cases same : (name == target) = true
    · rw [if_pos same]
      exact ⟨name, List.mem_cons_self, name, .refl, eq_of_beq same ▸ .itself⟩
    rw [if_neg same]
    by_cases again : seen.contains name = true
    · rw [if_pos again]
      refine ⟨.refl seen, fun x hx => ?_⟩
      rw [List.mem_singleton.mp hx]
      exact List.contains_iff_mem.mp again
    rw [if_neg again]
    rw [Bool.not_eq_true] at same
    dsimp only
    rcases declared : c.decl? name with _ | d
    · -- Nothing is known above the name.
      have last : c.parents name = [] := parents_of_undeclared declared
      have settled := settles_of_undeclared declared same
      show c.Comes target [name] seen (if _ then _ else if _ then _ else _)
      split at settled
      · rw [if_pos ‹_›]
        exact comes_of_parents_nil seen last settled
      · rw [if_neg ‹_›]
        split at settled
        · rw [if_pos ‹_›]
          exact comes_of_parents_nil seen last settled
        · rw [if_neg ‹_›]
          exact comes_of_parents_nil seen last settled
    · have settled := settles_of_declared declared same
      show c.Comes target [name] seen (if _ then _ else _)
      by_cases enum : (d.kind == .enumType && target == serializableName) = true
      · rw [if_pos enum]
        exact comes_of_settles seen (settled.trans enum)
      · rw [if_neg enum]
        apply comes_above (settled.trans (Bool.not_eq_true _ ▸ enum))
        rw [parents_of_declared declared]
        exact comes_visitAny ih _ _

/-- Visits come to an end if each of them does, whatever the ones before it have seen. -/
theorem visitAny_ends {visit : String → List String → Option (Bool × List String)}
    (each : ∀ name seen, c.Comes target [name] seen (visit name seen)) {start : List String}
    (ends : ∀ name seen, (∀ x ∈ start, x ∈ seen) → ∃ answer, visit name seen = some answer)
    (names : List String) :
    ∀ seen, (∀ x ∈ start, x ∈ seen) → ∃ answer, visitAny visit names seen = some answer := by
  induction names with
  | nil =>
    intro seen _
    exact ⟨_, rfl⟩
  | cons name rest ih =>
    intro seen sub
    obtain ⟨⟨_ | _, seen'⟩, found⟩ := ends name seen sub
    · have first := each name seen
      rw [found] at first
      obtain ⟨answer, later⟩ := ih seen' fun x hx => first.1.grows x (sub x hx)
      refine ⟨answer, ?_⟩
      unfold visitAny
      rw [found]
      exact later
    · refine ⟨(true, seen'), ?_⟩
      unfold visitAny
      rw [found]

/-- A walk ends at a depth above the number of declarations that were not seen. -/
theorem walk_ends (c : Catalog) (target : String) (depth : Nat) :
    ∀ name seen, c.count (fun x => !seen.contains x) < depth →
      ∃ answer, c.walk target depth name seen = some answer := by
  induction depth with
  | zero =>
    intro _ _ h
    exact absurd h (Nat.not_lt_zero _)
  | succ depth ih =>
    intro name seen enough
    unfold walk
    split
    · exact ⟨_, rfl⟩
    split
    · exact ⟨_, rfl⟩
    next again =>
    dsimp only
    rcases declared : c.decl? name with _ | d
    · dsimp only
      split
      · exact ⟨_, rfl⟩
      · split <;> exact ⟨_, rfl⟩
    · dsimp only
      split
      · exact ⟨_, rfl⟩
      -- Seeing a declared name uses up one step of the depth.
      have fewer : c.count (fun x => !(name :: seen).contains x)
          < c.count fun x => !seen.contains x := by
        refine count_lt (fun x => ?_) declared (by simpa using again) (by simp)
        simp only [List.contains_cons, Bool.not_or, Bool.and_eq_true]
        exact And.right
      refine visitAny_ends (c.comes_walk target depth) (fun other seen' sub => ?_) _ _
        fun _ h => h
      apply ih
      have less : c.count (fun x => !seen'.contains x)
          ≤ c.count fun x => !(name :: seen).contains x := by
        refine count_mono fun x hx => ?_
        rw [Bool.not_eq_true', ← Bool.not_eq_true, List.contains_iff_mem] at hx ⊢
        exact fun h => hx (sub x h)
      omega

/-- A walk that ends has found a chain, or there is none. -/
theorem walk_eq_some {depth : Nat} {answer : Bool} {seen : List String}
    (run : c.walk target depth name [] = some (answer, seen)) :
    answer = true ↔ c.Climbs name target := by
  have comes := c.comes_walk target depth name []
  rw [run] at comes
  cases answer with
  | true =>
    obtain ⟨_, ho, climbs⟩ := comes
    rw [List.mem_singleton.mp ho] at climbs
    exact iff_of_true rfl climbs
  | false =>
    -- All that was seen is closed, so no chain leaves it, and nothing in it settles the question.
    obtain ⟨explored, there⟩ := comes
    have fails : ∀ x ∈ seen, c.settles target x = false ∧ ∀ y ∈ c.parents x, y ∈ seen :=
      fun x hx => (explored.closed x hx).resolve_left List.not_mem_nil
    refine iff_of_false nofun ?_
    rintro ⟨last, chain, arrives⟩
    have seen_last : last ∈ seen :=
      mem_of_closed (fun x hx => (fails x hx).2) (there name List.mem_cons_self) chain
    have settles := settles_iff.mpr arrives
    rw [(fails last seen_last).1] at settles
    cases settles

/-! ## §4. The search in rounds. -/

/-- The names that a round finds. -/
def fresh (c : Catalog) (reached frontier : List String) : List String :=
  ((frontier.flatMap c.parents).filter fun name => !reached.contains name).eraseDups

/-- A round finds exactly the parents of the frontier that were not reached before. -/
theorem mem_fresh {reached frontier : List String} {above : String} :
    above ∈ c.fresh reached frontier ↔
      (∃ name ∈ frontier, c.Extends name above) ∧ above ∉ reached := by
  unfold fresh
  rw [List.mem_eraseDups, List.mem_filter, List.mem_flatMap]
  simp only [mem_parents, Bool.not_eq_true', List.contains_eq_mem, decide_eq_false_iff_not]

/-- A round that finds nothing is the last; otherwise the search goes on from what it found. -/
theorem reach_succ (c : Catalog) (rounds : Nat) (reached frontier : List String) :
    c.reach (rounds + 1) reached frontier =
      if (c.fresh reached frontier).isEmpty then reached
      else c.reach rounds (reached ++ c.fresh reached frontier) (c.fresh reached frontier) := rfl

/-- What was reached stays reached. -/
theorem subset_reach {x : String} (rounds : Nat) :
    ∀ reached frontier, x ∈ reached → x ∈ c.reach rounds reached frontier := by
  induction rounds with
  | zero =>
    intro _ _ h
    exact h
  | succ rounds ih =>
    intro reached frontier h
    rw [reach_succ]
    split
    · exact h
    · exact ih _ _ (List.mem_append_left _ h)

/-- Rounds reach nothing but what chains lead to. -/
theorem exists_chain_of_mem_reach {last : String} (rounds : Nat) :
    ∀ reached frontier, last ∈ c.reach rounds reached frontier →
      last ∈ reached ∨ ∃ name ∈ frontier, ReflTransGen c.Extends name last := by
  induction rounds with
  | zero =>
    intro reached frontier h
    exact .inl h
  | succ rounds ih =>
    intro reached frontier h
    rw [reach_succ] at h
    split at h
    · exact .inl h
    rcases ih _ _ h with there | ⟨x, hx, chain⟩
    · rcases List.mem_append.mp there with old | new
      · exact .inl old
      · obtain ⟨⟨name, hn, step⟩, _⟩ := mem_fresh.mp new
        exact .inr ⟨name, hn, .single step⟩
    · obtain ⟨⟨name, hn, step⟩, _⟩ := mem_fresh.mp hx
      exact .inr ⟨name, hn, .head step chain⟩

/-- The rounds are over before they run out: all supertypes of what they reach are reached as well.
A round that finds something starts from a declared name, which no later round starts from. -/
theorem reach_closed (rounds : Nat) :
    ∀ reached frontier : List String, (∀ x ∈ frontier, x ∈ reached) →
      (∀ x ∈ reached, x ∈ frontier ∨ ∀ y ∈ c.parents x, y ∈ reached) →
      c.count (fun x => !reached.contains x || frontier.contains x) < rounds →
      ∀ x ∈ c.reach rounds reached frontier,
        ∀ y ∈ c.parents x, y ∈ c.reach rounds reached frontier := by
  induction rounds with
  | zero =>
    intro _ _ _ _ h
    exact absurd h (Nat.not_lt_zero _)
  | succ rounds ih =>
    intro reached frontier sub closed enough
    rw [reach_succ]
    split
    · next nothing =>
      intro x hx y hy
      -- Nothing new stands above the frontier, so whatever stands above a name was reached before.
      by_cases old : y ∈ reached
      · exact old
      · rcases closed x hx with hf | there
        · have new := mem_fresh.mpr ⟨⟨x, hf, mem_parents.mp hy⟩, old⟩
          rw [List.isEmpty_iff.mp nothing] at new
          cases new
        · exact there y hy
    · next found =>
      -- The frontier moves on to what was found; what is above the old one has been reached by
      -- then.
      apply ih
      · intro x hx
        exact List.mem_append_right _ hx
      · intro x hx
        rcases List.mem_append.mp hx with old | new
        · refine .inr fun y hy => ?_
          by_cases there : y ∈ reached
          · exact List.mem_append_left _ there
          · rcases closed x old with hf | all
            · exact List.mem_append_right _ (mem_fresh.mpr ⟨⟨x, hf, mem_parents.mp hy⟩, there⟩)
            · exact List.mem_append_left _ (all y hy)
        · exact .inl new
      · -- Something above the frontier was found, so a name of the frontier is declared.
        obtain ⟨above, ha⟩ := List.exists_mem_of_ne_nil _ fun h => found (List.isEmpty_iff.mpr h)
        obtain ⟨⟨name, hn, d, declared, _⟩, _⟩ := mem_fresh.mp ha
        have fewer : c.count (fun x => !(reached ++ c.fresh reached frontier).contains x
              || (c.fresh reached frontier).contains x)
            < c.count fun x => !reached.contains x || frontier.contains x := by
          apply count_lt _ declared
          · simp [hn]
          · have late : name ∉ c.fresh reached frontier := fun h => (mem_fresh.mp h).2 (sub name hn)
            simp [sub name hn, late]
          · intro x hx
            simp only [Bool.or_eq_true, Bool.not_eq_true', List.contains_eq_mem,
              decide_eq_false_iff_not, decide_eq_true_eq] at hx ⊢
            rcases hx with out | new
            · exact .inl fun h => out (List.mem_append_left _ h)
            · exact .inl (mem_fresh.mp new).2
        omega

/-- The search in rounds finds exactly the names that a chain leads to. -/
theorem mem_ancestors {above : String} :
    above ∈ c.ancestors name ↔ ReflTransGen c.Extends name above := by
  unfold ancestors
  constructor
  · intro h
    rcases exists_chain_of_mem_reach _ _ _ h with same | ⟨x, hx, chain⟩
    · rw [List.mem_singleton.mp same]
    · rw [List.mem_singleton.mp hx] at chain
      exact chain
  · intro chain
    refine mem_of_closed ?_ (subset_reach _ _ _ (List.mem_singleton_self name)) chain
    apply reach_closed
    · intro x hx
      exact hx
    · intro x hx
      exact .inl hx
    · exact Nat.lt_succ_of_le (c.count_le_length _)

/-! ## §5. Both searches. -/

/-- The walk answers yes just when the target is climbed to. -/
theorem isSubtype_iff : c.isSubtype name target = true ↔ c.Climbs name target := by
  unfold isSubtype Climbs
  simp only [List.any_eq_true, mem_ancestors, settles_iff]

/-- A type is a subtype exactly if a chain of supertypes leads from its name to one that settles the
question, and the walk that shares what it has seen gives the same answer: it ends at every depth
above the number of declarations. -/
theorem isSubtype_iff_chain (c : Catalog) (name target : String) :
    (c.isSubtype name target = true ↔
      ∃ last, ReflTransGen c.Extends name last ∧ c.Arrives target last) ∧
    ∀ depth, c.model.types.length < depth →
      ∃ seen, c.walk target depth name [] = some (c.isSubtype name target, seen) := by
  refine ⟨isSubtype_iff, fun depth enough => ?_⟩
  obtain ⟨⟨answer, seen⟩, run⟩ :=
    c.walk_ends target depth name [] (Nat.lt_of_le_of_lt (c.count_le_length _) enough)
  have same : answer = c.isSubtype name target := by
    rw [Bool.eq_iff_iff, walk_eq_some run, isSubtype_iff]
  exact ⟨seen, same ▸ run⟩

/-- An interface in the package `app`. -/
def interfaceOf (name : String) (above : List String) : TypeDecl :=
  ⟨"app", name, .interfaceType, [], [], none, above, [], false, [], [], []⟩

/-- Two interfaces that extend each other, and a way out of their circle that comes last. -/
def circle : Catalog :=
  ⟨⟨[interfaceOf "Left" ["Right", "Top"], interfaceOf "Right" ["Left"],
    interfaceOf "Top" [parcelableName]], []⟩, "Codec"⟩

/-- The walk comes back to where it has been, and still finds the way out. -/
theorem isSubtype_iff_chain_circle :
    circle.model.types.length < 4 ∧
      (∃ last, ReflTransGen circle.Extends "app.Right" last ∧
        circle.Arrives parcelableName last) ∧
      ∃ seen, circle.walk parcelableName 4 "app.Right" [] = some (true, seen) := by
  have holds := isSubtype_iff_chain circle "app.Right" parcelableName
  have subtype : circle.isSubtype "app.Right" parcelableName = true := by decide +kernel
  have enough : circle.model.types.length < 4 := by decide
  refine ⟨enough, holds.1.mp subtype, ?_⟩
  rw [← subtype]
  exact holds.2 4 enough

end ParcelCodec.Catalog
