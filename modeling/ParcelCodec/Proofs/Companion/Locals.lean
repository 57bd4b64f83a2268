import ParcelCodec.Companion.OfDescriptor
import ParcelCodec.Proofs.Companion.Scoping

/-!
# Local variables

The statements that write introduce new names only, since their names are drawn from scopes that
hold whatever is visible.

So do the statements that read, with one exception.  A map that refuses null reads its key in the
block that reads the value as well, so the variables of the key are visible to the value, which is
drawn from a scope without them.  The value settles on a variable of the key as soon as it draws a
name for the same base.

Main statements: `Statics.scoped_writePresent`, `Surroundings.scoped_readPresent` and
`Companion.localsApart_ofDescriptor`.
-/

namespace ParcelCodec

open DataClass (Descriptor Property)
open NameScope (Holds Clear)

/-! ## §1. Writing. -/

namespace Statics

variable {visible : List String} {stmts : List Stmt}

/-- A slot around scoped statements is scoped. -/
theorem scoped_writeSlot (c : Codec) (nullable : Bool) (value : Expr)
    (direct : Stmt.areScoped visible stmts = true) :
    Stmt.areScoped visible (writeSlot c nullable value stmts) = true := by
  unfold writeSlot
  split
  · simp [Stmt.areScoped, Stmt.isScoped, Stmt.declared, direct]
  · exact direct

/-- So is the slot of an item that a loop names, where writing the item is scoped. -/
theorem scoped_writeItem {s : Statics} {c : Codec} {scope : NameScope} {name : String}
    (nullable : Bool)
    (direct : Stmt.areScoped visible (s.writePresent c (.var name) scope) = true) :
    Stmt.areScoped visible
      (writeSlot c nullable (.var name) (s.writePresent c (.var name) scope)) = true :=
  scoped_writeSlot c nullable _ direct

/-- Writing a slot leaves behind the names that were visible before it. -/
theorem after_writeSlot (c : Codec) (nullable : Bool) (value : Expr)
    (direct : Stmt.after visible stmts = visible) :
    Stmt.after visible (writeSlot c nullable value stmts) = visible := by
  unfold writeSlot
  split
  · rfl
  · exact direct

/-- Whatever writes a value declares nothing for the statements behind it. -/
theorem after_writePresent (s : Statics) (c : Codec) (value : Expr) (scope : NameScope) :
    Stmt.after visible (s.writePresent c value scope) = visible := by
  cases c with
  | leaf _ l => cases l <;> rfl
  | _ => rfl

/-- Whatever writes a value introduces new names only. -/
theorem scoped_writePresent (s : Statics) : ∀ (c : Codec) (value : Expr) {scope : NameScope}
    {visible : List String}, Holds scope visible →
      Stmt.areScoped visible (s.writePresent c value scope) = true
  | .leaf _ l, _, _, _, _ => by cases l <;> rfl
  | .adapter _ _ _, _, _, _, _ => rfl
  | .array _ e, value, scope, visible, held => by
    have inner := held.draw "i"
    have body := scoped_writeItem true (scoped_writePresent s e
      (.var ((scope.drawn "i").fresh "element")) (inner.draw "element"))
    simp only [writePresent, NameScope.allocate_eq, Stmt.areScoped, Stmt.isScoped, Stmt.declared,
      List.nil_append, List.cons_append, held.isNew, inner.isNew, body, Bool.and_self]
  | .sequence _ _ box e, value, scope, visible, held => by
    have body := scoped_writeItem box.nulls (scoped_writePresent s e
      (.var (scope.fresh "element")) (held.draw "element"))
    simp only [writePresent, NameScope.allocate_eq, Stmt.areScoped, Stmt.isScoped, Stmt.declared,
      List.nil_append, held.isNew, body, Bool.and_self]
  | .map _ box k v, value, scope, visible, held => by
    have inner := held.draw "key"
    -- Both variables are drawn before either half is written, so either half leaves the other's
    -- alone.
    have both := inner.draw "value"
    have keys := scoped_writeItem box.nulls
      (scoped_writePresent s k (.var (scope.fresh "key")) both)
    have values := scoped_writeItem true
      (scoped_writePresent s v (.var ((scope.drawn "key").fresh "value")) both)
    simp only [writePresent, NameScope.allocate_eq, Stmt.areScoped, Stmt.isScoped, Stmt.declared,
      List.nil_append, held.isNew, inner.isNew, Stmt.areScoped_append, keys,
      after_writeSlot k box.nulls _ (s.after_writePresent k _ _), values, Bool.and_self]
  | .sparseArray _ e, value, scope, visible, held => by
    have inner := held.draw "i"
    have body := scoped_writeItem true (scoped_writePresent s e
      (.var ((scope.drawn "i").fresh "element")) (inner.draw "element"))
    simp only [writePresent, NameScope.allocate_eq, Stmt.areScoped, Stmt.isScoped, Stmt.declared,
      List.nil_append, List.cons_append, held.isNew, inner.isNew, body, Bool.and_self]

end Statics

/-! ## §2. What is drawn. -/

namespace Codec

open Surroundings (containerName)

/-- The bases of the variables that a value is read with in the block where it is read. -/
def declares : Codec → List String
  | .leaf _ _ | .adapter _ _ _ => []
  | .array _ _ => ["length", "array"]
  | .sequence _ kind _ _ => ["size", containerName (.collection (.sequence kind))]
  | .map _ _ _ _ => ["size", containerName (.collection .map)]
  | .sparseArray _ _ => ["size", containerName .sparseArray]

/-- The bases of all names that are introduced where a value is read. -/
def draws : Codec → List String
  | .leaf _ _ | .adapter _ _ _ => []
  | .array _ e => ["length", "array", "i", "element"] ++ e.draws
  | .sequence _ kind _ e =>
    ["size", containerName (.collection (.sequence kind)), "i", "element"] ++ e.draws
  | .map _ _ k v =>
    ["size", containerName (.collection .map), "i", "key", "value"] ++ (k.draws ++ v.draws)
  | .sparseArray _ e => ["size", containerName .sparseArray, "i", "key", "value"] ++ e.draws

/-- Whether every key that is read in one block with its value shares no base with it. -/
def roomy : Codec → Bool
  | .leaf _ _ | .adapter _ _ _ => true
  | .array _ e | .sequence _ _ _ e | .sparseArray _ e => e.roomy
  | .map _ box k v =>
    k.roomy && v.roomy && (box.nulls || k.declares.all fun base => !v.draws.contains base)

/-- All bases. -/
def bases : List String :=
  ["length", "size", "array", "list", "set", "queue", "map", "sparseArray", "i", "element", "key",
    "value"]

/-- Bases are told apart by their stems. -/
theorem eq_of_stem : ∀ a ∈ bases, ∀ b ∈ bases, NameScope.stem a = NameScope.stem b → a = b := by
  decide

/-- The variable of a container bears one of the base names. -/
theorem containerName_mem (kind : ContainerKind) : containerName kind ∈ bases := by
  rcases kind with (⟨_ | _ | _⟩ | _) | _ <;> decide

/-- A codec draws only base names. -/
theorem draws_subset : ∀ c : Codec, c.draws ⊆ bases
  | .leaf _ _ | .adapter _ _ _ => List.nil_subset _
  | .array _ e => by
    have inner := draws_subset e
    simp only [draws, List.append_subset, List.cons_subset, List.nil_subset, and_true, and_assoc]
    exact ⟨by decide, by decide, by decide, by decide, inner⟩
  | .sequence _ kind _ e => by
    have inner := draws_subset e
    simp only [draws, List.append_subset, List.cons_subset, List.nil_subset, and_true, and_assoc]
    exact ⟨by decide, containerName_mem _, by decide, by decide, inner⟩
  | .map _ _ k v => by
    have keys := draws_subset k
    have values := draws_subset v
    simp only [draws, List.append_subset, List.cons_subset, List.nil_subset, and_true, and_assoc]
    exact ⟨by decide, containerName_mem _, by decide, by decide, by decide, keys, values⟩
  | .sparseArray _ e => by
    have inner := draws_subset e
    simp only [draws, List.append_subset, List.cons_subset, List.nil_subset, and_true, and_assoc]
    exact ⟨by decide, containerName_mem _, by decide, by decide, by decide, inner⟩

/-- What a codec declares it has drawn. -/
theorem declares_subset (c : Codec) : c.declares ⊆ c.draws := by
  cases c <;> simp [declares, draws]

/-- The variables of a value are not called like an entry. -/
theorem value_not_mem_declares (c : Codec) : "value" ∉ c.declares := by
  rcases c with _ | _ | ⟨_, _ | _, _, _⟩ | _ | _ | _ <;> simp [declares, containerName]

/-- A codec that treats null by itself declares nothing around its value. -/
theorem declares_of_isNullSafe {c : Codec} (h : c.isNullSafe = true) : c.declares = [] := by
  cases c with
  | leaf | adapter => rfl
  | _ => cases h

/-- Names for two bases do not depend on each other. -/
theorem fresh_drawn {scope : NameScope} (plain : scope.separator = "") {a b : String}
    (ha : a ∈ bases) (hb : b ∈ bases) (other : a ≠ b) :
    (scope.drawn a).fresh b = scope.fresh b :=
  NameScope.fresh_drawn_of_stem plain fun same => other (eq_of_stem a ha b hb same)

end Codec

/-! ## §3. Reading. -/

namespace Surroundings

variable {s : Surroundings} {c : Codec} {scope : NameScope} {visible bases : List String}

/-- What a value declares in the block where it is read. -/
theorem after_readPresent (plain : scope.separator = "") (c : Codec) :
    Stmt.after visible (s.readPresent c scope).stmts
      = (c.declares.map scope.fresh).reverse ++ visible := by
  have container : ∀ kind, (scope.drawn "size").fresh (containerName kind)
      = scope.fresh (containerName kind) := fun kind =>
    Codec.fresh_drawn plain (by decide) (Codec.containerName_mem kind) (by
      rcases kind with (⟨_ | _ | _⟩ | _) | _ <;> decide)
  have array : (scope.drawn "length").fresh "array" = scope.fresh "array" :=
    Codec.fresh_drawn plain (by decide) (by decide) (by decide)
  cases c with
  | leaf | adapter => rfl
  | array ty e =>
    show (scope.drawn "length").fresh "array" :: scope.fresh "length" :: visible = _
    rw [array]
    rfl
  | sequence ty kind box e =>
    show (scope.drawn "size").fresh _ :: scope.fresh "size" :: visible = _
    rw [container]
    rfl
  | map ty box k v =>
    show (scope.drawn "size").fresh _ :: scope.fresh "size" :: visible = _
    rw [container]
    rfl
  | sparseArray ty e =>
    show (scope.drawn "size").fresh _ :: scope.fresh "size" :: visible = _
    rw [container]
    rfl

/-- What a slot declares in the block where it is read: its variable, and the variables of its value
if that is read in the same block. -/
theorem after_readSlot (plain : scope.separator = "") (c : Codec) (nullable : Bool)
    (name : String) :
    Stmt.after visible (readSlot c nullable name (s.readPresent c scope))
      = name :: ((if nullable then [] else (c.declares.map scope.fresh).reverse) ++ visible) := by
  unfold readSlot
  split
  next marked =>
    rw [Bool.and_eq_true] at marked
    rw [if_pos marked.1]
    rfl
  next unmarked =>
    rw [Stmt.after_append, after_readPresent plain]
    show name :: _ = name :: _
    cases nullable with
    | false => rfl
    | true =>
      have safe : c.isNullSafe = true := by simpa using unmarked
      rw [Codec.declares_of_isNullSafe safe]
      rfl

/-- A slot is read as its value is, into a variable that the scope of the value holds. -/
theorem scoped_readSlot (nullable : Bool) {name : String}
    (ih : ∀ {visible : List String}, Clear scope c.draws visible →
      Stmt.areScoped visible (s.readPresent c scope).stmts = c.roomy)
    (clear : Clear scope c.draws visible) (new : isNew visible name = true)
    (held : name ∈ scope.taken) :
    Stmt.areScoped visible (readSlot c nullable name (s.readPresent c scope)) = c.roomy := by
  unfold readSlot
  split
  · simp only [Stmt.areScoped, Stmt.isScoped, Stmt.declared, Stmt.areScoped_append, new,
      List.singleton_append, ih (clear.cons held), Bool.and_true, Bool.true_and]
  · have behind : isNew (Stmt.after visible (s.readPresent c scope).stmts) name = true := by
      rw [isNew_iff] at new ⊢
      rw [after_readPresent clear.plain]
      refine ⟨new.1, fun seen => ?_⟩
      rcases List.mem_append.mp seen with own | seen
      · obtain ⟨base, -, rfl⟩ := List.mem_map.mp (List.mem_reverse.mp own)
        exact scope.fresh_not_mem base held
      · exact new.2 seen
    simp only [Stmt.areScoped, Stmt.isScoped, Stmt.areScoped_append, ih clear, behind,
      Bool.and_true]

/-- A container is read as one of its elements is. -/
theorem scoped_readContainer (kind : ContainerKind) (concrete : JavaType) (sized : Bool)
    (element : String → NameScope → List Stmt) (clear : Clear scope bases visible)
    (size : "size" ∈ bases) (container : containerName kind ∈ bases) (index : "i" ∈ bases) :
    ∃ target inner visible', Clear inner bases visible'
      ∧ Stmt.areScoped visible (readContainer kind concrete sized scope element).stmts
        = Stmt.areScoped visible' (element target inner) := by
  have first := clear.draw "size"
  have second := first.draw (containerName kind)
  refine ⟨(scope.drawn "size").fresh (containerName kind), _, _, second.draw "i", ?_⟩
  simp only [readContainer, NameScope.allocate_eq, Stmt.areScoped, Stmt.isScoped, Stmt.declared,
    List.singleton_append, clear.isNew size, first.isNew container, second.isNew index,
    Bool.and_true, Bool.true_and]

/-- An array is read as one of its elements is. -/
theorem scoped_readArray (ty : JavaType) (e : Codec) (element : String → NameScope → List Stmt)
    (clear : Clear scope bases visible) (length : "length" ∈ bases) (array : "array" ∈ bases)
    (index : "i" ∈ bases) (item : "element" ∈ bases) :
    ∃ inner visible', Clear inner bases visible' ∧ isNew visible' (inner.fresh "element") = true
      ∧ Stmt.areScoped visible (readArray ty e scope element).stmts
        = Stmt.areScoped visible' (element (inner.fresh "element") (inner.drawn "element")) := by
  have first := clear.draw "length"
  have second := first.draw "array"
  have third := second.draw "i"
  refine ⟨_, _, third, third.isNew item, ?_⟩
  simp only [readArray, NameScope.allocate_eq, Stmt.areScoped, Stmt.isScoped, Stmt.declared,
    List.singleton_append, Stmt.areScoped_append, clear.isNew length, first.isNew array,
    second.isNew index, Bool.and_true, Bool.true_and]

/-! ## §4. What is in the way. -/

/-- A scope that arises when names for some bases are drawn in turn, none of them visible.  A name
that can still be drawn from it could have been drawn at first. -/
structure Later (scope : NameScope) (visible : List String) (drawn : List String)
    (inner : NameScope) (more : List String) : Prop where
  plain : inner.separator = ""
  free : ∀ base ∈ drawn, scope.fresh base ∉ visible
  back : ∀ base ∈ Codec.bases, inner.fresh base ∉ more → scope.fresh base ∉ visible

theorem Later.refl (plain : scope.separator = "") (visible : List String) :
    Later scope visible [] scope visible := ⟨plain, nofun, fun _ _ => id⟩

section

variable {drawn more wider : List String} {inner : NameScope} {base : String}

/-- A later scope stays one when more names are visible. -/
theorem Later.mono (h : Later scope visible drawn inner more) (sub : more ⊆ wider) :
    Later scope visible drawn inner wider :=
  ⟨h.plain, h.free, fun b hd next => h.back b hd fun seen => next (sub seen)⟩

/-- One more name is drawn, and introduced later. -/
theorem Later.reserve (h : Later scope visible drawn inner more) (hb : base ∈ Codec.bases)
    (new : inner.fresh base ∉ more) :
    Later scope visible (drawn ++ [base]) (inner.drawn base) more := by
  refine ⟨h.plain, fun b hd => ?_, fun b hd next => h.back b hd ?_⟩
  · rcases List.mem_append.mp hd with hd | hd
    · exact h.free b hd
    · obtain rfl := List.mem_singleton.mp hd
      exact h.back b hb new
  · by_cases same : base = b
    · exact same ▸ new
    · rwa [Codec.fresh_drawn h.plain hb hd same] at next

/-- One more name is drawn and introduced. -/
theorem Later.draw (h : Later scope visible drawn inner more) (hb : base ∈ Codec.bases)
    (new : inner.fresh base ∉ more) :
    Later scope visible (drawn ++ [base]) (inner.drawn base) (inner.fresh base :: more) :=
  (h.reserve hb new).mono (List.subset_cons_self _ _)

end

/-- What is drawn from a later scope was not visible either. -/
theorem Later.of_append {drawn more rest : List String} {inner : NameScope}
    (h : Later scope visible drawn inner more) (inside : ∀ base ∈ rest, inner.fresh base ∉ more)
    (known : rest ⊆ Codec.bases) : ∀ base ∈ drawn ++ rest, scope.fresh base ∉ visible := by
  intro base hb
  rcases List.mem_append.mp hb with hd | hr
  · exact h.free base hd
  · exact h.back base (known hr) (inside base hr)

/-- Statements hide no name that was visible before them. -/
theorem subset_after (visible : List String) (stmts : List Stmt) :
    visible ⊆ Stmt.after visible stmts := by
  induction stmts generalizing visible with
  | nil => exact List.Subset.refl _
  | cons stmt rest ih => exact fun n hn => ih _ (List.mem_append_right _ hn)

/-- A slot that is read with new names only has a variable that was not visible, and its value is
read where at least as much is visible. -/
theorem later_readSlot {nullable : Bool} {name : String}
    (kept : Stmt.areScoped visible (readSlot c nullable name (s.readPresent c scope)) = true) :
    name ∉ visible
      ∧ ∃ more, visible ⊆ more ∧ Stmt.areScoped more (s.readPresent c scope).stmts = true := by
  unfold readSlot at kept
  split at kept
  · simp only [Stmt.areScoped, Stmt.isScoped, Stmt.declared, Stmt.areScoped_append,
      List.singleton_append, Bool.and_true, Bool.and_eq_true, isNew_iff] at kept
    exact ⟨kept.1.2, _, List.subset_cons_self _ _, kept.2⟩
  · simp only [Stmt.areScoped, Stmt.isScoped, Stmt.areScoped_append, Bool.and_true,
      Bool.and_eq_true, isNew_iff] at kept
    exact ⟨fun seen => kept.2.2 (subset_after _ _ seen), _, List.Subset.refl _, kept.1⟩

theorem later_readContainer {kind : ContainerKind} {concrete : JavaType} {sized : Bool}
    {element : String → NameScope → List Stmt} (plain : scope.separator = "")
    (kept : Stmt.areScoped visible (readContainer kind concrete sized scope element).stmts
      = true) :
    ∃ target inner more, Later scope visible ["size", containerName kind, "i"] inner more
      ∧ Stmt.areScoped more (element target inner) = true := by
  simp only [readContainer, NameScope.allocate_eq, Stmt.areScoped, Stmt.isScoped, Stmt.declared,
    List.singleton_append, Bool.and_true, Bool.and_eq_true, isNew_iff] at kept
  obtain ⟨⟨-, size⟩, ⟨-, target⟩, ⟨-, index⟩, body⟩ := kept
  have first := (Later.refl plain visible).draw (by decide) size
  have second := first.draw (Codec.containerName_mem kind) target
  exact ⟨_, _, _, second.draw (by decide) index, body⟩

theorem later_readArray {ty : JavaType} {e : Codec} {element : String → NameScope → List Stmt}
    (plain : scope.separator = "")
    (kept : Stmt.areScoped visible (readArray ty e scope element).stmts = true) :
    ∃ inner more, Later scope visible ["length", "array", "i"] inner more
      ∧ Stmt.areScoped more (element (inner.fresh "element") (inner.drawn "element")) = true := by
  simp only [readArray, NameScope.allocate_eq, Stmt.areScoped, Stmt.isScoped, Stmt.declared,
    List.singleton_append, Stmt.areScoped_append, Bool.and_true, Bool.and_eq_true,
    isNew_iff] at kept
  obtain ⟨⟨-, length⟩, ⟨-, array⟩, ⟨-, index⟩, body⟩ := kept
  have first := (Later.refl plain visible).draw (by decide) length
  have second := first.draw (by decide) array
  exact ⟨_, _, second.draw (by decide) index, body⟩

/-- Where a value is read with new names only, no name that it draws first was visible. -/
theorem fresh_not_mem_of_scoped (s : Surroundings) : ∀ (c : Codec) {scope : NameScope}
    {visible : List String}, scope.separator = "" →
      Stmt.areScoped visible (s.readPresent c scope).stmts = true →
      ∀ base ∈ c.draws, scope.fresh base ∉ visible
  | .leaf _ _, _, _, _, _ => nofun
  | .adapter _ _ _, _, _, _, _ => nofun
  | .array _ e, scope, visible, plain, kept => by
    obtain ⟨inner, more, later, body⟩ := later_readArray plain kept
    obtain ⟨item, wider, sub, element⟩ := later_readSlot body
    have last := (later.reserve (by decide) item).mono sub
    exact last.of_append (fresh_not_mem_of_scoped s e last.plain element)
      (Codec.draws_subset e)
  | .sequence _ kind box e, scope, visible, plain, kept => by
    obtain ⟨target, inner, more, later, body⟩ := later_readContainer plain kept
    rw [Stmt.areScoped_append, Bool.and_eq_true] at body
    obtain ⟨item, wider, sub, element⟩ := later_readSlot body.1
    have last := (later.reserve (by decide) item).mono sub
    exact last.of_append (fresh_not_mem_of_scoped s e last.plain element)
      (Codec.draws_subset e)
  | .map _ box k v, scope, visible, plain, kept => by
    obtain ⟨target, inner, more, later, body⟩ := later_readContainer plain kept
    rw [Stmt.areScoped_append, Stmt.areScoped_append, Bool.and_eq_true, Bool.and_eq_true] at body
    obtain ⟨key, wider, sub, keys⟩ := later_readSlot body.1.1
    obtain ⟨value, widest, sub', values⟩ := later_readSlot body.1.2
    -- The value is drawn from a scope with the names of the entry, whatever the key has declared.
    have named := later.reserve (by decide) key
    have atKey := named.mono sub
    have atValue := ((named.mono (subset_after more _)).reserve (by decide) value).mono sub'
    intro base hb
    rcases List.mem_append.mp hb with first | inside
    · exact atValue.free base first
    · rcases List.mem_append.mp inside with hk | hv
      · exact atKey.back base (Codec.draws_subset k hk)
          (fresh_not_mem_of_scoped s k atKey.plain keys base hk)
      · exact atValue.back base (Codec.draws_subset v hv)
          (fresh_not_mem_of_scoped s v atValue.plain values base hv)
  | .sparseArray ty e, scope, visible, plain, kept => by
    obtain ⟨target, inner, more, later, body⟩ := later_readContainer plain kept
    rw [Stmt.areScoped_append, Stmt.areScoped_append, Bool.and_eq_true, Bool.and_eq_true] at body
    have key : inner.fresh "key" ∉ more := (isNew_iff.mp (Bool.and_eq_true _ _ ▸ body.1.1).1).2
    obtain ⟨value, wider, sub, element⟩ := later_readSlot body.1.2
    have last := ((later.draw (by decide) key).reserve (by decide) value).mono sub
    exact last.of_append (fresh_not_mem_of_scoped s e last.plain element)
      (Codec.draws_subset e)

/-! ## §5. Room. -/

/-- The variables of a key are in the way of no base that they were not drawn for. -/
theorem clear_behindKey {k : Codec} (clear : Clear scope ("value" :: bases) visible)
    (known : bases ⊆ Codec.bases) (room : ∀ base ∈ k.declares, base ∉ bases) :
    Clear scope ("value" :: bases) ((k.declares.map scope.fresh).reverse ++ visible) := by
  refine ⟨clear.plain, fun n hn => ?_⟩
  rcases List.mem_append.mp hn with own | hn
  · obtain ⟨base, hb, rfl⟩ := List.mem_map.mp (List.mem_reverse.mp own)
    refine .inr fun other ho same => ?_
    rw [NameScope.stem_fresh clear.plain] at same
    have there : other ∈ Codec.bases := by
      rcases List.mem_cons.mp ho with rfl | ho
      · decide
      · exact known ho
    obtain rfl := Codec.eq_of_stem base
      (Codec.draws_subset k (Codec.declares_subset k hb)) other there same
    rcases List.mem_cons.mp ho with rfl | ho
    · exact Codec.value_not_mem_declares k hb
    · exact room base hb ho
  · exact clear.apart n hn

/-- A value that draws a name for a base of its key settles on a variable of the key. -/
theorem not_scoped_behindKey {k v : Codec} {name base : String} (plain : scope.separator = "")
    (hk : base ∈ k.declares) (hv : base ∈ v.draws) (seen : scope.fresh base ∈ visible) :
    Stmt.areScoped visible
      (readSlot v true name (s.readPresent v (scope.drawn "value"))) = false := by
  rw [Bool.eq_false_iff]
  intro kept
  obtain ⟨-, more, sub, inside⟩ := later_readSlot kept
  have later : (scope.drawn "value").separator = "" := plain
  have free := fresh_not_mem_of_scoped s v later inside base hv
  have other : "value" ≠ base := fun same => Codec.value_not_mem_declares k (same ▸ hk)
  rw [Codec.fresh_drawn plain (by decide) (Codec.draws_subset v hv) other] at free
  exact free (sub seen)

/-- An entry of a map is read with new names if its key and its value are, unless the value draws
a name for a base for which the key has declared a variable in the same block. -/
theorem scoped_readEntry {k v : Codec} (nullable : Bool)
    (keys : ∀ {scope : NameScope} {visible : List String}, Clear scope k.draws visible →
      Stmt.areScoped visible (s.readPresent k scope).stmts = k.roomy)
    (values : ∀ {scope : NameScope} {visible : List String}, Clear scope v.draws visible →
      Stmt.areScoped visible (s.readPresent v scope).stmts = v.roomy)
    (clear : Clear scope ("key" :: "value" :: (k.draws ++ v.draws)) visible) :
    Stmt.areScoped visible
        (readSlot k nullable (scope.fresh "key") (s.readPresent k (scope.drawn "key"))
          ++ readSlot v true ((scope.drawn "key").fresh "value")
            (s.readPresent v ((scope.drawn "key").drawn "value")))
      = (k.roomy && v.roomy
        && (nullable || k.declares.all fun base => !v.draws.contains base)) := by
  have atKey := clear.reserve "key"
  have key : Stmt.areScoped visible
      (readSlot k nullable (scope.fresh "key") (s.readPresent k (scope.drawn "key"))) = k.roomy :=
    scoped_readSlot nullable keys (atKey.mono fun b hb => by simp [hb]) (clear.isNew (by simp))
      (scope.fresh_mem_drawn _)
  have value {more : List String} (room : Clear (scope.drawn "key") ("value" :: v.draws) more) :
      Stmt.areScoped more (readSlot v true ((scope.drawn "key").fresh "value")
        (s.readPresent v ((scope.drawn "key").drawn "value"))) = v.roomy :=
    scoped_readSlot true values ((room.reserve "value").mono (List.subset_cons_self _ _))
      (room.isNew List.mem_cons_self) (NameScope.fresh_mem_drawn _ _)
  have atValue : Clear (scope.drawn "key") ("value" :: v.draws) visible :=
    atKey.mono fun b hb => by
      rcases List.mem_cons.mp hb with rfl | hb
      · simp
      · simp [hb]
  rw [Stmt.areScoped_append, key, after_readSlot atKey.plain, Bool.and_assoc]
  congr 1
  cases nullable with
  | true =>
    -- The variables of the key are gone with the block in which it was read.
    rw [if_pos rfl, List.nil_append, value (atValue.cons (scope.fresh_mem_drawn _)), Bool.true_or,
      Bool.and_true]
  | false =>
    rw [Bool.false_or]
    by_cases room : ∀ base ∈ k.declares, base ∉ v.draws
    · have all : (k.declares.all fun base => !v.draws.contains base) = true := by simpa using room
      have behind := clear_behindKey atValue (Codec.draws_subset v) room
      rw [all, Bool.and_true]
      exact value (behind.cons (scope.fresh_mem_drawn "key"))
    · push Not at room
      obtain ⟨base, hk, hv⟩ := room
      have all : (k.declares.all fun base => !v.draws.contains base) = false := by
        simpa using ⟨base, hk, hv⟩
      have seen : (scope.drawn "key").fresh base ∈ scope.fresh "key"
          :: ((k.declares.map (scope.drawn "key").fresh).reverse ++ visible) :=
        List.mem_cons_of_mem _ (List.mem_append_left _
          (List.mem_reverse.mpr (List.mem_map_of_mem hk)))
      rw [all, Bool.and_false]
      exact not_scoped_behindKey atKey.plain hk hv seen

/-- A value is read with new names only if its codec has room, and only then. -/
theorem scoped_readPresent (s : Surroundings) : ∀ (c : Codec) {scope : NameScope}
    {visible : List String}, Clear scope c.draws visible →
      Stmt.areScoped visible (s.readPresent c scope).stmts = c.roomy
  | .leaf _ _, _, _, _ => rfl
  | .adapter _ _ _, _, _, _ => rfl
  | .array ty e, scope, visible, clear => by
    -- A container reads its items behind the names it has drawn; what is left to show is that the
    -- items are read with new names there.
    obtain ⟨inner, more, inside, new, same⟩ := scoped_readArray ty e
      (fun item scope => readSlot e true item (s.readPresent e scope)) clear (by simp [Codec.draws])
      (by simp [Codec.draws]) (by simp [Codec.draws]) (by simp [Codec.draws])
    have element := scoped_readSlot true (scoped_readPresent s e)
      ((inside.reserve "element").mono fun b hb => by simp [Codec.draws, hb]) new
      (inner.fresh_mem_drawn _)
    exact same.trans element
  | .sequence ty kind box e, scope, visible, clear => by
    obtain ⟨target, inner, more, inside, same⟩ := scoped_readContainer
      (.collection (.sequence kind)) box.concrete box.sized
      (fun target scope =>
        readSlot e box.nulls (scope.fresh "element") (s.readPresent e (scope.drawn "element"))
          ++ [.add target (.var (scope.fresh "element"))])
      clear (by simp [Codec.draws]) (by simp [Codec.draws]) (by simp [Codec.draws])
    have element := scoped_readSlot box.nulls (scoped_readPresent s e)
      ((inside.reserve "element").mono fun b hb => by simp [Codec.draws, hb])
      (inside.isNew (by simp [Codec.draws])) (inner.fresh_mem_drawn _)
    refine same.trans ?_
    rw [Stmt.areScoped_append, element]
    exact Bool.and_true _
  | .map ty box k v, scope, visible, clear => by
    obtain ⟨target, inner, more, inside, same⟩ := scoped_readContainer
      (.collection .map) box.concrete box.sized
      (fun target scope =>
        readSlot k box.nulls (scope.fresh "key") (s.readPresent k (scope.drawn "key"))
          ++ readSlot v true ((scope.drawn "key").fresh "value")
            (s.readPresent v ((scope.drawn "key").drawn "value"))
          ++ [.put target (.var (scope.fresh "key")) (.var ((scope.drawn "key").fresh "value"))])
      clear (by simp [Codec.draws]) (by simp [Codec.draws]) (by simp [Codec.draws])
    have entry := scoped_readEntry box.nulls (scoped_readPresent s k) (scoped_readPresent s v)
      (inside.mono fun b hb => by simp_all [Codec.draws])
    refine same.trans ?_
    rw [Stmt.areScoped_append, entry]
    exact Bool.and_true _
  | .sparseArray ty e, scope, visible, clear => by
    obtain ⟨target, inner, more, inside, same⟩ := scoped_readContainer .sparseArray ty true
      (fun target scope =>
        [.declare (scope.fresh "key") .int (.read .int none)]
          ++ readSlot e true ((scope.drawn "key").fresh "value")
            (s.readPresent e ((scope.drawn "key").drawn "value"))
          ++ [.put target (.var (scope.fresh "key")) (.var ((scope.drawn "key").fresh "value"))])
      clear (by simp [Codec.draws]) (by simp [Codec.draws]) (by simp [Codec.draws])
    have keyed := inside.draw "key"
    have element := scoped_readSlot true (scoped_readPresent s e)
      ((keyed.reserve "value").mono fun b hb => by simp [Codec.draws, hb])
      (keyed.isNew (by simp [Codec.draws])) (NameScope.fresh_mem_drawn _ _)
    have key : Stmt.isScoped more (.declare (inner.fresh "key") .int (.read .int none)) = true :=
      inside.isNew (by simp [Codec.draws])
    refine same.trans ?_
    rw [Stmt.areScoped_append, List.singleton_append, Stmt.areScoped, key, Bool.true_and]
    exact (Bool.and_true _).trans element

end Surroundings

/-! ## §6. Companions. -/

namespace Companion

variable {s : Statics} {owner : JavaType} {scope : NameScope} {visible : List String}

/-- What a procedure starts with leaves a scope that holds whatever is visible, and the instance is
not. -/
theorem scoped_opening (s : Statics) (owner : JavaType) (needsLoader : Bool) :
    ∃ start around scope, opening s owner needsLoader = (start, around, scope)
      ∧ scope.separator = "" ∧ Stmt.areScoped [NameScope.input] start = true
      ∧ Holds scope (Stmt.after [NameScope.input] start)
      ∧ NameScope.data ∈ scope.taken ∧ NameScope.data ∉ Stmt.after [NameScope.input] start := by
  have held : Holds .locals [NameScope.input] := by decide
  cases needsLoader with
  | false => exact ⟨_, _, _, rfl, rfl, rfl, held, by decide, by decide⟩
  | true =>
    refine ⟨_, _, _, rfl, rfl, ?_, held.draw "loader", ?_, ?_⟩
    · exact (Bool.and_true _).trans (held.isNew "loader")
    · exact NameScope.mem_drawn _ _ (by decide)
    · intro seen
      rcases List.mem_cons.mp seen with same | seen
      · exact NameScope.fresh_not_mem .locals "loader" (same ▸ by decide)
      · exact absurd seen (by decide)

/-- The procedures of a shared codec introduce new names only if the codec has room, and only
then. -/
theorem localsApart_codecDecl (s : Statics) (owner : JavaType) (shared : SharedCodec) :
    (codecDecl s owner shared).read.localsApart = shared.codec.roomy
      ∧ (codecDecl s owner shared).write.localsApart = true := by
  obtain ⟨start, around, scope, opened, plain, begins, held, -, -⟩ :=
    scoped_opening s owner shared.codec.requiresClassLoader
  have draft := around.scoped_readPresent shared.codec (held.clear plain)
  have parameters : Holds (NameScope.locals.withName sharedValue)
      [sharedValue, NameScope.output, NameScope.flags] := by decide
  constructor
  · unfold codecDecl
    simp only [opened]
    show Stmt.areScoped [NameScope.input] _ = _
    rw [Stmt.areScoped_append, Stmt.areScoped_append, begins, draft, Bool.true_and]
    exact Bool.and_true _
  · exact s.scoped_writePresent shared.codec (.var sharedValue) parameters

/-- A property is read into its variable, and nothing else is declared. -/
theorem scoped_readProperty (around : Surroundings) (p : Property) (name : String)
    (scope : NameScope) (visible : List String) :
    Stmt.areScoped visible (readProperty around p name scope) = isNew visible name
      ∧ Stmt.after visible (readProperty around p name scope) = name :: visible := by
  have direct : (if p.codec.isComposite
      then (⟨[], .codecRead (around.statics.codecName p.type)⟩ : Draft)
      else around.readPresent p.codec scope).stmts = [] := by
    split
    · rfl
    · cases h : p.codec <;> simp_all [Codec.isComposite, Surroundings.readPresent]
  unfold readProperty Surroundings.readSlot
  split
  · rw [direct]
    exact ⟨Bool.and_true _, rfl⟩
  · rw [direct]
    exact ⟨Bool.and_true _, rfl⟩

/-- The properties are read into new variables, and no other name becomes visible. -/
theorem scoped_readProperties (around : Surroundings) : ∀ (ps : List Property) {scope : NameScope}
    {visible : List String}, Holds scope visible →
      Stmt.areScoped visible (readProperties around scope ps).2 = true
      ∧ ∀ n ∈ scope.taken, n ∉ visible → n ∉ Stmt.after visible (readProperties around scope ps).2
  | [], _, _, _ => ⟨rfl, fun _ _ => id⟩
  | p :: rest, scope, visible, held => by
    obtain ⟨new, behind⟩ :=
      scoped_readProperty around p (scope.fresh p.name) (scope.drawn p.name) visible
    obtain ⟨others, away⟩ := scoped_readProperties around rest (held.draw p.name)
    simp only [readProperties, NameScope.allocate_eq, Stmt.areScoped_append, Stmt.after_append,
      new, behind, held.isNew, others, Bool.and_true, true_and]
    intro n hn unseen
    refine away n (scope.mem_drawn _ hn) fun seen => ?_
    rcases List.mem_cons.mp seen with rfl | seen
    · exact scope.fresh_not_mem _ hn
    · exact unseen seen

theorem scoped_setters (owner : JavaType) (held : List (Property × String))
    (visible : List String) :
    Stmt.areScoped visible (held.filterMap (setter? owner)) = true
      ∧ Stmt.after visible (held.filterMap (setter? owner)) = visible := by
  induction held with
  | nil => exact ⟨rfl, rfl⟩
  | cons h rest ih =>
    rw [List.filterMap_cons]
    split
    · exact ih
    next stmt found =>
      unfold setter? at found
      split at found <;> cases found <;> exact ih

/-- An instance is read with new names only. -/
theorem scoped_readBody (s : Statics) (d : Descriptor) :
    Stmt.areScoped [NameScope.input] (readBody s d) = true := by
  obtain ⟨start, around, scope, opened, -, begins, held, reserved, unseen⟩ :=
    scoped_opening s d.type d.requiresClassLoader
  obtain ⟨properties, away⟩ := scoped_readProperties around d.properties held
  have data : isNew (Stmt.after (Stmt.after [NameScope.input] start)
      (readProperties around scope d.properties).2) NameScope.data = true :=
    isNew_iff.mpr ⟨by decide, away _ reserved unseen⟩
  unfold readBody
  simp only [opened, Stmt.areScoped_append, Stmt.after_append, begins, properties, Stmt.areScoped,
    Stmt.isScoped, data, (scoped_setters d.type _ _).1, Bool.and_true]

/-- An instance is written with new names only. -/
theorem scoped_writeBody (s : Statics) (owner : JavaType) : ∀ (ps : List Property)
    {scope : NameScope} {visible : List String}, Holds scope visible →
      Stmt.areScoped visible (writeBody s owner scope ps) = true
  | [], _, _, _ => rfl
  | p :: rest, scope, visible, held => by
    have inner := held.draw p.name
    have direct : Stmt.areScoped (scope.fresh p.name :: visible)
        (writeProperty s p (scope.fresh p.name) (scope.drawn p.name)) = true := by
      refine Statics.scoped_writeSlot _ _ _ ?_
      split
      · rfl
      · exact s.scoped_writePresent p.codec _ inner
    have nothing : Stmt.after (scope.fresh p.name :: visible)
        (writeProperty s p (scope.fresh p.name) (scope.drawn p.name))
          = scope.fresh p.name :: visible := by
      refine Statics.after_writeSlot _ _ _ ?_
      split
      · rfl
      · exact s.after_writePresent p.codec _ _
    simp only [writeBody, NameScope.allocate_eq, List.cons_append, Stmt.areScoped, Stmt.isScoped,
      Stmt.declared, List.nil_append, Stmt.areScoped_append, held.isNew, direct, nothing,
      scoped_writeBody s owner rest inner, Bool.and_true]

theorem localsApart_read (d : Descriptor) : (ofDescriptor d).read.localsApart = true := by
  show Stmt.areScoped [NameScope.input] (if d.singleton then _ else _) = true
  split
  · rfl
  · exact scoped_readBody _ d

theorem localsApart_write (d : Descriptor) : (ofDescriptor d).write.localsApart = true := by
  show Stmt.areScoped [NameScope.data, NameScope.output, NameScope.flags]
    (if d.singleton then _ else _) = true
  split
  · rfl
  · exact scoped_writeBody _ _ _ (by decide)

/-- The procedures of a companion introduce new names only if all codecs that it shares have room,
and only then. -/
theorem localsApart_ofDescriptor (d : Descriptor) : (ofDescriptor d).localsApart
    = (Statics.ofDescriptor d).codecs.all (·.codec.roomy) := by
  have codecs (shared : List SharedCodec) :
      (((shared.map (codecDecl (Statics.ofDescriptor d) d.type)).flatMap fun codec =>
        [codec.read, codec.write]).all (·.localsApart)) = shared.all (·.codec.roomy) := by
    induction shared with
    | nil => rfl
    | cons first rest ih =>
      obtain ⟨reads, writes⟩ := localsApart_codecDecl (Statics.ofDescriptor d) d.type first
      rw [List.map_cons, List.flatMap_cons, List.all_append, ih, List.all_cons, List.all_cons,
        List.all_cons, reads, writes]
      simp
  unfold localsApart procedures
  rw [List.all_cons, List.all_cons, localsApart_read, localsApart_write]
  exact codecs _

end Companion

end ParcelCodec
