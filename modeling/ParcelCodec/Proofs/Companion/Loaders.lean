import ParcelCodec.Companion.OfDescriptor
import ParcelCodec.Proofs.Companion.Scoping

/-!
# Class loaders at hand

Some operations read with a class loader.  A procedure that needs one declares it first of all, in a
variable whose name nothing behind draws again, since all scopes extend the one that holds it.  So
each read that needs a class loader names that variable (`Procedure.HasLoader`).

Whether a procedure needs one is asked of its codecs.  Reading a codec reads with the class loader
as often as the codec has slots for it (`Codec.loaderReads`), those behind adapters and nested
classes apart.

Main statements: `Surroundings.handed_readPresent` and `Companion.hasLoader_ofDescriptor`.
-/

namespace ParcelCodec

open DataClass (Descriptor Property)

/-! ## §1. Reads and bindings. -/

mutual

/-- What an expression names as the class loader, for each read that needs one. -/
def Expr.loaders : Expr → List (Option String)
  | .read op loader => if op.needsClassLoader then [loader] else []
  | .var _ | .null | .int _ | .readNested _ | .adapterRead _ | .codecRead _ | .singleton _
  | .classLoader _ => []
  | .newContainer _ _ none => []
  | .newContainer _ _ (some capacity) => capacity.loaders
  | .size e | .length e | .newArray _ e | .cast _ e | .enumValueOf _ e | .enumName e
  | .field e _ | .getter e _ _ | .reflect e _ _ _ => e.loaders
  | .index e position | .keyAt e position | .valueAt e position => e.loaders ++ position.loaders
  | .construct _ args => Expr.loadersOfArgs args

/-- What the arguments of a constructor name as the class loader. -/
def Expr.loadersOfArgs : List (String × Expr) → List (Option String)
  | [] => []
  | (_, e) :: rest => e.loaders ++ Expr.loadersOfArgs rest

end

mutual

/-- What a statement names as the class loader. -/
def Stmt.loaders : Stmt → List (Option String)
  | .declare _ _ e | .assign _ e | .write _ e | .add _ e | .writeNested _ e | .adapterWrite _ e
  | .codecWrite _ e | .setField _ _ e | .callSetter _ _ _ e | .reflectSet _ _ _ e | .ret e =>
    e.loaders
  | .put _ k v | .store _ k v => k.loaders ++ v.loaders
  | .ifPresent body => Stmt.loadersOfAll body
  | .ifNull e thens otherwise =>
    e.loaders ++ Stmt.loadersOfAll thens ++ Stmt.loadersOfAll otherwise
  | .forCount _ e body | .forEach _ _ e body | .forEntries _ _ _ _ e body =>
    e.loaders ++ Stmt.loadersOfAll body

/-- What several statements name as the class loader. -/
def Stmt.loadersOfAll : List Stmt → List (Option String)
  | [] => []
  | s :: rest => s.loaders ++ Stmt.loadersOfAll rest

end

mutual

/-- The variables that a statement binds at any depth: those that it declares or assigns, and those
of loops. -/
def Stmt.bound : Stmt → List String
  | .declare name _ _ | .assign name _ => [name]
  | .write _ _ | .add _ _ | .put _ _ _ | .store _ _ _ | .writeNested _ _ | .adapterWrite _ _
  | .codecWrite _ _ | .setField _ _ _ | .callSetter _ _ _ _ | .reflectSet _ _ _ _ | .ret _ => []
  | .ifPresent body => Stmt.boundByAll body
  | .ifNull _ thens otherwise => Stmt.boundByAll thens ++ Stmt.boundByAll otherwise
  | .forCount index _ body => index :: Stmt.boundByAll body
  | .forEach var _ _ body => var :: Stmt.boundByAll body
  | .forEntries key _ value _ _ body => key :: value :: Stmt.boundByAll body

/-- The variables that several statements bind. -/
def Stmt.boundByAll : List Stmt → List String
  | [] => []
  | s :: rest => s.bound ++ Stmt.boundByAll rest

end

attribute [simp] Expr.loaders Expr.loadersOfArgs Stmt.loaders Stmt.loadersOfAll Stmt.bound
  Stmt.boundByAll

/-- Each read of a procedure that needs a class loader names a variable that the procedure declares
first of all, as the class loader of its class, and that nothing behind binds again. -/
def Procedure.HasLoader (owner : JavaType) (p : Procedure) : Prop :=
  ∀ loader ∈ Stmt.loadersOfAll p.body, ∃ name rest, loader = some name
    ∧ p.body = .declare name (.named Companion.classLoaderName) (.classLoader owner) :: rest
    ∧ name ∉ Stmt.boundByAll rest

namespace Stmt

/-- Statements in a row are handed what either part is handed. -/
@[simp] theorem loadersOfAll_append (stmts rest : List Stmt) :
    loadersOfAll (stmts ++ rest) = loadersOfAll stmts ++ loadersOfAll rest := by
  induction stmts with
  | nil => rfl
  | cons s tail ih => rw [List.cons_append, loadersOfAll, loadersOfAll, ih, List.append_assoc]

/-- They bind what either part binds. -/
@[simp] theorem boundByAll_append (stmts rest : List Stmt) :
    boundByAll (stmts ++ rest) = boundByAll stmts ++ boundByAll rest := by
  induction stmts with
  | nil => rfl
  | cons s tail ih => rw [List.cons_append, boundByAll, boundByAll, ih, List.append_assoc]

/-- Statements are handed a class loader: they bind no name that is taken, and they read with the
class loader a number of times. -/
structure Handed (loader : Option String) (taken : List String) (n : Nat) (stmts : List Stmt) :
    Prop where
  loaders : loadersOfAll stmts = List.replicate n loader
  bound : ∀ name ∈ boundByAll stmts, name ∉ taken

section Handed

variable {loader : Option String} {taken fewer : List String} {n m : Nat} {stmts rest : List Stmt}

/-- Statements that leave names alone leave fewer of them alone. -/
theorem Handed.mono (h : Handed loader taken n stmts) (sub : fewer ⊆ taken) :
    Handed loader fewer n stmts :=
  ⟨h.loaders, fun name hn again => h.bound name hn (sub again)⟩

/-- Reads in a row are counted together. -/
theorem Handed.append (h : Handed loader taken n stmts) (h' : Handed loader taken m rest) :
    Handed loader taken (n + m) (stmts ++ rest) := by
  refine ⟨?_, fun name hn => ?_⟩
  · rw [loadersOfAll_append, h.loaders, h'.loaders, List.replicate_append_replicate]
  · rw [boundByAll_append] at hn
    exact (List.mem_append.mp hn).elim (h.bound name) (h'.bound name)

/-- Statements that read with no class loader may stand on either side. -/
theorem Handed.silent (loaders : loadersOfAll stmts = []) (bound : boundByAll stmts = []) :
    Handed loader taken 0 stmts :=
  ⟨loaders, by rw [bound]; nofun⟩

/-- Statements are handed a class loader that they read with only if it is needed. -/
def HandedIf (needs : Bool) (loader : Option String) (taken : List String) (stmts : List Stmt) :
    Prop :=
  ∃ n, (needs = false → n = 0) ∧ Handed loader taken n stmts

/-- So it is where it hangs on a need. -/
theorem HandedIf.mono {needs : Bool} (h : HandedIf needs loader taken stmts)
    (sub : fewer ⊆ taken) : HandedIf needs loader fewer stmts := by
  obtain ⟨n, needed, handed⟩ := h
  exact ⟨n, needed, handed.mono sub⟩

/-- Two parts need the class loader if one of them does. -/
theorem HandedIf.append {needs needs' : Bool} (h : HandedIf needs loader taken stmts)
    (h' : HandedIf needs' loader taken rest) :
    HandedIf (needs || needs') loader taken (stmts ++ rest) := by
  obtain ⟨n, needed, handed⟩ := h
  obtain ⟨m, needed', handed'⟩ := h'
  refine ⟨n + m, fun neither => ?_, handed.append handed'⟩
  obtain ⟨first, second⟩ := Bool.or_eq_false_iff.mp neither
  rw [needed first, needed' second]

end Handed

end Stmt

/-! ## §2. Drafts. -/

namespace NameScope

variable {scope : NameScope} {taken : List String}

/-- What is taken stays so when a name is drawn. -/
theorem subset_drawn (sub : taken ⊆ scope.taken) (base : String) :
    taken ⊆ (scope.drawn base).taken :=
  fun _ h => scope.mem_drawn base (sub h)

/-- A name that is free in a scope is none of those that the scope holds. -/
theorem fresh_not_mem_of_subset (sub : taken ⊆ scope.taken) (base : String) :
    scope.fresh base ∉ taken :=
  fun held => scope.fresh_not_mem base (sub held)

end NameScope

open NameScope (subset_drawn fresh_not_mem_of_subset)

/-- What the statements and the value of a draft name as the class loader. -/
def Draft.loaders (d : Draft) : List (Option String) :=
  Stmt.loadersOfAll d.stmts ++ d.value.loaders

/-- A draft is handed a class loader. -/
structure Draft.Handed (loader : Option String) (taken : List String) (n : Nat) (d : Draft) :
    Prop where
  loaders : d.loaders = List.replicate n loader
  bound : ∀ name ∈ Stmt.boundByAll d.stmts, name ∉ taken

section Drafts

variable {loader : Option String} {taken : List String} {n : Nat} {d : Draft} {scope : NameScope}

theorem Draft.Handed.mono {fewer : List String} (h : d.Handed loader taken n)
    (sub : fewer ⊆ taken) : d.Handed loader fewer n :=
  ⟨h.loaders, fun name hn again => h.bound name hn (sub again)⟩

/-- A draft whose value is returned. -/
theorem Draft.Handed.ret (h : d.Handed loader taken n) :
    Stmt.Handed loader taken n (d.stmts ++ [.ret d.value]) := by
  refine ⟨?_, fun name hn => ?_⟩
  · rw [Stmt.loadersOfAll_append, ← h.loaders]
    exact congrArg _ (List.append_nil _)
  · rw [Stmt.boundByAll_append] at hn
    exact h.bound name ((List.mem_append.mp hn).resolve_right nofun)

/-- A draft whose value is kept in a variable, behind a marker or not. -/
theorem Draft.Handed.slot (h : d.Handed loader taken n) {name : String} (new : name ∉ taken)
    (c : Codec) (nullable : Bool) :
    Stmt.Handed loader taken n (Surroundings.readSlot c nullable name d) := by
  have loaders := h.loaders
  unfold Draft.loaders at loaders
  unfold Surroundings.readSlot
  split
  · refine ⟨?_, fun other ho => ?_⟩
    · simpa using loaders
    · simp only [Stmt.boundByAll, Stmt.bound, Stmt.boundByAll_append, List.append_nil,
        List.singleton_append, List.mem_cons, List.mem_append, List.not_mem_nil, or_false] at ho
      rcases ho with rfl | inside | rfl
      · exact new
      · exact h.bound other inside
      · exact new
  · refine ⟨?_, fun other ho => ?_⟩
    · simpa using loaders
    · simp only [Stmt.boundByAll, Stmt.bound, Stmt.boundByAll_append, List.append_nil,
        List.mem_append, List.mem_singleton] at ho
      rcases ho with inside | rfl
      · exact h.bound other inside
      · exact new

/-- A container reads with the class loader as often as the statements for one element say. -/
theorem Draft.Handed.container {kind : ContainerKind} {concrete : JavaType} {sized : Bool}
    {element : String → NameScope → List Stmt}
    (h : ∀ target inner, scope.taken ⊆ inner.taken →
      Stmt.Handed loader scope.taken n (element target inner)) :
    (Surroundings.readContainer kind concrete sized scope element).Handed loader scope.taken n := by
  have size := subset_drawn (List.Subset.refl scope.taken) "size"
  have target := subset_drawn size (Surroundings.containerName kind)
  have body := h ((scope.drawn "size").fresh (Surroundings.containerName kind)) _
    (subset_drawn target "i")
  refine ⟨?_, fun name hn => ?_⟩
  · rw [← body.loaders]
    cases sized <;>
      simp [Draft.loaders, Surroundings.readContainer, Wire.Op.needsClassLoader,
        NameScope.allocate_eq]
  · simp only [Surroundings.readContainer, Stmt.boundByAll, Stmt.bound, NameScope.allocate_eq,
      List.append_nil, List.singleton_append, List.mem_cons] at hn
    rcases hn with rfl | rfl | rfl | inside
    · exact scope.fresh_not_mem _
    · exact fresh_not_mem_of_subset size _
    · exact fresh_not_mem_of_subset target _
    · exact body.bound name inside

/-- An array is handed the class loader for its elements only. -/
theorem Draft.Handed.array {ty : JavaType} {e : Codec}
    {element : String → NameScope → List Stmt}
    (h : ∀ item inner, scope.taken ⊆ inner.taken → item ∉ scope.taken →
      Stmt.Handed loader scope.taken n (element item inner)) :
    (Surroundings.readArray ty e scope element).Handed loader scope.taken n := by
  have length := subset_drawn (List.Subset.refl scope.taken) "length"
  have array := subset_drawn length "array"
  have index := subset_drawn array "i"
  have body := h _ _ (subset_drawn index "element") (fresh_not_mem_of_subset index "element")
  refine ⟨?_, fun name hn => ?_⟩
  · rw [← body.loaders]
    by_cases tagged : e.isTagged = true <;>
      simp [tagged, Draft.loaders, Surroundings.readArray, Wire.Op.needsClassLoader,
        NameScope.allocate_eq]
  · simp only [Surroundings.readArray, Stmt.boundByAll, Stmt.bound, NameScope.allocate_eq,
      Stmt.boundByAll_append, List.append_nil, List.singleton_append, List.mem_cons] at hn
    rcases hn with rfl | rfl | rfl | inside
    · exact scope.fresh_not_mem _
    · exact fresh_not_mem_of_subset length _
    · exact fresh_not_mem_of_subset array _
    · exact body.bound name inside

variable {inner : NameScope}

/-- The statements for one element of a collection. -/
theorem Draft.Handed.item (element : d.Handed loader (inner.drawn "element").taken n)
    (sub : taken ⊆ inner.taken) (e : Codec) (nullable : Bool) (target : String) :
    Stmt.Handed loader taken n
      (Surroundings.readSlot e nullable (inner.fresh "element") d
        ++ [.add target (.var (inner.fresh "element"))]) :=
  ((element.mono (subset_drawn sub "element")).slot (fresh_not_mem_of_subset sub "element") e
    nullable).append (.silent rfl rfl)

/-- The statements for one entry of a map. -/
theorem Draft.Handed.entry {d' : Draft} {m : Nat}
    (key : d.Handed loader (inner.drawn "key").taken n)
    (value : d'.Handed loader ((inner.drawn "key").drawn "value").taken m)
    (sub : taken ⊆ inner.taken) (k v : Codec) (nullable : Bool) (target : String) :
    Stmt.Handed loader taken (n + m)
      (Surroundings.readSlot k nullable (inner.fresh "key") d
        ++ Surroundings.readSlot v true ((inner.drawn "key").fresh "value") d'
        ++ [.put target (.var (inner.fresh "key"))
          (.var ((inner.drawn "key").fresh "value"))]) := by
  have wider := subset_drawn sub "key"
  have keys := (key.mono wider).slot (fresh_not_mem_of_subset sub "key") k nullable
  have values := (value.mono (subset_drawn wider "value")).slot
    (fresh_not_mem_of_subset wider "value") v true
  exact (keys.append values).append (.silent rfl rfl)

/-- The statements for one entry of a sparse array. -/
theorem Draft.Handed.sparseEntry
    (value : d.Handed loader ((inner.drawn "key").drawn "value").taken n)
    (sub : taken ⊆ inner.taken) (e : Codec) (target : String) :
    Stmt.Handed loader taken n
      ([.declare (inner.fresh "key") .int (.read .int none)]
        ++ Surroundings.readSlot e true ((inner.drawn "key").fresh "value") d
        ++ [.put target (.var (inner.fresh "key"))
          (.var ((inner.drawn "key").fresh "value"))]) := by
  have wider := subset_drawn sub "key"
  have key : Stmt.Handed loader taken 0 [.declare (inner.fresh "key") .int (.read .int none)] := by
    refine ⟨rfl, fun name hn => ?_⟩
    obtain rfl := List.mem_singleton.mp hn
    exact fresh_not_mem_of_subset sub "key"
  have values := (value.mono (subset_drawn wider "value")).slot
    (fresh_not_mem_of_subset wider "value") e true
  rw [← Nat.zero_add n]
  exact (key.append values).append (.silent rfl rfl)

end Drafts

/-! ## §3. Codecs. -/

/-- How many reads with the class loader a value of a codec takes, adapters and nested classes
apart. -/
def Codec.loaderReads : Codec → Nat
  | .leaf _ l => if leafRequiresClassLoader l then 1 else 0
  | .array _ e | .sequence _ _ _ e | .sparseArray _ e => e.loaderReads
  | .map _ _ k v => k.loaderReads + v.loaderReads
  | .adapter _ _ _ => 0

/-- A codec requires the class loader if some value in it is read with it. -/
theorem Codec.loaderReads_eq_zero_iff (c : Codec) :
    c.loaderReads = 0 ↔ c.requiresClassLoader = false := by
  induction c using Codec.requiresClassLoader.induct with
  | case1 ty l => cases h : leafRequiresClassLoader l <;> simp [loaderReads, requiresClassLoader, h]
  | case2 ty e ih => exact ih
  | case3 ty kind box e ih => exact ih
  | case4 ty e ih => exact ih
  | case5 ty box k v ihk ihv =>
    simp only [loaderReads, requiresClassLoader, Nat.add_eq_zero_iff, ihk, ihv,
      Bool.or_eq_false_iff]
  | case6 ty use deps => exact ⟨fun _ => rfl, fun _ => rfl⟩

/-- A leaf is read with the class loader once or not at all. -/
theorem loaders_readLeaf (s : Surroundings) (ty : JavaType) (l : Leaf) :
    (s.readLeaf ty l).loaders = List.replicate (Codec.leaf ty l).loaderReads s.loader := by
  cases l with
  | primitive p => cases p <;> rfl
  | boxed p => cases p <;> rfl
  | primitiveArray p => cases p <;> rfl
  | platform op => cases op <;> rfl
  | _ => rfl

/-- Reading a codec hands the class loader of the procedure on to each read that needs one, and
binds no name that is taken. -/
theorem Surroundings.handed_readPresent (s : Surroundings) : ∀ (c : Codec) (scope : NameScope),
    (s.readPresent c scope).Handed s.loader scope.taken c.loaderReads
  | .leaf ty l, _ => ⟨loaders_readLeaf s ty l, nofun⟩
  | .adapter _ _ _, _ => ⟨rfl, nofun⟩
  | .array _ e, scope => by
    rw [readPresent]
    exact .array fun item inner sub new => ((handed_readPresent s e inner).mono sub).slot new e true
  | .sequence _ kind box e, scope => by
    rw [readPresent]
    exact .container fun target inner sub => (handed_readPresent s e _).item sub e box.nulls target
  | .map _ box k v, scope => by
    rw [readPresent]
    exact .container fun target inner sub =>
      (handed_readPresent s k _).entry (handed_readPresent s v _) sub k v box.nulls target
  | .sparseArray _ e, scope => by
    rw [readPresent]
    exact .container fun target inner sub => (handed_readPresent s e _).sparseEntry sub e target

/-- Whether reading a codec needs the class loader is whether there is a read that does. -/
theorem Codec.requiresClassLoader_iff {loader : Option String} {taken : List String} {d : Draft}
    {c : Codec} (h : d.Handed loader taken c.loaderReads) :
    c.requiresClassLoader = true ↔ d.loaders ≠ [] := by
  rw [h.loaders, ne_eq, List.replicate_eq_nil_iff, loaderReads_eq_zero_iff, Bool.not_eq_false]

/-! ## §4. Writing. -/

/-- A slot is written without the class loader if its value is. -/
theorem loaders_writeSlot {direct : List Stmt} (c : Codec) (nullable : Bool) (name : String)
    (h : Stmt.loadersOfAll direct = []) :
    Stmt.loadersOfAll (Statics.writeSlot c nullable (.var name) direct) = [] := by
  unfold Statics.writeSlot
  split
  · simp [Statics.present, Statics.absent, h]
  · exact h

/-- No leaf is written with the class loader. -/
theorem loaders_writeLeaf (name : String) (l : Leaf) :
    (Statics.writeLeaf (.var name) l).loaders = [] := by
  cases l <;> rfl

/-- Writing reads nothing. -/
theorem loaders_writePresent (s : Statics) : ∀ (c : Codec) (name : String) (scope : NameScope),
    Stmt.loadersOfAll (s.writePresent c (.var name) scope) = []
  | .leaf _ l, name, _ => by
    simp [Statics.writePresent, loaders_writeLeaf name l]
  | .adapter _ _ _, _, _ => rfl
  | .array _ e, _, _ => by
    have element name scope := loaders_writeSlot e true name (loaders_writePresent s e name scope)
    simp [Statics.writePresent, element]
  | .sequence _ _ box e, _, _ => by
    have element name scope :=
      loaders_writeSlot e box.nulls name (loaders_writePresent s e name scope)
    simp [Statics.writePresent, element]
  | .map _ box k v, _, _ => by
    have key name scope := loaders_writeSlot k box.nulls name (loaders_writePresent s k name scope)
    have value name scope := loaders_writeSlot v true name (loaders_writePresent s v name scope)
    simp [Statics.writePresent, key, value]
  | .sparseArray _ e, _, _ => by
    have element name scope := loaders_writeSlot e true name (loaders_writePresent s e name scope)
    simp [Statics.writePresent, element]

/-! ## §5. Procedures. -/

namespace Companion

variable {owner : JavaType} {needs : Bool} {s : Statics} {n : Nat} {stmts tail : List Stmt}

/-- A procedure that reads nothing with a class loader needs none. -/
theorem hasLoader_of_silent {p : Procedure} (h : Stmt.loadersOfAll p.body = []) :
    p.HasLoader owner := by
  intro loader hl
  rw [h] at hl
  cases hl

/-- The variable that holds the class loader is taken from the start. -/
theorem mem_taken_opening (s : Statics) (owner : JavaType) (needs : Bool) :
    ∀ name, (opening s owner needs).2.1.loader = some name →
      name ∈ (opening s owner needs).2.2.taken ∧ name ∉ NameScope.locals.taken := by
  cases needs with
  | false => nofun
  | true =>
    intro name h
    cases h
    exact ⟨NameScope.locals.fresh_mem_drawn "loader", NameScope.locals.fresh_not_mem "loader"⟩

/-- A procedure has its class loader if the statements behind its opening are handed it, and those
at its end bind only what is taken in every procedure. -/
theorem hasLoader_opening {value : Option String}
    (h : Stmt.HandedIf needs (opening s owner needs).2.1.loader (opening s owner needs).2.2.taken
      stmts)
    (silent : Stmt.loadersOfAll tail = [])
    (bound : Stmt.boundByAll tail ⊆ NameScope.locals.taken) :
    Procedure.HasLoader owner ⟨value, (opening s owner needs).1 ++ stmts ++ tail⟩ := by
  have taken := mem_taken_opening s owner needs
  obtain ⟨n, needed, handed⟩ := h
  have loaders : Stmt.loadersOfAll (stmts ++ tail)
      = List.replicate n (opening s owner needs).2.1.loader := by
    rw [Stmt.loadersOfAll_append, silent, handed.loaders, List.append_nil]
  cases needs with
  | false =>
    rw [needed rfl] at loaders
    exact hasLoader_of_silent loaders
  | true =>
    obtain ⟨held, new⟩ := taken _ rfl
    intro loader hl
    change loader ∈ Stmt.loadersOfAll (stmts ++ tail) at hl
    rw [loaders] at hl
    refine ⟨_, stmts ++ tail, List.eq_of_mem_replicate hl, rfl, fun again => ?_⟩
    rw [Stmt.boundByAll_append] at again
    rcases List.mem_append.mp again with again | again
    · exact handed.bound _ again held
    · exact new (bound again)

/-- The procedure that reads the value of a shared codec has its class loader. -/
theorem hasLoader_shared {c : Codec} {d : Draft}
    (h : d.Handed (opening s owner c.requiresClassLoader).2.1.loader
      (opening s owner c.requiresClassLoader).2.2.taken c.loaderReads) :
    Procedure.HasLoader owner
      ⟨none, (opening s owner c.requiresClassLoader).1 ++ d.stmts ++ [.ret d.value]⟩ := by
  have all : Procedure.HasLoader owner ⟨none, _ ++ (d.stmts ++ [.ret d.value]) ++ []⟩ :=
    hasLoader_opening ⟨_, c.loaderReads_eq_zero_iff.mpr, h.ret⟩ rfl (List.nil_subset _)
  rwa [List.append_nil, ← List.append_assoc] at all

/-- The procedures of a shared codec have their class loaders. -/
theorem hasLoader_codecDecl (s : Statics) (owner : JavaType) (shared : SharedCodec) :
    (codecDecl s owner shared).read.HasLoader owner
      ∧ (codecDecl s owner shared).write.HasLoader owner :=
  ⟨hasLoader_shared (Surroundings.handed_readPresent _ shared.codec _),
    hasLoader_of_silent (loaders_writePresent s shared.codec _ _)⟩

/-- A property is read with the class loader only if its codec requires that: through a shared
codec, or on the spot. -/
theorem handedIf_slot {loader : Option String} {taken : List String} {name : String} {d : Draft}
    (p : Property) (h : d.Handed loader taken 0 ∨ d.Handed loader taken p.codec.loaderReads)
    (new : name ∉ taken) : Stmt.HandedIf p.codec.requiresClassLoader loader taken
      (Surroundings.readSlot p.codec p.nullable name d) := by
  rcases h with shared | spot
  · exact ⟨0, fun _ => rfl, shared.slot new _ _⟩
  · exact ⟨_, p.codec.loaderReads_eq_zero_iff.mpr, spot.slot new _ _⟩

/-- A property is read with the class loader only if its codec needs it. -/
theorem handedIf_readProperty (around : Surroundings) (p : Property) {scope : NameScope}
    {taken : List String} {name : String} (sub : taken ⊆ scope.taken) (new : name ∉ taken) :
    Stmt.HandedIf p.codec.requiresClassLoader around.loader taken
      (readProperty around p name scope) := by
  refine handedIf_slot p ?_ new
  by_cases composite : p.codec.isComposite = true
  · rw [if_pos composite]
    exact .inl ⟨rfl, nofun⟩
  · rw [if_neg composite]
    exact .inr ((around.handed_readPresent p.codec scope).mono sub)

/-- The properties are handed the class loader of the procedure. -/
theorem handedIf_readProperties (around : Surroundings) (ps : List Property) :
    ∀ scope : NameScope, Stmt.HandedIf (ps.any (·.codec.requiresClassLoader)) around.loader
      scope.taken (readProperties around scope ps).2 := by
  induction ps with
  | nil =>
    intro scope
    exact ⟨0, fun _ => rfl, .silent rfl rfl⟩
  | cons p rest ih =>
    intro scope
    have wider := subset_drawn (List.Subset.refl scope.taken) p.name
    exact (handedIf_readProperty around p wider (scope.fresh_not_mem p.name)).append
      ((ih (scope.drawn p.name)).mono wider)

/-! ## §6. Instances. -/

/-- The statements that build an instance from its properties. -/
def building (type : JavaType) (held : List (Property × String)) : List Stmt :=
  [.declare NameScope.data type (.construct type (held.filterMap argument?))]
    ++ held.filterMap (setter? type) ++ [.ret (.var NameScope.data)]

/-- The arguments of a constructor are local variables. -/
theorem loaders_arguments (held : List (Property × String)) :
    Expr.loadersOfArgs (held.filterMap argument?) = [] := by
  induction held with
  | nil => rfl
  | cons p rest ih =>
    unfold argument? at ih ⊢
    rcases access : p.1.write <;> simp [access, ih]

/-- Setting a property reads nothing. -/
theorem loaders_setters (type : JavaType) (held : List (Property × String)) :
    Stmt.loadersOfAll (held.filterMap (setter? type)) = [] := by
  induction held with
  | nil => rfl
  | cons p rest ih =>
    unfold setter? at ih ⊢
    rcases access : p.1.write <;>
      simp [access, ih]

/-- It binds no variable either. -/
theorem bound_setters (type : JavaType) (held : List (Property × String)) :
    Stmt.boundByAll (held.filterMap (setter? type)) = [] := by
  induction held with
  | nil => rfl
  | cons p rest ih =>
    unfold setter? at ih ⊢
    rcases access : p.1.write <;> simp [access, ih]

/-- Building an instance reads nothing. -/
theorem loaders_building (type : JavaType) (held : List (Property × String)) :
    Stmt.loadersOfAll (building type held) = [] := by
  simp [building, loaders_arguments, loaders_setters]

/-- It binds the instance only. -/
theorem bound_building (type : JavaType) (held : List (Property × String)) :
    Stmt.boundByAll (building type held) = [NameScope.data] := by
  simp [building, bound_setters]

/-- The procedure that reads an instance has its class loader if its properties are handed it. -/
theorem hasLoader_instance {d : Descriptor} (held : List (Property × String))
    (properties : Stmt.HandedIf d.requiresClassLoader
      (opening s d.type d.requiresClassLoader).2.1.loader
      (opening s d.type d.requiresClassLoader).2.2.taken stmts) :
    Procedure.HasLoader d.type ⟨none, (opening s d.type d.requiresClassLoader).1 ++ stmts
      ++ [.declare NameScope.data d.type (.construct d.type (held.filterMap argument?))]
      ++ held.filterMap (setter? d.type) ++ [.ret (.var NameScope.data)]⟩ := by
  have all : Procedure.HasLoader d.type ⟨none, _ ++ _ ++ building d.type held⟩ :=
    hasLoader_opening properties (loaders_building d.type held)
      (by rw [bound_building]; decide)
  simpa only [building, List.append_assoc] using all

theorem loaders_propertyValue (owner : JavaType) (p : Property) :
    (propertyValue owner p).loaders = [] := by
  unfold propertyValue
  split <;> rfl

/-- Obtaining and writing a property reads nothing. -/
theorem loaders_writing {owner : JavaType} {stmts rest : List Stmt} (p : Property) (name : String)
    (first : Stmt.loadersOfAll stmts = []) (others : Stmt.loadersOfAll rest = []) :
    Stmt.loadersOfAll (.declare name p.type (propertyValue owner p) :: stmts ++ rest) = [] := by
  rw [List.cons_append, Stmt.loadersOfAll, Stmt.loadersOfAll_append, first, others]
  show (propertyValue owner p).loaders ++ [] = []
  rw [List.append_nil, loaders_propertyValue]

/-- An instance is written without the class loader. -/
theorem loaders_writeBody (s : Statics) (owner : JavaType) (ps : List Property) :
    ∀ scope : NameScope, Stmt.loadersOfAll (writeBody s owner scope ps) = [] := by
  induction ps with
  | nil =>
    intro scope
    rfl
  | cons p rest ih =>
    intro scope
    refine loaders_writing p _ (loaders_writeSlot _ _ _ ?_) (ih _)
    split
    · rfl
    · exact loaders_writePresent s p.codec _ _

/-- A planned companion's procedures have their class loaders. -/
theorem hasLoader_ofDescriptor (d : Descriptor) {p : Procedure}
    (hp : p ∈ (ofDescriptor d).procedures) : p.HasLoader d.type := by
  rcases List.mem_cons.mp hp with rfl | hp
  · show Procedure.HasLoader d.type ⟨none, if d.singleton then _ else _⟩
    split
    · exact hasLoader_of_silent rfl
    · exact hasLoader_instance _ (handedIf_readProperties _ _ _)
  · rcases List.mem_cons.mp hp with rfl | hp
    · show Procedure.HasLoader d.type ⟨some _, if d.singleton then _ else _⟩
      split
      · exact hasLoader_of_silent rfl
      · exact hasLoader_of_silent (loaders_writeBody _ d.type d.properties _)
    · obtain ⟨codec, hc, hp⟩ := List.mem_flatMap.mp hp
      obtain ⟨shared, -, rfl⟩ := List.mem_map.mp hc
      have both := hasLoader_codecDecl (Statics.ofDescriptor d) d.type shared
      simp only [List.mem_cons, List.not_mem_nil, or_false] at hp
      rcases hp with rfl | rfl
      · exact both.1
      · exact both.2

end Companion

end ParcelCodec
